import MiniDbms.Query.Grammar

/-!
# The parser accepts the grammar

Each function of the parser accepts the phrases of one symbol of the grammar (`Accepts`), or stores
the statements that they denote (`StoresAll`). `parseInto_ok_iff` says that `Parse` accepts exactly
the sentences.
-/

namespace MiniDbms

open Lib

namespace Parser

open Grammar

/-! ## The functions of the parser -/

/-- What `Peek` sees. -/
def next (tokens : List Token) : TokenType := (tokens.headD ⟨.endOfFile, []⟩).type

/-- The parser accepts the phrases. -/
abbrev Accepts {α : Type} (p : Parser α) (phrase : List Token → α → Prop)
    (ends follow : TokenType → Prop) : Prop :=
  Parses next p phrase ends follow

variable {α : Type} {type : TokenType} {tokens rest : List Token}

theorem run_matchToken (type : TokenType) (tokens : List Token) :
    (matchToken type).run tokens =
      if next tokens = type then .ok (true, tokens.tail) else .ok (false, tokens) := by
  show (if next tokens ≠ type then _ else _ : Parser Bool).run tokens = _
  by_cases h : next tokens = type
  · rw [if_neg (not_not.mpr h), if_pos h]
    rfl
  · rw [if_pos h, if_neg h]
    rfl

/-- A list whose first token is not the end of the file has a first token. -/
theorem eq_cons_of_next (h : next tokens = type) (ht : type ≠ .endOfFile) :
    ∃ text, tokens = ⟨type, text⟩ :: tokens.tail := by
  cases tokens with
  | nil => exact absurd h.symm ht
  | cons token tokens => exact ⟨token.text, by rw [← h]; rfl⟩

theorem matchToken_true (ht : type ≠ .endOfFile) :
    (matchToken type).run tokens = .ok (true, rest) ↔ ∃ text, tokens = ⟨type, text⟩ :: rest := by
  rw [run_matchToken]
  constructor
  · intro h
    split at h
    · rename_i hnext
      cases h
      exact eq_cons_of_next hnext ht
    · cases h
  · intro h
    obtain ⟨text, rfl⟩ := h
    exact if_pos rfl

theorem matchToken_false :
    (matchToken type).run tokens = .ok (false, rest) ↔ next tokens ≠ type ∧ rest = tokens := by
  rw [run_matchToken]
  constructor
  · intro h
    split at h
    · cases h
    · rename_i hnext
      cases h
      exact ⟨hnext, rfl⟩
  · intro h
    rw [if_neg h.1, h.2]

/-! ## Single tokens and choices -/

theorem accepts_expect (ht : type ≠ .endOfFile) (msg : String) :
    Accepts (expect type msg) (fun front _ => ∃ text, front = [⟨type, text⟩]) anything
    anything where
  sound {tokens _ rest} hrun := by
    obtain ⟨b, mid, hmatch, h⟩ := run_bind_ok.mp hrun
    cases b with
    | false => cases h
    | true =>
      obtain ⟨text, rfl⟩ := (matchToken_true ht).mp hmatch
      obtain ⟨-, rfl⟩ := run_pure_ok.mp h
      exact ⟨_, ⟨text, rfl⟩, rfl, trivial⟩
  complete {front _ rest} h _ := by
    obtain ⟨text, rfl⟩ := h
    exact run_bind_ok.mpr ⟨true, rest, (matchToken_true ht).mpr ⟨text, rfl⟩, rfl⟩

theorem accepts_expectIdentifier (msg : String) :
    Accepts (expectIdentifier msg) Identifier anything anything where
  sound {tokens name rest} hrun := by
    obtain ⟨token, mid, hpeek, h⟩ := run_bind_ok.mp hrun
    cases hpeek
    split at h
    · cases h
    · rename_i hnext
      obtain ⟨text, htokens⟩ := eq_cons_of_next (not_not.mp hnext) nofun
      cases h
      refine ⟨_, rfl, ?_, trivial⟩
      rw [htokens]
      rfl
  complete {front name rest} h _ := by
    cases h
    rfl

section

variable {g : Parser α} {f : Bytes → Parser α} {phrase : List Token → α → Prop}
  {phrases : Bytes → List Token → α → Prop} {ends follow : TokenType → Prop}

theorem accepts_expect_bind (ht : type ≠ .endOfFile) (msg : String)
    (hg : Accepts g phrase ends follow) :
    Accepts (do expect type msg; g)
      (fun front a => ∃ text tail, front = ⟨type, text⟩ :: tail ∧ phrase tail a) ends follow := by
  refine ((accepts_expect ht msg).bind (fun _ => hg) fun _ _ => trivial).congr fun front a => ?_
  constructor
  · rintro ⟨_, _, tail, ⟨text, rfl⟩, htail, rfl⟩
    exact ⟨text, tail, rfl, htail⟩
  · rintro ⟨text, tail, rfl, htail⟩
    exact ⟨(), [⟨type, text⟩], tail, ⟨text, rfl⟩, htail, rfl⟩

theorem accepts_identifier_bind (msg : String)
    (hg : ∀ name, Accepts (f name) (phrases name) ends follow) :
    Accepts (do f (← expectIdentifier msg))
      (fun front a => ∃ name tail, front = ⟨.identifier, name⟩ :: tail ∧ phrases name tail a)
      ends follow := by
  refine ((accepts_expectIdentifier msg).bind hg fun _ _ => trivial).congr fun front a => ?_
  constructor
  · rintro ⟨name, _, tail, rfl, htail, rfl⟩
    exact ⟨name, tail, rfl, htail⟩
  · rintro ⟨name, tail, rfl, htail⟩
    exact ⟨name, [⟨.identifier, name⟩], tail, rfl, htail, rfl⟩

end

/-- A first token decides between two phrases. -/
theorem accepts_match {x y : Parser α} {first second : List Token → α → Prop}
    {ends follow follow' : TokenType → Prop} (ht : type ≠ .endOfFile)
    (hx : Accepts x first ends follow) (hy : Accepts y second ends follow')
    (hnext : ∀ {front a rest}, second front a → follow' (next rest) → next (front ++ rest) ≠ type) :
    Accepts (do if ← matchToken type then x else y)
      (fun front a => (∃ text tail, front = ⟨type, text⟩ :: tail ∧ first tail a) ∨ second front a)
      ends (fun k => follow k ∧ follow' k) where
  sound {tokens a rest} hrun := by
    obtain ⟨b, mid, hmatch, h⟩ := run_bind_ok.mp hrun
    cases b with
    | true =>
      obtain ⟨text, rfl⟩ := (matchToken_true ht).mp hmatch
      obtain ⟨front, hfront, rfl, hends⟩ := hx.sound h
      exact ⟨_, .inl ⟨text, front, rfl, hfront⟩, rfl, hends⟩
    | false =>
      obtain ⟨-, rfl⟩ := matchToken_false.mp hmatch
      obtain ⟨front, hfront, rfl, hends⟩ := hy.sound h
      exact ⟨front, .inr hfront, rfl, hends⟩
  complete {front a rest} h hfollow := by
    rcases h with ⟨text, tail, rfl, htail⟩ | hsecond
    · exact run_bind_ok.mpr
        ⟨true, _, (matchToken_true ht).mpr ⟨text, rfl⟩, hx.complete htail hfollow.1⟩
    · exact run_bind_ok.mpr ⟨false, _, matchToken_false.mpr ⟨hnext hsecond hfollow.2, rfl⟩,
        hy.complete hsecond hfollow.2⟩

/-! ## Literals, operators and conditions -/

theorem accepts_parseLiteral : Accepts parseLiteral Literal anything anything where
  sound {tokens literal rest} hrun := by
    obtain ⟨token, mid, hadvance, h⟩ := run_bind_ok.mp hrun
    cases hadvance
    cases tokens with
    | nil => cases h
    | cons token tokens =>
      obtain ⟨type, text⟩ := token
      cases type
      case number =>
        cases h
        exact ⟨_, .number text, rfl, trivial⟩
      case stringLiteral =>
        cases h
        exact ⟨_, .string text, rfl, trivial⟩
      case identifier =>
        cases h
        exact ⟨_, .identifier text, rfl, trivial⟩
      case keywordNull =>
        cases h
        exact ⟨_, .null text, rfl, trivial⟩
      all_goals cases h
  complete {front literal rest} h _ := by
    cases h <;> rfl

theorem accepts_parseOperator : Accepts parseOperator Operator anything anything where
  sound {tokens op rest} h := by
    cases tokens with
    | nil => cases h
    | cons token tokens =>
      obtain ⟨type, text⟩ := token
      cases type
      case equal =>
        cases h
        exact ⟨_, .equal text, rfl, trivial⟩
      case greaterEqual =>
        cases h
        exact ⟨_, .greaterEqual text, rfl, trivial⟩
      case lessEqual =>
        cases h
        exact ⟨_, .lessEqual text, rfl, trivial⟩
      case greater =>
        cases h
        exact ⟨_, .greater text, rfl, trivial⟩
      case less =>
        cases h
        exact ⟨_, .less text, rfl, trivial⟩
      all_goals cases h
  complete {front op rest} h _ := by
    cases h <;> rfl

theorem accepts_parseCondition : Accepts parseCondition Cond anything anything := by
  refine ((accepts_expectIdentifier _).bind (fun column => accepts_parseOperator.bind
    (fun op => accepts_parseLiteral.map fun value => (⟨column, op, value⟩ : Condition))
    fun _ _ => trivial) fun _ _ => trivial).congr fun front condition => ?_
  constructor
  · rintro ⟨column, _, _, rfl, ⟨op, operator, literal, hop, ⟨value, hvalue, rfl⟩, rfl⟩, rfl⟩
    exact @Cond.intro column op operator literal value hop hvalue
  · rintro ⟨hop, hvalue⟩
    exact ⟨_, _, _, rfl, ⟨_, _, _, hop, ⟨_, hvalue, rfl⟩, rfl⟩, rfl⟩

/-! ## Repetitions -/

section

variable {item : Parser α} {phrase : List Token → α → Prop} {separator : TokenType}
  {follow : TokenType → Prop}

theorem sepBy_sound (hitem : Accepts item phrase anything follow) (ht : separator ≠ .endOfFile)
    (hne : ∀ {front a}, phrase front a → front ≠ []) :
    ∀ (fuel : Nat) (tokens rest : List Token) (as : List α), tokens.length < fuel →
      (sepBy item separator fuel).run tokens = .ok (as, rest) →
      ∃ front, Items phrase separator front as ∧ tokens = front ++ rest := by
  intro fuel
  induction fuel with
  | zero => exact fun tokens rest as h => absurd h (Nat.not_lt_zero _)
  | succ fuel ih =>
    intro tokens rest as hfuel hrun
    obtain ⟨a, mid, hfirst, htail⟩ := run_bind_ok.mp hrun
    obtain ⟨front, hfront, rfl, -⟩ := hitem.sound hfirst
    obtain ⟨more, mid', hmatch, hloop⟩ := run_bind_ok.mp htail
    cases more with
    | false =>
      obtain ⟨-, rfl⟩ := matchToken_false.mp hmatch
      obtain ⟨rfl, rfl⟩ := run_pure_ok.mp hloop
      exact ⟨front, .one hfront, rfl⟩
    | true =>
      obtain ⟨text, rfl⟩ := (matchToken_true ht).mp hmatch
      obtain ⟨as, mid, hrest, hend⟩ := run_bind_ok.mp hloop
      obtain ⟨rfl, rfl⟩ := run_pure_ok.mp hend
      have hpos := List.length_pos_of_ne_nil (hne hfront)
      rw [List.length_append, List.length_cons] at hfuel
      obtain ⟨tail, hitems, rfl⟩ := ih _ _ _ (by omega) hrest
      exact ⟨front ++ ⟨separator, text⟩ :: tail, .more hfront rfl hitems, by simp⟩

theorem sepBy_complete (hitem : Accepts item phrase anything follow) (ht : separator ≠ .endOfFile)
    (hseparator : follow separator) (hne : ∀ {front a}, phrase front a → front ≠ [])
    {front : List Token} {as : List α} (h : Items phrase separator front as) :
    ∀ (fuel : Nat), front.length < fuel → follow (next rest) → next rest ≠ separator →
      (sepBy item separator fuel).run (front ++ rest) = .ok (as, rest) := by
  induction h with
  | @one front a h =>
    intro fuel hfuel hfollow hnext
    obtain ⟨fuel, rfl⟩ := Nat.exists_eq_add_one_of_ne_zero (Nat.ne_of_gt (Nat.zero_lt_of_lt hfuel))
    exact run_bind_ok.mpr ⟨a, rest, hitem.complete h hfollow, run_bind_ok.mpr
      ⟨false, rest, matchToken_false.mpr ⟨hnext, rfl⟩, rfl⟩⟩
  | @more front tail token a as h htoken _ ih =>
    intro fuel hfuel hfollow hnext
    obtain ⟨fuel, rfl⟩ := Nat.exists_eq_add_one_of_ne_zero (Nat.ne_of_gt (Nat.zero_lt_of_lt hfuel))
    have hpos := List.length_pos_of_ne_nil (hne h)
    rw [List.length_append, List.length_cons] at hfuel
    rw [List.append_assoc, List.cons_append]
    refine run_bind_ok.mpr ⟨a, token :: (tail ++ rest), hitem.complete h ?_, run_bind_ok.mpr
      ⟨true, tail ++ rest, (matchToken_true ht).mpr ⟨token.text, ?_⟩, run_bind_ok.mpr
        ⟨as, rest, ih fuel (by omega) hfollow hnext, rfl⟩⟩⟩
    · show follow token.type
      rw [htoken]
      exact hseparator
    · rw [← htoken]

/-- There are more turns than tokens, so that the loop ends by itself. -/
theorem accepts_sepByAll (hitem : Accepts item phrase anything follow) (ht : separator ≠ .endOfFile)
    (hseparator : follow separator) (hne : ∀ {front a}, phrase front a → front ≠ []) :
    Accepts (sepByAll item separator) (Items phrase separator) anything
      (fun k => follow k ∧ k ≠ separator) where
  sound {tokens as rest} hrun := by
    obtain ⟨front, hfront, htokens⟩ := sepBy_sound hitem ht hne (tokens.length + 1) tokens rest as
      (Nat.lt_succ_self _) hrun
    exact ⟨front, hfront, htokens, trivial⟩
  complete {front as rest} h hfollow := by
    refine sepBy_complete hitem ht hseparator hne h ((front ++ rest).length + 1) ?_
      hfollow.1 hfollow.2
    rw [List.length_append]
    omega

end

/-! ## Clauses -/

theorem cond_ne_nil {front : List Token} {condition : Condition} (h : Cond front condition) :
    front ≠ [] := by
  cases h
  nofun

theorem accepts_parseWhere :
    Accepts parseWhere Where anything fun k => k ≠ .keywordAnd ∧ k ≠ .keywordWhere := by
  have hconditions : Accepts parseConditions (Items Cond .keywordAnd) anything
      (fun k => anything k ∧ k ≠ .keywordAnd) :=
    accepts_sepByAll accepts_parseCondition nofun trivial cond_ne_nil
  have habsent : Accepts (pure [] : Parser (List Condition)) (fun front a => front = [] ∧ a = [])
      anything (fun k => k ≠ .keywordWhere) := (Parses.pure _).strengthen fun _ _ => trivial
  refine ((accepts_match (show TokenType.keywordWhere ≠ .endOfFile by nofun) hconditions habsent
    ?_).congr ?_).strengthen ?_
  · rintro front a rest ⟨rfl, rfl⟩ hfollow
    exact hfollow
  · intro front conditions
    constructor
    · rintro (⟨text, tail, rfl, htail⟩ | ⟨rfl, rfl⟩)
      · exact .present htail
      · exact .absent
    · intro h
      cases h with
      | absent => exact .inr ⟨rfl, rfl⟩
      | present h => exact .inl ⟨_, _, rfl, h⟩
  · exact fun k hk => ⟨⟨trivial, hk.1⟩, hk.2⟩

/-- The number and the closing parenthesis of a length. -/
inductive LengthTail : List Token → UInt32 → Prop
  | intro {t number : Bytes} {n : Nat} (hread : Text.stoul number = some n) (hpos : 1 ≤ n)
      (hle : n ≤ 4294967295) :
      LengthTail [⟨.number, number⟩, ⟨.rparen, t⟩] (UInt32.ofNat n)

theorem accepts_parseLength : Accepts parseLength Length anything fun k => k ≠ .lparen := by
  have habsent : Accepts (pure 0 : Parser UInt32) (fun front a => front = [] ∧ a = 0)
      anything (fun k => k ≠ .lparen) := (Parses.pure _).strengthen fun _ _ => trivial
  unfold parseLength
  refine ((@accepts_match _ .lparen _ _ LengthTail _ _ anything _ nofun ?_ habsent ?_).congr
    ?_).strengthen ?_
  · refine ⟨fun {tokens length rest} hrun => ?_, fun {front length rest} h _ => ?_⟩
    · obtain ⟨token, mid, hpeek, htail⟩ := run_bind_ok.mp hrun
      cases hpeek
      split at htail
      · cases htail
      rename_i hnumber
      obtain ⟨number, htokens⟩ := eq_cons_of_next (not_not.mp hnumber) nofun
      rw [htokens] at htail ⊢
      obtain ⟨token, mid, hadvance, hread⟩ := run_bind_ok.mp htail
      cases hadvance
      dsimp only [List.headD_cons] at hread
      split at hread
      · cases hread
      rename_i n hn
      split at hread
      · cases hread
      rename_i hrange
      obtain ⟨_, mid, hclose, hend⟩ := run_bind_ok.mp hread
      obtain ⟨rfl, rfl⟩ := run_pure_ok.mp hend
      obtain ⟨front, ⟨t, rfl⟩, hmid, -⟩ :=
        (accepts_expect (show TokenType.rparen ≠ .endOfFile by nofun) _).sound hclose
      rw [List.tail_cons] at hmid
      rw [hmid]
      exact ⟨_, .intro hn (by omega) (by omega), rfl, trivial⟩
    · cases h with
      | @intro t number n hread hpos hle =>
        have hrange : ¬ (n = 0 ∨ 4294967295 < n) := by omega
        refine run_bind_ok.mpr ⟨_, _, rfl, ?_⟩
        split
        · rename_i hnumber
          exact absurd rfl hnumber
        refine run_bind_ok.mpr ⟨_, _, rfl, ?_⟩
        dsimp only [List.headD_cons, List.cons_append, List.tail_cons]
        rw [hread]
        dsimp only
        rw [if_neg hrange]
        rfl
  · rintro front a rest ⟨rfl, rfl⟩ hfollow
    exact hfollow
  · intro front length
    constructor
    · rintro (⟨text, tail, rfl, ⟨hread, hpos, hle⟩⟩ | ⟨rfl, rfl⟩)
      · exact .present hread hpos hle
      · exact .absent
    · intro h
      cases h with
      | absent => exact .inr ⟨rfl, rfl⟩
      | present hread hpos hle => exact .inl ⟨_, _, rfl, .intro hread hpos hle⟩
  · exact fun k hk => ⟨trivial, hk⟩

theorem accepts_parseColumn : Accepts parseColumn Col anything fun k => k ≠ .lparen := by
  refine ((accepts_expectIdentifier _).bind (fun name => (accepts_expectIdentifier _).bind
    (fun typeName => accepts_parseLength.map
      fun length => (⟨name, typeName, length⟩ : ColumnDefinition))
    fun _ _ => trivial) fun _ _ => trivial).congr fun front column => ?_
  constructor
  · rintro ⟨name, _, _, rfl, ⟨typeName, _, tail, rfl, ⟨length, hlength, rfl⟩, rfl⟩, rfl⟩
    exact @Col.intro name typeName tail length hlength
  · rintro ⟨hlength⟩
    exact ⟨_, _, _, rfl, ⟨_, _, _, rfl, ⟨_, hlength, rfl⟩, rfl⟩, rfl⟩

theorem col_ne_nil {front : List Token} {column : ColumnDefinition} (h : Col front column) :
    front ≠ [] := by
  cases h
  nofun

theorem next_items {phrase : List Token → α → Prop} {separator : TokenType} {as : List α}
    (hphrase : ∀ {front a rest}, phrase front a → next (front ++ rest) = type) {front : List Token}
    (h : Items phrase separator front as) : next (front ++ rest) = type := by
  cases h with
  | one h => exact hphrase h
  | more h =>
    rw [List.append_assoc]
    exact hphrase h

theorem identifier_ne_nil {front : List Token} {name : Bytes} (h : Identifier front name) :
    front ≠ [] := by
  cases h
  nofun

/-- The list of columns of SELECT. -/
theorem accepts_fields (msg : String) :
    Accepts (do
      if ← matchToken .asterisk then pure [str "*"] else sepByAll (expectIdentifier msg) .comma)
      Fields anything fun k => k ≠ .comma := by
  have hcolumns := accepts_sepByAll (accepts_expectIdentifier msg)
    (show TokenType.comma ≠ .endOfFile by nofun) trivial identifier_ne_nil
  refine ((accepts_match (show TokenType.asterisk ≠ .endOfFile by nofun) (Parses.pure [str "*"])
    hcolumns ?_).congr ?_).strengthen ?_
  · intro front as rest h _
    have hnext : next (front ++ rest) = .identifier := next_items (fun hid => by cases hid; rfl) h
    rw [hnext]
    nofun
  · intro front fields
    constructor
    · rintro (⟨text, tail, rfl, rfl, rfl⟩ | h)
      · exact .all text
      · exact .columns h
    · intro h
      cases h with
      | all text => exact .inl ⟨text, [], rfl, rfl, rfl⟩
      | columns h => exact .inr h
  · exact fun k hk => ⟨trivial, trivial, hk⟩

/-! ## The end of a statement -/

theorem accepts_finishStatement {statement : SQLStatement} :
    Accepts (do finishStatement; return statement) (fun front s => Semicolon front ∧ s = statement)
      (fun k => k = .endOfFile) fun k => k = .endOfFile where
  sound {tokens s rest} hrun := by
    obtain ⟨_, mid, hfinish, hreturn⟩ := run_bind_ok.mp hrun
    obtain ⟨rfl, rfl⟩ := run_pure_ok.mp hreturn
    obtain ⟨b, mid', hmatch, hpeek⟩ := run_bind_ok.mp hfinish
    obtain ⟨token, mid'', htoken, hcheck⟩ := run_bind_ok.mp hpeek
    cases htoken
    split at hcheck
    · cases hcheck
    split at hcheck
    · cases hcheck
    rename_i hend
    obtain ⟨-, rfl⟩ := run_pure_ok.mp hcheck
    cases b with
    | true =>
      obtain ⟨text, rfl⟩ := (matchToken_true (by nofun)).mp hmatch
      exact ⟨_, ⟨.present text, rfl⟩, rfl, not_not.mp hend⟩
    | false =>
      obtain ⟨-, rfl⟩ := matchToken_false.mp hmatch
      exact ⟨[], ⟨.absent, rfl⟩, rfl, not_not.mp hend⟩
  complete {front s rest} h hend := by
    obtain ⟨hsemicolon, rfl⟩ := h
    have hlast : (do
        let token ← peek
        if token.type = .invalid then throw ⟨.invalidArgument, token.text⟩
        else if token.type ≠ .endOfFile then
          fail "Se encontraron tokens inesperados al final de la sentencia" :
        Parser Unit).run rest = .ok ((), rest) := by
      refine run_bind_ok.mpr ⟨_, _, rfl, ?_⟩
      have hend : (rest.headD ⟨.endOfFile, []⟩).type = .endOfFile := hend
      rw [if_neg (by rw [hend]; nofun), if_neg (not_not.mpr hend)]
      rfl
    refine run_bind_ok.mpr ⟨(), rest, ?_, rfl⟩
    cases hsemicolon with
    | absent =>
      refine run_bind_ok.mpr ⟨false, rest, matchToken_false.mpr ⟨?_, rfl⟩, hlast⟩
      show next rest ≠ _
      rw [hend]
      nofun
    | present text =>
      exact run_bind_ok.mpr ⟨true, rest, (matchToken_true (by nofun)).mpr ⟨text, rfl⟩, hlast⟩

/-- A phrase, and `;` if there is one. -/
def Ended (phrase : List Token → SQLStatement → Prop) (front : List Token) (s : SQLStatement) :
    Prop :=
  ∃ body tail, phrase body s ∧ Semicolon tail ∧ front = body ++ tail

/-- The parser accepts the phrases up to the end of the file. -/
abbrev AcceptsAll (p : Parser SQLStatement) (phrase : List Token → SQLStatement → Prop) : Prop :=
  Accepts p (Ended phrase) (fun k => k = .endOfFile) fun k => k = .endOfFile

/-- What comes behind `;` is not a part of a statement. -/
theorem next_semicolon {front : List Token} (h : Semicolon front) (hend : next rest = .endOfFile) :
    next (front ++ rest) = .semicolon ∨ next (front ++ rest) = .endOfFile := by
  cases h with
  | absent => exact .inr hend
  | present text => exact .inl rfl

theorem follow_where {front : List Token} (h : Semicolon front) (hend : next rest = .endOfFile) :
    next (front ++ rest) ≠ .keywordAnd ∧ next (front ++ rest) ≠ .keywordWhere := by
  rcases next_semicolon h hend with hnext | hnext
  all_goals
    rw [hnext]
    exact ⟨nofun, nofun⟩

/-- A WHERE clause at the end of a statement. -/
theorem accepts_whereEnd (f : List Condition → SQLStatement) :
    Accepts (do
        let conditions ← parseWhere
        finishStatement
        return f conditions)
      (fun front s => ∃ conditions first tail, Where first conditions ∧ Semicolon tail ∧
        front = first ++ tail ∧ s = f conditions)
      (fun k => k = .endOfFile) fun k => k = .endOfFile := by
  refine (accepts_parseWhere.bind (fun conditions => accepts_finishStatement) ?_).congr
    fun front s => ?_
  · rintro conditions tail s rest ⟨hsemicolon, -⟩ hend
    exact follow_where hsemicolon hend
  · constructor
    · rintro ⟨conditions, first, tail, hwhere, ⟨hsemicolon, rfl⟩, rfl⟩
      exact ⟨conditions, first, tail, hwhere, hsemicolon, rfl, rfl⟩
    · rintro ⟨conditions, first, tail, hwhere, hsemicolon, rfl, rfl⟩
      exact ⟨conditions, first, tail, hwhere, ⟨hsemicolon, rfl⟩, rfl⟩

theorem accepts_deleteStatement :
    AcceptsAll deleteStatement fun body s => ∀ t, Body (⟨.keywordDelete, t⟩ :: body) s := by
  refine (accepts_expect_bind (by nofun) _ (accepts_identifier_bind _ fun table =>
    accepts_whereEnd fun conditions => .delete ⟨table, conditions⟩)).congr fun front s => ?_
  constructor
  · rintro ⟨t₂, _, rfl, table, _, rfl, conditions, first, tail, hwhere, hsemicolon, rfl, rfl⟩
    exact ⟨_, tail, fun t => .delete hwhere, hsemicolon, rfl⟩
  · rintro ⟨body, tail, hbody, hsemicolon, rfl⟩
    cases hbody [] with
    | select h => cases h
    | @delete _ t₂ table first conditions hwhere =>
      exact ⟨t₂, _, rfl, table, _, rfl, conditions, first, tail, hwhere, hsemicolon, rfl, rfl⟩

/-- A list in parentheses at the end of a statement. -/
theorem accepts_listEnd {item : Parser α} {phrase : List Token → α → Prop}
    {follow : TokenType → Prop}
    (hitem : Accepts item phrase anything follow) (hcomma : follow .comma) (hclose : follow .rparen)
    (hne : ∀ {front a}, phrase front a → front ≠ []) (msg : String) (f : List α → SQLStatement) :
    Accepts (do
        let items ← sepByAll item .comma
        expect .rparen msg
        finishStatement
        return f items)
      (fun front s => ∃ items first tail text, Items phrase .comma first items ∧ Semicolon tail ∧
        front = first ++ (⟨.rparen, text⟩ :: tail) ∧ s = f items)
      (fun k => k = .endOfFile) fun k => k = .endOfFile := by
  refine ((accepts_sepByAll hitem (by nofun) hcomma hne).bind (fun items =>
    accepts_expect_bind (by nofun) msg accepts_finishStatement) ?_).congr fun front s => ?_
  · rintro items _ s rest ⟨text, tail, rfl, -⟩ -
    exact ⟨hclose, nofun⟩
  · constructor
    · rintro ⟨items, first, _, hitems, ⟨text, tail, rfl, hsemicolon, rfl⟩, rfl⟩
      exact ⟨items, first, tail, text, hitems, hsemicolon, rfl, rfl⟩
    · rintro ⟨items, first, tail, text, hitems, hsemicolon, rfl, rfl⟩
      exact ⟨items, first, _, hitems, ⟨text, tail, rfl, hsemicolon, rfl⟩, rfl⟩

theorem literal_ne_nil {front : List Token} {literal : SQLLiteral} (h : Literal front literal) :
    front ≠ [] := by
  cases h <;> nofun

theorem accepts_insertStatement :
    AcceptsAll insertStatement fun body s => ∀ t, Body (⟨.keywordInsert, t⟩ :: body) s := by
  refine (accepts_expect_bind (by nofun) _ (accepts_identifier_bind _ fun table =>
    accepts_expect_bind (by nofun) _ (accepts_expect_bind (by nofun) _ (accepts_listEnd
      accepts_parseLiteral trivial trivial literal_ne_nil _ fun values =>
        .insert ⟨table, values⟩)))).congr fun front s => ?_
  constructor
  · rintro ⟨t₂, _, rfl, table, _, rfl, t₃, _, rfl, t₄, _, rfl, values, first, tail, t₅, hvalues,
      hsemicolon, rfl, rfl⟩
    refine ⟨_, tail, fun t => @Body.insert t t₂ t₃ t₄ t₅ _ _ _ hvalues, hsemicolon, ?_⟩
    simp
  · rintro ⟨body, tail, hbody, hsemicolon, rfl⟩
    cases hbody [] with
    | select h => cases h
    | @insert _ t₂ t₃ t₄ t₅ table first values hvalues =>
      refine ⟨t₂, _, rfl, table, _, rfl, t₃, _, rfl, t₄, _, rfl, values, first, tail, t₅, hvalues,
        hsemicolon, ?_, rfl⟩
      simp

theorem accepts_updateStatement :
    AcceptsAll updateStatement fun body s => ∀ t, Body (⟨.keywordUpdate, t⟩ :: body) s := by
  refine (accepts_identifier_bind _ fun table => accepts_expect_bind (by nofun) _
    (accepts_identifier_bind _ fun column => accepts_expect_bind (by nofun) _
      (accepts_parseLiteral.bind (fun value => accepts_whereEnd fun conditions =>
        .update ⟨table, column, value, conditions⟩) fun _ _ => trivial))).congr fun front s => ?_
  constructor
  · rintro ⟨table, _, rfl, t₂, _, rfl, column, _, rfl, t₃, _, rfl, value, literal, _, hvalue,
      ⟨conditions, first, tail, hwhere, hsemicolon, rfl, rfl⟩, rfl⟩
    refine ⟨_, tail, fun t => @Body.update t t₂ t₃ _ _ _ _ _ _ hvalue hwhere, hsemicolon, ?_⟩
    simp
  · rintro ⟨body, tail, hbody, hsemicolon, rfl⟩
    cases hbody [] with
    | select h => cases h
    | @update _ t₂ t₃ table column literal first value conditions hvalue hwhere =>
      refine ⟨table, _, rfl, t₂, _, rfl, column, _, rfl, t₃, _, rfl, value, literal, first ++ tail,
        hvalue, ⟨conditions, first, tail, hwhere, hsemicolon, rfl, rfl⟩, ?_⟩
      simp

theorem accepts_createTableStatement :
    AcceptsAll createTableStatement fun body s =>
      ∀ t₁ t₂, Body (⟨.keywordCreate, t₁⟩ :: ⟨.keywordTable, t₂⟩ :: body) s := by
  refine (accepts_identifier_bind _ fun table => accepts_expect_bind (by nofun) _ (accepts_listEnd
    accepts_parseColumn (by nofun) (by nofun) col_ne_nil _ fun columns =>
      .createTable ⟨table, columns⟩)).congr fun front s => ?_
  constructor
  · rintro ⟨table, _, rfl, t₃, _, rfl, columns, first, tail, t₄, hcolumns, hsemicolon, rfl, rfl⟩
    refine ⟨_, tail, fun t₁ t₂ => @Body.createTable t₁ t₂ t₃ t₄ _ _ _ hcolumns, hsemicolon, ?_⟩
    simp
  · rintro ⟨body, tail, hbody, hsemicolon, rfl⟩
    cases hbody [] [] with
    | select h => cases h
    | @createTable _ _ t₃ t₄ table first columns hcolumns =>
      refine ⟨table, _, rfl, t₃, _, rfl, columns, first, tail, t₄, hcolumns, hsemicolon, ?_, rfl⟩
      simp

theorem accepts_createIndexStatement :
    AcceptsAll createIndexStatement fun body s =>
      ∀ t₁ t₂, Body (⟨.keywordCreate, t₁⟩ :: ⟨.keywordIndex, t₂⟩ :: body) s := by
  refine (accepts_identifier_bind _ fun index => accepts_expect_bind (by nofun) _
    (accepts_identifier_bind _ fun table => accepts_expect_bind (by nofun) _
      (accepts_identifier_bind _ fun column => accepts_expect_bind (by nofun) _
        accepts_finishStatement))).congr fun front s => ?_
  constructor
  · rintro ⟨index, _, rfl, t₃, _, rfl, table, _, rfl, t₄, _, rfl, column, _, rfl, t₅, tail, rfl,
      hsemicolon, rfl⟩
    exact ⟨_, tail, fun t₁ t₂ => .createIndex, hsemicolon, rfl⟩
  · rintro ⟨body, tail, hbody, hsemicolon, rfl⟩
    cases hbody [] [] with
    | select h => cases h
    | @createIndex _ _ t₃ t₄ t₅ index table column =>
      exact ⟨index, _, rfl, t₃, _, rfl, table, _, rfl, t₄, _, rfl, column, _, rfl, t₅, tail, rfl,
        hsemicolon, rfl⟩

/-- The list of columns is a phrase of its own. -/
theorem selectStatement_eq (isExplain : Bool) : selectStatement isExplain = (do
    let fields ← (do
      if ← matchToken .asterisk then pure [str "*"]
      else sepByAll (expectIdentifier "Se esperaba un nombre de columna en SELECT") .comma)
    expect .keywordFrom "Se esperaba la clausula FROM"
    let tableName ← expectIdentifier "Se esperaba un nombre de tabla despues de FROM"
    let conditions ← parseWhere
    finishStatement
    return .select ⟨tableName, fields, conditions, isExplain⟩) := by
  rw [bind_assoc]
  refine congrArg (matchToken .asterisk >>= ·) (funext fun all => ?_)
  cases all <;> rfl

theorem accepts_selectStatement (isExplain : Bool) :
    AcceptsAll (selectStatement isExplain) fun body s =>
      ∀ t, Select isExplain (⟨.keywordSelect, t⟩ :: body) s := by
  rw [selectStatement_eq]
  refine ((accepts_fields _).bind (fun fields => accepts_expect_bind (by nofun) _
    (accepts_identifier_bind _ fun table => accepts_whereEnd fun conditions =>
      .select ⟨table, fields, conditions, isExplain⟩)) ?_).congr fun front s => ?_
  · rintro fields _ s rest ⟨t, tail, rfl, -⟩ -
    nofun
  constructor
  · rintro ⟨fields, columns, _, hfields,
      ⟨t₂, _, rfl, table, _, rfl, conditions, first, tail, hwhere, hsemicolon, rfl, rfl⟩, rfl⟩
    refine ⟨_, tail, fun t => @Select.intro _ t t₂ _ _ _ _ _ hfields hwhere, hsemicolon, ?_⟩
    simp
  · rintro ⟨body, tail, hbody, hsemicolon, rfl⟩
    cases hbody [] with
    | @intro _ t₂ table columns first fields conditions hfields hwhere =>
      refine ⟨fields, columns, ⟨.keywordFrom, t₂⟩ :: ⟨.identifier, table⟩ :: (first ++ tail),
        hfields,
        ⟨t₂, _, rfl, table, _, rfl, conditions, first, tail, hwhere, hsemicolon, rfl, rfl⟩, ?_⟩
      simp

/-! ## The functions that are given `statement` -/

/-- The parser stores the statements that the phrases up to the end of the file denote. -/
abbrev StoresAll (q : StatementParser Unit) (phrase : List Token → SQLStatement → Prop) : Prop :=
  Stores next q (Ended phrase) (fun k => k = .endOfFile) fun k => k = .endOfFile

section

variable {q q' : StatementParser Unit} {phrase phrase' : List Token → SQLStatement → Prop}

theorem stores_fail (msg : String) (h : ∀ {front s}, ¬ phrase front s) :
    StoresAll (liftM (fail msg : Parser Unit)) phrase where
  sound hrun := by cases hrun
  complete output hphrase _ := by
    obtain ⟨body, tail, hbody, -⟩ := hphrase
    exact absurd hbody h
  failed hrun := by
    cases hrun
    rfl

/-- A token that must come in front of a statement. -/
theorem stores_expect_bind (ht : type ≠ .endOfFile) (msg : String) (hq : StoresAll q phrase) :
    StoresAll (do expect type msg; q) fun body s =>
      ∃ text tail, body = ⟨type, text⟩ :: tail ∧ phrase tail s := by
  refine (Stores.bind (accepts_expect ht msg) (fun _ => hq) fun _ _ => trivial).congr
    fun front s => ?_
  constructor
  · rintro ⟨_, _, _, ⟨text, rfl⟩, ⟨body, tail, hbody, hsemicolon, rfl⟩, rfl⟩
    exact ⟨_, tail, ⟨text, body, rfl, hbody⟩, hsemicolon, rfl⟩
  · rintro ⟨_, tail, ⟨text, body, rfl, hbody⟩, hsemicolon, rfl⟩
    exact ⟨(), [⟨type, text⟩], _, ⟨text, rfl⟩, ⟨body, tail, hbody, hsemicolon, rfl⟩, rfl⟩

theorem runOn_match (type : TokenType) (q q' : StatementParser Unit) (tokens : List Token)
    (output : Option SQLStatement) :
    Storing.runOn (do if ← matchToken type then q else q') tokens output =
      if next tokens = type then q.runOn tokens.tail output else q'.runOn tokens output := by
  have hmatch := run_matchToken type tokens
  by_cases h : next tokens = type
  · rw [if_pos h] at hmatch ⊢
    exact Storing.runOn_bind_ok hmatch
  · rw [if_neg h] at hmatch ⊢
    exact Storing.runOn_bind_ok hmatch

/-- A first token decides between two statements. -/
theorem stores_match (ht : type ≠ .endOfFile) (hq : StoresAll q phrase) (hq' : StoresAll q' phrase')
    (hnext : ∀ {body s rest}, phrase' body s → next (body ++ rest) ≠ type) :
    StoresAll (do if ← matchToken type then q else q') fun body s =>
      (∃ text tail, body = ⟨type, text⟩ :: tail ∧ phrase tail s) ∨ phrase' body s where
  sound {tokens rest output output'} hrun := by
    rw [runOn_match] at hrun
    split at hrun
    · rename_i h
      obtain ⟨text, htokens⟩ := eq_cons_of_next h ht
      obtain ⟨front, s, hstored, ⟨body, tail, hbody, hsemicolon, rfl⟩, hrest, hends⟩ :=
        hq.sound hrun
      refine ⟨⟨type, text⟩ :: (body ++ tail), s, hstored,
        ⟨_, tail, .inl ⟨text, body, rfl, hbody⟩, hsemicolon, rfl⟩, ?_, hends⟩
      rw [htokens, hrest]
      rfl
    · obtain ⟨front, s, hstored, ⟨body, tail, hbody, hsemicolon, rfl⟩, hrest, hends⟩ :=
        hq'.sound hrun
      exact ⟨_, s, hstored, ⟨body, tail, .inr hbody, hsemicolon, rfl⟩, hrest, hends⟩
  complete {front s rest} output h hfollow := by
    obtain ⟨body, tail, ⟨text, body, rfl, hbody⟩ | hbody, hsemicolon, rfl⟩ := h
    · refine (runOn_match type q q' _ output).trans ((if_pos rfl).trans ?_)
      exact hq.complete output ⟨body, tail, hbody, hsemicolon, rfl⟩ hfollow
    · have hne : next (body ++ tail ++ rest) ≠ type := by
        rw [List.append_assoc]
        exact hnext hbody
      rw [runOn_match, if_neg hne]
      exact hq'.complete output ⟨body, tail, hbody, hsemicolon, rfl⟩ hfollow
  failed {tokens output e output'} hrun := by
    rw [runOn_match] at hrun
    split at hrun
    · exact hq.failed hrun
    · exact hq'.failed hrun

end

theorem stores_parseExplain :
    StoresAll parseExplain fun body s => ∀ t, Body (⟨.keywordExplain, t⟩ :: body) s := by
  refine (stores_expect_bind (by nofun) _ (stores_expect_bind (by nofun) _
    (accepts_selectStatement true).stores)).congr fun front s => ?_
  constructor
  · rintro ⟨_, tail, ⟨t₂, _, rfl, t₁, body, rfl, hselect⟩, hsemicolon, rfl⟩
    exact ⟨_, tail, fun t => .explain (hselect t₁), hsemicolon, rfl⟩
  · rintro ⟨body, tail, hbody, hsemicolon, rfl⟩
    cases hbody [] with
    | select h => cases h
    | @explain _ t₂ front _ h =>
      cases h with
      | @intro t₁ t₃ table columns first fields conditions hfields hwhere =>
        exact ⟨_, tail, ⟨t₂, _, rfl, t₁, _, rfl, fun t => .intro hfields hwhere⟩, hsemicolon, rfl⟩

/-- `Parse` of tokens that begin with this one. -/
def dispatch : TokenType → StatementParser Unit
  | .keywordExplain => parseExplain
  | .keywordSelect => parseSelect false
  | .keywordInsert => parseInsert
  | .keywordUpdate => parseUpdate
  | .keywordDelete => parseDelete
  | .keywordCreate => do
    if ← matchToken .keywordTable then parseCreateTable
    else if ← matchToken .keywordIndex then parseCreateIndex
    else fail "Se esperaba TABLE o INDEX despues de CREATE"
  | _ => do fail "Comando SQL no soportado"

theorem runOn_parseStatement {token : Token} (h : token.type ≠ .endOfFile) (tokens : List Token)
    (output : Option SQLStatement) :
    parseStatement.runOn (token :: tokens) output = (dispatch token.type).runOn tokens output := by
  obtain ⟨type, text⟩ := token
  cases type
  case endOfFile => exact absurd rfl h
  all_goals rfl

theorem stores_create :
    StoresAll (dispatch .keywordCreate) fun body s => ∀ t,
    Body (⟨.keywordCreate, t⟩ :: body) s := by
  have hother : StoresAll _ fun _ _ => False :=
    stores_fail "Se esperaba TABLE o INDEX despues de CREATE" id
  refine (stores_match (by nofun) accepts_createTableStatement.stores (stores_match (by nofun)
    accepts_createIndexStatement.stores hother ?_) ?_).congr fun front s => ?_
  · exact fun h => h.elim
  · rintro _ s rest (⟨text, tail, rfl, -⟩ | h)
    · nofun
    · exact h.elim
  constructor
  · rintro ⟨_, tail, ⟨t₂, body, rfl, hbody⟩ | ⟨t₂, body, rfl, hbody⟩ | h, hsemicolon, rfl⟩
    · exact ⟨_ :: body, tail, fun t₁ => hbody t₁ t₂, hsemicolon, rfl⟩
    · exact ⟨_ :: body, tail, fun t₁ => hbody t₁ t₂, hsemicolon, rfl⟩
    · exact h.elim
  · rintro ⟨body, tail, hbody, hsemicolon, rfl⟩
    refine ⟨body, tail, ?_, hsemicolon, rfl⟩
    cases hbody [] with
    | select h => cases h
    | @createTable _ t₂ t₃ t₄ table front columns h =>
      exact .inl ⟨t₂, _, rfl, fun t₁ t₂ => @Body.createTable t₁ t₂ t₃ t₄ _ _ _ h⟩
    | @createIndex _ t₂ t₃ t₄ t₅ index table column =>
      exact .inr (.inl ⟨t₂, _, rfl, fun t₁ t₂ => @Body.createIndex t₁ t₂ t₃ t₄ t₅ _ _ _⟩)

theorem stores_dispatch (type : TokenType) :
    StoresAll (dispatch type) fun body s => ∀ t, Body (⟨type, t⟩ :: body) s := by
  cases type
  case keywordExplain => exact stores_parseExplain
  case keywordInsert => exact accepts_insertStatement.stores
  case keywordUpdate => exact accepts_updateStatement.stores
  case keywordDelete => exact accepts_deleteStatement.stores
  case keywordCreate => exact stores_create
  case keywordSelect =>
    refine (accepts_selectStatement false).stores.congr fun front s => ?_
    constructor
    · rintro ⟨body, tail, hselect, hsemicolon, rfl⟩
      exact ⟨body, tail, fun t => .select (hselect t), hsemicolon, rfl⟩
    · rintro ⟨body, tail, hbody, hsemicolon, rfl⟩
      refine ⟨body, tail, fun t => ?_, hsemicolon, rfl⟩
      cases hbody t with
      | select h => exact h
  all_goals
    refine stores_fail _ fun hbody => ?_
    cases hbody [] with
    | select h => cases h

/-- The text of the first token of a statement does not matter. -/
theorem body_cons {front : List Token} {s : SQLStatement} (h : Body front s) :
    ∃ type text body, front = ⟨type, text⟩ :: body ∧ type ≠ .endOfFile ∧
      ∀ t, Body (⟨type, t⟩ :: body) s := by
  cases h with
  | select h =>
    cases h with
    | intro hfields hwhere =>
      exact ⟨_, _, _, rfl, nofun, fun t => .select (.intro hfields hwhere)⟩
  | explain h => exact ⟨_, _, _, rfl, nofun, fun t => .explain h⟩
  | insert h => exact ⟨_, _, _, rfl, nofun, fun t => .insert h⟩
  | update hvalue hwhere => exact ⟨_, _, _, rfl, nofun, fun t => .update hvalue hwhere⟩
  | delete hwhere => exact ⟨_, _, _, rfl, nofun, fun t => .delete hwhere⟩
  | createTable h => exact ⟨_, _, _, rfl, nofun, fun t => .createTable h⟩
  | createIndex => exact ⟨_, _, _, rfl, nofun, fun t => .createIndex⟩

/-- There is nothing to parse, or the first token decides. -/
theorem runOn_parseStatement_cases {tokens : List Token} {output : Option SQLStatement}
    {r : Except Status (Unit × List Token) × Option SQLStatement}
    (h : parseStatement.runOn tokens output = r) :
    (∃ e, r = (.error e, output)) ∨
      ∃ token tail, tokens = token :: tail ∧ (dispatch token.type).runOn tail output = r := by
  cases tokens with
  | nil => exact .inl ⟨_, h.symm⟩
  | cons token tail =>
    by_cases htype : token.type = .endOfFile
    · obtain ⟨type, text⟩ := token
      cases htype
      exact .inl ⟨_, h.symm⟩
    · exact .inr ⟨token, tail, rfl, (runOn_parseStatement htype ..).symm.trans h⟩

theorem stores_parseStatement : StoresAll parseStatement Body where
  sound {tokens rest output output'} hrun := by
    obtain ⟨_, herror⟩ | ⟨token, tail, rfl, hrest⟩ := runOn_parseStatement_cases hrun
    · cases herror
    · obtain ⟨front, s, hstored, ⟨body, tail, hbody, hsemicolon, rfl⟩, rfl, hends⟩ :=
        (stores_dispatch token.type).sound hrest
      exact ⟨token :: (body ++ tail), s, hstored, ⟨_, tail, hbody token.text, hsemicolon, rfl⟩,
        rfl, hends⟩
  complete {front s rest} output h hend := by
    obtain ⟨body, tail, hbody, hsemicolon, rfl⟩ := h
    obtain ⟨type, text, body, rfl, htype, hall⟩ := body_cons hbody
    exact (runOn_parseStatement htype _ output).trans
      ((stores_dispatch type).complete output ⟨body, tail, hall, hsemicolon, rfl⟩ hend)
  failed {tokens output e output'} hrun := by
    obtain ⟨_, herror⟩ | ⟨token, tail, rfl, hrest⟩ := runOn_parseStatement_cases hrun
    · cases herror
      rfl
    · exact (stores_dispatch token.type).failed hrest

/-! ## The end of the tokens -/

/-- Neither the end of the file nor an invalid token is among the tokens. -/
def Inside (front : List Token) : Prop :=
  ∀ token ∈ front, token.type ≠ .endOfFile ∧ token.type ≠ .invalid

@[simp] theorem inside_nil : Inside [] := nofun

@[simp] theorem inside_cons {token : Token} {front : List Token} :
    Inside (token :: front) ↔ (token.type ≠ .endOfFile ∧ token.type ≠ .invalid) ∧ Inside front :=
  List.forall_mem_cons

@[simp] theorem inside_append {front tail : List Token} :
    Inside (front ++ tail) ↔ Inside front ∧ Inside tail :=
  List.forall_mem_append

section

variable {front : List Token}

theorem inside_items {phrase : List Token → α → Prop} {separator : TokenType} {as : List α}
    (hseparator : separator ≠ .endOfFile ∧ separator ≠ .invalid)
    (hphrase : ∀ {front a}, phrase front a → Inside front)
    (h : Items phrase separator front as) : Inside front := by
  induction h with
  | one h => exact hphrase h
  | more h htoken _ ih =>
    have hne := hseparator
    rw [← htoken] at hne
    exact inside_append.mpr ⟨hphrase h, inside_cons.mpr ⟨hne, ih⟩⟩

theorem inside_literal {literal : SQLLiteral} (h : Literal front literal) : Inside front := by
  cases h <;> simp

theorem inside_cond {condition : Condition} (h : Cond front condition) : Inside front := by
  obtain ⟨hop, hvalue⟩ := h
  cases hop <;> simpa using inside_literal hvalue

theorem inside_where {conditions : List Condition} (h : Where front conditions) : Inside front := by
  cases h with
  | absent => simp
  | present h => simpa using inside_items (by decide) inside_cond h

theorem inside_col {column : ColumnDefinition} (h : Col front column) : Inside front := by
  obtain ⟨hlength⟩ := h
  cases hlength <;> simp

theorem inside_identifier {name : Bytes} (h : Identifier front name) : Inside front := by
  cases h
  simp

theorem inside_select {isExplain : Bool} {s : SQLStatement} (h : Select isExplain front s) :
    Inside front := by
  obtain ⟨hfields, hwhere⟩ := h
  have hwhere := inside_where hwhere
  cases hfields with
  | all => simpa using hwhere
  | columns h => simpa [hwhere] using inside_items (by decide) inside_identifier h

theorem inside_body {s : SQLStatement} (h : Body front s) : Inside front := by
  cases h with
  | select h => exact inside_select h
  | explain h => simpa using inside_select h
  | insert h => simpa using inside_items (by decide) inside_literal h
  | update hvalue hwhere => simpa using ⟨inside_literal hvalue, inside_where hwhere⟩
  | delete hwhere => simpa using inside_where hwhere
  | createTable h => simpa using inside_items (by decide) inside_col h
  | createIndex => simp

theorem inside_semicolon (h : Semicolon front) : Inside front := by
  cases h <;> simp

end

/-- The tokens end with the end of the file, and it is nowhere before. -/
def EndsOnce (tokens : List Token) : Prop :=
  ∃ front text, tokens = front ++ [⟨.endOfFile, text⟩] ∧ ∀ token ∈ front, token.type ≠ .endOfFile

/-- What is left where the end of the file is seen. -/
theorem rest_of_next {tail : List Token} (hends : EndsOnce (tail ++ rest)) (htail : Inside tail)
    (hnext : next rest = .endOfFile) : ∃ text, rest = [⟨.endOfFile, text⟩] := by
  obtain ⟨front, text, heq, hfront⟩ := hends
  refine ⟨text, ?_⟩
  rcases List.append_eq_append_iff.mp heq with ⟨as, rfl, hrest⟩ | ⟨bs, rfl, hlast⟩
  · cases as with
    | nil => exact hrest
    | cons token as =>
      rw [hrest] at hnext
      exact absurd hnext (hfront token (List.mem_append_right _ List.mem_cons_self))
  · cases bs with
    | nil => exact hlast.symm
    | cons token bs =>
      have hend : token = ⟨.endOfFile, text⟩ := (List.cons.inj hlast).1.symm
      rw [hend] at htail
      exact absurd rfl (inside_cons.mp (inside_append.mp htail).2).1.1

/-! ## `Parse` -/

section

variable {tokens : List Token} {output output' : Option SQLStatement}

theorem run_rejectInvalid : ∀ {tokens : List Token}, (∀ token ∈ tokens, token.type ≠ .invalid) →
    ∀ state, (rejectInvalid tokens).run state = .ok ((), state) := by
  intro tokens
  induction tokens with
  | nil => exact fun _ _ => rfl
  | cons token tokens ih =>
    intro h state
    rw [rejectInvalid, if_neg (h token List.mem_cons_self)]
    exact ih (fun t ht => h t (List.mem_cons_of_mem _ ht)) state

theorem run_rejectInvalid_error : ∀ {tokens : List Token},
    (¬ ∀ token ∈ tokens, token.type ≠ .invalid) →
    ∀ state, ∃ e, (rejectInvalid tokens).run state = .error e := by
  intro tokens
  induction tokens with
  | nil => exact fun h => absurd (List.forall_mem_nil _) h
  | cons token tokens ih =>
    intro h state
    rw [rejectInvalid]
    by_cases htype : token.type = .invalid
    · rw [if_pos htype]
      exact ⟨_, rfl⟩
    · rw [if_neg htype]
      exact ih (fun hrest => h (List.forall_mem_cons.mpr ⟨htype, hrest⟩)) state

/-- `Parse` empties its output before it looks at the tokens. -/
theorem runOn_parseTokens (tokens : List Token) (output : Option SQLStatement) :
    parseTokens.runOn tokens output =
      (Storing.lift (rejectInvalid tokens) >>= fun _ => parseStatement).runOn tokens none := rfl

theorem parseInto_invalid (h : ¬ ∀ token ∈ tokens, token.type ≠ .invalid) :
    ∃ e, parseInto tokens output = (.error e, none) := by
  obtain ⟨e, hrun⟩ := run_rejectInvalid_error h tokens
  refine ⟨e, ?_⟩
  rw [parseInto, runOn_parseTokens, Storing.runOn_bind_error hrun]
  rfl

theorem parseInto_valid (h : ∀ token ∈ tokens, token.type ≠ .invalid) :
    parseInto tokens output = ((parseStatement.runOn tokens none).1.map fun _ => (),
      (parseStatement.runOn tokens none).2) := by
  rw [parseInto, runOn_parseTokens, Storing.runOn_bind_ok (run_rejectInvalid h tokens)]

/-- What is in the output after an error. -/
theorem parseInto_error {e : Status} (h : (parseInto tokens output).1 = .error e) :
    (parseInto tokens output).2 = none := by
  by_cases hall : ∀ token ∈ tokens, token.type ≠ .invalid
  · rw [parseInto_valid hall] at h ⊢
    rcases hrun : parseStatement.runOn tokens none with ⟨e' | r, stored⟩
    · exact stores_parseStatement.failed hrun
    · rw [hrun] at h
      cases h
  · obtain ⟨e', hparse⟩ : ∃ e, parseInto tokens output = (.error e, none) := parseInto_invalid hall
    rw [hparse]

theorem parseInto_ok : parseInto tokens output = (.ok (), output') ↔
    (∀ token ∈ tokens, token.type ≠ .invalid) ∧
      ∃ rest, parseStatement.runOn tokens none = (.ok ((), rest), output') := by
  by_cases hall : ∀ token ∈ tokens, token.type ≠ .invalid
  · rw [parseInto_valid hall]
    rcases parseStatement.runOn tokens none with ⟨e | ⟨u, rest⟩, stored⟩
    · constructor
      · intro h
        cases h
      · intro ⟨_, rest, h⟩
        cases h
    · constructor
      · intro h
        cases h
        exact ⟨hall, rest, rfl⟩
      · intro ⟨_, rest', h⟩
        cases h
        rfl
  · obtain ⟨e, hparse⟩ : ∃ e, parseInto tokens output = (.error e, none) := parseInto_invalid hall
    rw [hparse]
    constructor
    · intro h
      cases h
    · exact fun h => absurd h.1 hall

end

/-- A sentence ends with the end of the file, and has no invalid token. -/
theorem ends_of_sentence {tokens : List Token} {s : SQLStatement} (h : Sentence tokens s) :
    EndsOnce tokens ∧ ∀ token ∈ tokens, token.type ≠ .invalid := by
  obtain ⟨hbody, hsemicolon⟩ := h
  have hinside := inside_append.mpr ⟨inside_body hbody, inside_semicolon hsemicolon⟩
  rw [← List.append_assoc]
  refine ⟨⟨_, _, rfl, fun token ht => (hinside token ht).1⟩, fun token ht => ?_⟩
  rcases List.mem_append.mp ht with ht | ht
  · exact (hinside token ht).2
  · rw [List.mem_singleton.mp ht]
    nofun

/-- The parser accepts exactly the sentences of the grammar, and stores the trees that they
denote. -/
theorem parseInto_ok_iff {tokens : List Token} (hends : EndsOnce tokens)
    (output output' : Option SQLStatement) : parseInto tokens output = (.ok (), output') ↔
      (∀ token ∈ tokens, token.type ≠ .invalid) ∧ ∃ s, output' = some s ∧ Sentence tokens s := by
  refine parseInto_ok.trans (and_congr_right fun _ => ?_)
  constructor
  · intro ⟨rest, hrun⟩
    obtain ⟨front, s, hstored, ⟨body, tail, hbody, hsemicolon, rfl⟩, rfl, hnext⟩ :=
      stores_parseStatement.sound hrun
    obtain ⟨text, rfl⟩ := rest_of_next hends
      (inside_append.mpr ⟨inside_body hbody, inside_semicolon hsemicolon⟩) hnext
    refine ⟨s, hstored, ?_⟩
    rw [List.append_assoc]
    exact .intro hbody hsemicolon
  · intro ⟨s, hstored, h⟩
    cases h with
    | @intro body tail s text hbody hsemicolon =>
      refine ⟨[⟨.endOfFile, text⟩], ?_⟩
      rw [← List.append_assoc, hstored]
      exact stores_parseStatement.complete none ⟨body, tail, hbody, hsemicolon, rfl⟩ rfl

/-- What a caller of the parser gets. -/
theorem parse_ok_iff {tokens : List Token} (hends : EndsOnce tokens) (s : SQLStatement) :
    parse tokens = .ok s ↔ (∀ token ∈ tokens, token.type ≠ .invalid) ∧ Sentence tokens s := by
  have hiff := parseInto_ok_iff hends none
  unfold parse
  generalize parseInto tokens none = answer at hiff ⊢
  obtain ⟨e | _, stored⟩ := answer
  · constructor
    · intro h
      cases h
    · intro h
      cases (hiff _).mpr ⟨h.1, s, rfl, h.2⟩
  · obtain ⟨hvalid, s', rfl, hsentence⟩ := (hiff stored).mp rfl
    constructor
    · intro h
      cases h
      exact ⟨hvalid, hsentence⟩
    · intro h
      cases (hiff _).mpr ⟨h.1, s, rfl, h.2⟩
      rfl

theorem parse_of_sentence {tokens : List Token} {s : SQLStatement} (h : Sentence tokens s) :
    parse tokens = .ok s :=
  (parse_ok_iff (ends_of_sentence h).1 s).mpr ⟨(ends_of_sentence h).2, h⟩

end Parser

end MiniDbms
