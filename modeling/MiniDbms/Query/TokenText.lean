import MiniDbms.Query.Tokenizer

/-!
# The text of tokens

How tokens are written, and that the tokenizer reads back what was written. On any text it ends,
with an invalid token at most at the end.
-/

namespace MiniDbms

namespace Tokenizer

open Text

/-! ## How tokens are written -/

/-- The quotes inside a string literal are doubled. -/
def doubleQuotes (quote : UInt8) (value : Bytes) : Bytes :=
  value.flatMap fun c => if c = quote then [c, c] else [c]

/-- A string literal with its quotes. -/
def quoted (quote : UInt8) (value : Bytes) : Bytes := quote :: (doubleQuotes quote value ++ [quote])

/-- The tokens with one text: operators and punctuation. -/
def symbols : List (Bytes × TokenType) :=
  [(str "*", .asterisk), (str ",", .comma), (str "=", .equal), (str ">", .greater),
    (str "<", .less),
    (str ">=", .greaterEqual), (str "<=", .lessEqual), (str ";", .semicolon), (str "(", .lparen),
    (str ")", .rparen)]

/-- A word: letters, digits and underscores, not a digit first. -/
def IsWord : Bytes → Prop
  | [] => False
  | c :: rest => (isAlpha c = true ∨ c = 95) ∧ ∀ d ∈ rest, isWordChar d = true

/-- The texts of the valid tokens. A keyword may be in any letter case. -/
inductive Spells : Token → Bytes → Prop
  | keyword {text : Bytes} {type : TokenType} (hin : (text.map toUpper, type) ∈ keywords) :
      Spells ⟨type, text⟩ text
  | identifier {text : Bytes} (hword : IsWord text)
      (hkey : ∀ k ∈ keywords, text.map toUpper ≠ k.1) :
      Spells ⟨.identifier, text⟩ text
  | number {digits : Bytes} (sign : Bool) (hne : digits ≠ [])
      (hdigits : ∀ d ∈ digits, isDigit d = true) :
      Spells ⟨.number, if sign then 45 :: digits else digits⟩
      (if sign then 45 :: digits else digits)
  | string {quote : UInt8} (value : Bytes) (hquote : quote = 39 ∨ quote = 34) :
      Spells ⟨.stringLiteral, value⟩ (quoted quote value)
  | symbol {text : Bytes} {type : TokenType} (hin : (text, type) ∈ symbols) :
      Spells ⟨type, text⟩ text

/-- A text of tokens in order, with one blank or more between neighbours. -/
inductive Spaced : List Token → Bytes → Prop
  | nil : Spaced [] []
  | one {token : Token} {text : Bytes} (htoken : Spells token text) : Spaced [token] text
  | cons {token next : Token} {text blanks rest : Bytes} {tokens : List Token}
      (htoken : Spells token text) (hne : blanks ≠ []) (hblanks : ∀ c ∈ blanks, isSpace c = true)
      (hrest : Spaced (next :: tokens) rest) :
      Spaced (token :: next :: tokens) (text ++ (blanks ++ rest))

/-- The character would be read as a part of a token of this type that ends before it. -/
def continues (type : TokenType) (c : UInt8) : Bool :=
  match type with
  | .number => isDigit c
  | .stringLiteral => c = 39 || c = 34
  | .greater | .less => c = 61
  | .asterisk | .comma | .equal | .greaterEqual | .lessEqual | .semicolon | .lparen | .rparen =>
    false
  | _ => isWordChar c

/-- A text of tokens in order, with blanks wherever they are needed. -/
inductive Renders : List Token → Bytes → Prop
  | nil : Renders [] []
  | blank {c : UInt8} {tokens : List Token} {rest : Bytes} (hc : isSpace c = true)
      (hrest : Renders tokens rest) : Renders tokens (c :: rest)
  | token {token : Token} {tokens : List Token} {text rest : Bytes} (htoken : Spells token text)
      (hend : ∀ c, rest.head? = some c → continues token.type c = false)
      (hrest : Renders tokens rest) :
      Renders (token :: tokens) (text ++ rest)

/-! ## Reading a token back -/

variable {c quote : UInt8} {text rest value : Bytes} {token : Token} {tokens : List Token}
  {p : UInt8 → Bool}

theorem takeWhile_run (h : ∀ d ∈ text, p d = true) (hend : ∀ d, rest.head? = some d → p d = false) :
    (text ++ rest).takeWhile p = text := by
  rw [List.takeWhile_append_of_pos h]
  cases rest with
  | nil => rw [List.takeWhile_nil, List.append_nil]
  | cons d rest => rw [List.takeWhile_cons, hend d rfl, if_neg Bool.false_ne_true, List.append_nil]

theorem dropWhile_run (h : ∀ d ∈ text, p d = true) (hend : ∀ d, rest.head? = some d → p d = false) :
    (text ++ rest).dropWhile p = rest := by
  rw [List.dropWhile_append_of_pos h]
  cases rest with
  | nil => rfl
  | cons d rest => rw [List.dropWhile_cons, hend d rfl, if_neg Bool.false_ne_true]

theorem readQuoted_doubleQuotes (quote : UInt8) (value : Bytes) (hend : rest.head? ≠ some quote) :
    readQuoted quote (doubleQuotes quote value ++ quote :: rest) = some (value, rest) := by
  induction value with
  | nil =>
    show readQuoted quote (quote :: rest) = _
    unfold readQuoted
    rw [if_pos rfl]
    cases rest with
    | nil => rfl
    | cons d rest =>
      have hd : d ≠ quote := fun he => hend (congrArg some he)
      dsimp only
      rw [if_neg hd]
  | cons c value ih =>
    rw [doubleQuotes, List.flatMap_cons]
    by_cases hc : c = quote
    · rw [if_pos hc]
      subst hc
      show readQuoted c (c :: c :: (doubleQuotes c value ++ c :: rest)) = _
      unfold readQuoted
      rw [if_pos rfl]
      dsimp only
      rw [if_pos rfl, ih]
      rfl
    · rw [if_neg hc]
      show readQuoted quote (c :: (doubleQuotes quote value ++ quote :: rest)) = _
      unfold readQuoted
      rw [if_neg hc, ih]
      rfl

/-- The characters that the first tests of the loop look for. -/
theorem readToken_word (hc : isAlpha c = true ∨ c = 95) :
    readToken c rest = (⟨wordType (c :: rest.takeWhile isWordChar), c :: rest.takeWhile isWordChar⟩,
      rest.dropWhile isWordChar) := by
  have hne : ∀ d, isAlpha d = false ∧ d ≠ 95 → c ≠ d := by
    intro d hd he
    rw [he] at hc
    rcases hc with hc | hc
    · rw [hd.1] at hc
      cases hc
    · exact hd.2 hc
  unfold readToken
  rw [if_neg (hne 42 (by decide)), if_neg (hne 44 (by decide)), if_neg (hne 61 (by decide)),
    if_neg (hne 62 (by decide)), if_neg (hne 60 (by decide)), if_neg (hne 59 (by decide)),
    if_neg (hne 40 (by decide)), if_neg (hne 41 (by decide)),
    if_neg (not_or.mpr ⟨hne 39 (by decide), hne 34 (by decide)⟩), if_pos hc]

theorem readToken_number (hc : isDigit c = true ∨ (c = 45 ∧ startsWithDigit rest = true)) :
    readToken c rest = (⟨.number, c :: rest.takeWhile isDigit⟩, rest.dropWhile isDigit) := by
  have hne : ∀ d, isDigit d = false ∧ d ≠ 45 → c ≠ d := by
    intro d hd he
    rw [he] at hc
    rcases hc with hc | hc
    · rw [hd.1] at hc
      cases hc
    · exact hd.2 hc.1
  have halpha : ¬ (isAlpha c = true ∨ c = 95) := by
    rintro (ha | rfl)
    · rcases hc with hc | ⟨rfl, -⟩
      · simp only [isAlpha, isUpper, isLower, Bool.or_eq_true, Bool.and_eq_true, decide_eq_true_eq,
          UInt8.le_iff_toNat_le] at ha
        simp only [isDigit, Bool.and_eq_true, decide_eq_true_eq, UInt8.le_iff_toNat_le] at hc
        simp only [UInt8.reduceToNat] at ha hc
        omega
      · exact absurd ha (by decide)
    · exact hne 95 (by decide) rfl
  unfold readToken
  rw [if_neg (hne 42 (by decide)), if_neg (hne 44 (by decide)), if_neg (hne 61 (by decide)),
    if_neg (hne 62 (by decide)), if_neg (hne 60 (by decide)), if_neg (hne 59 (by decide)),
    if_neg (hne 40 (by decide)), if_neg (hne 41 (by decide)),
    if_neg (not_or.mpr ⟨hne 39 (by decide), hne 34 (by decide)⟩), if_neg halpha, if_pos hc]

theorem readToken_quoted (hquote : quote = 39 ∨ quote = 34) (hend : rest.head? ≠ some quote) :
    readToken quote (doubleQuotes quote value ++ quote :: rest) =
      (⟨.stringLiteral, value⟩, rest) := by
  have hread := readQuoted_doubleQuotes quote value hend
  rcases hquote with rfl | rfl
  all_goals
    unfold readToken
    rw [hread]
    rfl

theorem keywords_upper : ∀ k ∈ keywords, k.1 ≠ [] ∧ (∀ c ∈ k.1, isUpper c = true) ∧
    keywords.lookup k.1 = some k.2 ∧ ∀ c, continues k.2 c = isWordChar c := by
  simp only [keywords, List.forall_mem_cons]
  refine ⟨?_, ?_, ?_, ?_, ?_, ?_, ?_, ?_, ?_, ?_, ?_, ?_, ?_, ?_, ?_, ?_, ?_, nofun⟩
  all_goals exact ⟨nofun, by decide +kernel, by decide +kernel, fun _ => rfl⟩

theorem isAlpha_of_isUpper_toUpper (h : isUpper (toUpper c) = true) : isAlpha c = true := by
  unfold toUpper at h
  split at h
  · rename_i hc
    rw [isAlpha, hc, Bool.or_true]
  · rw [isAlpha, h, Bool.true_or]

theorem isWord_of_keyword {type : TokenType} (hin : (text.map toUpper, type) ∈ keywords) :
    IsWord text := by
  obtain ⟨hne, hupper, -⟩ := keywords_upper _ hin
  have halpha : ∀ c ∈ text, isAlpha c = true := fun c hc =>
    isAlpha_of_isUpper_toUpper (hupper _ (List.mem_map_of_mem hc))
  cases text with
  | nil => exact absurd rfl hne
  | cons c rest =>
    refine ⟨.inl (halpha c List.mem_cons_self), fun d hd => ?_⟩
    rw [isWordChar, isAlnum, halpha d (List.mem_cons_of_mem c hd)]
    rfl

theorem wordType_of_keyword {type : TokenType} (hin : (text.map toUpper, type) ∈ keywords) :
    wordType text = type := by
  rw [wordType, (keywords_upper _ hin).2.2.1]
  rfl

theorem wordType_of_not_keyword (h : ∀ k ∈ keywords, text.map toUpper ≠ k.1) :
    wordType text = .identifier := by
  have hnone : keywords.lookup (text.map toUpper) = none := by
    rw [List.lookup_eq_none_iff]
    exact fun k hk => bne_iff_ne.mpr (h k hk)
  rw [wordType, hnone]
  rfl

/-- The loop reads one token from a text that starts with it. -/
def ReadsFirst (token : Token) (text rest : Bytes) : Prop :=
  ∃ c tail, text ++ rest = c :: tail ∧ isSpace c = false ∧ readToken c tail = (token, rest)

theorem isSpace_of_wordStart (hc : isAlpha c = true ∨ c = 95) : isSpace c = false := by
  by_contra h
  rw [Bool.not_eq_false] at h
  rcases hc with hc | rfl
  · simp only [isAlpha, isUpper, isLower, Bool.or_eq_true, Bool.and_eq_true, decide_eq_true_eq,
      UInt8.le_iff_toNat_le, UInt8.reduceToNat] at hc
    simp only [isSpace, Bool.or_eq_true, Bool.and_eq_true, decide_eq_true_eq, UInt8.le_iff_toNat_le,
      UInt8.reduceToNat, ← UInt8.toNat_inj] at h
    omega
  · exact absurd h (by decide)

theorem isSpace_of_isDigit (hc : isDigit c = true) : isSpace c = false := by
  by_contra h
  rw [Bool.not_eq_false] at h
  simp only [isDigit, Bool.and_eq_true, decide_eq_true_eq, UInt8.le_iff_toNat_le,
    UInt8.reduceToNat] at hc
  simp only [isSpace, Bool.or_eq_true, Bool.and_eq_true, decide_eq_true_eq, UInt8.le_iff_toNat_le,
    UInt8.reduceToNat, ← UInt8.toNat_inj] at h
  omega

theorem readsFirst_word (hword : IsWord text)
    (hend : ∀ d, rest.head? = some d → isWordChar d = false) :
    ReadsFirst ⟨wordType text, text⟩ text rest := by
  cases text with
  | nil => exact hword.elim
  | cons c tail =>
    refine ⟨c, tail ++ rest, rfl, isSpace_of_wordStart hword.1, ?_⟩
    rw [readToken_word hword.1, takeWhile_run hword.2 hend, dropWhile_run hword.2 hend]

theorem readsFirst_number {digits : Bytes} (sign : Bool) (hne : digits ≠ [])
    (hdigits : ∀ d ∈ digits, isDigit d = true)
    (hend : ∀ d, rest.head? = some d → isDigit d = false) :
    ReadsFirst ⟨.number, if sign then 45 :: digits else digits⟩
      (if sign then 45 :: digits else digits) rest := by
  cases digits with
  | nil => exact absurd rfl hne
  | cons c digits =>
    have hc := hdigits c List.mem_cons_self
    have htail : ∀ d ∈ digits, isDigit d = true := fun d hd => hdigits d (List.mem_cons_of_mem c hd)
    cases sign with
    | true =>
      refine ⟨45, c :: digits ++ rest, rfl, rfl, ?_⟩
      have hstart : startsWithDigit (c :: digits ++ rest) = true := hc
      rw [readToken_number (.inr ⟨rfl, hstart⟩), takeWhile_run hdigits hend,
        dropWhile_run hdigits hend]
      rfl
    | false =>
      refine ⟨c, digits ++ rest, rfl, isSpace_of_isDigit hc, ?_⟩
      rw [readToken_number (.inl hc), takeWhile_run htail hend, dropWhile_run htail hend]
      rfl

/-- A `<` or `>` that no `=` follows. -/
theorem withEqual_plain {plain equal : Token} (hend : ∀ d, rest.head? = some d → d ≠ 61) :
    withEqual rest plain equal = (plain, rest) := by
  unfold withEqual
  split
  · exact absurd rfl (hend 61 rfl)
  · rfl

theorem readsFirst_symbol {type : TokenType} (hin : (text, type) ∈ symbols)
    (hend : ∀ d, rest.head? = some d → continues type d = false) :
    ReadsFirst ⟨type, text⟩ text rest := by
  have hequal : type = .greater ∨ type = .less → ∀ d, rest.head? = some d → d ≠ 61 := by
    intro ht d hd he
    have := hend d hd
    rw [he] at this
    rcases ht with rfl | rfl <;> cases this
  simp only [symbols, List.mem_cons, Prod.mk.injEq, List.not_mem_nil, or_false] at hin
  rcases hin with ⟨rfl, rfl⟩ | ⟨rfl, rfl⟩ | ⟨rfl, rfl⟩ | ⟨rfl, rfl⟩ | ⟨rfl, rfl⟩ | ⟨rfl, rfl⟩ |
    ⟨rfl, rfl⟩ | ⟨rfl, rfl⟩ | ⟨rfl, rfl⟩ | ⟨rfl, rfl⟩
  case inr.inr.inr.inl => exact ⟨62, rest, rfl, rfl, withEqual_plain (hequal (.inl rfl))⟩
  case inr.inr.inr.inr.inl => exact ⟨60, rest, rfl, rfl, withEqual_plain (hequal (.inr rfl))⟩
  all_goals exact ⟨_, _, rfl, rfl, rfl⟩

theorem readsFirst_of_spells (h : Spells token text)
    (hend : ∀ d, rest.head? = some d → continues token.type d = false) :
    ReadsFirst token text rest := by
  cases h with
  | keyword hin =>
    rw [← wordType_of_keyword hin]
    refine readsFirst_word (isWord_of_keyword hin) fun d hd => ?_
    rw [← (keywords_upper _ hin).2.2.2 d]
    exact hend d hd
  | identifier hword hkey =>
    rw [← wordType_of_not_keyword hkey]
    exact readsFirst_word hword hend
  | number sign hne hdigits => exact readsFirst_number sign hne hdigits hend
  | symbol hin => exact readsFirst_symbol hin hend
  | @string quote value hquote =>
    have hnot : rest.head? ≠ some quote := by
      intro he
      have hq := hend quote he
      simp only [continues, Bool.or_eq_false_iff, decide_eq_false_iff_not] at hq
      rcases hquote with rfl | rfl
      · exact hq.1 rfl
      · exact hq.2 rfl
    refine ⟨quote, doubleQuotes quote value ++ quote :: rest, ?_, ?_, readToken_quoted hquote hnot⟩
    · rw [quoted, List.cons_append, List.append_assoc]
      rfl
    · rcases hquote with rfl | rfl <;> rfl

theorem type_of_spells (h : Spells token text) :
    token.type ≠ .invalid ∧ token.type ≠ .endOfFile := by
  cases h with
  | keyword hin =>
    have hall : ∀ k ∈ keywords, k.2 ≠ .invalid ∧ k.2 ≠ .endOfFile := by decide
    exact hall _ hin
  | symbol hin =>
    have hall : ∀ k ∈ symbols, k.2 ≠ .invalid ∧ k.2 ≠ .endOfFile := by decide
    exact hall _ hin
  | identifier | number | string => exact ⟨nofun, nofun⟩

/-! ## Reading a text back -/

theorem length_withEqual_le (rest : Bytes) (plain equal : Token) :
    (withEqual rest plain equal).2.length ≤ rest.length := by
  unfold withEqual
  split
  · exact Nat.le_succ _
  · exact Nat.le_refl _

theorem length_readQuoted_le (quote : UInt8) : ∀ (n : Nat) (text : Bytes) {r : Bytes × Bytes},
    text.length ≤ n → readQuoted quote text = some r → r.2.length ≤ text.length := by
  intro n
  induction n with
  | zero =>
    intro text r hn h
    rw [List.eq_nil_of_length_eq_zero (Nat.le_zero.mp hn)] at h
    cases h
  | succ n ih =>
    intro text r hn h
    cases text with
    | nil => cases h
    | cons c rest =>
      rw [List.length_cons] at hn ⊢
      unfold readQuoted at h
      split at h
      · cases rest with
        | nil =>
          cases h
          exact Nat.zero_le _
        | cons d rest =>
          dsimp only at h
          rw [List.length_cons] at hn ⊢
          split at h
          · obtain ⟨r', hr', rfl⟩ := Option.map_eq_some_iff.mp h
            have := ih rest (by omega) hr'
            dsimp only
            omega
          · cases h
            rw [List.length_cons]
            omega
      · obtain ⟨r', hr', rfl⟩ := Option.map_eq_some_iff.mp h
        have := ih rest (by omega) hr'
        dsimp only
        omega

/-- One turn of the loop does not move backwards, and does not find the end of the text. -/
def Progress (rest : Bytes) (r : Token × Bytes) : Prop :=
  r.2.length ≤ rest.length ∧ r.1.type ≠ .endOfFile

theorem wordType_ne_endOfFile (word : Bytes) : wordType word ≠ .endOfFile := by
  by_cases hkey : ∃ k ∈ keywords, word.map toUpper = k.1
  · obtain ⟨k, hk, he⟩ := hkey
    have hin : (word.map toUpper, k.2) ∈ keywords := he ▸ hk
    rw [wordType_of_keyword hin]
    exact (type_of_spells (.keyword hin)).2
  · rw [wordType_of_not_keyword fun k hk he => hkey ⟨k, hk, he⟩]
    nofun

theorem readToken_progress (c : UInt8) (rest : Bytes) : Progress rest (readToken c rest) := by
  have hplain : ∀ token : Token, token.type ≠ .endOfFile → Progress rest (token, rest) :=
    fun token ht => ⟨Nat.le_refl _, ht⟩
  have hequal : ∀ plain equal : Token, plain.type ≠ .endOfFile → equal.type ≠ .endOfFile →
      Progress rest (withEqual rest plain equal) := by
    intro plain equal hp he
    refine ⟨length_withEqual_le rest plain equal, ?_⟩
    unfold withEqual
    split
    · exact he
    · exact hp
  unfold readToken
  refine iteInduction (fun _ => hplain _ nofun) fun _ => ?_
  refine iteInduction (fun _ => hplain _ nofun) fun _ => ?_
  refine iteInduction (fun _ => hplain _ nofun) fun _ => ?_
  refine iteInduction (fun _ => hequal _ _ nofun nofun) fun _ => ?_
  refine iteInduction (fun _ => hequal _ _ nofun nofun) fun _ => ?_
  refine iteInduction (fun _ => hplain _ nofun) fun _ => ?_
  refine iteInduction (fun _ => hplain _ nofun) fun _ => ?_
  refine iteInduction (fun _ => hplain _ nofun) fun _ => ?_
  refine iteInduction (fun _ => ?_) fun _ => ?_
  · cases hr : readQuoted c rest with
    | none => exact ⟨Nat.zero_le _, nofun⟩
    | some r => exact ⟨length_readQuoted_le c _ rest (Nat.le_refl _) hr, nofun⟩
  refine iteInduction
    (fun _ => ⟨(List.dropWhile_sublist _).length_le, wordType_ne_endOfFile _⟩) fun _ => ?_
  exact iteInduction (fun _ => ⟨(List.dropWhile_sublist _).length_le, nofun⟩)
    fun _ => hplain _ nofun

theorem tokenizeLoop_renders (h : Renders tokens text) :
    ∀ fuel, text.length < fuel → tokenizeLoop fuel text = tokens := by
  induction h with
  | nil =>
    intro fuel hfuel
    obtain ⟨fuel, rfl⟩ := Nat.exists_eq_add_one_of_ne_zero (Nat.ne_of_gt hfuel)
    rfl
  | @blank c tokens rest hc _ ih =>
    intro fuel hfuel
    have hlt : rest.length < fuel := Nat.lt_of_succ_lt hfuel
    obtain ⟨fuel, rfl⟩ := Nat.exists_eq_add_one_of_ne_zero (Nat.ne_of_gt (Nat.zero_lt_of_lt hfuel))
    rw [← ih _ hlt, tokenizeLoop, tokenizeLoop, List.dropWhile_cons, if_pos hc]
  | @token token tokens text rest htoken hend _ ih =>
    intro fuel hfuel
    obtain ⟨fuel, rfl⟩ := Nat.exists_eq_add_one_of_ne_zero (Nat.ne_of_gt (Nat.zero_lt_of_lt hfuel))
    obtain ⟨c, tail, htext, hc, hread⟩ := readsFirst_of_spells htoken hend
    have hdrop : (text ++ rest).dropWhile isSpace = c :: tail := by
      rw [htext, List.dropWhile_cons, hc, if_neg Bool.false_ne_true]
    have hshort : rest.length < fuel := by
      have hle := (readToken_progress c tail).1
      rw [hread] at hle
      rw [htext] at hfuel
      exact Nat.lt_of_le_of_lt hle (Nat.lt_of_succ_lt_succ hfuel)
    rw [tokenizeLoop, hdrop]
    dsimp only
    rw [hread]
    dsimp only
    rw [if_neg (type_of_spells htoken).1, ih fuel hshort]

theorem renders_blanks {blanks : Bytes} (hblanks : ∀ c ∈ blanks, isSpace c = true)
    (h : Renders tokens rest) : Renders tokens (blanks ++ rest) := by
  induction blanks with
  | nil => exact h
  | cons c blanks ih =>
    exact .blank (hblanks c List.mem_cons_self)
      (ih fun d hd => hblanks d (List.mem_cons_of_mem c hd))

theorem isWordChar_of_isSpace (h : isSpace c = true) :
    isWordChar c = false ∧ isDigit c = false := by
  have hdigit : isDigit c = false := by
    by_contra hc
    rw [isSpace_of_isDigit ((Bool.not_eq_false _).mp hc)] at h
    cases h
  have hword : ¬ (isAlpha c = true ∨ c = 95) := by
    intro hc
    rw [isSpace_of_wordStart hc] at h
    cases h
  rw [not_or, Bool.not_eq_true] at hword
  refine ⟨?_, hdigit⟩
  rw [isWordChar, isAlnum, hword.1, hdigit, decide_eq_false hword.2]
  rfl

/-- A blank ends every token. -/
theorem continues_of_isSpace (h : isSpace c = true) (type : TokenType) :
    continues type c = false := by
  obtain ⟨hword, hdigit⟩ := isWordChar_of_isSpace h
  have hne : ∀ d, isSpace d = false → c ≠ d := by
    intro d hd he
    rw [← he, h] at hd
    cases hd
  have hquotes : (c = 39 || c = 34) = false := by
    rw [decide_eq_false (hne 39 rfl), decide_eq_false (hne 34 rfl)]
    rfl
  cases type <;> first | rfl | exact hword | exact hdigit | exact hquotes |
    exact decide_eq_false (hne 61 rfl)

theorem renders_of_spaced (h : Spaced tokens text) : Renders tokens text := by
  induction h with
  | nil => exact .nil
  | @one token text htoken =>
    rw [← List.append_nil text]
    exact .token htoken nofun .nil
  | @cons token next text blanks rest tokens htoken hne hblanks _ ih =>
    refine .token htoken (fun c hc => ?_) (renders_blanks hblanks ih)
    cases blanks with
    | nil => exact absurd rfl hne
    | cons d blanks =>
      cases hc
      exact continues_of_isSpace (hblanks _ List.mem_cons_self) token.type

theorem tokenize_of_renders (h : Renders tokens text) :
    tokenize text = tokens ++ [⟨.endOfFile, []⟩] := by
  rw [tokenize, tokenizeLoop_renders h _ (Nat.lt_succ_self _)]

/-! ## Any text -/

/-- The loop, started on a text, ends with these tokens and leaves the rest of the text unread. -/
inductive Scans : Bytes → List Token → Bytes → Prop
  | finished {text : Bytes} (hend : text.dropWhile isSpace = []) : Scans text [] []
  | invalid {text tail rest : Bytes} {c : UInt8} {token : Token}
      (hnext : text.dropWhile isSpace = c :: tail) (hread : readToken c tail = (token, rest))
      (htype : token.type = .invalid) : Scans text [token] rest
  | token {text tail rest unread : Bytes} {c : UInt8} {token : Token} {tokens : List Token}
      (hnext : text.dropWhile isSpace = c :: tail) (hread : readToken c tail = (token, rest))
      (htype : token.type ≠ .invalid) (hrest : Scans rest tokens unread) :
      Scans text (token :: tokens) unread

/-- The loop ends before its turns run out. -/
theorem tokenizeLoop_scans : ∀ (fuel : Nat) (text : Bytes), text.length < fuel →
    ∃ unread, Scans text (tokenizeLoop fuel text) unread := by
  intro fuel
  induction fuel with
  | zero => exact fun text h => absurd h (Nat.not_lt_zero _)
  | succ fuel ih =>
    intro text hfuel
    rw [tokenizeLoop]
    cases hnext : text.dropWhile isSpace with
    | nil => exact ⟨[], .finished hnext⟩
    | cons c tail =>
      have hdrop : tail.length < text.length := by
        have hle := (List.dropWhile_sublist (l := text) isSpace).length_le
        rw [hnext] at hle
        exact hle
      have hprogress := (readToken_progress c tail).1
      obtain ⟨token, rest, hread⟩ : ∃ token rest, readToken c tail = (token, rest) := ⟨_, _, rfl⟩
      rw [hread] at hprogress
      dsimp only at hprogress ⊢
      rw [hread]
      dsimp only
      by_cases htype : token.type = .invalid
      · rw [if_pos htype]
        exact ⟨rest, .invalid hnext hread htype⟩
      · obtain ⟨unread, hscans⟩ := ih rest (by omega)
        rw [if_neg htype]
        exact ⟨unread, .token hnext hread htype hscans⟩

theorem scans_spec {unread : Bytes} (h : Scans text tokens unread) :
    (∀ token ∈ tokens, token.type ≠ .endOfFile) ∧
      (∀ token ∈ tokens.dropLast, token.type ≠ .invalid) ∧
      ((∀ token ∈ tokens, token.type ≠ .invalid) → unread = []) := by
  induction h with
  | finished => exact ⟨nofun, nofun, fun _ => rfl⟩
  | @invalid text tail rest c token hnext hread htype =>
    have hprogress := (readToken_progress c tail).2
    rw [hread] at hprogress
    refine ⟨fun t ht => ?_, nofun, fun hall => absurd htype (hall token List.mem_cons_self)⟩
    rw [List.mem_singleton.mp ht]
    exact hprogress
  | @token text tail rest unread c token tokens hnext hread htype _ ih =>
    have hprogress := (readToken_progress c tail).2
    rw [hread] at hprogress
    refine ⟨fun t ht => ?_, fun t ht => ?_, fun hall => ?_⟩
    · rcases List.mem_cons.mp ht with rfl | ht
      · exact hprogress
      · exact ih.1 t ht
    · cases tokens with
      | nil => cases ht
      | cons next tokens =>
        rcases List.mem_cons.mp ht with rfl | ht
        · exact htype
        · exact ih.2.1 t ht
    · exact ih.2.2 fun t ht => hall t (List.mem_cons_of_mem token ht)

/-- What is written is read back; on any text the tokenizer ends, an invalid token comes last before
the end of the file, and without one the whole text was read. -/
theorem tokenize_spec :
    (∀ tokens text, Spaced tokens text → tokenize text = tokens ++ [⟨.endOfFile, []⟩]) ∧
      ∀ text, ∃ tokens unread, tokenize text = tokens ++ [⟨.endOfFile, []⟩] ∧
        Scans text tokens unread ∧ (∀ token ∈ tokens, token.type ≠ .endOfFile) ∧
        (∀ token ∈ tokens.dropLast, token.type ≠ .invalid) ∧
        ((∀ token ∈ tokens, token.type ≠ .invalid) → unread = []) := by
  refine ⟨fun tokens text h => tokenize_of_renders (renders_of_spaced h), fun text => ?_⟩
  obtain ⟨unread, hscans⟩ := tokenizeLoop_scans (text.length + 1) text (Nat.lt_succ_self _)
  exact ⟨_, unread, rfl, hscans, scans_spec hscans⟩

/-- The tokens of `where  a = 'it''s'`. -/
def whereTokens : List Token :=
  [⟨.keywordWhere, str "where"⟩, ⟨.identifier, str "a"⟩, ⟨.equal, str "="⟩,
    ⟨.stringLiteral, str "it's"⟩]

theorem tokenize_where : Spaced whereTokens (str "where  a = 'it''s'") ∧
    tokenize (str "where  a = 'it''s'") = whereTokens ++ [⟨.endOfFile, []⟩] ∧
    Scans (str "where  a = 'it''s'") whereTokens [] := by
  have htext : str "where  a = 'it''s'" = str "where" ++ ([32, 32] ++ (str "a" ++ ([32] ++
      (str "=" ++ ([32] ++ quoted 39 (str "it's")))))) := by decide +kernel
  have hwhere : Spells ⟨.keywordWhere, str "where"⟩ (str "where") := .keyword (by decide +kernel)
  have hcolumn : Spells ⟨.identifier, str "a"⟩ (str "a") :=
    .identifier ⟨by decide +kernel, by decide +kernel⟩ (by decide +kernel)
  have hequal : Spells ⟨.equal, str "="⟩ (str "=") := .symbol (by decide +kernel)
  have hspaced : Spaced whereTokens (str "where  a = 'it''s'") := by
    rw [htext]
    refine .cons hwhere (List.cons_ne_nil _ _) (by decide +kernel) ?_
    refine .cons hcolumn (List.cons_ne_nil _ _) (by decide +kernel) ?_
    refine .cons hequal (List.cons_ne_nil _ _) (by decide +kernel) ?_
    exact .one (.string _ (.inl rfl))
  have hread := tokenize_spec.1 _ _ hspaced
  obtain ⟨tokens, unread, htokens, hscans, -, -, hall⟩ := tokenize_spec.2 (str "where  a = 'it''s'")
  obtain rfl := List.append_cancel_right (htokens.symm.trans hread)
  obtain rfl := hall (by decide +kernel)
  exact ⟨hspaced, hread, hscans⟩

end Tokenizer

end MiniDbms
