import MiniDbms.Query.Printer

/-!
# The lengths of columns

Which numerals CREATE TABLE accepts as the length of a column. The range is tested after the
conversion by `std::stoul`, which takes a negative numeral modulo `2 ^ 64`.
-/

namespace MiniDbms

open Lib Grammar Text

namespace Parser

/-- `{col ,}` -/
inductive Leading : List Token → List ColumnDefinition → Prop
  | nil : Leading [] []
  | items {t : Bytes} {front : List Token} {columns : List ColumnDefinition}
      (h : Items Col .comma front columns) : Leading (front ++ [⟨.comma, t⟩]) columns

/-- `{, col}` -/
inductive Trailing : List Token → List ColumnDefinition → Prop
  | nil : Trailing [] []
  | items {t : Bytes} {front : List Token} {columns : List ColumnDefinition}
      (h : Items Col .comma front columns) : Trailing (⟨.comma, t⟩ :: front) columns

/-- The tokens before and behind the numeral in a length clause of a CREATE TABLE statement. -/
inductive LengthHole (table name typeName : Bytes) (before after : List ColumnDefinition) :
    List Token → List Token → Prop
  | intro {t₁ t₂ t₃ t₄ t₅ t₆ t₇ : Bytes} {front back tail : List Token}
      (hbefore : Leading front before) (hafter : Trailing back after) (hend : Semicolon tail) :
      LengthHole table name typeName before after
        (⟨.keywordCreate, t₁⟩ :: ⟨.keywordTable, t₂⟩ :: ⟨.identifier, table⟩ :: ⟨.lparen, t₃⟩ ::
          (front ++ [⟨.identifier, name⟩, ⟨.identifier, typeName⟩, ⟨.lparen, t₄⟩]))
        (⟨.rparen, t₅⟩ :: (back ++ (⟨.rparen, t₆⟩ :: (tail ++ [⟨.endOfFile, t₇⟩]))))

/-- What `std::stoul` returns for the numeral is a length. -/
def ReadsLength (number : Bytes) (n : Nat) : Prop := stoul number = some n ∧ 1 ≤ n ∧ n ≤ 4294967295

variable {table name typeName number : Bytes} {before after : List ColumnDefinition}
  {front back tokens : List Token} {column : ColumnDefinition} {s : SQLStatement} {n : Nat}

theorem items_around {mid : List Token} (hbefore : Leading front before) (hmid : Col mid column)
    (hafter : Trailing back after) :
    Items Col .comma (front ++ (mid ++ back)) (before ++ column :: after) := by
  have hrest : Items Col .comma (mid ++ back) (column :: after) := by
    cases hafter with
    | nil =>
      rw [List.append_nil]
      exact .one hmid
    | items h => exact .more hmid rfl h
  cases hbefore with
  | nil => exact hrest
  | items h =>
    rw [List.append_assoc]
    exact h.append rfl hrest

theorem sentence_of_length (h : LengthHole table name typeName before after front back)
    (hread : ReadsLength number n) :
    Sentence (front ++ ⟨.number, number⟩ :: back)
      (.createTable ⟨table, before ++ ⟨name, typeName, UInt32.ofNat n⟩ :: after⟩) := by
  cases h with
  | @intro t₁ t₂ t₃ t₄ t₅ t₆ t₇ front back tail hbefore hafter hend =>
    have hcolumn :
        Col [⟨.identifier, name⟩, ⟨.identifier, typeName⟩, ⟨.lparen, t₄⟩, ⟨.number, number⟩,
        ⟨.rparen, t₅⟩] ⟨name, typeName, UInt32.ofNat n⟩ :=
      .intro (.present hread.1 hread.2.1 hread.2.2)
    have hbody := @Body.createTable t₁ t₂ t₃ t₆ table _ _ (items_around hbefore hcolumn hafter)
    have hsentence := @Sentence.intro _ tail _ t₇ hbody hend
    simpa using hsentence

/-- The token is not a numeral, or it is a length. -/
def LengthsOnly (token : Token) : Prop := token.type = .number → ∃ n, ReadsLength token.text n

theorem lengths_of_col (h : Col front column) : ∀ token ∈ front, LengthsOnly token := by
  obtain ⟨hlength⟩ := h
  cases hlength with
  | absent => exact List.forall_mem_cons.mpr ⟨nofun, List.forall_mem_cons.mpr ⟨nofun, nofun⟩⟩
  | @present _ _ number n hread hpos hle =>
    simp only [List.forall_mem_cons]
    exact ⟨nofun, nofun, nofun, fun _ => ⟨n, hread, hpos, hle⟩, nofun, nofun⟩

theorem lengths_of_items {columns : List ColumnDefinition} (h : Items Col .comma front columns) :
    ∀ token ∈ front, LengthsOnly token := by
  induction h with
  | one h => exact lengths_of_col h
  | more h htoken _ ih =>
    refine List.forall_mem_append.mpr
      ⟨lengths_of_col h, List.forall_mem_cons.mpr ⟨fun htype => ?_, ih⟩⟩
    rw [htoken] at htype
    cases htype

/-- The numerals of an accepted CREATE TABLE statement are lengths. -/
theorem lengths_of_sentence {t₁ t₂ : Bytes} {rest : List Token} (h : Sentence tokens s)
    (htokens : tokens = ⟨.keywordCreate, t₁⟩ :: ⟨.keywordTable, t₂⟩ :: rest) :
    ∀ token ∈ tokens, LengthsOnly token := by
  obtain ⟨hbody, hend⟩ := h
  cases hbody with
  | select h =>
    cases h
    cases htokens
  | explain | insert | update | delete | createIndex => cases htokens
  | createTable h =>
    simp only [List.forall_mem_append, List.forall_mem_cons]
    refine ⟨⟨nofun, nofun, nofun, nofun, lengths_of_items h, nofun, nofun⟩, ?_, nofun, nofun⟩
    cases hend with
    | absent => exact nofun
    | present => exact List.forall_mem_cons.mpr ⟨nofun, nofun⟩

theorem inside_leading (h : Leading front before) : Inside front := by
  cases h with
  | nil => exact inside_nil
  | items h => simpa using inside_items (by decide) inside_col h

theorem inside_trailing (h : Trailing back after) : Inside back := by
  cases h with
  | nil => exact inside_nil
  | items h => simpa using inside_items (by decide) inside_col h

theorem endsOnce_of_hole (h : LengthHole table name typeName before after front back) :
    EndsOnce (front ++ ⟨.number, number⟩ :: back) := by
  cases h with
  | @intro t₁ t₂ t₃ t₄ t₅ t₆ t₇ front back tail hbefore hafter hend =>
    have hinside : Inside ((⟨.keywordCreate, t₁⟩ :: ⟨.keywordTable, t₂⟩ :: ⟨.identifier, table⟩ ::
        ⟨.lparen, t₃⟩ ::
        (front ++ [⟨.identifier, name⟩, ⟨.identifier, typeName⟩, ⟨.lparen, t₄⟩])) ++
          ⟨.number, number⟩ :: ⟨.rparen, t₅⟩ :: (back ++ (⟨.rparen, t₆⟩ :: tail))) := by
      simp [inside_leading hbefore, inside_trailing hafter, inside_semicolon hend]
    refine ⟨_, t₇, ?_, fun token ht => (hinside token ht).1⟩
    simp

/-- A length clause is accepted exactly if the conversion gives a length. -/
theorem parse_hole (h : LengthHole table name typeName before after front back) :
    parse (front ++ ⟨.number, number⟩ :: back) = .ok s ↔
      ∃ n, ReadsLength number n ∧
        s = .createTable ⟨table, before ++ ⟨name, typeName, UInt32.ofNat n⟩ :: after⟩ := by
  constructor
  · intro hparse
    have hsentence := ((parse_ok_iff (endsOnce_of_hole h) s).mp hparse).2
    have hlengths : LengthsOnly ⟨.number, number⟩ := by
      cases h
      exact lengths_of_sentence hsentence rfl _ (List.mem_append_right _ List.mem_cons_self)
    obtain ⟨n, hread⟩ := hlengths rfl
    have hsame := parse_of_sentence (sentence_of_length h hread)
    rw [hparse] at hsame
    exact ⟨n, hread, Except.ok.inj hsame⟩
  · rintro ⟨n, hread, rfl⟩
    exact parse_of_sentence (sentence_of_length h hread)

/-- A negative numeral that `std::stoul` takes for a small number. -/
def WrapsToLength (sign : Bool) (digits : Bytes) : Prop :=
  sign = true ∧ 18446744069414584320 < decimal digits ∧ decimal digits < 18446744073709551616

/-- The conversion gives a length if the numeral denotes one, or a number that wraps to one. -/
theorem readsLength_numeral {sign : Bool} {digits : Bytes} (hne : digits ≠ [])
    (hdigits : ∀ c ∈ digits, isDigit c = true) :
    ReadsLength (numeral sign digits) n ↔
      (1 ≤ denotes sign digits ∧ denotes sign digits ≤ 4294967295 ∧
        n = (denotes sign digits).toNat) ∨
        (WrapsToLength sign digits ∧ n = 18446744073709551616 - decimal digits) := by
  rw [ReadsLength, stoul_numeral sign hne hdigits, WrapsToLength]
  cases sign with
  | false =>
    simp only [denotes, Bool.false_eq_true, if_false, false_and, or_false]
    split
    · simp
      omega
    · simp only [Option.some.injEq]
      omega
  | true =>
    simp only [denotes, if_true, true_and]
    split
    · simp
      omega
    · simp only [Option.some.injEq]
      omega

/-- A length clause is accepted exactly if its numeral denotes a length, which is then the length of
the column, unless the numeral is negative and wraps to a length. -/
theorem length_clause_iff {sql digits : Bytes} {sign : Bool} (hne : digits ≠ [])
    (hdigits : ∀ c ∈ digits, isDigit c = true)
    (hhole : LengthHole table name typeName before after front back)
    (hsql : Tokenizer.tokenize sql = front ++ ⟨.number, numeral sign digits⟩ :: back) :
    (∀ s, parse (Tokenizer.tokenize sql) = .ok s ↔
      (1 ≤ denotes sign digits ∧ denotes sign digits ≤ 4294967295) ∧ s = .createTable ⟨table,
        before ++ ⟨name, typeName, UInt32.ofNat (denotes sign digits).toNat⟩ :: after⟩) ↔
      ¬ WrapsToLength sign digits := by
  rw [hsql]
  constructor
  · intro hclause hwraps
    have hread : ReadsLength (numeral sign digits) (18446744073709551616 - decimal digits) :=
      (readsLength_numeral hne hdigits).mpr (.inr ⟨hwraps, rfl⟩)
    have hrange := ((hclause _).mp ((parse_hole hhole).mpr ⟨_, hread, rfl⟩)).1.1
    rw [denotes, hwraps.1, if_pos rfl] at hrange
    omega
  · intro hwraps s
    rw [parse_hole hhole]
    constructor
    · rintro ⟨n, hread, rfl⟩
      rcases (readsLength_numeral hne hdigits).mp hread with ⟨hpos, hle, rfl⟩ | ⟨hw, -⟩
      · exact ⟨⟨hpos, hle⟩, rfl⟩
      · exact absurd hw hwraps
    · rintro ⟨⟨hpos, hle⟩, rfl⟩
      exact ⟨_, (readsLength_numeral hne hdigits).mpr (.inl ⟨hpos, hle, rfl⟩), rfl⟩

theorem length_clause_varchar :
    parse (Tokenizer.tokenize (str "CREATE TABLE t (a VARCHAR(7))")) =
      .ok (.createTable ⟨str "t", [⟨str "a", str "VARCHAR", 7⟩]⟩) := by
  have hhole : LengthHole (str "t") (str "a") (str "VARCHAR") [] []
      [⟨.keywordCreate, str "CREATE"⟩, ⟨.keywordTable, str "TABLE"⟩, ⟨.identifier, str "t"⟩,
        ⟨.lparen, str "("⟩, ⟨.identifier, str "a"⟩, ⟨.identifier, str "VARCHAR"⟩,
        ⟨.lparen, str "("⟩]
      [⟨.rparen, str ")"⟩, ⟨.rparen, str ")"⟩, ⟨.endOfFile, []⟩] :=
    .intro .nil .nil .absent
  have hwraps : ¬ WrapsToLength false (str "7") := nofun
  refine ((length_clause_iff (by decide) (by decide +kernel) hhole (by decide +kernel)).mpr
    hwraps _).mpr ⟨?_, ?_⟩
  · decide +kernel
  · decide +kernel

/-- `18446744073709551615` is `2 ^ 64 - 1`. -/
theorem length_clause_wraps :
    parse (Tokenizer.tokenize (str "CREATE TABLE t (a VARCHAR(-18446744073709551615))")) =
        .ok (.createTable ⟨str "t", [⟨str "a", str "VARCHAR", 1⟩]⟩) ∧
      denotes true (str "18446744073709551615") = -18446744073709551615 := by
  decide +kernel

end Parser

end MiniDbms
