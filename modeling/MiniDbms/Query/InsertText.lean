import MiniDbms.Query.Executor
import MiniDbms.Query.Printer
import MiniDbms.Query.TokenText
import MiniDbms.Storage.RecordRoundTrip

/-!
# The text of INSERT

Values written as an INSERT statement are read back by the tokenizer, the parser and
`ConvertLiteral`.
-/

namespace MiniDbms

open Lib Text Tokenizer

namespace QueryExecutor

/-- How a value is written. A string may be in either kind of quotes. -/
inductive ValueText : FieldValue → Bytes → Prop
  | null : ValueText .null (str "NULL")
  | integer (v : Int32) : ValueText (.integer v) (showInt v.toInt)
  | text {quote : UInt8} (s : Bytes) (hquote : quote = 39 ∨ quote = 34) :
      ValueText (.text s) (quoted quote s)
  | boolean (b : Bool) : ValueText (.boolean b) (if b then str "true" else str "false")

/-- Texts with `, ` between neighbours. -/
def joinTexts : List Bytes → Bytes
  | [] => []
  | [text] => text
  | text :: next :: texts => text ++ (str ", " ++ joinTexts (next :: texts))

/-- `INSERT INTO table VALUES (…)` -/
def insertText (table : Bytes) (texts : List Bytes) : Bytes :=
  str "INSERT INTO " ++ (table ++ (str " VALUES (" ++ (joinTexts texts ++ str ")")))

/-- The literal that a value is written as. -/
def literalOf : FieldValue → SQLLiteral
  | .null => ⟨.nullValue, []⟩
  | .integer v => ⟨.number, showInt v.toInt⟩
  | .text s => ⟨.string, s⟩
  | .boolean b => ⟨.identifier, if b then str "true" else str "false"⟩

variable {column : Column} {value : FieldValue} {text rest : Bytes} {values : List FieldValue}
  {texts : List Bytes} {tokens : List Token} {schema : Schema}

/-! ## The tokens of the text -/

theorem wellFormed_literalOf (value : FieldValue) : (literalOf value).WellFormed := by
  cases value with
  | null => exact fun _ => rfl
  | integer | text | boolean => exact nofun

theorem spells_showInt (n : Int) : Spells ⟨.number, showInt n⟩ (showInt n) := by
  rw [numeral_of_showInt]
  exact .number _ (showNat_ne_nil _) (isDigit_showNat _)

theorem spells_boolean (b : Bool) : Spells ⟨.identifier, if b then str "true" else str "false"⟩
    (if b then str "true" else str "false") := by
  cases b with
  | true => exact .identifier ⟨by decide, by decide +kernel⟩ (by decide +kernel)
  | false => exact .identifier ⟨by decide, by decide +kernel⟩ (by decide +kernel)

theorem literal_spells (h : ValueText value text) :
    ∃ token, Printer.literal (literalOf value) = [token] ∧ Spells token text := by
  cases h with
  | null => exact ⟨_, rfl, .keyword (by decide)⟩
  | integer v => exact ⟨_, rfl, spells_showInt v.toInt⟩
  | text s hquote => exact ⟨_, rfl, .string s hquote⟩
  | boolean b => exact ⟨_, rfl, spells_boolean b⟩

/-- A comma or a closing parenthesis ends every token. -/
theorem continues_of_punctuation {c : UInt8} (hc : c = 44 ∨ c = 41) (type : TokenType) :
    continues type c = false := by
  rcases hc with rfl | rfl <;> cases type <;> rfl

theorem renders_symbol {type : TokenType} (hin : (text, type) ∈ symbols)
    (hplain : ∀ c, continues type c = false) (h : Renders tokens rest) :
    Renders (⟨type, text⟩ :: tokens) (text ++ rest) :=
  .token (.symbol hin) (fun c _ => hplain c) h

theorem renders_values (h : List.Forall₂ ValueText values texts)
    (htokens : Renders tokens (41 :: rest)) :
    Renders (Printer.items Printer.literal Printer.comma (values.map literalOf) ++ tokens)
      (joinTexts texts ++ 41 :: rest) := by
  induction h with
  | nil => exact htokens
  | @cons value text values texts hvalue htail ih =>
    obtain ⟨token, hliteral, hspells⟩ := literal_spells hvalue
    cases htail with
    | nil =>
      show Renders (Printer.literal (literalOf value) ++ tokens) _
      rw [hliteral]
      refine .token hspells (fun c hc => ?_) htokens
      cases hc
      exact continues_of_punctuation (.inr rfl) _
    | @cons next text' values texts hnext htail =>
      have hitems : Printer.items Printer.literal Printer.comma
          ((value :: next :: values).map literalOf) = token :: Printer.comma ::
            Printer.items Printer.literal Printer.comma ((next :: values).map literalOf) := by
        show Printer.literal (literalOf value) ++ _ = _
        rw [hliteral]
        rfl
      rw [hitems, joinTexts, List.append_assoc, List.append_assoc]
      refine .token hspells (fun c hc => ?_)
        (renders_symbol (by decide) (fun _ => rfl) (.blank rfl ih))
      cases hc
      exact continues_of_punctuation (.inl rfl) _

theorem renders_word {token : Token} (htoken : Spells token text) (h : Renders tokens rest) :
    Renders (token :: tokens) (text ++ 32 :: rest) := by
  refine .token htoken (fun c hc => ?_) (.blank rfl h)
  cases hc
  exact continues_of_isSpace rfl token.type

theorem tokenize_insertText {table : Bytes} (hword : IsWord table)
    (hkey : ∀ k ∈ keywords, table.map toUpper ≠ k.1) (h : List.Forall₂ ValueText values texts) :
    tokenize (insertText table texts) = Printer.print (.insert ⟨table, values.map literalOf⟩) := by
  have hclose : Renders [⟨.rparen, str ")"⟩] (41 :: []) :=
    renders_symbol (by decide) (fun _ => rfl) .nil
  have hopen : Renders (⟨.lparen, str "("⟩ ::
      (Printer.items Printer.literal Printer.comma (values.map literalOf) ++ [⟨.rparen, str ")"⟩]))
      (str "(" ++ (joinTexts texts ++ str ")")) :=
    renders_symbol (by decide) (fun _ => rfl) (renders_values h hclose)
  have hvalues : Spells ⟨.keywordValues, str "VALUES"⟩ (str "VALUES") := .keyword (by decide)
  have hinto : Spells ⟨.keywordInto, str "INTO"⟩ (str "INTO") := .keyword (by decide)
  have hinsert : Spells ⟨.keywordInsert, str "INSERT"⟩ (str "INSERT") := .keyword (by decide)
  have htext := renders_word hinsert (renders_word hinto (renders_word (.identifier hword hkey)
    (renders_word hvalues hopen)))
  exact tokenize_of_renders htext

/-! ## The values of the literals -/

/-- A numeral of any length in an INTEGER column. -/
theorem convertLiteral_numeral {sign allowNull : Bool} {digits : Bytes}
    (htype : column.type = .integer)
    (hne : digits ≠ []) (hdigits : ∀ c ∈ digits, isDigit c = true) :
    convertLiteral column ⟨.number, numeral sign digits⟩ allowNull = .ok value ↔
      (-2147483648 ≤ denotes sign digits ∧ denotes sign digits ≤ 2147483647) ∧
        ∃ v : Int32, v.toInt = denotes sign digits ∧ value = .integer v := by
  rw [convertLiteral, if_neg nofun, htype]
  dsimp only
  rw [if_neg (not_not.mpr rfl), stoll_numeral sign hne hdigits]
  by_cases hlong : denotes sign digits < -9223372036854775808 ∨
    9223372036854775807 < denotes sign digits
  · rw [if_pos hlong]
    refine ⟨nofun, fun h => ?_⟩
    omega
  rw [if_neg hlong]
  dsimp only
  by_cases hrange : -2147483648 ≤ denotes sign digits ∧ denotes sign digits ≤ 2147483647
  · rw [if_neg (by omega)]
    have htoInt : (Int32.ofInt (denotes sign digits)).toInt = denotes sign digits :=
      Int32.toInt_ofInt_of_le (by omega) (by omega)
    constructor
    · intro h
      cases h
      exact ⟨hrange, _, htoInt, rfl⟩
    · rintro ⟨-, v, hv, rfl⟩
      rw [← hv, Int32.ofInt_toInt]
  · rw [if_pos (by omega)]
    exact ⟨nofun, fun h => absurd h.1 hrange⟩

theorem toLower_boolean (b : Bool) :
    (if b then str "true" else str "false").map toLower = if b then str "true" else
    str "false" := by
  cases b <;> rfl

theorem convertLiteral_literalOf (h : column.Accepts value) :
    convertLiteral column (literalOf value) true = .ok value := by
  cases value with
  | null => rfl
  | integer v =>
    have hlow := v.le_toInt
    have hhigh := v.toInt_lt
    have hdenotes := denotes_showNat v.toInt
    show convertLiteral column ⟨.number, showInt v.toInt⟩ true = _
    rw [numeral_of_showInt]
    refine (convertLiteral_numeral h (showNat_ne_nil _) (isDigit_showNat _)).mpr
      ⟨by omega, v, hdenotes.symm, rfl⟩
  | text s =>
    show convertLiteral column ⟨.string, s⟩ true = _
    rw [convertLiteral, if_neg nofun, h.1]
    dsimp only
    rw [if_neg (not_not.mpr rfl), if_neg fun hlong => Nat.not_le.mpr hlong.2 (h.2 hlong.1)]
  | boolean b =>
    have htype : column.type = .boolean := h
    show convertLiteral column ⟨.identifier, if b then str "true" else str "false"⟩ true = _
    rw [convertLiteral, if_neg nofun, htype]
    dsimp only
    rw [if_neg fun hkind => hkind.1 rfl, toLower_boolean]
    cases b <;> rfl

theorem convertValues_literalOf (h : List.Forall₂ Column.Accepts schema values) :
    convertValues schema (values.map literalOf) = .ok values := by
  induction h with
  | nil => rfl
  | cons hvalue _ ih =>
    rw [List.map_cons, convertValues, convertLiteral_literalOf hvalue, ih]

/-- Values of a table with columns that are written as an INSERT statement come back as they were. A
numeral is the value of an INTEGER column exactly if it denotes a 32-bit integer. -/
theorem insert_roundTrip :
    (∀ (table : Bytes) (schema : Schema) (values : List FieldValue) (texts : List Bytes),
      IsWord table → (∀ k ∈ keywords, table.map toUpper ≠ k.1) → schema ≠ [] →
      List.Forall₂ Column.Accepts schema values → List.Forall₂ ValueText values texts →
      ∃ literals, Parser.parse (tokenize (insertText table texts)) =
        .ok (.insert ⟨table, literals⟩) ∧
        literals.length = schema.length ∧ convertValues schema literals = .ok values) ∧
      ∀ (column : Column) (sign allowNull : Bool) (digits : Bytes) (value : FieldValue),
        column.type = .integer → digits ≠ [] → (∀ c ∈ digits, isDigit c = true) →
        (convertLiteral column ⟨.number, numeral sign digits⟩ allowNull = .ok value ↔
          (-2147483648 ≤ denotes sign digits ∧ denotes sign digits ≤ 2147483647) ∧
            ∃ v : Int32, v.toInt = denotes sign digits ∧ value = .integer v) := by
  refine ⟨fun table schema values texts hword hkey hschema haccepts htexts => ?_,
    fun column sign allowNull digits value htype hne hdigits =>
      convertLiteral_numeral htype hne hdigits⟩
  have hlength : (values.map literalOf).length = schema.length := by
    rw [List.length_map, haccepts.length_eq]
  have hwell : (SQLStatement.insert ⟨table, values.map literalOf⟩).WellFormed := by
    refine ⟨fun hnil => hschema ?_, fun literal hin => ?_⟩
    · have hnil : values.map literalOf = [] := hnil
      rw [hnil] at hlength
      exact List.eq_nil_of_length_eq_zero hlength.symm
    · obtain ⟨value, -, rfl⟩ := List.mem_map.mp hin
      exact wellFormed_literalOf value
  refine ⟨values.map literalOf, ?_, hlength, convertValues_literalOf haccepts⟩
  rw [tokenize_insertText hword hkey htexts]
  exact Parser.parse_of_sentence (Printer.print_sentence hwell)

/-- `INSERT INTO t VALUES (-7, 'it''s')`, and the least integer. -/
theorem insert_roundTrip_row :
    (∃ literals, Parser.parse (tokenize (insertText (str "t") [str "-7", str "'it''s'"])) =
        .ok (.insert ⟨str "t", literals⟩) ∧ literals.length = 2 ∧
      convertValues [⟨str "a", .integer, 4⟩, ⟨str "b", .varchar, 9⟩] literals =
        .ok [.integer (-7), .text (str "it's")]) ∧
    convertLiteral ⟨str "a", .integer, 4⟩ ⟨.number, numeral true (str "2147483648")⟩ true =
      .ok (.integer (-2147483648)) := by
  have htexts : List.Forall₂ ValueText [.integer (-7), .text (str "it's")]
      [str "-7", str "'it''s'"] := by
    have hquote : (39 : UInt8) = 39 ∨ (39 : UInt8) = 34 := .inl rfl
    exact .cons (.integer (-7)) (.cons (.text _ hquote) .nil)
  have haccepts : List.Forall₂ Column.Accepts [⟨str "a", .integer, 4⟩, ⟨str "b", .varchar, 9⟩]
      [.integer (-7), .text (str "it's")] := by
    refine .cons ?_ (.cons ?_ .nil) <;> decide +kernel
  have hword : IsWord (str "t") := ⟨by decide +kernel, by decide +kernel⟩
  refine ⟨insert_roundTrip.1 _ _ _ _ hword (by decide +kernel) (List.cons_ne_nil _ _) haccepts
    htexts, ?_⟩
  exact (insert_roundTrip.2 _ true true _ _ rfl (by decide +kernel) (by decide +kernel)).mpr
    ⟨by decide +kernel, -2147483648, by decide +kernel, rfl⟩

/-- The row of a table without columns. -/
theorem insert_no_columns :
    List.Forall₂ Column.Accepts [] [] ∧ List.Forall₂ ValueText [] [] ∧
      Parser.parse (tokenize (insertText (str "t") [])) =
        .error (.invalidArgument "Se esperaba un literal") :=
  ⟨.nil, .nil, by decide +kernel⟩

end QueryExecutor

end MiniDbms
