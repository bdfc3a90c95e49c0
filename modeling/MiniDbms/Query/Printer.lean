import MiniDbms.Common.Numerals
import MiniDbms.Query.ParserPhrases

/-!
# Statements as tokens

Every statement that the parser can return is written as tokens, and parsing these returns it.
-/

namespace MiniDbms

open Lib Grammar

/-! ## Printing -/

namespace Printer

def literal : SQLLiteral → List Token
  | ⟨.number, text⟩ => [⟨.number, text⟩]
  | ⟨.string, text⟩ => [⟨.stringLiteral, text⟩]
  | ⟨.identifier, text⟩ => [⟨.identifier, text⟩]
  | ⟨.nullValue, _⟩ => [⟨.keywordNull, str "NULL"⟩]

/-- The operators with their tokens. -/
def operators : List (Bytes × TokenType) :=
  [(str "=", .equal), (str ">=", .greaterEqual), (str "<=", .lessEqual), (str ">", .greater),
    (str "<", .less)]

def operator (op : Bytes) : List Token := [⟨(operators.lookup op).getD .invalid, op⟩]

def identifier (name : Bytes) : List Token := [⟨.identifier, name⟩]

def condition (condition : Condition) : List Token :=
  ⟨.identifier, condition.column⟩ :: (operator condition.op ++ literal condition.value)

def items {α : Type} (item : α → List Token) (separator : Token) : List α → List Token
  | [] => []
  | [a] => item a
  | a :: b :: as => item a ++ separator :: items item separator (b :: as)

def comma : Token := ⟨.comma, str ","⟩

def conditions : List Condition → List Token
  | [] => []
  | c :: cs => ⟨.keywordWhere, str "WHERE"⟩ :: items condition ⟨.keywordAnd, str "AND"⟩ (c :: cs)

def fields (fields : List Bytes) : List Token :=
  if fields = [str "*"] then [⟨.asterisk, str "*"⟩] else items identifier comma fields

def column (column : ColumnDefinition) : List Token :=
  ⟨.identifier, column.name⟩ :: ⟨.identifier, column.typeName⟩ ::
    if column.length = 0 then []
    else [⟨.lparen, str "("⟩, ⟨.number, Text.showNat column.length.toNat⟩, ⟨.rparen, str ")"⟩]

def select (statement : SelectStatement) : List Token :=
  ⟨.keywordSelect, str "SELECT"⟩ :: (fields statement.fields ++ ⟨.keywordFrom, str "FROM"⟩ ::
    ⟨.identifier, statement.tableName⟩ :: conditions statement.conditions)

def body : SQLStatement → List Token
  | .select statement =>
    if statement.isExplain then
      ⟨.keywordExplain, str "EXPLAIN"⟩ :: ⟨.keywordAnalyze, str "ANALYZE"⟩ :: select statement
    else select statement
  | .insert statement =>
    ⟨.keywordInsert, str "INSERT"⟩ :: ⟨.keywordInto, str "INTO"⟩ ::
      ⟨.identifier, statement.tableName⟩ ::
      ⟨.keywordValues, str "VALUES"⟩ :: ⟨.lparen, str "("⟩ ::
      (items literal comma statement.values ++ [⟨.rparen, str ")"⟩])
  | .update statement =>
    ⟨.keywordUpdate, str "UPDATE"⟩ :: ⟨.identifier, statement.tableName⟩ ::
      ⟨.keywordSet, str "SET"⟩ ::
      ⟨.identifier, statement.columnName⟩ :: ⟨.equal, str "="⟩ ::
      (literal statement.newValue ++ conditions statement.conditions)
  | .delete statement =>
    ⟨.keywordDelete, str "DELETE"⟩ :: ⟨.keywordFrom, str "FROM"⟩ ::
      ⟨.identifier, statement.tableName⟩ ::
      conditions statement.conditions
  | .createTable statement =>
    ⟨.keywordCreate, str "CREATE"⟩ :: ⟨.keywordTable, str "TABLE"⟩ ::
      ⟨.identifier, statement.tableName⟩ ::
      ⟨.lparen, str "("⟩ :: (items column comma statement.columns ++ [⟨.rparen, str ")"⟩])
  | .createIndex statement =>
    [⟨.keywordCreate, str "CREATE"⟩, ⟨.keywordIndex, str "INDEX"⟩,
      ⟨.identifier, statement.indexName⟩,
      ⟨.keywordOn, str "ON"⟩, ⟨.identifier, statement.tableName⟩, ⟨.lparen, str "("⟩,
      ⟨.identifier, statement.columnName⟩, ⟨.rparen, str ")"⟩]

/-- The tokens of a statement. -/
def print (statement : SQLStatement) : List Token := body statement ++ [⟨.endOfFile, []⟩]

end Printer

/-! ## Well-formed statements -/

/-- NULL has no text. -/
def SQLLiteral.WellFormed (literal : SQLLiteral) : Prop :=
  literal.kind = .nullValue → literal.text = []

def Condition.WellFormed (condition : Condition) : Prop :=
  condition.op ∈ Printer.operators.map Prod.fst ∧ condition.value.WellFormed

/-- The statements that the parser can return: lists that must not be empty are not. -/
def SQLStatement.WellFormed : SQLStatement → Prop
  | .select statement => statement.fields ≠ [] ∧ ∀ c ∈ statement.conditions, c.WellFormed
  | .insert statement => statement.values ≠ [] ∧ ∀ v ∈ statement.values, v.WellFormed
  | .update statement => statement.newValue.WellFormed ∧ ∀ c ∈ statement.conditions, c.WellFormed
  | .delete statement => ∀ c ∈ statement.conditions, c.WellFormed
  | .createTable statement => statement.columns ≠ []
  | .createIndex _ => True

namespace Printer

variable {α : Type} {phrase : List Token → α → Prop} {item : α → List Token}

theorem literal_phrase {l : SQLLiteral} (h : l.WellFormed) : Literal (literal l) l := by
  obtain ⟨kind, text⟩ := l
  cases kind with
  | number => exact .number text
  | string => exact .string text
  | identifier => exact .identifier text
  | nullValue =>
    have htext : text = [] := h rfl
    rw [htext]
    exact .null _

theorem wellFormed_of_literal {front : List Token} {l : SQLLiteral} (h : Literal front l) :
    l.WellFormed := by
  cases h with
  | null => exact fun _ => rfl
  | number | string | identifier => exact nofun

theorem operator_phrase {op : Bytes} (h : op ∈ operators.map Prod.fst) :
    Operator (operator op) op := by
  simp only [operators, List.map_cons, List.map_nil, List.mem_cons, List.not_mem_nil, or_false] at h
  rcases h with rfl | rfl | rfl | rfl | rfl
  · exact .equal _
  · exact .greaterEqual _
  · exact .lessEqual _
  · exact .greater _
  · exact .less _

theorem condition_phrase {c : Condition} (h : c.WellFormed) : Cond (condition c) c :=
  .intro (operator_phrase h.1) (literal_phrase h.2)

theorem wellFormed_of_cond {front : List Token} {c : Condition} (h : Cond front c) :
    c.WellFormed := by
  obtain ⟨hop, hvalue⟩ := h
  refine ⟨?_, wellFormed_of_literal hvalue⟩
  cases hop <;> simp [operators]

theorem items_phrase (separator : Token) {as : List α} (hne : as ≠ [])
    (h : ∀ a ∈ as, phrase (item a) a) :
    Items phrase separator.type (items item separator as) as := by
  induction as with
  | nil => exact absurd rfl hne
  | cons a as ih =>
    cases as with
    | nil => exact .one (h a List.mem_cons_self)
    | cons b as =>
      exact .more (h a List.mem_cons_self) rfl
        (ih (List.cons_ne_nil b as) fun x hx => h x (List.mem_cons_of_mem a hx))

theorem forall_of_items (P : α → Prop) {separator : TokenType} {front : List Token} {as : List α}
    (hphrase : ∀ front a, phrase front a → P a) (h : Items phrase separator front as) :
    as ≠ [] ∧ ∀ a ∈ as, P a := by
  induction h with
  | one h => exact ⟨nofun, fun a ha => List.mem_singleton.mp ha ▸ hphrase _ _ h⟩
  | more h _ _ ih => exact ⟨nofun, List.forall_mem_cons.mpr ⟨hphrase _ _ h, ih.2⟩⟩

theorem conditions_phrase {cs : List Condition} (h : ∀ c ∈ cs, c.WellFormed) :
    Where (conditions cs) cs := by
  cases cs with
  | nil => exact .absent
  | cons c cs =>
    exact .present (items_phrase ⟨.keywordAnd, str "AND"⟩ (List.cons_ne_nil c cs) fun x hx =>
      condition_phrase (h x hx))

theorem wellFormed_of_where {front : List Token} {cs : List Condition} (h : Where front cs) :
    ∀ c ∈ cs, c.WellFormed := by
  cases h with
  | absent => exact nofun
  | present h => exact (forall_of_items Condition.WellFormed (fun _ _ => wellFormed_of_cond) h).2

theorem fields_phrase {names : List Bytes} (hne : names ≠ []) : Fields (fields names) names := by
  unfold fields
  split
  · rename_i hall
    rw [hall]
    exact .all _
  · exact .columns (items_phrase comma hne fun _ _ => rfl)

theorem fields_ne_nil {front : List Token} {names : List Bytes} (h : Fields front names) :
    names ≠ [] := by
  cases h with
  | all => nofun
  | columns h => exact (forall_of_items (fun _ => True) (fun _ _ _ => trivial) h).1

theorem column_phrase (c : ColumnDefinition) : Col (column c) c := by
  refine .intro ?_
  split
  · rename_i hzero
    rw [hzero]
    exact .absent
  · rename_i hne
    have hpos : 0 < c.length.toNat := Nat.pos_of_ne_zero fun h => hne (UInt32.toNat_inj.mp h)
    have hlt := c.length.toNat_lt
    have hread := Text.stoul_numeral false (Text.showNat_ne_nil c.length.toNat)
      (Text.isDigit_showNat c.length.toNat)
    rw [Text.decimal_showNat, if_neg (by omega), if_neg Bool.false_ne_true] at hread
    have hphrase : Grammar.Length _ (UInt32.ofNat c.length.toNat) :=
      @Grammar.Length.present (str "(") (str ")") _ c.length.toNat hread hpos (by omega)
    rwa [UInt32.ofNat_toNat] at hphrase

theorem select_phrase {s : SelectStatement} (h : (SQLStatement.select s).WellFormed) :
    Select s.isExplain (select s) (.select s) :=
  .intro (fields_phrase h.1) (conditions_phrase h.2)

theorem body_phrase {s : SQLStatement} (h : s.WellFormed) : Body (body s) s := by
  cases s with
  | select s =>
    obtain ⟨table, names, cs, isExplain⟩ := s
    cases isExplain with
    | true => exact .explain (select_phrase h)
    | false => exact .select (select_phrase h)
  | insert s => exact .insert (items_phrase comma h.1 fun v hv => literal_phrase (h.2 v hv))
  | update s => exact .update (literal_phrase h.1) (conditions_phrase h.2)
  | delete s => exact .delete (conditions_phrase h)
  | createTable s => exact .createTable (items_phrase comma h fun c _ => column_phrase c)
  | createIndex s => exact .createIndex

theorem wellFormed_of_select {isExplain : Bool} {front : List Token} {s : SQLStatement}
    (h : Select isExplain front s) : s.WellFormed := by
  obtain ⟨hfields, hwhere⟩ := h
  exact ⟨fields_ne_nil hfields, wellFormed_of_where hwhere⟩

theorem wellFormed_of_body {front : List Token} {s : SQLStatement} (h : Body front s) :
    s.WellFormed := by
  cases h with
  | select h => exact wellFormed_of_select h
  | explain h => exact wellFormed_of_select h
  | insert h => exact forall_of_items SQLLiteral.WellFormed (fun _ _ => wellFormed_of_literal) h
  | update hvalue hwhere => exact ⟨wellFormed_of_literal hvalue, wellFormed_of_where hwhere⟩
  | delete hwhere => exact wellFormed_of_where hwhere
  | createTable h => exact (forall_of_items (fun _ => True) (fun _ _ _ => trivial) h).1
  | createIndex => exact trivial

theorem print_sentence {s : SQLStatement} (h : s.WellFormed) : Sentence (print s) s :=
  .intro (body_phrase h) .absent

/-- Well-formed are the statements that are denoted by a sentence. -/
theorem wellFormed_iff {s : SQLStatement} : s.WellFormed ↔ ∃ tokens, Sentence tokens s := by
  constructor
  · exact fun h => ⟨print s, print_sentence h⟩
  · intro ⟨tokens, h⟩
    cases h with
    | intro hbody => exact wellFormed_of_body hbody

end Printer

namespace Parser

/-- `Parse` accepts exactly the sentences of the grammar and stores what they denote, whatever was
in its output before. It reads back what was printed, and leaves no statement behind after an
error. -/
theorem parse_spec :
    (∀ tokens, EndsOnce tokens → ∀ output output', parseInto tokens output = (.ok (), output') ↔
      (∀ token ∈ tokens, token.type ≠ .invalid) ∧ ∃ s, output' = some s ∧ Sentence tokens s) ∧
      (∀ s : SQLStatement, (s.WellFormed ↔ ∃ tokens, Sentence tokens s) ∧
        (s.WellFormed → EndsOnce (Printer.print s) ∧
          ∀ output, parseInto (Printer.print s) output = (.ok (), some s))) ∧
      ∀ tokens output e, (parseInto tokens output).1 = .error e →
        (parseInto tokens output).2 = none := by
  refine ⟨fun tokens hends => parseInto_ok_iff hends,
    fun s => ⟨Printer.wellFormed_iff, fun h => ?_⟩, fun tokens output e => parseInto_error⟩
  have hsentence := Printer.print_sentence h
  obtain ⟨hends, hvalid⟩ := ends_of_sentence hsentence
  exact ⟨hends, fun output => (parseInto_ok_iff hends output _).mpr ⟨hvalid, s, rfl, hsentence⟩⟩

/-- A printed UPDATE is read back; cut off before the literal, it leaves nothing of what was
stored. -/
theorem parse_update :
    let update := SQLStatement.update ⟨str "t", str "a", ⟨.number, str "7"⟩,
      [⟨str "b", str "=", ⟨.string, str "x"⟩⟩]⟩
    parseInto (Printer.print update) none = (.ok (), some update) ∧
      (∃ s, some update = some s ∧ Sentence (Printer.print update) s) ∧
      (parseInto ((Printer.print update).take 5) (some update)).2 = none := by
  intro update
  have hwell : update.WellFormed := by
    simp [update, SQLStatement.WellFormed, Condition.WellFormed, SQLLiteral.WellFormed,
      Printer.operators]
  obtain ⟨hends, hprint⟩ := (parse_spec.2.1 update).2 hwell
  have hcut : (parseInto ((Printer.print update).take 5) (some update)).1 =
      .error (.invalidArgument "Se esperaba un literal") := by
    decide +kernel
  exact ⟨hprint none, ((parse_spec.1 _ hends none _).mp (hprint none)).2, parse_spec.2.2 _ _ _ hcut⟩

end Parser

end MiniDbms
