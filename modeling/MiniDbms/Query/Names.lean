import MiniDbms.Catalog.IndexLookups
import MiniDbms.Query.ParserPhrases
import MiniDbms.Query.StatementRuns
import MiniDbms.Query.TokenText

/-!
# The names in a parsed statement

Every identifier that the tokenizer reads is a word of letters, digits and underscores
(`isWord_of_identifier`). So a statement that the parser accepts has proper names for its new tables
and indexes (`named_of_parse`).
-/

namespace MiniDbms

open Text

namespace Tokenizer

variable {token : Token} {tokens : List Token} {text : Bytes}

/-- One turn of the loop reads an identifier only from a word. -/
def ReadsWord (r : Token × Bytes) : Prop := r.1.type = .identifier → IsWord r.1.text

theorem readToken_readsWord (c : UInt8) (rest : Bytes) : ReadsWord (readToken c rest) := by
  have hother : ∀ r : Token × Bytes, r.1.type ≠ .identifier → ReadsWord r :=
    fun r hr heq => absurd heq hr
  have hequal : ∀ plain equal : Token, plain.type ≠ .identifier → equal.type ≠ .identifier →
      ReadsWord (withEqual rest plain equal) := by
    intro plain equal hp he
    apply hother
    unfold withEqual
    split
    · exact he
    · exact hp
  unfold readToken
  refine iteInduction (fun _ => hother _ nofun) fun _ => ?_
  refine iteInduction (fun _ => hother _ nofun) fun _ => ?_
  refine iteInduction (fun _ => hother _ nofun) fun _ => ?_
  refine iteInduction (fun _ => hequal _ _ nofun nofun) fun _ => ?_
  refine iteInduction (fun _ => hequal _ _ nofun nofun) fun _ => ?_
  refine iteInduction (fun _ => hother _ nofun) fun _ => ?_
  refine iteInduction (fun _ => hother _ nofun) fun _ => ?_
  refine iteInduction (fun _ => hother _ nofun) fun _ => ?_
  refine iteInduction (fun _ => ?_) fun _ => ?_
  · cases readQuoted c rest with
    | none => exact hother _ nofun
    | some r => exact hother _ nofun
  refine iteInduction (fun hc _ => ⟨hc, fun d hd => List.mem_takeWhile_imp hd⟩) fun _ => ?_
  exact iteInduction (fun _ => hother _ nofun) fun _ => hother _ nofun

theorem scans_words {unread : Bytes} (h : Scans text tokens unread) :
    ∀ token ∈ tokens, token.type = .identifier → IsWord token.text := by
  induction h with
  | finished => exact nofun
  | @invalid text tail rest c token hnext hread htype =>
    intro t ht hidentifier
    rw [List.mem_singleton.mp ht, htype] at hidentifier
    cases hidentifier
  | @token text tail rest unread c token tokens hnext hread htype _ ih =>
    intro t ht
    rcases List.mem_cons.mp ht with rfl | ht
    · have hword := readToken_readsWord c tail
      rw [hread] at hword
      exact hword
    · exact ih t ht

/-- Every identifier in a text is a word. -/
theorem isWord_of_identifier {name : Bytes} (hin : ⟨.identifier, name⟩ ∈ tokenize text) :
    IsWord name := by
  obtain ⟨tokens, unread, htokens, hscans, -⟩ := tokenize_spec.2 text
  rw [htokens] at hin
  rcases List.mem_append.mp hin with hin | hin
  · exact scans_words hscans _ hin rfl
  · cases List.mem_singleton.mp hin

theorem ends_tokenize (text : Bytes) : Parser.EndsOnce (tokenize text) := by
  obtain ⟨tokens, unread, htokens, -, hends, -⟩ := tokenize_spec.2 text
  exact ⟨tokens, [], htokens, hends⟩

theorem IsWord.ne_nil (h : IsWord text) : text ≠ [] := by
  rintro rfl
  exact h

theorem IsWord.undotted (h : IsWord text) : 46 ∉ text := by
  cases text with
  | nil => exact nofun
  | cons c rest =>
    obtain ⟨hc, hrest⟩ := h
    intro hin
    rcases List.mem_cons.mp hin with rfl | hin
    · rcases hc with hc | hc
      · cases hc
      · cases hc
    · have hword := hrest 46 hin
      cases hword

end Tokenizer

open Tokenizer Grammar

/-- The parser makes statements with proper names. -/
theorem named_of_parse {text : Bytes} {statement : SQLStatement}
    (h : Parser.parse (tokenize text) = .ok statement) : statement.Named := by
  obtain ⟨-, hsentence⟩ := (Parser.parse_ok_iff (ends_tokenize text) statement).mp h
  have hword : ∀ name : Bytes, ⟨.identifier, name⟩ ∈ tokenize text → IsWord name :=
    fun name => isWord_of_identifier
  generalize htokens : tokenize text = tokens at hsentence hword
  cases hsentence with
  | intro hbody _ =>
    cases hbody with
    | select hselect =>
      cases hselect
      trivial
    | explain hselect =>
      cases hselect
      trivial
    | insert => trivial
    | update => trivial
    | delete => trivial
    | createTable =>
      apply IsWord.undotted
      apply hword
      simp
    | createIndex =>
      refine IsWord.ne_nil ?_
      apply hword
      simp

/-- The columns of a WHERE clause are identifiers. -/
theorem column_mem_of_where {front : List Token} {conditions : List Condition}
    (h : Where front conditions) :
    ∀ condition ∈ conditions, (⟨.identifier, condition.column⟩ : Token) ∈ front := by
  cases h with
  | absent => exact List.forall_mem_nil _
  | present h =>
    intro condition hin
    refine List.mem_cons_of_mem _ (h.mem (f := fun condition => ⟨.identifier, condition.column⟩)
      (fun front condition hcond => ?_) condition hin)
    cases hcond
    exact List.mem_cons_self

/-- Neither the table of a parsed UPDATE or DELETE nor a column of its WHERE clause has a `.` in its
name. -/
theorem undotted_of_parse {text : Bytes} {m : Mutation}
    (h : Parser.parse (tokenize text) = .ok m.statement) :
    ∀ condition ∈ m.conditions, CatalogManager.Undotted m.tableName condition.column := by
  obtain ⟨-, hsentence⟩ := (Parser.parse_ok_iff (ends_tokenize text) m.statement).mp h
  have hword : ∀ name : Bytes, ⟨.identifier, name⟩ ∈ tokenize text → 46 ∉ name :=
    fun name hin => (isWord_of_identifier hin).undotted
  generalize htokens : tokenize text = tokens at hsentence hword
  cases m with
  | update s =>
    cases hsentence with
    | intro hbody _ =>
      generalize hstatement : (Mutation.update s).statement = statement at hbody
      cases hbody with
      | update hvalue hwhere =>
        cases hstatement
        refine fun condition hin => ⟨hword _ (by simp [Mutation.tableName]), hword _ ?_⟩
        have hcolumn := column_mem_of_where hwhere condition hin
        simp [hcolumn]
      | select hselect =>
        cases hselect
        cases hstatement
      | explain hselect =>
        cases hselect
        cases hstatement
      | insert | delete | createTable | createIndex => cases hstatement
  | delete s =>
    cases hsentence with
    | intro hbody _ =>
      generalize hstatement : (Mutation.delete s).statement = statement at hbody
      cases hbody with
      | delete hwhere =>
        cases hstatement
        refine fun condition hin => ⟨hword _ (by simp [Mutation.tableName]), hword _ ?_⟩
        have hcolumn := column_mem_of_where hwhere condition hin
        simp [hcolumn]
      | select hselect =>
        cases hselect
        cases hstatement
      | explain hselect =>
        cases hselect
        cases hstatement
      | insert | update | createTable | createIndex => cases hstatement

end MiniDbms
