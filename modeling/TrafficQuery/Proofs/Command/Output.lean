import TrafficQuery.Proofs.Command.Dialogue
import TrafficQuery.Proofs.Compile.Values
import TrafficQuery.Proofs.Json.Unambiguous
import TrafficQuery.Proofs.Json.Writing

/-!
# The document of a statement

In document mode the program prints one document, and that says the statement exactly.
-/

namespace TrafficQuery
open Sql (Value Statement)

/-- A statement binds texts and numbers only. -/
theorem Query.value_of_compile {s : Settings} {query : Query} {statement : Statement}
    (h : query.compile s = .ok statement) {v : Value} (hv : v ∈ statement.values) :
    (∃ text, v = .string text) ∨ ∃ n, v = .bigInt n := by
  rw [Query.values_of_compile h, Condition.values] at hv
  obtain ⟨t, -, hv⟩ := List.mem_flatMap.mp hv
  cases t with
  | status op value => exact .inr ⟨_, List.mem_singleton.mp hv⟩
  | header side mark name wanted =>
    cases wanted with
    | present => exact .inl ⟨_, List.mem_singleton.mp hv⟩
    | value op text =>
      rcases List.mem_pair.mp hv with rfl | rfl
      · exact .inl ⟨_, rfl⟩
      · exact .inl ⟨_, rfl⟩
  | raw side mark text => cases side <;> exact .inl ⟨_, (List.mem_replicate.mp hv).2⟩
  | timestamp op ago => cases hv
  | _ => exact .inl ⟨_, List.mem_singleton.mp hv⟩

theorem exists_compile_of_compileText {s : Settings} {source : String} {statement : Statement}
    (h : compileText s source = .ok statement) :
    ∃ query, parse source = .ok query ∧ query.compile s = .ok statement := by
  cases hparse : parse source with
  | error e => simp [compileText, hparse] at h
  | ok query =>
    refine ⟨query, rfl, ?_⟩
    cases hcompile : query.compile s with
    | error e => simp [compileText, hparse, hcompile] at h
    | ok statement' => simpa [compileText, hparse, hcompile] using h

namespace Command
open Json

/-! ## Values -/

/-- What stands for a value in a document: for a text a text of the same characters, and for a number a
number of the same value. -/
inductive Encodes : Value → Tree → Prop
  | string {text : String} {ps : TextParts} : ps.text? = some text.toList →
      Encodes (.string text) (.text ps)
  | bigInt {n : Int} {m : Numeral} : m.value = n → Encodes (.bigInt n) (.number m)

/-- What stands for a statement in a document: its text and its values, in the order of their
placeholders. -/
inductive EncodesStatement (s : Statement) : Tree → Prop
  | object {textKey text valuesKey : TextParts} {values : List Tree} :
      textKey.text? = some "sql".toList → text.text? = some s.text.toList →
      valuesKey.text? = some "params".toList → List.Forall₂ Encodes s.values values →
      EncodesStatement s (.object [(textKey, .text text), (valuesKey, .list values)])

/-- A value that is bound is printed as what stands for it. -/
theorem exists_encodes {v : Value} (h : (∃ text, v = .string text) ∨ ∃ n, v = .bigInt n) :
    ∃ w, Encodes v w ∧ LaysOut v.toDocument.toList w := by
  rcases h with ⟨text, rfl⟩ | ⟨n, rfl⟩
  · obtain ⟨ps, htext, hlayout⟩ := laysOut_quote text
    exact ⟨.text ps, .string htext, hlayout⟩
  · obtain ⟨m, hvalue, hlayout⟩ := laysOut_toString n
    exact ⟨.number m, .bigInt hvalue, hlayout⟩

/-- Values are printed as the items of a list. -/
theorem exists_forall₂_encodes {vs : List Value}
    (h : ∀ v ∈ vs, (∃ text, v = .string text) ∨ ∃ n, v = .bigInt n) : ∃ ws, List.Forall₂ Encodes vs ws ∧
      List.Forall₂ LaysOut (vs.map fun v => v.toDocument.toList) ws := by
  induction vs with
  | nil => exact ⟨[], .nil, .nil⟩
  | cons v vs ih =>
    obtain ⟨w, hencodes, hlayout⟩ := exists_encodes (h v List.mem_cons_self)
    obtain ⟨ws, hall, hlayouts⟩ := ih fun v hv => h v (List.mem_cons_of_mem _ hv)
    exact ⟨w :: ws, .cons hencodes hall, .cons hlayout hlayouts⟩

theorem laysOut_documentList {indent : String} (hindent : indent.toList.all isBlank = true)
    {items : List String} {vs : List Tree} (h : List.Forall₂ LaysOut (items.map String.toList) vs) :
    LaysOut (documentList indent items).toList (.list vs) := by
  cases items with
  | nil =>
    have hlist := laysOut_list [] [] rfl rfl h
    rw [List.map_nil, List.intercalate_nil] at hlist
    have hempty : documentList indent [] = "[]" := rfl
    have hchars : "[]".toList = ['[', ']'] := rfl
    rw [hempty, hchars]
    exact hlist
  | cons i items =>
    have hgap : (indent ++ "  ").toList.all isBlank = true := by
      rw [String.toList_append, List.all_append, hindent]
      rfl
    have hitems : List.Forall₂ LaysOut (((i :: items).map fun i => indent ++ "  " ++ i).map String.toList)
        vs := by
      rw [List.map_map, List.forall₂_map_left_iff]
      refine (List.forall₂_map_left_iff.mp h).imp fun i v hi => ?_
      rw [Function.comp_apply, String.toList_append]
      exact (laysOut_gap hgap).append hi
    have hlist := laysOut_list ['\n'] ('\n' :: indent.toList) rfl hindent hitems
    simp only [documentList, String.toList_append, String.toList_intercalate, List.append_assoc]
    exact hlist

/-- What is printed for a statement is a document of what stands for it. -/
theorem exists_writes_output {s : Statement}
    (h : ∀ v ∈ s.values, (∃ text, v = .string text) ∨ ∃ n, v = .bigInt n) :
    ∃ v : Tree, v.Writes (output s .document) ∧ EncodesStatement s v := by
  obtain ⟨vs, hencodes, hlayouts⟩ := exists_forall₂_encodes h
  obtain ⟨text, htext, htextLayout⟩ := laysOut_quote s.text
  have hvalues : LaysOut (documentList "  " (s.values.map Value.toDocument)).toList (.list vs) := by
    apply laysOut_documentList (by decide)
    rwa [List.map_map]
  obtain ⟨textKey, htextKey, htextMember⟩ := laysOut_member [' '] "sql" rfl htextLayout
  obtain ⟨valuesKey, hvaluesKey, hvaluesMember⟩ := laysOut_member [' '] "params" rfl hvalues
  have hobject := laysOut_object "\n  ".toList ['\n'] (by decide) rfl
    (.cons htextMember (.cons hvaluesMember .nil))
  refine ⟨_, ?_, .object htextKey htext hvaluesKey hencodes⟩
  apply hobject.writes ['\n'] rfl
  simp only [output, line, String.toList_append, List.append_assoc, List.intercalate_cons_cons,
    List.intercalate_singleton]
  rfl

/-! ## Commands -/

/-- For a query that has a statement, the program in document mode prints a text that is the document of
one value, and that value stands for the statement. -/
theorem run_prints_statement {path : Option String} {file : FileState} {s : Settings}
    {words : List String} {statement : Statement}
    (hs : (inMode .document path words).settings file = .ok s)
    (h : compileText s (" ".intercalate words) = .ok statement) (input : String) :
    ∃ printed v, (inMode .document path words).run file input = ⟨0, printed, ""⟩ ∧
      (∀ w : Tree, w.Writes printed ↔ w = v) ∧ EncodesStatement statement v := by
  obtain ⟨query, hquery, hcompile⟩ := exists_compile_of_compileText h
  obtain ⟨v, hwrites, hencodes⟩ := exists_writes_output fun _ => Query.value_of_compile hcompile
  have hwords : words ≠ [] := by
    rintro rfl
    cases hquery.symm.trans parse_nothing
  refine ⟨output statement .document, v, ?_, fun w => ⟨fun hw => hw.eq hwrites, ?_⟩, hencodes⟩
  · have hinteractive : (inMode .document path words).isInteractive = false :=
      List.isEmpty_eq_false_iff.mpr hwords
    have hrequest : (inMode .document path words).request = (.document, words) := rfl
    unfold Invocation.run Invocation.runOn
    simp only [hs, hinteractive, hrequest, h]
    rfl
  · rintro rfl
    exact hwrites

/-- A query with a quote, a backslash and a line feed in a text, and a number. -/
def sampleWords : List String :=
  ["query requests", "where path = '\\\"\n' and response.status = 200"]

def sampleStatement : Statement :=
  ⟨.rows, {}, [], .binary .and
    (.compare .eq (.column .request .url) (.bound (.string "\\\"\n")))
    (.compare .eq (.column .response .statusCode) (.bound (.bigInt 200)))⟩

theorem run_prints_statement_sample :
    (inMode .document none sampleWords).settings .missing = .ok {} ∧
      compileText {} (" ".intercalate sampleWords) = .ok sampleStatement ∧
      ∃ printed v, (inMode .document none sampleWords).run .missing "" = ⟨0, printed, ""⟩ ∧
        (∀ w : Tree, w.Writes printed ↔ w = v) ∧ EncodesStatement sampleStatement v := by
  have h : compileText {} (" ".intercalate sampleWords) = .ok sampleStatement := by decide +kernel
  exact ⟨rfl, h, run_prints_statement rfl h ""⟩

end Command
end TrafficQuery
