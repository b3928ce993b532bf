import TrafficQuery.Compile.Query
import TrafficQuery.Proofs.Compile.Truth
import TrafficQuery.Proofs.Query.Acceptance
import TrafficQuery.Proofs.Token.Scan

/-!
# The marks of a parsed condition

A test is marked with the byte where it starts, so no two tests of a query have the same mark, and each
has a header table of its own.
-/

namespace TrafficQuery
open Text Grammar Sql

/-! ## Marks are starts -/

/-- The marks of the header tables of a condition, from left to right. -/
def Condition.marks (c : Condition) : List Nat := (c.tests.filterMap Test.join?).map HeaderJoin.mark

theorem foldl_join {f : Array HeaderJoin → Test → Array HeaderJoin}
    (hf : ∀ js t, (f js t).toList = js.toList ++ t.join?.toList) (ts : List Test)
    (js : Array HeaderJoin) : (ts.foldl f js).toList = js.toList ++ ts.filterMap Test.join? := by
  induction ts generalizing js with
  | nil => exact (List.append_nil _).symm
  | cons t ts ih =>
    rw [List.foldl_cons, ih, hf, List.append_assoc]
    cases h : t.join? <;> simp [h]

theorem Condition.toList_addJoins (c : Condition) (js : Array HeaderJoin) :
    (c.addJoins js).toList = js.toList ++ c.tests.filterMap Test.join? := by
  rw [addJoins, foldTests_eq]
  apply foldl_join
  intro js t
  cases t.join? <;> simp

theorem Condition.joins_eq (c : Condition) : c.joins = c.tests.filterMap Test.join? :=
  c.toList_addJoins #[]

@[simp] theorem Condition.marks_binary (op : Connective) (l r : Condition) :
    (Condition.binary op l r).marks = l.marks ++ r.marks := by
  simp [marks, tests]

namespace Grammar
variable {ts : List Token}

theorem Names.mark_mem {field : Field} {mark : Nat} (h : Names field mark ts) :
    mark ∈ ts.map Token.start := by
  cases h <;> exact List.mem_cons_self

theorem Form.mark_eq {field : Field} {mark : Nat} {test : Test} {j : HeaderJoin}
    (h : Form field mark ts test) (hj : test.join? = some j) : j.mark = mark := by
  cases h <;> cases hj <;> rfl

theorem Form.id_eq {field : Field} {mark : Nat} {test : Test} {op : OrderOp} {value : String}
    (h : Form field mark ts test) (ht : test = .id op value) : op = .eq := by
  cases h <;> cases ht
  rfl

theorem IsField.marks_sublist {test : Test} (h : IsField ts test) :
    (Condition.test test).marks.Sublist (ts.map Token.start) := by
  obtain ⟨field, mark, us, vs, rfl, hnames, hform⟩ := h
  cases hj : test.join? with
  | none => simp [Condition.marks, Condition.tests, hj]
  | some j =>
    have hmark : (Condition.test test).marks = [mark] := by
      simp [Condition.marks, Condition.tests, hj, hform.mark_eq hj]
    rw [hmark, List.singleton_sublist, List.map_append, List.mem_append]
    exact .inl hnames.mark_mem

theorem Derives.marks_sublist {phrase : Phrase} {c : Condition} {depth : Nat}
    (h : Derives phrase ts c depth) : c.marks.Sublist (ts.map Token.start) := by
  induction h with
  | field hf => exact hf.marks_sublist
  | negated _ _ ih => exact ih.cons _
  | group _ _ _ ih =>
    rw [List.map_cons, List.map_append]
    exact (ih.trans (List.sublist_append_left _ _)).cons _
  | last _ ih => exact ih
  | link _ _ _ ihc ihrest =>
    rw [Condition.marks_binary, List.map_append, List.map_cons]
    exact ihc.append (ihrest.cons _)

theorem Derives.comparesIds {phrase : Phrase} {c : Condition} {depth : Nat}
    (h : Derives phrase ts c depth) : c.ComparesIds := by
  induction h with
  | field hf =>
    obtain ⟨field, mark, us, vs, -, -, hform⟩ := hf
    intro op value hmem
    exact hform.id_eq (List.mem_singleton.mp hmem).symm
  | negated _ _ ih => exact ih
  | group _ _ _ ih => exact ih
  | last _ ih => exact ih
  | link _ _ _ ihc ihrest => exact Condition.comparesIds_binary_iff.mpr ⟨ihc, ihrest⟩

end Grammar

variable {source : String} {q : Query}

theorem marks_nodup_of_parse (h : parse source = .ok q) : q.root.marks.Nodup := by
  obtain ⟨-, depth, -, k, r, w, us, hts, -, -, -, hus⟩ := exists_isQuery_of_parse h
  have hstarts := scan_starts_nodup source
  have hrest : (us.map Token.start).Sublist ((scan source).tokens.map Token.start) := by
    rw [hts]
    exact ((List.Sublist.refl _).cons _ |>.cons _ |>.cons _)
  exact (hus.marks_sublist.trans hrest).nodup hstarts

/-- The marks of a query are places where tokens start. -/
theorem exists_start_of_mem_marks (h : parse source = .ok q) :
    ∀ m ∈ q.root.marks, ∃ t ∈ (scan source).tokens, t.start = m := by
  obtain ⟨-, depth, -, k, r, w, us, hts, -, -, -, hus⟩ := exists_isQuery_of_parse h
  intro m hm
  obtain ⟨t, ht, hstart⟩ := List.mem_map.mp (hus.marks_sublist.subset hm)
  refine ⟨t, ?_, hstart⟩
  rw [hts]
  exact List.mem_cons_of_mem _ (List.mem_cons_of_mem _ (List.mem_cons_of_mem _ ht))

theorem comparesIds_of_parse (h : parse source = .ok q) : q.root.ComparesIds := by
  obtain ⟨-, depth, -, k, r, w, us, -, -, -, -, hus⟩ := exists_isQuery_of_parse h
  exact hus.comparesIds

end TrafficQuery
