import TrafficQuery.Proofs.Sql.Layout
import TrafficQuery.Sql.Statement

/-!
# Reading the filter off a statement

The text of a statement, cut into pieces, is read behind its `WHERE` as the tree of its filter, and as
no other tree.
-/

namespace TrafficQuery.Sql

/-! ## The clause of a text -/

def isWhere : Piece → Bool
  | .word s => Text.upper s == "WHERE"
  | _ => false

/-- What stands behind the first `WHERE`. -/
def behindWhere (ps : List Piece) : List Piece := (ps.dropWhile fun p => !isWhere p).tail

/-- The words that can follow a filter. -/
def followers : List String :=
  ["GROUP", "HAVING", "WINDOW", "UNION", "EXCEPT", "INTERSECT", "ORDER", "LIMIT"]

/-- A filter ends with its statement, or before a parenthesis or a word that can follow it. -/
def EndsFilter (ps : List Piece) : Prop :=
  ∀ p ∈ ps.head?, p = .sign ")" ∨ ∃ w ∈ followers, IsWord p w

/-- A text with its values is read as a statement with a filter. -/
def ReadsFilter (text : String) (values : List Value) (t : Tree) : Prop :=
  ∃ ps clause rest, lex text.toList values = some ps ∧
    behindWhere (solid ps) = clause ++ rest ∧ EndsFilter rest ∧ Reads (.chain .or) clause t

theorem ne_of_mem_followers {w : String} (hw : w ∈ followers) :
    w ≠ "OR" ∧ w ≠ "AND" ∧ ¬(w = "LIKE" ∨ w = "ESCAPE") := by
  revert w
  decide

theorem EndsFilter.stops {ps : List Piece} (h : EndsFilter ps) : Stops (.chain .or) ps := by
  intro p hp
  rcases h p hp with rfl | ⟨w, hw, hword⟩
  · exact stops_paren [] _ rfl
  · exact stops_isWord hword (ne_of_mem_followers hw) [] p rfl

/-! ## The pieces of a statement -/

theorem legible_source (s : Source) : Legible s.pieces :=
  (legible_between_iff (.word "AS") [.name s.table] [.name s.name.label]).mpr
    ⟨legible_singleton_iff.mpr rfl, by decide, legible_singleton_iff.mpr rfl⟩

/-- A joined table can follow anything. -/
theorem legible_append_join {ps : List Piece} (h : Legible ps) (j : Join) :
    Legible (ps ++ j.pieces) := by
  have htables : Legible (phrase ["INNER", "JOIN"] ++ .space :: j.source.pieces) :=
    (legible_append_cons_iff rfl _ _).mpr ⟨by decide, legible_source j.source⟩
  have hjoin := (legible_between_iff (.word "ON") _ j.on.pieces).mpr
    ⟨htables, by decide, legible_expr j.on⟩
  exact (legible_append_cons_iff (d := .space) rfl ps _).mpr ⟨h, hjoin⟩

theorem legible_append_joins {ps : List Piece} (h : Legible ps) (joins : List Join) :
    Legible (ps ++ joins.flatMap Join.pieces) := by
  induction joins generalizing ps with
  | nil => exact (List.append_nil ps).symm ▸ h
  | cons j js ih =>
    rw [List.flatMap_cons, ← List.append_assoc]
    exact ih (legible_append_join h j)

def lacksWhere (ps : List Piece) : Bool := ps.all fun p => !isWhere p

theorem lacksWhere_append (ps qs : List Piece) :
    lacksWhere (ps ++ qs) = (lacksWhere ps && lacksWhere qs) :=
  List.all_append

theorem holdsOfTests_not_isWhere : HoldsOfTests fun p => !isWhere p where
  word := by decide
  other p hp := by
    cases p with
    | word s => cases hp
    | _ => rfl

theorem lacksWhere_joins (joins : List Join) : lacksWhere (joins.flatMap Join.pieces) = true := by
  induction joins with
  | nil => rfl
  | cons j js ih =>
    have hfront : lacksWhere (.space :: phrase ["INNER", "JOIN"] ++ .space :: j.source.pieces ++
        between (.word "ON")) = true := rfl
    have hon : lacksWhere j.on.pieces = true := holdsOfTests_not_isWhere.all_expr j.on
    rw [List.flatMap_cons, lacksWhere_append, ih, Join.pieces, lacksWhere_append, hfront, hon]
    rfl

theorem behindWhere_solid {front : List Piece} (h : lacksWhere front = true) (ps : List Piece) :
    behindWhere (solid (front ++ between (.word "WHERE") ++ ps)) = solid ps := by
  have hfront : ∀ p ∈ solid front, (!isWhere p) = true := by
    intro p hp
    exact List.all_eq_true.mp h p (List.mem_filter.mp hp).1
  rw [solid_between (by exact Piece.noConfusion), behindWhere, List.dropWhile_append_of_pos hfront]
  rfl

theorem HoldsOfTests.all_columnPieces {f : Piece → Bool} (hf : HoldsOfTests f) (q : Select) :
    q.columnPieces.all f = true := by
  have hseparator : List.all [.sign ",", .space] f = true := by
    simp [hf.other (.sign _) rfl, hf.other .space rfl]
  refine all_separated hseparator fun part hpart => ?_
  obtain ⟨c, -, rfl⟩ := List.mem_map.mp hpart
  exact hf.all_term _

namespace Select

theorem legible_columnPieces (q : Select) : Legible q.columnPieces := by
  refine legible_separated fun part hpart => ?_
  obtain ⟨c, -, rfl⟩ := List.mem_map.mp hpart
  exact legible_term _

/-- What stands before the test of a selection. -/
theorem exists_front (q : Select) : ∃ front,
    q.pieces = front ++ between (.word "WHERE") ++ q.filter.pieces ∧ Legible front ∧
      lacksWhere front = true := by
  refine ⟨_, rfl, ?_, ?_⟩
  · apply legible_append_joins
    apply (legible_between_iff _ _ _).mpr
    refine ⟨?_, by decide, legible_source q.source⟩
    apply (legible_append_cons_iff (d := .space) rfl _ _).mpr
    exact ⟨by decide, q.legible_columnPieces⟩
  · simp only [lacksWhere_append, Bool.and_eq_true]
    have hcolumns : lacksWhere q.columnPieces = true := holdsOfTests_not_isWhere.all_columnPieces q
    exact ⟨⟨⟨⟨rfl, hcolumns⟩, rfl⟩, rfl⟩, lacksWhere_joins q.joins⟩

theorem legible_pieces (q : Select) : Legible q.pieces := by
  obtain ⟨front, hpieces, hlegible, -⟩ := q.exists_front
  rw [hpieces]
  exact (legible_between_iff _ _ _).mpr ⟨hlegible, by decide, legible_expr q.filter⟩

end Select

namespace Retrieval

theorem legible_pieces (r : Retrieval) : Legible r.pieces := by
  cases r with
  | latest q time =>
    have hcolumn : Legible (phrase ["ORDER", "BY"] ++ .space :: (Term.column time.1 time.2).pieces) :=
      (legible_append_cons_iff (d := .space) rfl _ _).mpr ⟨by decide, legible_term _⟩
    have horder : Legible (phrase ["ORDER", "BY"] ++ .space :: (Term.column time.1 time.2).pieces ++
        [.space, .word "DESC"]) :=
      (legible_append_cons_iff (d := .space) rfl _ _).mpr ⟨hcolumn, by decide⟩
    exact (legible_append_cons_iff (d := .space) rfl q.pieces _).mpr ⟨q.legible_pieces, horder⟩
  | number q name =>
    apply (legible_between_iff _ _ _).mpr
    refine ⟨?_, by decide, legible_singleton_iff.mpr rfl⟩
    apply (legible_between_iff _ _ _).mpr
    exact ⟨by decide, by decide, (legible_parenthesized_iff _).mpr q.legible_pieces⟩

/-- The pieces around the test of a selection. -/
theorem exists_around (r : Retrieval) : ∃ front rest,
    r.pieces = front ++ between (.word "WHERE") ++ (r.results.filter.pieces ++ rest) ∧
      lacksWhere front = true ∧ EndsFilter (solid rest) := by
  cases r with
  | latest q time =>
    obtain ⟨front, hpieces, -, hlacks⟩ := q.exists_front
    refine ⟨front, orderPieces time, ?_, hlacks, ?_⟩
    · rw [pieces, hpieces, List.append_assoc]
      rfl
    · intro p hp
      cases hp
      exact .inr ⟨"ORDER", by decide, "ORDER", rfl, by decide⟩
  | number q name =>
    obtain ⟨front, hpieces, -, hlacks⟩ := q.exists_front
    let head : List Piece := .word "SELECT" :: .space :: .word "COUNT" :: parenthesized [.sign "*"]
    refine ⟨head ++ between (.word "FROM") ++ .sign "(" :: front,
      .sign ")" :: between (.word "AS") ++ [.name name], ?_, ?_, ?_⟩
    · change head ++ between (.word "FROM") ++ parenthesized q.pieces ++ between (.word "AS") ++
        [.name name] = _
      rw [hpieces]
      simp only [parenthesized, List.append_assoc, List.cons_append, List.nil_append]
      rfl
    · rw [lacksWhere_append]
      exact hlacks
    · intro p hp
      cases hp
      exact .inl rfl

end Retrieval

namespace Statement

theorem results_retrieval (s : Statement) : s.retrieval.results = s.select := by
  rcases s with ⟨_ | _, tables, joins, filter⟩ <;> rfl

/-- The pieces around the filter. -/
theorem exists_pieces (s : Statement) : ∃ front rest,
    s.pieces = front ++ between (.word "WHERE") ++ (s.filter.pieces ++ rest) ∧ Legible s.pieces ∧
      lacksWhere front = true ∧ EndsFilter (solid rest) := by
  obtain ⟨front, rest, hpieces, hlacks, hrest⟩ := s.retrieval.exists_around
  rw [s.results_retrieval] at hpieces
  exact ⟨front, rest, hpieces, s.retrieval.legible_pieces, hlacks, hrest⟩

end Statement

/-- The text of a statement is read as the tree of its filter, and as no other. -/
theorem readsFilter_text_iff (s : Statement) (t : Tree) :
    ReadsFilter s.text s.values t ↔ t = s.filter.tree := by
  obtain ⟨front, rest, hpieces, hlegible, hlacks, hrest⟩ := s.exists_pieces
  have hlex : lex s.text.toList s.values = some s.pieces := lex_textOf hlegible
  have hbehind : behindWhere (solid s.pieces) = solid s.filter.pieces ++ solid rest := by
    rw [hpieces, behindWhere_solid hlacks, solid_append]
  have hfilter : Reads (.chain .or) (solid s.filter.pieces) s.filter.tree :=
    (reads_expr s.filter).test_of_form
  constructor
  · rintro ⟨ps, clause, rest', hps, hclause, hrest', ht⟩
    rw [hlex] at hps
    obtain rfl := Option.some.inj hps
    rw [hbehind] at hclause
    exact (hfilter.settled ht hclause hrest.stops hrest'.stops).1.symm
  · rintro rfl
    exact ⟨_, _, _, hlex, hbehind, hrest, hfilter⟩

end TrafficQuery.Sql
