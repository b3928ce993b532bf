import TrafficQuery.Proofs.Sql.Database
import TrafficQuery.Proofs.Sql.WhereClause

/-!
# Reading a statement as a whole

The text of a statement, cut into pieces, is read as what the statement asks for, and as nothing else. So
what the text says has the answer of the statement on every database.
-/

namespace TrafficQuery.Sql

/-! ## The grammar of retrievals -/

/-- Columns with commas between them. -/
inductive ReadsColumns : List Piece → List (Alias × Column) → Prop
  | last {t : Alias} {c : Column} :
      ReadsColumns [.name t.label, .sign ".", .name c.label] [(t, c)]
  | more {t : Alias} {c : Column} {ps : List Piece} {cs : List (Alias × Column)} :
      ReadsColumns ps cs →
      ReadsColumns (.name t.label :: .sign "." :: .name c.label :: .sign "," :: ps) ((t, c) :: cs)

inductive ReadsSource : List Piece → Source → Prop
  | named {w : Piece} {table : String} {name : Alias} :
      IsWord w "AS" → ReadsSource [.name table, w, .name name.label] ⟨table, name⟩

/-- Tables with the tests that they are joined for. Each test is read as any test is. -/
inductive ReadsJoins : List Piece → List Join → Prop
  | nil : ReadsJoins [] []
  | cons {v w x : Piece} {ps qs rs : List Piece} {s : Source} {e : Expr} {js : List Join} :
      IsWord v "INNER" → IsWord w "JOIN" → ReadsSource ps s → IsWord x "ON" →
      Reads (.chain .or) qs e.tree → ReadsJoins rs js →
      ReadsJoins (v :: w :: (ps ++ x :: (qs ++ rs))) (⟨s, e⟩ :: js)

inductive ReadsSelect : List Piece → Select → Prop
  | select {v w x y : Piece} {ps qs rs us : List Piece} {cs : List (Alias × Column)} {s : Source}
      {js : List Join} {e : Expr} :
      IsWord v "SELECT" → IsWord w "DISTINCT" → ReadsColumns ps cs → IsWord x "FROM" →
      ReadsSource qs s → ReadsJoins rs js → IsWord y "WHERE" → Reads (.chain .or) us e.tree →
      ReadsSelect (v :: w :: (ps ++ x :: (qs ++ (rs ++ y :: us)))) ⟨cs, s, js, e⟩

inductive ReadsRetrieval : List Piece → Retrieval → Prop
  | latest {v w x : Piece} {ps : List Piece} {q : Select} {t : Alias} {c : Column} :
      ReadsSelect ps q → IsWord v "ORDER" → IsWord w "BY" → IsWord x "DESC" →
      ReadsRetrieval (ps ++ [v, w, .name t.label, .sign ".", .name c.label, x]) (.latest q (t, c))
  | number {v w x y : Piece} {ps : List Piece} {q : Select} {name : String} :
      IsWord v "SELECT" → IsWord w "COUNT" → IsWord x "FROM" → ReadsSelect ps q → IsWord y "AS" →
      ReadsRetrieval (v :: w :: .sign "(" :: .sign "*" :: .sign ")" :: x :: .sign "(" ::
        (ps ++ [.sign ")", y, .name name])) (.number q name)

/-- A text with its values is read as a retrieval. -/
def ReadsText (text : String) (values : List Value) (r : Retrieval) : Prop :=
  ∃ ps, lex text.toList values = some ps ∧ ReadsRetrieval (solid ps) r

/-- A text with its values gives the answer of what it is read as. -/
def GivesAnswer {α : Type} [DecidableEq α] (E : Engine α) (db : Database α) (text : String)
    (values : List Value) (a : Answer α) : Prop :=
  ∃ r, ReadsText text values r ∧ r.answer? E db = some a

/-! ## One reading -/

/-- A test that is read from the same pieces, and stops, is the same. -/
theorem Reads.settled_expr {ps ps' rest rest' : List Piece} {e e' : Expr}
    (h : Reads (.chain .or) ps e.tree) (h' : Reads (.chain .or) ps' e'.tree)
    (heq : ps ++ rest = ps' ++ rest') (hrest : Stops (.chain .or) rest)
    (hrest' : Stops (.chain .or) rest') : e = e' ∧ rest = rest' :=
  (h.settled h' heq hrest hrest').imp_left Expr.tree_injective

theorem ReadsColumns.settled {ps ps' rest rest' : List Piece} {cs cs' : List (Alias × Column)}
    (h : ReadsColumns ps cs) (h' : ReadsColumns ps' cs') (heq : ps ++ rest = ps' ++ rest')
    (hrest : rest.head? ≠ some (.sign ",")) (hrest' : rest'.head? ≠ some (.sign ",")) :
    cs = cs' ∧ rest = rest' := by
  induction h generalizing ps' cs' with
  | last =>
    cases h' with
    | last =>
      simp only [List.cons_append, List.nil_append, List.cons.injEq, Piece.name.injEq] at heq
      obtain ⟨ht, -, hc, rfl⟩ := heq
      exact ⟨by rw [Alias.label_injective ht, Column.label_injective hc], rfl⟩
    | more _ =>
      simp only [List.cons_append, List.nil_append, List.cons.injEq] at heq
      exact absurd (by rw [heq.2.2.2, List.head?_cons]) hrest
  | more _ ih =>
    cases h' with
    | last =>
      simp only [List.cons_append, List.nil_append, List.cons.injEq] at heq
      exact absurd (by rw [← heq.2.2.2, List.head?_cons]) hrest'
    | more h' =>
      simp only [List.cons_append, List.cons.injEq, Piece.name.injEq, true_and] at heq
      obtain ⟨ht, hc, heq⟩ := heq
      obtain ⟨rfl, rfl⟩ := ih h' heq
      exact ⟨by rw [Alias.label_injective ht, Column.label_injective hc], rfl⟩

theorem ReadsSource.settled {ps ps' rest rest' : List Piece} {s s' : Source} (h : ReadsSource ps s)
    (h' : ReadsSource ps' s') (heq : ps ++ rest = ps' ++ rest') : s = s' ∧ rest = rest' := by
  cases h with
  | named hw =>
    cases h' with
    | named hw' =>
      simp only [List.cons_append, List.nil_append, List.cons.injEq, Piece.name.injEq] at heq
      obtain ⟨rfl, -, hlabel, rfl⟩ := heq
      exact ⟨by rw [Alias.label_injective hlabel], rfl⟩

/-- A test ends where a table is joined, and where the joined tables end. -/
theorem ReadsJoins.stops {v : Piece} {ps : List Piece} {js : List Join} (h : ReadsJoins ps js)
    (hv : IsWord v "WHERE") (rest : List Piece) : Stops (.chain .or) (ps ++ v :: rest) := by
  cases h with
  | nil => exact stops_isWord hv (by decide) rest
  | cons hinner _ _ _ _ _ => exact stops_isWord hinner (by decide) _

theorem ReadsJoins.settled {v v' : Piece} {ps ps' rest rest' : List Piece} {js js' : List Join}
    (h : ReadsJoins ps js) (h' : ReadsJoins ps' js') (hv : IsWord v "WHERE") (hv' : IsWord v' "WHERE")
    (heq : ps ++ v :: rest = ps' ++ v' :: rest') : js = js' ∧ rest = rest' := by
  induction h generalizing ps' js' with
  | nil =>
    cases h' with
    | nil => exact ⟨rfl, (List.cons.inj heq).2⟩
    | cons hinner _ _ _ _ _ =>
      obtain rfl := (List.cons.inj heq).1
      exact absurd (hv.eq hinner) (by decide)
  | cons hinner _ hs _ he hjs ih =>
    cases h' with
    | nil =>
      obtain rfl := (List.cons.inj heq).1
      exact absurd (hinner.eq hv') (by decide)
    | cons _ _ hs' _ he' hjs' =>
      simp only [List.cons_append, List.append_assoc, List.cons.injEq] at heq
      obtain ⟨rfl, htail⟩ := hs.settled hs' heq.2.2
      obtain ⟨rfl, heq⟩ := he.settled_expr he' (List.cons.inj htail).2 (hjs.stops hv _)
        (hjs'.stops hv' _)
      obtain ⟨rfl, rfl⟩ := ih hjs' heq
      exact ⟨rfl, rfl⟩

theorem ReadsSelect.settled {ps ps' rest rest' : List Piece} {q q' : Select} (h : ReadsSelect ps q)
    (h' : ReadsSelect ps' q') (heq : ps ++ rest = ps' ++ rest') (hrest : Stops (.chain .or) rest)
    (hrest' : Stops (.chain .or) rest') : q = q' ∧ rest = rest' := by
  cases h with
  | select _ _ hcs hfrom hs hjs hwhere he =>
    cases h' with
    | select _ _ hcs' hfrom' hs' hjs' hwhere' he' =>
      simp only [List.cons_append, List.append_assoc, List.cons.injEq] at heq
      have hends {x : Piece} {w : String} (hx : IsWord x w) (us : List Piece) :
          (x :: us).head? ≠ some (.sign ",") := by
        rw [List.head?_cons]
        exact fun h => hx.ne_sign "," (Option.some.inj h)
      obtain ⟨rfl, heq⟩ := hcs.settled hcs' heq.2.2 (hends hfrom _) (hends hfrom' _)
      obtain ⟨rfl, heq⟩ := hs.settled hs' (List.cons.inj heq).2
      obtain ⟨rfl, heq⟩ := hjs.settled hjs' hwhere hwhere' heq
      obtain ⟨rfl, heq⟩ := he.settled_expr he' heq hrest hrest'
      exact ⟨rfl, heq⟩

/-- The second word of a selection tells it from the number of its results. -/
theorem ReadsSelect.second {v w : Piece} {ps rest rest' : List Piece} {q : Select}
    (h : ReadsSelect ps q) (heq : ps ++ rest = v :: w :: rest') : IsWord w "DISTINCT" := by
  cases h with
  | select _ hdistinct _ _ _ _ _ _ =>
    obtain rfl := (List.cons.inj (List.cons.inj heq).2).1
    exact hdistinct

/-- Pieces are read as one retrieval at most. -/
theorem ReadsRetrieval.eq {ps : List Piece} {r r' : Retrieval} (h : ReadsRetrieval ps r)
    (h' : ReadsRetrieval ps r') : r = r' := by
  generalize hps : ps = ps' at h'
  cases h with
  | latest hq horder _ _ =>
    cases h' with
    | latest hq' horder' _ _ =>
      obtain ⟨rfl, htime⟩ := hq.settled hq' hps (stops_isWord horder (by decide) _)
        (stops_isWord horder' (by decide) _)
      simp only [List.cons.injEq, Piece.name.injEq] at htime
      rw [Alias.label_injective htime.2.2.1, Column.label_injective htime.2.2.2.2.1]
    | number _ hcount _ _ _ => exact absurd ((hq.second hps).eq hcount) (by decide)
  | number _ hcount _ hq _ =>
    cases h' with
    | latest hq' _ _ _ => exact absurd ((hq'.second hps.symm).eq hcount) (by decide)
    | number _ _ _ hq' _ =>
      simp only [List.cons.injEq] at hps
      obtain ⟨rfl, hname⟩ := hq.settled hq' hps.2.2.2.2.2.2.2 (stops_paren _) (stops_paren _)
      simp only [List.cons.injEq, Piece.name.injEq] at hname
      rw [hname.2.2.1]

/-! ## Reading the pieces -/

theorem readsColumns_separated {cs : List (Alias × Column)} (h : cs ≠ []) :
    ReadsColumns (solid (separated [.sign ",", .space] (cs.map fun c => (Term.column c.1 c.2).pieces)))
      cs := by
  induction cs with
  | nil => exact absurd rfl h
  | cons c cs ih =>
    cases cs with
    | nil => exact .last
    | cons d ds => exact .more (ih (List.cons_ne_nil d ds))

theorem readsSource_pieces (s : Source) : ReadsSource (solid s.pieces) s := .named ⟨"AS", rfl, rfl⟩

theorem reads_test (e : Expr) : Reads (.chain .or) (solid e.pieces) e.tree :=
  (reads_expr e).test_of_form

theorem readsJoins_pieces (js : List Join) : ReadsJoins (solid (js.flatMap Join.pieces)) js := by
  induction js with
  | nil => exact .nil
  | cons j js ih =>
    have hpieces : solid j.pieces =
        .word "INNER" :: .word "JOIN" :: (solid j.source.pieces ++ .word "ON" :: solid j.on.pieces) :=
      solid_between (by exact Piece.noConfusion) (.space :: phrase ["INNER", "JOIN"] ++
        .space :: j.source.pieces) j.on.pieces
    rw [List.flatMap_cons, solid_append, hpieces, List.cons_append, List.cons_append,
      List.append_assoc, List.cons_append]
    exact .cons ⟨"INNER", rfl, rfl⟩ ⟨"JOIN", rfl, rfl⟩ (readsSource_pieces j.source) ⟨"ON", rfl, rfl⟩
      (reads_test j.on) ih

theorem readsSelect_pieces {q : Select} (h : q.columns ≠ []) : ReadsSelect (solid q.pieces) q := by
  have hpieces : solid q.pieces = .word "SELECT" :: .word "DISTINCT" :: (solid q.columnPieces ++
      .word "FROM" :: (solid q.source.pieces ++ (solid (q.joins.flatMap Join.pieces) ++
        .word "WHERE" :: solid q.filter.pieces))) := by
    rw [Select.pieces, solid_between (by exact Piece.noConfusion), solid_append,
      solid_between (by exact Piece.noConfusion)]
    simp only [solid_append, List.append_assoc, List.cons_append]
    rfl
  rw [hpieces]
  exact .select ⟨"SELECT", rfl, rfl⟩ ⟨"DISTINCT", rfl, rfl⟩ (readsColumns_separated h)
    ⟨"FROM", rfl, rfl⟩ (readsSource_pieces q.source) (readsJoins_pieces q.joins) ⟨"WHERE", rfl, rfl⟩
    (reads_test q.filter)

theorem readsRetrieval_pieces {r : Retrieval} (h : r.results.columns ≠ []) :
    ReadsRetrieval (solid r.pieces) r := by
  cases r with
  | latest q time =>
    rw [Retrieval.pieces, solid_append]
    exact .latest (readsSelect_pieces h) ⟨"ORDER", rfl, rfl⟩ ⟨"BY", rfl, rfl⟩ ⟨"DESC", rfl, rfl⟩
  | number q name =>
    have hpieces : solid (Retrieval.pieces (.number q name)) =
        .word "SELECT" :: .word "COUNT" :: .sign "(" :: .sign "*" :: .sign ")" :: .word "FROM" ::
          .sign "(" :: (solid q.pieces ++ [.sign ")", .word "AS", .name name]) := by
      rw [Retrieval.pieces, solid_between (by exact Piece.noConfusion),
        solid_between (by exact Piece.noConfusion), solid_parenthesized]
      simp only [List.append_assoc, List.cons_append]
      rfl
    rw [hpieces]
    exact .number ⟨"SELECT", rfl, rfl⟩ ⟨"COUNT", rfl, rfl⟩ ⟨"FROM", rfl, rfl⟩ (readsSelect_pieces h)
      ⟨"AS", rfl, rfl⟩

/-- The text of a retrieval is read as that retrieval, and as no other. -/
theorem readsText_iff {r r' : Retrieval} (h : r.results.columns ≠ []) :
    ReadsText (textOf r.pieces) (valuesOf r.pieces) r' ↔ r' = r := by
  have hlex := lex_textOf r.legible_pieces
  constructor
  · rintro ⟨ps, hps, hreads⟩
    rw [hlex] at hps
    obtain rfl := Option.some.inj hps
    exact hreads.eq (readsRetrieval_pieces h)
  · rintro rfl
    exact ⟨_, hlex, readsRetrieval_pieces h⟩

/-! ## What the text of a statement gives -/

namespace Statement

theorem columns_ne_nil (s : Statement) : s.retrieval.results.columns ≠ [] := by
  rw [s.results_retrieval]
  exact List.cons_ne_nil _ _

/-- The text of a statement asks for what the statement does, and for nothing else. -/
theorem readsText_text_iff (s : Statement) (r : Retrieval) :
    ReadsText s.text s.values r ↔ r = s.retrieval :=
  readsText_iff s.columns_ne_nil

/-- What is found by reading the text of a statement is what the statement finds. -/
theorem givesAnswer_text_iff {α : Type} [DecidableEq α] (E : Engine α) (db : Database α)
    (s : Statement) (a : Answer α) :
    GivesAnswer E db s.text s.values a ↔ s.answer? E db = some a := by
  constructor
  · rintro ⟨r, hr, ha⟩
    obtain rfl := (s.readsText_text_iff r).mp hr
    exact ha
  · intro ha
    exact ⟨s.retrieval, (s.readsText_text_iff _).mpr rfl, ha⟩

end Statement
end TrafficQuery.Sql
