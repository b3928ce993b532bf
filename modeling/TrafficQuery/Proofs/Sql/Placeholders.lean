import TrafficQuery.Proofs.Sql.WhereClause

/-!
# Placeholders

A question mark is a placeholder unless it stands in a quoted name or text. A statement has as many
placeholders as values, whatever its tables are called.
-/

namespace TrafficQuery.Sql

/-! ## Placeholders of a text -/

/-- The quote that is open behind a character, if there is one. A quote written twice closes the text
and opens it again. -/
def openQuote (quote : Option Char) (c : Char) : Option Char :=
  match quote with
  | none => if c = '"' ∨ c = '\'' then some c else none
  | some q => if c = q then none else some q

/-- The placeholders behind a place where a quote may be open. -/
def placeholdersFrom (quote : Option Char) : List Char → Nat
  | [] => 0
  | c :: cs => (if quote = none ∧ c = '?' then 1 else 0) + placeholdersFrom (openQuote quote c) cs

def placeholders (text : String) : Nat := placeholdersFrom none text.toList

theorem placeholdersFrom_append (quote : Option Char) (as bs : List Char) :
    placeholdersFrom quote (as ++ bs) =
      placeholdersFrom quote as + placeholdersFrom (as.foldl openQuote quote) bs := by
  induction as generalizing quote with
  | nil => exact (Nat.zero_add _).symm
  | cons c cs ih =>
    rw [List.cons_append, placeholdersFrom, placeholdersFrom, ih, Nat.add_assoc]
    rfl

/-! ## Placeholders of pieces -/

/-- A text that leaves no quote open, with the number of its placeholders. -/
def Holds (cs : List Char) (n : Nat) : Prop :=
  cs.foldl openQuote none = none ∧ placeholdersFrom none cs = n

instance (cs : List Char) (n : Nat) : Decidable (Holds cs n) :=
  inferInstanceAs (Decidable (_ ∧ _))

theorem Holds.append {as bs : List Char} {m n : Nat} (ha : Holds as m) (hb : Holds bs n) :
    Holds (as ++ bs) (m + n) := by
  obtain ⟨hopen, hcount⟩ := ha
  refine ⟨?_, ?_⟩
  · rw [List.foldl_append, hopen]
    exact hb.1
  · rw [placeholdersFrom_append, hopen, hcount, hb.2]

theorem holds_of_plain {cs : List Char} (h : ∀ c ∈ cs, c ≠ '"' ∧ c ≠ '\'' ∧ c ≠ '?') :
    Holds cs 0 := by
  induction cs with
  | nil => exact ⟨rfl, rfl⟩
  | cons c cs ih =>
    obtain ⟨hname, hliteral, hmark⟩ := h c List.mem_cons_self
    have hc : Holds [c] 0 := by simp [Holds, openQuote, placeholdersFrom, hname, hliteral, hmark]
    exact hc.append (ih fun d hd => h d (List.mem_cons_of_mem c hd))

/-- What is written between two quotes ends none and holds no placeholder. -/
theorem quoted_doubled {q : Char} (hq : q = '"' ∨ q = '\'') (s : List Char) :
    let text := s.flatMap fun c => if c = q then [c, c] else [c]
    text.foldl openQuote (some q) = some q ∧ placeholdersFrom (some q) text = 0 := by
  have hmark : q ≠ '?' := by rcases hq with rfl | rfl <;> decide
  induction s with
  | nil => exact ⟨rfl, rfl⟩
  | cons c cs ih =>
    simp only [List.flatMap_cons, List.foldl_append, placeholdersFrom_append]
    by_cases hc : c = q
    · simp only [hc, if_true, List.foldl_cons, List.foldl_nil, openQuote, hq, placeholdersFrom]
      simpa [hmark] using ih
    · simp only [hc, if_false, List.foldl_cons, List.foldl_nil, openQuote, placeholdersFrom]
      simpa using ih

theorem holds_quoted {q : Char} (hq : q = '"' ∨ q = '\'') (s : String) :
    Holds (q :: ((doubled q s).toList ++ [q])) 0 := by
  obtain ⟨hopen, hcount⟩ := quoted_doubled hq s.toList
  have hmark : q ≠ '?' := by rcases hq with rfl | rfl <;> decide
  rw [toList_doubled]
  constructor
  · simp [openQuote, hq, hopen]
  · simp [placeholdersFrom, placeholdersFrom_append, openQuote, hq, hopen, hcount, hmark]

/-- A piece is written with a placeholder if it has a value. -/
theorem holds_piece {p : Piece} (hp : p.isProper = true) :
    Holds p.text.toList p.value?.toList.length := by
  cases p with
  | word s =>
    simp only [Piece.isProper, Bool.and_eq_true, List.all_eq_true] at hp
    apply holds_of_plain
    intro c hc
    have hpart := hp.2 c hc
    refine ⟨?_, ?_, ?_⟩ <;>
    · rintro rfl
      revert hpart
      decide
  | sign s =>
    simp only [Piece.isProper, List.contains_iff_mem, List.mem_cons, List.not_mem_nil, or_false] at hp
    rcases hp with rfl | rfl | rfl | rfl | rfl | rfl | rfl | rfl | rfl | rfl <;> exact ⟨rfl, rfl⟩
  | space => exact ⟨rfl, rfl⟩
  | bound v => exact (by decide : Holds "?".toList 1)
  | name s =>
    have htext : (Piece.name s).text.toList = '"' :: ((doubled '"' s).toList ++ ['"']) := by
      simp [Piece.text, String.toList_append]
    rw [htext]
    exact holds_quoted (.inl rfl) s
  | literal s =>
    have htext : (Piece.literal s).text.toList = '\'' :: ((doubled '\'' s).toList ++ ['\'']) := by
      simp [Piece.text, String.toList_append]
    rw [htext]
    exact holds_quoted (.inr rfl) s

theorem holds_textOf {ps : List Piece} (h : ∀ p ∈ ps, p.isProper = true) :
    Holds (textOf ps).toList (valuesOf ps).length := by
  induction ps with
  | nil => exact ⟨rfl, rfl⟩
  | cons p ps ih =>
    rw [textOf_cons, String.toList_append, valuesOf_cons, List.length_append]
    exact (holds_piece (h p List.mem_cons_self)).append
      (ih fun q hq => h q (List.mem_cons_of_mem p hq))

theorem placeholders_textOf {ps : List Piece} (h : ∀ p ∈ ps, p.isProper = true) :
    placeholders (textOf ps) = (valuesOf ps).length :=
  (holds_textOf h).2

/-! ## Placeholders of statements -/

theorem valuesOf_joins (table : String) (joins : List HeaderJoin) :
    valuesOf ((joins.map (HeaderJoin.join table)).flatMap Join.pieces) = [] := by
  induction joins with
  | nil => rfl
  | cons j js ih =>
    rw [List.map_cons, List.flatMap_cons, valuesOf_append, ih]
    rfl

theorem Retrieval.valuesOf_pieces (r : Retrieval) : valuesOf r.pieces = valuesOf r.results.pieces := by
  cases r with
  | latest q time =>
    rw [pieces, valuesOf_append]
    exact List.append_nil _
  | number q name => simp [pieces, results, between, Piece.value?]

namespace Statement

theorem valuesOf_rowPieces (s : Statement) : valuesOf s.rowPieces = valuesOf s.filter.pieces := by
  simp only [rowPieces, select, Select.pieces, List.flatMap_cons, valuesOf_append, valuesOf_joins]
  rfl

/-- The values of a statement are those of its filter. -/
theorem values_eq (s : Statement) : s.values = valuesOf s.filter.pieces := by
  rw [values, pieces, Retrieval.valuesOf_pieces, s.results_retrieval]
  exact s.valuesOf_rowPieces

theorem placeholders_text (s : Statement) : placeholders s.text = s.values.length := by
  obtain ⟨-, -, -, hlegible, -⟩ := s.exists_pieces
  exact placeholders_textOf hlegible.1

end Statement
end TrafficQuery.Sql
