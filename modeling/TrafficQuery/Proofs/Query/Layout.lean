import TrafficQuery.Proofs.Query.Agreement
import TrafficQuery.Proofs.Query.Marks
import TrafficQuery.Proofs.Token.Layout

/-!
# Layout

What a query says does not depend on the blanks between its tokens: every layout of the tokens of a text
is read as the text is. Places of the two texts correspond when the same token, by its number, starts
at both of them.
-/

namespace TrafficQuery
open Text Grammar

/-! ## Token numbers -/

/-- The number of the token that starts at a byte, counted from 0. -/
def tokenIndex (source : String) (n : Nat) : Nat :=
  (scan source).tokens.findIdx (·.start == n)

/-- Places of two texts at which the token of one number starts, or which are the ends of both. -/
inductive Corresponds (source source' : String) : Nat → Nat → Prop
  | token {i : Nat} {t u : Token} :
      (scan source).tokens[i]? = some t → (scan source').tokens[i]? = some u →
      Corresponds source source' t.start u.start
  | endOfInput :
      Corresponds source source' (byteLength source.toList) (byteLength source'.toList)

variable {source source' : String}

/-- No two tokens start at one byte, so each has its own number. -/
theorem tokenIndex_start {i : Nat} {t : Token} (h : (scan source).tokens[i]? = some t) :
    tokenIndex source t.start = i := by
  obtain ⟨hi, rfl⟩ := List.getElem?_eq_some_iff.mp h
  have hstarts := List.pairwise_iff_getElem.mp (Cursor.start source).scan_starts
  refine (List.findIdx_eq hi).mpr ⟨beq_self_eq_true _, fun j hj => ?_⟩
  exact beq_false_of_ne (Nat.ne_of_lt (hstarts j i (Nat.lt_trans hj hi) hi hj))

/-- No token starts at the end. -/
theorem tokenIndex_byteLength (source : String) :
    tokenIndex source (byteLength source.toList) = (scan source).tokens.length := by
  refine List.findIdx_eq_length.mpr fun t ht => beq_false_of_ne ?_
  obtain ⟨hlt, -, after, ⟨before, htext, hstart⟩, -⟩ := (scan_loses_nothing source).placed t ht
  have hlength := congrArg byteLength htext
  simp only [byteLength_append] at hlength
  simp only [Token.stop] at hlt
  omega

/-- Corresponding places have one number. -/
theorem Corresponds.tokenIndex_eq {n m : Nat}
    (hlength : (scan source').tokens.length = (scan source).tokens.length)
    (h : Corresponds source source' n m) : tokenIndex source' m = tokenIndex source n := by
  cases h with
  | token ht hu => rw [tokenIndex_start ht, tokenIndex_start hu]
  | endOfInput => rw [tokenIndex_byteLength, tokenIndex_byteLength, hlength]

/-! ## Tokens of two layouts -/

/-- A text in which tokens are laid out has those tokens, each at its place, and ends behind them. -/
theorem exists_gaps_of_isLayout {ts : List Token} (hts : ∀ t ∈ ts, t.Genuine)
    (h : IsLayout ts source.toList) : ∃ gaps, gaps.length = ts.length ∧
      scan source = ⟨layTokens 0 gaps ts, .endOfInput (byteLength source.toList)⟩ := by
  obtain ⟨gaps, tail, hlength, hgaps, hne, htail, htext⟩ := h
  have hscan := Cursor.scan_interleave hts hlength hgaps hne htail 0
  rw [Nat.zero_add, ← htext] at hscan
  exact ⟨gaps, hlength, hscan⟩

theorem forall₂_resembles_of_layTokens {gaps : List (List Char)}
    (hlength : gaps.length = (scan source).tokens.length)
    (hscan : (scan source').tokens = layTokens 0 gaps (scan source).tokens) :
    List.Forall₂ (Token.Resembles id (Corresponds source source')) (scan source).tokens
      (scan source').tokens := by
  have hlaid := forall₂_layTokens hlength 0
  rw [← hscan] at hlaid
  obtain ⟨hsame, hkept⟩ := List.forall₂_iff_get.mp hlaid
  refine List.forall₂_iff_get.mpr ⟨hsame, fun i hi hi' => ?_⟩
  obtain ⟨hkind, hlexeme⟩ := hkept i hi hi'
  refine ⟨?_, hlexeme.symm, .token (List.getElem?_eq_getElem hi) (List.getElem?_eq_getElem hi')⟩
  rw [hkind]
  exact .same _

/-! ## Texts -/

/-- What is the same in a text and in another layout of its tokens. -/
structure ReadsAlike (source source' : String) : Prop where
  /-- The other text has tokens of the same kinds, up to its end. -/
  kinds : (scan source').tokens.map Token.kind = (scan source).tokens.map Token.kind
  complete : (scan source').ending = .endOfInput (byteLength source'.toList)
  /-- Both texts are refused with one fault at corresponding places, or both are read, to conditions that
  are the same when each mark is the number of the token that it points at. -/
  parse : Agree
    (fun e e' => e'.fault = e.fault ∧ Corresponds source source' e.position e'.position)
    (fun q q' => q'.operation = q.operation ∧
      q'.root.remark (tokenIndex source') = q.root.remark (tokenIndex source) ∧
      (∀ m ∈ q.root.marks, ∃ t ∈ (scan source).tokens, t.start = m) ∧
      ∀ m ∈ q'.root.marks, ∃ t ∈ (scan source').tokens, t.start = m)
    (TrafficQuery.parse source) (TrafficQuery.parse source')

/-- A text is read like every other layout of its tokens. -/
theorem readsAlike_of_isLayout {n : Nat} (hending : (scan source).ending = .endOfInput n)
    (hlayout : IsLayout (scan source).tokens source'.toList) : ReadsAlike source source' := by
  obtain ⟨gaps, hlength, hscan⟩ :=
    exists_gaps_of_isLayout (Cursor.start source).genuine_of_mem_scan hlayout
  have htokens := forall₂_resembles_of_layTokens hlength (congrArg Scan.tokens hscan)
  have hn : n = byteLength source.toList :=
    (Cursor.position_of_scan_endOfInput hending).trans (Nat.zero_add _)
  have hends : (scan source).ending.Resembles id (Corresponds source source') (scan source').ending := by
    rw [hending, hscan, hn]
    exact .endOfInput .endOfInput
  have hlower (s t : String) (h : id s = id t) : lower s = lower t := congrArg lower h
  refine ⟨?_, congrArg Scan.ending hscan, ?_⟩
  · have hkinds : List.Forall₂ Eq ((scan source').tokens.map Token.kind)
        ((scan source).tokens.map Token.kind) :=
      List.forall₂_map_left_iff.mpr (List.forall₂_map_right_iff.mpr
        (htokens.flip.imp fun _ _ h => h.kind.eq_of_injective Function.injective_id))
    rwa [List.forall₂_eq_eq_eq] at hkinds
  · have hagree := agree_parse hlower htokens hends
    have hmarks (q : Query) (h : TrafficQuery.parse source = .ok q) := exists_start_of_mem_marks h
    have hmarks' (q : Query) (h : TrafficQuery.parse source' = .ok q) := exists_start_of_mem_marks h
    generalize TrafficQuery.parse source = x at hagree hmarks
    generalize TrafficQuery.parse source' = x' at hagree hmarks'
    cases hagree with
    | error he => exact .error ⟨he.fault.eq Function.injective_id, he.place⟩
    | ok hq =>
      obtain ⟨hop, fields, -, -, hroot⟩ := hq
      have hnumbers (m m' : Nat) (h : Corresponds source source' m m') :=
        h.tokenIndex_eq htokens.length_eq.symm
      exact .ok ⟨hop, hroot.remark_eq Function.injective_id hnumbers, hmarks _ rfl, hmarks' _ rfl⟩

/-- A text with no blanks but those between words. -/
def tightSource : String := "query requests where not(header.host='a b')"

/-- The same tokens with blanks between all of them. -/
def spreadSource : String := "\tquery requests\nwhere not  ( header . host = 'a b' ) "

theorem readsAlike_of_isLayout_spread : (scan tightSource).ending = .endOfInput 43 ∧
    IsLayout (scan tightSource).tokens spreadSource.toList ∧ ReadsAlike tightSource spreadSource := by
  have hending : (scan tightSource).ending = .endOfInput 43 := by decide +kernel
  have hlayout : IsLayout (scan tightSource).tokens spreadSource.toList :=
    ⟨[['\t'], [' '], ['\n'], [' '], [' ', ' '], [' '], [' '], [' '], [' '], [' '], [' ']], [' '],
      by decide +kernel, by simp [IsGap]; decide, by decide, by simp [IsGap]; decide, by decide +kernel⟩
  exact ⟨hending, hlayout, readsAlike_of_isLayout hending hlayout⟩

end TrafficQuery
