import Mathlib.Data.List.Chain
import TrafficQuery.Sql.Piece

/-!
# Cutting the text of a statement

A text is cut into pieces by the quoting rules of SQL. The text of pieces that do not run into each
other is cut into the same pieces again.
-/

namespace TrafficQuery.Sql

/-! ## Cutting a text -/

/-- The text before the closing quote, where a quote written twice is one of its characters, and what
follows behind it. -/
def quotedText (quote : Char) : List Char → Option (List Char × List Char)
  | [] => none
  | c :: cs =>
    if c = quote then
      match cs with
      | [] => some ([], [])
      | d :: ds =>
        if d = quote then (quotedText quote ds).map fun r => (quote :: r.1, r.2)
        else some ([], d :: ds)
    else (quotedText quote cs).map fun r => (c :: r.1, r.2)

def isWordPart (c : Char) : Bool := c.isAlphanum || c == '_'

/-- The sign that a text starts with. -/
def leadingSign (c : Char) (cs : List Char) : Option (String × List Char) :=
  if ['(', ')', ',', '.', '*', '='].contains c then some (String.singleton c, cs)
  else if ['<', '>'].contains c then
    match cs with
    | '=' :: ds => some (String.ofList [c, '='], ds)
    | _ => some (String.singleton c, cs)
  else none

/-- The piece that a text starts with, and what is left of the text and of the values. A placeholder
stands for the next value. -/
def leadingPiece (c : Char) (cs : List Char) (vs : List Value) :
    Option (Piece × List Char × List Value) :=
  match leadingSign c cs with
  | some (s, rest) => some (.sign s, rest, vs)
  | none =>
    if c = ' ' then some (.space, cs, vs)
    else if c = '"' then (quotedText c cs).map fun r => (.name (String.ofList r.1), r.2, vs)
    else if c = '\'' then (quotedText c cs).map fun r => (.literal (String.ofList r.1), r.2, vs)
    else if c = '?' then
      match vs with
      | [] => none
      | v :: vs => some (.bound v, cs, vs)
    else if isWordPart c then
      some (.word (String.ofList (c :: cs.takeWhile isWordPart)), cs.dropWhile isWordPart, vs)
    else none

theorem quotedText_shorter {quote : Char} {cs text rest : List Char}
    (h : quotedText quote cs = some (text, rest)) : rest.length < cs.length := by
  fun_induction quotedText quote cs generalizing text with
  | case1 => cases h
  | case2 =>
    cases h
    exact Nat.zero_lt_one
  | case3 ds ih =>
    obtain ⟨r, hr, heq⟩ := Option.map_eq_some_iff.mp h
    cases heq
    have hlt := ih hr
    simp only [List.length_cons]
    omega
  | case4 =>
    cases h
    simp only [List.length_cons]
    omega
  | case5 c cs hc ih =>
    obtain ⟨r, hr, heq⟩ := Option.map_eq_some_iff.mp h
    cases heq
    have hlt := ih hr
    simp only [List.length_cons]
    omega

theorem leadingSign_shorter {c : Char} {cs rest : List Char} {s : String}
    (h : leadingSign c cs = some (s, rest)) : rest.length ≤ cs.length := by
  unfold leadingSign at h
  split at h
  · cases h
    exact Nat.le_refl _
  · split at h
    · split at h
      · cases h
        exact Nat.le_succ _
      · cases h
        exact Nat.le_refl _
    · cases h

theorem leadingPiece_shorter {c : Char} {cs rest : List Char} {vs vs' : List Value} {p : Piece}
    (h : leadingPiece c cs vs = some (p, rest, vs')) : rest.length ≤ cs.length := by
  unfold leadingPiece at h
  split at h
  · rename_i hsign
    cases h
    exact leadingSign_shorter hsign
  split at h
  · cases h
    exact Nat.le_refl _
  split at h
  · obtain ⟨r, hr, heq⟩ := Option.map_eq_some_iff.mp h
    cases heq
    exact Nat.le_of_lt (quotedText_shorter hr)
  split at h
  · obtain ⟨r, hr, heq⟩ := Option.map_eq_some_iff.mp h
    cases heq
    exact Nat.le_of_lt (quotedText_shorter hr)
  split at h
  · split at h
    · cases h
    · cases h
      exact Nat.le_refl _
  split at h
  · cases h
    exact (List.dropWhile_suffix isWordPart).length_le
  · cases h

/-- Cuts a text into pieces, if its placeholders are as many as the values. -/
def lex : List Char → List Value → Option (List Piece)
  | [], vs => if vs.isEmpty then some [] else none
  | c :: cs, vs =>
    match _h : leadingPiece c cs vs with
    | some (p, rest, vs') => (lex rest vs').map (p :: ·)
    | none => none
termination_by cs => cs.length
decreasing_by exact Nat.lt_succ_of_le (leadingPiece_shorter _h)

/-! ## Pieces apart -/

/-- The signs that need no space beside them. -/
def Piece.delimits : Piece → Bool
  | .space => true
  | .sign s => ["(", ")", ",", ".", "*"].contains s
  | _ => false

/-- Whether the text of a piece is one of its kind. -/
def Piece.isProper : Piece → Bool
  | .word s => !s.toList.isEmpty && s.toList.all isWordPart
  | .sign s => ["(", ")", ",", ".", "*", "=", "<", ">", "<=", ">="].contains s
  | _ => true

/-- Two pieces that do not run into each other. -/
def Piece.Apart (p q : Piece) : Prop := p.delimits = true ∨ q.delimits = true

instance : DecidableRel Piece.Apart := fun p q =>
  inferInstanceAs (Decidable (p.delimits = true ∨ q.delimits = true))

/-- Pieces that can be told apart in their text. -/
def Legible (ps : List Piece) : Prop := (∀ p ∈ ps, p.isProper = true) ∧ ps.IsChain Piece.Apart

instance (ps : List Piece) : Decidable (Legible ps) :=
  inferInstanceAs (Decidable ((∀ p ∈ ps, p.isProper = true) ∧ ps.IsChain Piece.Apart))

theorem Piece.isProper_of_delimits {d : Piece} (hd : d.delimits = true) : d.isProper = true := by
  cases d with
  | sign s =>
    simp only [delimits, List.contains_iff_mem, List.mem_cons, List.not_mem_nil, or_false] at hd
    rcases hd with rfl | rfl | rfl | rfl | rfl <;> rfl
  | space => rfl
  | _ => cases hd

theorem legible_nil : Legible [] := ⟨fun _ h => absurd h List.not_mem_nil, .nil⟩

theorem legible_singleton_iff {p : Piece} : Legible [p] ↔ p.isProper = true := by
  simp [Legible]

theorem legible_append_cons_iff {d : Piece} (hd : d.delimits = true) (ps qs : List Piece) :
    Legible (ps ++ d :: qs) ↔ Legible ps ∧ Legible qs := by
  have hleft (p : Piece) : p.Apart d := .inr hd
  have hright (p : Piece) : d.Apart p := .inl hd
  have hchain : (ps ++ d :: qs).IsChain Piece.Apart ↔
      ps.IsChain Piece.Apart ∧ qs.IsChain Piece.Apart := by
    simp [List.isChain_append, List.isChain_cons, hleft, hright]
  have hproper := d.isProper_of_delimits hd
  simp only [Legible, hchain, List.mem_append, List.mem_cons, or_imp, forall_and, forall_eq, hproper,
    true_and]
  constructor
  · rintro ⟨⟨hps, hqs⟩, hcps, hcqs⟩
    exact ⟨⟨hps, hcps⟩, hqs, hcqs⟩
  · rintro ⟨⟨hps, hcps⟩, hqs, hcqs⟩
    exact ⟨⟨hps, hqs⟩, hcps, hcqs⟩

theorem legible_cons_iff {d : Piece} (hd : d.delimits = true) (qs : List Piece) :
    Legible (d :: qs) ↔ Legible qs := by
  have h := legible_append_cons_iff hd [] qs
  rw [List.nil_append] at h
  exact h.trans ⟨And.right, fun hqs => ⟨legible_nil, hqs⟩⟩

theorem legible_parenthesized_iff (ps : List Piece) : Legible (parenthesized ps) ↔ Legible ps := by
  have hclose := legible_append_cons_iff (d := .sign ")") rfl ps []
  have hopen := legible_cons_iff (d := .sign "(") rfl (ps ++ [.sign ")"])
  rw [parenthesized, List.cons_append, hopen, hclose]
  exact ⟨And.left, fun h => ⟨h, legible_nil⟩⟩

/-! ## Cutting the text of pieces -/

/-- The text does not go on with a character of the piece before it. -/
def StartsApart (cs : List Char) : Prop :=
  ∀ c ∈ cs.head?, [' ', '(', ')', ',', '.', '*'].contains c = true

theorem quotedText_doubled {quote : Char} (s : List Char) {rest : List Char}
    (h : rest.head? ≠ some quote) :
    quotedText quote ((s.flatMap fun c => if c = quote then [c, c] else [c]) ++ quote :: rest) =
      some (s, rest) := by
  induction s with
  | nil =>
    cases rest with
    | nil => simp [quotedText]
    | cons d ds =>
      have hd : d ≠ quote := fun heq => h (congrArg some heq)
      simp [quotedText, hd]
  | cons c cs ih =>
    rw [List.flatMap_cons, List.append_assoc]
    by_cases hc : c = quote
    · subst hc
      simp [quotedText, ih]
    · rw [if_neg hc, List.singleton_append, quotedText.eq_def]
      simp only [if_neg hc, ih, Option.map_some]

theorem head?_ne_of_startsApart {cs : List Char} (h : StartsApart cs) {c : Char}
    (hc : [' ', '(', ')', ',', '.', '*'].contains c = false) : cs.head? ≠ some c := by
  intro heq
  have hstart := h c heq
  rw [hc] at hstart
  cases hstart

theorem leadingSign_angle {c : Char} {cs : List Char} (hc : c = '<' ∨ c = '>')
    (h : cs.head? ≠ some '=') : leadingSign c cs = some (String.singleton c, cs) := by
  cases cs with
  | nil => rcases hc with rfl | rfl <;> rfl
  | cons d ds =>
    have hd : d ≠ '=' := fun heq => h (congrArg some heq)
    rcases hc with rfl | rfl <;> simp [leadingSign, hd]

theorem leadingSign_text {s : String} {rest : List Char} (hs : (Piece.sign s).isProper = true)
    (h : (Piece.sign s).delimits = true ∨ StartsApart rest) :
    ∃ c cs, s.toList = c :: cs ∧ leadingSign c (cs ++ rest) = some (s, rest) := by
  simp only [Piece.isProper, List.contains_iff_mem, List.mem_cons, List.not_mem_nil, or_false] at hs
  have hangle (hs : (Piece.sign s).delimits = false) : rest.head? ≠ some '=' := by
    rw [hs] at h
    exact head?_ne_of_startsApart (h.resolve_left Bool.false_ne_true) rfl
  rcases hs with rfl | rfl | rfl | rfl | rfl | rfl | rfl | rfl | rfl | rfl
  · exact ⟨'(', [], rfl, rfl⟩
  · exact ⟨')', [], rfl, rfl⟩
  · exact ⟨',', [], rfl, rfl⟩
  · exact ⟨'.', [], rfl, rfl⟩
  · exact ⟨'*', [], rfl, rfl⟩
  · exact ⟨'=', [], rfl, rfl⟩
  · exact ⟨'<', [], rfl, leadingSign_angle (.inl rfl) (hangle rfl)⟩
  · exact ⟨'>', [], rfl, leadingSign_angle (.inr rfl) (hangle rfl)⟩
  · exact ⟨'<', ['='], rfl, rfl⟩
  · exact ⟨'>', ['='], rfl, rfl⟩

theorem leadingPiece_word {c : Char} {cs rest : List Char} (vs : List Value)
    (hword : ∀ d ∈ c :: cs, isWordPart d = true) (h : StartsApart rest) :
    leadingPiece c (cs ++ rest) vs = some (.word (String.ofList (c :: cs)), rest, vs) := by
  have hc := hword c List.mem_cons_self
  have hcs : ∀ d ∈ cs, isWordPart d = true := fun d hd => hword d (List.mem_cons_of_mem c hd)
  have hne (d : Char) (hd : isWordPart d = false) : c ≠ d := by
    rintro rfl
    rw [hd] at hc
    cases hc
  have hsign : leadingSign c (cs ++ rest) = none := by
    have hsingle : c ∉ ['(', ')', ',', '.', '*', '='] := by
      simp [hne '(' rfl, hne ')' rfl, hne ',' rfl, hne '.' rfl, hne '*' rfl, hne '=' rfl]
    have hangle : c ∉ ['<', '>'] := by simp [hne '<' rfl, hne '>' rfl]
    rw [leadingSign.eq_def, if_neg (by simpa using hsingle), if_neg (by simpa using hangle)]
  have hrest : rest.takeWhile isWordPart = [] ∧ rest.dropWhile isWordPart = rest := by
    cases rest with
    | nil => exact ⟨rfl, rfl⟩
    | cons d ds =>
      have hd : isWordPart d = false := by
        have hstart := h d rfl
        simp only [List.contains_iff_mem, List.mem_cons, List.not_mem_nil, or_false] at hstart
        rcases hstart with rfl | rfl | rfl | rfl | rfl | rfl <;> rfl
      simp [hd]
  unfold leadingPiece
  simp only [hsign, hne ' ' rfl, hne '"' rfl, hne '\'' rfl, hne '?' rfl, if_false, hc, if_true]
  rw [List.takeWhile_append_of_pos hcs, List.dropWhile_append_of_pos hcs, hrest.1, hrest.2,
    List.append_nil]

theorem toList_doubled (quote : Char) (s : String) : (doubled quote s).toList =
    s.toList.flatMap fun c => if c = quote then [c, c] else [c] :=
  String.toList_ofList

theorem leadingPiece_name (cs : List Char) (vs : List Value) : leadingPiece '"' cs vs =
    (quotedText '"' cs).map fun r => (.name (String.ofList r.1), r.2, vs) := rfl

theorem leadingPiece_literal (cs : List Char) (vs : List Value) : leadingPiece '\'' cs vs =
    (quotedText '\'' cs).map fun r => (.literal (String.ofList r.1), r.2, vs) := rfl

/-- A piece is cut off the front of its text. -/
theorem leadingPiece_text {p : Piece} {rest : List Char} (vs : List Value)
    (hp : p.isProper = true) (h : p.delimits = true ∨ StartsApart rest) :
    ∃ c cs, p.text.toList = c :: cs ∧
      leadingPiece c (cs ++ rest) (p.value?.toList ++ vs) = some (p, rest, vs) := by
  cases p with
  | word s =>
    simp only [Piece.isProper, Bool.and_eq_true, Bool.not_eq_true', List.isEmpty_eq_false_iff,
      List.all_eq_true] at hp
    obtain ⟨c, cs, hs⟩ := List.exists_cons_of_ne_nil hp.1
    have hword := leadingPiece_word vs (hs ▸ hp.2) (h.resolve_left Bool.false_ne_true)
    rw [← hs, String.ofList_toList] at hword
    exact ⟨c, cs, hs, hword⟩
  | sign s =>
    obtain ⟨c, cs, hs, hsign⟩ := leadingSign_text hp h
    refine ⟨c, cs, hs, ?_⟩
    unfold leadingPiece
    rw [hsign]
    rfl
  | space => exact ⟨' ', [], rfl, rfl⟩
  | bound v => exact ⟨'?', [], by simp [Piece.text], rfl⟩
  | name s =>
    have hrest := head?_ne_of_startsApart (h.resolve_left Bool.false_ne_true) (c := '"') rfl
    have hquoted := quotedText_doubled s.toList hrest
    refine ⟨'"', (doubled '"' s).toList ++ ['"'], ?_, ?_⟩
    · simp [Piece.text, String.toList_append]
    · rw [leadingPiece_name, toList_doubled, List.append_assoc, List.singleton_append, hquoted]
      simp [Piece.value?]
  | literal s =>
    have hrest := head?_ne_of_startsApart (h.resolve_left Bool.false_ne_true) (c := '\'') rfl
    have hquoted := quotedText_doubled s.toList hrest
    refine ⟨'\'', (doubled '\'' s).toList ++ ['\''], ?_, ?_⟩
    · simp [Piece.text, String.toList_append]
    · rw [leadingPiece_literal, toList_doubled, List.append_assoc, List.singleton_append, hquoted]
      simp [Piece.value?]

theorem lex_of_leadingPiece {c : Char} {cs rest : List Char} {vs vs' : List Value} {p : Piece}
    (h : leadingPiece c cs vs = some (p, rest, vs')) :
    lex (c :: cs) vs = (lex rest vs').map (p :: ·) := by
  rw [lex]
  split
  · rename_i heq
    rw [h] at heq
    cases heq
    rfl
  · rename_i heq
    rw [h] at heq
    cases heq

theorem textOf_cons (p : Piece) (ps : List Piece) : textOf (p :: ps) = p.text ++ textOf ps := by
  simp [textOf]

theorem startsApart_of_delimits {d : Piece} (hd : d.delimits = true) (ps : List Piece) :
    StartsApart (textOf (d :: ps)).toList := by
  rw [textOf_cons, String.toList_append]
  cases d with
  | space =>
    intro c hc
    cases hc
    rfl
  | sign s =>
    simp only [Piece.delimits, List.contains_iff_mem, List.mem_cons, List.not_mem_nil, or_false] at hd
    rcases hd with rfl | rfl | rfl | rfl | rfl <;>
    · intro c hc
      cases hc
      rfl
  | _ => cases hd

/-- The text of legible pieces, with their values, is cut into these pieces. -/
theorem lex_textOf {ps : List Piece} (h : Legible ps) :
    lex (textOf ps).toList (valuesOf ps) = some ps := by
  induction ps with
  | nil =>
    rw [show (textOf []).toList = [] from rfl, lex]
    rfl
  | cons p ps ih =>
    obtain ⟨hproper, hchain⟩ := h
    obtain ⟨happart, hchain⟩ := List.isChain_cons.mp hchain
    have hrest : p.delimits = true ∨ StartsApart (textOf ps).toList := by
      cases ps with
      | nil => exact .inr fun c hc => by cases hc
      | cons q qs => exact (happart q rfl).imp_right fun hq => startsApart_of_delimits hq qs
    obtain ⟨c, cs, htext, hleading⟩ :=
      leadingPiece_text (valuesOf ps) (hproper p List.mem_cons_self) hrest
    rw [textOf_cons, String.toList_append, htext, valuesOf_cons, List.cons_append,
      lex_of_leadingPiece hleading,
      ih ⟨fun q hq => hproper q (List.mem_cons_of_mem p hq), hchain⟩]
    rfl

end TrafficQuery.Sql
