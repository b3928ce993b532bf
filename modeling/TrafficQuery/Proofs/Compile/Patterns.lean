import Mathlib.Data.List.Forall2
import Mathlib.Data.List.Infix
import TrafficQuery.Proofs.Compile.Values

/-!
# What a pattern finds

A pattern is read as a row of parts, and a text fits it if the text can be cut into pieces that fit the
parts. The pattern for the texts that contain a given one, with its signs escaped, is fit by those that
have the given text as a segment, and by no others.
-/

namespace TrafficQuery.Like

/-! ## Patterns -/

/-- What a pattern asks of the next characters of a text. -/
inductive Part
  | anything
  | anyone
  | exactly (c : Char)
  deriving DecidableEq, Repr

def Part.ofChar (c : Char) : Part :=
  if c = '%' then .anything else if c = '_' then .anyone else .exactly c

/-- The parts of a pattern. With escapes, the sign for them makes the character behind it stand for
itself, and nothing fits a pattern that ends in that sign. -/
def parts? (escaped : Bool) : List Char → Option (List Part)
  | [] => some []
  | c :: cs =>
    if escaped && c == escapeSign then
      match cs with
      | [] => none
      | d :: ds => (parts? escaped ds).map (.exactly d :: ·)
    else (parts? escaped cs).map (.ofChar c :: ·)

/-- Whether a text fits the parts of a pattern, where some characters are as good as others. -/
def fits (same : Char → Char → Bool) : List Part → List Char → Bool
  | [], t => t.isEmpty
  | .anything :: ps, t => t.tails.any (fits same ps)
  | .anyone :: ps, _ :: t => fits same ps t
  | .exactly c :: ps, d :: t => same c d && fits same ps t
  | _ :: _, [] => false

/-- Whether a text is like a pattern, with escapes in it or without. -/
def accepts (same : Char → Char → Bool) (escaped : Bool) (pattern text : String) : Bool :=
  match parts? escaped pattern.toList with
  | some ps => fits same ps text.toList
  | none => false

/-- Some characters of a text, one behind the other, are as good as those of another text. -/
def HasSegment (same : Char → Char → Bool) (v t : List Char) : Prop :=
  ∃ before segment after, t = before ++ segment ++ after ∧
    List.Forall₂ (fun c d => same c d = true) v segment

/-! ## Escaped texts -/

theorem Part.ofChar_of_not_isSpecial {c : Char} (h : ¬isSpecial c = true) :
    Part.ofChar c = .exactly c := by
  simp only [isSpecial, Bool.or_eq_true, beq_iff_eq, not_or] at h
  rw [ofChar, if_neg h.1.1, if_neg h.1.2]

theorem parts?_cons_escapeSign (c : Char) (cs : List Char) :
    parts? true (escapeSign :: c :: cs) = (parts? true cs).map (.exactly c :: ·) := rfl

theorem parts?_cons_of_ne {c : Char} (h : c ≠ escapeSign) (escaped : Bool) (cs : List Char) :
    parts? escaped (c :: cs) = (parts? escaped cs).map (.ofChar c :: ·) := by
  have hsign : (escaped && c == escapeSign) = false := by rw [beq_false_of_ne h, Bool.and_false]
  rw [parts?.eq_def]
  exact if_neg (ne_true_of_eq_false hsign)

/-- Every character of an escaped text stands for itself, and what follows is read as it would be
alone. -/
theorem parts?_escape_append (v cs : List Char) :
    parts? true (escape v ++ cs) = (parts? true cs).map (v.map .exactly ++ ·) := by
  induction v with
  | nil => exact Option.map_id'.symm
  | cons c v ih =>
    rw [escape_cons, List.append_assoc]
    by_cases h : isSpecial c = true
    · rw [if_pos h, List.cons_append, List.singleton_append, parts?_cons_escapeSign, ih, Option.map_map]
      rfl
    · have hsign : c ≠ escapeSign := by
        rintro rfl
        exact h rfl
      rw [if_neg h, List.singleton_append, parts?_cons_of_ne hsign, Part.ofChar_of_not_isSpecial h, ih,
        Option.map_map]
      rfl

theorem parts?_containing (v : String) : parts? true (containing true v).toList =
    some (.anything :: v.toList.map .exactly ++ [.anything]) := by
  have hfirst : ('%' : Char) ≠ escapeSign := by decide
  rw [containing, if_pos rfl, String.toList_ofList, List.cons_append, parts?_cons_of_ne hfirst,
    parts?_escape_append]
  rfl

/-! ## Texts that fit -/

variable {same : Char → Char → Bool} {ps : List Part} {t : List Char}

theorem fits_anything_iff : fits same (.anything :: ps) t = true ↔
    ∃ before rest, t = before ++ rest ∧ fits same ps rest = true := by
  rw [fits, List.any_eq_true]
  constructor
  · rintro ⟨rest, hrest, h⟩
    obtain ⟨before, rfl⟩ := (List.mem_tails _ _).mp hrest
    exact ⟨before, rest, rfl, h⟩
  · rintro ⟨before, rest, rfl, h⟩
    exact ⟨rest, (List.mem_tails _ _).mpr (List.suffix_append before rest), h⟩

theorem fits_exactly_iff {c : Char} : fits same (.exactly c :: ps) t = true ↔
    ∃ d rest, t = d :: rest ∧ same c d = true ∧ fits same ps rest = true := by
  cases t with
  | nil => simp [fits]
  | cons d t => simp [fits]

theorem fits_map_exactly_append_iff (v : List Char) :
    fits same (v.map .exactly ++ ps) t = true ↔ ∃ segment rest, t = segment ++ rest ∧
      List.Forall₂ (fun c d => same c d = true) v segment ∧ fits same ps rest = true := by
  induction v generalizing t with
  | nil =>
    constructor
    · intro h
      exact ⟨[], t, rfl, .nil, h⟩
    · rintro ⟨_, rest, rfl, ⟨⟩, h⟩
      exact h
  | cons c v ih =>
    rw [List.map_cons, List.cons_append, fits_exactly_iff]
    constructor
    · rintro ⟨d, rest, rfl, hd, h⟩
      obtain ⟨segment, rest, rfl, hsegment, h⟩ := ih.mp h
      exact ⟨d :: segment, rest, rfl, .cons hd hsegment, h⟩
    · rintro ⟨_, rest, rfl, _ | ⟨hd, hsegment⟩, h⟩
      exact ⟨_, _, rfl, hd, ih.mpr ⟨_, rest, rfl, hsegment, h⟩⟩

theorem fits_anything : fits same [.anything] t = true :=
  fits_anything_iff.mpr ⟨t, [], (List.append_nil t).symm, rfl⟩

theorem accepts_containing_iff (same : Char → Char → Bool) (v t : String) :
    accepts same true (containing true v) t = true ↔ HasSegment same v.toList t.toList := by
  rw [accepts, parts?_containing]
  change fits same (.anything :: (v.toList.map .exactly ++ [.anything])) t.toList = true ↔ _
  rw [fits_anything_iff]
  constructor
  · rintro ⟨before, rest, hrest, h⟩
    obtain ⟨segment, after, rfl, hsegment, -⟩ := (fits_map_exactly_append_iff v.toList).mp h
    exact ⟨before, segment, after, by rw [hrest, List.append_assoc], hsegment⟩
  · rintro ⟨before, segment, after, ht, hsegment⟩
    refine ⟨before, segment ++ after, by rw [ht, List.append_assoc], ?_⟩
    exact (fits_map_exactly_append_iff v.toList).mpr ⟨segment, after, rfl, hsegment, fits_anything⟩

/-! ## Compiled patterns -/

/-- With escapes, a text is searched for with a pattern whose only wildcards are its first and its last
sign, and a column is like that pattern when it has the text as a segment, whichever characters are as
good as others. A search without regard to case looks for the lower case in the lower case. -/
theorem pattern_finds_segment (s : Settings) (hs : s.escapeWildcards = true) (v : String) :
    (∀ column, Compile.contains s column v = .like column (Test.operand s v .contains) true ∧
      Compile.textTest s column v .icontains =
        .like (.lower column) (Test.operand s v .icontains) true) ∧
    parts? true (Test.operand s v .contains).toList =
      some (.anything :: v.toList.map .exactly ++ [.anything]) ∧
    parts? true (Test.operand s v .icontains).toList =
      some (.anything :: (Text.lower v).toList.map .exactly ++ [.anything]) ∧
    ∀ (same : Char → Char → Bool) (t : String),
      (accepts same true (Test.operand s v .contains) t = true ↔ HasSegment same v.toList t.toList) ∧
      (accepts same true (Test.operand s v .icontains) (Text.lower t) = true ↔
        HasSegment same (Text.lower v).toList (Text.lower t).toList) := by
  have hcontains : Test.operand s v .contains = containing true v := by rw [Test.operand, hs]
  have hicontains : Test.operand s v .icontains = containing true (Text.lower v) := by
    rw [Test.operand, hs]
  rw [hcontains, hicontains]
  refine ⟨fun column => ⟨?_, ?_⟩, parts?_containing v, parts?_containing (Text.lower v), fun same t => ?_⟩
  · rw [Compile.contains, hs]
  · rw [Compile.textTest, Compile.contains, hs]
  · exact ⟨accepts_containing_iff same v t, accepts_containing_iff same (Text.lower v) (Text.lower t)⟩

/-- A search that does not see the case of ASCII letters finds a text full of signs, and takes none of
them for a wildcard. -/
theorem pattern_finds_segment_signs : ({} : Settings).escapeWildcards = true ∧
    Test.operand {} "50%_Off!" .contains = "%50!%!_Off!!%" ∧
    accepts (fun c d => c.toLower == d.toLower) true "%50!%!_Off!!%" "now 50%_OFF!!" = true ∧
    ¬accepts (fun c d => c.toLower == d.toLower) true "%50!%!_Off!!%" "now 50% off!" = true := by
  have hs : ({} : Settings).escapeWildcards = true := rfl
  have hoperand : Test.operand {} "50%_Off!" .contains = "%50!%!_Off!!%" := by decide +kernel
  obtain ⟨-, -, -, hfinds⟩ := pattern_finds_segment {} hs "50%_Off!"
  have hsame := fun t => (hfinds (fun c d => c.toLower == d.toLower) t).1
  rw [hoperand] at hsame
  refine ⟨hs, hoperand, (hsame _).mpr ⟨"now ".toList, "50%_OFF!".toList, "!".toList, ?_, ?_⟩, ?_⟩
  · decide +kernel
  · decide +kernel
  · decide +kernel

end TrafficQuery.Like
