import Mathlib.Data.List.Forall2
import TrafficQuery.Text.Cursor
import TrafficQuery.Text.Letter

/-!
# The case of letters

Two characters are the same letter when they have one lower case within ASCII. What a function gives for
each of the 26 letters in either case it gives for the same letters everywhere.
-/

namespace TrafficQuery.Text

/-- The same character, but for the case of a letter of ASCII. -/
def SameLetter (c d : Char) : Prop := c.toLower = d.toLower

/-- A capital letter by its number. -/
def capital (n : Fin 26) : Char := Char.ofNat (n + 65)

theorem exists_capital_of_isUpper {c : Char} (h : c.isUpper = true) : ∃ n, c = capital n := by
  obtain ⟨hlow, hhigh⟩ := of_decide_eq_true h
  rw [ge_iff_le, UInt32.le_iff_toNat_le] at hlow
  rw [UInt32.le_iff_toNat_le] at hhigh
  change 65 ≤ c.toNat at hlow
  change c.toNat ≤ 90 at hhigh
  refine ⟨⟨c.toNat - 65, by omega⟩, ?_⟩
  have hnumber : c.toNat - 65 + 65 = c.toNat := by omega
  rw [capital, hnumber, Char.ofNat_toNat]

theorem toLower_eq_of_not_isUpper {c : Char} (h : ¬c.isUpper = true) : c.toLower = c := by
  have hrange : ¬(c.val ≥ 'A'.val ∧ c.val ≤ 'Z'.val) := fun hc => h (decide_eq_true hc)
  exact dif_neg hrange

/-- What is the same for each capital and its small letter does not depend on case. -/
theorem apply_toLower {α : Type} {f : Char → α} (h : ∀ n, f (capital n).toLower = f (capital n))
    (c : Char) : f c.toLower = f c := by
  by_cases hc : c.isUpper = true
  · obtain ⟨n, rfl⟩ := exists_capital_of_isUpper hc
    exact h n
  · rw [toLower_eq_of_not_isUpper hc]

namespace SameLetter
variable {c d : Char}

theorem apply_eq {α : Type} {f : Char → α} (h : SameLetter c d)
    (hf : ∀ n, f (capital n).toLower = f (capital n)) : f c = f d := by
  rw [← apply_toLower hf c, ← apply_toLower hf d, h]

theorem isBlank_eq (h : SameLetter c d) : isBlank c = isBlank d := h.apply_eq (by decide)

theorem utf8Size_eq (h : SameLetter c d) : c.utf8Size = d.utf8Size := h.apply_eq (by decide)

theorem foldCase_eq (h : SameLetter c d) : foldCase c = foldCase d := h.apply_eq (by decide)

/-- A character of a class without letters has no case. -/
theorem eq_of_class {p : Char → Bool} (h : SameLetter c d) (hc : p c = true)
    (hp : ∀ n, p (capital n) = false ∧ p (capital n).toLower = false) : d = c := by
  have hnone (n : Fin 26) : (if p (capital n).toLower then some (capital n).toLower else none) =
      if p (capital n) then some (capital n) else none := by
    rw [(hp n).1, (hp n).2]
    rfl
  have hsome := h.apply_eq (f := fun c => if p c then some c else none) hnone
  simp only [hc, if_true] at hsome
  split at hsome
  · exact (Option.some.inj hsome).symm
  · cases hsome

end SameLetter

/-! ## Texts -/

/-- The same characters, but for the case of letters. -/
abbrev SameLetters : List Char → List Char → Prop := List.Forall₂ SameLetter

namespace SameLetters
variable {cs ds : List Char}

theorem of_map_eq (h : cs.map Char.toLower = ds.map Char.toLower) : SameLetters cs ds := by
  rw [← List.forall₂_eq_eq_eq, List.forall₂_map_left_iff, List.forall₂_map_right_iff] at h
  exact h

theorem map_eq {α : Type} {f : Char → α} (h : SameLetters cs ds)
    (hf : ∀ {c d : Char}, SameLetter c d → f c = f d) : cs.map f = ds.map f := by
  induction h with
  | nil => rfl
  | cons hc _ ih => rw [List.map_cons, List.map_cons, hf hc, ih]

theorem byteLength_eq (h : SameLetters cs ds) : byteLength cs = byteLength ds := by
  induction h with
  | nil => rfl
  | cons hc _ ih => rw [byteLength_cons, byteLength_cons, hc.utf8Size_eq, ih]

theorem takeWhile {p : Char → Bool} (h : SameLetters cs ds)
    (hp : ∀ {c d : Char}, SameLetter c d → p c = p d) :
    SameLetters (cs.takeWhile p) (ds.takeWhile p) := by
  induction h with
  | nil => exact .nil
  | @cons c d cs ds hc _ ih =>
    rw [List.takeWhile_cons, List.takeWhile_cons, ← hp hc]
    cases p c with
    | true => exact .cons hc ih
    | false => exact .nil

theorem lower_eq (h : SameLetters cs ds) :
    lower (String.ofList cs) = lower (String.ofList ds) := by
  simp only [lower, String.toList_ofList, h.map_eq fun hc => hc]

end SameLetters

theorem upper_eq_of_lower_eq {s t : String} (h : lower s = lower t) : upper s = upper t := by
  have hupper (c : Char) : c.toLower.toUpper = c.toUpper :=
    apply_toLower (f := Char.toUpper) (by decide) c
  have hlower : (lower s).toList.map Char.toUpper = (lower t).toList.map Char.toUpper := by rw [h]
  simp only [toList_lower, List.map_map, Function.comp_def, hupper] at hlower
  rw [upper, upper, hlower]

end TrafficQuery.Text
