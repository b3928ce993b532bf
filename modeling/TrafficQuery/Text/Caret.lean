import TrafficQuery.Text.Cursor

namespace TrafficQuery.Text

/-- The number of characters that lie before a byte, if a character ends there. -/
def charsBefore? : List Char → Nat → Option Nat
  | _, 0 => some 0
  | [], _ + 1 => none
  | c :: cs, n + 1 =>
    if c.utf8Size ≤ n + 1 then (charsBefore? cs (n + 1 - c.utf8Size)).map (· + 1) else none

/-- A line that points at the character of a byte. A byte inside a character, or behind the text,
counts as a column. -/
def caretLine (text : String) (position : Nat) : String :=
  let column := (charsBefore? text.toList position).getD position
  String.ofList (List.replicate column ' ' ++ ['^'])

theorem charsBefore?_append (as bs : List Char) :
    charsBefore? (as ++ bs) (byteLength as) = some as.length := by
  induction as with
  | nil => cases bs <;> rfl
  | cons c cs ih =>
    obtain ⟨m, hm⟩ : ∃ m, byteLength (c :: cs) = m + 1 := by
      have := c.utf8Size_pos
      exact ⟨byteLength (c :: cs) - 1, by rw [byteLength_cons]; omega⟩
    have hc : c.utf8Size ≤ m + 1 := by rw [← hm, byteLength_cons]; omega
    have hr : m + 1 - c.utf8Size = byteLength cs := by rw [← hm, byteLength_cons]; omega
    rw [hm, List.cons_append, charsBefore?, if_pos hc, hr, ih]
    rfl

end TrafficQuery.Text
