namespace TrafficQuery.Text

/-- Whether a character lies in one of some ranges. They are given as first and last numbers, in
ascending order, so that the search ends at the first range behind the character. -/
def inRanges : List (Nat × Nat) → Char → Bool
  | [], _ => false
  | (first, last) :: ranges, c => first ≤ c.toNat && (c.toNat ≤ last || inRanges ranges c)

end TrafficQuery.Text
