namespace TrafficQuery.Text

/-- The characters with the Unicode property White_Space. -/
def isBlank (c : Char) : Bool :=
  let n := c.toNat
  (0x09 ≤ n && n ≤ 0x0D) || n == 0x20 || n == 0x85 || n == 0xA0 || n == 0x1680 ||
    (0x2000 ≤ n && n ≤ 0x200A) || n == 0x2028 || n == 0x2029 || n == 0x202F || n == 0x205F ||
    n == 0x3000

/-- Drops the blanks at the end. -/
def dropBlanksRight (cs : List Char) : List Char :=
  (cs.reverse.dropWhile isBlank).reverse

/-- Drops the blanks at both ends. -/
def trim (cs : List Char) : List Char :=
  dropBlanksRight (cs.dropWhile isBlank)

theorem isBlank_head_dropWhile {cs : List Char} {c : Char} {r : List Char}
    (h : cs.dropWhile isBlank = c :: r) : isBlank c = false := by
  have := List.head?_dropWhile_not isBlank cs
  simpa [h] using this

end TrafficQuery.Text
