import TrafficQuery.Text.Blank

namespace TrafficQuery.Text

/-- The number of bytes the characters take in UTF-8. -/
def byteLength (cs : List Char) : Nat :=
  cs.foldr (fun c n => c.utf8Size + n) 0

@[simp] theorem byteLength_nil : byteLength [] = 0 := rfl

@[simp] theorem byteLength_cons (c : Char) (cs : List Char) :
    byteLength (c :: cs) = c.utf8Size + byteLength cs := rfl

@[simp] theorem byteLength_append (as bs : List Char) :
    byteLength (as ++ bs) = byteLength as + byteLength bs := by
  induction as with
  | nil => simp
  | cons c cs ih => simp [ih, Nat.add_assoc]

/-- A place in a text: the bytes before it and the characters after it. -/
structure Cursor where
  offset : Nat
  rest : List Char
  deriving DecidableEq, Repr, Inhabited

namespace Cursor

def start (text : String) : Cursor := ⟨0, text.toList⟩

/-- The place `taken` further on, where `rest` is left. -/
def past (c : Cursor) (taken rest : List Char) : Cursor :=
  ⟨c.offset + byteLength taken, rest⟩

/-- The place behind the characters of a class. -/
def skipWhile (p : Char → Bool) (c : Cursor) : Cursor :=
  c.past (c.rest.takeWhile p) (c.rest.dropWhile p)

def skipBlanks (c : Cursor) : Cursor := c.skipWhile isBlank

theorem length_skipWhile_le (p : Char → Bool) (c : Cursor) :
    (c.skipWhile p).rest.length ≤ c.rest.length :=
  (List.dropWhile_suffix p).length_le

/-- A place with fewer characters after it. -/
structure After (c : Cursor) where
  cursor : Cursor
  shorter : cursor.rest.length < c.rest.length

/-- A place behind a later place. -/
def After.andThen {c : Cursor} (d : c.After) (e : d.cursor.After) : c.After :=
  ⟨e.cursor, Nat.lt_trans e.shorter d.shorter⟩

theorem After.le {c : Cursor} (d : c.After) : d.cursor.rest.length ≤ c.rest.length :=
  Nat.le_of_lt d.shorter

/-- A place behind a place that is not earlier. -/
def After.within {c o : Cursor} (d : c.After) (h : c.rest.length ≤ o.rest.length) : o.After :=
  ⟨d.cursor, Nat.lt_of_lt_of_le d.shorter h⟩

/-- The next character and the place behind it. -/
def next? (c : Cursor) : Option (Char × c.After) :=
  match h : c.rest with
  | [] => none
  | x :: r => some (x, ⟨c.past [x] r, by simp [past, h]⟩)

end Cursor
end TrafficQuery.Text
