namespace TrafficQuery.Like

/-- The sign behind which a pattern character stands for itself. -/
def escapeSign : Char := '!'

/-- The characters that a pattern does not read as themselves. -/
def isSpecial (c : Char) : Bool := c == '%' || c == '_' || c == escapeSign

/-- A pattern part that matches the text alone. -/
def escape (cs : List Char) : List Char :=
  cs.flatMap fun c => if isSpecial c then [escapeSign, c] else [c]

/-- The pattern for the texts that contain a given one. -/
def containing (escaped : Bool) (s : String) : String :=
  String.ofList ('%' :: (if escaped then escape s.toList else s.toList) ++ ['%'])

theorem escape_cons (c : Char) (cs : List Char) :
    escape (c :: cs) = (if isSpecial c then [escapeSign, c] else [c]) ++ escape cs := rfl

end TrafficQuery.Like
