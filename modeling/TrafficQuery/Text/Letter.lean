namespace TrafficQuery.Text

/-- Lower-cases the ASCII letters and keeps every other character. -/
def lower (s : String) : String :=
  String.ofList (s.toList.map Char.toLower)

/-- Upper-cases the ASCII letters and keeps every other character. -/
def upper (s : String) : String :=
  String.ofList (s.toList.map Char.toUpper)

/-- The Kelvin sign is the one character outside ASCII whose lower case lies within ASCII. -/
def kelvinSign : Char := '\u212a'

/-- The lower case by which words are compared with ASCII patterns. Every other character outside
ASCII has a lower case outside ASCII, which no pattern holds, so it stands for itself. -/
def foldCase (c : Char) : Char :=
  if c = kelvinSign then 'k' else c.toLower

theorem toList_lower (s : String) : (lower s).toList = s.toList.map Char.toLower := by
  simp [lower]

end TrafficQuery.Text
