import TrafficQuery.Text.Mark
import TrafficQuery.Text.Hidden

namespace TrafficQuery.Text

/-- Whether a character is shown by its number. -/
def isInvisible (c : Char) : Bool := isMark c || inRanges hiddenRanges c

/-- A character of a text that is shown on one line. -/
def visible (c : Char) : List Char :=
  match c with
  | '\x00' => ['\\', '0']
  | '\t' => ['\\', 't']
  | '\r' => ['\\', 'r']
  | '\n' => ['\\', 'n']
  | '"' => ['\\', '"']
  | '\\' => ['\\', '\\']
  | c =>
    if isInvisible c then
      '\\' :: 'u' :: '\x7b' :: Nat.toDigits 16 c.toNat ++ ['\x7d']
    else [c]

/-- A text in double quotes that shows every character. -/
def shown (cs : List Char) : String :=
  String.ofList ('"' :: cs.flatMap visible ++ ['"'])

end TrafficQuery.Text
