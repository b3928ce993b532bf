import TrafficQuery.Command.Output
import TrafficQuery.Command.Report
import TrafficQuery.Text.Caret
import TrafficQuery.Text.Cluster

namespace TrafficQuery.Command
open Text

def banner : String :=
  "httpql: enter a query such as `query requests where method = GET`, or `exit`"

/-- A backspace takes away the cluster before it. It is a cluster of its own. -/
def applyBackspaces (cs : List Char) : List Char :=
  let step (typed : List (List Char)) (cluster : List Char) : List (List Char) :=
    if cluster = ['\x08'] then typed.tail else cluster :: typed
  ((clusters cs).foldl step []).reverse.flatten

/-- A line as it is understood. -/
def entered (cs : List Char) : String := String.ofList (trim (applyBackspaces cs))

/-- What a line of an input says, if it is text. -/
def entryOf? (bytes : List UInt8) : Option String :=
  (String.fromUTF8? bytes.toByteArray).map fun typed => entered typed.toList

def isLeaving (entry : String) : Bool := lower entry == "exit" || lower entry == "quit"

/-- The lines that say what is wrong with an entry. -/
def complaint (entry : String) (e : QueryError) : String :=
  (match e with
    | .parse e => line ("  " ++ entry) ++ line ("  " ++ caretLine entry e.position)
    | .compile _ => "") ++
  line ("error: " ++ (Report.ofQuery e).brief)

/-- What is printed for an entry. -/
def answer (s : Settings) (mode : Mode) (entry : String) : String :=
  if entry.isEmpty then ""
  else match compileText s entry with
    | .ok statement => output statement mode
    | .error e => complaint entry e

/-- What is printed for lines up to one that leaves, or up to one that cannot be read. -/
def answers (s : Settings) (mode : Mode) : List (List UInt8) → String × Option ReadFault
  | [] => ("", none)
  | l :: ls =>
    match entryOf? l with
    | none => ("", some .notUtf8)
    | some entry =>
      if isLeaving entry then ("", none)
      else
        let later := answers s mode ls
        (answer s mode entry ++ later.1, later.2)

/-- All that is printed for an input, and why it is not read to its end. -/
def dialogue (s : Settings) (mode : Mode) (input : ByteArray) : String × Option ReadFault :=
  let printed := answers s mode (input.data.toList.splitOn '\n'.toUInt8)
  (line banner ++ printed.1, printed.2)

end TrafficQuery.Command
