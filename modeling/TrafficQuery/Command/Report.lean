import TrafficQuery.Compile.Query
import TrafficQuery.Settings.File

namespace TrafficQuery.Command

/-- A failure: what could not be done, and why, each cause before that which it came from. -/
structure Report where
  failed : String
  causes : List String
  deriving DecidableEq, Repr

namespace Report

/-- The lines of a text behind the first are indented. -/
def indentLines (indent : String) (s : String) : String :=
  String.ofList (s.toList.flatMap fun c => if c = '\n' then '\n' :: indent.toList else [c])

def numberedCauses (number : Nat) : List String → List String
  | [] => []
  | c :: cs =>
    ("    " ++ toString number ++ ": " ++ indentLines "       " c) :: numberedCauses (number + 1) cs

/-- Several causes are numbered, and a single one is not. -/
def causeLines : List String → List String
  | [c] => ["    " ++ indentLines "    " c]
  | cs => numberedCauses 0 cs

def text (r : Report) : String :=
  "Error: " ++ r.failed ++
    (if r.causes.isEmpty then "" else "\n\nCaused by:\n" ++ "\n".intercalate (causeLines r.causes)) ++
    "\n"

/-- A report on one line. -/
def brief (r : Report) : String := ": ".intercalate (r.failed :: r.causes)

def ofQuery : QueryError → Report
  | .parse e => ⟨"parse failed", [e.message]⟩
  | .compile e => ⟨"compile failed", [e.message]⟩

/-- A line that cannot be read fails with the fault, which is its own cause. -/
def ofRead (f : ReadFault) : Report := ⟨f.message, [f.message]⟩

end Report
end TrafficQuery.Command
