import TrafficQuery.Command.Interactive

namespace TrafficQuery.Command

/-- What the program is started with. -/
structure Invocation where
  arguments : List String
  /-- The path that the environment names for the settings. -/
  namedPath : Option String
  deriving DecidableEq, Repr

/-- What the program leaves behind. -/
structure Outcome where
  code : Nat
  output : String
  report : String
  deriving DecidableEq, Repr

namespace Invocation

def defaultPath : String := "httpql.json"

/-- The path of the settings file. -/
def settingsPath (i : Invocation) : String := i.namedPath.getD defaultPath

/-- A file that is not named may fail, and then the settings are the defaults. -/
def settings (i : Invocation) (file : FileState) : Except Report Settings :=
  match Settings.ofFile file, i.namedPath with
  | .ok s, _ => .ok s
  | .error f, some path => .error ⟨"loading config named by HTTPQL_CONFIG", f.causes path⟩
  | .error _, none => .ok {}

/-- The mode, and the words of a query. -/
def request (i : Invocation) : Mode × List String :=
  match i.arguments with
  | "--json" :: words => (.document, words)
  | words => (.text, words)

/-- Without a query the program reads one line after another. -/
def isInteractive (i : Invocation) : Bool := i.request.2.isEmpty

def failed (r : Report) : Outcome := ⟨1, "", r.text⟩

/-- Runs the program on the settings file and the bytes of the input, which only a dialogue reads. -/
def runOn (i : Invocation) (file : FileState) (input : ByteArray) : Outcome :=
  match i.settings file with
  | .error r => failed r
  | .ok s =>
    let (mode, words) := i.request
    if i.isInteractive then
      match dialogue s mode input with
      | (printed, none) => ⟨0, printed, ""⟩
      | (printed, some f) => ⟨1, printed, (Report.ofRead f).text⟩
    else match compileText s (" ".intercalate words) with
      | .ok statement => ⟨0, output statement mode, ""⟩
      | .error e => failed (.ofQuery e)

/-- Runs the program on an input that is text. -/
def run (i : Invocation) (file : FileState) (input : String) : Outcome := i.runOn file input.toUTF8

end Invocation
end TrafficQuery.Command
