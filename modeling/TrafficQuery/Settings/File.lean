import TrafficQuery.Settings.Document

namespace TrafficQuery

/-- What is found at the path of a settings file. -/
inductive FileState
  | missing
  | directory
  | file (content : ByteArray)

/-- Why a file that exists cannot be read. -/
inductive ReadFault
  | isDirectory
  | notUtf8
  deriving DecidableEq, Repr

def ReadFault.message : ReadFault → String
  | .isDirectory => "Is a directory (os error 21)"
  | .notUtf8 => "stream did not contain valid UTF-8"

/-- Why a file makes no settings. -/
inductive SettingsFault
  | notFound
  | unreadable (fault : ReadFault)
  | malformed (message : String)
  deriving DecidableEq, Repr

/-- What went wrong with the file at a path, and what that came from. -/
def SettingsFault.causes (path : String) : SettingsFault → List String
  | .notFound => ["config file does not exist: " ++ path]
  | .unreadable f => ["cannot read config file " ++ path ++ ": " ++ f.message, f.message]
  | .malformed m => ["cannot parse config file " ++ path ++ ": " ++ m, m]

/-- The settings that a file makes. -/
def Settings.ofFile : FileState → Except SettingsFault Settings
  | .missing => .error .notFound
  | .directory => .error (.unreadable .isDirectory)
  | .file content =>
    match String.fromUTF8? content with
    | none => .error (.unreadable .notUtf8)
    | some document =>
      match Settings.ofDocument document with
      | .ok s => .ok s
      | .error f => .error (.malformed (f.message document))

end TrafficQuery
