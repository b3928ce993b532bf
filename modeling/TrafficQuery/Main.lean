import TrafficQuery.Command.Run

open TrafficQuery TrafficQuery.Command

/-- What is found at a path. -/
def fileAt (path : String) : IO FileState := do
  try return .file (← IO.FS.readBinFile path)
  catch
    | .inappropriateType .. => return .directory
    | _ => return .missing

def main (arguments : List String) : IO UInt32 := do
  let i : Invocation := ⟨arguments, ← IO.getEnv "HTTPQL_CONFIG"⟩
  let file ← fileAt i.settingsPath
  let input ← if i.isInteractive then (← IO.getStdin).readBinToEnd else pure .empty
  let outcome := i.runOn file input
  IO.print outcome.output
  IO.eprint outcome.report
  return outcome.code.toUInt32
