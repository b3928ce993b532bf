import TrafficQuery.Json.Value
import TrafficQuery.Settings.Basic

namespace TrafficQuery
open Json

/-- The table names that a document has named so far. -/
structure NamedTables where
  requests : Option String := none
  responses : Option String := none
  headers : Option String := none

/-- Names that are missing keep their defaults. -/
def NamedTables.complete (t : NamedTables) : TableNames :=
  let default : TableNames := {}
  ⟨t.requests.getD default.requests, t.responses.getD default.responses,
    t.headers.getD default.headers⟩

/-- The settings that a document has made so far. -/
structure NamedSettings where
  tables : Option TableNames := none
  escapeWildcards : Option Bool := none

def NamedSettings.complete (s : NamedSettings) : Settings :=
  let default : Settings := {}
  ⟨s.tables.getD default.tables, s.escapeWildcards.getD default.escapeWildcards⟩

/-- A field that is read into a part of the state. -/
def fieldInto {σ α : Type} (name : String) (get : σ → Option α) (set : σ → α → σ)
    (read : ValueReader α) : RecordField σ :=
  ⟨name, fun s => (get s).isSome, fun s c => (read c).map fun (a, d) => (set s a, d)⟩

def TableNames.recordType : RecordType NamedTables :=
  ⟨"struct TableNames",
    [fieldInto "requests" (·.requests) (fun t s => { t with requests := some s }) readString,
      fieldInto "responses" (·.responses) (fun t s => { t with responses := some s }) readString,
      fieldInto "headers" (·.headers) (fun t s => { t with headers := some s }) readString]⟩

def TableNames.read : ValueReader TableNames := fun c =>
  (TableNames.recordType.read {} c).map fun (t, d) => (t.complete, d)

def Settings.recordType : RecordType NamedSettings :=
  ⟨"struct CompilerConfig",
    [fieldInto "tables" (·.tables) (fun s t => { s with tables := some t }) TableNames.read,
      fieldInto "escape_like_wildcards" (·.escapeWildcards)
        (fun s b => { s with escapeWildcards := some b }) readBool]⟩

def Settings.read : ValueReader Settings := fun c =>
  (Settings.recordType.read {} c).map fun (s, d) => (s.complete, d)

/-- The settings that a document makes. -/
def Settings.ofDocument (document : String) : Except Failure Settings :=
  readDocument Settings.read document

/-- A document that makes the settings. -/
def Settings.toDocument (s : Settings) : String :=
  "\x7b\"tables\":\x7b\"requests\":" ++ quote s.tables.requests ++
    ",\"responses\":" ++ quote s.tables.responses ++
    ",\"headers\":" ++ quote s.tables.headers ++
    "\x7d,\"escape_like_wildcards\":" ++ toString s.escapeWildcards ++ "\x7d"

end TrafficQuery
