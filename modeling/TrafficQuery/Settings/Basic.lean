namespace TrafficQuery

/-- The tables that hold the captured exchanges. -/
structure TableNames where
  requests : String := "requests"
  responses : String := "responses"
  headers : String := "headers"
  deriving DecidableEq, Repr, Inhabited

/-- What a query is compiled with. -/
structure Settings where
  tables : TableNames := {}
  /-- Whether the wildcards of a searched text stand for themselves. -/
  escapeWildcards : Bool := true
  deriving DecidableEq, Repr, Inhabited

end TrafficQuery
