namespace TrafficQuery

/-- A captured exchange is a request and its response. -/
inductive Side
  | request | response
  deriving DecidableEq, Repr, Inhabited

/-- What a condition looks at. -/
inductive Field
  | timestamp
  | id
  | method
  | path
  | status
  | header (side : Side)
  | body (side : Side)
  | raw (side : Side)
  deriving DecidableEq, Repr, Inhabited

def Side.qualified (name : String) : Side → String
  | .request => name
  | .response => "resp." ++ name

/-- The field as it is written in a query. -/
def Field.label : Field → String
  | .timestamp => "timestamp"
  | .id => "id"
  | .method => "method"
  | .path => "path"
  | .status => Side.response.qualified "status"
  | .header s => s.qualified "header"
  | .body s => s.qualified "body"
  | .raw s => s.qualified "raw"

end TrafficQuery
