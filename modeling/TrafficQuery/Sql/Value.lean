namespace TrafficQuery.Sql

/-- The types that a bound value can have. -/
inductive ValueType
  | string | bigInt | int | bool
  deriving DecidableEq, Repr, Inhabited

def ValueType.name : ValueType → String
  | .string => "String"
  | .bigInt => "BigInt"
  | .int => "Int"
  | .bool => "Bool"

/-- A value bound to a placeholder. -/
inductive Value
  | string (text : String)
  | bigInt (value : Int)
  | int (value : Int)
  | bool (value : Bool)
  | null (type : ValueType)
  deriving DecidableEq, Repr, Inhabited

end TrafficQuery.Sql
