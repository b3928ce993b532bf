import TrafficQuery.Sql.Statement
import TrafficQuery.ParseError

namespace TrafficQuery
open Sql

/-- Why a condition has no statement. A parsed one always has. -/
inductive CompileError
  | unknownOperator (field : Field) (op : OrderOp)
  deriving DecidableEq, Repr, Inhabited

def CompileError.message : CompileError → String
  | .unknownOperator f op => "unknown " ++ f.label ++ " operator: " ++ inQuotes op.symbol

namespace Compile

def contains (s : Settings) (term : Term) (text : String) : Expr :=
  .like term (Like.containing s.escapeWildcards text) s.escapeWildcards

def textTest (s : Settings) (term : Term) (text : String) : TextOp → Expr
  | .equals => .compare .eq term (.bound (.string text))
  | .contains => contains s term text
  | .icontains => contains s (.lower term) (Text.lower text)

/-- Header names are compared without regard to case. -/
def headerName (mark : Nat) (name : String) : Expr :=
  .compare .eq (.lower (.column (.header mark) .name)) (.lower (.bound (.string name)))

def headerTest (s : Settings) (mark : Nat) (name : String) : HeaderMatch → Expr
  | .present => headerName mark name
  | .value op text =>
    .binary .and (headerName mark name) (textTest s (.column (.header mark) .value) text op)

/-- One of several columns contains a text. -/
def anyContains (s : Settings) (first : Term) (others : List Term) (text : String) : Expr :=
  others.foldl (fun e term => .binary .or e (contains s term text)) (contains s first text)

def rawTest (s : Settings) (mark : Nat) (text : String) : Side → Expr
  | .request =>
    anyContains s (.column .request .url)
      [.column .request .method, .column .request .body, .column (.header mark) .value,
        .column (.header mark) .name] text
  | .response =>
    anyContains s (.column .response .body)
      [.column (.header mark) .value, .column (.header mark) .name] text

def test (s : Settings) : Test → Except CompileError Expr
  | .timestamp op ago => .ok (.compare op (.column .request .timestamp) (.ago ago))
  | .id .eq value => .ok (.compare .eq (.column .request .requestId) (.bound (.string value)))
  | .id op _ => .error (.unknownOperator .id op)
  | .method m => .ok (.compare .eq (.column .request .method) (.bound (.string m.word)))
  | .header _ mark name wanted => .ok (headerTest s mark name wanted)
  | .body side op text => .ok (textTest s (.column (sideTable side) .body) text op)
  | .path op text => .ok (textTest s (.column .request .url) text op)
  | .raw side mark text => .ok (rawTest s mark text side)
  | .status op value => .ok (.compare op (.column .response .statusCode) (.bound (.bigInt value)))

end Compile
end TrafficQuery
