import TrafficQuery.Text.Letter

namespace TrafficQuery

/-- The request methods that a query can name. -/
inductive Method
  | get | post | put | patch | delete | connect | head | option
  deriving DecidableEq, Repr, Inhabited

namespace Method

def word : Method → String
  | .get => "GET"
  | .post => "POST"
  | .put => "PUT"
  | .patch => "PATCH"
  | .delete => "DELETE"
  | .connect => "CONNECT"
  | .head => "HEAD"
  | .option => "OPTION"

def all : List Method := [.get, .post, .put, .patch, .delete, .connect, .head, .option]

/-- The method that a text names in any case of its ASCII letters. -/
def ofText? (s : String) : Option Method := all.find? fun m => m.word == Text.upper s

end Method
end TrafficQuery
