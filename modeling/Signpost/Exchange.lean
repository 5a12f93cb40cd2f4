import Signpost.Params

namespace Signpost

/-- What is known about one request while it is being routed. -/
structure Exchange where
  action : Option String := none
  args : Params := OrderedMap.empty
  query : Params := OrderedMap.empty
  route : Option String := none
deriving DecidableEq

namespace Exchange

def empty : Exchange := {}

def ofQuery (query : Params) : Exchange := { query := query }

def members (exchange : Exchange) : List (String × Node) :=
  [("action", (exchange.action.map Node.ofText).getD .null),
    ("args", Params.node exchange.args),
    ("query", Params.node exchange.query),
    ("route", (exchange.route.map Node.ofText).getD .null)]

def node (exchange : Exchange) : Node := .ofMembers exchange.members

end Exchange

end Signpost
