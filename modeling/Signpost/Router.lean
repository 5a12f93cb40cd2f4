import Signpost.Definition
import Signpost.Exchange

namespace Signpost

structure RouteMatch where
  name : String
  route : Route

structure Router where
  routes : RouteTable

inductive Level
  | debug
  | info
  | warn
deriving DecidableEq, Repr

inductive Notice
  | notFound (method path : String)
  | matched (route method path : String)
deriving DecidableEq, Repr

namespace Notice

def message : Notice → String
  | .notFound method path => "Route not found for request: " ++ method ++ " " ++ path
  | .matched route method path =>
      "Route \"" ++ route ++ "\" matched for request: " ++ method ++ " " ++ path

def level : Notice → Level
  | .notFound _ _ => .warn
  | .matched _ _ _ => .info

end Notice

structure Handled where
  found : Option RouteMatch
  notices : List Notice
  exchange : Exchange

namespace Router

def empty : Router := ⟨OrderedMap.empty⟩

def add (router : Router) (name : String) (route : Route) : Option Route × Router :=
  let (replaced, routes) := router.routes.put name route
  (replaced, ⟨routes⟩)

/-- Builds the routes in order, each under its name, and stops at the first that fails. -/
def define (table : RouteTable) : List Definition → Except RoutingError RouteTable
  | [] => .ok table
  | definition :: rest => do
      let route ← definition.draft.build
      define (table.insert definition.name route) rest

def ofDefinitions (definitions : List Definition) : Except RoutingError Router := do
  let table ← define OrderedMap.empty definitions
  pure ⟨table⟩

/-- The first route in order of priority that matches a path decides about it. -/
def firstMatch? (path : String) : List (String × Route) → Option RouteMatch
  | [] => none
  | (name, route) :: rest =>
      match route.matchPath? path with
      | some matched => some ⟨name, matched⟩
      | none => firstMatch? path rest

def findByPath? (router : Router) (path : String) : Option RouteMatch :=
  firstMatch? path router.routes.toList

def install (found : RouteMatch) (exchange : Exchange) : Exchange :=
  { action := some found.route.action
    args := exchange.args.merge found.route.args
    query := exchange.query.merge found.route.values
    route := some found.name }

/-- Resolves a request.  An exchange that already has an action stays as it is. -/
def handle (router : Router) (method path : String) (exchange : Exchange) : Handled :=
  if exchange.action.isSome then ⟨none, [], exchange⟩
  else
    match router.findByPath? path with
    | none => ⟨none, [.notFound method path], exchange⟩
    | some found =>
        ⟨some found, [.matched found.name method path], install found exchange⟩

structure Call where
  method : String
  path : String
  logged : Bool

def answer (router : Router) (exchange : Exchange) (call : Call) : Handled :=
  let handled := router.handle call.method call.path exchange
  { handled with notices := if call.logged then handled.notices else [] }

def serve (router : Router) : Exchange → List Call → List Handled
  | _, [] => []
  | exchange, call :: rest =>
      let handled := router.answer exchange call
      handled :: router.serve handled.exchange rest

/-- The registered route that was matched for an exchange. -/
def currentRoute? (router : Router) (exchange : Exchange) : Option Route := do
  let name ← exchange.route
  router.routes.get? name

def uri (router : Router) (name : String) (params : Params) :
    Except RoutingError String := do
  let route ← router.routes.find name
  route.uriFor name params

end Router

end Signpost
