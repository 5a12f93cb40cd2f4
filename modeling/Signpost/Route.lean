import Signpost.Form
import Signpost.Pattern

namespace Signpost

structure Route where
  pattern : Pattern
  constraints : Params
  values : Params
  action : String
  args : Params

/-- What a route is made from.  The pattern is compiled once, when the draft is
complete. -/
structure RouteDraft where
  pattern : String
  action : String
  constraints : Params := OrderedMap.empty
  values : Params := OrderedMap.empty
  args : Params := OrderedMap.empty
deriving DecidableEq

namespace RouteDraft

def constrain (draft : RouteDraft) (name expression : String) : RouteDraft :=
  { draft with constraints := draft.constraints.insert name expression }

def withConstraints (draft : RouteDraft) (constraints : Params) : RouteDraft :=
  { draft with constraints := constraints }

def bind (draft : RouteDraft) (name value : String) : RouteDraft :=
  { draft with values := draft.values.insert name value }

def withValues (draft : RouteDraft) (values : Params) : RouteDraft :=
  { draft with values := values }

def arg (draft : RouteDraft) (name value : String) : RouteDraft :=
  { draft with args := draft.args.insert name value }

def withArgs (draft : RouteDraft) (args : Params) : RouteDraft :=
  { draft with args := args }

inductive Call
  | constrain (name expression : String)
  | withConstraints (constraints : Params)
  | bind (name value : String)
  | withValues (values : Params)
  | arg (name value : String)
  | withArgs (args : Params)

def call (draft : RouteDraft) : Call → RouteDraft
  | .constrain name expression => draft.constrain name expression
  | .withConstraints constraints => draft.withConstraints constraints
  | .bind name value => draft.bind name value
  | .withValues values => draft.withValues values
  | .arg name value => draft.arg name value
  | .withArgs args => draft.withArgs args

def ofCalls (pattern action : String) (calls : List Call) : RouteDraft :=
  calls.foldl call { pattern := pattern, action := action }

def build (draft : RouteDraft) : Except RoutingError Route := do
  let pattern ← Pattern.compile draft.pattern draft.constraints
  pure ⟨pattern, draft.constraints, draft.values, draft.action, draft.args⟩

end RouteDraft

namespace Route

instance : BEq Route where
  beq first second :=
    first.pattern == second.pattern && first.constraints == second.constraints &&
      first.values == second.values && first.action == second.action &&
      first.args == second.args

/-- The draft that a route could have been built from. -/
def draft (route : Route) : RouteDraft :=
  ⟨route.pattern.source, route.action, route.constraints, route.values, route.args⟩

/-- Changes are made in place step by step.  An error ends a change where it occurs. -/
abbrev Change := EStateM RoutingError Route

def Change.compile (source : String) (constraints : Params) : Change Pattern :=
  match Pattern.compile source constraints with
  | .ok pattern => pure pattern
  | .error cause => throw cause

def setPattern (source : String) : Change Unit := do
  let pattern ← Change.compile source (← get).constraints
  modify fun route => { route with pattern := pattern }

def setConstraints (constraints : Params) : Change Unit := do
  let pattern ← Change.compile (← get).pattern.source constraints
  modify fun route => { route with pattern := pattern }
  modify fun route => { route with constraints := constraints }

def setConstraint (name expression : String) : Change Unit := do
  setConstraints ((← get).constraints.insert name expression)

def setValue (name value : String) : Change Unit :=
  modify fun route => { route with values := route.values.insert name value }

/-- The route with the captured values laid over the bound ones, if it matches the path. -/
def matchPath? (route : Route) (path : String) : Option Route :=
  (route.pattern.captures? path).map fun captured =>
    { route with values := route.values.merge captured }

/-- Puts what a route becomes by matching the path in its place, if it matches. -/
def become (path : String) : Change Bool := do
  match (← get).matchPath? path with
  | some matched =>
      set matched
      pure true
  | none => pure false

inductive Operation
  | setPattern (source : String)
  | setConstraints (constraints : Params)
  | setConstraint (name expression : String)
  | setValue (name value : String)
  | become (path : String)

def Operation.change : Operation → Change Unit
  | .setPattern source => Route.setPattern source
  | .setConstraints constraints => Route.setConstraints constraints
  | .setConstraint name expression => Route.setConstraint name expression
  | .setValue name value => Route.setValue name value
  | .become path => discard (Route.become path)

def Change.left {α : Type} (change : Change α) (route : Route) : Route :=
  match change route with
  | .ok _ left => left
  | .error _ left => left

def after (route : Route) (operations : List Operation) : Route :=
  operations.foldl (fun route operation => operation.change.left route) route

/-- A parameter that fills a placeholder is used up; bound values stand in for missing
ones. -/
def fill (values : Params) : List Segment → Params → Except String (List Char × Params)
  | [], params => .ok ([], params)
  | .literal text :: rest, params => do
      let (filled, remaining) ← fill values rest params
      pure (text ++ filled, remaining)
  | .param name :: rest, params =>
      let key := String.ofList name
      match params.get? key with
      | some value => do
          let (filled, remaining) ← fill values rest (params.erase key)
          pure (value.toList ++ filled, remaining)
      | none =>
          match values.get? key with
          | some value => do
              let (filled, remaining) ← fill values rest params
              pure (value.toList ++ filled, remaining)
          | none => .error key

def query (remaining : Params) : List Char :=
  if remaining.isEmpty then [] else '?' :: Form.encodePairs remaining.toList

/-- The address of a route, which goes by the given name in an error. -/
def uriFor (route : Route) (label : String) (params : Params) :
    Except RoutingError String :=
  match fill route.values route.pattern.segments params with
  | .ok (path, remaining) => .ok (String.ofList (path ++ query remaining))
  | .error param => .error (.missingParameter label param)

def uri (route : Route) (params : Params) : Except RoutingError String :=
  route.uriFor route.pattern.source params

end Route

/-- Routes under names, in order of priority. -/
abbrev RouteTable := OrderedMap Route

namespace RouteTable

def find (table : RouteTable) (name : String) : Except RoutingError Route :=
  match table.get? name with
  | some route => .ok route
  | none => .error (.routeNotFound name)

inductive Operation
  | insert (name : String) (route : Route)
  | extend (pairs : List (String × Route))
  | collect (pairs : List (String × Route))
  | remove (name : String)

def change (table : RouteTable) : Operation → Option Route × RouteTable
  | .insert name route => table.put name route
  | .extend pairs => (none, table.insertMany pairs)
  | .collect pairs => (none, OrderedMap.ofList pairs)
  | .remove name => table.take name

def after (table : RouteTable) (operations : List Operation) : RouteTable :=
  operations.foldl (fun table operation => (change table operation).2) table

end RouteTable

end Signpost
