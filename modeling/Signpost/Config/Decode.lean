import Signpost.Config.Basic
import Signpost.Config.Scalar

namespace Signpost

/-- How a notation differs from others: the form of numbers in messages, and whether an
array may have elements beyond the fields of a record. -/
structure Dialect where
  writing : Writing
  extraElements : Bool

namespace Dialect

def json : Dialect := ⟨.scientific, false⟩

def toml : Dialect := ⟨.pointed, true⟩

end Dialect

namespace Decode

variable {α : Type}

/-- Puts the value of a field into the slots for what has been read. -/
abbrev Step (slots : Type) := slots → String → Node → Decoded slots

def skip (slots : α) (node : Node) : Decoded α :=
  if node.isWhole then .ok slots else .error .malformed

def once (field : String) (slot : Option α) (decode : Node → Decoded α) (node : Node) :
    Decoded (Option α) :=
  if slot.isSome then .error (.duplicate field)
  else (decode node).map some

def members (step : Step α) (slots : α) : MemberSeq → Decoded α
  | .nil => .ok slots
  | .fault => .error .malformed
  | .cons name value tail => do
      let name ← key name
      let slots ← step slots name value
      members step slots tail

def leftover (dialect : Dialect) (slots : α) : NodeSeq → Decoded α
  | .nil => .ok slots
  | .fault => .error .malformed
  | .cons _ _ => if dialect.extraElements then .ok slots else .error .malformed

/-- The first elements as the fields of the given names; the result counts them. -/
def elements (dialect : Dialect) (step : Step α) (slots : α) :
    List String → NodeSeq → Decoded (α × Nat)
  | [], rest => do
      let slots ← leftover dialect slots rest
      pure (slots, 0)
  | _ :: _, .nil => .ok (slots, 0)
  | _ :: _, .fault => .error .malformed
  | name :: names, .cons head tail => do
      let slots ← step slots name head
      let (slots, count) ← elements dialect step slots names tail
      pure (slots, count + 1)

/-- A record is read from an object, in any order of its members, or from an array of its
values in the order in which the fields are declared; these are counted.  Unknown members
are passed over.  What the text says first decides about the mismatch. -/
def record (dialect : Dialect) (name : String) (fields : List String) (step : Step α)
    (slots : α) : Node → Decoded (α × Option Nat)
  | .object body => do
      let slots ← members step slots body
      pure (slots, none)
  | .array body => do
      let (slots, count) ← elements dialect step slots fields body
      pure (slots, some count)
  | node => .error (.ofNode (.record name) node)

structure ServerSlots where
  bindAddress : Option String := none
  requestTimeout : Option UInt64 := none

def serverStep : Step ServerSlots := fun slots field node =>
  match field with
  | "bind_address" => do
      let value ← once field slots.bindAddress text node
      pure { slots with bindAddress := value }
  | "request_timeout_secs" => do
      let value ← once field slots.requestTimeout word node
      pure { slots with requestTimeout := value }
  | _ => skip slots node

def serverFields : List String := ["bind_address", "request_timeout_secs"]

def ServerSlots.finish (slots : ServerSlots) : ServerConfig :=
  let default : ServerConfig := {}
  ⟨slots.bindAddress.getD default.bindAddress,
    slots.requestTimeout.getD default.requestTimeout⟩

def server (dialect : Dialect) (node : Node) : Decoded ServerConfig := do
  let (slots, _) ← record dialect "ServerConfig" serverFields serverStep {} node
  pure slots.finish

structure ObservabilitySlots where
  logLevel : Option String := none
  json : Option Bool := none

def observabilityStep : Step ObservabilitySlots := fun slots field node =>
  match field with
  | "log_level" => do
      let value ← once field slots.logLevel text node
      pure { slots with logLevel := value }
  | "json" => do
      let value ← once field slots.json bool node
      pure { slots with json := value }
  | _ => skip slots node

def observabilityFields : List String := ["log_level", "json"]

def ObservabilitySlots.finish (slots : ObservabilitySlots) : ObservabilityConfig :=
  let default : ObservabilityConfig := {}
  ⟨slots.logLevel.getD default.logLevel, slots.json.getD default.json⟩

def observability (dialect : Dialect) (node : Node) : Decoded ObservabilityConfig := do
  let (slots, _) ←
    record dialect "ObservabilityConfig" observabilityFields observabilityStep {} node
  pure slots.finish

structure RouteSlots where
  name : Option String := none
  pattern : Option String := none
  action : Option String := none
  constraints : Option Params := none
  values : Option Params := none
  args : Option Params := none

def routeStep : Step RouteSlots := fun slots field node =>
  match field with
  | "name" => do
      let value ← once field slots.name text node
      pure { slots with name := value }
  | "pattern" => do
      let value ← once field slots.pattern text node
      pure { slots with pattern := value }
  | "action" => do
      let value ← once field slots.action text node
      pure { slots with action := value }
  | "constraints" => do
      let value ← once field slots.constraints params node
      pure { slots with constraints := value }
  | "defaults" => do
      let value ← once field slots.values params node
      pure { slots with values := value }
  | "args" => do
      let value ← once field slots.args params node
      pure { slots with args := value }
  | _ => skip slots node

def routeRecord : String := "RouteConfig"

def routeFields : List String :=
  ["name", "pattern", "action", "constraints", "defaults", "args"]

def need (count : Option Nat) (field : String) : Option α → Decoded α
  | some value => .ok value
  | none =>
      match count with
      | some elements => .error (.wrongLength elements routeRecord routeFields.length)
      | none => .error (.missing field)

def RouteSlots.finish (slots : RouteSlots) (count : Option Nat) : Decoded Definition := do
  let name ← need count "name" slots.name
  let pattern ← need count "pattern" slots.pattern
  let action ← need count "action" slots.action
  pure ⟨name, pattern, action, slots.constraints.getD .empty, slots.values.getD .empty,
    slots.args.getD .empty⟩

def route (dialect : Dialect) (node : Node) : Decoded Definition := do
  let (slots, count) ← record dialect routeRecord routeFields routeStep {} node
  slots.finish count

def routesFrom (dialect : Dialect) : NodeSeq → Decoded (List Definition)
  | .nil => .ok []
  | .fault => .error .malformed
  | .cons head tail => do
      let first ← route dialect head
      let others ← routesFrom dialect tail
      pure (first :: others)

def routes (dialect : Dialect) : Node → Decoded (List Definition)
  | .array elements => routesFrom dialect elements
  | node => .error (.ofNode .array node)

structure ConfigSlots where
  server : Option ServerConfig := none
  observability : Option ObservabilityConfig := none
  routes : Option (List Definition) := none

def configStep (dialect : Dialect) : Step ConfigSlots := fun slots field node =>
  match field with
  | "server" => do
      let value ← once field slots.server (server dialect) node
      pure { slots with server := value }
  | "observability" => do
      let value ← once field slots.observability (observability dialect) node
      pure { slots with observability := value }
  | "routes" => do
      let value ← once field slots.routes (routes dialect) node
      pure { slots with routes := value }
  | _ => skip slots node

def configFields : List String := ["server", "observability", "routes"]

def ConfigSlots.finish (slots : ConfigSlots) : Config :=
  ⟨slots.server.getD {}, slots.observability.getD {}, slots.routes.getD []⟩

def config (dialect : Dialect) (node : Node) : Decoded Config := do
  let (slots, _) ← record dialect "RouterConfig" configFields (configStep dialect) {} node
  pure slots.finish

end Decode

end Signpost
