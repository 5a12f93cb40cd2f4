import Signpost.Cli.Failure
import Signpost.Cli.Invocation
import Signpost.Json.Writing
import Signpost.Router

namespace Signpost.Cli

structure Outcome where
  exit : Nat
  stdout : String
  stderr : String
deriving DecidableEq, Repr

namespace Outcome

def success (text : String) : Outcome := ⟨0, text, ""⟩

def failure (text : String) : Outcome := ⟨1, "", text ++ "\n"⟩

def error (detail : String) : Outcome := failure ("Error: " ++ detail)

def misuse : Outcome :=
  ⟨2, "", "usage: signpost [-c FILE] list | match PATH | uri NAME [KEY=VALUE]...\n"⟩

end Outcome

def nameWidth : Nat := 24

def patternWidth : Nat := 40

def pad (width : Nat) (text : String) : String :=
  text ++ String.ofList (List.replicate (width - text.length) ' ')

def listed (entry : String × Route) : String :=
  pad nameWidth entry.1 ++ " " ++ pad patternWidth entry.2.pattern.source ++ " " ++
    entry.2.action ++ "\n"

def list (router : Router) : Outcome :=
  .success (String.join (router.routes.toList.map listed))

def sorted (params : Params) : List (String × String) :=
  params.toList.mergeSort fun first second => first.1 ≤ second.1

def sortedNode (params : Params) : Node :=
  .ofMembers ((sorted params).map fun (name, value) => (name, .ofText value))

def matchNode (found : RouteMatch) : Node :=
  .ofMembers [("action", .ofText found.route.action),
    ("args", sortedNode found.route.args), ("params", sortedNode found.route.values),
    ("route", .ofText found.name)]

def resolve (router : Router) (path : String) : Outcome :=
  match router.findByPath? path with
  | some found => .success (Json.writePretty (matchNode found) ++ "\n")
  | none => .failure ("No route matches " ++ path)

def uri (router : Router) (name : String) (params : List (String × String)) : Outcome :=
  match router.uri name (OrderedMap.ofList params) with
  | .ok address => .success (address ++ "\n")
  | .error cause => .error (routingDetail cause)

def perform (router : Router) : Command → Outcome
  | .list => list router
  | .resolve path => resolve router path
  | .uri name params => uri router name params

def Command.run (command : Command) (content : Option (List UInt8)) : Outcome :=
  match Config.load content with
  | .error cause => .error (configDetail cause)
  | .ok config =>
      match Router.ofDefinitions config.routes with
      | .error cause => .error (routingDetail cause)
      | .ok router => perform router command

/-- The outcome for a command line, given what each file holds. -/
def run (arguments : List String) (contentOf : String → Option (List UInt8)) : Outcome :=
  match Invocation.read? arguments with
  | none => .misuse
  | some invocation => invocation.command.run (contentOf invocation.config)

end Signpost.Cli
