import Signpost.Config.Basic
import Signpost.Text.Whitespace

namespace Signpost

inductive ConfigProblem
  | emptyName (index : Nat)
  | duplicateName (name : String)
  | emptyPattern (name : String)
  | relativePattern (name source : String)
  | emptyAction (name : String)
  | pattern (name : String) (cause : RoutingError)
  | zeroTimeout
deriving DecidableEq, Repr

namespace ConfigProblem

def ofRoute (name complaint : String) : String := "route \"" ++ name ++ "\"" ++ complaint

def message : ConfigProblem → String
  | .emptyName index =>
      "route #" ++ String.ofList (Nat.toDigits 10 index) ++ " has an empty name"
  | .duplicateName name => ofRoute name " is defined more than once"
  | .emptyPattern name => ofRoute name " has an empty pattern"
  | .relativePattern name source =>
      ofRoute name (": pattern \"" ++ source ++ "\" must start with '/'")
  | .emptyAction name => ofRoute name " has an empty action"
  | .pattern name cause => ofRoute name (": " ++ cause.message)
  | .zeroTimeout => "server request timeout must be greater than zero"

end ConfigProblem

namespace Definition

def nameProblems (definition : Definition) (index : Nat) (seen : List String) :
    List ConfigProblem :=
  if Text.isBlank definition.name then [.emptyName index]
  else if definition.name ∈ seen then [.duplicateName definition.name]
  else []

def actionProblems (definition : Definition) : List ConfigProblem :=
  if Text.isBlank definition.draft.action then [.emptyAction definition.name] else []

def startProblems (definition : Definition) : List ConfigProblem :=
  if definition.draft.pattern.toList.head? = some '/' then []
  else [.relativePattern definition.name definition.draft.pattern]

def compileProblems (definition : Definition) : List ConfigProblem :=
  match Pattern.compile definition.draft.pattern definition.draft.constraints with
  | .ok _ => []
  | .error cause => [.pattern definition.name cause]

def patternProblems (definition : Definition) : List ConfigProblem :=
  if definition.draft.pattern.isEmpty then [.emptyPattern definition.name]
  else definition.startProblems ++ definition.compileProblems

def problems (definition : Definition) (index : Nat) (seen : List String) :
    List ConfigProblem :=
  definition.nameProblems index seen ++ definition.actionProblems ++
    definition.patternProblems

/-- The problems of definitions in order, from a place on. -/
def problemsFrom (index : Nat) (seen : List String) : List Definition → List ConfigProblem
  | [] => []
  | definition :: rest =>
      definition.problems index seen ++
        problemsFrom (index + 1) (definition.name :: seen) rest

end Definition

namespace Config

def timeoutProblems (config : Config) : List ConfigProblem :=
  if config.server.requestTimeout = 0 then [.zeroTimeout] else []

def problems (config : Config) : List ConfigProblem :=
  config.timeoutProblems ++ Definition.problemsFrom 0 [] config.routes

end Config

end Signpost
