import Signpost.Config.Load
import Signpost.Text.Quoted

namespace Signpost.Cli

open Text (quoted)

def withParts (name : String) (parts : List (String × String)) : String :=
  name ++ " \x7b " ++
    ", ".intercalate (parts.map fun (part, text) => part ++ ": " ++ text) ++
    " \x7d"

def routingDetail : RoutingError → String
  | .routeNotFound name => "RouteNotFound(" ++ quoted name ++ ")"
  | .missingParameter route param =>
      withParts "MissingParameter" [("route", quoted route), ("param", quoted param)]
  | .invalidPattern pattern problem =>
      withParts "InvalidPattern"
        [("pattern", quoted pattern), ("reason", quoted problem.message)]

def problemDetail : ConfigProblem → String
  | .emptyName index =>
      withParts "EmptyName" [("index", String.ofList (Nat.toDigits 10 index))]
  | .duplicateName name => withParts "DuplicateName" [("name", quoted name)]
  | .emptyPattern name => withParts "EmptyPattern" [("name", quoted name)]
  | .relativePattern name source =>
      withParts "RelativePattern" [("name", quoted name), ("pattern", quoted source)]
  | .emptyAction name => withParts "EmptyAction" [("name", quoted name)]
  | .pattern name cause =>
      withParts "Pattern" [("name", quoted name), ("source", routingDetail cause)]
  | .zeroTimeout => "ZeroTimeout"

def configDetail : ConfigError → String
  | .unreadable => "Io"
  | .shape _ => "Parse"
  | .invalid problems =>
      "Validation([" ++ ", ".intercalate (problems.map problemDetail) ++ "])"

end Signpost.Cli
