import Signpost.Regex.Error

namespace Signpost

inductive PatternProblem
  | nameStartsWithDigit (name : String)
  | nameTwice (name : String)
  | constraint (name : String) (cause : RegexError)
  | expression (cause : RegexError)
deriving DecidableEq, Repr

namespace PatternProblem

def message : PatternProblem → String
  | .nameStartsWithDigit name =>
      "parameter name \"" ++ name ++ "\" must not start with a digit"
  | .nameTwice name => "parameter \"" ++ name ++ "\" appears more than once"
  | .constraint name cause => "constraint for \"" ++ name ++ "\": " ++ cause.message
  | .expression cause => cause.message

end PatternProblem

inductive RoutingError
  | routeNotFound (name : String)
  | missingParameter (route : String) (param : String)
  | invalidPattern (pattern : String) (problem : PatternProblem)
deriving DecidableEq, Repr

namespace RoutingError

def message : RoutingError → String
  | .routeNotFound name => "route not found: " ++ name
  | .missingParameter route param =>
      "a value for \"" ++ param ++
        "\" must be provided to generate a URI for route: " ++ route
  | .invalidPattern pattern problem =>
      "invalid pattern \"" ++ pattern ++ "\": " ++ problem.message

end RoutingError

end Signpost
