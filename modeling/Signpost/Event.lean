import Signpost.Router

namespace Signpost

/-- A report: how grave it is, the part of the program that it comes from, and texts under
names. -/
structure Event where
  level : Level
  target : String
  fields : List (String × String)
deriving DecidableEq, Repr

namespace Event

def routingTarget : String := "path_router::routing"

def routerTarget : String := "path_router::routing::router"

def serverTarget : String := "path_router::http::server"

def ofNotice (notice : Notice) : Event :=
  ⟨notice.level, routingTarget, [("message", notice.message)]⟩

def built (routes : Nat) : Event :=
  ⟨.debug, routerTarget,
    [("message", "Route table built"), ("routes", String.ofList (Nat.toDigits 10 routes))]⟩

def resolving (requestId method path : String) : Event :=
  ⟨.debug, serverTarget,
    [("message", "Resolving request"), ("request_id", requestId), ("method", method),
      ("path", path)]⟩

end Event

end Signpost
