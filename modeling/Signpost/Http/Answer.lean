import Signpost.Event
import Signpost.Http.Request
import Signpost.Json.Writing

namespace Signpost.Http

inductive Status
  | found
  | notFound
deriving DecidableEq, Repr

def Status.code : Status → Nat
  | .found => 200
  | .notFound => 404

structure Answer where
  status : Status
  contentType : String
  requestId : Option (List UInt8)
  body : String
  events : List Event
deriving DecidableEq, Repr

namespace Answer

def jsonType : String := "application/json"

def bodyNode (requestId : String) (exchange : Exchange) : Node :=
  .ofMembers (("request_id", .ofText requestId) :: exchange.members)

def bodyOf (requestId : String) (exchange : Exchange) : String :=
  Json.writeCompact (bodyNode requestId exchange)

def isBare (method : String) (status : Status) : Bool :=
  method = "HEAD" || (method = "CONNECT" && status = .found)

end Answer

/-- Answers a request.  The last argument is the identifier that the request gets if it
brings none along. -/
def respond (router : Router) (request : Request) (fresh : String) : Answer :=
  let requestId := request.id fresh
  let handled := router.handle request.method request.path (.ofQuery request.query)
  let status : Status := if handled.found.isSome then .found else .notFound
  { status := status
    contentType := Answer.jsonType
    requestId := headerValue? requestId
    body :=
      if Answer.isBare request.method status then ""
      else Answer.bodyOf requestId handled.exchange
    events := .resolving requestId request.method request.path ::
      handled.notices.map Event.ofNotice }

end Signpost.Http
