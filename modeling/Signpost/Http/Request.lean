import Signpost.Form
import Signpost.Http.Target

namespace Signpost.Http

structure Request where
  method : String
  target : Target
  /-- Names in lower case, in order. -/
  headers : List (String × List UInt8)
deriving DecidableEq, Repr

inductive RequestProblem
  | method
  | target
  | headerName
  | headerValue
deriving DecidableEq, Repr

def isTokenChar (c : Char) : Bool :=
  c.isAlphanum || ['!', '#', '$', '%', '&', '\'', '*', '+', '-', '.', '^', '_', '`', '|',
    '~'].contains c

def isToken (text : String) : Bool := !text.isEmpty && text.toList.all isTokenChar

def greatestNameLength : Nat := 65535

def isHeaderName (name : String) : Bool :=
  isToken name && name.length ≤ greatestNameLength

def isHeaderByte (b : UInt8) : Bool := (32 ≤ b && b ≠ 127) || b = 9

def isVisibleByte (b : UInt8) : Bool := (32 ≤ b && b < 127) || b = 9

def headerValue? (text : String) : Option (List UInt8) :=
  let bytes := Text.encodeUtf8 text.toList
  if bytes.all isHeaderByte then some bytes else none

namespace Request

def readHeaders : List (String × List UInt8) →
    Except RequestProblem (List (String × List UInt8))
  | [] => .ok []
  | (name, value) :: rest =>
      if !isHeaderName name then .error .headerName
      else if !value.all isHeaderByte then .error .headerValue
      else do
        let others ← readHeaders rest
        pure ((name.toLower, value) :: others)

def read (method target : String) (headers : List (String × List UInt8)) :
    Except RequestProblem Request :=
  if !isToken method then .error .method
  else
    match Target.read? target with
    | none => .error .target
    | some target => do
        let headers ← readHeaders headers
        pure ⟨method, target, headers⟩

def path (request : Request) : String := request.target.path

/-- The parameters in the query, of which the last under a name counts. -/
def query (request : Request) : Params :=
  (request.target.query.map Form.decode).getD OrderedMap.empty

def idHeader : String := "x-request-id"

def visibleText? (bytes : List UInt8) : Option String :=
  if bytes.isEmpty || !bytes.all isVisibleByte then none
  else some (String.ofList (bytes.map fun b => Char.ofNat b.toNat))

def givenId? (request : Request) : Option String :=
  (request.headers.lookup idHeader).bind visibleText?

/-- The identifier that a request brings along, or else a new one. -/
def id (request : Request) (fresh : String) : String := request.givenId?.getD fresh

end Request

end Signpost.Http
