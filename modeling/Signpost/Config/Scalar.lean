import Signpost.Config.Mismatch
import Signpost.Params

namespace Signpost.Decode

def text : Node → Decoded String
  | .text (some value) => .ok value
  | node => .error (.ofNode .text node)

def bool : Node → Decoded Bool
  | .bool value => .ok value
  | node => .error (.ofNode .bool node)

def word : Node → Decoded UInt64
  | .number (some (.integer value)) =>
      if 0 ≤ value ∧ value < wordLimit then .ok (UInt64.ofNat value.toNat)
      else .error (.wrongValue (.integer value) .word)
  | node => .error (.ofNode .word node)

/-- A text, or a number or truth value as a text. -/
def scalar : Node → Decoded String
  | .text (some value) => .ok value
  | .number (some (.integer value)) => .ok (String.ofList (Writing.integer value))
  | .number (some (.float value)) => .ok (Writing.plain.write value)
  | .bool value => .ok (if value then "true" else "false")
  | node => .error (.ofNode .scalar node)

def key : Option String → Decoded String
  | some value => .ok value
  | none => .error .malformed

/-- Members are inserted one by one, so that the last value of a repeated name counts. -/
def paramsFrom (map : Params) : MemberSeq → Decoded Params
  | .nil => .ok map
  | .fault => .error .malformed
  | .cons name value tail => do
      let name ← key name
      let value ← scalar value
      paramsFrom (map.insert name value) tail

def params : Node → Decoded Params
  | .object members => paramsFrom OrderedMap.empty members
  | node => .error (.ofNode .params node)

end Signpost.Decode
