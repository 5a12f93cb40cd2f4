import Signpost.Node
import Signpost.Number.Notation
import Signpost.Text.Quoted

namespace Signpost

inductive Found
  | null
  | bool (value : Bool)
  | integer (value : Int)
  | float (value : Binary64)
  | text (value : String)
  | array
  | object
deriving DecidableEq, Repr

namespace Found

def describe (writing : Writing) : Found → String
  | .null => "null"
  | .bool value => "boolean `" ++ (if value then "true" else "false") ++ "`"
  | .integer value => "integer `" ++ String.ofList (Writing.integer value) ++ "`"
  | .float value => "floating point `" ++ writing.write value ++ "`"
  | .text value => "string " ++ Text.quoted value
  | .array => "sequence"
  | .object => "map"

end Found

inductive Expected
  | text
  | bool
  | word
  | array
  | params
  | scalar
  | record (name : String)
deriving DecidableEq, Repr

namespace Expected

def describe : Expected → String
  | .text => "a string"
  | .bool => "a boolean"
  | .word => "u64"
  | .array => "a sequence"
  | .params => "a table of string values"
  | .scalar => "a string, number or boolean"
  | .record name => "struct " ++ name

end Expected

/-- A fault in the text itself, or the first place where a tree has another shape. -/
inductive Mismatch
  | malformed
  | wrongType (found : Found) (expected : Expected)
  | wrongValue (found : Found) (expected : Expected)
  | wrongLength (elements : Nat) (record : String) (fields : Nat)
  | missing (field : String)
  | duplicate (field : String)
deriving DecidableEq, Repr

namespace Mismatch

def decimal (n : Nat) : String := String.ofList (Nat.toDigits 10 n)

def message (writing : Writing) : Mismatch → String
  | .malformed => "malformed text"
  | .wrongType found expected =>
      "invalid type: " ++ found.describe writing ++ ", expected " ++ expected.describe
  | .wrongValue found expected =>
      "invalid value: " ++ found.describe writing ++ ", expected " ++ expected.describe
  | .wrongLength elements record fields =>
      "invalid length " ++ decimal elements ++ ", expected struct " ++ record ++
        " with " ++ decimal fields ++ " elements"
  | .missing field => "missing field `" ++ field ++ "`"
  | .duplicate field => "duplicate field `" ++ field ++ "`"

def ofNode (expected : Expected) : Node → Mismatch
  | .null => .wrongType .null expected
  | .bool value => .wrongType (.bool value) expected
  | .number (some (.integer value)) => .wrongType (.integer value) expected
  | .number (some (.float value)) => .wrongType (.float value) expected
  | .text (some value) => .wrongType (.text value) expected
  | .array _ => .wrongType .array expected
  | .object _ => .wrongType .object expected
  | .fault | .number none | .text none => .malformed

end Mismatch

abbrev Decoded := Except Mismatch

end Signpost
