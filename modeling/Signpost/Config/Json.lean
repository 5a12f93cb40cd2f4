import Signpost.Config.Decode
import Signpost.Json.Reading

namespace Signpost.Decode

variable {α : Type}

def fromJson (decode : Node → Decoded α) (text : String) : Decoded α := do
  let reading := Json.read text
  let value ← decode reading.root
  if reading.ends then pure value else .error .malformed

def paramsFromJson (text : String) : Decoded Params := fromJson params text

def configFromJson (text : String) : Decoded Config := fromJson (config .json) text

end Signpost.Decode
