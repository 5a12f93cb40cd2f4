import Signpost.Config.Decode
import Signpost.Config.Validation
import Signpost.Text.Utf8
import Signpost.Toml.Reading

namespace Signpost

inductive ConfigError
  | unreadable
  | shape (cause : Mismatch)
  | invalid (problems : List ConfigProblem)
deriving DecidableEq, Repr

namespace ConfigError

def message : ConfigError → String
  | .unreadable => "IO error"
  | .shape cause => "Parse error: " ++ cause.message Dialect.toml.writing
  | .invalid problems =>
      "Validation failed: " ++ ", ".intercalate (problems.map ConfigProblem.message)

end ConfigError

namespace Config

def decodeToml (text : String) : Decoded Config :=
  match Toml.read? text with
  | some root => Decode.config .toml root
  | none => .error .malformed

def check (config : Config) : Except ConfigError Config :=
  match config.problems with
  | [] => .ok config
  | problems => .error (.invalid problems)

def parse (text : String) : Except ConfigError Config :=
  match decodeToml text with
  | .ok config => config.check
  | .error cause => .error (.shape cause)

/-- The configuration in a file, given the bytes of the file if it can be read. -/
def load (content : Option (List UInt8)) : Except ConfigError Config :=
  match content.bind Text.decodeUtf8? with
  | some text => parse (String.ofList text)
  | none => .error .unreadable

end Config

end Signpost
