import Signpost.Cli.Outcome

namespace Signpost

def contentOf (name : String) : IO (Option (List UInt8)) := do
  try
    let bytes ← IO.FS.readBinFile name
    pure (some bytes.toList)
  catch _ => pure none

def outcome (arguments : List String) : IO Cli.Outcome :=
  match Cli.Invocation.read? arguments with
  | none => pure .misuse
  | some invocation => do
      let content ← contentOf invocation.config
      pure (invocation.command.run content)

end Signpost

def main (arguments : List String) : IO UInt32 := do
  let result ← Signpost.outcome arguments
  IO.print result.stdout
  IO.eprint result.stderr
  pure result.exit.toUInt32
