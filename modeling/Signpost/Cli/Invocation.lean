namespace Signpost.Cli

inductive Command
  | list
  | resolve (path : String)
  | uri (name : String) (params : List (String × String))
deriving DecidableEq, Repr

structure Invocation where
  config : String
  command : Command
deriving DecidableEq, Repr

namespace Invocation

def defaultConfig : String := "routes.toml"

/-- An argument that starts with a hyphen is an option unless two hyphens came before it.
A single hyphen is an argument like any other. -/
def looksLikeOption (argument : List Char) : Bool :=
  match argument with
  | '-' :: _ :: _ => true
  | _ => false

def positionals? : List String → Option (List String)
  | [] => some []
  | argument :: rest =>
      if argument = "--" then some rest
      else if looksLikeOption argument.toList then none
      else (positionals? rest).map (argument :: ·)

def pair? (argument : String) : Option (String × String) :=
  let chars := argument.toList
  match chars.dropWhile (· ≠ '=') with
  | [] => none
  | _ :: value => some (String.ofList (chars.takeWhile (· ≠ '=')), String.ofList value)

def command? (name : String) (arguments : List String) : Option Command := do
  let arguments ← positionals? arguments
  match name, arguments with
  | "list", [] => pure .list
  | "match", [path] => pure (.resolve path)
  | "uri", route :: params => do
      let params ← params.mapM pair?
      pure (.uri route params)
  | _, _ => none

def attached? : List Char → Option (Option (List Char))
  | ['-', 'c'] => some none
  | '-' :: 'c' :: '=' :: value => some (some value)
  | '-' :: 'c' :: value => some (some value)
  | ['-', '-', 'c', 'o', 'n', 'f', 'i', 'g'] => some none
  | '-' :: '-' :: 'c' :: 'o' :: 'n' :: 'f' :: 'i' :: 'g' :: '=' :: value =>
      some (some value)
  | _ => none

/-- Keeps the first value, and refuses an empty one. -/
def configOnce? (config : Option String) (value : String) : Option String :=
  if config.isSome || value.isEmpty then none else some value

def readFrom? (config : Option String) : List String → Option Invocation
  | [] => none
  | argument :: rest =>
      match attached? argument.toList, rest with
      | none, rest => (command? argument rest).map fun command =>
          ⟨config.getD defaultConfig, command⟩
      | some (some value), rest =>
          match configOnce? config (String.ofList value) with
          | some value => readFrom? (some value) rest
          | none => none
      | some none, [] => none
      | some none, value :: rest =>
          if looksLikeOption value.toList then none
          else
            match configOnce? config value with
            | some value => readFrom? (some value) rest
            | none => none

def read? (arguments : List String) : Option Invocation := readFrom? none arguments

end Invocation

end Signpost.Cli
