import Signpost.Json.Text
import Signpost.Toml.Layout

namespace Signpost.Toml

structure Style where
  quote : Char
  escapes : Bool
  long : Bool

def digitsValue (digits : List Nat) : Nat :=
  digits.foldl (fun value digit => value * 16 + digit) 0

def scalar? (count : Nat) (text : List Char) : Option Char := do
  let digits ← (text.take count).mapM Json.hexValue?
  let code := digitsValue digits
  if digits.length = count ∧ code.isValidChar then some (Char.ofNat code) else none

/-- What an escape stands for, and how many characters follow its backslash. -/
def escape? : List Char → Option (Char × Nat)
  | 'b' :: _ => some (Char.ofNat 8, 1)
  | 't' :: _ => some ('\t', 1)
  | 'n' :: _ => some ('\n', 1)
  | 'f' :: _ => some (Char.ofNat 12, 1)
  | 'r' :: _ => some ('\r', 1)
  | '"' :: _ => some ('"', 1)
  | '\\' :: _ => some ('\\', 1)
  | 'u' :: rest => (scalar? 4 rest).map fun c => (c, 5)
  | 'U' :: rest => (scalar? 8 rest).map fun c => (c, 9)
  | _ => none

/-- Up to two quotation marks before the closing three belong to the text. -/
def closing? (quote : Char) (text : List Char) : Option (List Char × List Char) :=
  let run := (text.takeWhile (· = quote)).length
  if run < 3 then none
  else
    let inside := min (run - 3) 2
    some (List.replicate inside quote, text.drop (inside + 3))

/-- A backslash at the end of a line opens a gap: white space up to the next character is
not part of the text. -/
def opensGap (text : List Char) : Bool := (afterNewline? (skipBlank text)).isSome

def startsNewline (c : Char) (rest : List Char) : Bool :=
  c = '\n' || (c = '\r' && rest.head? = some '\n')

def keep (c : Char) : Option (List Char × List Char) → Option (List Char × List Char)
  | some (text, rest) => some (c :: text, rest)
  | none => none

/-- Reads a text whose opening quotation marks have been read.  The first argument counts
the characters that belong to the escape last read; the second tells whether a gap is
open. -/
def readBody? (style : Style) : Nat → Bool → List Char → Option (List Char × List Char)
  | _, _, [] => none
  | pending + 1, gap, _ :: rest => readBody? style pending gap rest
  | 0, gap, c :: rest =>
      if gap && (isBlank c || startsNewline c rest) then readBody? style 0 true rest
      else if c = style.quote then
        if style.long then
          match closing? style.quote (c :: rest) with
          | some result => some result
          | none => keep c (readBody? style 0 false rest)
        else some ([], rest)
      else if style.escapes && c = '\\' then
        if style.long && opensGap rest then readBody? style 0 true rest
        else
          match escape? rest with
          | some (value, used) => keep value (readBody? style used false rest)
          | none => none
      else if isTextChar c then keep c (readBody? style 0 false rest)
      else if style.long && c = '\n' then keep c (readBody? style 0 false rest)
      else if style.long && startsNewline c rest then readBody? style 0 false rest
      else none

def readQuoted? (style : Style) (text : List Char) : Option (String × List Char) :=
  (readBody? style 0 false text).map fun (body, rest) => (String.ofList body, rest)

def readShort? : List Char → Option (String × List Char)
  | '"' :: rest => readQuoted? ⟨'"', true, false⟩ rest
  | '\'' :: rest => readQuoted? ⟨'\'', false, false⟩ rest
  | _ => none

/-- A line end right after the opening quotation marks of a long text is not part of it. -/
def readText? : List Char → Option (String × List Char)
  | '"' :: '"' :: '"' :: rest => readQuoted? ⟨'"', true, true⟩ (skipNewline rest)
  | '\'' :: '\'' :: '\'' :: rest => readQuoted? ⟨'\'', false, true⟩ (skipNewline rest)
  | text => readShort? text

end Signpost.Toml
