import Signpost.Text.Whitespace

namespace Signpost.Json

def hexDigit (n : Nat) : Char :=
  if n < 10 then Char.ofNat (48 + n) else Char.ofNat (87 + n)

def hexValue? (c : Char) : Option Nat :=
  if '0' ≤ c ∧ c ≤ '9' then some (c.toNat - 48)
  else if 'a' ≤ c ∧ c ≤ 'f' then some (c.toNat - 87)
  else if 'A' ≤ c ∧ c ≤ 'F' then some (c.toNat - 55)
  else none

def letterEscape? (c : Char) : Option Char :=
  if c = '"' then some '"'
  else if c = '\\' then some '\\'
  else if c.toNat = 8 then some 'b'
  else if c.toNat = 9 then some 't'
  else if c.toNat = 10 then some 'n'
  else if c.toNat = 12 then some 'f'
  else if c.toNat = 13 then some 'r'
  else none

def writeChar (c : Char) : List Char :=
  match letterEscape? c with
  | some letter => ['\\', letter]
  | none =>
      if c.toNat < 32 then
        ['\\', 'u', '0', '0', hexDigit (c.toNat / 16), hexDigit (c.toNat % 16)]
      else [c]

def writeText (text : List Char) : List Char :=
  '"' :: (text.flatMap writeChar ++ ['"'])

/-- A text is first read as characters and the code units that escapes give; then units
that form surrogate pairs are joined. -/
inductive Piece
  | char (c : Char)
  | unit (value : Nat)
deriving DecidableEq, Repr

def escaped? (letter : Char) : Option Char :=
  match letter with
  | '"' => some '"'
  | '\\' => some '\\'
  | '/' => some '/'
  | 'b' => some (Char.ofNat 8)
  | 'f' => some (Char.ofNat 12)
  | 'n' => some '\n'
  | 'r' => some '\r'
  | 't' => some '\t'
  | _ => none

def unitOf? (first second third fourth : Char) : Option Nat := do
  let a ← hexValue? first
  let b ← hexValue? second
  let c ← hexValue? third
  let d ← hexValue? fourth
  pure (((a * 16 + b) * 16 + c) * 16 + d)

def readPieces? : List Char → Option (List Piece × List Char)
  | [] => none
  | '"' :: rest => some ([], rest)
  | '\\' :: 'u' :: first :: second :: third :: fourth :: rest => do
      let value ← unitOf? first second third fourth
      let (pieces, after) ← readPieces? rest
      pure (.unit value :: pieces, after)
  | '\\' :: letter :: rest => do
      let c ← escaped? letter
      let (pieces, after) ← readPieces? rest
      pure (.char c :: pieces, after)
  | c :: rest =>
      if c.toNat < 32 ∨ c = '\\' then none
      else do
        let (pieces, after) ← readPieces? rest
        pure (.char c :: pieces, after)

def isLeading (value : Nat) : Bool := 0xd800 ≤ value && value < 0xdc00

def isTrailing (value : Nat) : Bool := 0xdc00 ≤ value && value < 0xe000

def ofPair (leading trailing : Nat) : Char :=
  Char.ofNat (0x10000 + (leading - 0xd800) * 1024 + (trailing - 0xdc00))

def join? : List Piece → Option (List Char)
  | [] => some []
  | .char c :: rest => (join? rest).map (c :: ·)
  | .unit leading :: .unit trailing :: rest =>
      if isLeading leading then
        if isTrailing trailing then (join? rest).map (ofPair leading trailing :: ·)
        else none
      else if isTrailing leading then none
      else (join? (.unit trailing :: rest)).map (Char.ofNat leading :: ·)
  | .unit value :: rest =>
      if isLeading value || isTrailing value then none
      else (join? rest).map (Char.ofNat value :: ·)

/-- Reads a text whose opening quotation mark has been read. -/
def readText? (text : List Char) : Option (Option String × List Char) :=
  (readPieces? text).map fun (pieces, after) => ((join? pieces).map String.ofList, after)

end Signpost.Json
