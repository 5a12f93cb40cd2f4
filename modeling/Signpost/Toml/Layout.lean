namespace Signpost.Toml

def isBlank (c : Char) : Bool := c = ' ' || c = '\t'

/-- The characters that comments and quoted texts can hold. -/
def isTextChar (c : Char) : Bool :=
  c = '\t' || (0x20 ≤ c.toNat && c.toNat ≤ 0x7e) || 0x80 ≤ c.toNat

def skipBlank (text : List Char) : List Char := text.dropWhile isBlank

def afterNewline? : List Char → Option (List Char)
  | '\n' :: rest => some rest
  | '\r' :: '\n' :: rest => some rest
  | _ => none

def skipNewline (text : List Char) : List Char := (afterNewline? text).getD text

def skipComment : List Char → List Char
  | '#' :: rest => rest.dropWhile isTextChar
  | rest => rest

def afterLine? (text : List Char) : Option (List Char) :=
  match skipComment (skipBlank text) with
  | [] => some []
  | rest => afterNewline? rest

/-- Skips blanks, line ends and comments.  The first argument tells whether a comment is
open. -/
def skipSpace : Bool → List Char → List Char
  | _, [] => []
  | comment, c :: rest =>
      if comment && isTextChar c then skipSpace true rest
      else if isBlank c || c = '\n' then skipSpace false rest
      else if c = '#' then skipSpace true rest
      else if c = '\r' && rest.head? = some '\n' then skipSpace false rest
      else c :: rest

end Signpost.Toml
