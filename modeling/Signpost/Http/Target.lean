namespace Signpost.Http

/-- Of a request target the path and the query count.  A scheme and an authority before
them are checked and dropped, and so is a fragment after them. -/
structure Target where
  path : String
  query : Option String
deriving DecidableEq, Repr

namespace Target

def greatestLength : Nat := 65534

def greatestSchemeLength : Nat := 64

def isControl (c : Char) : Bool := c.toNat < 0x20 || c.toNat = 0x7f

def isPathChar (c : Char) : Bool :=
  !isControl c && !([' ', '#', '<', '>', '?', '`'].contains c)

def isQueryChar (c : Char) : Bool :=
  !isControl c && !([' ', '"', '#', '<', '>'].contains c)

def endsPath (c : Char) : Bool := c = '?' || c = '#'

def query? : List Char → Option (Option String)
  | '?' :: rest =>
      let text := rest.takeWhile (· ≠ '#')
      if text.all isQueryChar then some (some (String.ofList text)) else none
  | _ => some none

/-- An empty path stands for the root. -/
def ofPath? (text : List Char) : Option Target := do
  let path := text.takeWhile fun c => !endsPath c
  let query ← query? (text.dropWhile fun c => !endsPath c)
  if path.all isPathChar then
    pure ⟨if path.isEmpty then "/" else String.ofList path, query⟩
  else none

def isSchemeChar (c : Char) : Bool :=
  c.isAlphanum || c = '+' || c = '-' || c = '.' || c = '~'

def splitScheme (text : List Char) : Option (List Char) × List Char :=
  match text.dropWhile isSchemeChar with
  | ':' :: '/' :: '/' :: rest => (some (text.takeWhile isSchemeChar), rest)
  | _ => (none, text)

/-- Square brackets enclose an address, and one colon may come before a port.  What stands
before an at sign can hold colons and percent signs of its own. -/
structure Authority where
  colons : Nat := 0
  opened : Bool := false
  closed : Bool := false
  percent : Bool := false
  ended : Bool := false

def greatestColons : Nat := 8

def isAuthorityChar (c : Char) : Bool :=
  c.isAlphanum || ['!', '$', '&', '\'', '(', ')', '*', '+', ',', '-', '.', ';', '=', '_',
    '~'].contains c

def Authority.step? (authority : Authority) (c : Char) : Option Authority :=
  if c = ':' then
    if greatestColons ≤ authority.colons then none
    else some { authority with colons := authority.colons + 1, ended := false }
  else if c = '[' then
    if authority.percent || authority.opened then none
    else some { authority with opened := true, ended := false }
  else if c = ']' then
    if !authority.opened || authority.closed then none
    else
      some { authority with closed := true, colons := 0, percent := false, ended := false }
  else if c = '@' then some { authority with colons := 0, percent := false, ended := true }
  else if c = '%' then some { authority with percent := true, ended := false }
  else if isAuthorityChar c then some { authority with ended := false }
  else none

def Authority.isComplete (authority : Authority) : Bool :=
  authority.opened = authority.closed && authority.colons ≤ 1 && !authority.ended &&
    !authority.percent

def isAuthority (text : List Char) : Bool :=
  (text.foldlM Authority.step? {}).any Authority.isComplete

def endsAuthority (c : Char) : Bool := c = '/' || endsPath c

def afterAuthority? (text : List Char) : Option (List Char) :=
  let authority := text.takeWhile fun c => !endsAuthority c
  if authority.isEmpty || !isAuthority authority then none
  else some (text.dropWhile fun c => !endsAuthority c)

/-- Reads a target that does not start with a slash.  Without a scheme it is an authority
alone, and has no path. -/
def ofFull? (text : List Char) : Option Target :=
  match splitScheme text with
  | (none, text) => do
      let rest ← afterAuthority? text
      if rest.isEmpty then pure ⟨"", none⟩ else none
  | (some scheme, rest) =>
      if greatestSchemeLength < scheme.length then none
      else (afterAuthority? rest).bind ofPath?

def read? (text : String) : Option Target :=
  if greatestLength < text.utf8ByteSize then none
  else
    match text.toList with
    | ['*'] => some ⟨"*", none⟩
    | '/' :: rest => ofPath? ('/' :: rest)
    | chars => ofFull? chars

end Target

end Signpost.Http
