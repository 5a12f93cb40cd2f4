import Signpost.Params
import Signpost.Text.Utf8

namespace Signpost.Form

open Signpost.Text

def isPlainByte (b : UInt8) : Bool :=
  let c := Char.ofNat b.toNat
  b < 0x80 && (c.isAlphanum || c = '*' || c = '-' || c = '.' || c = '_')

def hexDigit (n : Nat) : Char :=
  if n < 10 then Char.ofNat (48 + n) else Char.ofNat (55 + n)

def encodeByte (b : UInt8) : List Char :=
  if isPlainByte b then [Char.ofNat b.toNat]
  else if b = 0x20 then ['+']
  else ['%', hexDigit (b.toNat / 16), hexDigit (b.toNat % 16)]

def encodeText (text : String) : List Char :=
  (encodeUtf8 text.toList).flatMap encodeByte

def encodePair (pair : String × String) : List Char :=
  encodeText pair.1 ++ '=' :: encodeText pair.2

/-- Pairs of texts as ASCII, joined by `&` and `=`, with a plus sign for a space and
percent signs before bytes in hexadecimal. -/
def encodePairs (pairs : List (String × String)) : List Char :=
  ['&'].intercalate (pairs.map encodePair)

def hexValue? (b : UInt8) : Option UInt8 :=
  if 48 ≤ b ∧ b ≤ 57 then some (b - 48)
  else if 65 ≤ b ∧ b ≤ 70 then some (b - 55)
  else if 97 ≤ b ∧ b ≤ 102 then some (b - 87)
  else none

/-- A percent sign that no two hexadecimal digits follow stands for itself. -/
def decodeBytes : List UInt8 → List UInt8
  | [] => []
  | 37 :: high :: low :: rest =>
      match hexValue? high, hexValue? low with
      | some h, some l => (h * 16 + l) :: decodeBytes rest
      | _, _ => 37 :: decodeBytes (high :: low :: rest)
  | 43 :: rest => 32 :: decodeBytes rest
  | b :: rest => b :: decodeBytes rest

def decodeText (bytes : List UInt8) : String :=
  String.ofList (decodeUtf8Lossy (decodeBytes bytes))

def splitPair (bytes : List UInt8) : List UInt8 × List UInt8 :=
  (bytes.takeWhile (· ≠ 61), (bytes.dropWhile (· ≠ 61)).drop 1)

def decodePair (bytes : List UInt8) : String × String :=
  let (key, value) := splitPair bytes
  (decodeText key, decodeText value)

def splitFields : List UInt8 → List (List UInt8)
  | [] => [[]]
  | b :: rest =>
      if b = 38 then [] :: splitFields rest
      else
        match splitFields rest with
        | [] => [[b]]
        | field :: fields => (b :: field) :: fields

def decodePairs (query : String) : List (String × String) :=
  ((splitFields (encodeUtf8 query.toList)).filter fun field => !field.isEmpty).map
    decodePair

def decode (query : String) : Params :=
  OrderedMap.ofList (decodePairs query)

end Signpost.Form
