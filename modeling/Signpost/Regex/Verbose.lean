import Signpost.Text.Whitespace

namespace Signpost.Regex

open Signpost.Text

mutual

def skipSpace : List Char → List Char
  | [] => []
  | c :: rest =>
      if isWhitespace c then skipSpace rest
      else if c = '#' then skipComment rest
      else c :: rest

def skipComment : List Char → List Char
  | [] => []
  | c :: rest => if c = '\n' then skipSpace rest else skipComment rest

end

def skipBlank (verbose : Bool) (text : List Char) : List Char :=
  if verbose then skipSpace text else text

mutual

theorem length_skipSpace_le : (text : List Char) → (skipSpace text).length ≤ text.length
  | [] => Nat.le_refl _
  | c :: rest => by
      have hspace := length_skipSpace_le rest
      have hcomment := length_skipComment_le rest
      simp only [skipSpace, List.length_cons]
      split
      · omega
      · split
        · omega
        · simp

theorem length_skipComment_le :
    (text : List Char) → (skipComment text).length ≤ text.length
  | [] => Nat.le_refl _
  | c :: rest => by
      have hspace := length_skipSpace_le rest
      have hcomment := length_skipComment_le rest
      simp only [skipComment, List.length_cons]
      split <;> omega

end

theorem length_skipBlank_le (verbose : Bool) (text : List Char) :
    (skipBlank verbose text).length ≤ text.length := by
  unfold skipBlank
  split
  · exact length_skipSpace_le text
  · exact Nat.le_refl _

@[simp] theorem skipBlank_false (text : List Char) : skipBlank false text = text := rfl

/-- The next character that is not skipped, for the decision whether a dash ends a class.
Once inside a comment, the look ahead no longer leaves it. -/
def peekSpace (inComment : Bool) : List Char → Option Char
  | [] => none
  | c :: rest =>
      if isWhitespace c then peekSpace inComment rest
      else if !inComment && c = '#' then peekSpace true rest
      else some c

def peekBlank (verbose : Bool) (text : List Char) : Option Char :=
  if verbose then (peekSpace false text).orElse fun _ => text.head? else text.head?

end Signpost.Regex
