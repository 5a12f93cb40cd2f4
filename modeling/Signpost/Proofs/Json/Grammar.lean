import Signpost.Json.Reading
import Signpost.Proofs.Json.Numeral
import Signpost.Proofs.Json.Text
import Mathlib.Data.List.DropRight

namespace Signpost.Json

mutual

/-- A tree and a text for it that starts and ends without blanks. -/
inductive Spells : Node → List Char → Prop
  | null : Spells .null ['n', 'u', 'l', 'l']
  | yes : Spells (.bool true) ['t', 'r', 'u', 'e']
  | no : Spells (.bool false) ['f', 'a', 'l', 's', 'e']
  | number {numeral : Numeral} {text : List Char} (h : SpellsNumeral numeral text) :
      Spells (.number numeral.value?) text
  | text {value : Option String} {text : List Char} (h : SpellsText value text) :
      Spells (.text value) text
  | emptyArray {blanks : List Char} (hblanks : blanks.all isBlank) :
      Spells (.array .nil) ('[' :: (blanks ++ [']']))
  | array {elements : NodeSeq} {text : List Char} (h : SpellsElements elements text) :
      Spells (.array elements) ('[' :: (text ++ [']']))
  | emptyObject {blanks : List Char} (hblanks : blanks.all isBlank) :
      Spells (.object .nil) ('\x7b' :: (blanks ++ ['\x7d']))
  | object {members : MemberSeq} {text : List Char} (h : SpellsMembers members text) :
      Spells (.object members) ('\x7b' :: (text ++ ['\x7d']))

inductive SpellsElements : NodeSeq → List Char → Prop
  | last {node : Node} {before text behind : List Char} (hbefore : before.all isBlank)
      (h : Spells node text) (hbehind : behind.all isBlank) :
      SpellsElements (.cons node .nil) (before ++ (text ++ behind))
  | more {node : Node} {elements : NodeSeq} {before text behind others : List Char}
      (hbefore : before.all isBlank) (h : Spells node text) (hbehind : behind.all isBlank)
      (hothers : SpellsElements elements others) :
      SpellsElements (.cons node elements) (before ++ (text ++ (behind ++ ',' :: others)))

inductive SpellsMembers : MemberSeq → List Char → Prop
  | last {key : Option String} {node : Node}
      {before name gap space text behind : List Char}
      (hbefore : before.all isBlank) (hname : SpellsText key name) (hgap : gap.all isBlank)
      (hspace : space.all isBlank) (h : Spells node text) (hbehind : behind.all isBlank) :
      SpellsMembers (.cons key node .nil)
        (before ++ (name ++ (gap ++ ':' :: (space ++ (text ++ behind)))))
  | more {key : Option String} {node : Node} {members : MemberSeq}
      {before name gap space text behind others : List Char}
      (hbefore : before.all isBlank) (hname : SpellsText key name) (hgap : gap.all isBlank)
      (hspace : space.all isBlank) (h : Spells node text) (hbehind : behind.all isBlank)
      (hothers : SpellsMembers members others) :
      SpellsMembers (.cons key node members)
        (before ++ (name ++
          (gap ++ ':' :: (space ++ (text ++ (behind ++ ',' :: others))))))

end

/-- A whole text: a tree with blanks around it. -/
inductive Document : Node → String → Prop
  | padded {node : Node} {before text behind : List Char} (hbefore : before.all isBlank)
      (h : Spells node text) (hbehind : behind.all isBlank) :
      Document node (String.ofList (before ++ (text ++ behind)))

variable {fuel : Nat} {text other next closing rest blanks gap space name : List Char}
  {node : Node} {key : Option String} {elements : NodeSeq} {members : MemberSeq}

theorem blank_nil : ([] : List Char).all isBlank := rfl

theorem skipBlank_cons {c : Char} (h : isBlank c = false) (text : List Char) :
    skipBlank (c :: text) = c :: text := by
  rw [skipBlank, List.dropWhile_cons, h]
  rfl

theorem skipBlank_append (h : blanks.all isBlank) (text : List Char) :
    skipBlank (blanks ++ text) = skipBlank text :=
  List.dropWhile_append_of_pos (List.all_eq_true.mp h)

theorem skipBlank_append_cons (h : blanks.all isBlank) {c : Char} (hc : isBlank c = false)
    (text : List Char) : skipBlank (blanks ++ c :: text) = c :: text := by
  rw [skipBlank_append h, skipBlank_cons hc]

theorem skipBlank_skipBlank (text : List Char) :
    skipBlank (skipBlank text) = skipBlank text :=
  List.dropWhile_idempotent _ _

theorem readNode_congr (h : skipBlank text = skipBlank other) (fuel : Nat) :
    readNode fuel text = readNode fuel other := by
  cases fuel with
  | zero => rfl
  | succ fuel => rw [readNode, readNode, h]

theorem readNode_append (h : blanks.all isBlank) (fuel : Nat) (text : List Char) :
    readNode fuel (blanks ++ text) = readNode fuel text :=
  readNode_congr (skipBlank_append h text) fuel

theorem readElements_skipBlank (fuel : Nat) (text : List Char) :
    readElements fuel (skipBlank text) = readElements fuel text := by
  cases fuel with
  | zero => rfl
  | succ fuel => rw [readElements, readElements, readNode_congr (skipBlank_skipBlank text)]

theorem readMembers_congr (h : skipBlank text = skipBlank other) (fuel : Nat) :
    readMembers fuel text = readMembers fuel other := by
  cases fuel with
  | zero => rfl
  | succ fuel => rw [readMembers, readMembers, h]

theorem endsNumber_append (h : blanks.all isBlank) (hrest : EndsNumber rest) :
    EndsNumber (blanks ++ rest) := by
  cases blanks with
  | nil => exact hrest
  | cons c blanks =>
      apply endsNumber_cons
      have hc := (Bool.and_eq_true_iff.mp h).1
      simp only [isBlank, Bool.or_eq_true, decide_eq_true_eq] at hc
      rcases hc with ((rfl | rfl) | rfl) | rfl <;> rfl

theorem readNode_leaf {c : Char} (hblank : isBlank c = false) (harray : c ≠ '[')
    (hobject : c ≠ '\x7b') (fuel : Nat) (rest : List Char) :
    readNode (fuel + 1) (c :: rest) = readLeaf c rest := by
  rw [readNode, skipBlank_cons hblank]
  dsimp only
  rw [if_neg harray, if_neg hobject]

theorem readNode_digit {c : Char} (h : c.isDigit = true) (fuel : Nat) (rest : List Char) :
    readNode (fuel + 1) (c :: rest) = readNumber false (c :: rest) := by
  have hne : ∀ d : Char, d.isDigit = false → c ≠ d := by
    intro d hd heq
    rw [← heq, h] at hd
    cases hd
  have hblank : isBlank c = false := by
    simp [isBlank, hne ' ' rfl, hne '\n' rfl, hne '\t' rfl, hne '\r' rfl]
  rw [readNode_leaf hblank (hne _ rfl) (hne _ rfl), readLeaf, if_neg (hne '"' rfl),
    if_neg (hne 'n' rfl), if_neg (hne 't' rfl), if_neg (hne 'f' rfl), if_neg (hne '-' rfl)]

theorem SpellsMagnitude.exists_cons {numeral : Numeral}
    (h : SpellsMagnitude numeral text) :
    ∃ c others, text = c :: others ∧ c.isDigit = true := by
  cases h with
  | parts negative hwhole hzero hfraction hexponent =>
      obtain ⟨c, others, rfl, hc⟩ := hwhole.exists_cons
      exact ⟨c, _, rfl, hc⟩

theorem readNode_number {numeral : Numeral} (h : SpellsNumeral numeral text)
    (hrest : EndsNumber rest) (fuel : Nat) :
    readNode (fuel + 1) (text ++ rest) = (.number numeral.value?, some rest) := by
  cases h with
  | negative hsign hmagnitude =>
      have hread := readNumeral?_spelled hmagnitude hrest
      rw [hsign] at hread
      rw [List.cons_append, readNode_leaf rfl (by decide) (by decide)]
      change readNumber true _ = _
      rw [readNumber, hread]
  | natural hsign hmagnitude =>
      have hread := readNumeral?_spelled hmagnitude hrest
      obtain ⟨c, others, rfl, hc⟩ := hmagnitude.exists_cons
      rw [hsign] at hread
      rw [List.cons_append, readNode_digit hc, ← List.cons_append, readNumber, hread]

theorem readNode_text (h : SpellsText key text) (fuel : Nat) (rest : List Char) :
    readNode (fuel + 1) (text ++ rest) = (.text key, some rest) := by
  cases h with
  | quoted hpieces =>
      rw [List.cons_append, List.append_assoc, readNode_leaf rfl (by decide) (by decide)]
      change readTextNode _ = _
      rw [readTextNode, List.singleton_append, readText?_spelled hpieces]

/-! Sequences, one element or member at a time.  What is read as an element does not look
like the end of an empty array, and what is read as a member does not look like that of an
empty object. -/

theorem readNode_emptyArray (h : blanks.all isBlank) (fuel : Nat) (rest : List Char) :
    readNode (fuel + 1) ('[' :: (blanks ++ ']' :: rest)) = (.array .nil, some rest) := by
  rw [readNode, skipBlank_cons rfl]
  dsimp only
  rw [if_pos rfl, skipBlank_append_cons h rfl]
  rfl

/-- Reading elements stops with a fault at once where an array ends. -/
theorem readElements_bracket (h : skipBlank text = ']' :: next) (fuel : Nat) :
    (readElements fuel text).2 = none := by
  have hnode : ∀ steps, readNode steps text = (.fault, none) := by
    intro steps
    have hstart : skipBlank text = skipBlank (']' :: next) := by rw [h, skipBlank_cons rfl]
    rw [readNode_congr hstart]
    cases steps with
    | zero => rfl
    | succ steps => exact readNode_leaf rfl (by decide) (by decide) steps next
  cases fuel with
  | zero => rfl
  | succ fuel => rw [readElements, hnode]

theorem readNode_array (h : readElements fuel text = (elements, some rest)) :
    readNode (fuel + 1) ('[' :: text) = (.array elements, some rest) := by
  rw [readNode, skipBlank_cons rfl]
  dsimp only
  rw [if_pos rfl]
  split
  · rename_i hend
    have hnone := readElements_bracket hend fuel
    rw [h] at hnone
    cases hnone
  · rw [readElements_skipBlank, h]

theorem readElements_last (h : readNode fuel text = (node, some closing))
    (hclose : skipBlank closing = ']' :: rest) :
    readElements (fuel + 1) text = (.cons node .nil, some rest) := by
  rw [readElements, h]
  simp only [hclose]

theorem readElements_more (h : readNode fuel text = (node, some closing))
    (hcomma : skipBlank closing = ',' :: next)
    (hothers : readElements fuel next = (elements, some rest)) :
    readElements (fuel + 1) text = (.cons node elements, some rest) := by
  rw [readElements, h]
  simp only [hcomma, hothers]

theorem readNode_emptyObject (h : blanks.all isBlank) (fuel : Nat) (rest : List Char) :
    readNode (fuel + 1) ('\x7b' :: (blanks ++ '\x7d' :: rest)) =
      (.object .nil, some rest) := by
  rw [readNode, skipBlank_cons rfl]
  dsimp only
  rw [if_neg (by decide), if_pos rfl, skipBlank_append_cons h rfl]
  rfl

theorem readMembers_brace (h : skipBlank text = '\x7d' :: next) (fuel : Nat) :
    (readMembers fuel text).2 = none := by
  cases fuel with
  | zero => rfl
  | succ fuel =>
      rw [readMembers, h]
      rfl

theorem readNode_object (h : readMembers fuel text = (members, some rest)) :
    readNode (fuel + 1) ('\x7b' :: text) = (.object members, some rest) := by
  rw [readNode, skipBlank_cons rfl]
  dsimp only
  rw [if_neg (by decide), if_pos rfl]
  split
  · rename_i hend
    have hnone := readMembers_brace hend fuel
    rw [h] at hnone
    cases hnone
  · rw [readMembers_congr (skipBlank_skipBlank text), h]

theorem readKey_spelled (h : SpellsText key name) (rest : List Char) :
    readKey (skipBlank (name ++ rest)) = (key, some rest) := by
  cases h with
  | quoted hpieces =>
      rw [List.cons_append, List.append_assoc, skipBlank_cons rfl, readKey,
        List.singleton_append, readText?_spelled hpieces]

theorem SpellsText.length_pos (h : SpellsText key name) : 0 < name.length := by
  cases h with
  | quoted hpieces => exact Nat.succ_pos _

theorem readValue_colon (h : gap.all isBlank) (fuel : Nat) (text : List Char) :
    readValue (fuel + 1) (skipBlank (gap ++ ':' :: text)) = readNode fuel text := by
  rw [skipBlank_append_cons h rfl]
  rfl

theorem readMembers_last (hname : SpellsText key name) (hgap : gap.all isBlank)
    (h : readNode fuel text = (node, some closing))
    (hclose : skipBlank closing = '\x7d' :: rest) :
    readMembers (fuel + 2) (name ++ (gap ++ ':' :: text)) =
      (.cons key node .nil, some rest) := by
  rw [readMembers, readKey_spelled hname]
  simp only [readValue_colon hgap, h, hclose]

theorem readMembers_more (hname : SpellsText key name) (hgap : gap.all isBlank)
    (h : readNode fuel text = (node, some closing))
    (hcomma : skipBlank closing = ',' :: next)
    (hothers : readMembers (fuel + 1) next = (members, some rest)) :
    readMembers (fuel + 2) (name ++ (gap ++ ':' :: text)) =
      (.cons key node members, some rest) := by
  rw [readMembers, readKey_spelled hname]
  simp only [readValue_colon hgap, h, hcomma, hothers]

/-! Whole trees.  Three steps for every character are enough: a member takes one for
itself, one for its colon and one for its value, and has a character for each. -/

mutual

theorem Spells.readNode {node : Node} {text : List Char} (h : Spells node text)
    (fuel : Nat) (rest : List Char) (hrest : EndsNumber rest)
    (hfuel : 3 * text.length < fuel) :
    readNode fuel (text ++ rest) = (node, some rest) := by
  obtain ⟨fuel, rfl⟩ : ∃ steps, fuel = steps + 1 :=
    Nat.exists_eq_add_one_of_ne_zero (by omega)
  match h with
  | .null => rfl
  | .yes => rfl
  | .no => rfl
  | .number hnumeral => exact readNode_number hnumeral hrest fuel
  | .text htext => exact readNode_text htext fuel rest
  | .emptyArray hblanks =>
      rw [List.cons_append, List.append_assoc]
      exact readNode_emptyArray hblanks fuel rest
  | .array helements =>
      simp only [List.length_cons, List.length_append] at hfuel
      rw [List.cons_append, List.append_assoc]
      exact readNode_array (helements.readElements fuel rest (by omega))
  | .emptyObject hblanks =>
      rw [List.cons_append, List.append_assoc]
      exact readNode_emptyObject hblanks fuel rest
  | .object hmembers =>
      simp only [List.length_cons, List.length_append] at hfuel
      rw [List.cons_append, List.append_assoc]
      exact readNode_object (hmembers.readMembers fuel rest (by omega))

theorem SpellsElements.readElements {elements : NodeSeq} {text : List Char}
    (h : SpellsElements elements text) (fuel : Nat) (rest : List Char)
    (hfuel : 3 * text.length + 1 < fuel) :
    readElements fuel (text ++ ']' :: rest) = (elements, some rest) := by
  obtain ⟨fuel, rfl⟩ : ∃ steps, fuel = steps + 1 :=
    Nat.exists_eq_add_one_of_ne_zero (by omega)
  match h with
  | .last hbefore hnode hbehind =>
      simp only [List.length_append] at hfuel
      simp only [List.append_assoc]
      apply readElements_last
      · rw [readNode_append hbefore]
        exact hnode.readNode fuel _ (endsNumber_append hbehind (endsNumber_cons rfl))
          (by omega)
      · exact skipBlank_append_cons hbehind rfl rest
  | .more hbefore hnode hbehind hothers =>
      simp only [List.length_append, List.length_cons] at hfuel
      simp only [List.append_assoc, List.cons_append]
      apply readElements_more
      · rw [readNode_append hbefore]
        exact hnode.readNode fuel _ (endsNumber_append hbehind (endsNumber_cons rfl))
          (by omega)
      · exact skipBlank_append_cons hbehind rfl _
      · exact hothers.readElements fuel rest (by omega)

theorem SpellsMembers.readMembers {members : MemberSeq} {text : List Char}
    (h : SpellsMembers members text) (fuel : Nat) (rest : List Char)
    (hfuel : 3 * text.length + 1 < fuel) :
    readMembers fuel (text ++ '\x7d' :: rest) = (members, some rest) := by
  obtain ⟨fuel, rfl⟩ : ∃ steps, fuel = steps + 2 := Nat.exists_eq_add_of_le' (by omega)
  match h with
  | .last hbefore hname hgap hspace hnode hbehind =>
      have hkey := hname.length_pos
      simp only [List.length_append, List.length_cons] at hfuel
      simp only [List.append_assoc, List.cons_append]
      rw [readMembers_congr (skipBlank_append hbefore _)]
      apply readMembers_last hname hgap
      · rw [readNode_append hspace]
        exact hnode.readNode fuel _ (endsNumber_append hbehind (endsNumber_cons rfl))
          (by omega)
      · exact skipBlank_append_cons hbehind rfl rest
  | .more hbefore hname hgap hspace hnode hbehind hothers =>
      have hkey := hname.length_pos
      simp only [List.length_append, List.length_cons] at hfuel
      simp only [List.append_assoc, List.cons_append]
      rw [readMembers_congr (skipBlank_append hbefore _)]
      apply readMembers_more hname hgap
      · rw [readNode_append hspace]
        exact hnode.readNode fuel _ (endsNumber_append hbehind (endsNumber_cons rfl))
          (by omega)
      · exact skipBlank_append_cons hbehind rfl _
      · exact hothers.readMembers (fuel + 1) rest (by omega)

end

/-- Whatever the spelling of a tree is, the tree is what is read. -/
theorem Document.read {node : Node} {text : String} (h : Document node text) :
    read text = ⟨node, true⟩ := by
  cases h with
  | @padded before text behind hbefore hnode hbehind =>
      have hends : EndsNumber behind := by
        have hends := endsNumber_append hbehind endsNumber_nil
        rwa [List.append_nil] at hends
      have hnone : skipBlank behind = [] := by
        have hskip := skipBlank_append hbehind []
        rwa [List.append_nil] at hskip
      have hread := hnode.readNode (3 * (before ++ (text ++ behind)).length + 3) behind
        hends (by simp only [List.length_append]; omega)
      simp only [Json.read, String.toList_ofList, readNode_append hbefore, hread, hnone]
      rfl

end Signpost.Json
