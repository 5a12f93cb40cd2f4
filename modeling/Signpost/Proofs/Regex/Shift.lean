import Signpost.Proofs.Except
import Signpost.Regex.Budget
import Signpost.Regex.Class
import Mathlib.Data.List.Basic

namespace Signpost

mutual

def Regex.shift (offset : Nat) : Regex → Regex
  | .empty => .empty
  | .char c => .char c
  | .set ranges => .set ranges
  | .look condition => .look condition
  | .group index name body => .group (offset + index) name (body.shift offset)
  | .concat parts => .concat (parts.shift offset)
  | .alternate branches => .alternate (branches.shift offset)
  | .iterate count body => .iterate count (body.shift offset)

def RegexSeq.shift (offset : Nat) : RegexSeq → RegexSeq
  | .nil => .nil
  | .cons head tail => .cons (head.shift offset) (tail.shift offset)

end

@[simp] theorem RegexSeq.shift_ofList (offset : Nat) (parts : List Regex) :
    (ofList parts).shift offset = ofList (parts.map (Regex.shift offset)) := by
  induction parts with
  | nil => rfl
  | cons head tail ih => simp only [ofList, RegexSeq.shift, List.map_cons, ih]

@[simp] theorem RegexSeq.length_shift (offset : Nat) (parts : RegexSeq) :
    (parts.shift offset).length = parts.length := by
  fun_induction length parts with
  | case1 => rfl
  | case2 head tail ih => rw [RegexSeq.shift, length, ih]

namespace Regex

@[simp] theorem concatOf_shift (offset : Nat) (parts : List Regex) :
    (concatOf parts).shift offset = concatOf (parts.map (shift offset)) := by
  rcases parts with _ | ⟨first, _ | ⟨second, rest⟩⟩
  · rfl
  · rfl
  · simp only [concatOf, shift, RegexSeq.shift_ofList, List.map_cons]

@[simp] theorem alternateOf_shift (offset : Nat) (branches : List Regex) :
    (alternateOf branches).shift offset = alternateOf (branches.map (shift offset)) := by
  rcases branches with _ | ⟨first, _ | ⟨second, rest⟩⟩
  · rfl
  · rfl
  · simp only [alternateOf, shift, RegexSeq.shift_ofList, List.map_cons]

@[simp] theorem iterateOf_shift (offset : Nat) (count : Count) (body : Regex) :
    (iterateOf count body).shift offset = iterateOf count (body.shift offset) := by
  unfold iterateOf
  split
  · rfl
  · split <;> rfl

end Regex

/-! Measures that do not depend on the numbers of groups. -/

mutual

@[simp] theorem Regex.nullable_shift (offset : Nat) :
    (regex : Regex) → (regex.shift offset).nullable = regex.nullable
  | .empty => rfl
  | .char _ => rfl
  | .set _ => rfl
  | .look _ => rfl
  | .group _ _ body => body.nullable_shift offset
  | .concat parts => parts.allNullable_shift offset
  | .alternate branches => branches.someNullable_shift offset
  | .iterate count body => by
      rw [Regex.shift, Regex.nullable, Regex.nullable, body.nullable_shift offset]

@[simp] theorem RegexSeq.allNullable_shift (offset : Nat) :
    (parts : RegexSeq) → (parts.shift offset).allNullable = parts.allNullable
  | .nil => rfl
  | .cons head tail => by
      rw [RegexSeq.shift, RegexSeq.allNullable, RegexSeq.allNullable,
        head.nullable_shift offset, tail.allNullable_shift offset]

@[simp] theorem RegexSeq.someNullable_shift (offset : Nat) :
    (parts : RegexSeq) → (parts.shift offset).someNullable = parts.someNullable
  | .nil => rfl
  | .cons head tail => by
      rw [RegexSeq.shift, RegexSeq.someNullable, RegexSeq.someNullable,
        head.nullable_shift offset, tail.someNullable_shift offset]

end

mutual

@[simp] theorem Regex.height_shift (offset : Nat) :
    (regex : Regex) → (regex.shift offset).height = regex.height
  | .empty => rfl
  | .char _ => rfl
  | .set _ => rfl
  | .look _ => rfl
  | .group _ _ body => by
      rw [Regex.shift, Regex.height, Regex.height, body.height_shift offset]
  | .concat parts => by
      rw [Regex.shift, Regex.height, Regex.height, parts.height_shift offset]
  | .alternate branches => by
      rw [Regex.shift, Regex.height, Regex.height, branches.height_shift offset]
  | .iterate _ body => by
      rw [Regex.shift, Regex.height, Regex.height, body.height_shift offset]

@[simp] theorem RegexSeq.height_shift (offset : Nat) :
    (parts : RegexSeq) → (parts.shift offset).height = parts.height
  | .nil => rfl
  | .cons head tail => by
      rw [RegexSeq.shift, RegexSeq.height, RegexSeq.height, head.height_shift offset,
        tail.height_shift offset]

end

mutual

@[simp] theorem Regex.bytes_shift (offset : Nat) :
    (regex : Regex) → (regex.shift offset).bytes = regex.bytes
  | .empty => rfl
  | .char _ => rfl
  | .set _ => rfl
  | .look _ => rfl
  | .group _ _ body => by
      rw [Regex.shift, Regex.bytes, Regex.bytes, body.bytes_shift offset]
  | .concat parts => parts.bytes_shift offset
  | .alternate branches => by
      rw [Regex.shift, Regex.bytes, Regex.bytes, branches.length_shift offset,
        branches.bytes_shift offset]
  | .iterate count body => by
      rw [Regex.shift, Regex.bytes, Regex.bytes, body.nullable_shift offset,
        body.bytes_shift offset]

@[simp] theorem RegexSeq.bytes_shift (offset : Nat) :
    (parts : RegexSeq) → (parts.shift offset).bytes = parts.bytes
  | .nil => rfl
  | .cons head tail => by
      rw [RegexSeq.shift, RegexSeq.bytes, RegexSeq.bytes, head.bytes_shift offset,
        tail.bytes_shift offset]

end

mutual

def Regex.groups : Regex → List (Nat × Option String)
  | .empty => []
  | .char _ => []
  | .set _ => []
  | .look _ => []
  | .group index name body => (index, name) :: body.groups
  | .concat parts => parts.groups
  | .alternate branches => branches.groups
  | .iterate _ body => body.groups

def RegexSeq.groups : RegexSeq → List (Nat × Option String)
  | .nil => []
  | .cons head tail => head.groups ++ tail.groups

end

/-- The place of a group in the list of names, if it has a name. -/
def namedPlace? (group : Nat × Option String) : Option (String × Nat) :=
  group.2.map fun name => (name, group.1)

mutual

theorem Regex.groupNames_eq : (regex : Regex) →
    regex.groupNames = regex.groups.filterMap namedPlace?
  | .empty => rfl
  | .char _ => rfl
  | .set _ => rfl
  | .look _ => rfl
  | .group _ none body => body.groupNames_eq
  | .group index (some name) body => congrArg ((name, index) :: ·) body.groupNames_eq
  | .concat parts => parts.groupNames_eq
  | .alternate branches => branches.groupNames_eq
  | .iterate _ body => body.groupNames_eq

theorem RegexSeq.groupNames_eq : (parts : RegexSeq) →
    parts.groupNames = parts.groups.filterMap namedPlace?
  | .nil => rfl
  | .cons head tail => by
      rw [RegexSeq.groupNames, RegexSeq.groups, List.filterMap_append, head.groupNames_eq,
        tail.groupNames_eq]

end

mutual

@[simp] theorem Regex.groups_shift (offset : Nat) : (regex : Regex) →
    (regex.shift offset).groups = regex.groups.map fun group => (offset + group.1, group.2)
  | .empty => rfl
  | .char _ => rfl
  | .set _ => rfl
  | .look _ => rfl
  | .group index name body =>
      congrArg ((offset + index, name) :: ·) (body.groups_shift offset)
  | .concat parts => parts.groups_shift offset
  | .alternate branches => branches.groups_shift offset
  | .iterate _ body => body.groups_shift offset

@[simp] theorem RegexSeq.groups_shift (offset : Nat) : (parts : RegexSeq) →
    (parts.shift offset).groups = parts.groups.map fun group => (offset + group.1, group.2)
  | .nil => rfl
  | .cons head tail => by
      rw [RegexSeq.shift, RegexSeq.groups, RegexSeq.groups, List.map_append,
        head.groups_shift offset, tail.groups_shift offset]

end

@[simp] theorem RegexSeq.groups_ofList (parts : List Regex) :
    (ofList parts).groups = parts.flatMap Regex.groups := by
  induction parts with
  | nil => rfl
  | cons head tail ih => rw [ofList, RegexSeq.groups, ih, List.flatMap_cons]

mutual

theorem Regex.shift_of_groups (offset : Nat) : (regex : Regex) → regex.groups = [] →
    regex.shift offset = regex
  | .empty, _ => rfl
  | .char _, _ => rfl
  | .set _, _ => rfl
  | .look _, _ => rfl
  | .concat parts, h => congrArg Regex.concat (parts.shift_of_groups offset h)
  | .alternate branches, h => congrArg Regex.alternate (branches.shift_of_groups offset h)
  | .iterate count body, h =>
      congrArg (Regex.iterate count) (body.shift_of_groups offset h)

theorem RegexSeq.shift_of_groups (offset : Nat) : (parts : RegexSeq) → parts.groups = [] →
    parts.shift offset = parts
  | .nil, _ => rfl
  | .cons head tail, h => by
      obtain ⟨hhead, htail⟩ := List.append_eq_nil_iff.mp h
      rw [RegexSeq.shift, head.shift_of_groups offset hhead,
        tail.shift_of_groups offset htail]

end

namespace Regex

theorem groups_concatOf (parts : List Regex) :
    (concatOf parts).groups = parts.flatMap groups := by
  rcases parts with _ | ⟨first, _ | ⟨second, rest⟩⟩
  · rfl
  · simp [concatOf]
  · exact RegexSeq.groups_ofList _

theorem groups_alternateOf (branches : List Regex) :
    (alternateOf branches).groups = branches.flatMap groups := by
  rcases branches with _ | ⟨first, _ | ⟨second, rest⟩⟩
  · rfl
  · simp [alternateOf]
  · exact RegexSeq.groups_ofList _

theorem groups_iterateOf_subset (count : Count) (body : Regex) :
    (iterateOf count body).groups ⊆ body.groups := by
  unfold iterateOf
  split
  · exact List.nil_subset _
  · split <;> exact List.Subset.refl _

theorem groups_charOf (flags : Flags) (c : Char) : (charOf flags c).groups = [] := by
  unfold charOf
  split
  · split <;> rfl
  · rfl

theorem groups_dotOf (flags : Flags) : (dotOf flags).groups = [] := by
  unfold dotOf
  split
  · rfl
  · split <;> rfl

theorem groups_startOf (flags : Flags) : (startOf flags).groups = [] := by
  unfold startOf
  split
  · split <;> rfl
  · rfl

theorem groups_finishOf (flags : Flags) : (finishOf flags).groups = [] := by
  unfold finishOf
  split
  · split <;> rfl
  · rfl

theorem groups_hexDigits {flags : Flags} {digits code : Nat} {text rest : List Char}
    {part : Regex} (h : hexDigits flags digits code text = .ok (part, rest)) :
    part.groups = [] := by
  fun_induction hexDigits flags digits code text with
  | case1 => cases h
  | case2 => cases h
  | case3 => cases h
  | case4 =>
      obtain ⟨rfl, -⟩ := Prod.mk.inj (Except.ok.inj h)
      exact groups_charOf ..
  | case5 _ _ _ _ _ _ ih => exact ih h

theorem groups_hexBraces {flags : Flags} {empty : Bool} {code : Nat}
    {text rest : List Char} {part : Regex}
    (h : hexBraces flags empty code text = .ok (part, rest)) :
    part.groups = [] := by
  fun_induction hexBraces flags empty code text with
  | case1 => cases h
  | case2 => cases h
  | case3 => cases h
  | case4 =>
      obtain ⟨rfl, -⟩ := Prod.mk.inj (Except.ok.inj h)
      exact groups_charOf ..
  | case5 => cases h
  | case6 _ _ _ _ _ _ _ ih => exact ih h

theorem groups_hexEscape {flags : Flags} {digits : Nat} {text rest : List Char}
    {part : Regex} (h : hexEscape flags digits text = .ok (part, rest)) :
    part.groups = [] := by
  unfold hexEscape at h
  split at h
  · cases h
  · split at h
    · exact groups_hexBraces h
    · exact groups_hexDigits h

theorem groups_wordBoundary {verbose : Bool} {text rest : List Char} {part : Regex}
    (h : wordBoundary verbose text = .ok (part, rest)) : part.groups = [] := by
  unfold wordBoundary at h
  split at h
  · split at h
    · cases h
    · split at h
      · split at h
        · split at h
          · obtain ⟨rfl, -⟩ := Prod.mk.inj (Except.ok.inj h)
            rfl
          · cases h
        · cases h
      · obtain ⟨rfl, -⟩ := Prod.mk.inj (Except.ok.inj h)
        rfl
  · obtain ⟨rfl, -⟩ := Prod.mk.inj (Except.ok.inj h)
    rfl

theorem groups_escapeOf {flags : Flags} {text rest : List Char} {part : Regex}
    (h : escapeOf flags text = .ok (part, rest)) : part.groups = [] := by
  unfold escapeOf at h
  split at h
  · cases h
  · split at h
    · cases h
    · split at h
      · cases h
      · split at h
        · obtain ⟨rfl, -⟩ := Prod.mk.inj (Except.ok.inj h)
          exact groups_charOf ..
        · split at h
          · exact groups_wordBoundary h
          · split at h
            · exact groups_hexEscape h
            · obtain ⟨rfl, -⟩ := Prod.mk.inj (Except.ok.inj h)
              rfl
            · obtain ⟨rfl, -⟩ := Prod.mk.inj (Except.ok.inj h)
              exact groups_charOf ..
            · obtain ⟨rfl, -⟩ := Prod.mk.inj (Except.ok.inj h)
              rfl
            · cases h

theorem groups_classItems {flags : Flags} {negated : Bool} {bound : Nat} {ranges : CharSet}
    {text rest : List Char} {part : Regex}
    (h : classItems flags negated bound ranges text = .ok (part, rest)) :
    part.groups = [] := by
  induction bound generalizing ranges text with
  | zero => cases h
  | succ bound ih =>
      unfold classItems at h
      split at h
      · cases h
      · rename_i c tail _
        split at h
        · split at h
          · exact ih h
          · cases h
        · split at h
          · obtain ⟨rfl, -⟩ := Prod.mk.inj (Except.ok.inj h)
            rfl
          · split at h
            · cases h
            · obtain ⟨found, -, hitems⟩ := exists_of_bind_ok h
              exact ih hitems

theorem groups_classBody {flags : Flags} {negated : Bool} {text rest : List Char}
    {part : Regex} (h : classBody flags negated text = .ok (part, rest)) :
    part.groups = [] := by
  rw [classBody] at h
  obtain ⟨dashes, -, hlater⟩ := exists_of_bind_ok h
  obtain ⟨ranges, -, hitems⟩ := exists_of_bind_ok hlater
  exact groups_classItems hitems

theorem groups_classOf {flags : Flags} {text rest : List Char} {part : Regex}
    (h : classOf flags text = .ok (part, rest)) : part.groups = [] := by
  unfold classOf at h
  split at h
  · cases h
  · split at h
    · cases h
    · exact groups_classBody h
  · exact groups_classBody h

end Regex

end Signpost
