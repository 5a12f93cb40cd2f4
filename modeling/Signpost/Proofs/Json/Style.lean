import Signpost.Json.Reading
import Signpost.Json.Writing

namespace Signpost.Json

/-- The blanks in front of what stands at a depth, and behind a colon. -/
structure Style where
  gap : Nat → List Char
  space : List Char
  gap_blank : ∀ depth, (gap depth).all isBlank
  space_blank : space.all isBlank

namespace Style

mutual

def write (style : Style) (depth : Nat) : Node → List Char
  | .array .nil => ['[', ']']
  | .array elements =>
      '[' :: (style.writeElements (depth + 1) elements ++ (style.gap depth ++ [']']))
  | .object .nil => ['\x7b', '\x7d']
  | .object members =>
      '\x7b' :: (style.writeMembers (depth + 1) members ++ (style.gap depth ++ ['\x7d']))
  | leaf => writeLeaf leaf

def writeElements (style : Style) (depth : Nat) : NodeSeq → List Char
  | .cons head .nil => style.gap depth ++ style.write depth head
  | .cons head tail =>
      style.gap depth ++ (style.write depth head ++ ',' :: style.writeElements depth tail)
  | _ => []

def writeMembers (style : Style) (depth : Nat) : MemberSeq → List Char
  | .cons key value .nil =>
      style.gap depth ++ (writeKey key ++ (style.space ++ style.write depth value))
  | .cons key value tail =>
      style.gap depth ++ (writeKey key ++ (style.space ++ (style.write depth value ++
        ',' :: style.writeMembers depth tail)))
  | _ => []

end

variable {style : Style} {depth : Nat} {elements : NodeSeq} {members : MemberSeq}

theorem write_array (h : elements ≠ .nil) :
    style.write depth (.array elements) =
      '[' :: (style.writeElements (depth + 1) elements ++ (style.gap depth ++ [']'])) := by
  rw [write]
  exact h

theorem write_object (h : members ≠ .nil) :
    style.write depth (.object members) =
      '\x7b' :: (style.writeMembers (depth + 1) members ++
        (style.gap depth ++ ['\x7d'])) := by
  rw [write]
  exact h

theorem writeElements_cons (head : Node) (h : elements ≠ .nil) :
    style.writeElements depth (.cons head elements) =
      style.gap depth ++
        (style.write depth head ++ ',' :: style.writeElements depth elements) := by
  rw [writeElements]
  exact h

theorem writeMembers_cons (key : Option String) (value : Node) (h : members ≠ .nil) :
    style.writeMembers depth (.cons key value members) =
      style.gap depth ++ (writeKey key ++ (style.space ++ (style.write depth value ++
        ',' :: style.writeMembers depth members))) := by
  rw [writeMembers]
  exact h

def compact : Style := ⟨fun _ => [], [], fun _ => rfl, rfl⟩

mutual

theorem write_compact : ∀ (node : Node) (depth : Nat),
    compact.write depth node = Json.write node
  | .fault, _ => rfl
  | .null, _ => rfl
  | .bool _, _ => rfl
  | .number _, _ => rfl
  | .text _, _ => rfl
  | .array elements, depth => by
      by_cases hnil : elements = .nil
      · subst hnil
        rfl
      · rw [write_array hnil, writeElements_compact elements (depth + 1), Json.write]
        rfl
  | .object members, depth => by
      by_cases hnil : members = .nil
      · subst hnil
        rfl
      · rw [write_object hnil, writeMembers_compact members (depth + 1), Json.write]
        rfl

theorem writeElements_compact : ∀ (elements : NodeSeq) (depth : Nat),
    compact.writeElements depth elements = Json.writeElements elements
  | .nil, _ => rfl
  | .fault, _ => rfl
  | .cons head tail, depth => by
      by_cases hnil : tail = .nil
      · subst hnil
        exact write_compact head depth
      · rw [writeElements_cons head hnil, write_compact head depth,
          writeElements_compact tail depth, Json.writeElements]
        · rfl
        · exact hnil

theorem writeMembers_compact : ∀ (members : MemberSeq) (depth : Nat),
    compact.writeMembers depth members = Json.writeMembers members
  | .nil, _ => rfl
  | .fault, _ => rfl
  | .cons key value tail, depth => by
      by_cases hnil : tail = .nil
      · subst hnil
        exact congrArg (writeKey key ++ ·) (write_compact value depth)
      · rw [writeMembers_cons key value hnil, write_compact value depth,
          writeMembers_compact tail depth, Json.writeMembers]
        · rw [List.append_assoc]
          rfl
        · exact hnil

end

theorem newline_blank (depth : Nat) : (newline depth).all isBlank := by
  simp [newline, isBlank]

def lines : Style := ⟨newline, [' '], newline_blank, rfl⟩

mutual

theorem write_lines : ∀ (node : Node) (depth : Nat),
    lines.write depth node = layOut depth node
  | .fault, _ => rfl
  | .null, _ => rfl
  | .bool _, _ => rfl
  | .number _, _ => rfl
  | .text _, _ => rfl
  | .array elements, depth => by
      by_cases hnil : elements = .nil
      · subst hnil
        rfl
      · rw [write_array hnil, writeElements_lines elements (depth + 1), layOut]
        · exact congrArg ('[' :: ·) (List.append_assoc _ _ _).symm
        · exact hnil
  | .object members, depth => by
      by_cases hnil : members = .nil
      · subst hnil
        rfl
      · rw [write_object hnil, writeMembers_lines members (depth + 1), layOut]
        · exact congrArg ('\x7b' :: ·) (List.append_assoc _ _ _).symm
        · exact hnil

theorem writeElements_lines : ∀ (elements : NodeSeq) (depth : Nat),
    lines.writeElements depth elements = layOutElements depth elements
  | .nil, _ => rfl
  | .fault, _ => rfl
  | .cons head tail, depth => by
      by_cases hnil : tail = .nil
      · subst hnil
        exact congrArg (newline depth ++ ·) (write_lines head depth)
      · rw [writeElements_cons head hnil, write_lines head depth,
          writeElements_lines tail depth, layOutElements]
        · exact (List.append_assoc _ _ _).symm
        · exact hnil

theorem writeMembers_lines : ∀ (members : MemberSeq) (depth : Nat),
    lines.writeMembers depth members = layOutMembers depth members
  | .nil, _ => rfl
  | .fault, _ => rfl
  | .cons key value tail, depth => by
      by_cases hnil : tail = .nil
      · subst hnil
        rw [writeMembers, write_lines value depth, layOutMembers]
        exact (List.append_assoc _ _ _).symm
      · rw [writeMembers_cons key value hnil, write_lines value depth,
          writeMembers_lines tail depth, layOutMembers]
        · simp only [List.append_assoc, List.cons_append]
          rfl
        · exact hnil

end

end Style

end Signpost.Json
