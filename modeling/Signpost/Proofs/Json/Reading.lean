import Signpost.Proofs.Json.Grammar
import Signpost.Proofs.Json.Style

namespace Signpost

def Number.isExact : Number → Bool
  | .integer value => -(halfLimit : Int) ≤ value && value < wordLimit
  | .float _ => false

mutual

/-- Whether a tree is all there and its numbers are exact. -/
def Node.isExact : Node → Bool
  | .fault => false
  | .null => true
  | .bool _ => true
  | .number value => value.any Number.isExact
  | .text value => value.isSome
  | .array elements => elements.isExact
  | .object members => members.isExact

def NodeSeq.isExact : NodeSeq → Bool
  | .nil => true
  | .fault => false
  | .cons head tail => head.isExact && tail.isExact

def MemberSeq.isExact : MemberSeq → Bool
  | .nil => true
  | .fault => false
  | .cons key value tail => key.isSome && value.isExact && tail.isExact

end

theorem Number.isExact_integer_iff {value : Int} :
    (Number.integer value).isExact ↔ -(halfLimit : Int) ≤ value ∧ value < wordLimit := by
  simp [isExact]

theorem Node.isExact_ofMembers {members : List (String × Node)}
    (h : ∀ member ∈ members, member.2.isExact) : (Node.ofMembers members).isExact := by
  change (MemberSeq.ofList members).isExact
  induction members with
  | nil => rfl
  | cons member rest ih =>
      obtain ⟨hmember, hrest⟩ := List.forall_mem_cons.mp h
      rw [MemberSeq.ofList, MemberSeq.isExact, hmember, ih hrest]
      rfl

theorem Node.isExact_texts (pairs : List (String × String)) :
    (Node.ofMembers (pairs.map fun pair => (pair.1, .text (some pair.2)))).isExact := by
  apply isExact_ofMembers
  intro member hmember
  obtain ⟨pair, -, rfl⟩ := List.mem_map.mp hmember
  rfl

theorem Node.isExact_ofList {elements : List Node}
    (h : ∀ element ∈ elements, element.isExact) :
    (Node.ofList elements).isExact := by
  change (NodeSeq.ofList elements).isExact
  induction elements with
  | nil => rfl
  | cons element rest ih =>
      obtain ⟨helement, hrest⟩ := List.forall_mem_cons.mp h
      rw [NodeSeq.ofList, NodeSeq.isExact, helement, ih hrest]
      rfl

namespace Json

variable {node : Node}

theorem spells_integer {value : Int} (h : (Number.integer value).isExact) :
    Spells (.number (some (.integer value))) (Writing.integer value) := by
  obtain ⟨hleast, hmost⟩ := Number.isExact_integer_iff.mp h
  cases value with
  | ofNat n =>
      have hspells := Spells.number (.natural rfl (spellsMagnitude_toDigits false n))
      rwa [(denotes_natural (Int.ofNat_lt.mp hmost)).value?] at hspells
  | negSucc n =>
      have hspells := Spells.number (.negative rfl (spellsMagnitude_toDigits true (n + 1)))
      rwa [(denotes_negative (Nat.succ_pos n) (by omega)).value?] at hspells

theorem spells_text (value : String) :
    Spells (.text (some value)) (writeText value.toList) :=
  .text (spellsText_written value)

/-! Whole trees.  In front of the bracket that closes a tree stands the gap of the tree,
which counts as the blanks behind its last element or member. -/

mutual

theorem spells_write : ∀ (style : Style) (depth : Nat) (node : Node), node.isExact →
    Spells node (style.write depth node) := by
  intro style depth node h
  cases node with
  | fault => cases h
  | null => exact .null
  | bool value =>
      cases value with
      | true => exact .yes
      | false => exact .no
  | number value =>
      cases value with
      | none => cases h
      | some value =>
          cases value with
          | integer value => exact spells_integer h
          | float value => cases h
  | text value =>
      cases value with
      | none => cases h
      | some value => exact spells_text value
  | array elements =>
      by_cases hnil : elements = .nil
      · subst hnil
        exact .emptyArray blank_nil
      · rw [Style.write_array hnil, ← List.append_assoc]
        exact .array (spellsElements_write style (depth + 1) elements _ h hnil
          (style.gap_blank depth))
  | object members =>
      by_cases hnil : members = .nil
      · subst hnil
        exact .emptyObject blank_nil
      · rw [Style.write_object hnil, ← List.append_assoc]
        exact .object (spellsMembers_write style (depth + 1) members _ h hnil
          (style.gap_blank depth))

theorem spellsElements_write : ∀ (style : Style) (depth : Nat) (elements : NodeSeq)
    (blanks : List Char), elements.isExact → elements ≠ .nil → blanks.all isBlank →
    SpellsElements elements (style.writeElements depth elements ++ blanks) := by
  intro style depth elements blanks h hnil hblanks
  cases elements with
  | nil => contradiction
  | fault => cases h
  | cons head tail =>
      obtain ⟨hhead, htail⟩ := Bool.and_eq_true_iff.mp h
      have hnode := spells_write style depth head hhead
      by_cases hlast : tail = .nil
      · subst hlast
        rw [Style.writeElements, List.append_assoc]
        exact .last (style.gap_blank depth) hnode hblanks
      · rw [Style.writeElements_cons head hlast]
        simp only [List.append_assoc, List.cons_append]
        exact .more (style.gap_blank depth) hnode blank_nil
          (spellsElements_write style depth tail blanks htail hlast hblanks)

theorem spellsMembers_write : ∀ (style : Style) (depth : Nat) (members : MemberSeq)
    (blanks : List Char), members.isExact → members ≠ .nil → blanks.all isBlank →
    SpellsMembers members (style.writeMembers depth members ++ blanks) := by
  intro style depth members blanks h hnil hblanks
  cases members with
  | nil => contradiction
  | fault => cases h
  | cons key value tail =>
      cases key with
      | none => cases h
      | some key =>
          obtain ⟨hvalue, htail⟩ := Bool.and_eq_true_iff.mp h
          have hnode := spells_write style depth value hvalue
          have hname := spellsText_written key
          by_cases hlast : tail = .nil
          · subst hlast
            rw [Style.writeMembers, writeKey]
            simp only [List.append_assoc, List.cons_append, List.nil_append]
            exact .last (style.gap_blank depth) hname blank_nil style.space_blank
              hnode hblanks
          · rw [Style.writeMembers_cons _ value hlast, writeKey]
            simp only [List.append_assoc, List.cons_append, List.nil_append]
            exact .more (style.gap_blank depth) hname blank_nil style.space_blank hnode
              blank_nil (spellsMembers_write style depth tail blanks htail hlast hblanks)

end

/-- What is written in a style is read back, whatever blanks follow it. -/
theorem read_write (style : Style) (depth : Nat) (h : node.isExact) (blanks : List Char)
    (hblanks : blanks.all isBlank) :
    read (String.ofList (style.write depth node ++ blanks)) = ⟨node, true⟩ :=
  (Document.padded blank_nil (spells_write style depth node h) hblanks).read

theorem document_writeCompact (h : node.isExact) : Document node (writeCompact node) := by
  have hspells := spells_write .compact 0 node h
  rw [Style.write_compact] at hspells
  have hdocument := Document.padded blank_nil hspells blank_nil
  rwa [List.nil_append, List.append_nil] at hdocument

theorem read_writeCompact (h : node.isExact) : read (writeCompact node) = ⟨node, true⟩ :=
  (document_writeCompact h).read

theorem read_writePretty (h : node.isExact) :
    read (writePretty node ++ "\n") = ⟨node, true⟩ := by
  have hread := read_write .lines 0 h ['\n'] rfl
  rwa [Style.write_lines, String.ofList_append] at hread

end Json

end Signpost
