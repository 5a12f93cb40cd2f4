import Signpost.Proofs.Pattern.Compiled
import Signpost.Proofs.Regex.Words

namespace Signpost

open Regex Regex.Reading

namespace RegexSeq

variable {part : Regex} {parts : List Regex}

theorem height_le_ofList (hpart : part ∈ parts) : part.height ≤ (ofList parts).height := by
  induction parts with
  | nil => cases hpart
  | cons head tail ih =>
      rw [ofList, height]
      rcases List.mem_cons.mp hpart with rfl | htail
      · exact Nat.le_max_left _ _
      · exact Nat.le_trans (ih htail) (Nat.le_max_right _ _)

theorem lastGroup_le_ofList (hpart : part ∈ parts) :
    part.lastGroup ≤ (ofList parts).lastGroup := by
  induction parts with
  | nil => cases hpart
  | cons head tail ih =>
      rw [ofList, lastGroup]
      rcases List.mem_cons.mp hpart with rfl | htail
      · exact Nat.le_max_left _ _
      · exact Nat.le_trans (ih htail) (Nat.le_max_right _ _)

@[simp] theorem bytes_append (first second : List Regex) :
    (ofList (first ++ second)).bytes = (ofList first).bytes + (ofList second).bytes := by
  induction first with
  | nil => simp [ofList, bytes]
  | cons head tail ih =>
      rw [List.cons_append, ofList, ofList, bytes, bytes, ih, Nat.add_assoc]

theorem bytes_le_ofList (hpart : part ∈ parts) : part.bytes ≤ (ofList parts).bytes := by
  obtain ⟨before, after, rfl⟩ := List.append_of_mem hpart
  rw [bytes_append, ofList, bytes]
  omega

end RegexSeq

@[simp] theorem labelBytes_append (first second : List (String × Nat)) :
    labelBytes (first ++ second) = labelBytes first + labelBytes second := by
  induction first with
  | nil => simp [labelBytes]
  | cons label rest ih =>
      rw [List.cons_append, labelBytes, labelBytes, ih]
      simp only [Nat.add_assoc]

theorem RegexSeq.labelBytes_le_ofList {part : Regex} {parts : List Regex}
    (hpart : part ∈ parts) :
    labelBytes part.groupNames ≤ labelBytes (RegexSeq.ofList parts).groupNames := by
  induction parts with
  | nil => cases hpart
  | cons head tail ih =>
      rw [RegexSeq.ofList, RegexSeq.groupNames, labelBytes_append]
      rcases List.mem_cons.mp hpart with rfl | htail
      · exact Nat.le_add_right _ _
      · exact Nat.le_trans (ih htail) (Nat.le_add_left _ _)

mutual

theorem Regex.lastGroup_shift_mono {offset more : Nat} (hmore : offset ≤ more) :
    (regex : Regex) → (regex.shift offset).lastGroup ≤ (regex.shift more).lastGroup
  | .empty => Nat.le_refl _
  | .char _ => Nat.le_refl _
  | .set _ => Nat.le_refl _
  | .look _ => Nat.le_refl _
  | .group index _ body => by
      have hbody := body.lastGroup_shift_mono hmore
      simp only [Regex.shift, Regex.lastGroup]
      omega
  | .concat parts => parts.lastGroup_shift_mono hmore
  | .alternate branches => branches.lastGroup_shift_mono hmore
  | .iterate _ body => body.lastGroup_shift_mono hmore

theorem RegexSeq.lastGroup_shift_mono {offset more : Nat} (hmore : offset ≤ more) :
    (parts : RegexSeq) → (parts.shift offset).lastGroup ≤ (parts.shift more).lastGroup
  | .nil => Nat.le_refl _
  | .cons head tail => by
      have hhead := head.lastGroup_shift_mono hmore
      have htail := tail.lastGroup_shift_mono hmore
      simp only [RegexSeq.shift, RegexSeq.lastGroup]
      omega

end

mutual

@[simp] theorem Regex.labelBytes_shift (offset : Nat) :
    (regex : Regex) →
      labelBytes (regex.shift offset).groupNames = labelBytes regex.groupNames
  | .empty => rfl
  | .char _ => rfl
  | .set _ => rfl
  | .look _ => rfl
  | .group _ none body => body.labelBytes_shift offset
  | .group _ (some name) body => by
      simp only [Regex.shift, Regex.groupNames, labelBytes, body.labelBytes_shift offset]
  | .concat parts => parts.labelBytes_shift offset
  | .alternate branches => branches.labelBytes_shift offset
  | .iterate _ body => body.labelBytes_shift offset

@[simp] theorem RegexSeq.labelBytes_shift (offset : Nat) :
    (parts : RegexSeq) →
      labelBytes (parts.shift offset).groupNames = labelBytes parts.groupNames
  | .nil => rfl
  | .cons head tail => by
      simp only [RegexSeq.shift, RegexSeq.groupNames, labelBytes_append,
        head.labelBytes_shift offset, tail.labelBytes_shift offset]

end

namespace Regex

structure Bounded (regex : Regex) : Prop where
  height : regex.height ≤ nestLimit
  size : regex.totalBytes ≤ sizeLimit

theorem bytes_anchored (parts : List Regex) :
    (anchored parts).bytes = 2 * stateBytes + (RegexSeq.ofList parts).bytes := by
  simp only [anchored, bytes, RegexSeq.ofList, RegexSeq.bytes, RegexSeq.bytes_append]
  omega

theorem groupBytes_single (body : Regex) :
    (anchored [body]).groupBytes =
      placeBytes * (body.lastGroup + 1) + labelBytes body.groupNames := by
  simp [groupBytes, anchored, lastGroup, groupNames, RegexSeq.ofList, RegexSeq.lastGroup,
    RegexSeq.groupNames]

theorem groupBytes_le_anchored {part : Regex} {parts : List Regex} (hpart : part ∈ parts) :
    placeBytes * (part.lastGroup + 1) + labelBytes part.groupNames ≤
      (anchored parts).groupBytes := by
  have hmem : part ∈ Regex.look .start :: (parts ++ [.look .finish]) := by simp [hpart]
  exact Nat.add_le_add
    (Nat.mul_le_mul_left placeBytes (Nat.succ_le_succ (RegexSeq.lastGroup_le_ofList hmem)))
    (RegexSeq.labelBytes_le_ofList hmem)

variable {parts : List Regex} {index : Nat} {name : Option String} {body : Regex}

theorem groupBytes_of_group (hgroup : .group index name (body.shift index) ∈ parts) :
    (anchored [body.shift 0]).groupBytes ≤ (anchored parts).groupBytes := by
  have hlast : (body.shift 0).lastGroup ≤
      (Regex.group index name (body.shift index)).lastGroup :=
    Nat.le_trans (body.lastGroup_shift_mono (Nat.zero_le index)) (Nat.le_max_right _ _)
  have hlabels : labelBytes (body.shift 0).groupNames ≤
      labelBytes (Regex.group index name (body.shift index)).groupNames := by
    rw [labelBytes_shift]
    cases name with
    | none => rw [groupNames, labelBytes_shift]
    | some name =>
        rw [groupNames, labelBytes, labelBytes_shift]
        exact Nat.le_add_left _ _
  calc (anchored [body.shift 0]).groupBytes
      = placeBytes * ((body.shift 0).lastGroup + 1) + labelBytes
        (body.shift 0).groupNames :=
        groupBytes_single _
    _ ≤ placeBytes * ((Regex.group index name (body.shift index)).lastGroup + 1) +
          labelBytes (Regex.group index name (body.shift index)).groupNames :=
        Nat.add_le_add (Nat.mul_le_mul_left _ (Nat.succ_le_succ hlast)) hlabels
    _ ≤ (anchored parts).groupBytes := groupBytes_le_anchored hgroup

theorem bounded_of_group (hparts : (anchored parts).Bounded)
    (hgroup : .group index name (body.shift index) ∈ parts) :
    (anchored [body.shift 0]).Bounded where
  height := by
    have hmem : Regex.group index name (body.shift index) ∈
        Regex.look .start :: (parts ++ [.look .finish]) := by simp [hgroup]
    have hheight := RegexSeq.height_le_ofList hmem
    have hlimit := hparts.height
    simp only [anchored, height, height_shift] at hheight hlimit
    simp only [anchored, height, RegexSeq.ofList, List.cons_append, List.nil_append,
      RegexSeq.height, height_shift]
    omega
  size := by
    have hbytes := RegexSeq.bytes_le_ofList hgroup
    have hgroups := groupBytes_of_group hgroup
    have hlimit := hparts.size
    rw [bytes, bytes_shift] at hbytes
    rw [totalBytes, bytes_anchored] at hlimit ⊢
    rw [RegexSeq.ofList, RegexSeq.bytes, RegexSeq.ofList, RegexSeq.bytes, bytes_shift]
    omega

end Regex

namespace Pattern

def wholeText (constraint : List Char) : List Char :=
  '^' :: '(' :: '?' :: ':' :: (constraint ++ [')', '$'])

def MatchesWhole (constraint value : List Char) : Prop :=
  ∃ regex, Regex.compile (wholeText constraint) = .ok regex ∧
    (regex.find? (String.ofList value)).isSome

theorem compile_wholeText {constraint : List Char} {final : Reading}
    (hstart : ReadsBehindStart constraint final)
    (hbounded : (anchored [final.current.shift 0]).Bounded) :
    Regex.compile (wholeText constraint) = .ok (anchored [final.current.shift 0]) := by
  have hstep : (top 0 [] [.look .start]).step '('
      ('?' :: ':' :: (constraint ++ [')', '$'])) =
      .ok (inStart, constraint ++ [')', '$']) := rfl
  have hread : initial.readAll (wholeText constraint) =
      .ok (top (0 + final.groups) (final.names ++ [])
        [.look .finish, final.current.shift 0, .look .start]) := by
    rw [wholeText, readAll_start, readAll_top, hstep, ok_bind, hstart]
    rfl
  have hrun : initial.run (wholeText constraint).length (wholeText constraint) =
      .ok (top (0 + final.groups) (final.names ++ [])
        [.look .finish, final.current.shift 0, .look .start]) := hread
  have hcurrent := current_anchored (0 + final.groups) (final.names ++ [])
    [final.current.shift 0]
  rw [List.reverse_singleton, List.singleton_append] at hcurrent
  refine compile_eq ?_ hbounded.size
  simp only [parse, hrun, ok_bind, finish, hcurrent,
    if_neg (Nat.not_lt.mpr hbounded.height)]
  rfl

theorem find?_whole {body : Regex} (hfree : body.lookFree) {value : List Char} :
    ((anchored [body]).find? (String.ofList value)).isSome ↔ value ∈ body.words := by
  have hseq : (RegexSeq.ofList [body]).inTurn value.toArray = body.passage value.toArray :=
    Passage.andThen_stay _
  have hwhole : (∃ saved, body.passage value.toArray 0 value.length saved) ↔
      value ∈ body.words := by
    rw [body.along_words value.toArray hfree]
    constructor
    · rintro ⟨word, hword, hfront, hlength⟩
      rw [Nat.zero_add] at hlength
      rw [List.drop_zero] at hfront
      obtain rfl : word = value := hfront.eq_of_length hlength.symm
      exact hword
    · intro hvalue
      exact ⟨value, hvalue, List.prefix_refl _, (Nat.zero_add _).symm⟩
  rw [← hwhole]
  constructor
  · intro hsome
    obtain ⟨found, hfound⟩ := Option.isSome_iff_exists.mp hsome
    obtain ⟨-, hpassage⟩ := find?_anchored_sound hfound
    rw [String.toList_ofList, hseq] at hpassage
    exact ⟨_, hpassage⟩
  · rintro ⟨saved, hpassage⟩
    have hparts : (RegexSeq.ofList [body]).inTurn (String.ofList value).toList.toArray 0
        (String.ofList value).toList.length saved := by
      rwa [String.toList_ofList, hseq]
    exact find?_anchored_complete hparts

theorem matchesWhole_iff {constraint value : List Char} {final : Reading}
    (hstart : ReadsBehindStart constraint final)
    (hbounded : (anchored [final.current.shift 0]).Bounded)
    (hfree : final.current.lookFree) :
    MatchesWhole constraint value ↔ value ∈ final.current.words := by
  have hshift : (final.current.shift 0).lookFree := by rwa [lookFree_shift]
  rw [← final.current.words_shift 0, ← find?_whole hshift, MatchesWhole,
    compile_wholeText hstart hbounded]
  simp

end Pattern

end Signpost
