import Signpost.Proofs.Regex.Machine
import Mathlib.Tactic.Ring

namespace Signpost

variable {program : Array Instr} {text : Array Char}

section branching

variable {pc pos : Nat} {slots : Slots} {greedy : Bool}

theorem mem_next_choose (away : Nat) (h : program[pc]? = some (.choose greedy away))
    {thread : Thread} :
    thread ∈ Thread.next program text ⟨pc, pos, slots⟩ ↔
      thread = ⟨pc + 1, pos, slots⟩ ∨ thread = ⟨pc + away, pos, slots⟩ := by
  have haway : ((pc : Int) + (away : Int)).toNat = pc + away := by omega
  have hone : ((pc : Int) + 1).toNat = pc + 1 := by omega
  cases greedy with
  | true => simp [next_fork h, haway, hone]
  | false => simp [next_fork h, haway, hone, or_comm]

theorem mem_next_again {back : Nat} (h : program[pc]? = some (.again greedy (-back)))
    (hback : back ≤ pc) {thread : Thread} :
    thread ∈ Thread.next program text ⟨pc, pos, slots⟩ ↔
      thread = ⟨pc - back, pos, slots⟩ ∨ thread = ⟨pc + 1, pos, slots⟩ := by
  have haway : ((pc : Int) + -(back : Int)).toNat = pc - back := by omega
  have hone : ((pc : Int) + 1).toNat = pc + 1 := by omega
  cases greedy with
  | true => simp [next_fork h, haway, hone]
  | false => simp [next_fork h, haway, hone, or_comm]

theorem next_jump {offset : Int} (h : program[pc]? = some (.jump offset)) :
    Thread.next program text ⟨pc, pos, slots⟩ = [⟨(pc + offset).toNat, pos, slots⟩] :=
  next_fork h

end branching

/-! Turns of a passage. -/

namespace Passage

@[simp] theorem turns_le_zero (body : Passage) : body.turns (· ≤ 0) = stay := by
  funext start finish saved
  apply propext
  constructor
  · rintro ⟨number, hnumber, hturns⟩
    obtain rfl : number = 0 := Nat.le_zero.mp hnumber
    exact hturns
  · intro hstay
    exact ⟨0, Nat.le_refl 0, hstay⟩

theorem turns_le_succ (body : Passage) (most : Nat) :
    body.turns (· ≤ most + 1) = stay.either (body.andThen (body.turns (· ≤ most))) := by
  funext start finish saved
  apply propext
  constructor
  · rintro ⟨number, hnumber, hturns⟩
    cases number with
    | zero => exact .inl hturns
    | succ number =>
        obtain ⟨middle, before, after, hbody, hrest, rfl⟩ := hturns
        exact .inr ⟨middle, before, after, hbody,
          ⟨number, Nat.le_of_succ_le_succ hnumber, hrest⟩, rfl⟩
  · rintro (hstay | ⟨middle, before, after, hbody, ⟨number, hnumber, hrest⟩, rfl⟩)
    · exact ⟨0, Nat.zero_le _, hstay⟩
    · exact ⟨number + 1, Nat.succ_le_succ hnumber, middle, before, after, hbody,
        hrest, rfl⟩

theorem turns_any (body : Passage) :
    stay.either (body.turns (1 ≤ ·)) = body.turns fun _ => True := by
  funext start finish saved
  apply propext
  constructor
  · rintro (hstay | ⟨number, -, hturns⟩)
    · exact ⟨0, trivial, hstay⟩
    · exact ⟨number, trivial, hturns⟩
  · rintro ⟨number, -, hturns⟩
    cases number with
    | zero => exact .inl hturns
    | succ number => exact .inr ⟨number + 1, Nat.le_add_left 1 number, hturns⟩

theorem turns_from (body : Passage) {least : Nat} {allowed allowed' : Nat → Prop}
    (h : ∀ number, allowed' number ↔ ∃ more, allowed more ∧ number = least + more) :
    (body.times least).andThen (body.turns allowed) = body.turns allowed' := by
  funext start finish saved
  apply propext
  constructor
  · rintro ⟨middle, before, after, hleast, ⟨more, hmore, hrest⟩, rfl⟩
    refine ⟨least + more, (h _).mpr ⟨more, hmore, rfl⟩, ?_⟩
    rw [times_add]
    exact ⟨middle, before, after, hleast, hrest, rfl⟩
  · rintro ⟨number, hnumber, hturns⟩
    obtain ⟨more, hmore, rfl⟩ := (h number).mp hnumber
    rw [times_add] at hturns
    obtain ⟨middle, before, after, hleast, hrest, rfl⟩ := hturns
    exact ⟨middle, before, after, hleast, ⟨more, hmore, hrest⟩, rfl⟩

end Passage

theorem Count.allows_some_iff (least most : Nat) (greedy : Bool) (number : Nat) :
    Count.allows ⟨least, some most, greedy⟩ number ↔
      ∃ more, more ≤ most - least ∧ number = least + more := by
  simp only [Count.allows, Option.mem_some_iff, forall_eq']
  constructor
  · rintro ⟨hleast, hmost⟩
    exact ⟨number - least, by omega, by omega⟩
  · rintro ⟨more, hmore, rfl⟩
    omega

theorem Count.allows_none_iff (least : Nat) (greedy : Bool) (number : Nat) :
    Count.allows ⟨least + 1, none, greedy⟩ number ↔
      ∃ more, 1 ≤ more ∧ number = least + more := by
  simp only [Count.allows, Option.mem_def, reduceCtorEq, false_implies, implies_true,
    and_true]
  constructor
  · intro hleast
    exact ⟨number - least, by omega, by omega⟩
  · rintro ⟨more, hmore, rfl⟩
    omega

theorem length_upTo (greedy : Bool) (body : List Instr) (most : Nat) :
    (upTo greedy body most).length = most * (body.length + 1) := by
  induction most with
  | zero => simp [upTo]
  | succ most ih =>
      rw [upTo, List.length_cons, List.length_append, ih]
      ring

namespace Performs

variable {body : List Instr} {passage : Passage}

theorem exactly (hbody : Performs program text body passage) (number : Nat) :
    Performs program text (exactly number body) (passage.times number) := by
  induction number with
  | zero => exact .stay
  | succ number ih => exact hbody.append ih

theorem optionally (hbody : Performs program text body passage) (greedy : Bool) :
    Performs program text (optionally greedy body) (Passage.stay.either passage) where
  sound := by
    rintro base start steps slots final ⟨hinstr, hholds⟩ hsteps hfinal
    obtain ⟨fewer, next, rfl, hnext, hrest⟩ := hsteps.leave hfinal hinstr
    rcases (mem_next_choose (body.length + 1) hinstr).mp hnext with rfl | rfl
    · obtain ⟨finish, saved, least, hleast, hpassage, hlast⟩ :=
        hbody.sound hholds hrest hfinal
      refine ⟨finish, saved, least, by omega, .inr hpassage, ?_⟩
      rwa [Nat.add_assoc, Nat.add_comm 1] at hlast
    · exact ⟨start, [], fewer, Nat.le_succ _, .inl ⟨rfl, rfl⟩, hrest⟩
  complete := by
    rintro base start finish saved slots ⟨hinstr, hholds⟩ (⟨rfl, rfl⟩ | hpassage)
    · exact .single ((mem_next_choose (body.length + 1) hinstr).mpr (.inr rfl))
    · have hrest := hbody.complete slots hholds hpassage
      rw [Nat.add_assoc, Nat.add_comm 1] at hrest
      exact .head ((mem_next_choose (body.length + 1) hinstr).mpr (.inl rfl)) hrest

theorem repeatedly (hbody : Performs program text body passage) (greedy : Bool) :
    Performs program text (repeatedly greedy body) (passage.turns (1 ≤ ·)) where
  sound := by
    intro base start steps slots final hholds hsteps hfinal
    obtain ⟨hholdsBody, hinstr, -⟩ := (holds_append ..).mp hholds
    have hback : body.length ≤ base + body.length := Nat.le_add_left ..
    -- Every turn takes a step at least, which is the one that goes back.
    induction steps using Nat.strongRecOn generalizing start slots with
    | ind steps ih =>
        obtain ⟨middle, saved, fewer, hfewer, hpassage, hmiddle⟩ :=
          hbody.sound hholdsBody hsteps hfinal
        obtain ⟨least, next, rfl, hnext, hrest⟩ := hmiddle.leave hfinal hinstr
        rcases (mem_next_again hinstr hback).mp hnext with rfl | rfl
        · rw [Nat.add_sub_cancel] at hrest
          obtain ⟨finish, more, last, hlast, ⟨number, -, hturns⟩, hlead⟩ :=
            ih least (by omega) hrest
          exact ⟨finish, more ++ saved, last, by omega,
            ⟨number + 1, Nat.le_add_left .., middle, saved, more, hpassage, hturns, rfl⟩,
            by simpa using hlead⟩
        · refine ⟨middle, saved, least, by omega, ⟨1, Nat.le_refl 1, ?_⟩, ?_⟩
          · exact ⟨middle, saved, [], hpassage, ⟨rfl, rfl⟩, rfl⟩
          · simpa [Signpost.repeatedly, Nat.add_assoc] using hrest
  complete := by
    rintro base start finish saved slots hholds ⟨number, hnumber, hturns⟩
    obtain ⟨hholdsBody, hinstr, -⟩ := (holds_append ..).mp hholds
    have hback : body.length ≤ base + body.length := Nat.le_add_left ..
    obtain ⟨more, rfl⟩ := Nat.exists_eq_add_of_le' hnumber
    clear hnumber
    induction more generalizing start saved slots with
    | zero =>
        obtain ⟨_, _, _, hpassage, ⟨rfl, rfl⟩, rfl⟩ := hturns
        have hstep : Reaches program text ⟨base + body.length, finish, saved ++ slots⟩
            ⟨base + body.length + 1, finish, saved ++ slots⟩ :=
          .single ((mem_next_again hinstr hback).mpr (.inr rfl))
        simpa [Signpost.repeatedly, Nat.add_assoc] using
          (hbody.complete slots hholdsBody hpassage).trans hstep
    | succ more ih =>
        obtain ⟨middle, before, after, hpassage, hrest, rfl⟩ := hturns
        have hturn := hbody.complete slots hholdsBody hpassage
        have hstep : Reaches program text ⟨base + body.length, middle, before ++ slots⟩
            ⟨base, middle, before ++ slots⟩ := by
          apply Reaches.single
          rw [mem_next_again hinstr hback, Nat.add_sub_cancel]
          exact .inl rfl
        rw [List.append_assoc]
        exact (hturn.trans hstep).trans (ih (before ++ slots) hrest)

theorem loop (hbody : Performs program text body passage) (greedy : Bool) :
    Performs program text (zeroOrMore greedy false body)
      (passage.turns fun _ => True) where
  sound := by
    intro base start steps slots final hholds hsteps hfinal
    obtain ⟨hchoose, hbodyAndJump⟩ := (holds_cons ..).mp hholds
    obtain ⟨hholdsBody, hjump, -⟩ := (holds_append ..).mp hbodyAndJump
    induction steps using Nat.strongRecOn generalizing start slots with
    | ind steps ih =>
        obtain ⟨fewer, next, rfl, hnext, hrest⟩ := hsteps.leave hfinal hchoose
        rcases (mem_next_choose (body.length + 2) hchoose).mp hnext with rfl | rfl
        · obtain ⟨middle, saved, least, hleast, hpassage, hmiddle⟩ :=
            hbody.sound hholdsBody hrest hfinal
          obtain ⟨last, next, rfl, hnext, hback⟩ := hmiddle.leave hfinal hjump
          rw [next_jump hjump, List.mem_singleton] at hnext
          have hbase : (((base + 1 + body.length : Nat) : Int) +
              -((body.length : Int) + 1)).toNat = base := by omega
          rw [hbase] at hnext
          subst hnext
          obtain ⟨finish, more, final, hfinal, ⟨number, -, hturns⟩, hlead⟩ :=
            ih last (by omega) hback
          exact ⟨finish, more ++ saved, final, by omega,
            ⟨number + 1, trivial, middle, saved, more, hpassage, hturns, rfl⟩,
            by simpa using hlead⟩
        · refine ⟨start, [], fewer, Nat.le_succ _, ⟨0, trivial, rfl, rfl⟩, ?_⟩
          simpa [Signpost.zeroOrMore, Nat.add_assoc] using hrest
  complete := by
    rintro base start finish saved slots hholds ⟨number, -, hturns⟩
    obtain ⟨hchoose, hbodyAndJump⟩ := (holds_cons ..).mp hholds
    obtain ⟨hholdsBody, hjump, -⟩ := (holds_append ..).mp hbodyAndJump
    induction number generalizing start saved slots with
    | zero =>
        obtain ⟨rfl, rfl⟩ := hturns
        have hleave : Reaches program text ⟨base, finish, slots⟩
            ⟨base + (body.length + 2), finish, slots⟩ :=
          .single ((mem_next_choose (body.length + 2) hchoose).mpr (.inr rfl))
        simpa [Signpost.zeroOrMore, Nat.add_assoc] using hleave
    | succ number ih =>
        obtain ⟨middle, before, after, hpassage, hrest, rfl⟩ := hturns
        have henter : Reaches program text ⟨base, start, slots⟩ ⟨base + 1, start, slots⟩ :=
          .single ((mem_next_choose (body.length + 2) hchoose).mpr (.inl rfl))
        have hturn := hbody.complete slots hholdsBody hpassage
        have hback : Reaches program text ⟨base + 1 + body.length, middle, before ++ slots⟩
            ⟨base, middle, before ++ slots⟩ := by
          apply Reaches.single
          rw [next_jump hjump, List.mem_singleton]
          congr
          omega
        rw [List.append_assoc]
        exact henter.trans (hturn.trans (hback.trans (ih (before ++ slots) hrest)))

theorem zeroOrMore (hbody : Performs program text body passage) (greedy nullable : Bool) :
    Performs program text (zeroOrMore greedy nullable body)
      (passage.turns fun _ => True) := by
  cases nullable with
  | true =>
      rw [← Passage.turns_any]
      exact (hbody.repeatedly greedy).optionally greedy
  | false => exact hbody.loop greedy

theorem upTo (hbody : Performs program text body passage) (greedy : Bool) (most : Nat) :
    Performs program text (upTo greedy body most) (passage.turns (· ≤ most)) := by
  induction most with
  | zero =>
      rw [Passage.turns_le_zero]
      exact .stay
  | succ most ih =>
      have hlength : ((body ++ Signpost.upTo greedy body most).length + 1 : Int) =
          (most + 1) * (body.length + 1) := by
        rw [List.length_append, length_upTo]
        push_cast
        ring
      have hrest := (hbody.append ih).optionally greedy
      rw [Signpost.optionally, hlength] at hrest
      rw [Passage.turns_le_succ]
      exact hrest

theorem code (hbody : Performs program text body passage) (count : Count)
    (nullable : Bool) :
    Performs program text (count.code nullable body) (passage.turns count.allows) := by
  obtain ⟨least, most, greedy⟩ := count
  cases most with
  | some most =>
      rw [← passage.turns_from (fun number => Count.allows_some_iff ..)]
      exact (hbody.exactly least).append (hbody.upTo greedy (most - least))
  | none =>
      cases least with
      | zero =>
          have hallows : Count.allows ⟨0, none, greedy⟩ = fun _ => True := by
            funext number
            simp [Count.allows]
          rw [hallows]
          exact hbody.zeroOrMore greedy nullable
      | succ least =>
          rw [← passage.turns_from (fun number => Count.allows_none_iff ..)]
          exact (hbody.exactly least).append (hbody.repeatedly greedy)

end Performs

/-! The code of a choice.  A block starts as far behind the choice as its offset says, and
the jump at its end leads behind the last block. -/

theorem length_blocks (branches : List (List Instr)) :
    (blocks branches).length = blocksLength branches := by
  induction branches with
  | nil => rfl
  | cons block rest ih =>
      simp only [blocks, blocksLength, List.length_append, List.length_cons, ih]
      omega

theorem holds_blocks_cons {block : List Instr} {rest : List (List Instr)}
    {fork start : Nat} :
    Holds program (fork + start) (blocks (block :: rest)) ↔
      Holds program (fork + start) block ∧
        program[fork + start + block.length]? = some (.jump (blocksLength rest + 1)) ∧
        Holds program (fork + (start + (block.length + 1))) (blocks rest) := by
  rw [blocks, holds_append, holds_cons]
  simp only [Nat.add_assoc]

theorem mem_blockOffsets_cons {block : List Instr} {rest : List (List Instr)}
    {start : Nat} {offset : Int} :
    offset ∈ blockOffsets start (block :: rest) ↔
      offset = start ∨ offset ∈ blockOffsets (start + (block.length + 1) : Nat) rest := by
  rw [blockOffsets, List.mem_cons]
  push_cast
  rfl

theorem blocks_end (fork start : Nat) (block : List Instr) (rest : List (List Instr)) :
    fork + start + blocksLength (block :: rest) =
      fork + (start + (block.length + 1)) + blocksLength rest := by
  rw [blocksLength]
  omega

/-- Code for every branch of a choice, in order. -/
inductive BranchesPerform (program : Array Instr) (text : Array Char) :
    List (List Instr) → Passage → Prop
  | nil : BranchesPerform program text [] .never
  | cons {block : List Instr} {rest : List (List Instr)} {first others : Passage}
      (hfirst : Performs program text block first)
      (hothers : BranchesPerform program text rest others) :
      BranchesPerform program text (block :: rest) (first.either others)

namespace BranchesPerform

variable {branches : List (List Instr)} {passage : Passage}

theorem next_leave {block : List Instr} {rest : List (List Instr)} {base pos : Nat}
    {slots : Slots}
    (hjump : program[base + block.length]? = some (.jump (blocksLength rest + 1))) :
    Thread.next program text ⟨base + block.length, pos, slots⟩ =
      [⟨base + blocksLength (block :: rest), pos, slots⟩] := by
  rw [next_jump hjump, blocksLength]
  congr
  omega

theorem sound (hbranches : BranchesPerform program text branches passage)
    {fork start pos steps : Nat} {slots : Slots} {final : Thread} {offset : Int}
    (hholds : Holds program (fork + start) (blocks branches))
    (hoffset : offset ∈ blockOffsets start branches)
    (hsteps : Leads program text steps ⟨(fork + offset).toNat, pos, slots⟩ final)
    (hfinal : final.pc = program.size) :
    ∃ finish saved fewer, fewer ≤ steps ∧ passage pos finish saved ∧
      Leads program text fewer
        ⟨fork + start + blocksLength branches, finish, saved ++ slots⟩ final := by
  induction hbranches generalizing start with
  | nil => cases hoffset
  | @cons block rest first others hfirst hothers ih =>
      obtain ⟨hblock, hjump, hrest⟩ := holds_blocks_cons.mp hholds
      rcases mem_blockOffsets_cons.mp hoffset with rfl | hoffset
      · have hpc : ((fork : Int) + (start : Int)).toNat = fork + start := by omega
        rw [hpc] at hsteps
        obtain ⟨finish, saved, fewer, hfewer, hpassage, hlead⟩ :=
          hfirst.sound hblock hsteps hfinal
        obtain ⟨least, next, rfl, hnext, hlast⟩ := hlead.leave hfinal hjump
        rw [next_leave hjump, List.mem_singleton] at hnext
        subst hnext
        exact ⟨finish, saved, least, by omega, .inl hpassage, hlast⟩
      · obtain ⟨finish, saved, fewer, hfewer, hpassage, hlead⟩ := ih hrest hoffset
        refine ⟨finish, saved, fewer, hfewer, .inr hpassage, ?_⟩
        rwa [blocks_end]

theorem complete (hbranches : BranchesPerform program text branches passage)
    {fork start pos finish : Nat} {saved : Slots} (slots : Slots)
    (hholds : Holds program (fork + start) (blocks branches))
    (hpassage : passage pos finish saved) :
    ∃ offset ∈ blockOffsets start branches,
      Reaches program text ⟨(fork + offset).toNat, pos, slots⟩
        ⟨fork + start + blocksLength branches, finish, saved ++ slots⟩ := by
  induction hbranches generalizing start with
  | nil => exact hpassage.elim
  | @cons block rest first others hfirst hothers ih =>
      obtain ⟨hblock, hjump, hrest⟩ := holds_blocks_cons.mp hholds
      rcases hpassage with hpassage | hpassage
      · refine ⟨start, mem_blockOffsets_cons.mpr (.inl rfl), ?_⟩
        have hpc : ((fork : Int) + (start : Int)).toNat = fork + start := by omega
        rw [hpc]
        refine (hfirst.complete slots hblock hpassage).trans (.single ?_)
        rw [next_leave hjump]
        exact List.mem_singleton_self _
      · obtain ⟨offset, hoffset, hlead⟩ := ih hrest hpassage
        refine ⟨offset, mem_blockOffsets_cons.mpr (.inr hoffset), ?_⟩
        rwa [blocks_end]

theorem choice (hbranches : BranchesPerform program text branches passage) :
    Performs program text (choice branches) passage where
  sound := by
    rintro base pos steps slots final ⟨hfork, hholds⟩ hsteps hfinal
    obtain ⟨fewer, next, rfl, hnext, hrest⟩ := hsteps.leave hfinal hfork
    rw [next_fork hfork] at hnext
    obtain ⟨offset, hoffset, rfl⟩ := List.mem_map.mp hnext
    obtain ⟨finish, saved, least, hleast, hpassage, hlead⟩ :=
      hbranches.sound hholds hoffset hrest hfinal
    refine ⟨finish, saved, least, by omega, hpassage, ?_⟩
    rw [Signpost.choice, List.length_cons, length_blocks]
    rwa [Nat.add_assoc, Nat.add_comm 1] at hlead
  complete := by
    rintro base pos finish saved slots ⟨hfork, hholds⟩ hpassage
    obtain ⟨offset, hoffset, hlead⟩ := hbranches.complete slots hholds hpassage
    rw [Signpost.choice, List.length_cons, length_blocks]
    rw [Nat.add_assoc, Nat.add_comm 1] at hlead
    refine .head ?_ hlead
    rw [next_fork hfork]
    exact List.mem_map.mpr ⟨offset, hoffset, rfl⟩

end BranchesPerform

@[simp] theorem contains_single (c d : Char) :
    CharSet.contains [CharRange.single c] d = true ↔ d = c := by
  simp only [CharSet.contains, CharRange.contains, CharRange.single, List.any_cons,
    List.any_nil, Bool.or_false, Bool.and_eq_true, decide_eq_true_eq]
  constructor
  · rintro ⟨hlow, hhigh⟩
    exact Char.toNat_inj.mp (Nat.le_antisymm hhigh hlow)
  · rintro rfl
    exact ⟨Nat.le_refl _, Nat.le_refl _⟩

@[simp] theorem any_contains_single (text : Array Char) (c : Char) (pos : Nat) :
    text[pos]?.any (CharSet.contains [CharRange.single c]) = true ↔
      text[pos]? = some c := by
  cases text[pos]? <;> simp

mutual

theorem Regex.performs (program : Array Instr) (text : Array Char) :
    (regex : Regex) → Performs program text regex.code (regex.passage text)
  | .empty => .stay
  | .char c => .consume (any_contains_single text c)
  | .set _ => .consume fun _ => Iff.rfl
  | .look condition => .assert condition
  | .group index _ body =>
      .cons (.save (2 * index))
        ((body.performs program text).append (.save (2 * index + 1)))
  | .concat parts => parts.perform program text
  | .alternate branches => (branches.branchesPerform program text).choice
  | .iterate count body => (body.performs program text).code count body.nullable

theorem RegexSeq.perform (program : Array Instr) (text : Array Char) :
    (parts : RegexSeq) → Performs program text parts.code.flatten (parts.inTurn text)
  | .nil => .stay
  | .cons head tail => (head.performs program text).append (tail.perform program text)

theorem RegexSeq.branchesPerform (program : Array Instr) (text : Array Char) :
    (branches : RegexSeq) →
      BranchesPerform program text branches.code (branches.anyOf text)
  | .nil => .nil
  | .cons head tail =>
      .cons (head.performs program text) (tail.branchesPerform program text)

end

end Signpost
