import Signpost.Proofs.Regex.Passage
import Mathlib.Tactic.Linarith

namespace Signpost

def Holds (program : Array Instr) (base : Nat) : List Instr → Prop
  | [] => True
  | instr :: rest => program[base]? = some instr ∧ Holds program (base + 1) rest

@[simp] theorem holds_nil (program : Array Instr) (base : Nat) :
    Holds program base [] := trivial

@[simp] theorem holds_cons (program : Array Instr) (base : Nat) (instr : Instr)
    (rest : List Instr) :
    Holds program base (instr :: rest) ↔
      program[base]? = some instr ∧ Holds program (base + 1) rest := Iff.rfl

@[simp] theorem holds_append (program : Array Instr) (base : Nat)
    (first second : List Instr) :
    Holds program base (first ++ second) ↔
      Holds program base first ∧ Holds program (base + first.length) second := by
  induction first generalizing base with
  | nil => simp
  | cons instr rest ih =>
      rw [List.cons_append, holds_cons, holds_cons, ih, and_assoc, List.length_cons]
      have heq : base + 1 + rest.length = base + (rest.length + 1) := by omega
      rw [heq]

theorem holds_self (code : List Instr) : Holds code.toArray 0 code := by
  have hgeneral : ∀ (before after : List Instr),
      Holds (before ++ after).toArray before.length after := by
    intro before after
    induction after generalizing before with
    | nil => simp
    | cons instr rest ih =>
        have hrest := ih (before ++ [instr])
        simp only [List.append_assoc, List.cons_append, List.nil_append,
          List.length_append, List.length_cons, List.length_nil, Nat.zero_add] at hrest
        exact ⟨by simp, hrest⟩
  exact hgeneral [] code

variable {program : Array Instr} {text : Array Char}

inductive Leads (program : Array Instr) (text : Array Char) : Nat → Thread → Thread → Prop
  | stay (thread : Thread) : Leads program text 0 thread thread
  | step {steps : Nat} {thread next final : Thread}
      (hnext : next ∈ thread.next program text)
      (hrest : Leads program text steps next final) :
      Leads program text (steps + 1) thread final

def Reaches (program : Array Instr) (text : Array Char) (thread final : Thread) : Prop :=
  ∃ steps, Leads program text steps thread final

theorem Leads.append {first second : Nat} {start middle final : Thread}
    (hfirst : Leads program text first start middle)
    (hsecond : Leads program text second middle final) :
    Leads program text (first + second) start final := by
  induction hfirst with
  | stay => simpa using hsecond
  | step hnext _ ih =>
      have hrest := Leads.step hnext (ih hsecond)
      rwa [Nat.add_right_comm] at hrest

theorem Reaches.refl (thread : Thread) : Reaches program text thread thread :=
  ⟨0, .stay thread⟩

theorem Reaches.trans {start middle final : Thread}
    (hfirst : Reaches program text start middle)
    (hsecond : Reaches program text middle final) : Reaches program text start final := by
  obtain ⟨first, hfirst⟩ := hfirst
  obtain ⟨second, hsecond⟩ := hsecond
  exact ⟨first + second, hfirst.append hsecond⟩

theorem Reaches.head {thread next final : Thread} (hnext : next ∈ thread.next program text)
    (hrest : Reaches program text next final) : Reaches program text thread final := by
  obtain ⟨steps, hsteps⟩ := hrest
  exact ⟨steps + 1, .step hnext hsteps⟩

theorem Reaches.single {thread next : Thread} (hnext : next ∈ thread.next program text) :
    Reaches program text thread next :=
  .head hnext (.refl next)

/-- A run that ends at the end of the program does not end at an instruction of it. -/
theorem Leads.leave {steps : Nat} {thread final : Thread} {instr : Instr}
    (hsteps : Leads program text steps thread final) (hfinal : final.pc = program.size)
    (hinstr : program[thread.pc]? = some instr) :
    ∃ fewer next, steps = fewer + 1 ∧ next ∈ thread.next program text ∧
      Leads program text fewer next final := by
  cases hsteps with
  | stay =>
      rw [hfinal] at hinstr
      simp at hinstr
  | step hnext hrest => exact ⟨_, _, rfl, hnext, hrest⟩

/-! What one instruction does. -/

section next

variable {pc pos : Nat} {slots : Slots}

theorem next_consume {ranges : CharSet} (h : program[pc]? = some (.consume ranges)) :
    Thread.next program text ⟨pc, pos, slots⟩ =
      if text[pos]?.any ranges.contains then [⟨pc + 1, pos + 1, slots⟩] else [] := by
  simp [Thread.next, h, Thread.advance]

theorem next_assert {condition : Look} (h : program[pc]? = some (.assert condition)) :
    Thread.next program text ⟨pc, pos, slots⟩ =
      if condition.holds (Thread.charBefore? text pos) text[pos]? then
        [⟨pc + 1, pos, slots⟩] else [] := by
  simp [Thread.next, h, Thread.advance]

theorem next_save {slot : Nat} (h : program[pc]? = some (.save slot)) :
    Thread.next program text ⟨pc, pos, slots⟩ = [⟨pc + 1, pos, (slot, pos) :: slots⟩] := by
  simp [Thread.next, h, Thread.advance]

theorem next_fork {offsets : List Int} (h : program[pc]? = some (.fork offsets)) :
    Thread.next program text ⟨pc, pos, slots⟩ =
      offsets.map fun offset => ⟨(pc + offset).toNat, pos, slots⟩ := by
  simp [Thread.next, h, Thread.jump]

end next

/-- Code that leads from its start behind its end exactly along a passage.  Leaving the
code on the way to the end of the program takes no more steps than the whole way. -/
structure Performs (program : Array Instr) (text : Array Char) (code : List Instr)
    (passage : Passage) : Prop where
  sound : ∀ {base start steps : Nat} {slots : Slots} {final : Thread},
    Holds program base code → Leads program text steps ⟨base, start, slots⟩ final →
    final.pc = program.size →
    ∃ finish saved fewer, fewer ≤ steps ∧ passage start finish saved ∧
      Leads program text fewer ⟨base + code.length, finish, saved ++ slots⟩ final
  complete : ∀ {base start finish : Nat} {saved : Slots} (slots : Slots),
    Holds program base code → passage start finish saved →
    Reaches program text ⟨base, start, slots⟩ ⟨base + code.length, finish, saved ++ slots⟩

namespace Performs

theorem stay : Performs program text [] .stay where
  sound := fun _ hsteps _ => ⟨_, [], _, Nat.le_refl _, ⟨rfl, rfl⟩, hsteps⟩
  complete := by
    rintro base start finish saved slots - ⟨rfl, rfl⟩
    exact .refl _

theorem consume {ranges : CharSet} {condition : Nat → Prop}
    (hcondition : ∀ pos, text[pos]?.any ranges.contains = true ↔ condition pos) :
    Performs program text [.consume ranges] (.step condition) where
  sound := by
    rintro base start steps slots final ⟨hinstr, -⟩ hsteps hfinal
    obtain ⟨fewer, next, rfl, hnext, hrest⟩ := hsteps.leave hfinal hinstr
    rw [next_consume hinstr] at hnext
    split at hnext
    · rename_i hholds
      obtain rfl := List.mem_singleton.mp hnext
      exact ⟨start + 1, [], fewer, Nat.le_succ _,
        ⟨(hcondition start).mp hholds, rfl, rfl⟩, hrest⟩
    · cases hnext
  complete := by
    rintro base start finish saved slots ⟨hinstr, -⟩ ⟨hholds, rfl, rfl⟩
    apply Reaches.single
    rw [next_consume hinstr, if_pos ((hcondition start).mpr hholds)]
    simp

theorem assert (condition : Look) :
    Performs program text [.assert condition]
      (.check fun pos =>
        condition.holds (Thread.charBefore? text pos) text[pos]? = true) where
  sound := by
    rintro base start steps slots final ⟨hinstr, -⟩ hsteps hfinal
    obtain ⟨fewer, next, rfl, hnext, hrest⟩ := hsteps.leave hfinal hinstr
    rw [next_assert hinstr] at hnext
    split at hnext
    · rename_i hholds
      obtain rfl := List.mem_singleton.mp hnext
      exact ⟨start, [], fewer, Nat.le_succ _, ⟨hholds, rfl, rfl⟩, hrest⟩
    · cases hnext
  complete := by
    rintro base start finish saved slots ⟨hinstr, -⟩ ⟨hholds, rfl, rfl⟩
    apply Reaches.single
    rw [next_assert hinstr, if_pos hholds]
    simp

theorem save (slot : Nat) : Performs program text [.save slot] (.mark slot) where
  sound := by
    rintro base start steps slots final ⟨hinstr, -⟩ hsteps hfinal
    obtain ⟨fewer, next, rfl, hnext, hrest⟩ := hsteps.leave hfinal hinstr
    rw [next_save hinstr] at hnext
    obtain rfl := List.mem_singleton.mp hnext
    exact ⟨start, [(slot, start)], fewer, Nat.le_succ _, ⟨rfl, rfl⟩, hrest⟩
  complete := by
    rintro base start finish saved slots ⟨hinstr, -⟩ ⟨rfl, rfl⟩
    apply Reaches.single
    rw [next_save hinstr]
    simp

theorem append {first second : List Instr} {before after : Passage}
    (hfirst : Performs program text first before)
    (hsecond : Performs program text second after) :
    Performs program text (first ++ second) (before.andThen after) where
  sound := by
    intro base start steps slots final hholds hsteps hfinal
    obtain ⟨hholdsFirst, hholdsSecond⟩ := (holds_append ..).mp hholds
    obtain ⟨middle, saved, fewer, hfewer, hbefore, hmiddle⟩ :=
      hfirst.sound hholdsFirst hsteps hfinal
    obtain ⟨finish, more, least, hleast, hafter, hrest⟩ :=
      hsecond.sound hholdsSecond hmiddle hfinal
    refine ⟨finish, more ++ saved, least, Nat.le_trans hleast hfewer,
      ⟨middle, saved, more, hbefore, hafter, rfl⟩, ?_⟩
    simpa [Nat.add_assoc] using hrest
  complete := by
    rintro base start finish _ slots hholds ⟨middle, saved, more, hbefore, hafter, rfl⟩
    obtain ⟨hholdsFirst, hholdsSecond⟩ := (holds_append ..).mp hholds
    have hmiddle := hfirst.complete slots hholdsFirst hbefore
    have hfinish := hsecond.complete (saved ++ slots) hholdsSecond hafter
    simpa [Nat.add_assoc] using hmiddle.trans hfinish

theorem cons {instr : Instr} {rest : List Instr} {before after : Passage}
    (hfirst : Performs program text [instr] before)
    (hsecond : Performs program text rest after) :
    Performs program text (instr :: rest) (before.andThen after) :=
  hfirst.append hsecond

end Performs

end Signpost
