import Signpost.Proofs.Regex.Machine
import Mathlib.Data.List.Count
import Mathlib.Tactic.Ring

namespace Signpost

variable {program : Array Instr} {text : Array Char}

def Thread.point (thread : Thread) : Nat × Nat := (thread.pc, thread.pos)

theorem next_pos_le {thread next : Thread} (hnext : next ∈ thread.next program text)
    (hpos : thread.pos ≤ text.size) : next.pos ≤ text.size := by
  obtain ⟨pc, pos, slots⟩ := thread
  cases hinstr : program[pc]? with
  | none => simp [Thread.next, hinstr] at hnext
  | some instr =>
      cases instr with
      | consume ranges =>
          rw [next_consume hinstr] at hnext
          split at hnext
          · rename_i hholds
            obtain rfl := List.mem_singleton.mp hnext
            cases hchar : text[pos]? with
            | none => simp [hchar] at hholds
            | some c =>
                obtain ⟨hlt, -⟩ := Array.getElem?_eq_some_iff.mp hchar
                exact hlt
          · cases hnext
      | assert condition =>
          rw [next_assert hinstr] at hnext
          split at hnext
          · obtain rfl := List.mem_singleton.mp hnext
            exact hpos
          · cases hnext
      | save slot =>
          rw [next_save hinstr] at hnext
          obtain rfl := List.mem_singleton.mp hnext
          exact hpos
      | fork offsets =>
          rw [next_fork hinstr] at hnext
          obtain ⟨offset, -, rfl⟩ := List.mem_map.mp hnext
          exact hpos

theorem next_points {thread other : Thread} (hpoint : other.point = thread.point) :
    (other.next program text).map Thread.point =
      (thread.next program text).map Thread.point := by
  obtain ⟨pc, pos, slots⟩ := thread
  obtain ⟨pc', pos', slots'⟩ := other
  simp only [Thread.point, Prod.mk.injEq] at hpoint
  obtain ⟨rfl, rfl⟩ := hpoint
  cases hinstr : program[pc']? with
  | none => simp [Thread.next, hinstr]
  | some instr =>
      cases instr with
      | consume ranges =>
          rw [next_consume hinstr, next_consume hinstr]
          split <;> rfl
      | assert condition =>
          rw [next_assert hinstr, next_assert hinstr]
          split <;> rfl
      | save slot =>
          rw [next_save hinstr, next_save hinstr]
          rfl
      | fork offsets =>
          rw [next_fork hinstr, next_fork hinstr, List.map_map, List.map_map]
          rfl

theorem Leads.at_point {steps : Nat} {thread other final : Thread}
    (hsteps : Leads program text steps thread final)
    (hpoint : other.point = thread.point) :
    ∃ last, Leads program text steps other last ∧ last.point = final.point := by
  induction hsteps generalizing other with
  | stay => exact ⟨other, .stay other, hpoint⟩
  | @step _ thread next _ hnext _ ih =>
      have hmem : next.point ∈ (other.next program text).map Thread.point := by
        rw [next_points hpoint]
        exact List.mem_map_of_mem hnext
      obtain ⟨next', hnext', hpoint'⟩ := List.mem_map.mp hmem
      obtain ⟨last, hlast, hfinal⟩ := ih hpoint'
      exact ⟨last, .step hnext' hlast, hfinal⟩

/-- From a point the end of the program is as many steps away. -/
def Accepts (program : Array Instr) (text : Array Char) (steps : Nat) (point : Nat × Nat) :
    Prop :=
  ∃ thread final, thread.point = point ∧ Leads program text steps thread final ∧
    final.pc = program.size

def Live (program : Array Instr) (text : Array Char) (point : Nat × Nat) : Prop :=
  ∃ steps, Accepts program text steps point

theorem Accepts.lead {steps : Nat} {thread : Thread}
    (haccepts : Accepts program text steps thread.point) :
    ∃ final, Leads program text steps thread final ∧ final.pc = program.size := by
  obtain ⟨other, final, hpoint, hsteps, hfinal⟩ := haccepts
  obtain ⟨last, hlast, hend⟩ := hsteps.at_point hpoint.symm
  exact ⟨last, hlast, (congrArg Prod.fst hend).trans hfinal⟩

theorem Accepts.next {steps : Nat} {thread : Thread}
    (haccepts : Accepts program text steps thread.point) (hpc : thread.pc ≠ program.size) :
    ∃ fewer next, steps = fewer + 1 ∧ next ∈ thread.next program text ∧
      Accepts program text fewer next.point := by
  obtain ⟨final, hsteps, hfinal⟩ := haccepts.lead
  cases hsteps with
  | stay => exact (hpc hfinal).elim
  | step hnext hrest => exact ⟨_, _, rfl, hnext, _, _, rfl, hrest, hfinal⟩

theorem Live.of_reaches {thread final : Thread}
    (hreaches : Reaches program text thread final)
    (hfinal : final.pc = program.size) : Live program text thread.point := by
  obtain ⟨steps, hsteps⟩ := hreaches
  exact ⟨steps, thread, final, rfl, hsteps, hfinal⟩

theorem Live.reaches {thread : Thread} (hlive : Live program text thread.point) :
    ∃ final, Reaches program text thread final ∧ final.pc = program.size := by
  obtain ⟨steps, haccepts⟩ := hlive
  obtain ⟨final, hsteps, hfinal⟩ := haccepts.lead
  exact ⟨final, ⟨steps, hsteps⟩, hfinal⟩

theorem Live.pc_le {thread : Thread} (hlive : Live program text thread.point) :
    thread.pc ≤ program.size := by
  obtain ⟨final, ⟨steps, hsteps⟩, hfinal⟩ := hlive.reaches
  cases hsteps with
  | stay => exact hfinal.le
  | step hnext hrest =>
      by_contra houtside
      have hnone : program[thread.pc]? = none := by
        rw [Array.getElem?_eq_none_iff]
        omega
      simp [Thread.next, hnone] at hnext

theorem live_next {thread next : Thread} (hnext : next ∈ thread.next program text)
    (hlive : Live program text next.point) : Live program text thread.point := by
  obtain ⟨final, hreaches, hfinal⟩ := hlive.reaches
  exact .of_reaches (.head hnext hreaches) hfinal

/-! The turns of the search.  A thread outside the program counts as seen; it leads
nowhere. -/

inductive Explores (program : Array Instr) (text : Array Char) :
    List Thread → List (Nat × Nat) → Option Thread → Prop
  | nil (seen : List (Nat × Nat)) : Explores program text [] seen none
  | skip {thread : Thread} {rest : List Thread} {seen : List (Nat × Nat)}
      {result : Option Thread} (hseen : program.size < thread.pc ∨ thread.point ∈ seen)
      (hrest : Explores program text rest seen result) :
      Explores program text (thread :: rest) seen result
  | accept {thread : Thread} (rest : List Thread) {seen : List (Nat × Nat)}
      (hfresh : thread.point ∉ seen) (hpc : thread.pc = program.size) :
      Explores program text (thread :: rest) seen (some thread)
  | turn {thread : Thread} {rest : List Thread} {seen : List (Nat × Nat)}
      {result : Option Thread} (hfresh : thread.point ∉ seen)
      (hpc : thread.pc ≠ program.size)
      (hrest : Explores program text (thread.next program text ++ rest)
        (thread.point :: seen) result) :
      Explores program text (thread :: rest) seen result

namespace Explores

variable {waiting : List Thread} {seen : List (Nat × Nat)} {result : Option Thread}

theorem sound (hexplores : Explores program text waiting seen result) {final : Thread}
    (hresult : result = some final) :
    final.pc = program.size ∧ ∃ thread ∈ waiting, Reaches program text thread final := by
  induction hexplores with
  | nil => cases hresult
  | skip _ _ ih =>
      obtain ⟨hpc, thread, hmem, hreaches⟩ := ih hresult
      exact ⟨hpc, thread, List.mem_cons_of_mem _ hmem, hreaches⟩
  | accept rest _ hpc =>
      obtain rfl := Option.some.inj hresult
      exact ⟨hpc, _, List.mem_cons_self, .refl _⟩
  | @turn thread rest _ _ _ _ _ ih =>
      obtain ⟨hpc, next, hmem, hreaches⟩ := ih hresult
      refine ⟨hpc, ?_⟩
      rcases List.mem_append.mp hmem with hnext | hrest
      · exact ⟨thread, List.mem_cons_self, .head hnext hreaches⟩
      · exact ⟨next, List.mem_cons_of_mem _ hrest, hreaches⟩

/-- Every way to the end from a point that was seen is longer than one from a waiting
thread. -/
def Ahead (program : Array Instr) (text : Array Char) (waiting : List Thread)
    (seen : List (Nat × Nat)) : Prop :=
  ∀ point ∈ seen, ∀ steps, Accepts program text steps point →
    ∃ thread ∈ waiting, ∃ fewer < steps, Accepts program text fewer thread.point

theorem Ahead.skip {thread : Thread} {rest : List Thread}
    (hahead : Ahead program text (thread :: rest) seen) (hseen : thread.point ∈ seen) :
    Ahead program text rest seen := by
  intro point hpoint steps haccepts
  induction steps using Nat.strongRecOn generalizing point with
  | ind steps ih =>
      obtain ⟨other, hother, fewer, hfewer, hless⟩ := hahead point hpoint steps haccepts
      rcases List.mem_cons.mp hother with rfl | hrest
      · obtain ⟨last, hlast, least, hleast, hfinal⟩ := ih fewer hfewer _ hseen hless
        exact ⟨last, hlast, least, Nat.lt_trans hleast hfewer, hfinal⟩
      · exact ⟨other, hrest, fewer, hfewer, hless⟩

theorem Ahead.turn {thread : Thread} {rest : List Thread}
    (hahead : Ahead program text (thread :: rest) seen) (hpc : thread.pc ≠ program.size) :
    Ahead program text (thread.next program text ++ rest) (thread.point :: seen) := by
  intro point hpoint steps haccepts
  rcases List.mem_cons.mp hpoint with rfl | hold
  · obtain ⟨fewer, next, rfl, hnext, hless⟩ := haccepts.next hpc
    exact ⟨next, List.mem_append_left _ hnext, fewer, Nat.lt_succ_self _, hless⟩
  · obtain ⟨other, hother, fewer, hfewer, hless⟩ := hahead point hold steps haccepts
    rcases List.mem_cons.mp hother with rfl | hrest
    · obtain ⟨least, next, rfl, hnext, hleast⟩ := hless.next hpc
      exact ⟨next, List.mem_append_left _ hnext, least, by omega, hleast⟩
    · exact ⟨other, List.mem_append_right _ hrest, fewer, hfewer, hless⟩

theorem complete (hexplores : Explores program text waiting seen result)
    (hahead : Ahead program text waiting seen)
    (hlive : ∃ thread ∈ waiting, Live program text thread.point) : result ≠ none := by
  induction hexplores with
  | nil =>
      obtain ⟨thread, hmem, -⟩ := hlive
      cases hmem
  | @skip thread rest seen _ hseen _ ih =>
      obtain ⟨other, hmem, hother⟩ := hlive
      rcases hseen with houtside | hseen
      · have hnever : ¬ Live program text thread.point := fun h =>
          absurd h.pc_le (Nat.not_le.mpr houtside)
        have hrest : ∀ {thread'}, thread' ∈ thread :: rest →
            Live program text thread'.point → thread' ∈ rest := by
          intro thread' hmem' hlive'
          rcases List.mem_cons.mp hmem' with rfl | hrest
          · exact (hnever hlive').elim
          · exact hrest
        refine ih ?_ ⟨other, hrest hmem hother, hother⟩
        intro point hpoint steps haccepts
        obtain ⟨last, hlast, fewer, hfewer, hless⟩ := hahead point hpoint steps haccepts
        exact ⟨last, hrest hlast ⟨fewer, hless⟩, fewer, hfewer, hless⟩
      · apply ih (hahead.skip hseen)
        rcases List.mem_cons.mp hmem with rfl | hrest
        · obtain ⟨steps, haccepts⟩ := hother
          obtain ⟨last, hlast, fewer, -, hless⟩ :=
            hahead.skip hseen _ hseen steps haccepts
          exact ⟨last, hlast, fewer, hless⟩
        · exact ⟨other, hrest, hother⟩
  | accept => simp
  | @turn thread rest _ _ _ hpc _ ih =>
      apply ih (hahead.turn hpc)
      obtain ⟨other, hmem, hother⟩ := hlive
      rcases List.mem_cons.mp hmem with rfl | hrest
      · obtain ⟨steps, haccepts⟩ := hother
        obtain ⟨fewer, next, -, hnext, hless⟩ := haccepts.next hpc
        exact ⟨next, List.mem_append_left _ hnext, fewer, hless⟩
      · exact ⟨other, List.mem_append_right _ hrest, hother⟩

end Explores

/-! The marks of the search.  One more is set at every turn, so their number bounds the
turns. -/

structure Marked (program : Array Instr) (text : Array Char) (visited : Visited)
    (seen : List (Nat × Nat)) : Prop where
  width : visited.width = text.size + 1
  size : visited.marks.size = (program.size + 1) * (text.size + 1)
  mark_iff : ∀ {pc pos : Nat}, pc ≤ program.size → pos ≤ text.size →
    (visited.marks[pc * (text.size + 1) + pos]? = some true ↔ (pc, pos) ∈ seen)

theorem mul_add_lt {row column rows columns : Nat} (hrow : row ≤ rows)
    (hcolumn : column ≤ columns) :
    row * (columns + 1) + column < (rows + 1) * (columns + 1) := by
  have hle := Nat.mul_le_mul_right (columns + 1) hrow
  have hexpand :
      (rows + 1) * (columns + 1) = rows * (columns + 1) + (columns + 1) := by ring
  omega

theorem mul_add_inj {row row' column column' columns : Nat} (hcolumn : column ≤ columns)
    (hcolumn' : column' ≤ columns)
    (h : row * (columns + 1) + column = row' * (columns + 1) + column') :
    row = row' ∧ column = column' := by
  have hrow := congrArg (· / (columns + 1)) h
  have hrest := congrArg (· % (columns + 1)) h
  simp only [Nat.add_comm (_ * _) column, Nat.add_comm (_ * _) column',
    Nat.add_mul_div_right _ _ (Nat.succ_pos columns), Nat.add_mul_mod_self_right,
    Nat.div_eq_of_lt (Nat.lt_succ_of_le hcolumn),
      Nat.div_eq_of_lt (Nat.lt_succ_of_le hcolumn'),
    Nat.mod_eq_of_lt (Nat.lt_succ_of_le hcolumn),
      Nat.mod_eq_of_lt (Nat.lt_succ_of_le hcolumn'),
    Nat.zero_add] at hrow hrest
  exact ⟨hrow, hrest⟩

namespace Marked

variable {visited : Visited} {seen : List (Nat × Nat)} {thread : Thread}

theorem none :
    Marked program text (Visited.none (program.size + 1) (text.size + 1)) [] where
  width := rfl
  size := Array.size_replicate
  mark_iff := by
    intro pc pos hpc hpos
    simp [Visited.none, Array.getElem?_replicate]

theorem contains_iff (hmarked : Marked program text visited seen)
    (hpos : thread.pos ≤ text.size) :
    visited.contains thread = true ↔ program.size < thread.pc ∨ thread.point ∈ seen := by
  rw [Visited.contains, Visited.index, hmarked.width]
  rcases Nat.lt_or_ge program.size thread.pc with houtside | hinside
  · have hle := Nat.mul_le_mul_right (text.size + 1) houtside
    have hnone : visited.marks[thread.pc * (text.size + 1) + thread.pos]? =
        Option.none := by
      rw [Array.getElem?_eq_none_iff, hmarked.size]
      exact Nat.le_trans hle (Nat.le_add_right ..)
    simp [hnone, houtside]
  · have hlt := mul_add_lt hinside hpos
    rw [← hmarked.size] at hlt
    rw [Thread.point, ← hmarked.mark_iff hinside hpos, Array.getElem?_eq_getElem hlt]
    simp [Nat.not_lt.mpr hinside]

theorem insert (hmarked : Marked program text visited seen)
    (hpc : thread.pc ≤ program.size) (hpos : thread.pos ≤ text.size) :
    Marked program text (visited.insert thread) (thread.point :: seen) where
  width := hmarked.width
  size := by
    rw [Visited.insert, Array.size_setIfInBounds]
    exact hmarked.size
  mark_iff := by
    intro pc pos hpc' hpos'
    have hlt := mul_add_lt hpc hpos
    rw [← hmarked.size] at hlt
    simp only [Visited.insert, Visited.index, hmarked.width, Array.getElem?_setIfInBounds]
    split
    · rename_i heq
      obtain ⟨rfl, rfl⟩ := mul_add_inj hpos hpos' heq
      simp [Thread.point]
    · rename_i hne
      rw [hmarked.mark_iff hpc' hpos', List.mem_cons, Thread.point]
      constructor
      · exact .inr
      · rintro (heq | hmem)
        · obtain ⟨rfl, rfl⟩ := Prod.mk.inj heq
          exact (hne rfl).elim
        · exact hmem

end Marked

def Visited.unmarked (visited : Visited) : Nat := visited.marks.toList.count false

theorem Marked.unmarked_insert {visited : Visited} {seen : List (Nat × Nat)}
    {thread : Thread} (hmarked : Marked program text visited seen)
    (hpc : thread.pc ≤ program.size) (hpos : thread.pos ≤ text.size)
    (hfresh : thread.point ∉ seen) :
    (visited.insert thread).unmarked + 1 = visited.unmarked := by
  have hlt := mul_add_lt hpc hpos
  rw [← hmarked.size] at hlt
  have hmark : visited.marks[thread.pc * (text.size + 1) + thread.pos] = false := by
    have hnot := fun h => hfresh ((hmarked.mark_iff hpc hpos).mp h)
    rw [Array.getElem?_eq_getElem hlt, Option.some_inj] at hnot
    exact Bool.eq_false_iff.mpr hnot
  have hlist : visited.marks.toList[thread.pc * (text.size + 1) + thread.pos] = false := by
    rw [Array.getElem_toList]
    exact hmark
  have hmem : false ∈ visited.marks.toList := hlist ▸ List.getElem_mem _
  have hpositive : 0 < visited.marks.toList.count false := List.count_pos_iff.mpr hmem
  rw [Visited.unmarked, Visited.unmarked, Visited.insert, Visited.index, hmarked.width,
    Array.toList_setIfInBounds, List.count_set hlt, hlist]
  have hbeq : (true == false) = false := rfl
  simp only [beq_self_eq_true, if_true, hbeq, Bool.false_eq_true, if_false]
  omega

theorem explores_of_dropWhile {visited : Visited} {seen : List (Nat × Nat)}
    {result : Option Thread} (hmarked : Marked program text visited seen)
    (waiting : List Thread) (hpos : ∀ thread ∈ waiting, thread.pos ≤ text.size)
    (h : Explores program text (waiting.dropWhile visited.contains) seen result) :
    Explores program text waiting seen result := by
  induction waiting with
  | nil => exact h
  | cons thread rest ih =>
      cases hcontains : visited.contains thread with
      | true =>
          rw [List.dropWhile_cons, if_pos hcontains] at h
          have hseen := (hmarked.contains_iff (hpos _ List.mem_cons_self)).mp hcontains
          exact .skip hseen (ih (fun _ hmem => hpos _ (List.mem_cons_of_mem _ hmem)) h)
      | false => rwa [List.dropWhile_cons, if_neg (by simp [hcontains])] at h

theorem explore_explores (bound : Nat) {waiting : List Thread} {visited : Visited}
    {seen : List (Nat × Nat)} (hmarked : Marked program text visited seen)
    (hpos : ∀ thread ∈ waiting, thread.pos ≤ text.size)
    (hbound : visited.unmarked < bound) :
    Explores program text waiting seen
      (Search.explore program text bound waiting visited) := by
  induction bound generalizing waiting visited seen with
  | zero => exact (Nat.not_lt_zero _ hbound).elim
  | succ bound ih =>
      apply explores_of_dropWhile hmarked waiting hpos
      rw [Search.explore]
      cases hwaiting : waiting.dropWhile visited.contains with
      | nil => exact .nil seen
      | cons thread rest =>
          have hsuffix : thread :: rest <:+ waiting := hwaiting ▸ List.dropWhile_suffix _
          have hthread := hpos thread (hsuffix.subset List.mem_cons_self)
          have hfresh : ¬ (program.size < thread.pc ∨ thread.point ∈ seen) := by
            rw [← hmarked.contains_iff hthread]
            have hhead := List.head?_dropWhile_not visited.contains waiting
            rw [hwaiting] at hhead
            simpa using hhead
          obtain ⟨hinside, hfresh⟩ := not_or.mp hfresh
          have hpc : thread.pc ≤ program.size := Nat.not_lt.mp hinside
          by_cases hend : thread.pc = program.size
          · simp only [hend, if_true]
            exact .accept rest hfresh hend
          · simp only [hend, if_false]
            refine .turn hfresh hend (ih (hmarked.insert hpc hthread) ?_ ?_)
            · intro next hnext
              rcases List.mem_append.mp hnext with hnext | hrest
              · exact next_pos_le hnext hthread
              · exact hpos next (hsuffix.subset (List.mem_cons_of_mem _ hrest))
            · have hless := hmarked.unmarked_insert hpc hthread hfresh
              omega

theorem run_explores (program : Array Instr) (text : Array Char) :
    Explores program text ((List.range (text.size + 1)).map fun pos => ⟨0, pos, []⟩) []
      (Search.run program text) := by
  apply explore_explores _ Marked.none
  · intro thread hthread
    obtain ⟨pos, hmem, rfl⟩ := List.mem_map.mp hthread
    exact Nat.le_of_lt_succ (List.mem_range.mp hmem)
  · have hcount := List.count_le_length (a := false)
      (l := (Visited.none (program.size + 1) (text.size + 1)).marks.toList)
    simp only [Visited.none, Array.length_toList, Array.size_replicate] at hcount
    exact Nat.lt_succ_of_le hcount

theorem run_sound {final : Thread} (hrun : Search.run program text = some final) :
    final.pc = program.size ∧
      ∃ pos ≤ text.size, Reaches program text ⟨0, pos, []⟩ final := by
  obtain ⟨hpc, thread, hmem, hreaches⟩ := (run_explores program text).sound hrun
  obtain ⟨pos, hpos, rfl⟩ := List.mem_map.mp hmem
  exact ⟨hpc, pos, Nat.le_of_lt_succ (List.mem_range.mp hpos), hreaches⟩

theorem run_complete {pos : Nat} {final : Thread} (hpos : pos ≤ text.size)
    (hreaches : Reaches program text ⟨0, pos, []⟩ final)
    (hfinal : final.pc = program.size) :
    (Search.run program text).isSome := by
  rw [Option.isSome_iff_ne_none]
  apply (run_explores program text).complete
  · intro point hpoint
    cases hpoint
  · exact ⟨⟨0, pos, []⟩, List.mem_map_of_mem (List.mem_range.mpr (Nat.lt_succ_of_le hpos)),
      .of_reaches hreaches hfinal⟩

end Signpost
