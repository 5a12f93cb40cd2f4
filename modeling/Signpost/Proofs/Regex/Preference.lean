import Signpost.Proofs.Regex.Search

namespace Signpost

variable {program : Array Instr} {text : Array Char}

/-- The way to the end that takes the first live way on at every thread, with its
length. -/
inductive Prefers (program : Array Instr) (text : Array Char) :
    Nat → Thread → Thread → Prop
  | finish {thread : Thread} (hpc : thread.pc = program.size) :
      Prefers program text 0 thread thread
  | turn {steps : Nat} {thread next final : Thread} (before after : List Thread)
      (hnext : thread.next program text = before ++ next :: after)
      (hdead : ∀ other ∈ before, ¬ Live program text other.point)
      (hrest : Prefers program text steps next final) :
      Prefers program text (steps + 1) thread final

namespace Prefers

theorem reaches {steps : Nat} {thread final : Thread}
    (h : Prefers program text steps thread final) :
    Reaches program text thread final ∧ final.pc = program.size := by
  induction h with
  | finish hpc => exact ⟨.refl _, hpc⟩
  | turn before after hnext _ _ ih =>
      refine ⟨.head ?_ ih.1, ih.2⟩
      rw [hnext]
      exact List.mem_append_right _ List.mem_cons_self

theorem live {steps : Nat} {thread final : Thread}
    (h : Prefers program text steps thread final) : Live program text thread.point :=
  .of_reaches h.reaches.1 h.reaches.2

theorem next_ne_nil {thread next : Thread} {before after : List Thread}
    (hnext : thread.next program text = before ++ next :: after) :
    thread.pc ≠ program.size := by
  intro hpc
  have hnone : program[thread.pc]? = none := by simp [hpc]
  rw [Thread.next, hnone] at hnext
  exact List.append_ne_nil_of_right_ne_nil _ (List.cons_ne_nil _ _) hnext.symm

theorem first_unique {points : List (Nat × Nat)}
    {before after before' after' : List Thread} {next next' : Thread}
    (hpoints : (before ++ next :: after).map Thread.point = points)
    (hpoints' : (before' ++ next' :: after').map Thread.point = points)
    (hdead : ∀ other ∈ before, ¬ Live program text other.point)
    (hdead' : ∀ other ∈ before', ¬ Live program text other.point)
    (hlive : Live program text next.point) (hlive' : Live program text next'.point) :
    next.point = next'.point := by
  induction before generalizing before' points with
  | nil =>
      cases before' with
      | nil =>
          rw [← hpoints'] at hpoints
          exact (List.cons.inj hpoints).1
      | cons other before' =>
          rw [← hpoints'] at hpoints
          have hpoint : next.point = other.point := (List.cons.inj hpoints).1
          exact (hdead' other List.mem_cons_self (hpoint ▸ hlive)).elim
  | cons other before ih =>
      cases before' with
      | nil =>
          rw [← hpoints'] at hpoints
          have hpoint : other.point = next'.point := (List.cons.inj hpoints).1
          exact (hdead other List.mem_cons_self (hpoint ▸ hlive')).elim
      | cons other' before' =>
          rw [← hpoints'] at hpoints
          exact ih (List.cons.inj hpoints).2 rfl
            (fun thread hthread => hdead thread (List.mem_cons_of_mem _ hthread))
            (fun thread hthread => hdead' thread (List.mem_cons_of_mem _ hthread))

/-- The length of the preferred way depends on the instruction and the position alone. -/
theorem steps_unique {steps steps' : Nat} {thread thread' final final' : Thread}
    (h : Prefers program text steps thread final)
    (h' : Prefers program text steps' thread' final')
    (hpoint : thread'.point = thread.point) :
    steps' = steps := by
  induction h generalizing steps' thread' with
  | finish hpc =>
      cases h' with
      | finish => rfl
      | turn _ _ hnext _ _ =>
          have hpc' : thread'.pc = program.size := (congrArg Prod.fst hpoint).trans hpc
          exact (next_ne_nil hnext hpc').elim
  | turn _ _ hnext hdead hrest ih =>
      cases h' with
      | finish hpc' =>
          have hpc := (congrArg Prod.fst hpoint).symm.trans hpc'
          exact (next_ne_nil hnext hpc).elim
      | turn _ _ hnext' hdead' hrest' =>
          have hpoints := @next_points program text _ _ hpoint
          rw [hnext, hnext'] at hpoints
          have hsame := first_unique hpoints.symm rfl hdead hdead' hrest.live hrest'.live
          rw [ih hrest' hsame.symm]

end Prefers

namespace Explores

variable {waiting : List Thread} {seen : List (Nat × Nat)} {result : Option Thread}

/-- The search ends up with the preferred way from the first live thread that waits, if the
ways from the points that were seen are all longer. -/
theorem prefers (hexplores : Explores program text waiting seen result)
    (before after : List Thread) {thread final : Thread} {steps : Nat}
    (hwaiting : waiting = before ++ thread :: after)
    (hdead : ∀ other ∈ before, ¬ Live program text other.point)
    (hprefers : Prefers program text steps thread final)
    (hseen : ∀ other more end', other.point ∈ seen → Prefers program text more other end' →
      steps < more) : result = some final := by
  induction hexplores generalizing before after thread steps with
  | nil => exact (List.append_ne_nil_of_right_ne_nil _
      (List.cons_ne_nil _ _) hwaiting.symm).elim
  | @skip first rest seen _ hskip _ ih =>
      cases before with
      | nil =>
          obtain ⟨rfl, rfl⟩ := List.cons.inj hwaiting
          rcases hskip with houtside | hmem
          · exact (Nat.not_le.mpr houtside hprefers.live.pc_le).elim
          · exact (Nat.lt_irrefl _ (hseen first steps final hmem hprefers)).elim
      | cons other before =>
          obtain ⟨rfl, rfl⟩ := List.cons.inj hwaiting
          exact ih before after rfl
            (fun thread hthread => hdead thread (List.mem_cons_of_mem _ hthread)) hprefers
            hseen
  | @accept first rest seen hfresh hpc =>
      cases before with
      | nil =>
          obtain ⟨rfl, rfl⟩ := List.cons.inj hwaiting
          cases hprefers with
          | finish => rfl
          | turn _ _ hnext _ _ => exact (Prefers.next_ne_nil hnext hpc).elim
      | cons other before =>
          obtain ⟨rfl, rfl⟩ := List.cons.inj hwaiting
          exact (hdead first List.mem_cons_self (Prefers.finish hpc).live).elim
  | @turn first rest seen _ hfresh hpc _ ih =>
      cases before with
      | nil =>
          obtain ⟨rfl, rfl⟩ := List.cons.inj hwaiting
          cases hprefers with
          | finish hend => exact (hpc hend).elim
          | @turn steps _ next _ before' after' hnext hdead' hrest =>
              have hlonger : ∀ other more end', other.point ∈ first.point :: seen →
                  Prefers program text more other end' → steps < more := by
                intro other more end' hmem hother
                rcases List.mem_cons.mp hmem with hpoint | hold
                · have hsame :=
                    (Prefers.turn _ _ hnext hdead' hrest).steps_unique hother hpoint
                  omega
                · have hless := hseen other more end' hold hother
                  omega
              refine ih before' (after' ++ rest) ?_ hdead' hrest hlonger
              rw [hnext, List.append_assoc, List.cons_append]
      | cons other before =>
          obtain ⟨rfl, rfl⟩ := List.cons.inj hwaiting
          have hfirst := hdead first List.mem_cons_self
          refine ih (first.next program text ++ before) after
            (List.append_assoc ..).symm ?_ hprefers ?_
          · intro other hother hlive
            rcases List.mem_append.mp hother with hnext | hold
            · exact hfirst (live_next hnext hlive)
            · exact hdead other (List.mem_cons_of_mem _ hold) hlive
          · intro other more end' hmem hother
            rcases List.mem_cons.mp hmem with hpoint | hold
            · exact (hfirst (hpoint ▸ hother.live)).elim
            · exact hseen other more end' hold hother

end Explores

theorem run_prefers {final : Thread} {steps : Nat}
    (h : Prefers program text steps ⟨0, 0, []⟩ final) :
    Search.run program text = some final := by
  have hexplores := run_explores program text
  rw [List.range_succ_eq_map, List.map_cons] at hexplores
  refine hexplores.prefers [] _ rfl ?_ h ?_
  · intro other hother
    cases hother
  · intro other more end' hmem
    cases hmem

namespace Prefers

variable {pc pos steps : Nat} {slots : Slots} {final : Thread}

theorem consume {ranges : CharSet} (hinstr : program[pc]? = some (.consume ranges))
    (hchar : text[pos]?.any ranges.contains = true)
    (hrest : Prefers program text steps ⟨pc + 1, pos + 1, slots⟩ final) :
    Prefers program text (steps + 1) ⟨pc, pos, slots⟩ final := by
  refine .turn [] [] ?_ (by simp) hrest
  rw [next_consume hinstr, if_pos hchar]
  rfl

theorem assert {condition : Look} (hinstr : program[pc]? = some (.assert condition))
    (hholds : condition.holds (Thread.charBefore? text pos) text[pos]? = true)
    (hrest : Prefers program text steps ⟨pc + 1, pos, slots⟩ final) :
    Prefers program text (steps + 1) ⟨pc, pos, slots⟩ final := by
  refine .turn [] [] ?_ (by simp) hrest
  rw [next_assert hinstr, if_pos hholds]
  rfl

theorem save {slot : Nat} (hinstr : program[pc]? = some (.save slot))
    (hrest : Prefers program text steps ⟨pc + 1, pos, (slot, pos) :: slots⟩ final) :
    Prefers program text (steps + 1) ⟨pc, pos, slots⟩ final := by
  refine .turn [] [] ?_ (by simp) hrest
  rw [next_save hinstr]
  rfl

theorem fork_first {first second : Int}
    (hinstr : program[pc]? = some (.fork [first, second]))
    (hrest : Prefers program text steps ⟨(pc + first).toNat, pos, slots⟩ final) :
    Prefers program text (steps + 1) ⟨pc, pos, slots⟩ final := by
  refine .turn [] [⟨(pc + second).toNat, pos, slots⟩] ?_ (by simp) hrest
  rw [next_fork hinstr]
  rfl

theorem fork_second {first second : Int}
    (hinstr : program[pc]? = some (.fork [first, second]))
    (hdead : ¬ Live program text ((pc + first).toNat, pos))
    (hrest : Prefers program text steps ⟨(pc + second).toNat, pos, slots⟩ final) :
    Prefers program text (steps + 1) ⟨pc, pos, slots⟩ final := by
  refine .turn [⟨(pc + first).toNat, pos, slots⟩] [] ?_ ?_ hrest
  · rw [next_fork hinstr]
    rfl
  · intro other hother
    obtain rfl := List.mem_singleton.mp hother
    exact hdead

end Prefers

end Signpost
