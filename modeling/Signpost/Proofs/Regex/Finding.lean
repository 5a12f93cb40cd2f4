import Signpost.Proofs.Regex.Code
import Signpost.Proofs.Regex.Search
import Signpost.Proofs.Regex.Shift

namespace Signpost

variable {text : Array Char}

theorem Leads.at_end {program : Array Instr} {steps : Nat} {thread final : Thread}
    (hpc : thread.pc = program.size) (hleads : Leads program text steps thread final) :
    final = thread := by
  cases hleads with
  | stay => rfl
  | step hnext hrest =>
      have hnone : program[thread.pc]? = none := by simp [hpc]
      simp [Thread.next, hnone] at hnext

theorem Leads.pos_le {program : Array Instr} {steps : Nat} {thread final : Thread}
    (hleads : Leads program text steps thread final) (hpos : thread.pos ≤ text.size) :
    final.pos ≤ text.size := by
  induction hleads with
  | stay => exact hpos
  | step hnext _ ih => exact ih (next_pos_le hnext hpos)

namespace Regex

theorem find?_sound {regex : Regex} {path : String} {found : Match}
    (h : regex.find? path = some found) :
    found.text = path.toList.toArray ∧ ∃ start ≤ path.toList.length,
      ∃ finish ≤ path.toList.length,
        regex.passage path.toList.toArray start finish found.slots := by
  obtain ⟨final, hrun, rfl⟩ := Option.map_eq_some_iff.mp h
  obtain ⟨hpc, start, hstart, steps, hsteps⟩ := run_sound hrun
  obtain ⟨finish, saved, fewer, -, hpassage, hrest⟩ :=
    (regex.performs regex.program path.toList.toArray).sound
      (holds_self regex.code) hsteps hpc
  have hfinish := hsteps.pos_le hstart
  have hend := hrest.at_end (by simp [program])
  subst hend
  rw [List.append_nil]
  exact ⟨rfl, start, by simpa using hstart, finish, by simpa using hfinish, hpassage⟩

theorem find?_complete {regex : Regex} {path : String} {start finish : Nat} {saved : Slots}
    (hstart : start ≤ path.toList.length)
    (hpassage : regex.passage path.toList.toArray start finish saved) :
    (regex.find? path).isSome := by
  have hreaches := (regex.performs regex.program path.toList.toArray).complete []
    (holds_self regex.code) hpassage
  rw [find?, Option.isSome_map]
  exact run_complete (by simpa using hstart) hreaches (by simp [program])

end Regex

@[simp] theorem RegexSeq.inTurn_append (first second : List Regex) :
    (RegexSeq.ofList (first ++ second)).inTurn text =
      ((RegexSeq.ofList first).inTurn text).andThen
        ((RegexSeq.ofList second).inTurn text) := by
  induction first with
  | nil => exact (Passage.stay_andThen _).symm
  | cons head tail ih =>
      rw [List.cons_append, RegexSeq.ofList, RegexSeq.ofList, RegexSeq.inTurn,
        RegexSeq.inTurn, ih, Passage.andThen_assoc]

theorem Look.holds_start {start : Nat} (hstart : start ≤ text.size) :
    Look.start.holds (Thread.charBefore? text start) text[start]? = true ↔ start = 0 := by
  cases start with
  | zero => simp [Look.holds, Thread.charBefore?]
  | succ start =>
      have hlt : start < text.size := hstart
      simp [Look.holds, Thread.charBefore?, hlt]

theorem Look.holds_finish {finish : Nat} (hfinish : finish ≤ text.size) :
    Look.finish.holds (Thread.charBefore? text finish) text[finish]? = true ↔
      finish = text.size := by
  simp only [Look.holds, Option.isNone_iff_eq_none, Array.getElem?_eq_none_iff]
  omega

theorem passage_anchored (parts : List Regex) {start finish : Nat} {saved : Slots} :
    Regex.passage text (.concat (.ofList (.look .start :: (parts ++ [.look .finish]))))
        start finish saved ↔
      Look.start.holds (Thread.charBefore? text start) text[start]? = true ∧
        Look.finish.holds (Thread.charBefore? text finish) text[finish]? = true ∧
        (RegexSeq.ofList parts).inTurn text start finish saved := by
  rw [Regex.passage, RegexSeq.ofList, RegexSeq.inTurn, RegexSeq.inTurn_append]
  constructor
  · rintro ⟨_, _, _, ⟨hstart, rfl, rfl⟩, ⟨_, _, _, hparts, hlast, rfl⟩, rfl⟩
    obtain ⟨_, _, _, ⟨hfinish, rfl, rfl⟩, ⟨rfl, rfl⟩, rfl⟩ := hlast
    exact ⟨hstart, hfinish, by simpa using hparts⟩
  · rintro ⟨hstart, hfinish, hparts⟩
    exact ⟨start, [], saved, ⟨hstart, rfl, rfl⟩, ⟨finish, saved, [], hparts,
      ⟨finish, [], [], ⟨hfinish, rfl, rfl⟩, ⟨rfl, rfl⟩, rfl⟩, rfl⟩, by simp⟩

/-- The expression `^…$` around the given parts. -/
def Regex.anchored (parts : List Regex) : Regex :=
  .concat (.ofList (.look .start :: (parts ++ [.look .finish])))

namespace Regex

theorem find?_anchored_sound {parts : List Regex} {path : String} {found : Match}
    (h : (anchored parts).find? path = some found) :
    found.text = path.toList.toArray ∧
      (RegexSeq.ofList parts).inTurn path.toList.toArray 0 path.toList.length
        found.slots := by
  obtain ⟨htext, start, hstart, finish, hfinish, hpassage⟩ := find?_sound h
  obtain ⟨hfirst, hlast, hparts⟩ := (passage_anchored parts).mp hpassage
  obtain rfl := (Look.holds_start (by simpa using hstart)).mp hfirst
  have hend := (Look.holds_finish (by simpa using hfinish)).mp hlast
  rw [List.size_toArray] at hend
  subst hend
  exact ⟨htext, hparts⟩

theorem find?_anchored_complete {parts : List Regex} {path : String} {saved : Slots}
    (hparts :
      (RegexSeq.ofList parts).inTurn path.toList.toArray 0 path.toList.length saved) :
    ((anchored parts).find? path).isSome := by
  refine find?_complete (Nat.zero_le _) ((passage_anchored parts).mpr ⟨?_, ?_, hparts⟩)
  · exact (Look.holds_start (Nat.zero_le _)).mpr rfl
  · exact (Look.holds_finish (by simp)).mpr (by simp)

end Regex

/-! The slots that a passage saves are those of the groups. -/

def Slots.Of (groups : List (Nat × Option String)) (saved : Slots) : Prop :=
  ∀ entry ∈ saved, ∃ group ∈ groups, entry.1 = 2 * group.1 ∨ entry.1 = 2 * group.1 + 1

namespace Slots

variable {groups others : List (Nat × Option String)} {before after : Slots}

theorem of_nil : Of groups [] := by
  intro entry hentry
  cases hentry

theorem Of.mono (hbefore : Of groups before) (hsubset : groups ⊆ others) :
    Of others before := by
  intro entry hentry
  obtain ⟨group, hgroup, hslot⟩ := hbefore entry hentry
  exact ⟨group, hsubset hgroup, hslot⟩

theorem Of.append (hafter : Of groups after) (hbefore : Of groups before) :
    Of groups (after ++ before) := by
  intro entry hentry
  rcases List.mem_append.mp hentry with hlate | hearly
  · exact hafter entry hlate
  · exact hbefore entry hearly

theorem Of.times {body : Passage}
    (hbody : ∀ {start finish saved}, body start finish saved →
    Of groups saved) : ∀ {number start finish : Nat} {saved : Slots},
    body.times number start finish saved → Of groups saved
  | 0, _, _, _, ⟨_, hsaved⟩ => hsaved ▸ of_nil
  | _ + 1, _, _, _, ⟨_, _, _, hfirst, hrest, hsaved⟩ =>
      hsaved ▸ (Of.times hbody hrest).append (hbody hfirst)

end Slots

mutual

theorem Regex.passage_slots : (regex : Regex) → ∀ {start finish : Nat} {saved : Slots},
    regex.passage text start finish saved → saved.Of regex.groups
  | .empty, _, _, _, h => h.2 ▸ Slots.of_nil
  | .char _, _, _, _, h => h.2.2 ▸ Slots.of_nil
  | .set _, _, _, _, h => h.2.2 ▸ Slots.of_nil
  | .look _, _, _, _, h => h.2.2 ▸ Slots.of_nil
  | .group index name body, _, _, _, h => by
      obtain ⟨_, _, _, ⟨rfl, rfl⟩, ⟨_, inner, _, hbody, ⟨rfl, rfl⟩, rfl⟩, rfl⟩ := h
      have hinner := (body.passage_slots hbody).mono
        (List.subset_cons_self (index, name) body.groups)
      intro entry hentry
      simp only [List.append_assoc, List.mem_append, List.mem_singleton] at hentry
      rcases hentry with rfl | hentry | rfl
      · exact ⟨(index, name), List.mem_cons_self, .inr rfl⟩
      · exact hinner entry hentry
      · exact ⟨(index, name), List.mem_cons_self, .inl rfl⟩
  | .concat parts, _, _, _, h => parts.inTurn_slots h
  | .alternate branches, _, _, _, h => branches.anyOf_slots h
  | .iterate _ body, _, _, _, ⟨_, _, htimes⟩ => Slots.Of.times body.passage_slots htimes

theorem RegexSeq.inTurn_slots :
    (parts : RegexSeq) → ∀ {start finish : Nat} {saved : Slots},
    parts.inTurn text start finish saved → saved.Of parts.groups
  | .nil, _, _, _, h => h.2 ▸ Slots.of_nil
  | .cons head tail, _, _, _, ⟨_, _, _, hhead, htail, hsaved⟩ =>
      hsaved ▸ ((tail.inTurn_slots htail).mono (List.subset_append_right _ _)).append
        ((head.passage_slots hhead).mono (List.subset_append_left _ _))

theorem RegexSeq.anyOf_slots : (branches : RegexSeq) →
    ∀ {start finish : Nat} {saved : Slots},
    branches.anyOf text start finish saved → saved.Of branches.groups
  | .nil, _, _, _, h => h.elim
  | .cons head tail, _, _, _, h => by
      rcases h with hhead | htail
      · exact (head.passage_slots hhead).mono (List.subset_append_left _ _)
      · exact (tail.anyOf_slots htail).mono (List.subset_append_right _ _)

end

end Signpost
