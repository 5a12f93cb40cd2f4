import Signpost.Proofs.Pattern.Captures
import Signpost.Proofs.Pattern.Default
import Signpost.Proofs.Regex.Preference
import Mathlib.Data.List.Lex

namespace Signpost

open Regex Regex.Reading Pattern

namespace Prefers

variable {program : Array Instr} {text : Array Char} {pc pos finish steps : Nat}
  {slots : Slots} {final : Thread}

theorem char {c : Char} (hinstr : program[pc]? = some (.consume [CharRange.single c]))
    (hchar : text[pos]? = some c)
    (hrest : Prefers program text steps ⟨pc + 1, pos + 1, slots⟩ final) :
    Prefers program text (steps + 1) ⟨pc, pos, slots⟩ final :=
  .consume hinstr ((any_contains_single text c pos).mpr hchar) hrest

theorem chars {literal : List Char}
    (hholds : Holds program pc (RegexSeq.ofList (literal.map Regex.char)).code.flatten)
    (hliteral : Stands text pos literal finish)
    (hrest : Prefers program text steps ⟨pc + literal.length, finish, slots⟩ final) :
    ∃ more, Prefers program text more ⟨pc, pos, slots⟩ final := by
  induction literal generalizing pc pos with
  | nil =>
      obtain rfl := stands_nil.mp hliteral
      exact ⟨steps, hrest⟩
  | cons c literal ih =>
      obtain ⟨hinstr, hholds⟩ := hholds
      rw [← List.singleton_append] at hliteral
      obtain ⟨middle, hfirst, hliteral⟩ := stands_append.mp hliteral
      obtain ⟨hchar, rfl⟩ := stands_single.mp hfirst
      rw [List.length_cons, ← Nat.add_assoc, Nat.add_right_comm] at hrest
      obtain ⟨more, hmore⟩ := ih hholds hliteral hrest
      exact ⟨more + 1, char hinstr hchar hmore⟩

theorem value {value : List Char} (hholds : Holds program pc unslashed.code)
    (hvalue : value ≠ []) (hslash : '/' ∉ value) (hstands : Stands text pos value finish)
    (hdead : ¬ Live program text (pc, finish))
    (hrest : Prefers program text steps ⟨pc + 2, finish, slots⟩ final) :
    ∃ more, Prefers program text more ⟨pc, pos, slots⟩ final := by
  have hconsume : program[pc]? = some (.consume CharSet.notSlash) := hholds.1
  have hfork : program[pc + 1]? = some (.fork [-1, 1]) := hholds.2.1
  have hback : ((pc + 1 : Nat) + (-1 : Int)).toNat = pc := by omega
  have hon : ((pc + 1 : Nat) + (1 : Int)).toNat = pc + 2 := by omega
  induction value generalizing pos with
  | nil => exact (hvalue rfl).elim
  | cons c value ih =>
      rw [← List.singleton_append] at hstands
      obtain ⟨middle, hfirst, hstands⟩ := stands_append.mp hstands
      obtain ⟨hchar, rfl⟩ := stands_single.mp hfirst
      have hallowed : text[pos]?.any CharSet.notSlash.contains = true := by
        rw [hchar, Option.any_some, CharSet.contains_notSlash]
        exact fun h => hslash (h ▸ List.mem_cons_self)
      by_cases hempty : value = []
      · subst hempty
        obtain rfl := stands_nil.mp hstands
        rw [← hback] at hdead
        rw [← hon] at hrest
        exact ⟨_, .consume hconsume hallowed (.fork_second hfork hdead hrest)⟩
      · obtain ⟨more, hmore⟩ :=
          ih hempty (fun h => hslash (List.mem_cons_of_mem _ h)) hstands
        have hagain : Prefers program text more
            ⟨((pc + 1 : Nat) + (-1 : Int)).toNat, pos + 1, slots⟩ final := by rwa [hback]
        exact ⟨_, .consume hconsume hallowed (.fork_first hfork hagain)⟩

end Prefers

variable {constraints : Params} {groups : Nat} {names : List String}
  {segments : List Segment} {parts : List Regex} {program : Array Instr}
  {text : Array Char}

@[simp] theorem RegexSeq.code_append (first second : List Regex) :
    (RegexSeq.ofList (first ++ second)).code.flatten =
      (RegexSeq.ofList first).code.flatten ++ (RegexSeq.ofList second).code.flatten := by
  induction first with
  | nil => rfl
  | cons head tail ih =>
      rw [List.cons_append, RegexSeq.ofList, RegexSeq.ofList, RegexSeq.code, RegexSeq.code,
        List.flatten_cons, List.flatten_cons, ih, List.append_assoc]

theorem RegexSeq.length_code_chars (literal : List Char) :
    (RegexSeq.ofList (literal.map Regex.char)).code.flatten.length = literal.length := by
  induction literal with
  | nil => rfl
  | cons c literal ih =>
      rw [List.map_cons, RegexSeq.ofList, RegexSeq.code, List.flatten_cons,
        List.length_append, ih, List.length_cons, Nat.add_comm]
      rfl

/-! The lengths of values are compared in their order. -/

theorem cons_lengths_le_iff {first second : Nat} {firsts seconds : List Nat} :
    first :: firsts ≤ second :: seconds ↔
      first < second ∨ first = second ∧ firsts ≤ seconds := by
  rw [← not_lt, List.cons_lt_cons_iff, ← @not_lt _ _ seconds firsts]
  by_cases h : seconds < firsts
  · simp only [h, and_true, not_true, and_false, or_false]
    omega
  · simp only [h, and_false, or_false, not_false_eq_true, and_true]
    omega

/-- No other values for the segments, from where a path leads to the end, are longer. -/
def Longest (program : Array Instr) (text : Array Char) (constraints : Params)
    (segments : List Segment) (start exit : Nat) (values : List (List Char)) : Prop :=
  ∀ others spelt finish, Spells (Admits constraints) segments others spelt →
    Stands text start spelt finish → Live program text (exit, finish) →
    others.map List.length ≤ values.map List.length

theorem Longest.tail {start exit middle : Nat} {values : List (List Char)}
    {name value : List Char}
    (h : Longest program text constraints (.param name :: segments) start exit
      (value :: values))
    (hvalue : Admits constraints name value) (hstands : Stands text start value middle) :
    Longest program text constraints segments middle exit values := by
  intro others spelt finish hothers hspelt hlive
  have hle := h (value :: others) (value ++ spelt) finish (.param hvalue hothers)
    (stands_append.mpr ⟨middle, hstands, hspelt⟩) hlive
  rw [List.map_cons, List.map_cons, cons_lengths_le_iff] at hle
  rcases hle with hlt | ⟨-, hle⟩
  · exact (Nat.lt_irrefl _ hlt).elim
  · exact hle

theorem Longest.not_longer {start exit finish : Nat} {values others : List (List Char)}
    {name value word spelt : List Char}
    (h : Longest program text constraints (.param name :: segments) start exit
      (value :: values))
    (hname : constraintOf constraints name = defaultConstraint.toList)
    (hvalue : value ≠ [] ∧ '/' ∉ value) (hword : word ≠ [] ∧ '/' ∉ word)
    (hothers : Spells (Admits constraints) segments others spelt)
    (hstands : Stands text start (value ++ (word ++ spelt)) finish) :
    ¬ Live program text (exit, finish) := by
  intro hlive
  have hlonger : Admits constraints name (value ++ word) := by
    rw [admits_default hname]
    exact ⟨List.append_ne_nil_of_left_ne_nil hvalue.1 word, by simp [hvalue.2, hword.2]⟩
  rw [← List.append_assoc] at hstands
  have hle := h ((value ++ word) :: others) _ finish (.param hlonger hothers) hstands hlive
  have hpositive := List.length_pos_iff.mpr hword.1
  rw [List.map_cons, List.map_cons, cons_lengths_le_iff, List.length_append] at hle
  omega

/-- What leads on to the end behind the parts is spelt by the segments. -/
theorem Assembled.spells_of_live (h : Assembled constraints groups names segments parts)
    (hfree : Unconditional constraints segments) {base start : Nat}
    (hholds : Holds program base (RegexSeq.ofList parts).code.flatten)
    (hlive : Live program text (base, start)) :
    ∃ values spelt finish, Spells (Admits constraints) segments values spelt ∧
      Stands text start spelt finish ∧
      Live program text (base + (RegexSeq.ofList parts).code.flatten.length, finish) := by
  have hthread : Live program text (Thread.point ⟨base, start, []⟩) := hlive
  obtain ⟨final, ⟨steps, hsteps⟩, hpc⟩ := hthread.reaches
  obtain ⟨finish, saved, fewer, -, hpassage, hrest⟩ :=
    ((RegexSeq.ofList parts).perform program text).sound hholds hsteps hpc
  obtain ⟨values, hwalk⟩ := h.exists_walk hpassage
  obtain ⟨spelt, hspells, hstands⟩ := hwalk.spells hfree
  exact ⟨values, spelt, finish, hspells, hstands, .of_reaches ⟨fewer, hrest⟩ hpc⟩

theorem code_default_group (index : Nat) (name : Option String) (parts : List Regex) :
    (RegexSeq.ofList
        (Regex.group index name (unslashed.shift index) :: parts)).code.flatten =
      (Regex.group index name unslashed).code ++ (RegexSeq.ofList parts).code.flatten :=
  rfl

theorem length_default_group (index : Nat) (name : Option String) :
    (Regex.group index name unslashed).code.length = 4 := rfl

theorem Prefers.default_group {base start middle index steps : Nat} {name : Option String}
    {value : List Char} {slots : Slots} {final : Thread}
    (hholds : Holds program base (Regex.group index name unslashed).code)
    (hvalue : value ≠ [] ∧ '/' ∉ value) (hstands : Stands text start value middle)
    (hdead : ¬ Live program text (base + 1, middle))
    (hrest : Prefers program text steps
      ⟨base + 4, middle, (2 * index + 1, middle) :: (2 * index, start) :: slots⟩ final) :
    ∃ more, Prefers program text more ⟨base, start, slots⟩ final := by
  obtain ⟨hopen, hholds⟩ := hholds
  obtain ⟨hrun, hclose, -⟩ := (holds_append ..).mp hholds
  obtain ⟨more, hmore⟩ :=
    Prefers.value hrun hvalue.1 hvalue.2 hstands hdead (.save hclose hrest)
  exact ⟨more + 1, .save hopen hmore⟩

theorem passage_default_group {index start middle : Nat} {name : Option String}
    {value : List Char} (hvalue : value ≠ [] ∧ '/' ∉ value)
    (hstands : Stands text start value middle) :
    (Regex.group index name unslashed).passage text start middle
      [(2 * index + 1, middle), (2 * index, start)] := by
  have hturns : (unslashed.passage text) start middle [] := by
    obtain ⟨saved, hsaved⟩ := (unslashed.along_words text rfl start middle).mpr
      ⟨value, mem_words_unslashed.mpr hvalue, hstands⟩
    have hnone : unslashed.groups = [] := rfl
    have hslots := unslashed.passage_slots hsaved
    rw [hnone] at hslots
    rwa [hslots.eq_nil] at hsaved
  exact ⟨start, _, _, ⟨rfl, rfl⟩, ⟨middle, [], _, hturns, ⟨rfl, rfl⟩, rfl⟩, rfl⟩

/-- Where a placeholder could go on, more text and further values lead on to the end. -/
theorem Assembled.longer_of_live (h : Assembled constraints groups names segments parts)
    (hfree : Unconditional constraints segments) {base middle index : Nat}
    {name : Option String}
    (hholds : Holds program base (Regex.group index name unslashed).code)
    (hrest : Holds program (base + 4) (RegexSeq.ofList parts).code.flatten)
    (hlive : Live program text (base + 1, middle)) :
    ∃ word values spelt finish, (word ≠ [] ∧ '/' ∉ word) ∧
      Spells (Admits constraints) segments values spelt ∧
      Stands text middle (word ++ spelt) finish ∧
      Live program text
        (base + 4 + (RegexSeq.ofList parts).code.flatten.length, finish) := by
  have hthread : Live program text (Thread.point ⟨base + 1, middle, []⟩) := hlive
  obtain ⟨final, ⟨steps, hsteps⟩, hpc⟩ := hthread.reaches
  obtain ⟨last, saved, fewer, -, hpassage, hleads⟩ :=
    ((unslashed.performs program text).append (.save (2 * index + 1))).sound hholds.2
      hsteps hpc
  obtain ⟨_, before, _, hturns, ⟨rfl, rfl⟩, -⟩ := hpassage
  obtain ⟨word, hword, hstands⟩ := (unslashed.along_words text rfl _ _).mp ⟨before, hturns⟩
  obtain ⟨values, spelt, finish, hspells, hspelt, hfinish⟩ :=
    h.spells_of_live hfree hrest (.of_reaches ⟨fewer, hleads⟩ hpc)
  exact ⟨word, values, spelt, finish, mem_words_unslashed.mp hword, hspells,
    stands_append.mpr ⟨_, hstands, hspelt⟩, hfinish⟩

/-- Going on instead of closing the group would make the value longer. -/
theorem Assembled.dead_of_longest
    (h : Assembled constraints groups names segments parts)
    (hplain : Unconstrained constraints segments) {base start middle index : Nat}
    {label : Option String} {name value : List Char} {values : List (List Char)}
    (hgroup : Holds program base (Regex.group index label unslashed).code)
    (hparts : Holds program (base + 4) (RegexSeq.ofList parts).code.flatten)
    (hname : constraintOf constraints name = defaultConstraint.toList)
    (hvalue : value ≠ [] ∧ '/' ∉ value) (hstands : Stands text start value middle)
    (hlongest : Longest program text constraints (.param name :: segments) start
      (base + 4 + (RegexSeq.ofList parts).code.flatten.length) (value :: values)) :
    ¬ Live program text (base + 1, middle) := by
  intro hlive
  obtain ⟨word, others, spelt, finish, hword, hspells, hspelt, hend⟩ :=
    h.longer_of_live hplain.unconditional hgroup hparts hlive
  exact hlongest.not_longer hname hvalue hword hspells
    (stands_append.mpr ⟨middle, hstands, hspelt⟩) hend

/-- The search goes along the segments with the longest values. -/
theorem Assembled.prefers (h : Assembled constraints groups names segments parts)
    (hplain : Unconstrained constraints segments) {base start finish : Nat}
    {values : List (List Char)} {spelt : List Char}
    (hholds : Holds program base (RegexSeq.ofList parts).code.flatten)
    (hspells : Spells (Admits constraints) segments values spelt)
    (hstands : Stands text start spelt finish)
    (hlongest : Longest program text constraints segments start
      (base + (RegexSeq.ofList parts).code.flatten.length) values) (slots : Slots) :
    ∃ saved, Walk constraints text groups segments values start finish saved ∧
      ∀ steps final, Prefers program text steps
        ⟨base + (RegexSeq.ofList parts).code.flatten.length, finish,
          saved ++ slots⟩ final →
        ∃ more, Prefers program text more ⟨base, start, slots⟩ final := by
  induction h generalizing base start values spelt slots with
  | nil =>
      cases hspells
      obtain rfl := stands_nil.mp hstands
      exact ⟨[], .nil _ _, fun steps final hrest => ⟨steps, hrest⟩⟩
  | @literal _ _ rest parts literal _ ih =>
      cases hspells with
      | @literal _ _ spelt _ hrest =>
          obtain ⟨middle, hliteral, hspelt⟩ := stands_append.mp hstands
          rw [RegexSeq.code_append] at hholds hlongest ⊢
          obtain ⟨hchars, hholds⟩ := (holds_append ..).mp hholds
          rw [List.length_append, ← Nat.add_assoc] at hlongest ⊢
          rw [RegexSeq.length_code_chars] at hholds hlongest ⊢
          obtain ⟨saved, hwalk, hprefers⟩ :=
            ih (fun name hname => hplain name (List.mem_cons_of_mem _ hname)) hholds hrest
              hspelt
              (fun others spelt' finish' hothers hspelt' hlive =>
                hlongest others _ finish' (.literal literal hothers)
                  (stands_append.mpr ⟨middle, hliteral, hspelt'⟩) hlive) slots
          refine ⟨saved, .literal hliteral hwalk, fun steps final hfinal => ?_⟩
          obtain ⟨more, hmore⟩ := hprefers steps final hfinal
          exact Prefers.chars hchars hliteral hmore
  | @param groups names rest parts name final halone hfresh hstart hassembled ih =>
      cases hspells with
      | @param _ values spelt _ value hvalue hrest =>
          have hname := hplain name List.mem_cons_self
          have hothers : Unconstrained constraints rest :=
            fun name hname => hplain name (List.mem_cons_of_mem _ hname)
          have hvalue' := (admits_default hname).mp hvalue
          obtain ⟨middle, hvalueStands, hspelt⟩ := stands_append.mp hstands
          have hdefault := halone
          rw [hname] at hdefault
          obtain rfl := alone_default.unique hdefault
          have hcurrent :
              (⟨{}, 0, [], [], [unslashed], []⟩ : Reading).current = unslashed := rfl
          rw [hcurrent, code_default_group] at hholds hlongest ⊢
          obtain ⟨hgroup, hparts⟩ := (holds_append ..).mp hholds
          rw [List.length_append, length_default_group, ← Nat.add_assoc] at hlongest ⊢
          rw [length_default_group] at hparts
          obtain ⟨saved, hwalk, hprefers⟩ := ih hothers hparts hrest hspelt
            (hlongest.tail hvalue hvalueStands)
            ((2 * (groups + 1) + 1, middle) :: (2 * (groups + 1), start) :: slots)
          refine ⟨saved ++ [(2 * (groups + 1) + 1, middle), (2 * (groups + 1), start)],
            .param halone (passage_default_group hvalue' hvalueStands) hvalueStands hwalk,
            fun steps final hfinal => ?_⟩
          rw [List.append_assoc] at hfinal
          obtain ⟨more, hmore⟩ := hprefers steps final hfinal
          exact Prefers.default_group hgroup hvalue' hvalueStands
            (hassembled.dead_of_longest hothers hgroup hparts hname hvalue' hvalueStands
              hlongest) hmore

end Signpost
