import Signpost.Proofs.OrderedMap
import Signpost.Proofs.Pattern.Decomposition

namespace Signpost

open Regex Regex.Reading Pattern

variable {constraints : Params} {groups : Nat} {names : List String}
  {segments : List Segment} {parts : List Regex} {text : Array Char}

namespace Slots

theorem Of.lookup_eq_none {held : List (Nat × Option String)} {saved : Slots} {index : Nat}
    (hsaved : Of held saved) (hother : ∀ group ∈ held, group.1 ≠ index) :
    saved.lookup (2 * index) = none ∧ saved.lookup (2 * index + 1) = none := by
  have hslot : ∀ entry ∈ saved, entry.1 ≠ 2 * index ∧ entry.1 ≠ 2 * index + 1 := by
    intro entry hentry
    obtain ⟨group, hgroup, hslot⟩ := hsaved entry hentry
    have hne := hother group hgroup
    omega
  simp only [List.lookup_eq_none_iff, bne_iff_ne]
  exact ⟨fun entry hentry heq => (hslot entry hentry).1 heq.symm,
    fun entry hentry heq => (hslot entry hentry).2 heq.symm⟩

theorem Of.eq_nil {saved : Slots} (hsaved : Of [] saved) : saved = [] := by
  rw [List.eq_nil_iff_forall_not_mem]
  intro entry hentry
  obtain ⟨group, hgroup, -⟩ := hsaved entry hentry
  cases hgroup

end Slots

@[simp] theorem RegexSeq.groupNames_append (first second : List Regex) :
    (RegexSeq.ofList (first ++ second)).groupNames =
      (RegexSeq.ofList first).groupNames ++ (RegexSeq.ofList second).groupNames := by
  induction first with
  | nil => rfl
  | cons head tail ih =>
      rw [List.cons_append, RegexSeq.ofList, RegexSeq.ofList, RegexSeq.groupNames,
        RegexSeq.groupNames, ih, List.append_assoc]

theorem RegexSeq.groups_chars (literal : List Char) :
    (RegexSeq.ofList (literal.map Regex.char)).groups = [] := by
  rw [RegexSeq.groups_ofList, List.flatMap_map]
  exact List.flatMap_eq_nil_iff.mpr fun _ _ => rfl

theorem Assembled.groups_new (h : Assembled constraints groups names segments parts) :
    ∀ group ∈ (RegexSeq.ofList parts).groups,
      groups < group.1 ∧ ∀ name ∈ group.2, name ∉ names := by
  induction h with
  | nil =>
      intro group hgroup
      cases hgroup
  | literal literal _ ih =>
      intro group hgroup
      rw [RegexSeq.groups_ofList, List.flatMap_append, ← RegexSeq.groups_ofList,
        ← RegexSeq.groups_ofList, RegexSeq.groups_chars, List.nil_append] at hgroup
      exact ih group hgroup
  | @param groups names _ _ name final halone hfresh _ _ ih =>
      intro group hgroup
      rw [RegexSeq.ofList, RegexSeq.groups, Regex.groups, Regex.groups_shift,
        List.cons_append, List.mem_cons, List.mem_append] at hgroup
      rcases hgroup with rfl | hinner | hrest
      · refine ⟨Nat.lt_succ_self _, ?_⟩
        rintro _ ⟨⟩
        exact hfresh.outside
      · obtain ⟨inner, hmem, rfl⟩ := List.mem_map.mp hinner
        have hnumbered := halone.numbered inner hmem
        have hpositive := hnumbered.positive
        refine ⟨by omega, fun other hother hold => ?_⟩
        exact hfresh.inside other (hnumbered.named other hother)
          (List.mem_cons_of_mem _ hold)
      · obtain ⟨hlater, hnew⟩ := ih group hrest
        refine ⟨by omega, fun other hother hold => ?_⟩
        exact hnew other hother (List.mem_append_right _ (List.mem_cons_of_mem _ hold))

theorem mem_groups_of_lookup {parts : RegexSeq} {name : String} {index : Nat}
    (h : parts.groupNames.lookup name = some index) :
    (index, some name) ∈ parts.groups := by
  obtain ⟨before, after, heq, -⟩ := List.lookup_eq_some_iff.mp h
  have hmem : (name, index) ∈ parts.groupNames := heq ▸ by simp
  rw [RegexSeq.groupNames_eq] at hmem
  obtain ⟨⟨place, label⟩, hgroup, hplace⟩ := List.mem_filterMap.mp hmem
  cases label with
  | none => cases hplace
  | some label =>
      obtain ⟨rfl, rfl⟩ := Prod.mk.inj (Option.some.inj hplace)
      exact hgroup

theorem Regex.Reading.Alone.label_known {constraint : List Char} {final : Reading}
    (halone : Alone constraint final) {name : String} (names : List String) :
    ∀ label ∈ (Regex.group (groups + 1) (some name)
        (final.current.shift (groups + 1))).groupNames,
      label.1 ∈ final.names ++ name :: names := by
  intro label hlabel
  rcases List.mem_cons.mp hlabel with rfl | hinner
  · exact List.mem_append_right _ List.mem_cons_self
  · rw [Regex.groupNames_eq, Regex.groups_shift, List.filterMap_map] at hinner
    obtain ⟨⟨index, inner⟩, hgroup, hplace⟩ := List.mem_filterMap.mp hinner
    cases inner with
    | none => cases hplace
    | some inner =>
        obtain rfl := Option.some.inj hplace
        exact List.mem_append_left _ ((halone.numbered _ hgroup).named inner rfl)

def Keeps (text : Array Char) (labels : List (String × Nat)) (saved : Slots)
    (name : String) (value : List Char) : Prop :=
  ∃ index, labels.lookup name = some index ∧
    Match.group? ⟨text, saved⟩ index = some (String.ofList value)

theorem Keeps.of_stands {labels : List (String × Nat)} {saved : Slots} {name : String}
    {value : List Char} {start finish : Nat} (index : Nat)
    (hlabel : labels.lookup name = some index)
    (hstart : saved.lookup (2 * index) = some start)
    (hfinish : saved.lookup (2 * index + 1) = some finish)
    (hvalue : Stands text start value finish) : Keeps text labels saved name value := by
  refine ⟨index, hlabel, ?_⟩
  obtain ⟨⟨rest, hrest⟩, rfl⟩ := hvalue
  simp only [Match.group?, hstart, hfinish, Array.toList_extract, List.extract]
  rw [← hrest, Nat.add_sub_cancel_left, List.take_left]

theorem Keeps.cons {labels others : List (String × Nat)} {before after : Slots}
    {name : String} {value : List Char} (h : Keeps text labels after name value)
    (hothers : others.lookup name = none) :
    Keeps text (others ++ labels) (after ++ before) name value := by
  obtain ⟨index, hlabel, hgroup⟩ := h
  refine ⟨index, by rw [List.lookup_append, hothers, hlabel]; rfl, ?_⟩
  rw [← hgroup]
  unfold Match.group? at hgroup ⊢
  split at hgroup
  · rename_i start finish hstart hfinish
    simp only [List.lookup_append, hstart, hfinish, Option.some_or]
  · cases hgroup

theorem passage_group {index start finish : Nat} {name : Option String} {body : Regex}
    {saved : Slots} (hinside : ∀ group ∈ body.groups, group.1 ≠ index)
    (h : (Regex.group index name body).passage text start finish saved) :
    (∃ inner, body.passage text start finish inner) ∧
      saved.lookup (2 * index) = some start ∧
        saved.lookup (2 * index + 1) = some finish := by
  obtain ⟨_, _, _, ⟨rfl, rfl⟩, ⟨_, inner, _, hbody, ⟨rfl, rfl⟩, rfl⟩, rfl⟩ := h
  have hinner := (body.passage_slots hbody).lookup_eq_none hinside
  have hne : (2 * index == 2 * index + 1) = false := by simp
  refine ⟨⟨inner, hbody⟩, ?_, ?_⟩
  · simp [List.lookup_append, List.lookup_cons, hinner.1, hne]
  · simp

theorem inTurn_chars {literal : List Char} {start finish : Nat} {saved : Slots}
    (h : (RegexSeq.ofList (literal.map Regex.char)).inTurn text start finish saved) :
    Stands text start literal finish ∧ saved = [] := by
  have hsaved := (RegexSeq.ofList (literal.map Regex.char)).inTurn_slots h
  rw [RegexSeq.groups_chars] at hsaved
  refine ⟨?_, hsaved.eq_nil⟩
  have hfree : (RegexSeq.ofList (literal.map Regex.char)).lookFree = true := by
    rw [RegexSeq.lookFree_ofList]
    intro part hpart
    obtain ⟨c, -, rfl⟩ := List.mem_map.mp hpart
    rfl
  obtain ⟨word, hword, hstands⟩ := (RegexSeq.along_product text _ hfree _ _).mp ⟨saved, h⟩
  rwa [RegexSeq.mem_product_chars.mp hword] at hstands

/-! Going along the segments with a value for each placeholder. -/

inductive Walk (constraints : Params) (text : Array Char) :
    Nat → List Segment → List (List Char) → Nat → Nat → Slots → Prop
  | nil (groups start : Nat) : Walk constraints text groups [] [] start start []
  | literal {groups start middle finish : Nat} {rest : List Segment}
      {values : List (List Char)} {saved : Slots} {literal : List Char}
      (hliteral : Stands text start literal middle)
      (hrest : Walk constraints text groups rest values middle finish saved) :
      Walk constraints text groups (.literal literal :: rest) values start finish saved
  | param {groups start middle finish : Nat} {rest : List Segment}
      {values : List (List Char)} {before after : Slots} {name value : List Char}
      {final : Reading} (halone : Alone (constraintOf constraints name) final)
      (hgroup : (Regex.group (groups + 1) (some (String.ofList name))
        (final.current.shift (groups + 1))).passage text start middle before)
      (hvalue : Stands text start value middle)
      (hrest : Walk constraints text (groups + 1 + final.groups) rest values middle finish
        after) :
      Walk constraints text groups (.param name :: rest) (value :: values) start finish
        (after ++ before)

/-- The text along the way is that of the segments with the values, whatever they are. -/
theorem Walk.spelt {values : List (List Char)} {start finish : Nat} {saved : Slots}
    (h : Walk constraints text groups segments values start finish saved) :
    ∃ spelt, Spells (fun _ _ => True) segments values spelt ∧
      Stands text start spelt finish := by
  induction h with
  | nil => exact ⟨[], .nil, stands_nil.mpr rfl⟩
  | literal hliteral _ ih =>
      obtain ⟨spelt, hspells, hstands⟩ := ih
      exact ⟨_, .literal _ hspells, stands_append.mpr ⟨_, hliteral, hstands⟩⟩
  | param _ _ hvalue _ ih =>
      obtain ⟨spelt, hspells, hstands⟩ := ih
      exact ⟨_, .param trivial hspells, stands_append.mpr ⟨_, hvalue, hstands⟩⟩

/-- Without conditions on positions the values are words of their constraints. -/
theorem Walk.spells {values : List (List Char)} {start finish : Nat} {saved : Slots}
    (h : Walk constraints text groups segments values start finish saved)
    (hfree : Unconditional constraints segments) :
    ∃ spelt, Spells (Admits constraints) segments values spelt ∧
      Stands text start spelt finish := by
  induction h with
  | nil => exact ⟨[], .nil, stands_nil.mpr rfl⟩
  | literal hliteral _ ih =>
      obtain ⟨spelt, hspells, hstands⟩ :=
        ih fun name hname => hfree name (List.mem_cons_of_mem _ hname)
      exact ⟨_, .literal _ hspells, stands_append.mpr ⟨_, hliteral, hstands⟩⟩
  | @param groups _ _ _ _ _ before _ name _ final halone hgroup hvalue _ ih =>
      obtain ⟨spelt, hspells, hstands⟩ :=
        ih fun name hname => hfree name (List.mem_cons_of_mem _ hname)
      have hbodyFree : (Regex.group (groups + 1) (some (String.ofList name))
          (final.current.shift (groups + 1))).lookFree := by
        simpa [Regex.lookFree] using hfree _ List.mem_cons_self _ halone
      obtain ⟨word, hword, hother⟩ :=
        (Regex.along_words text _ hbodyFree _ _).mp ⟨before, hgroup⟩
      obtain rfl := stands_unique hother hvalue
      rw [Regex.words, words_shift] at hword
      exact ⟨_, .param ⟨final, halone, hword⟩ hspells,
        stands_append.mpr ⟨_, hvalue, hstands⟩⟩

theorem Assembled.exists_walk (h : Assembled constraints groups names segments parts)
    {start finish : Nat} {saved : Slots}
    (hparts : (RegexSeq.ofList parts).inTurn text start finish saved) :
    ∃ values, Walk constraints text groups segments values start finish saved := by
  induction h generalizing start saved with
  | nil =>
      obtain ⟨rfl, rfl⟩ := hparts
      exact ⟨[], .nil _ _⟩
  | literal literal _ ih =>
      rw [RegexSeq.inTurn_append] at hparts
      obtain ⟨middle, _, after, hchars, hrest, rfl⟩ := hparts
      obtain ⟨hliteral, rfl⟩ := inTurn_chars hchars
      obtain ⟨values, hwalk⟩ := ih hrest
      rw [List.append_nil]
      exact ⟨values, .literal hliteral hwalk⟩
  | param halone _ _ _ ih =>
      obtain ⟨middle, before, after, hhead, hrest, rfl⟩ := hparts
      obtain ⟨values, hwalk⟩ := ih hrest
      obtain ⟨value, hvalue⟩ := Regex.passage_spans text _ _ _ _ hhead
      exact ⟨value :: values, .param halone hhead hvalue hwalk⟩

theorem Walk.slots {values : List (List Char)} {start finish : Nat} {saved : Slots}
    (h : Walk constraints text groups segments values start finish saved) :
    ∀ index ≤ groups,
      saved.lookup (2 * index) = none ∧ saved.lookup (2 * index + 1) = none := by
  induction h with
  | nil =>
      intro index hindex
      exact ⟨rfl, rfl⟩
  | literal _ _ ih => exact ih
  | @param groups _ _ _ _ _ _ _ name _ final halone hgroup _ _ ih =>
      intro index hindex
      have hothers : ∀ group ∈ (Regex.group (groups + 1) (some (String.ofList name))
          (final.current.shift (groups + 1))).groups, group.1 ≠ index := by
        intro group hgroup
        rw [Regex.groups, Regex.groups_shift] at hgroup
        rcases List.mem_cons.mp hgroup with rfl | hinner
        · simp only
          omega
        · obtain ⟨inner, hmem, rfl⟩ := List.mem_map.mp hinner
          simp only
          omega
      obtain ⟨hfirst, hlast⟩ := (Regex.passage_slots _ hgroup).lookup_eq_none hothers
      obtain ⟨hfirst', hlast'⟩ := ih index (by omega)
      rw [List.lookup_append, List.lookup_append, hfirst, hlast, hfirst', hlast']
      exact ⟨rfl, rfl⟩

/-- Going along the segments keeps the values for the names of the placeholders. -/
theorem Walk.keeps {values : List (List Char)} {start finish : Nat} {saved : Slots}
    (h : Assembled constraints groups names segments parts)
    (hwalk : Walk constraints text groups segments values start finish saved) :
    List.Forall₂ (Keeps text (RegexSeq.ofList parts).groupNames saved)
      (segments.filterMap Segment.name?) values := by
  induction h generalizing values start saved with
  | nil =>
      cases hwalk
      exact .nil
  | @literal _ _ rest parts literal _ ih =>
      cases hwalk with
      | literal _ hrest =>
          have hlabels : (RegexSeq.ofList (literal.map Regex.char ++ parts)).groupNames =
              (RegexSeq.ofList parts).groupNames := by
            rw [RegexSeq.groupNames_append, RegexSeq.groupNames_eq, RegexSeq.groups_chars]
            rfl
          rw [hlabels]
          exact ih hrest
  | @param groups names rest parts name final halone hfresh _ hassembled ih =>
      cases hwalk with
      | @param _ _ middle _ _ values before after _ value other hother hgroup hvalue
          hrest =>
          obtain rfl := halone.unique hother
          have hinside : ∀ group ∈ (final.current.shift (groups + 1)).groups,
              group.1 ≠ groups + 1 := by
            intro group hgroup
            rw [Regex.groups_shift] at hgroup
            obtain ⟨inner, hmem, rfl⟩ := List.mem_map.mp hgroup
            have hpositive := (halone.numbered inner hmem).positive
            simp only
            omega
          obtain ⟨-, hfirst, hlast⟩ := passage_group hinside hgroup
          refine .cons ?_ ?_
          · -- No later group has the number of this one.
            obtain ⟨hfirst', hlast'⟩ := hrest.slots (groups + 1) (Nat.le_add_right _ _)
            refine .of_stands (groups + 1) ?_ ?_ ?_ hvalue
            · simp [RegexSeq.ofList, RegexSeq.groupNames, Regex.groupNames]
            · rw [List.lookup_append, hfirst', hfirst]
              rfl
            · rw [List.lookup_append, hlast', hlast]
              rfl
          · -- The names of later placeholders are not among those of this group.
            refine (ih hrest).imp fun later _ hlater => hlater.cons ?_
            obtain ⟨index, hindex, -⟩ := hlater
            have hnew :=
              (hassembled.groups_new _ (mem_groups_of_lookup hindex)).2 later rfl
            refine List.lookup_eq_none_iff.mpr fun label hlabel =>
              bne_iff_ne.mpr fun heq => ?_
            exact hnew (heq ▸ halone.label_known names label hlabel)

end Signpost
