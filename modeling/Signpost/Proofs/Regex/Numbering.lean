import Signpost.Proofs.Regex.Nested

namespace Signpost.Regex

def OpenGroup.held (opened : OpenGroup) : List (Nat × Option String) :=
  opened.capture.toList ++ opened.outerParts.flatMap groups ++
    opened.outerBranches.flatMap groups

/-- Every group has a number from one to the count of groups so far, and its name is among
the names so far. -/
structure Numbered (count : Nat) (names : List String)
    (group : Nat × Option String) : Prop where
  positive : 1 ≤ group.1
  bounded : group.1 ≤ count
  named : ∀ name ∈ group.2, name ∈ names

theorem Numbered.mono {count more : Nat} {names others : List String}
    {group : Nat × Option String} (hgroup : Numbered count names group)
    (hcount : count ≤ more) (hnames : names ⊆ others) : Numbered more others group :=
  { positive := hgroup.positive
    bounded := Nat.le_trans hgroup.bounded hcount
    named := fun name hname => hnames (hgroup.named name hname) }

namespace Reading

variable {reading next : Reading}

def held (reading : Reading) : List (Nat × Option String) :=
  reading.parts.flatMap Regex.groups ++ reading.branches.flatMap Regex.groups ++
    reading.opened.flatMap OpenGroup.held

def AllNumbered (reading : Reading) : Prop :=
  ∀ group ∈ reading.held, Numbered reading.groups reading.names group

theorem allNumbered_initial : initial.AllNumbered := by
  intro group hgroup
  cases hgroup

theorem mem_groups_current {group : Nat × Option String} :
    group ∈ reading.current.groups ↔
      group ∈ reading.parts.flatMap Regex.groups ∨
        group ∈ reading.branches.flatMap Regex.groups := by
  simp only [current, groups_alternateOf, List.mem_flatMap, List.mem_reverse,
    List.mem_cons, exists_eq_or_imp, groups_concatOf]

theorem AllNumbered.current (hreading : reading.AllNumbered) :
    ∀ group ∈ reading.current.groups, Numbered reading.groups reading.names group := by
  intro group hgroup
  apply hreading group
  rw [held, List.append_assoc, List.mem_append, List.mem_append]
  rcases mem_groups_current.mp hgroup with hparts | hbranches
  · exact .inl hparts
  · exact .inr (.inl hbranches)

theorem AllNumbered.push (hreading : reading.AllNumbered) {part : Regex}
    (hpart : part.groups = []) : (reading.push part).AllNumbered := by
  intro group hgroup
  apply hreading group
  simpa [held, Reading.push, hpart] using hgroup

theorem AllNumbered.branch (hreading : reading.AllNumbered) :
    reading.branch.AllNumbered := by
  intro group hgroup
  apply hreading group
  simpa [held, Reading.branch, groups_concatOf] using hgroup

theorem AllNumbered.repeatLast (hreading : reading.AllNumbered) (count : Count) :
    (reading.repeatLast count).AllNumbered := by
  obtain ⟨flags, number, names, opened, parts, branches⟩ := reading
  cases parts with
  | nil => exact hreading
  | cons part parts =>
      intro group hgroup
      apply hreading group
      simp only [held, Reading.repeatLast, List.flatMap_cons, List.append_assoc,
        List.mem_append] at hgroup ⊢
      rcases hgroup with hpart | hrest
      · exact .inl (groups_iterateOf_subset count part hpart)
      · exact .inr hrest

theorem AllNumbered.closeGroup (hreading : reading.AllNumbered)
    (h : reading.closeGroup = .ok next) : next.AllNumbered := by
  have hcurrent := hreading.current
  obtain ⟨flags, number, names, opened, parts, branches⟩ := reading
  cases opened with
  | nil => cases h
  | cons innermost rest =>
      obtain ⟨capture, outerFlags, outerParts, outerBranches⟩ := innermost
      obtain rfl := Except.ok.inj h
      intro group hgroup
      have hold : group ∈
          OpenGroup.held ⟨capture, outerFlags, outerParts, outerBranches⟩ ++
          rest.flatMap OpenGroup.held → Numbered number names group := by
        intro hmem
        refine hreading group (List.mem_append_right _ ?_)
        rwa [List.flatMap_cons]
      rw [held, List.flatMap_cons] at hgroup
      simp only [List.append_assoc, List.mem_append] at hgroup
      simp only [OpenGroup.held, List.append_assoc, List.mem_append] at hold
      rcases hgroup with hpart | houter
      · cases capture with
        | none => exact hcurrent group hpart
        | some place =>
            rw [Regex.groups] at hpart
            rcases List.mem_cons.mp hpart with rfl | hbody
            · exact hold (.inl (by simp))
            · exact hcurrent group hbody
      · exact hold (.inr houter)

theorem enter_ok {capture : Option (Nat × Option String)} {flags : Flags}
    (h : reading.enter capture flags = .ok next) :
    reading.opened.length < nestLimit ∧ next =
      { reading with
        flags := flags
        opened :=
          ⟨capture, reading.flags, reading.parts, reading.branches⟩ :: reading.opened
        parts := []
        branches := [] } := by
  rw [enter] at h
  split at h
  · cases h
  · exact ⟨by omega, (Except.ok.inj h).symm⟩

theorem AllNumbered.begin (hreading : reading.AllNumbered) {opening : Opening}
    (h : reading.begin opening = .ok next) : next.AllNumbered := by
  cases opening with
  | directive flags =>
      obtain rfl := Except.ok.inj h
      intro group hgroup
      exact hreading group hgroup
  | plain flags =>
      obtain ⟨-, rfl⟩ := enter_ok h
      intro group hgroup
      apply hreading group
      simpa [held, OpenGroup.held] using hgroup
  | capture name =>
      obtain ⟨-, rfl⟩ := enter_ok h
      intro group hgroup
      have hcases : group = (reading.groups + 1, name) ∨ group ∈ reading.held := by
        simpa [held, OpenGroup.held] using hgroup
      rcases hcases with rfl | hold
      · exact ⟨Nat.le_add_left 1 _, Nat.le_refl _, fun label hlabel =>
          List.mem_append_left _ (Option.mem_toList.mpr hlabel)⟩
      · exact (hreading group hold).mono (Nat.le_succ _) (List.subset_append_right _ _)

/-! What one step can do. -/

theorem read_push (read : List Char → Except RegexError (Regex × List Char))
    {rest after : List Char}
    (hgroups : ∀ {text part left}, read text = .ok (part, left) → part.groups = [])
    (h : (do let (part, left) ← read rest; pure (reading.push part, left)) =
      (.ok (next, after) : Except RegexError (Reading × List Char))) :
    ∃ part : Regex, part.groups = [] ∧ next = reading.push part := by
  obtain ⟨⟨part, left⟩, hpart, hpair⟩ := exists_of_bind_ok h
  obtain ⟨rfl, rfl⟩ := Prod.mk.inj (Except.ok.inj hpair)
  exact ⟨part, hgroups hpart, rfl⟩

theorem step_cases {c : Char} {rest after : List Char}
    (h : reading.step c rest = .ok (next, after)) :
    (c = '(' ∧ reading.openGroup rest = .ok (next, after)) ∨
      reading.closeGroup = .ok next ∨ next = reading.branch ∨
      (∃ part : Regex, part.groups = [] ∧ next = reading.push part) ∨
      ∃ count, next = reading.repeatLast count := by
  unfold step at h
  by_cases hopen : c = '('
  · rw [if_pos hopen] at h
    exact .inl ⟨hopen, h⟩
  rw [if_neg hopen] at h
  apply Or.inr
  by_cases hclose : c = ')'
  · rw [if_pos hclose] at h
    obtain ⟨closed, hclosed, hpair⟩ := exists_of_bind_ok h
    obtain ⟨rfl, rfl⟩ := Prod.mk.inj (Except.ok.inj hpair)
    exact .inl hclosed
  rw [if_neg hclose] at h
  apply Or.inr
  by_cases hbar : c = '|'
  · rw [if_pos hbar] at h
    exact .inl (Prod.mk.inj (Except.ok.inj h)).1.symm
  rw [if_neg hbar] at h
  apply Or.inr
  by_cases hclass : c = '['
  · rw [if_pos hclass] at h
    exact .inl (read_push (classOf reading.flags) groups_classOf h)
  rw [if_neg hclass] at h
  by_cases hmark : c = '?' ∨ c = '*' ∨ c = '+'
  · rw [if_pos hmark] at h
    split at h
    · cases h
    · exact .inr ⟨_, (Prod.mk.inj (Except.ok.inj h)).1.symm⟩
  rw [if_neg hmark] at h
  by_cases hbrace : c = '\x7b'
  · rw [if_pos hbrace] at h
    split at h
    · cases h
    · obtain ⟨⟨count, left⟩, -, hpair⟩ := exists_of_bind_ok h
      exact .inr ⟨count, (Prod.mk.inj (Except.ok.inj hpair)).1.symm⟩
  rw [if_neg hbrace] at h
  by_cases hescape : c = '\\'
  · rw [if_pos hescape] at h
    exact .inl (read_push (escapeOf reading.flags) groups_escapeOf h)
  rw [if_neg hescape] at h
  -- What is left is one part that stands for itself.
  apply Or.inl
  split at h
  · exact ⟨_, groups_dotOf _, (Prod.mk.inj (Except.ok.inj h)).1.symm⟩
  split at h
  · exact ⟨_, groups_startOf _, (Prod.mk.inj (Except.ok.inj h)).1.symm⟩
  split at h
  · exact ⟨_, groups_finishOf _, (Prod.mk.inj (Except.ok.inj h)).1.symm⟩
  · exact ⟨_, groups_charOf _ _, (Prod.mk.inj (Except.ok.inj h)).1.symm⟩

theorem AllNumbered.step (hreading : reading.AllNumbered) {c : Char}
    {rest after : List Char} (h : reading.step c rest = .ok (next, after)) :
    next.AllNumbered := by
  rcases step_cases h with ⟨-, hopened⟩ | hclosed | rfl | ⟨part, hpart, rfl⟩ | ⟨count, rfl⟩
  · obtain ⟨opening, -, hbegin⟩ := openGroup_cases hopened
    exact hreading.begin hbegin
  · exact hreading.closeGroup hclosed
  · exact hreading.branch
  · exact hreading.push hpart
  · exact hreading.repeatLast count

end Reading

end Signpost.Regex
