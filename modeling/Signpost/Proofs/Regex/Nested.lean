import Signpost.Proofs.Regex.SettledClass
import Signpost.Proofs.Regex.SettledGroup
import Signpost.Proofs.Regex.Shift
import Signpost.Regex.Parse

namespace Signpost.Regex

variable {outer inner next : Reading}

/-! An inner reading laid over the outer one, which has just opened a group. -/

def OpenGroup.shift (offset : Nat) (opened : OpenGroup) : OpenGroup :=
  { capture := opened.capture.map fun place => (offset + place.1, place.2)
    outerFlags := opened.outerFlags
    outerParts := opened.outerParts.map (Regex.shift offset)
    outerBranches := opened.outerBranches.map (Regex.shift offset) }

namespace Reading

def within (outer inner : Reading) : Reading :=
  { flags := inner.flags
    groups := outer.groups + inner.groups
    names := inner.names ++ outer.names
    opened := inner.opened.map (OpenGroup.shift outer.groups) ++ outer.opened
    parts := inner.parts.map (shift outer.groups)
    branches := inner.branches.map (shift outer.groups) }

/-- The inner reading leaves the limits of the outer one alone. -/
structure Fits (outer inner : Reading) : Prop where
  depth : inner.opened.length + outer.opened.length ≤ nestLimit
  names : ∀ name ∈ inner.names, name ∉ outer.names

theorem within_initial {outer : Reading} (hflags : outer.flags = {})
    (hparts : outer.parts = []) (hbranches : outer.branches = []) :
    outer.within initial = outer := by
  obtain ⟨flags, groups, names, opened, parts, branches⟩ := outer
  subst hflags hparts hbranches
  rfl

@[simp] theorem within_push (part : Regex) :
    outer.within (inner.push part) =
      (outer.within inner).push (part.shift outer.groups) := rfl

@[simp] theorem within_current :
    (outer.within inner).current = inner.current.shift outer.groups := by
  simp [current, within]

@[simp] theorem within_branch :
    (outer.within inner).branch = outer.within inner.branch := by
  simp [branch, within]

theorem within_repeatLast (count : Count) :
    (outer.within inner).repeatLast count = outer.within (inner.repeatLast count) := by
  obtain ⟨flags, groups, names, opened, parts, branches⟩ := inner
  cases parts with
  | nil => rfl
  | cons part parts => simp [repeatLast, within]

theorem within_closeGroup (h : inner.closeGroup = .ok next) :
    (outer.within inner).closeGroup = .ok (outer.within next) := by
  obtain ⟨flags, groups, names, opened, parts, branches⟩ := inner
  cases opened with
  | nil => cases h
  | cons innermost rest =>
      obtain rfl := Except.ok.inj h
      obtain ⟨capture, outerFlags, outerParts, outerBranches⟩ := innermost
      rw [closeGroup, within_current]
      cases capture with
      | none => rfl
      | some place => rfl

theorem within_enter {capture : Option (Nat × Option String)} {flags : Flags}
    (h : inner.enter capture flags = .ok next) (hfits : outer.Fits next) :
    (outer.within inner).enter (capture.map fun place => (outer.groups + place.1, place.2))
      flags = .ok (outer.within next) := by
  rw [enter] at h
  split at h
  · cases h
  · obtain rfl := Except.ok.inj h
    have hdepth := hfits.depth
    have hroom : ¬ nestLimit ≤ (outer.within inner).opened.length := by
      simp only [within, List.length_append, List.length_map, List.length_cons] at hdepth ⊢
      omega
    rw [enter, if_neg hroom]
    rfl

def begin (reading : Reading) : Opening → Except RegexError Reading
  | .directive flags => .ok { reading with flags := flags }
  | .plain flags => reading.enter none flags
  | .capture name =>
      enter
        { reading with
          groups := reading.groups + 1, names := name.toList ++ reading.names }
        (some (reading.groups + 1, name)) reading.flags

theorem openGroup_eq (reading : Reading) (rest : List Char) :
    reading.openGroup rest = (do
      let (opening, after) ← openingOf reading.flags reading.names rest
      let begun ← begin reading opening
      pure (begun, after)) := by
  rw [openGroup]
  refine congrArg _ (funext fun found => ?_)
  obtain ⟨opening, after⟩ := found
  cases opening <;> rfl

theorem openGroup_cases {reading : Reading} {rest after : List Char}
    (h : reading.openGroup rest = .ok (next, after)) :
    ∃ opening, openingOf reading.flags reading.names rest = .ok (opening, after) ∧
      reading.begin opening = .ok next := by
  rw [openGroup_eq] at h
  obtain ⟨⟨opening, left⟩, hopening, hlater⟩ := exists_of_bind_ok h
  obtain ⟨begun, hbegin, hpair⟩ := exists_of_bind_ok hlater
  obtain ⟨rfl, rfl⟩ := Prod.mk.inj (Except.ok.inj hpair)
  exact ⟨opening, hopening, hbegin⟩

theorem within_begin {opening : Opening} (h : inner.begin opening = .ok next)
    (hfits : outer.Fits next) :
    (outer.within inner).begin opening = .ok (outer.within next) := by
  cases opening with
  | directive flags =>
      obtain rfl := Except.ok.inj h
      rfl
  | plain flags => exact within_enter h hfits
  | capture name =>
      have hentered := within_enter h hfits
      rw [begin, ← hentered]
      simp only [within, List.append_assoc]
      rfl

theorem begin_names {opening : Opening} (h : inner.begin opening = .ok next) :
    next.names = opening.names ++ inner.names := by
  cases opening with
  | directive flags =>
      obtain rfl := Except.ok.inj h
      rfl
  | plain flags =>
      simp only [begin, enter] at h
      split at h
      · cases h
      · obtain rfl := Except.ok.inj h
        rfl
  | capture name =>
      simp only [begin, enter] at h
      split at h
      · cases h
      · obtain rfl := Except.ok.inj h
        rfl

/-- What one reader does alone, the other does inside the group. -/
def Carries (outer : Reading)
    (alone whole : List Char → Except RegexError (Reading × List Char)) : Prop :=
  ∀ ⦃rest : List Char⦄ ⦃next : Reading⦄ ⦃after : List Char⦄,
    alone rest = .ok (next, after) →
    after <:+ rest ∧ ('#' ∉ rest → outer.Fits next → ∀ more,
      whole (rest ++ ')' :: more) = .ok (outer.within next, after ++ ')' :: more))

theorem carries_ite (condition : Prop) [Decidable condition]
    {alone whole alone' whole' : List Char → Except RegexError (Reading × List Char)}
    (hthen : Carries outer alone whole) (helse : Carries outer alone' whole') :
    Carries outer (fun rest => if condition then alone rest else alone' rest)
      (fun rest => if condition then whole rest else whole' rest) := by
  by_cases hcondition : condition
  · simp only [if_pos hcondition]
    exact hthen
  · simp only [if_neg hcondition]
    exact helse

theorem carries_error (refusal : RegexError) (whole) :
    Carries outer (fun _ => .error refusal) whole := by
  intro rest next after h
  cases h

/-- A step that takes nothing beyond its own character. -/
theorem carries_ok {alone whole : Reading} (hwhole : whole = outer.within alone) :
    Carries outer (fun rest => .ok (alone, rest)) (fun rest => .ok (whole, rest)) := by
  intro rest next after h
  obtain ⟨rfl, rfl⟩ := Prod.mk.inj (Except.ok.inj h)
  exact ⟨List.suffix_refl _, fun _ _ _ => by rw [hwhole]⟩

theorem carries_push {part : Regex} (hgroups : part.groups = []) :
    Carries outer (fun rest => .ok (inner.push part, rest))
      (fun rest => .ok ((outer.within inner).push part, rest)) :=
  carries_ok (by rw [within_push, Regex.shift_of_groups _ _ hgroups])

theorem carries_openGroup :
    Carries outer inner.openGroup (outer.within inner).openGroup := by
  intro rest next after h
  obtain ⟨opening, hopening, hbegin⟩ := openGroup_cases h
  obtain ⟨hsuffix, happend⟩ := openingOf_append inner.flags hopening
  refine ⟨hsuffix, fun hfree hfits more => ?_⟩
  have hnew : ¬ ∃ name ∈ opening.names, name ∈ outer.names := by
    rintro ⟨name, hname, htaken⟩
    refine hfits.names name ?_ htaken
    rw [begin_names hbegin]
    exact List.mem_append_left _ hname
  have hread := happend hfree more outer.names
  rw [if_neg hnew] at hread
  have hopened : openingOf (outer.within inner).flags (outer.within inner).names
      (rest ++ ')' :: more) = .ok (opening, after ++ ')' :: more) := hread
  rw [openGroup_eq, hopened]
  simp only [ok_bind, within_begin hbegin hfits, pure_eq_ok]

theorem carries_closeGroup :
    Carries outer (fun rest => do let closed ← inner.closeGroup; pure (closed, rest))
      (fun rest => do
        let closed ← (outer.within inner).closeGroup
        pure (closed, rest)) := by
  intro rest next after h
  obtain ⟨closed, hclosed, hpair⟩ := exists_of_bind_ok h
  obtain ⟨rfl, rfl⟩ := Prod.mk.inj (Except.ok.inj hpair)
  refine ⟨List.suffix_refl _, fun _ _ more => ?_⟩
  simp only [within_closeGroup hclosed, ok_bind, pure_eq_ok]

theorem carries_read {read : List Char → Except RegexError (Regex × List Char)}
    (hread : Settles read)
    (hgroups : ∀ {text part rest}, read text = .ok (part, rest) → part.groups = []) :
    Carries outer
      (fun rest => do let (part, left) ← read rest; pure (inner.push part, left))
      (fun rest => do
        let (part, left) ← read rest
        pure ((outer.within inner).push part, left)) := by
  intro rest next after h
  obtain ⟨⟨part, left⟩, hpart, hpair⟩ := exists_of_bind_ok h
  obtain ⟨rfl, rfl⟩ := Prod.mk.inj (Except.ok.inj hpair)
  obtain ⟨hsuffix, happend⟩ := hread hpart
  refine ⟨hsuffix, fun hfree _ more => ?_⟩
  simp only [happend hfree more, ok_bind, pure_eq_ok, within_push,
    Regex.shift_of_groups _ _ (hgroups hpart)]

theorem carries_uncounted (operator : Char) :
    Carries outer
      (fun rest =>
        let (count, after) := uncountedOf inner.flags operator rest
        .ok (inner.repeatLast count, after))
      (fun rest =>
        let (count, after) := uncountedOf inner.flags operator rest
        .ok ((outer.within inner).repeatLast count, after)) := by
  intro rest next after h
  obtain ⟨hsuffix, happend⟩ := uncountedOf_append inner.flags operator rest
  cases hcount : uncountedOf inner.flags operator rest with
  | mk count left =>
      simp only [hcount, Except.ok.injEq, Prod.mk.injEq] at h hsuffix happend
      obtain ⟨rfl, rfl⟩ := h
      exact ⟨hsuffix, fun _ _ more => by simp only [happend more, within_repeatLast]⟩

theorem carries_counted :
    Carries outer
      (fun rest => do
        let (count, after) ← countOf inner.flags rest
        pure (inner.repeatLast count, after))
      (fun rest => do
        let (count, after) ← countOf inner.flags rest
        pure ((outer.within inner).repeatLast count, after)) := by
  intro rest next after h
  obtain ⟨⟨count, left⟩, hcount, hpair⟩ := exists_of_bind_ok h
  obtain ⟨rfl, rfl⟩ := Prod.mk.inj (Except.ok.inj hpair)
  obtain ⟨hsuffix, happend⟩ := countOf_settles inner.flags hcount
  refine ⟨hsuffix, fun hfree _ more => ?_⟩
  simp only [happend hfree more, ok_bind, pure_eq_ok, within_repeatLast]

theorem carries_step (c : Char) :
    Carries outer (inner.step c) ((outer.within inner).step c) := by
  have hparts : (outer.within inner).parts.isEmpty = inner.parts.isEmpty := by
    simp [within]
  unfold step
  rw [hparts]
  apply carries_ite _ carries_openGroup
  apply carries_ite _ carries_closeGroup
  apply carries_ite _ (carries_ok within_branch)
  apply carries_ite _ (carries_read (classOf_settles inner.flags) groups_classOf)
  apply carries_ite _ (carries_ite _ (carries_error ..) (carries_uncounted c))
  apply carries_ite _ (carries_ite _ (carries_error ..) carries_counted)
  apply carries_ite _ (carries_read (escapeOf_settles inner.flags) groups_escapeOf)
  apply carries_ite _ (carries_push (groups_dotOf inner.flags))
  apply carries_ite _ (carries_push (groups_startOf inner.flags))
  apply carries_ite _ (carries_push (groups_finishOf inner.flags))
  exact carries_push (groups_charOf inner.flags c)

theorem step_suffix {reading : Reading} {c : Char} {rest after : List Char}
    (h : reading.step c rest = .ok (next, after)) : after <:+ rest := by
  have hcarries : Carries initial (reading.step c) ((initial.within reading).step c) :=
    carries_step c
  exact (hcarries h).1

end Reading

end Signpost.Regex
