import Signpost.Proofs.Regex.Numbering

namespace Signpost.Regex.Reading

variable {outer inner next final : Reading}

/-! Reading to the end.  The bound plays no part. -/

def readAll (reading : Reading) (text : List Char) : Except RegexError Reading :=
  reading.run text.length text

theorem run_step {reading : Reading} {text rest : List Char} {c : Char} (bound : Nat)
    (hskip : skipBlank reading.flags.verbose text = c :: rest) :
    reading.run (bound + 1) text =
      (reading.step c rest).bind fun found => found.1.run bound found.2 := by
  simp only [run, hskip]
  cases reading.step c rest with
  | error refusal => rfl
  | ok found => rfl

theorem length_rest_lt {verbose : Bool} {text rest : List Char} {c : Char}
    (hskip : skipBlank verbose text = c :: rest) : rest.length < text.length := by
  have hle := length_skipBlank_le verbose text
  rwa [hskip, List.length_cons] at hle

theorem run_stable {text : List Char} : ∀ {reading : Reading} {bound : Nat},
    text.length ≤ bound → reading.run bound text = reading.readAll text := by
  induction hlength : text.length using Nat.strongRecOn generalizing text with
  | ind length ih =>
      intro reading bound hbound
      cases length with
      | zero =>
          obtain rfl := List.eq_nil_of_length_eq_zero hlength
          cases bound <;> cases hverbose : reading.flags.verbose <;>
            simp [readAll, run, skipBlank, skipSpace, hverbose]
      | succ length =>
          obtain ⟨bound, rfl⟩ : ∃ less, bound = less + 1 := ⟨bound - 1, by omega⟩
          rw [readAll, hlength]
          cases hskip : skipBlank reading.flags.verbose text with
          | nil => simp only [run, hskip]
          | cons c rest =>
              have hrest := length_rest_lt hskip
              rw [run_step bound hskip, run_step length hskip]
              cases hstep : reading.step c rest with
              | error refusal => rfl
              | ok found =>
                  have hafter := (step_suffix hstep).length_le
                  exact (ih found.2.length (by omega) rfl (by omega)).trans
                    (ih found.2.length (by omega) rfl (by omega)).symm

theorem readAll_blank {reading : Reading} {text : List Char}
    (hskip : skipBlank reading.flags.verbose text = []) :
    reading.readAll text = .ok reading := by
  cases text with
  | nil => rfl
  | cons c rest => rw [readAll, List.length_cons, run, hskip]

theorem readAll_step {reading : Reading} {text rest : List Char} {c : Char}
    (hskip : skipBlank reading.flags.verbose text = c :: rest) :
    reading.readAll text = reading.step c rest >>= fun found =>
      found.1.readAll found.2 := by
  have hrest := length_rest_lt hskip
  obtain ⟨length, hlength⟩ : ∃ length, text.length = length + 1 :=
    ⟨text.length - 1, by omega⟩
  rw [readAll, hlength, run_step length hskip]
  cases hstep : reading.step c rest with
  | error refusal => rfl
  | ok found =>
      have hafter := (step_suffix hstep).length_le
      exact run_stable (by omega)

theorem readAll_cases {reading : Reading} {text : List Char}
    (h : reading.readAll text = .ok final) :
    (skipBlank reading.flags.verbose text = [] ∧ final = reading) ∨
      ∃ c rest next after, skipBlank reading.flags.verbose text = c :: rest ∧
        reading.step c rest = .ok (next, after) ∧ next.readAll after = .ok final := by
  cases hskip : skipBlank reading.flags.verbose text with
  | nil =>
      rw [readAll_blank hskip] at h
      exact .inl ⟨rfl, (Except.ok.inj h).symm⟩
  | cons c rest =>
      rw [readAll_step hskip] at h
      obtain ⟨⟨next, after⟩, hstep, hnext⟩ := exists_of_bind_ok h
      exact .inr ⟨c, rest, next, after, rfl, hstep, hnext⟩

theorem AllNumbered.readAll {text : List Char} : ∀ {reading : Reading},
    reading.AllNumbered → reading.readAll text = .ok final → final.AllNumbered := by
  induction hlength : text.length using Nat.strongRecOn generalizing text with
  | ind length ih =>
      intro reading hreading h
      rcases readAll_cases h with ⟨-, rfl⟩ | ⟨c, rest, next, after, hskip, hstep, hnext⟩
      · exact hreading
      · have hrest := length_rest_lt hskip
        have hafter := (step_suffix hstep).length_le
        exact ih after.length (by omega) rfl (hreading.step hstep) hnext

/-! When the whole is read without a refusal, the inner reading leaves the limits alone. -/

theorem begin_opened {opening : Opening} (h : inner.begin opening = .ok next) :
    next.opened.length ≤ inner.opened.length + 1 := by
  cases opening with
  | directive flags =>
      obtain rfl := Except.ok.inj h
      exact Nat.le_succ _
  | plain flags =>
      obtain ⟨-, rfl⟩ := enter_ok h
      exact Nat.le_refl _
  | capture name =>
      obtain ⟨-, rfl⟩ := enter_ok h
      exact Nat.le_refl _

theorem fits_begin (hfits : outer.Fits inner) {opening : Opening} {whole : Reading}
    (hnew : ∀ name ∈ opening.names, name ∉ outer.names)
    (h : inner.begin opening = .ok next)
    (hwhole : (outer.within inner).begin opening = .ok whole) : outer.Fits next := by
  have hnames : ∀ name ∈ next.names, name ∉ outer.names := by
    intro name hname
    rw [begin_names h] at hname
    rcases List.mem_append.mp hname with hopening | hold
    · exact hnew name hopening
    · exact hfits.names name hold
  have hroom : ∀ (reading : Reading) {entered : Reading} {capture flags},
      reading.opened = (outer.within inner).opened →
      reading.enter capture flags = .ok entered →
      inner.opened.length + outer.opened.length < nestLimit := by
    intro reading entered capture flags hopened hentered
    have hroom := (enter_ok hentered).1
    rw [hopened] at hroom
    simpa [within] using hroom
  refine ⟨?_, hnames⟩
  have hopened := begin_opened h
  cases opening with
  | directive flags =>
      obtain rfl := Except.ok.inj h
      exact hfits.depth
  | plain flags =>
      have hless := hroom (outer.within inner) rfl hwhole
      omega
  | capture name =>
      have hless := hroom
        { outer.within inner with
          groups := (outer.within inner).groups + 1
          names := name.toList ++ (outer.within inner).names } rfl hwhole
      omega

theorem fits_step (hfits : outer.Fits inner) {c : Char} {rest after more : List Char}
    {whole : Reading} {left : List Char} (hfree : '#' ∉ rest)
    (h : inner.step c rest = .ok (next, after))
    (hwhole : (outer.within inner).step c (rest ++ ')' :: more) = .ok (whole, left)) :
    outer.Fits next := by
  rcases step_cases h with ⟨rfl, hopened⟩ | hclosed | rfl | ⟨part, -, rfl⟩ | ⟨count, rfl⟩
  · obtain ⟨opening, hopening, hbegin⟩ := openGroup_cases hopened
    obtain ⟨-, happend⟩ := openingOf_append inner.flags hopening
    have hread := happend hfree more outer.names
    obtain ⟨opening', hopening', hbegin'⟩ := openGroup_cases hwhole
    have hsame : openingOf inner.flags (inner.names ++ outer.names) (rest ++ ')' :: more) =
      .ok (opening', left) := hopening'
    rw [hread] at hsame
    split at hsame
    · cases hsame
    · rename_i hnew
      obtain rfl := (Prod.mk.inj (Except.ok.inj hsame)).1
      exact fits_begin hfits
        (fun name hname htaken => hnew ⟨name, hname, htaken⟩) hbegin hbegin'
  · obtain ⟨flags, number, names, opened, parts, branches⟩ := inner
    cases opened with
    | nil => cases hclosed
    | cons innermost others =>
        obtain rfl := Except.ok.inj hclosed
        refine ⟨?_, hfits.names⟩
        have hdepth : others.length + 1 + outer.opened.length ≤ nestLimit := hfits.depth
        change others.length + outer.opened.length ≤ nestLimit
        omega
  · exact ⟨hfits.depth, hfits.names⟩
  · exact ⟨hfits.depth, hfits.names⟩
  · obtain ⟨flags, number, names, opened, parts, branches⟩ := inner
    cases parts <;> exact ⟨hfits.depth, hfits.names⟩

theorem skipBlank_paren (verbose : Bool) (more : List Char) :
    skipBlank verbose (')' :: more) = ')' :: more := by
  have hempty := skipBlank_append (List.not_mem_nil : '#' ∉ []) verbose more
  cases verbose <;> exact hempty

structure Looser (other outer : Reading) : Prop where
  depth : other.opened.length ≤ outer.opened.length
  names : other.names ⊆ outer.names

theorem Looser.refl (outer : Reading) : outer.Looser outer :=
  ⟨Nat.le_refl _, List.Subset.refl _⟩

theorem Fits.loosen {other : Reading} (hfits : outer.Fits inner)
    (hloose : other.Looser outer) :
    other.Fits inner where
  depth := Nat.le_trans (Nat.add_le_add_left hloose.depth _) hfits.depth
  names := fun name hname htaken => hfits.names name hname (hloose.names htaken)

theorem readAll_within {text more : List Char} {whole : Reading} : ∀ {inner : Reading},
    '#' ∉ text → outer.Fits inner → inner.readAll text = .ok final →
    (outer.within inner).readAll (text ++ ')' :: more) = .ok whole →
    outer.Fits final ∧ ∀ {other : Reading}, other.Looser outer → ∀ more,
      (other.within inner).readAll (text ++ ')' :: more) =
        (other.within final).readAll (')' :: more) := by
  induction hlength : text.length using Nat.strongRecOn generalizing text with
  | ind length ih =>
      intro inner hfree hfits h hwhole
      have hskips : ∀ (other : Reading) more,
          skipBlank (other.within inner).flags.verbose (text ++ ')' :: more) =
            skipBlank inner.flags.verbose text ++ ')' :: more :=
        fun other more => skipBlank_append hfree inner.flags.verbose more
      rcases readAll_cases h with
        ⟨hskip, rfl⟩ | ⟨c, rest, next, after, hskip, hstep, hnext⟩
      · refine ⟨hfits, fun {other} _ more => ?_⟩
        have hblank := hskips other more
        rw [hskip, List.nil_append] at hblank
        have hparen : skipBlank (other.within final).flags.verbose (')' :: more) =
            ')' :: more :=
          skipBlank_paren _ more
        rw [readAll_step hblank, readAll_step hparen]
      · have hless := length_rest_lt hskip
        have hsuffix := step_suffix hstep
        have hafter := hsuffix.length_le
        have hrest : '#' ∉ rest := by
          have hsub := skipBlank_suffix inner.flags.verbose text
          rw [hskip] at hsub
          exact not_mem_of_suffix ((List.suffix_cons c rest).trans hsub) hfree
        have hread : ∀ (other : Reading) more,
            (other.within inner).readAll (text ++ ')' :: more) =
              (other.within inner).step c (rest ++ ')' :: more) >>=
                fun found => found.1.readAll found.2 := by
          intro other more
          apply readAll_step
          rw [hskips, hskip, List.cons_append]
        have hnextFits : outer.Fits next := by
          have hstepped := hwhole
          rw [hread] at hstepped
          obtain ⟨found, hwholeStep, -⟩ := exists_of_bind_ok hstepped
          exact fits_step hfits hrest hstep hwholeStep
        have hcarried : ∀ {other : Reading}, other.Looser outer → ∀ more,
            (other.within inner).readAll (text ++ ')' :: more) =
              (other.within next).readAll (after ++ ')' :: more) := by
          intro other hloose more
          rw [hread, (carries_step c hstep).2 hrest (hnextFits.loosen hloose) more,
            ok_bind]
        rw [hcarried (.refl outer)] at hwhole
        obtain ⟨hfinal, hothers⟩ := ih after.length (by omega) rfl
          (not_mem_of_suffix hsuffix hrest) hnextFits hnext hwhole
        refine ⟨hfinal, fun {other} hloose more => ?_⟩
        rw [hcarried hloose, hothers hloose]

end Signpost.Regex.Reading
