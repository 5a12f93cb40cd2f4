import Signpost.Proofs.Regex.Settled
import Signpost.Regex.Count
import Signpost.Regex.Group

namespace Signpost.Regex

open Signpost.Text

variable (flags : Flags)

theorem nameFrom_settles (first : Bool) : Settles (nameFrom first) := by
  intro text value rest h
  induction text generalizing first value with
  | nil => cases h
  | cons c tail ih =>
      have hone := List.suffix_cons c tail
      by_cases hclose : c = '>'
      · simp only [nameFrom, hclose, if_true, Except.ok.injEq, Prod.mk.injEq] at h
        obtain ⟨rfl, rfl⟩ := h
        exact ⟨hone, fun _ more => by simp [nameFrom, hclose]⟩
      · by_cases hname : isNameChar first c = true
        · rw [nameFrom, if_neg hclose, if_pos hname] at h
          obtain ⟨⟨name, after⟩, hrest, htaken⟩ := exists_of_bind_ok h
          obtain ⟨rfl, rfl⟩ := Prod.mk.inj (Except.ok.inj htaken)
          obtain ⟨hsuffix, happend⟩ := ih false hrest
          refine ⟨hsuffix.trans hone, fun hfree more => ?_⟩
          have htail := happend (not_mem_of_suffix hone hfree) more
          simp [nameFrom, hclose, hname, htail]
        · simp [nameFrom, hclose, hname] at h

/-- Names that are taken outside only matter if they turn up again. -/
theorem groupName_append {taken : List String} {text rest : List Char} {name : String}
    (h : groupName taken text = .ok (name, rest)) :
    rest <:+ text ∧ ('#' ∉ text → ∀ more others,
      groupName (taken ++ others) (text ++ ')' :: more) =
        if name ∈ others then .error .groupNameTwice
        else .ok (name, rest ++ ')' :: more)) := by
  cases text with
  | nil => cases h
  | cons c tail =>
      simp only [groupName, List.isEmpty_cons, Bool.false_eq_true, if_false] at h
      obtain ⟨⟨letters, after⟩, hname, hnew⟩ := exists_of_bind_ok h
      simp only at hnew
      split at hnew
      · cases hnew
      · rename_i hletters
        split at hnew
        · cases hnew
        · rename_i hfresh
          obtain ⟨rfl, rfl⟩ := Prod.mk.inj (Except.ok.inj hnew)
          obtain ⟨hsuffix, happend⟩ := nameFrom_settles true hname
          refine ⟨hsuffix, fun hfree more others => ?_⟩
          have hname' := happend hfree more
          rw [List.cons_append] at hname'
          have hsome : letters ≠ [] := by simpa using hletters
          by_cases hothers : String.ofList letters ∈ others <;>
            simp [groupName, hname', hsome, hfresh, hothers]

theorem flagsFrom_settles (reading : FlagReading) : Settles (flagsFrom reading) := by
  intro text value rest h
  induction text generalizing reading with
  | nil => cases h
  | cons c tail ih =>
      have hone := List.suffix_cons c tail
      by_cases hend : c = ':' ∨ c = ')'
      · by_cases hdash : reading.afterDash = true
        · simp [flagsFrom, hend, hdash] at h
        · simp only [flagsFrom, hend, hdash, if_true, Bool.false_eq_true, if_false,
            Except.ok.injEq, Prod.mk.injEq] at h
          obtain ⟨rfl, rfl⟩ := h
          exact ⟨List.suffix_refl _, fun _ more => by simp [flagsFrom, hend, hdash]⟩
      · by_cases hdash : c = '-'
        · by_cases hnegated : reading.negated = true
          · simp [flagsFrom, hdash, hnegated] at h
          · rw [flagsFrom, if_neg hend, if_pos hdash, if_neg hnegated] at h
            obtain ⟨hsuffix, hrest⟩ := ih _ h
            refine ⟨hsuffix.trans hone, fun hfree more => ?_⟩
            rw [List.cons_append, flagsFrom, if_neg hend, if_pos hdash, if_neg hnegated]
            exact hrest (not_mem_of_suffix hone hfree) more
        · cases hflag : setFlag? reading.flags c (!reading.negated) with
          | none => simp [flagsFrom, hend, hdash, hflag] at h
          | some updated =>
              by_cases hseen : c ∈ reading.seen
              · simp [flagsFrom, hend, hdash, hflag, hseen] at h
              · simp only [flagsFrom, hend, hdash, hflag, hseen, if_false] at h
                obtain ⟨hsuffix, hrest⟩ := ih _ h
                refine ⟨hsuffix.trans hone, fun hfree more => ?_⟩
                simp only [List.cons_append, flagsFrom, hend, hdash, hflag, hseen,
                  if_false]
                exact hrest (not_mem_of_suffix hone hfree) more

theorem flagsFrom_end {reading : FlagReading} {text : List Char} {updated : Flags}
    {rest : List Char} (h : flagsFrom reading text = .ok (updated, rest)) : rest ≠ [] := by
  induction text generalizing reading with
  | nil => cases h
  | cons c tail ih =>
      rw [flagsFrom] at h
      split at h
      · split at h
        · cases h
        · simp only [Except.ok.injEq, Prod.mk.injEq] at h
          obtain ⟨rfl, rfl⟩ := h
          exact List.cons_ne_nil c tail
      · split at h
        · split at h
          · cases h
          · exact ih h
        · split at h
          · cases h
          · split at h
            · cases h
            · exact ih h

theorem flagsOpening_settles : Settles (flagsOpening flags) := by
  intro text value rest h
  rw [flagsOpening] at h
  obtain ⟨⟨updated, after⟩, hflags, hopening⟩ := exists_of_bind_ok h
  obtain ⟨hsuffix, happend⟩ := flagsFrom_settles _ hflags
  have hafter := flagsFrom_end hflags
  cases text with
  | nil => cases hflags
  | cons d tail =>
      cases after with
      | nil => exact (hafter rfl).elim
      | cons c left =>
          have hleft := (List.suffix_cons c left).trans hsuffix
          by_cases hclose : c = ')'
          · subst hclose
            simp only at hopening
            split at hopening
            · cases hopening
            · rename_i hhead
              obtain ⟨rfl, rfl⟩ := Prod.mk.inj (Except.ok.inj hopening)
              refine ⟨hleft, fun hfree more => ?_⟩
              have hflags' := happend hfree more
              simp only [List.cons_append] at hflags'
              simp only [List.head?_cons] at hhead
              simp [flagsOpening, hflags', hhead]
          · have hplain : rest = left ∧ value = .plain updated := by
              simp [hclose] at hopening
              exact ⟨hopening.2.symm, hopening.1.symm⟩
            obtain ⟨rfl, rfl⟩ := hplain
            refine ⟨hleft, fun hfree more => ?_⟩
            have hflags' := happend hfree more
            simp only [List.cons_append] at hflags'
            simp [flagsOpening, hflags', hclose]

def Opening.names : Opening → List String
  | .capture name => name.toList
  | .plain _ => []
  | .directive _ => []

theorem flagsOpening_names {text rest : List Char} {opening : Opening}
    (h : flagsOpening flags text = .ok (opening, rest)) : opening.names = [] := by
  rw [flagsOpening] at h
  obtain ⟨⟨updated, after⟩, -, hopening⟩ := exists_of_bind_ok h
  simp only at hopening
  split at hopening
  · split at hopening
    · cases hopening
    · obtain ⟨rfl, -⟩ := Prod.mk.inj (Except.ok.inj hopening)
      rfl
  · obtain ⟨rfl, -⟩ := Prod.mk.inj (Except.ok.inj hopening)
    rfl

def namedOpening (taken : List String) (text : List Char) :
    Except RegexError (Opening × List Char) := do
  let (name, after) ← groupName taken text
  pure (.capture (some name), after)

theorem namedOpening_append {taken : List String} {text rest : List Char}
    {opening : Opening} (h : namedOpening taken text = .ok (opening, rest)) :
    rest <:+ text ∧ ('#' ∉ text → ∀ more others,
      namedOpening (taken ++ others) (text ++ ')' :: more) =
        if ∃ name ∈ opening.names, name ∈ others then .error .groupNameTwice
        else .ok (opening, rest ++ ')' :: more)) := by
  obtain ⟨⟨name, after⟩, hname, hopening⟩ := exists_of_bind_ok h
  obtain ⟨rfl, rfl⟩ := Prod.mk.inj (Except.ok.inj hopening)
  obtain ⟨hsuffix, happend⟩ := groupName_append hname
  refine ⟨hsuffix, fun hfree more others => ?_⟩
  by_cases hothers : name ∈ others <;>
    simp [namedOpening, happend hfree more others, hothers, Opening.names]

theorem openingOf_append {taken : List String} {text rest : List Char} {opening : Opening}
    (h : openingOf flags taken text = .ok (opening, rest)) :
    rest <:+ text ∧ ('#' ∉ text → ∀ more others,
      openingOf flags (taken ++ others) (text ++ ')' :: more) =
        if ∃ name ∈ opening.names, name ∈ others then .error .groupNameTwice
        else .ok (opening, rest ++ ')' :: more)) := by
  have hskip := skipBlank_suffix flags.verbose text
  unfold openingOf at h
  split at h
  · cases h
  · cases h
  · cases h
  · cases h
  · rename_i tail heq
    obtain ⟨hsuffix, happend⟩ := namedOpening_append h
    rw [heq] at hskip
    have htail : tail <:+ text := (List.suffix_append ['?', 'P', '<'] tail).trans hskip
    refine ⟨hsuffix.trans htail, fun hfree more others => ?_⟩
    unfold openingOf
    rw [skipBlank_append hfree, heq]
    exact happend (not_mem_of_suffix htail hfree) more others
  · rename_i tail hequal hbang heq
    obtain ⟨hsuffix, happend⟩ := namedOpening_append h
    rw [heq] at hskip
    have htail : tail <:+ text := (List.suffix_append ['?', '<'] tail).trans hskip
    refine ⟨hsuffix.trans htail, fun hfree more others => ?_⟩
    rw [← happend (not_mem_of_suffix htail hfree) more others]
    cases tail with
    | nil => cases h
    | cons c after =>
        have hneEqual : c ≠ '=' := fun hc => hequal after (hc ▸ rfl)
        have hneBang : c ≠ '!' := fun hc => hbang after (hc ▸ rfl)
        simp [openingOf, skipBlank_append hfree, heq, hneEqual, hneBang, namedOpening]
  · rename_i tail hequal hbang _ _ hname hangle heq
    split at h
    · cases h
    · rename_i hempty
      obtain ⟨hsuffix, happend⟩ := flagsOpening_settles flags h
      rw [heq] at hskip
      have htail : tail <:+ text := (List.suffix_cons _ tail).trans hskip
      have hnames := flagsOpening_names flags h
      refine ⟨hsuffix.trans htail, fun hfree more others => ?_⟩
      rw [hnames]
      simp only [List.not_mem_nil, false_and, exists_false, if_false]
      rw [← happend (not_mem_of_suffix htail hfree) more]
      rcases tail with _ | ⟨c, _ | ⟨d, after⟩⟩
      · exact (hempty rfl).elim
      all_goals
        have hneEqual : c ≠ '=' := fun hc => hequal _ (congrArg (· :: _) hc)
        have hneBang : c ≠ '!' := fun hc => hbang _ (congrArg (· :: _) hc)
        have hneAngle : c ≠ '<' := fun hc => hangle _ (congrArg (· :: _) hc)
      · simp [openingOf, skipBlank_append hfree, heq, hneEqual, hneBang, hneAngle]
      · by_cases hletter : c = 'P'
        · have hneName : d ≠ '<' := fun hd => hname after (hletter ▸ hd ▸ rfl)
          simp [openingOf, skipBlank_append hfree, heq, hletter, hneName]
        · simp [openingOf, skipBlank_append hfree, heq, hneEqual, hneBang, hneAngle,
            hletter]
  · rename_i hplain
    simp only [Except.ok.injEq, Prod.mk.injEq] at h
    obtain ⟨rfl, rfl⟩ := h
    refine ⟨hskip, fun hfree more others => ?_⟩
    simp only [Opening.names, Option.toList_none, List.not_mem_nil, false_and,
      exists_false, if_false]
    cases hnext : skipBlank flags.verbose text with
    | nil => simp [openingOf, skipBlank_append hfree, hnext]
    | cons c after =>
        have hne : c ≠ '?' := fun hc => hplain after (hc ▸ hnext)
        simp [openingOf, skipBlank_append hfree, hnext, hne]

/-! Repetitions. -/

theorem digitsFrom_append {verbose : Bool} {text digits after : List Char}
    (h : digitsFrom verbose text = (digits, after)) :
    after <:+ text ∧ ('#' ∉ text →
      ∀ more, digitsFrom verbose (text ++ ')' :: more) =
        (digits, after ++ ')' :: more)) := by
  fun_induction digitsFrom verbose text generalizing digits after with
  | case1 =>
      obtain ⟨rfl, rfl⟩ := Prod.mk.inj h
      have hparen : Char.isDigit ')' = false := by decide
      exact ⟨List.suffix_refl _, fun _ more => by simp [digitsFrom, hparen]⟩
  | case2 c tail hdigit others left hothers ih =>
      obtain ⟨rfl, rfl⟩ := Prod.mk.inj h
      obtain ⟨hsuffix, hrest⟩ := ih hothers
      refine ⟨hsuffix.trans skipBlank_suffix_cons, fun hfree more => ?_⟩
      have htail := not_mem_of_suffix (List.suffix_cons c tail) hfree
      have hskip := not_mem_of_suffix (skipBlank_suffix verbose tail) htail
      rw [List.cons_append, digitsFrom, if_pos hdigit, skipBlank_append htail,
        hrest hskip more]
  | case3 c tail hdigit =>
      obtain ⟨rfl, rfl⟩ := Prod.mk.inj h
      refine ⟨List.suffix_refl _, fun _ more => ?_⟩
      rw [List.cons_append, digitsFrom, if_neg hdigit]

theorem skipAfterNumber_cons (verbose : Bool) (c : Char) (rest : List Char) :
    skipAfterNumber verbose (c :: rest) =
      if isWhitespace c then skipAfterNumber verbose (skipBlank verbose rest)
      else c :: rest := by
  rw [skipAfterNumber.eq_def]

theorem skipAfterNumber_append (verbose : Bool) (text : List Char) :
    skipAfterNumber verbose text <:+ text ∧ ('#' ∉ text → ∀ more,
      skipAfterNumber verbose (text ++ ')' :: more) =
        skipAfterNumber verbose text ++ ')' :: more) := by
  fun_induction skipAfterNumber verbose text with
  | case1 =>
      have hparen : isWhitespace ')' = false := by decide
      exact ⟨List.suffix_refl _, fun _ more => by simp [skipAfterNumber_cons, hparen]⟩
  | case2 c tail hspace ih =>
      obtain ⟨hsuffix, hrest⟩ := ih
      refine ⟨hsuffix.trans skipBlank_suffix_cons, fun hfree more => ?_⟩
      have htail := not_mem_of_suffix (List.suffix_cons c tail) hfree
      have hskip := not_mem_of_suffix (skipBlank_suffix verbose tail) htail
      rw [List.cons_append, skipAfterNumber_cons, if_pos hspace, skipBlank_append htail,
        hrest hskip more]
  | case3 c tail hspace =>
      refine ⟨List.suffix_refl _, fun _ more => ?_⟩
      rw [List.cons_append, skipAfterNumber_cons, if_neg hspace]

theorem decimal_settles (verbose : Bool) : Settles (decimal verbose) := by
  intro text value rest h
  obtain ⟨digits, after, hdigits⟩ : ∃ digits after,
      digitsFrom verbose (text.dropWhile isWhitespace) = (digits, after) := ⟨_, _, rfl⟩
  obtain ⟨hafter, happend⟩ := digitsFrom_append hdigits
  obtain ⟨hskip, hskipAppend⟩ := skipAfterNumber_append verbose after
  have hdrop : text.dropWhile isWhitespace <:+ text := List.dropWhile_suffix _
  simp only [decimal, hdigits] at h
  split at h
  · cases h
  · rename_i hempty
    split at h
    · rename_i hsmall
      simp only [Except.ok.injEq, Prod.mk.injEq] at h
      obtain ⟨rfl, rfl⟩ := h
      refine ⟨(hskip.trans hafter).trans hdrop, fun hfree more => ?_⟩
      have hdropFree := not_mem_of_suffix hdrop hfree
      simp only [decimal, dropWhile_space_append, happend hdropFree more, hempty, if_false,
        hsmall, if_true, hskipAppend (not_mem_of_suffix hafter hdropFree) more,
        Bool.false_eq_true]
    · cases h

def mostText (verbose : Bool) : List Char → Except RegexError (Option Nat × List Char)
  | [] => .error .countUnclosedAfterComma
  | c :: rest =>
      if c = '\x7d' then .ok (none, c :: rest)
      else do
        let (most, after) ← decimal verbose (c :: rest)
        if after.isEmpty then .error .countUnclosedAfterMost
        else pure (some most, after)

theorem mostText_settles (verbose : Bool) : Settles (mostText verbose) := by
  intro text value rest h
  cases text with
  | nil => cases h
  | cons c tail =>
      rw [mostText] at h
      split at h
      · rename_i hbrace
        simp only [Except.ok.injEq, Prod.mk.injEq] at h
        obtain ⟨rfl, rfl⟩ := h
        exact ⟨List.suffix_refl _, fun _ more => by simp [mostText, hbrace]⟩
      · rename_i hbrace
        obtain ⟨⟨most, after⟩, hmost, hended⟩ := exists_of_bind_ok h
        simp only at hended
        split at hended
        · cases hended
        · obtain ⟨rfl, rfl⟩ := Prod.mk.inj (Except.ok.inj hended)
          obtain ⟨hsuffix, happend⟩ := decimal_settles verbose hmost
          refine ⟨hsuffix, fun hfree more => ?_⟩
          have hmost' := happend hfree more
          rw [List.cons_append] at hmost'
          simp [mostText, hbrace, hmost']

theorem mostOf_settles (verbose : Bool) : Settles (mostOf verbose) := by
  refine settles_of_skipBlank verbose ?_ ?_ (mostText_settles verbose)
  · intro text value hskip
    simp [mostOf, hskip]
  · intro text c tail hskip
    by_cases hbrace : c = '\x7d'
    · simp [mostOf, hskip, mostText, hbrace]
    · simp [mostOf, hskip, mostText, hbrace]

theorem boundsOf_append {verbose : Bool} {text rest : List Char} {least : Nat}
    {most : Option Nat} (h : boundsOf verbose text = .ok (least, most, rest)) :
    rest <:+ text ∧ ('#' ∉ text → ∀ more,
      boundsOf verbose (text ++ ')' :: more) =
        .ok (least, most, rest ++ ')' :: more)) := by
  rw [boundsOf] at h
  obtain ⟨⟨number, after⟩, hleast, hbound⟩ := exists_of_bind_ok h
  obtain ⟨hafter, happend⟩ := decimal_settles verbose hleast
  cases after with
  | nil => cases hbound
  | cons c tail =>
      by_cases hcomma : c = ','
      · subst hcomma
        obtain ⟨⟨bound, final⟩, hmost, hfound⟩ := exists_of_bind_ok hbound
        obtain ⟨rfl, rfl, rfl⟩ := Except.ok.inj hfound
        obtain ⟨hsuffix, hrest⟩ := mostOf_settles verbose hmost
        have htail := (List.suffix_cons ',' tail).trans hafter
        refine ⟨hsuffix.trans htail, fun hfree more => ?_⟩
        have hleast' := happend hfree more
        rw [List.cons_append] at hleast'
        simp [boundsOf, hleast', hrest (not_mem_of_suffix htail hfree) more]
      · simp [hcomma] at hbound
        obtain ⟨rfl, rfl, rfl⟩ := hbound
        refine ⟨hafter, fun hfree more => ?_⟩
        have hleast' := happend hfree more
        rw [List.cons_append] at hleast'
        simp [boundsOf, hleast', hcomma]

theorem lazyMark_append (text : List Char) :
    (lazyMark text).2 <:+ text ∧ ∀ more,
      lazyMark (text ++ ')' :: more) =
        ((lazyMark text).1, (lazyMark text).2 ++ ')' :: more) := by
  cases text with
  | nil => exact ⟨List.suffix_refl _, fun _ => rfl⟩
  | cons c tail =>
      by_cases hmark : c = '?'
      · subst hmark
        exact ⟨List.suffix_cons _ tail, fun _ => rfl⟩
      · simp [lazyMark, hmark]

def countText (text : List Char) : Except RegexError (Count × List Char) := do
  let (least, most, rest) ← boundsOf flags.verbose text
  match rest with
  | '\x7d' :: after =>
      let (marked, final) := lazyMark (skipBlank flags.verbose after)
      if most.any (· < least) then .error .countReversed
      else pure (⟨least, most, marked = flags.swapGreed⟩, final)
  | _ => .error .countUnfinished

theorem countText_settles : Settles (countText flags) := by
  intro text value rest h
  rw [countText] at h
  obtain ⟨⟨least, most, after⟩, hbounds, hended⟩ := exists_of_bind_ok h
  obtain ⟨hafter, happend⟩ := boundsOf_append hbounds
  simp only at hended
  split at hended
  · rename_i tail
    split at hended
    · cases hended
    · rename_i hordered
      obtain ⟨rfl, rfl⟩ := Prod.mk.inj (Except.ok.inj hended)
      obtain ⟨hsuffix, hmark⟩ := lazyMark_append (skipBlank flags.verbose tail)
      have htail := (List.suffix_cons _ tail).trans hafter
      refine ⟨(hsuffix.trans (skipBlank_suffix ..)).trans htail, fun hfree more => ?_⟩
      have hbounds' := happend hfree more
      rw [List.cons_append] at hbounds'
      simp only [countText, hbounds', ok_bind,
        skipBlank_append (not_mem_of_suffix htail hfree), hmark, if_neg hordered]
      rfl
  · cases hended

theorem countOf_settles : Settles (countOf flags) := by
  refine settles_of_skipBlank flags.verbose ?_ ?_ (countText_settles flags)
  · intro text value hskip
    simp [countOf, hskip]
  · intro text c tail hskip
    simp only [countOf, hskip]
    rfl

theorem uncountedOf_append (operator : Char) (text : List Char) :
    (uncountedOf flags operator text).2 <:+ text ∧ ∀ more,
      uncountedOf flags operator (text ++ ')' :: more) =
        ((uncountedOf flags operator text).1,
          (uncountedOf flags operator text).2 ++ ')' :: more) := by
  obtain ⟨hsuffix, hmark⟩ := lazyMark_append text
  have hrest : ∀ text, (uncountedOf flags operator text).2 = (lazyMark text).2 := by
    intro text
    simp only [uncountedOf]
    split
    · rfl
    · split <;> rfl
  have hcount : ∀ text', (lazyMark text').1 = (lazyMark text).1 →
      (uncountedOf flags operator text').1 = (uncountedOf flags operator text).1 := by
    intro text' hsame
    simp only [uncountedOf, hsame]
    split
    · rfl
    · split <;> rfl
  refine ⟨hrest text ▸ hsuffix, fun more => Prod.ext ?_ ?_⟩
  · exact hcount _ (by rw [hmark])
  · rw [hrest, hmark, hrest]

end Signpost.Regex
