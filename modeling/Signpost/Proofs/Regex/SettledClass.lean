import Signpost.Proofs.Regex.Settled
import Signpost.Regex.Class

namespace Signpost.Regex

open Signpost.Text

variable (flags : Flags)

theorem splitAtColon_append {text name after : List Char} {c : Char}
    (h : splitAtColon text = (name, c :: after)) :
    c :: after <:+ text ∧ ∀ more,
      splitAtColon (text ++ more) = (name, c :: after ++ more) := by
  induction text generalizing name with
  | nil => simp [splitAtColon] at h
  | cons d tail ih =>
      by_cases hcolon : d = ':'
      · simp only [splitAtColon, hcolon, if_true] at h
        obtain ⟨rfl, heq⟩ := Prod.mk.inj h
        obtain ⟨rfl, rfl⟩ := List.cons.inj heq
        refine ⟨by simp [hcolon], fun more => by simp [splitAtColon, hcolon]⟩
      · simp only [splitAtColon, hcolon, if_false] at h
        obtain ⟨rfl, hafter⟩ := Prod.mk.inj h
        obtain ⟨hsuffix, hrest⟩ := ih (Prod.ext rfl hafter)
        refine ⟨hsuffix.trans (List.suffix_cons d tail), fun more => ?_⟩
        simp [splitAtColon, hcolon, hrest more]

def classNamed? (negated : Bool) (body : List Char) : Option (CharSet × List Char) :=
  match splitAtColon body with
  | (name, ':' :: ']' :: rest) =>
      (CharSet.named? (String.ofList name)).map fun ranges =>
        (if negated then ranges.negate else ranges, rest)
  | _ => none

theorem classNamed?_append {negated : Bool} {body rest : List Char} {ranges : CharSet}
    (h : classNamed? negated body = some (ranges, rest)) :
    rest <:+ body ∧
      ∀ more, classNamed? negated (body ++ more) = some (ranges, rest ++ more) := by
  unfold classNamed? at h
  split at h
  · rename_i name after hname
    obtain ⟨named, hnamed, heq⟩ := Option.map_eq_some_iff.mp h
    obtain ⟨rfl, rfl⟩ := Prod.mk.inj heq
    obtain ⟨hsuffix, happend⟩ := splitAtColon_append hname
    refine ⟨?_, fun more => by simp [classNamed?, happend more, hnamed]⟩
    exact ((List.suffix_cons _ after).trans (List.suffix_cons _ _)).trans hsuffix
  · cases h

theorem namedClass?_plain {body : List Char} (hbody : body.head? ≠ some '^') :
    namedClass? ('[' :: ':' :: body) = classNamed? false body := by
  rw [namedClass?]
  · rfl
  · rintro rest rfl
    exact hbody rfl

theorem namedClass?_append {text rest : List Char} {ranges : CharSet}
    (h : namedClass? text = some (ranges, rest)) :
    rest <:+ text ∧ ∀ more, namedClass? (text ++ more) = some (ranges, rest ++ more) := by
  have hopening : ∃ body, text = '[' :: ':' :: body := by
    unfold namedClass? at h
    split at h
    · exact ⟨_, rfl⟩
    · cases h
  obtain ⟨body, rfl⟩ := hopening
  by_cases hcaret : body.head? = some '^'
  · obtain ⟨tail, rfl⟩ := List.head?_eq_some_iff.mp hcaret
    obtain ⟨hsuffix, happend⟩ := classNamed?_append h
    refine ⟨?_, fun more => happend more⟩
    exact hsuffix.trans ((List.suffix_cons _ tail).trans
      ((List.suffix_cons _ _).trans (List.suffix_cons _ _)))
  · rw [namedClass?_plain hcaret] at h
    obtain ⟨hsuffix, happend⟩ := classNamed?_append h
    refine ⟨hsuffix.trans ((List.suffix_cons _ body).trans (List.suffix_cons _ _)),
      fun more => ?_⟩
    cases body with
    | nil => cases h
    | cons c tail =>
        have hhead : (c :: tail ++ more).head? ≠ some '^' := hcaret
        rw [List.cons_append, List.cons_append, namedClass?_plain hhead]
        exact happend more

theorem classItem_settles : Settles (classItem flags) := by
  intro text value rest h
  cases text with
  | nil => cases h
  | cons c tail =>
      have hone := List.suffix_cons c tail
      rw [classItem] at h
      split at h
      · rename_i hescape
        obtain ⟨hsuffix, hrest⟩ := escapeOf_settles flags h
        refine ⟨hsuffix.trans hone, fun hfree more => ?_⟩
        rw [List.cons_append, classItem, if_pos hescape]
        exact hrest (not_mem_of_suffix hone hfree) more
      · rename_i hescape
        simp only [Except.ok.injEq, Prod.mk.injEq] at h
        obtain ⟨rfl, rfl⟩ := h
        exact ⟨hone, fun _ more => by simp [classItem, hescape]⟩

theorem peekSpace_append {text : List Char} (hfree : '#' ∉ text) (more : List Char) :
    peekSpace false (text ++ ')' :: more) =
      match peekSpace false text with
      | some c => some c
      | none => some ')' := by
  induction text with
  | nil => rfl
  | cons c tail ih =>
      have hne : c ≠ '#' := fun heq => hfree (heq ▸ List.mem_cons_self)
      simp only [List.cons_append, peekSpace]
      split
      · exact ih fun hmem => hfree (List.mem_cons_of_mem c hmem)
      · simp [hne]

theorem isWhitespace_of_peekSpace {text : List Char} {c : Char} {tail : List Char}
    (htext : text = c :: tail) (hpeek : peekSpace false text = none) (hfree : '#' ∉ text) :
    isWhitespace c = true := by
  subst htext
  have hne : c ≠ '#' := fun heq => hfree (heq ▸ List.mem_cons_self)
  by_contra hspace
  simp [peekSpace, hspace, hne] at hpeek

/-- Before a text that white space makes up, a dash forms a range, as it does before a
parenthesis; that the range has no end is found out later. -/
theorem startsRange_append {text : List Char} (hfree : '#' ∉ text) (verbose : Bool)
    (more : List Char) :
    startsRange verbose (text ++ ')' :: more) = startsRange verbose text := by
  cases text with
  | nil => cases verbose <;> rfl
  | cons c tail =>
      cases verbose with
      | false => rfl
      | true =>
          have hpeek := peekSpace_append hfree more
          simp only [startsRange, peekBlank, if_true]
          cases hnext : peekSpace false (c :: tail) with
          | some next =>
              rw [hnext] at hpeek
              rw [hpeek]
              rfl
          | none =>
              rw [hnext] at hpeek
              rw [hpeek]
              have hspace := isWhitespace_of_peekSpace rfl hnext hfree
              have hbracket : c ≠ ']' := by
                rintro rfl
                exact absurd hspace (by decide)
              have hdash : c ≠ '-' := by
                rintro rfl
                exact absurd hspace (by decide)
              simp [hbracket, hdash]

theorem setOperation?_append {text : List Char} (htext : text ≠ []) (more : List Char) :
    setOperation? (text ++ ')' :: more) = setOperation? text := by
  rcases text with _ | ⟨c, _ | ⟨d, tail⟩⟩
  · exact (htext rfl).elim
  · unfold setOperation?
    split <;> simp_all
  · unfold setOperation?
    split <;> split <;> simp_all

def rangeEnd (first : Regex) (text : List Char) :
    Except RegexError (CharSet × List Char) := do
  let (last, final) ← classItem flags text
  let ranges ← rangeOf first last
  pure (ranges, final)

theorem rangeEnd_settles (first : Regex) : Settles (rangeEnd flags first) := by
  have hranges : ∀ last, Settles fun final =>
      rangeOf first last >>= fun ranges => pure (ranges, final) := by
    intro last
    cases rangeOf first last with
    | ok ranges => exact settles_ok ranges
    | error refusal => exact settles_error refusal
  exact settles_bind (classItem_settles flags) hranges

def rangeRest (first : Regex) (text : List Char) :
    Except RegexError (CharSet × List Char) :=
  match skipBlank flags.verbose text with
  | [] => .error .classUnclosedAfterItem
  | c :: after =>
      if c = '-' && startsRange flags.verbose after then
        match skipBlank flags.verbose after with
        | [] => .error .classUnclosedAfterDash
        | next => rangeEnd flags first next
      else do
        let ranges ← itemRanges first
        pure (ranges, c :: after)

theorem rangeRest_settles (first : Regex) : Settles (rangeRest flags first) := by
  intro text value rest h
  cases hskip : skipBlank flags.verbose text with
  | nil => simp [rangeRest, hskip] at h
  | cons c after =>
      have hall : c :: after <:+ text := hskip ▸ skipBlank_suffix flags.verbose text
      have hone := List.suffix_cons c after
      simp only [rangeRest, hskip] at h
      split at h
      · rename_i hdash
        split at h
        · cases h
        · rename_i hnext
          obtain ⟨hsuffix, hrest⟩ := rangeEnd_settles flags first h
          refine ⟨hsuffix.trans ((skipBlank_suffix ..).trans (hone.trans hall)),
            fun hfree more => ?_⟩
          have hafter := not_mem_of_suffix (hone.trans hall) hfree
          have hlast := hrest (not_mem_of_suffix (skipBlank_suffix ..) hafter) more
          simp only [rangeRest, skipBlank_append hfree, hskip, List.cons_append,
            startsRange_append hafter, hdash, if_true, skipBlank_append hafter]
          split
          · rename_i hnil
            simp at hnil
          · exact hlast
      · rename_i hdash
        obtain ⟨ranges, hranges, hvalue⟩ := exists_of_bind_ok h
        obtain ⟨rfl, rfl⟩ := Prod.mk.inj (Except.ok.inj hvalue)
        refine ⟨hall, fun hfree more => ?_⟩
        have hafter := not_mem_of_suffix (hone.trans hall) hfree
        simp only [rangeRest, skipBlank_append hfree, hskip, List.cons_append,
          startsRange_append hafter, if_neg hdash, hranges]
        rfl

theorem classRange_settles : Settles (classRange flags) :=
  settles_bind (classItem_settles flags) fun first => rangeRest_settles flags first

theorem classItems_settles (negated : Bool) {bound : Nat} {ranges : CharSet}
    {text : List Char} {value : Regex} {rest : List Char}
    (h : classItems flags negated bound ranges text = .ok (value, rest)) :
    rest <:+ text ∧ ('#' ∉ text → ∀ more bound', bound ≤ bound' →
      classItems flags negated bound' ranges (text ++ ')' :: more) =
        .ok (value, rest ++ ')' :: more)) := by
  induction bound generalizing ranges text with
  | zero => cases h
  | succ bound ih =>
      cases hskip : skipBlank flags.verbose text with
      | nil => simp [classItems, hskip] at h
      | cons c tail =>
          have hall : c :: tail <:+ text := hskip ▸ skipBlank_suffix flags.verbose text
          have hone := List.suffix_cons c tail
          have htail : '#' ∉ text → '#' ∉ c :: tail := not_mem_of_suffix hall
          simp only [classItems, hskip] at h
          by_cases hopen : c = '['
          · simp only [hopen, if_true] at h
            cases hnamed : namedClass? ('[' :: tail) with
            | none => simp [hnamed] at h
            | some found =>
                obtain ⟨named, after⟩ := found
                simp only [hnamed] at h
                obtain ⟨hafter, happend⟩ := namedClass?_append hnamed
                obtain ⟨hsuffix, hrest⟩ := ih h
                rw [← hopen] at hafter happend
                refine ⟨(hsuffix.trans hafter).trans hall,
                  fun hfree more bound' hbound => ?_⟩
                obtain ⟨bound', rfl⟩ := Nat.exists_eq_add_of_lt hbound
                have hlast := hrest (not_mem_of_suffix hafter (htail hfree)) more
                  (bound + bound') (Nat.le_add_right ..)
                have hnamed' := happend (')' :: more)
                rw [hopen, List.cons_append] at hnamed'
                simp only [classItems, skipBlank_append hfree, hskip, List.cons_append,
                  hopen, if_true, hnamed']
                exact hlast
          · simp only [hopen, if_false] at h
            by_cases hclose : c = ']'
            · simp only [hclose, if_true, Except.ok.injEq, Prod.mk.injEq] at h
              obtain ⟨rfl, rfl⟩ := h
              refine ⟨hone.trans hall, fun hfree more bound' hbound => ?_⟩
              obtain ⟨bound', rfl⟩ := Nat.exists_eq_add_of_lt hbound
              simp only [classItems, skipBlank_append hfree, hskip, List.cons_append,
                hclose, if_true]
              rfl
            · simp only [hclose, if_false] at h
              cases hoperation : setOperation? (c :: tail) with
              | some refusal => simp [hoperation] at h
              | none =>
                  simp only [hoperation] at h
                  obtain ⟨⟨added, after⟩, hitem, hitems⟩ := exists_of_bind_ok h
                  obtain ⟨hafter, hrange⟩ := classRange_settles flags hitem
                  obtain ⟨hsuffix, hrest⟩ := ih hitems
                  refine ⟨(hsuffix.trans hafter).trans hall,
                    fun hfree more bound' hbound => ?_⟩
                  obtain ⟨bound', rfl⟩ := Nat.exists_eq_add_of_lt hbound
                  have hlast := hrest (not_mem_of_suffix hafter (htail hfree)) more
                    (bound + bound') (Nat.le_add_right ..)
                  have hitem' := hrange (htail hfree) more
                  have hoperation' := setOperation?_append (List.cons_ne_nil c tail) more
                  rw [hoperation] at hoperation'
                  rw [List.cons_append] at hitem' hoperation'
                  simp only [classItems, skipBlank_append hfree, hskip, List.cons_append,
                    hopen, hclose, if_false, hoperation', hitem', ok_bind]
                  exact hlast

theorem leadingDashes_of_ne {text : List Char} (h : text.head? ≠ some '-') (verbose : Bool)
    (bound : Nat) (ranges : CharSet) :
    leadingDashes verbose bound ranges text = .ok (ranges, text) := by
  cases bound with
  | zero => rfl
  | succ bound =>
      cases text with
      | nil => rfl
      | cons c tail =>
          have hne : c ≠ '-' := fun heq => h (congrArg some heq)
          simp [leadingDashes, hne]

theorem leadingDashes_undashed {verbose : Bool} {bound : Nat} {ranges dashes : CharSet}
    {text rest : List Char} (hhead : text.head? ≠ some '-')
    (h : leadingDashes verbose bound ranges text = .ok (dashes, rest)) :
    rest <:+ text ∧ ∀ more bound',
      leadingDashes verbose bound' ranges (text ++ ')' :: more) =
        .ok (dashes, rest ++ ')' :: more) := by
  rw [leadingDashes_of_ne hhead] at h
  obtain ⟨rfl, rfl⟩ := Prod.mk.inj (Except.ok.inj h)
  refine ⟨List.suffix_refl _, fun more bound' => leadingDashes_of_ne ?_ ..⟩
  cases text with
  | nil => simp
  | cons c tail => exact hhead

theorem leadingDashes_append {verbose : Bool} {bound : Nat} {ranges dashes : CharSet}
    {text rest : List Char}
    (h : leadingDashes verbose bound ranges text = .ok (dashes, rest))
    (hbound : text.length ≤ bound) :
    rest <:+ text ∧ ('#' ∉ text → ∀ more bound', text.length < bound' →
      leadingDashes verbose bound' ranges (text ++ ')' :: more) =
        .ok (dashes, rest ++ ')' :: more)) := by
  induction bound generalizing ranges text with
  | zero =>
      obtain rfl := List.length_eq_zero_iff.mp (Nat.le_zero.mp hbound)
      obtain ⟨hsuffix, hrest⟩ := leadingDashes_undashed (by decide) h
      exact ⟨hsuffix, fun _ more bound' _ => hrest more bound'⟩
  | succ bound ih =>
      by_cases hdash : text.head? = some '-'
      · obtain ⟨tail, rfl⟩ := List.head?_eq_some_iff.mp hdash
        cases hskip : skipBlank verbose tail with
        | nil => simp [leadingDashes, hskip] at h
        | cons c after =>
            have hafter : c :: after <:+ tail := hskip ▸ skipBlank_suffix verbose tail
            have hlength := hafter.length_le
            simp only [leadingDashes, hskip] at h
            rw [List.length_cons] at hbound
            obtain ⟨hsuffix, hrest⟩ := ih h (by omega)
            refine ⟨hsuffix.trans (hafter.trans (List.suffix_cons _ tail)),
              fun hfree more bound' hbound' => ?_⟩
            obtain ⟨bound', rfl⟩ := Nat.exists_eq_add_of_lt hbound'
            have htail := not_mem_of_suffix (List.suffix_cons _ tail) hfree
            simp only [leadingDashes, List.cons_append, skipBlank_append htail, hskip]
            apply hrest (not_mem_of_suffix hafter htail) more _
            simp only [List.length_cons] at hlength ⊢
            omega
      · obtain ⟨hsuffix, hrest⟩ := leadingDashes_undashed hdash h
        exact ⟨hsuffix, fun _ more bound' _ => hrest more bound'⟩

theorem leadingBracket_settles (verbose : Bool) (ranges : CharSet) :
    Settles (leadingBracket verbose ranges) := by
  intro text value rest h
  by_cases hbracket : ranges = [] ∧ ∃ tail, text = ']' :: tail
  · obtain ⟨rfl, tail, rfl⟩ := hbracket
    cases hskip : skipBlank verbose tail with
    | nil => simp [leadingBracket, hskip] at h
    | cons c after =>
        simp only [leadingBracket, hskip, Except.ok.injEq, Prod.mk.injEq] at h
        obtain ⟨rfl, rfl⟩ := h
        refine ⟨hskip ▸ skipBlank_suffix_cons, fun hfree more => ?_⟩
        have htail := not_mem_of_suffix (List.suffix_cons _ tail) hfree
        simp [leadingBracket, skipBlank_append htail, hskip]
  · have hplain : ∀ text', (∀ tail, text' = ']' :: tail → ∃ tail, text = ']' :: tail) →
        leadingBracket verbose ranges text' = .ok (ranges, text') := by
      intro text' htext
      unfold leadingBracket
      split
      · rename_i tail
        exact (hbracket ⟨rfl, htext tail rfl⟩).elim
      · rfl
    rw [hplain text fun tail heq => ⟨tail, heq⟩] at h
    simp only [Except.ok.injEq, Prod.mk.injEq] at h
    obtain ⟨rfl, rfl⟩ := h
    refine ⟨List.suffix_refl _, fun _ more => hplain _ fun tail heq => ?_⟩
    cases text with
    | nil => simp at heq
    | cons c after => exact ⟨after, by rw [(List.cons.inj heq).1]⟩

theorem classBody_settles (negated : Bool) : Settles (classBody flags negated) := by
  intro text value rest h
  rw [classBody] at h
  obtain ⟨⟨dashes, afterDashes⟩, hdashes, hlater⟩ := exists_of_bind_ok h
  obtain ⟨⟨ranges, afterBracket⟩, hbracket, hclass⟩ := exists_of_bind_ok hlater
  obtain ⟨hfirst, hdashes'⟩ := leadingDashes_append hdashes (Nat.le_refl _)
  obtain ⟨hsecond, hbracket'⟩ := leadingBracket_settles _ _ hbracket
  obtain ⟨hthird, hitems⟩ := classItems_settles flags negated hclass
  refine ⟨(hthird.trans hsecond).trans hfirst, fun hfree more => ?_⟩
  have hfreeDashes := not_mem_of_suffix hfirst hfree
  have hfreeBracket := not_mem_of_suffix hsecond hfreeDashes
  have hlength : text.length < (text ++ ')' :: more).length := by simp
  simp only [classBody, hdashes' hfree more _ hlength, hbracket' hfreeDashes more, ok_bind]
  exact hitems hfreeBracket more _ (by simp)

def classText : List Char → Except RegexError (Regex × List Char)
  | [] => .error .classUnclosed
  | c :: rest =>
      if c = '^' then
        match skipBlank flags.verbose rest with
        | [] => .error .classUnclosedAfterNegation
        | next => classBody flags true next
      else classBody flags false (c :: rest)

theorem classText_settles : Settles (classText flags) := by
  intro text value rest h
  cases text with
  | nil => cases h
  | cons c tail =>
      rw [classText] at h
      split at h
      · rename_i hcaret
        split at h
        · cases h
        · obtain ⟨hsuffix, hrest⟩ := classBody_settles flags true h
          have hall : skipBlank flags.verbose tail <:+ c :: tail := skipBlank_suffix_cons
          refine ⟨hsuffix.trans hall, fun hfree more => ?_⟩
          have htail := not_mem_of_suffix (List.suffix_cons c tail) hfree
          have hlast := hrest (not_mem_of_suffix hall hfree) more
          rw [List.cons_append, classText, if_pos hcaret, skipBlank_append htail]
          split
          · rename_i hnil
            simp at hnil
          · exact hlast
      · rename_i hcaret
        obtain ⟨hsuffix, hrest⟩ := classBody_settles flags false h
        refine ⟨hsuffix, fun hfree more => ?_⟩
        rw [List.cons_append, classText, if_neg hcaret]
        exact hrest hfree more

theorem classOf_settles : Settles (classOf flags) := by
  refine settles_of_skipBlank flags.verbose ?_ ?_ (classText_settles flags)
  · intro text value hskip
    simp [classOf, hskip]
  · intro text c tail hskip
    by_cases hcaret : c = '^'
    · subst hcaret
      rw [classOf, hskip, classText, if_pos rfl]
      rfl
    · simp [classOf, hskip, classText, hcaret]

end Signpost.Regex
