import Signpost.Proofs.Except
import Signpost.Regex.Escape
import Mathlib.Data.List.Basic

namespace Signpost.Regex

open Signpost.Text

variable {α : Type}

/-- What the reader takes from a text without comments does not change when a closing
parenthesis and more text follow. -/
def Settles (read : List Char → Except RegexError (α × List Char)) : Prop :=
  ∀ ⦃text : List Char⦄ ⦃value : α⦄ ⦃rest : List Char⦄, read text = .ok (value, rest) →
    rest <:+ text ∧ ('#' ∉ text →
      ∀ more, read (text ++ ')' :: more) = .ok (value, rest ++ ')' :: more))

theorem not_mem_of_suffix {rest text : List Char} (hsuffix : rest <:+ text)
    (hfree : '#' ∉ text) : '#' ∉ rest :=
  fun hmem => hfree (hsuffix.subset hmem)

mutual

theorem skipSpace_suffix : (text : List Char) → skipSpace text <:+ text
  | [] => List.suffix_refl _
  | c :: rest => by
      rw [skipSpace]
      split
      · exact (skipSpace_suffix rest).trans (List.suffix_cons c rest)
      · split
        · exact (skipComment_suffix rest).trans (List.suffix_cons c rest)
        · exact List.suffix_refl _

theorem skipComment_suffix : (text : List Char) → skipComment text <:+ text
  | [] => List.suffix_refl _
  | c :: rest => by
      rw [skipComment]
      split
      · exact (skipSpace_suffix rest).trans (List.suffix_cons c rest)
      · exact (skipComment_suffix rest).trans (List.suffix_cons c rest)

end

theorem skipBlank_suffix (verbose : Bool) (text : List Char) :
    skipBlank verbose text <:+ text := by
  cases verbose with
  | true => exact skipSpace_suffix text
  | false => exact List.suffix_refl _

theorem skipBlank_suffix_cons {verbose : Bool} {c : Char} {text : List Char} :
    skipBlank verbose text <:+ c :: text :=
  (skipBlank_suffix verbose text).trans (List.suffix_cons c text)

theorem skipSpace_append {text : List Char} (hfree : '#' ∉ text) (more : List Char) :
    skipSpace (text ++ ')' :: more) = skipSpace text ++ ')' :: more := by
  induction text with
  | nil =>
      have hspace : isWhitespace ')' = false := by decide
      simp [skipSpace, hspace]
  | cons c rest ih =>
      have hne : c ≠ '#' := fun heq => hfree (heq ▸ List.mem_cons_self)
      simp only [List.cons_append, skipSpace, hne, if_false]
      split
      · exact ih fun hmem => hfree (List.mem_cons_of_mem c hmem)
      · rfl

theorem skipBlank_append {text : List Char} (hfree : '#' ∉ text) (verbose : Bool)
    (more : List Char) :
    skipBlank verbose (text ++ ')' :: more) = skipBlank verbose text ++ ')' :: more := by
  cases verbose with
  | true => exact skipSpace_append hfree more
  | false => rfl

theorem dropWhile_space_append (text more : List Char) :
    (text ++ ')' :: more).dropWhile isWhitespace =
      text.dropWhile isWhitespace ++ ')' :: more := by
  have hspace : isWhitespace ')' = false := by decide
  induction text with
  | nil => simp [List.dropWhile, hspace]
  | cons c rest ih =>
      rw [List.cons_append, List.dropWhile_cons, List.dropWhile_cons]
      split
      · exact ih
      · rfl

variable (flags : Flags)

theorem hexDigits_settles (digits code : Nat) : Settles (hexDigits flags digits code) := by
  intro text value rest h
  fun_induction hexDigits flags digits code text with
  | case1 => cases h
  | case2 => cases h
  | case3 => cases h
  | case4 code c tail digit hdigit decoded hscalar =>
      simp only [Except.ok.injEq, Prod.mk.injEq] at h
      obtain ⟨rfl, rfl⟩ := h
      refine ⟨skipBlank_suffix_cons, fun hfree more => ?_⟩
      have htail := not_mem_of_suffix (List.suffix_cons c tail) hfree
      rw [List.cons_append, hexDigits.eq_3 _ _ _ _ _ hdigit, hscalar,
        skipBlank_append htail]
  | case5 code c tail digit digits hdigit ih =>
      obtain ⟨hsuffix, hrest⟩ := ih h
      refine ⟨hsuffix.trans skipBlank_suffix_cons, fun hfree more => ?_⟩
      have htail := not_mem_of_suffix (List.suffix_cons c tail) hfree
      have hskip := not_mem_of_suffix (skipBlank_suffix flags.verbose tail) htail
      rw [List.cons_append, hexDigits.eq_4 _ _ _ _ _ _ hdigit, skipBlank_append htail]
      exact hrest hskip more

theorem hexBraces_settles (empty : Bool) (code : Nat) :
    Settles (hexBraces flags empty code) := by
  intro text value rest h
  fun_induction hexBraces flags empty code text with
  | case1 => cases h
  | case2 => cases h
  | case3 => cases h
  | case4 empty code tail hempty decoded hscalar =>
      simp only [Except.ok.injEq, Prod.mk.injEq] at h
      obtain ⟨rfl, rfl⟩ := h
      refine ⟨skipBlank_suffix_cons, fun hfree more => ?_⟩
      have htail := not_mem_of_suffix (List.suffix_cons _ tail) hfree
      rw [List.cons_append, hexBraces]
      simp [hempty, hscalar, skipBlank_append htail]
  | case5 => cases h
  | case6 empty code c tail hclose digit hdigit ih =>
      obtain ⟨hsuffix, hrest⟩ := ih h
      refine ⟨hsuffix.trans skipBlank_suffix_cons, fun hfree more => ?_⟩
      have htail := not_mem_of_suffix (List.suffix_cons c tail) hfree
      have hskip := not_mem_of_suffix (skipBlank_suffix flags.verbose tail) htail
      rw [List.cons_append, hexBraces, if_neg hclose, hdigit]
      simpa [skipBlank_append htail] using hrest hskip more

theorem boundaryName_append {verbose : Bool} {text name after : List Char}
    (h : boundaryName verbose text = (name, after)) :
    after <:+ text ∧ ('#' ∉ text →
      ∀ more, boundaryName verbose (text ++ ')' :: more) =
        (name, after ++ ')' :: more)) := by
  fun_induction boundaryName verbose text generalizing name after with
  | case1 =>
      obtain ⟨rfl, rfl⟩ := Prod.mk.inj h
      have hparen : isBoundaryChar ')' = false := by decide
      exact ⟨List.suffix_refl _, fun _ more => by simp [boundaryName, hparen]⟩
  | case2 c tail hletter letters left hname ih =>
      obtain ⟨rfl, rfl⟩ := Prod.mk.inj h
      obtain ⟨hsuffix, hrest⟩ := ih hname
      refine ⟨hsuffix.trans skipBlank_suffix_cons, fun hfree more => ?_⟩
      have htail := not_mem_of_suffix (List.suffix_cons c tail) hfree
      have hskip := not_mem_of_suffix (skipBlank_suffix verbose tail) htail
      rw [List.cons_append, boundaryName, if_pos hletter, skipBlank_append htail,
        hrest hskip more]
  | case3 c tail hletter =>
      obtain ⟨rfl, rfl⟩ := Prod.mk.inj h
      refine ⟨List.suffix_refl _, fun _ more => ?_⟩
      rw [List.cons_append, boundaryName, if_neg hletter]

/-! Readers in a row. -/

theorem settles_ok (value : α) : Settles fun text => .ok (value, text) := by
  intro text value' rest h
  simp only [Except.ok.injEq, Prod.mk.injEq] at h
  obtain ⟨rfl, rfl⟩ := h
  exact ⟨List.suffix_refl _, fun _ _ => rfl⟩

theorem settles_error (refusal : RegexError) :
    Settles fun _ => (.error refusal : Except RegexError (α × List Char)) := by
  intro text value rest h
  cases h

theorem settles_bind {β : Type} {first : List Char → Except RegexError (α × List Char)}
    {second : α → List Char → Except RegexError (β × List Char)} (hfirst : Settles first)
    (hsecond : ∀ value, Settles (second value)) :
    Settles fun text => first text >>= fun taken => second taken.1 taken.2 := by
  intro text value rest h
  obtain ⟨⟨before, left⟩, htaken, hrest⟩ := exists_of_bind_ok h
  obtain ⟨hleft, hfirst⟩ := hfirst htaken
  obtain ⟨hrest, hsecond⟩ := hsecond before hrest
  refine ⟨hrest.trans hleft, fun hfree more => ?_⟩
  simp only [hfirst hfree more, ok_bind]
  exact hsecond (not_mem_of_suffix hleft hfree) more

/-- A reader that first skips what verbose mode ignores, and then has a character to
read. -/
theorem settles_of_skipBlank {read next : List Char → Except RegexError (α × List Char)}
    (verbose : Bool)
    (hempty : ∀ {text} value, skipBlank verbose text = [] → read text ≠ .ok value)
    (hread : ∀ {text c tail}, skipBlank verbose text = c :: tail →
      read text = next (c :: tail))
    (hnext : Settles next) : Settles read := by
  intro text value rest h
  cases hskip : skipBlank verbose text with
  | nil => exact (hempty _ hskip h).elim
  | cons c tail =>
      rw [hread hskip] at h
      obtain ⟨hsuffix, hrest⟩ := hnext h
      have hall : c :: tail <:+ text := hskip ▸ skipBlank_suffix verbose text
      refine ⟨hsuffix.trans hall, fun hfree more => ?_⟩
      have happend := skipBlank_append hfree verbose more
      rw [hskip, List.cons_append] at happend
      rw [hread happend]
      exact hrest (not_mem_of_suffix hall hfree) more

def hexNumber (digits : Nat) : List Char → Except RegexError (Regex × List Char)
  | [] => .error .hexAtEnd
  | c :: rest =>
      if c = '\x7b' then hexBraces flags true 0 (skipBlank flags.verbose rest)
      else hexDigits flags (digits - 1) 0 (c :: rest)

theorem hexNumber_settles (digits : Nat) : Settles (hexNumber flags digits) := by
  intro text value rest h
  cases text with
  | nil => cases h
  | cons c tail =>
      rw [hexNumber] at h
      split at h
      · rename_i hbrace
        obtain ⟨hsuffix, hrest⟩ := hexBraces_settles flags true 0 h
        refine ⟨hsuffix.trans skipBlank_suffix_cons, fun hfree more => ?_⟩
        have htail := not_mem_of_suffix (List.suffix_cons c tail) hfree
        have hskip := not_mem_of_suffix (skipBlank_suffix flags.verbose tail) htail
        rw [List.cons_append, hexNumber, if_pos hbrace, skipBlank_append htail]
        exact hrest hskip more
      · rename_i hbrace
        obtain ⟨hsuffix, hrest⟩ := hexDigits_settles flags _ _ h
        refine ⟨hsuffix, fun hfree more => ?_⟩
        rw [List.cons_append, hexNumber, if_neg hbrace]
        exact hrest hfree more

theorem hexEscape_settles (digits : Nat) : Settles (hexEscape flags digits) := by
  refine settles_of_skipBlank flags.verbose ?_ ?_ (hexNumber_settles flags digits)
  · intro text value hskip
    simp [hexEscape, hskip]
  · intro text c tail hskip
    simp [hexEscape, hskip, hexNumber]

theorem wordBoundary_settles (verbose : Bool) : Settles (wordBoundary verbose) := by
  intro text value rest h
  unfold wordBoundary at h
  split at h
  · rename_i tail
    split at h
    · cases h
    · rename_i c after hskip
      have hafter : c :: after <:+ '\x7b' :: tail := hskip ▸ skipBlank_suffix_cons
      split at h
      · rename_i hletter
        split at h
        · rename_i name final hname
          split at h
          · rename_i boundary hspecial
            simp only [Except.ok.injEq, Prod.mk.injEq] at h
            obtain ⟨rfl, rfl⟩ := h
            obtain ⟨hsuffix, happend⟩ := boundaryName_append hname
            refine ⟨((List.suffix_cons _ final).trans hsuffix).trans hafter,
              fun hfree more => ?_⟩
            have htail := not_mem_of_suffix (List.suffix_cons _ tail) hfree
            have hname' := happend (not_mem_of_suffix hafter hfree) more
            rw [List.cons_append] at hname'
            simp [wordBoundary, skipBlank_append htail, hskip, hletter, hname', hspecial]
          · cases h
        · cases h
      · rename_i hletter
        simp only [Except.ok.injEq, Prod.mk.injEq] at h
        obtain ⟨rfl, rfl⟩ := h
        refine ⟨List.suffix_refl _, fun hfree more => ?_⟩
        have htail := not_mem_of_suffix (List.suffix_cons _ tail) hfree
        simp [wordBoundary, skipBlank_append htail, hskip, hletter]
  · rename_i hbrace
    simp only [Except.ok.injEq, Prod.mk.injEq] at h
    obtain ⟨rfl, rfl⟩ := h
    refine ⟨List.suffix_refl _, fun _ more => ?_⟩
    cases text with
    | nil => rfl
    | cons c tail =>
        have hne : c ≠ '\x7b' := fun heq => hbrace tail (heq ▸ rfl)
        rw [List.cons_append]
        unfold wordBoundary
        split
        · rename_i heq
          exact (hne (List.cons.inj heq).1).elim
        · rfl

theorem escapeOf_settles : Settles (escapeOf flags) := by
  intro text value rest h
  cases text with
  | nil => cases h
  | cons c tail =>
      have hone := List.suffix_cons c tail
      rw [escapeOf] at h
      split at h
      · cases h
      · rename_i hdigit
        split at h
        · cases h
        · rename_i hclass
          split at h
          · rename_i hescapable
            simp only [Except.ok.injEq, Prod.mk.injEq] at h
            obtain ⟨rfl, rfl⟩ := h
            exact ⟨hone, fun _ more => by simp [escapeOf, hdigit, hclass, hescapable]⟩
          · rename_i hescapable
            split at h
            · rename_i hb
              obtain ⟨hsuffix, hrest⟩ := wordBoundary_settles flags.verbose h
              refine ⟨hsuffix.trans hone, fun hfree more => ?_⟩
              rw [List.cons_append, escapeOf, if_neg hdigit, if_neg hclass,
                if_neg hescapable, if_pos hb]
              exact hrest (not_mem_of_suffix hone hfree) more
            · rename_i hb
              cases hlength : hexLength? c with
              | some digits =>
                  simp only [hlength] at h
                  obtain ⟨hsuffix, hrest⟩ := hexEscape_settles flags digits h
                  refine ⟨hsuffix.trans hone, fun hfree more => ?_⟩
                  rw [List.cons_append, escapeOf, if_neg hdigit, if_neg hclass,
                    if_neg hescapable, if_neg hb, hlength]
                  exact hrest (not_mem_of_suffix hone hfree) more
              | none =>
                  have hletter : rest = tail ∧ ∀ more,
                      escapeOf flags (c :: (tail ++ ')' :: more)) =
                        .ok (value, tail ++ ')' :: more) := by
                    cases hset : letterClass? c <;> cases hchar : letterChar? c <;>
                      cases hlook : letterLook? c <;>
                      simp_all [escapeOf]
                  obtain ⟨rfl, hletter⟩ := hletter
                  exact ⟨hone, fun _ more => hletter more⟩

end Signpost.Regex
