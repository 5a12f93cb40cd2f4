import Signpost.Pattern
import Mathlib.Data.List.TakeWhile

namespace Signpost

namespace Segment

theorem not_isNameChar_colon : isNameChar ':' = false := by decide

/-- The text of a placeholder: at least one letter, digit or underscore. -/
structure Named (name : List Char) : Prop where
  nonempty : name ≠ []
  chars : ∀ c ∈ name, isNameChar c = true

end Segment

open Segment

/-! Where a name starts, the segments start with literal text that starts the same way. -/

theorem exists_consLiteral (c : Char) (segments : List Segment) :
    ∃ text rest, consLiteral c segments = .literal (c :: text) :: rest := by
  rcases segments with _ | ⟨text | name, rest⟩
  · exact ⟨[], [], rfl⟩
  · exact ⟨text, rest, rfl⟩
  · exact ⟨[], .param name :: rest, rfl⟩

theorem segmentsOf_cons_of_ne {c : Char} (hc : c ≠ ':') (text : List Char) :
    segmentsOf (c :: text) = consLiteral c (segmentsOf text) := by
  rw [segmentsOf, if_neg (by simp [hc])]

theorem segmentsOf_startsName {text : List Char} (h : startsName text = true) :
    ∃ c literal rest, isNameChar c = true ∧
      segmentsOf text = .literal (c :: literal) :: rest := by
  cases text with
  | nil => cases h
  | cons c text =>
      have hne : c ≠ ':' := by
        rintro rfl
        rw [startsName, not_isNameChar_colon] at h
        cases h
      obtain ⟨literal, rest, hrest⟩ := exists_consLiteral c (segmentsOf text)
      exact ⟨c, literal, rest, h, by rw [segmentsOf_cons_of_ne hne, hrest]⟩

/-- The two ways in which a pattern gets its first segment. -/
theorem segmentsOf_cons_cases (c : Char) (text : List Char) :
    (c = ':' ∧ ∃ d literal rest, isNameChar d = true ∧
        segmentsOf text = .literal (d :: literal) :: rest ∧
        segmentsOf (c :: text) = consParam (segmentsOf text)) ∨
      segmentsOf (c :: text) = consLiteral c (segmentsOf text) := by
  rw [segmentsOf]
  split
  · rename_i h
    obtain ⟨hc, hstarts⟩ := Bool.and_eq_true_iff.mp h
    obtain ⟨d, literal, rest, hd, hrest⟩ := segmentsOf_startsName hstarts
    exact .inl ⟨of_decide_eq_true hc, d, literal, rest, hd, hrest, rfl⟩
  · exact .inr rfl

theorem mem_consLiteral_param {c : Char} {name : List Char} {segments : List Segment} :
    .param name ∈ consLiteral c segments ↔ .param name ∈ segments := by
  rcases segments with _ | ⟨text | other, rest⟩ <;> simp [consLiteral]

theorem segmentsOf_named {name text : List Char} (h : .param name ∈ segmentsOf text) :
    Named name := by
  induction text with
  | nil => cases h
  | cons c text ih =>
      rcases segmentsOf_cons_cases c text with
        ⟨-, d, literal, rest, hd, hrest, hcons⟩ | hcons
      · rw [hcons, hrest, consParam] at h
        rw [hrest] at ih
        rcases List.mem_cons.mp h with hname | hafter
        · obtain rfl := Segment.param.inj hname
          refine ⟨?_, fun c hc => List.mem_takeWhile_imp hc⟩
          simp [hd]
        · apply ih
          rw [afterName] at hafter
          split at hafter
          · exact List.mem_cons_of_mem _ hafter
          · simpa using hafter
      · rw [hcons, mem_consLiteral_param] at h
        exact ih h

theorem flatMap_render_consLiteral (c : Char) (segments : List Segment) :
    (consLiteral c segments).flatMap render = c :: segments.flatMap render := by
  rcases segments with _ | ⟨text | name, rest⟩ <;> rfl

theorem flatMap_render_afterName (text : List Char) (rest : List Segment) :
    (afterName text rest).flatMap render = text ++ rest.flatMap render := by
  cases text <;> rfl

theorem flatMap_render_segmentsOf (text : List Char) :
    (segmentsOf text).flatMap render = text := by
  induction text with
  | nil => rfl
  | cons c text ih =>
      rcases segmentsOf_cons_cases c text with
        ⟨rfl, d, literal, rest, -, hrest, hcons⟩ | hcons
      · rw [hrest, List.flatMap_cons, render] at ih
        rw [hcons, hrest, consParam, List.flatMap_cons, flatMap_render_afterName, render,
          List.cons_append, ← List.append_assoc, List.takeWhile_append_dropWhile, ih]
      · rw [hcons, flatMap_render_consLiteral, ih]

def appendLiteral (tail : List Char) : List Segment → List Segment
  | [] => if tail.isEmpty then [] else [.literal tail]
  | [.literal text] => [.literal (text ++ tail)]
  | segment :: rest => segment :: appendLiteral tail rest

theorem appendLiteral_cons_param (tail name : List Char) (rest : List Segment) :
    appendLiteral tail (.param name :: rest) = .param name :: appendLiteral tail rest := by
  cases rest <;> rfl

@[simp] theorem appendLiteral_cons_cons (tail : List Char) (first second : Segment)
    (rest : List Segment) : appendLiteral tail (first :: second :: rest) =
      first :: appendLiteral tail (second :: rest) := by
  cases first <;> rfl

theorem consLiteral_appendLiteral (c : Char) (tail : List Char) (segments : List Segment) :
    consLiteral c (appendLiteral tail segments) =
      appendLiteral tail (consLiteral c segments) := by
  rcases segments with _ | ⟨text | name, _ | ⟨second, rest⟩⟩
  · cases tail <;> rfl
  · rfl
  · rfl
  · cases tail <;> rfl
  · rw [appendLiteral_cons_param]
    rfl

theorem startsName_append {tail : List Char} (htail : ∀ c ∈ tail, c = '/')
    (text : List Char) :
    startsName (text ++ tail) = startsName text := by
  cases text with
  | nil =>
      cases tail with
      | nil => rfl
      | cons c tail =>
          obtain rfl := htail c List.mem_cons_self
          rfl
  | cons c text => rfl

theorem takeWhile_isNameChar_append {tail : List Char} (htail : ∀ c ∈ tail, c = '/')
    (text : List Char) :
    (text ++ tail).takeWhile isNameChar = text.takeWhile isNameChar ∧
      (text ++ tail).dropWhile isNameChar = text.dropWhile isNameChar ++ tail := by
  induction text with
  | nil =>
      cases tail with
      | nil => exact ⟨rfl, rfl⟩
      | cons c tail =>
          obtain rfl := htail c List.mem_cons_self
          exact ⟨rfl, rfl⟩
  | cons c text ih =>
      cases hc : isNameChar c with
      | true => simpa [hc] using ih
      | false => simp [hc]

theorem consParam_appendLiteral {tail : List Char} (htail : ∀ c ∈ tail, c = '/')
    (literal : List Char) (rest : List Segment) :
    consParam (appendLiteral tail (.literal literal :: rest)) =
      appendLiteral tail (consParam (.literal literal :: rest)) := by
  obtain ⟨htake, hdrop⟩ := takeWhile_isNameChar_append htail literal
  cases rest with
  | nil =>
      simp only [appendLiteral, consParam, htake, hdrop, afterName]
      cases literal.dropWhile isNameChar with
      | nil => cases tail <;> rfl
      | cons c left => rfl
  | cons second rest =>
      rw [appendLiteral_cons_cons, consParam, consParam, appendLiteral_cons_param,
        afterName, afterName]
      split
      · rfl
      · rw [appendLiteral_cons_cons]

theorem segmentsOf_append {tail : List Char} (htail : ∀ c ∈ tail, c = '/')
    (text : List Char) :
    segmentsOf (text ++ tail) = appendLiteral tail (segmentsOf text) := by
  induction text with
  | nil =>
      have hslashes : segmentsOf tail = if tail.isEmpty then [] else [.literal tail] := by
        induction tail with
        | nil => rfl
        | cons c tail ih =>
            obtain rfl := htail c List.mem_cons_self
            rw [segmentsOf_cons_of_ne (by decide),
              ih fun c hc => htail c (List.mem_cons_of_mem _ hc)]
            cases tail <;> rfl
      exact hslashes
  | cons c text ih =>
      rw [List.cons_append, segmentsOf, segmentsOf, startsName_append htail, ih]
      split
      · rename_i h
        obtain ⟨d, literal, rest, -, hrest⟩ :=
          segmentsOf_startsName (Bool.and_eq_true_iff.mp h).2
        rw [hrest, consParam_appendLiteral htail]
      · exact consLiteral_appendLiteral c tail (segmentsOf text)

theorem names_appendLiteral (tail : List Char) (segments : List Segment) :
    (appendLiteral tail segments).filterMap Segment.name? =
      segments.filterMap Segment.name? := by
  fun_induction appendLiteral tail segments with
  | case1 => rfl
  | case2 => rfl
  | case3 => rfl
  | case4 segment rest _ ih => rw [List.filterMap_cons, List.filterMap_cons, ih]

namespace Pattern

theorem exists_slashes (source : List Char) :
    ∃ slashes, source = bodyOf source ++ slashes ∧ (∀ c ∈ slashes, c = '/') ∧
      (isFolderText source = false → slashes = []) := by
  cases hfolder : isFolderText source with
  | false => exact ⟨[], by simp [bodyOf, hfolder], by simp, fun _ => rfl⟩
  | true =>
      refine ⟨(source.reverse.takeWhile (· = '/')).reverse, ?_, ?_, ?_⟩
      · rw [bodyOf, if_pos hfolder, ← List.reverse_append, List.takeWhile_append_dropWhile,
          List.reverse_reverse]
      · intro c hc
        simpa using List.mem_takeWhile_imp (List.mem_reverse.mp hc)
      · rintro ⟨⟩

theorem names_bodyOf (source : List Char) :
    (segmentsOf (bodyOf source)).filterMap Segment.name? =
      (segmentsOf source).filterMap Segment.name? := by
  obtain ⟨slashes, hsource, hslashes, -⟩ := exists_slashes source
  have hnames := names_appendLiteral slashes (segmentsOf (bodyOf source))
  rw [← segmentsOf_append hslashes, ← hsource] at hnames
  exact hnames.symm

theorem checkNames_ok {seen names : List String} (h : checkNames seen names = .ok ()) :
    names.Nodup ∧ ∀ name ∈ names, startsWithDigit name = false ∧ name ∉ seen := by
  induction names generalizing seen with
  | nil => exact ⟨List.nodup_nil, by simp⟩
  | cons name rest ih =>
      rw [checkNames] at h
      split at h
      · cases h
      · split at h
        · cases h
        · rename_i hdigit hseen
          obtain ⟨hnodup, hrest⟩ := ih h
          refine ⟨List.nodup_cons.mpr ⟨fun hmem => ?_, hnodup⟩, ?_⟩
          · exact (hrest name hmem).2 List.mem_cons_self
          · intro other hother
            rcases List.mem_cons.mp hother with rfl | hmem
            · exact ⟨Bool.eq_false_iff.mpr hdigit, hseen⟩
            · obtain ⟨hfirst, hnew⟩ := hrest other hmem
              exact ⟨hfirst, fun hold => hnew (List.mem_cons_of_mem _ hold)⟩

end Pattern

end Signpost
