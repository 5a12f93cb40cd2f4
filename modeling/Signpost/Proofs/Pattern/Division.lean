import Signpost.Proofs.Pattern.Segments

namespace Signpost

open Segment

/-- No colon in the text marks a placeholder, whatever stands behind the text. -/
def Unmarked (text behind : List Char) : Prop :=
  ∀ before after, text = before ++ ':' :: after → startsName (after ++ behind) = false

/-- What a segment is like in front of those that follow it. -/
inductive Segment.Fits : Segment → List Segment → Prop
  | literal {text : List Char} {later : List Segment} (hnonempty : text ≠ [])
      (hlater : ∀ other, later.head? ≠ some (.literal other))
      (hunmarked : Unmarked text (later.flatMap render)) :
      Segment.Fits (.literal text) later
  | param {name : List Char} {later : List Segment} (hnamed : Named name)
      (hends : startsName (later.flatMap render) = false) :
      Segment.Fits (.param name) later

def AllFit (segments : List Segment) : Prop :=
  ∀ earlier segment later, segments = earlier ++ segment :: later → segment.Fits later

/-- A division gives the pattern back, and every literal text and every name in it is as
long as it can be. -/
structure Divides (segments : List Segment) (pattern : List Char) : Prop where
  renders : segments.flatMap render = pattern
  fits : AllFit segments

variable {c : Char} {text name behind : List Char} {segment : Segment}
  {rest segments : List Segment}

theorem unmarked_nil : Unmarked [] behind := by
  intro before after h
  simp at h

theorem unmarked_cons_iff : Unmarked (c :: text) behind ↔
    (c = ':' → startsName (text ++ behind) = false) ∧ Unmarked text behind := by
  constructor
  · intro h
    refine ⟨fun hc => h [] text (by rw [hc, List.nil_append]), ?_⟩
    intro before after htext
    exact h (c :: before) after (by rw [htext, List.cons_append])
  · rintro ⟨hfirst, hrest⟩ before after h
    rcases List.cons_eq_append_iff.mp h with ⟨-, heq⟩ | ⟨others, -, htext⟩
    · obtain ⟨hc, rfl⟩ := List.cons.inj heq
      exact hfirst hc.symm
    · exact hrest others after htext

theorem Unmarked.of_suffix {first : List Char} (h : Unmarked (first ++ text) behind) :
    Unmarked text behind := by
  intro before after htext
  exact h (first ++ before) after (by rw [htext, List.append_assoc])

theorem Segment.Named.unmarked (h : Named name) (behind : List Char) :
    Unmarked name behind := by
  intro before after hname
  have hcolon := h.chars ':' (by simp [hname])
  rw [not_isNameChar_colon] at hcolon
  cases hcolon

theorem allFit_nil : AllFit [] := by
  intro earlier segment later h
  simp at h

theorem allFit_cons_iff : AllFit (segment :: rest) ↔ segment.Fits rest ∧ AllFit rest := by
  constructor
  · intro h
    refine ⟨h [] segment rest rfl, ?_⟩
    intro earlier other later hrest
    exact h (segment :: earlier) other later (by rw [hrest, List.cons_append])
  · rintro ⟨hfirst, hrest⟩ earlier other later h
    rcases List.cons_eq_append_iff.mp h with ⟨-, heq⟩ | ⟨before, -, heq⟩
    · obtain ⟨rfl, rfl⟩ := List.cons.inj heq
      exact hfirst
    · exact hrest before other later heq

theorem literal_head_cases (segments : List Segment) :
    (∃ text rest, segments = .literal text :: rest) ∨
      ∀ text, segments.head? ≠ some (.literal text) := by
  rcases segments with _ | ⟨text | name, rest⟩
  · exact .inr nofun
  · exact .inl ⟨text, rest, rfl⟩
  · exact .inr nofun

theorem consLiteral_of_head? (h : ∀ other, segments.head? ≠ some (.literal other))
    (c : Char) :
    consLiteral c segments = .literal [c] :: segments := by
  rcases segments with _ | ⟨text | name, rest⟩
  · rfl
  · exact absurd rfl (h text)
  · rfl

theorem foldr_consLiteral_literal (text other : List Char) (rest : List Segment) :
    text.foldr consLiteral (.literal other :: rest) =
      .literal (text ++ other) :: rest := by
  induction text with
  | nil => rfl
  | cons c text ih => rw [List.foldr_cons, ih, consLiteral, List.cons_append]

theorem foldr_consLiteral_of_head? (htext : text ≠ [])
    (h : ∀ other, segments.head? ≠ some (.literal other)) :
    text.foldr consLiteral segments = .literal text :: segments := by
  obtain ⟨front, c, rfl⟩ := (List.eq_nil_or_concat text).resolve_left htext
  rw [List.concat_eq_append, List.foldr_append, List.foldr_cons, List.foldr_nil,
    consLiteral_of_head? h, foldr_consLiteral_literal]

theorem segmentsOf_append_of_unmarked (h : Unmarked text behind) :
    segmentsOf (text ++ behind) = text.foldr consLiteral (segmentsOf behind) := by
  induction text with
  | nil => rfl
  | cons c text ih =>
      obtain ⟨hfirst, hrest⟩ := unmarked_cons_iff.mp h
      have hliteral : ¬ (decide (c = ':') && startsName (text ++ behind)) = true := by
        rw [Bool.and_eq_true_iff, decide_eq_true_iff]
        rintro ⟨hc, hstarts⟩
        rw [hfirst hc] at hstarts
        cases hstarts
      rw [List.cons_append, segmentsOf, if_neg hliteral, ih hrest, List.foldr_cons]

/-! Segments that fit are found in their text.  A name goes into the literal text behind it
first, and is then taken out of it again. -/

theorem Segment.Named.startsName_append (h : Named name) (behind : List Char) :
    startsName (name ++ behind) = true := by
  obtain ⟨c, others, rfl⟩ := List.exists_cons_of_ne_nil h.nonempty
  exact h.chars c List.mem_cons_self

theorem Segment.Named.takeWhile_append (h : Named name) (behind : List Char)
    (hends : startsName behind = false) :
    (name ++ behind).takeWhile isNameChar = name ∧
      (name ++ behind).dropWhile isNameChar = behind := by
  rw [List.takeWhile_append_of_pos h.chars, List.dropWhile_append_of_pos h.chars]
  cases behind with
  | nil => simp
  | cons c behind =>
      have hc : isNameChar c = false := hends
      simp [hc]

theorem consParam_foldr (hnamed : Named name) (hfit : AllFit segments)
    (hends : startsName (segments.flatMap render) = false) :
    consParam (name.foldr consLiteral segments) = .param name :: segments := by
  rcases literal_head_cases segments with ⟨other, rest, rfl⟩ | hlater
  · cases (allFit_cons_iff.mp hfit).1 with
    | literal hnonempty _ _ =>
        -- The literal text starts where the name ends.
        obtain ⟨c, others, rfl⟩ := List.exists_cons_of_ne_nil hnonempty
        obtain ⟨htake, hdrop⟩ := hnamed.takeWhile_append (c :: others) hends
        rw [foldr_consLiteral_literal, consParam, htake, hdrop]
        rfl
  · obtain ⟨htake, hdrop⟩ := hnamed.takeWhile_append [] rfl
    rw [List.append_nil] at htake hdrop
    rw [foldr_consLiteral_of_head? hnamed.nonempty hlater, consParam, htake, hdrop]
    rfl

theorem segmentsOf_render (h : AllFit segments) :
    segmentsOf (segments.flatMap render) = segments := by
  induction segments with
  | nil => rfl
  | cons segment rest ih =>
      obtain ⟨hfirst, hrest⟩ := allFit_cons_iff.mp h
      cases hfirst with
      | literal hnonempty hlater hunmarked =>
          rw [List.flatMap_cons, render, segmentsOf_append_of_unmarked hunmarked, ih hrest,
            foldr_consLiteral_of_head? hnonempty hlater]
      | @param name _ hnamed hends =>
          have hmarks :
              (decide (':' = ':') && startsName (name ++ rest.flatMap render)) = true := by
            rw [hnamed.startsName_append]
            rfl
          rw [List.flatMap_cons, render, List.cons_append, segmentsOf, if_pos hmarks,
            segmentsOf_append_of_unmarked (hnamed.unmarked _), ih hrest,
            consParam_foldr hnamed hrest hends]

/-! The segments of a text fit.  A character in front of it joins the first literal text,
or makes a placeholder of the name there. -/

theorem allFit_consLiteral (h : AllFit segments)
    (hc : c = ':' → startsName (segments.flatMap render) = false) :
    AllFit (consLiteral c segments) := by
  rcases literal_head_cases segments with ⟨other, rest, rfl⟩ | hlater
  · obtain ⟨hfirst, hrest⟩ := allFit_cons_iff.mp h
    cases hfirst with
    | literal _ hlater hunmarked =>
        have hjoined : Unmarked (c :: other) (rest.flatMap render) :=
          unmarked_cons_iff.mpr ⟨hc, hunmarked⟩
        exact allFit_cons_iff.mpr
          ⟨.literal (List.cons_ne_nil c other) hlater hjoined, hrest⟩
  · have halone : Unmarked [c] (segments.flatMap render) :=
      unmarked_cons_iff.mpr ⟨hc, unmarked_nil⟩
    rw [consLiteral_of_head? hlater]
    exact allFit_cons_iff.mpr ⟨.literal (List.cons_ne_nil c []) hlater halone, h⟩

theorem startsName_render (h : ∀ other, segments.head? ≠ some (.literal other)) :
    startsName (segments.flatMap render) = false := by
  rcases segments with _ | ⟨text | name, rest⟩
  · rfl
  · exact absurd rfl (h text)
  · exact not_isNameChar_colon

theorem startsName_dropWhile (h : startsName behind = false) (text : List Char) :
    startsName (text.dropWhile isNameChar ++ behind) = false := by
  induction text with
  | nil => exact h
  | cons c text ih =>
      cases hc : isNameChar c with
      | true =>
          rw [List.dropWhile_cons_of_pos hc]
          exact ih
      | false =>
          rw [List.dropWhile_cons_of_neg (Bool.eq_false_iff.mp hc)]
          exact hc

theorem Segment.named_takeWhile (h : startsName text = true) :
    Named (text.takeWhile isNameChar) where
  nonempty := by
    cases text with
    | nil => cases h
    | cons c text =>
        have hc : isNameChar c = true := h
        rw [List.takeWhile_cons_of_pos hc]
        exact List.cons_ne_nil _ _
  chars := fun _ hc => List.mem_takeWhile_imp hc

theorem allFit_consParam (h : AllFit (.literal text :: rest))
    (hstarts : startsName text = true) :
    AllFit (consParam (.literal text :: rest)) := by
  obtain ⟨hfirst, hrest⟩ := allFit_cons_iff.mp h
  cases hfirst with
  | literal _ hlater hunmarked =>
      have hends : startsName
          ((afterName (text.dropWhile isNameChar) rest).flatMap render) = false := by
        rw [flatMap_render_afterName]
        exact startsName_dropWhile (startsName_render hlater) text
      refine allFit_cons_iff.mpr ⟨.param (named_takeWhile hstarts) hends, ?_⟩
      rw [afterName]
      split
      · exact hrest
      · rename_i hleft
        rw [← List.takeWhile_append_dropWhile (p := isNameChar) (l := text)] at hunmarked
        exact allFit_cons_iff.mpr
          ⟨.literal (by simpa using hleft) hlater hunmarked.of_suffix, hrest⟩

theorem allFit_segmentsOf (text : List Char) : AllFit (segmentsOf text) := by
  induction text with
  | nil => exact allFit_nil
  | cons c text ih =>
      rw [segmentsOf]
      split
      · rename_i hmarks
        obtain ⟨d, literal, rest, hd, hsegments⟩ :=
          segmentsOf_startsName (Bool.and_eq_true_iff.mp hmarks).2
        rw [hsegments] at ih ⊢
        exact allFit_consParam ih hd
      · rename_i hliteral
        apply allFit_consLiteral ih
        intro hc
        rw [flatMap_render_segmentsOf]
        simpa [hc] using hliteral

/-- Every pattern divides in one way, and the names in it are those of its placeholders. -/
theorem divides_in_one_way (pattern : String) :
    (∀ segments, Divides segments pattern.toList ↔ segments = segmentsOf pattern.toList) ∧
    ∀ segments, Divides segments pattern.toList →
      paramNames pattern = segments.filterMap Segment.name? := by
  have hunique : ∀ segments, Divides segments pattern.toList →
      segments = segmentsOf pattern.toList := by
    intro segments h
    rw [← h.renders, segmentsOf_render h.fits]
  refine ⟨fun segments => ⟨hunique segments, ?_⟩, ?_⟩
  · rintro rfl
    exact ⟨flatMap_render_segmentsOf _, allFit_segmentsOf _⟩
  · intro segments h
    rw [hunique segments h, paramNames]

/-- Colons in a row, one at the end, a letter that is no name, and placeholders side by
side. -/
theorem divides_in_one_way_colons :
    Divides [.literal ['a', ':'], .param ['b'], .literal ['/', ':', 'é'],
      .param ['x', '_', '1'], .param ['b'], .literal [':']] "a::b/:é:x_1:b:".toList ∧
    paramNames "a::b/:é:x_1:b:" = ["b", "x_1", "b"] := by
  have hdivides := ((divides_in_one_way "a::b/:é:x_1:b:").1 _).mpr rfl
  exact ⟨hdivides, (divides_in_one_way "a::b/:é:x_1:b:").2 _ hdivides⟩

end Signpost
