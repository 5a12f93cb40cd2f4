import Signpost.Proofs.Pattern.Longest
import Signpost.Proofs.Pattern.Separated
import Mathlib.Data.List.DropRight

namespace Signpost

namespace Pattern

def trailingSlashes (source : List Char) : List Char := source.rtakeWhile (· = '/')

theorem eq_slash_of_mem {source : List Char} {c : Char} (h : c ∈ trailingSlashes source) :
    c = '/' := by
  rw [trailingSlashes] at h
  simpa using List.mem_rtakeWhile_imp h

variable {source : List Char}

theorem trailingSlashes_two (source : List Char) :
    trailingSlashes (source ++ ['/', '/']) = trailingSlashes source ++ ['/', '/'] := by
  have htwo : source ++ ['/', '/'] = (source ++ ['/']) ++ ['/'] := by simp
  rw [htwo, trailingSlashes, List.rtakeWhile_concat, List.rtakeWhile_concat]
  simp [trailingSlashes]

theorem bodyOf_file (hfile : isFolderText source = false) : bodyOf source = source := by
  simp [bodyOf, hfile]

theorem bodyOf_folder (hfolder : isFolderText source = true) :
    bodyOf source = source.rdropWhile (· = '/') := by
  rw [bodyOf, if_pos hfolder]
  rfl

theorem bodyOf_append_trailingSlashes (hfolder : isFolderText source = true) :
    bodyOf source ++ trailingSlashes source = source := by
  rw [bodyOf_folder hfolder]
  exact List.rdropWhile_append_rtakeWhile

theorem getLast?_bodyOf (hfolder : isFolderText source = true) :
    (bodyOf source).getLast? ≠ some '/' := by
  rw [bodyOf_folder hfolder]
  intro hlast
  obtain ⟨hne, heq⟩ := List.mem_getLast?_eq_getLast hlast
  have hslash := List.rdropWhile_last_not (· = '/') source hne
  rw [← heq] at hslash
  exact hslash (decide_eq_true rfl)

/-- The slashes that stand behind the body of a pattern. -/
def droppedSlashes (source : List Char) : List Char :=
  if isFolderText source then trailingSlashes source else []

theorem droppedSlashes_file (hfile : isFolderText source = false) :
    droppedSlashes source = [] := by
  simp [droppedSlashes, hfile]

theorem droppedSlashes_folder (hfolder : isFolderText source = true) :
    droppedSlashes source = trailingSlashes source :=
  if_pos hfolder

theorem bodyOf_append_droppedSlashes (source : List Char) :
    bodyOf source ++ droppedSlashes source = source := by
  rw [droppedSlashes]
  split
  · rename_i hfolder
    exact bodyOf_append_trailingSlashes hfolder
  · rename_i hfile
    rw [List.append_nil, bodyOf_file (Bool.eq_false_iff.mpr hfile)]

theorem eq_slash_of_dropped {c : Char} (h : c ∈ droppedSlashes source) : c = '/' := by
  rw [droppedSlashes] at h
  split at h
  · exact eq_slash_of_mem h
  · cases h

theorem Spells.to_appendLiteral {admits : List Char → List Char → Prop}
    {segments : List Segment} {values : List (List Char)} {spelt : List Char}
    (tail : List Char) (h : Spells admits segments values spelt) :
    Spells admits (appendLiteral tail segments) values (spelt ++ tail) := by
  fun_induction appendLiteral tail segments generalizing values spelt with
  | case1 hempty =>
      cases h
      obtain rfl := List.isEmpty_iff.mp hempty
      exact .nil
  | case2 =>
      cases h
      simpa using Spells.literal tail .nil
  | case3 text =>
      cases h with
      | literal _ hrest =>
          cases hrest
          simpa using Spells.literal (text ++ tail) .nil
  | case4 segment rest _ ih =>
      cases h with
      | literal text hrest =>
          rw [List.append_assoc]
          exact .literal text (ih hrest)
      | param hvalue hrest =>
          rw [List.append_assoc]
          exact .param hvalue (ih hrest)

theorem Spells.of_body {admits : List Char → List Char → Prop} {values : List (List Char)}
    {spelt : List Char} (h : Spells admits (segmentsOf (bodyOf source)) values spelt) :
    Spells admits (segmentsOf source) values (spelt ++ droppedSlashes source) := by
  have hsegments : segmentsOf source =
      appendLiteral (droppedSlashes source) (segmentsOf (bodyOf source)) := by
    rw [← segmentsOf_append fun _ => eq_slash_of_dropped, bodyOf_append_droppedSlashes]
  rw [hsegments]
  exact h.to_appendLiteral _

/-! The text of a folder pattern with free values does not end in a slash. -/

variable {segments : List Segment} {values : List (List Char)} {spelt : List Char}

theorem Spells.segments_eq_nil (hliteral : ∀ text, .literal text ∈ segments → text ≠ [])
    (h : Spells (fun _ => Free) segments values []) : segments = [] := by
  generalize hspelt : ([] : List Char) = spelt at h
  cases h with
  | nil => rfl
  | literal text _ =>
      exact absurd (List.nil_eq_append_iff.mp hspelt).1 (hliteral text List.mem_cons_self)
  | param hvalue _ => exact absurd (List.nil_eq_append_iff.mp hspelt).1 hvalue.1

theorem Spells.getLast?_render (hliteral : ∀ text, .literal text ∈ segments → text ≠ [])
    (h : Spells (fun _ => Free) segments values spelt)
    (hlast : spelt.getLast? = some '/') :
    (segments.flatMap Segment.render).getLast? = some '/' := by
  induction h with
  | nil => cases hlast
  | @literal rest values spelt text hrest ih =>
      have hothers := fun other hother => hliteral other (List.mem_cons_of_mem _ hother)
      rw [List.getLast?_append] at hlast
      rw [List.flatMap_cons, List.getLast?_append]
      cases hspelt : spelt.getLast? with
      | none =>
          -- Nothing follows the literal text, so that its own end is the end.
          obtain rfl := List.getLast?_eq_none_iff.mp hspelt
          rw [hrest.segments_eq_nil hothers]
          exact hlast
      | some c =>
          rw [hspelt, Option.some_or] at hlast
          rw [ih hothers (hspelt.trans hlast), Option.some_or]
  | @param rest values spelt name value hvalue hrest ih =>
      have hothers := fun other hother => hliteral other (List.mem_cons_of_mem _ hother)
      rw [List.getLast?_append] at hlast
      rw [List.flatMap_cons, List.getLast?_append]
      cases hspelt : spelt.getLast? with
      | none =>
          rw [hspelt, Option.none_or] at hlast
          exact absurd (List.mem_of_getLast? hlast) hvalue.2
      | some c =>
          rw [hspelt, Option.some_or] at hlast
          rw [ih hothers (hspelt.trans hlast), Option.some_or]

theorem Spells.getLast?_ne_slash (hfolder : isFolderText source = true)
    (h : Spells (fun _ => Free) (segmentsOf (bodyOf source)) values spelt) :
    spelt.getLast? ≠ some '/' := by
  intro hlast
  have hrender := h.getLast?_render (fun _ => segmentsOf_literal) hlast
  rw [flatMap_render_segmentsOf] at hrender
  exact getLast?_bodyOf hfolder hrender

variable {path : List Char}

theorem getLast?_concat_slash (path : List Char) : (path ++ ['/']).getLast? = some '/' :=
  List.getLast?_concat

theorem decomposes_slash_iff (hfolder : isFolderText source = true)
    (hpath : path.getLast? ≠ some '/') (values : List (List Char)) :
    Decomposes (fun _ => Free) source (path ++ ['/']) values ↔
      Decomposes (fun _ => Free) source path values := by
  constructor
  · intro h
    obtain ⟨spelt, slash, heq, hspells, rfl | ⟨-, rfl⟩⟩ := h
    · rw [List.append_nil] at heq
      exact absurd (heq ▸ getLast?_concat_slash path) (hspells.getLast?_ne_slash hfolder)
    · exact ⟨spelt, [], by simpa using heq, hspells, .inl rfl⟩
  · intro h
    obtain ⟨spelt, slash, rfl, hspells, rfl | ⟨-, rfl⟩⟩ := h
    · exact ⟨spelt, ['/'], by simp, hspells, .inr ⟨hfolder, rfl⟩⟩
    · exact absurd (getLast?_concat_slash spelt) hpath

theorem not_decomposes_slashes (hfolder : isFolderText source = true) (path : List Char)
    (values : List (List Char)) :
    ¬ Decomposes (fun _ => Free) source (path ++ ['/', '/']) values := by
  intro h
  obtain ⟨spelt, slash, heq, hspells, hslash⟩ := h
  have htwo : path ++ ['/', '/'] = (path ++ ['/']) ++ ['/'] := by simp
  rw [htwo] at heq
  apply hspells.getLast?_ne_slash hfolder
  rcases hslash with rfl | ⟨-, rfl⟩
  · rw [List.append_nil] at heq
    exact heq ▸ getLast?_concat_slash _
  · exact List.append_cancel_right heq ▸ getLast?_concat_slash path

/-! What is captured depends on the decompositions only. -/

variable {source : String} {constraints : Params} {pattern : Pattern} {path : String}

theorem Compiled.captures?_of_longest (hcompiled : Compiled source constraints pattern)
    (hplain : Unconstrained constraints (segmentsOf (bodyOf source.toList)))
    {values : List (List Char)}
    (hvalues : Decomposes (fun _ => Free) source.toList path.toList values)
    (hlongest : ∀ others, Decomposes (fun _ => Free) source.toList path.toList others →
      others.map List.length ≤ values.map List.length) :
    ∃ captured, pattern.captures? path = some captured ∧
      captured.toList = (paramNames source).zip (values.map String.ofList) := by
  obtain ⟨parts, hassembled, hregex, -⟩ := hcompiled.assembled fun _ => hplain.uncommented
  simp only [decomposes_free_iff hplain] at hvalues hlongest
  obtain ⟨found, hfound, hkeeps⟩ := find?_longest hassembled hplain rfl hvalues hlongest
  refine ⟨pattern.valuesOf found, ?_, hcompiled.toList_valuesOf hregex hkeeps⟩
  rw [captures?, hregex, hfound]
  rfl

theorem Compiled.captures?_eq_none (hcompiled : Compiled source constraints pattern)
    (hplain : Unconstrained constraints (segmentsOf (bodyOf source.toList)))
    (h : ∀ values, ¬ Decomposes (fun _ => Free) source.toList path.toList values) :
    pattern.captures? path = none := by
  rw [Option.eq_none_iff_forall_ne_some]
  intro captured hcaptured
  obtain ⟨values, hvalues, -⟩ := hcompiled.captures?_free_sound hplain hcaptured
  exact h values hvalues

theorem Compiled.captures?_congr (hcompiled : Compiled source constraints pattern)
    (hplain : Unconstrained constraints (segmentsOf (bodyOf source.toList)))
    {other : String}
    (h : ∀ values, Decomposes (fun _ => Free) source.toList path.toList values ↔
      Decomposes (fun _ => Free) source.toList other.toList values) :
    pattern.captures? path = pattern.captures? other := by
  by_cases hsome : ∃ values, Decomposes (fun _ => Free) source.toList path.toList values
  · obtain ⟨values, hvalues, hlongest⟩ := Decomposes.exists_longest hsome
    obtain ⟨captured, hcaptured, hlist⟩ :=
      hcompiled.captures?_of_longest hplain hvalues hlongest
    simp only [h] at hvalues hlongest
    obtain ⟨captured', hcaptured', hlist'⟩ :=
      hcompiled.captures?_of_longest hplain hvalues hlongest
    rw [hcaptured, hcaptured', OrderedMap.ext (hlist.trans hlist'.symm)]
  · have hnone := not_exists.mp hsome
    rw [hcompiled.captures?_eq_none hplain hnone,
      hcompiled.captures?_eq_none hplain fun values hvalues =>
        hnone values ((h values).mpr hvalues)]

/-- A slash more at the end of a path makes no difference to a folder pattern without
constraints. -/
theorem Compiled.captures?_slash (hcompiled : Compiled source constraints pattern)
    (hplain : Unconstrained constraints (segmentsOf (bodyOf source.toList)))
    (hfolder : isFolderText source.toList = true) {path slash : List Char}
    (hpath : path.getLast? ≠ some '/') (hslash : slash = [] ∨ slash = ['/']) :
    pattern.captures? (String.ofList (path ++ slash)) =
      pattern.captures? (String.ofList path) := by
  rcases hslash with rfl | rfl
  · rw [List.append_nil]
  · apply hcompiled.captures?_congr hplain
    intro values
    rw [String.toList_ofList, String.toList_ofList]
    exact decomposes_slash_iff hfolder hpath values

theorem Compiled.captures?_slashes (hcompiled : Compiled source constraints pattern)
    (hplain : Unconstrained constraints (segmentsOf (bodyOf source.toList)))
    (hfolder : isFolderText source.toList = true) (path : List Char) :
    pattern.captures? (String.ofList (path ++ ['/', '/'])) = none := by
  apply hcompiled.captures?_eq_none hplain
  rw [String.toList_ofList]
  exact not_decomposes_slashes hfolder path

end Pattern

end Signpost
