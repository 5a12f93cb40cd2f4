import Signpost.Proofs.Pattern.Matching
import Signpost.Proofs.Text.Splitting

namespace Signpost

open Regex Regex.Reading

/-! Literal text is never empty, and slashes at the end add to the text of a pattern. -/

theorem literal_consLiteral {c : Char} {segments : List Segment}
    (h : ∀ text, .literal text ∈ segments → text ≠ []) :
    ∀ text, .literal text ∈ consLiteral c segments → text ≠ [] := by
  intro text htext
  rcases segments with _ | ⟨first | name, rest⟩
  all_goals
    rcases List.mem_cons.mp htext with heq | hrest
    · rw [Segment.literal.inj heq]
      exact List.cons_ne_nil _ _
  · cases hrest
  · exact h text (List.mem_cons_of_mem _ hrest)
  · exact h text hrest

theorem segmentsOf_literal {source text : List Char}
    (h : .literal text ∈ segmentsOf source) :
    text ≠ [] := by
  induction source generalizing text with
  | nil => cases h
  | cons c source ih =>
      rcases segmentsOf_cons_cases c source with
        ⟨-, d, literal, rest, -, hrest, hcons⟩ | hcons
      · rw [hrest] at ih
        rw [hcons, hrest, consParam, afterName] at h
        rcases List.mem_cons.mp h with heq | hmem
        · cases heq
        split at hmem
        · exact ih (List.mem_cons_of_mem _ hmem)
        · rename_i hleft
          rcases List.mem_cons.mp hmem with heq | hafter
          · rw [Segment.literal.inj heq]
            simpa using hleft
          · exact ih (List.mem_cons_of_mem _ hafter)
      · rw [hcons] at h
        exact literal_consLiteral (fun _ => ih) text h

namespace Pattern

variable {admits : List Char → List Char → Prop}

theorem Spells.of_appendLiteral {tail : List Char} {segments : List Segment}
    {values : List (List Char)} {spelt : List Char}
    (h : Spells admits (appendLiteral tail segments) values spelt) :
    ∃ body, spelt = body ++ tail ∧ Spells admits segments values body := by
  fun_induction appendLiteral tail segments generalizing values spelt with
  | case1 hempty =>
      cases h
      exact ⟨[], by simpa using hempty.symm, .nil⟩
  | case2 =>
      cases h with
      | literal _ hrest =>
          cases hrest
          exact ⟨[], by simp, .nil⟩
  | case3 text =>
      cases h with
      | literal _ hrest =>
          cases hrest
          exact ⟨text, by simp, by simpa using Spells.literal text .nil⟩
  | case4 segment rest _ ih =>
      cases h with
      | literal text hrest =>
          obtain ⟨body, rfl, hbody⟩ := ih hrest
          exact ⟨text ++ body, by simp, .literal text hbody⟩
      | @param _ _ _ name value hvalue hrest =>
          obtain ⟨body, rfl, hbody⟩ := ih hrest
          exact ⟨value ++ body, by simp, .param hvalue hbody⟩

theorem Spells.notMem {segments : List Segment} {values : List (List Char)}
    {spelt : List Char} (h : Spells admits segments values spelt) {c : Char}
    (hliteral : ∀ text, .literal text ∈ segments → c ∉ text)
    (hvalue : ∀ name value, .param name ∈ segments → admits name value → c ∉ value) :
    c ∉ spelt := by
  induction h with
  | nil => exact List.not_mem_nil
  | literal text _ ih =>
      rw [List.mem_append, not_or]
      exact ⟨hliteral text List.mem_cons_self,
        ih (fun other hother => hliteral other (List.mem_cons_of_mem _ hother))
          fun name value hname => hvalue name value (List.mem_cons_of_mem _ hname)⟩
  | param hadmits _ ih =>
      rw [List.mem_append, not_or]
      exact ⟨hvalue _ _ List.mem_cons_self hadmits,
        ih (fun other hother => hliteral other (List.mem_cons_of_mem _ hother))
          fun name value hname => hvalue name value (List.mem_cons_of_mem _ hname)⟩

end Pattern

inductive Separated : List Segment → Prop
  | nil : Separated []
  | literal {rest : List Segment} (text : List Char) (hrest : Separated rest) :
      Separated (.literal text :: rest)
  | last (name : List Char) : Separated [.param name]
  | param {rest : List Segment} (name text : List Char)
      (hrest : Separated (.literal ('/' :: text) :: rest)) :
      Separated (.param name :: .literal ('/' :: text) :: rest)

theorem Separated.of_appendLiteral {tail : List Char} {segments : List Segment}
    (hliteral : ∀ text, .literal text ∈ segments → text ≠ [])
    (h : Separated (appendLiteral tail segments)) : Separated segments := by
  induction segments with
  | nil => exact .nil
  | cons first rest ih =>
      have hrest := fun text htext => hliteral text (List.mem_cons_of_mem _ htext)
      cases first with
      | literal text =>
          cases rest with
          | nil => exact .literal text .nil
          | cons second rest =>
              rw [appendLiteral_cons_cons] at h
              cases h with
              | literal _ hafter => exact .literal text (ih hrest hafter)
      | param name =>
          rw [appendLiteral_cons_param] at h
          rcases rest with _ | ⟨text | other, rest⟩
          · exact .last name
          · obtain ⟨d, more, rfl⟩ :=
              List.exists_cons_of_ne_nil (hrest text List.mem_cons_self)
            have hstart : d = '/' ∧
                Separated (appendLiteral tail (.literal (d :: more) :: rest)) := by
              cases rest with
              | nil =>
                  cases h with
                  | param _ _ hafter => exact ⟨rfl, hafter⟩
              | cons second rest =>
                  rw [appendLiteral_cons_cons] at h ⊢
                  cases h with
                  | param _ _ hafter => exact ⟨rfl, hafter⟩
            obtain ⟨rfl, hafter⟩ := hstart
            exact .param name more (ih hrest hafter)
          · rw [appendLiteral_cons_param] at h
            cases h

namespace Pattern

/-- Nothing, or a slash first. -/
def StartsSlash (text : List Char) : Prop := text = [] ∨ ∃ rest, text = '/' :: rest

theorem takeWhile_free {value text : List Char} (hvalue : '/' ∉ value)
    (htext : StartsSlash text) :
    (value ++ text).takeWhile (· ≠ '/') = value := by
  rw [Text.takeWhile_ne_append hvalue]
  rcases htext with rfl | ⟨rest, rfl⟩
  · exact List.append_nil value
  · simp

/-- Behind a placeholder a slash or the end follows in the text as well. -/
theorem Spells.startsSlash {name : List Char} {rest : List Segment}
    {values : List (List Char)} {spelt tail : List Char}
    (hseparated : Separated (.param name :: rest))
    (h : Spells admits rest values spelt) (htail : StartsSlash tail) :
    StartsSlash (spelt ++ tail) := by
  cases hseparated with
  | last =>
      cases h
      exact htail
  | param _ text _ =>
      cases h with
      | @literal _ _ spelt _ hafter => exact .inr ⟨text ++ spelt ++ tail, rfl⟩

theorem Spells.unique {segments : List Segment} (hseparated : Separated segments)
    {values others : List (List Char)} {spelt other tail end' : List Char}
    (h : Spells (fun _ => Free) segments values spelt)
    (hother : Spells (fun _ => Free) segments others other)
    (htail : StartsSlash tail) (hend : StartsSlash end')
    (heq : spelt ++ tail = other ++ end') :
    values = others := by
  induction h generalizing others other with
  | nil =>
      cases hother
      rfl
  | literal text _ ih =>
      cases hother with
      | literal _ hafter =>
          cases hseparated with
          | literal _ hrest =>
              rw [List.append_assoc, List.append_assoc] at heq
              exact ih hrest hafter (List.append_cancel_left heq)
  | @param rest values spelt name value hvalue hspells ih =>
      cases hother with
      | @param _ others other _ value' hvalue' hafter =>
          have hnext := hspells.startsSlash hseparated htail
          have hnext' := hafter.startsSlash hseparated hend
          rw [List.append_assoc, List.append_assoc] at heq
          have hvalues : value = value' := by
            rw [← takeWhile_free hvalue.2 hnext, heq, takeWhile_free hvalue'.2 hnext']
          subst hvalues
          have hrest : Separated rest := by
            cases hseparated with
            | last => exact .nil
            | param _ _ hrest => exact hrest
          rw [ih hrest hafter (List.append_cancel_left heq)]

theorem Decomposes.unique {source path : List Char} {values others : List (List Char)}
    (hseparated : Separated (segmentsOf (bodyOf source)))
    (h : Decomposes (fun _ => Free) source path values)
    (hother : Decomposes (fun _ => Free) source path others) : values = others := by
  obtain ⟨spelt, slash, hpath, hspells, hslash⟩ := h
  obtain ⟨other, end', hpath', hspells', hend⟩ := hother
  have hstarts : ∀ slash : List Char,
      (slash = [] ∨ isFolderText source = true ∧ slash = ['/']) → StartsSlash slash := by
    rintro slash (rfl | ⟨-, rfl⟩)
    · exact .inl rfl
    · exact .inr ⟨[], rfl⟩
  exact hspells.unique hseparated hspells' (hstarts slash hslash) (hstarts end' hend)
    (hpath.symm.trans hpath')

variable {source : String} {constraints : Params} {pattern : Pattern}

theorem Compiled.captures?_separated (hcompiled : Compiled source constraints pattern)
    (hplain : Unconstrained constraints (segmentsOf (bodyOf source.toList)))
    (hseparated : Separated (segmentsOf (bodyOf source.toList))) {path : String}
    {values : List (List Char)}
    (h : Decomposes (fun _ => Free) source.toList path.toList values) :
    ∃ captured, pattern.captures? path = some captured ∧
      captured.toList = (paramNames source).zip (values.map String.ofList) := by
  obtain ⟨captured, hcaptured⟩ :=
    Option.isSome_iff_exists.mp (hcompiled.captures?_free_complete hplain h)
  obtain ⟨others, hothers, hlist⟩ := hcompiled.captures?_free_sound hplain hcaptured
  rw [h.unique hseparated hothers]
  exact ⟨captured, hcaptured, hlist⟩

end Pattern

end Signpost
