import Signpost.Proofs.Pattern.Decomposition
import Signpost.Proofs.OrderedMap
import Signpost.Route
import Mathlib.Data.List.Find

namespace Signpost

open Pattern

namespace Route

/-- What fills a placeholder: its parameter, or else its bound value. -/
def filling? (values params : Params) (key : String) : Option String :=
  (params.get? key).or (values.get? key)

def Fills (values params : Params) (name value : List Char) : Prop :=
  filling? values params (String.ofList name) = some (String.ofList value)

variable {values params : Params} {segments : List Segment}

theorem filling?_erase {key other : String} (h : key ≠ other) :
    filling? values (params.erase key) other = filling? values params other := by
  simp [filling?, h]

theorem mem_keys {name : List Char} (h : .param name ∈ segments) :
    String.ofList name ∈ segments.filterMap Segment.name? :=
  List.mem_filterMap.mpr ⟨_, h, rfl⟩

theorem fill_param (name : List Char) (rest : List Segment) (params : Params) :
    fill values (.param name :: rest) params =
      match filling? values params (String.ofList name) with
      | some value => do
          let (filled, remaining) ← fill values rest (params.erase (String.ofList name))
          pure (value.toList ++ filled, remaining)
      | none => .error (String.ofList name) := by
  rw [fill, filling?]
  cases hparam : params.get? (String.ofList name) with
  | some value => rfl
  | none =>
      rw [OrderedMap.erase_eq_self hparam]
      cases values.get? (String.ofList name) <;> rfl

/-- The parameters that no placeholder uses up. -/
def Leaves (params : Params) (keys : List String) (remaining : Params) : Prop :=
  ∀ key, remaining.get? key = if key ∈ keys then none else params.get? key

theorem Leaves.cons_of_erase {key : String} {keys : List String} {remaining : Params}
    (h : Leaves (params.erase key) keys remaining) :
    Leaves params (key :: keys) remaining := by
  intro other
  rw [h other]
  by_cases heq : key = other
  · subst heq
    simp
  · simp [heq, Ne.symm heq]

theorem fill_ok (hnodup : (segments.filterMap Segment.name?).Nodup)
    (hfilling : ∀ key ∈ segments.filterMap Segment.name?,
      (filling? values params key).isSome) :
    ∃ chosen path remaining, fill values segments params = .ok (path, remaining) ∧
      Spells (Fills values params) segments chosen path ∧
      Leaves params (segments.filterMap Segment.name?) remaining := by
  induction segments generalizing params with
  | nil => exact ⟨[], [], params, rfl, .nil, fun key => by simp⟩
  | cons segment rest ih =>
      cases segment with
      | literal text =>
          obtain ⟨chosen, path, remaining, hfill, hspells, hleaves⟩ := ih hnodup hfilling
          refine ⟨chosen, text ++ path, remaining, ?_, .literal text hspells, hleaves⟩
          rw [fill, hfill]
          rfl
      | param name =>
          obtain ⟨hfresh, hrest⟩ := List.nodup_cons.mp hnodup
          have hothers : ∀ key ∈ rest.filterMap Segment.name?, String.ofList name ≠ key :=
            fun key hkey heq => hfresh (heq ▸ hkey)
          obtain ⟨value, hvalue⟩ :=
            Option.isSome_iff_exists.mp (hfilling _ List.mem_cons_self)
          obtain ⟨chosen, path, remaining, hfill, hspells, hleaves⟩ :=
            @ih (params.erase (String.ofList name)) hrest fun key hkey => by
              rw [filling?_erase (hothers key hkey)]
              exact hfilling key (List.mem_cons_of_mem _ hkey)
          have hfills : Fills values params name value.toList := by
            rw [Fills, hvalue, String.ofList_toList]
          refine ⟨value.toList :: chosen, value.toList ++ path, remaining, ?_,
            .param hfills (hspells.mono fun other hother chosen hchosen => ?_),
            hleaves.cons_of_erase⟩
          · rw [fill_param, hvalue]
            simp only [hfill, ok_bind, pure_eq_ok]
          · rwa [Fills, filling?_erase (hothers _ (mem_keys hother))] at hchosen

theorem fill_missing (hnodup : (segments.filterMap Segment.name?).Nodup) {key : String}
    (hmissing : (segments.filterMap Segment.name?).find?
      (fun key => (filling? values params key).isNone) = some key) :
    fill values segments params = .error key := by
  induction segments generalizing params with
  | nil => cases hmissing
  | cons segment rest ih =>
      cases segment with
      | literal text => rw [fill, ih hnodup hmissing, error_bind]
      | param name =>
          obtain ⟨hfresh, hrest⟩ := List.nodup_cons.mp hnodup
          change (String.ofList name :: rest.filterMap Segment.name?).find? _ = _
            at hmissing
          rw [fill_param]
          cases hvalue : filling? values params (String.ofList name) with
          | none =>
              rw [List.find?_cons_of_pos (by simp [hvalue])] at hmissing
              rw [Option.some.inj hmissing]
          | some value =>
              rw [List.find?_cons_of_neg (by simp [hvalue])] at hmissing
              -- Using up this parameter changes nothing for the placeholders that follow.
              have hlater : (rest.filterMap Segment.name?).find? (fun key =>
                  (filling? values (params.erase (String.ofList name)) key).isNone) =
                  some key := by
                rw [← hmissing]
                apply List.find?_congr
                intro other hother
                have hne : String.ofList name ≠ other := fun heq => hfresh (heq ▸ hother)
                rw [filling?_erase hne]
              simp only [ih hrest hlater, error_bind]

theorem toList_of_fill {path : List Char} {remaining : Params}
    (h : fill values segments params = .ok (path, remaining)) :
    remaining.toList =
      params.toList.filter (·.1 ∉ segments.filterMap Segment.name?) := by
  induction segments generalizing params path with
  | nil =>
      obtain ⟨-, rfl⟩ := Prod.mk.inj (Except.ok.inj h)
      simp
  | cons segment rest ih =>
      cases segment with
      | literal text =>
          rw [fill] at h
          obtain ⟨⟨filled, left⟩, hrest, hpair⟩ := exists_of_bind_ok h
          obtain ⟨-, rfl⟩ := Prod.mk.inj (Except.ok.inj hpair)
          exact ih hrest
      | param name =>
          rw [fill_param] at h
          split at h
          · obtain ⟨⟨filled, left⟩, hrest, hpair⟩ := exists_of_bind_ok h
            obtain ⟨-, rfl⟩ := Prod.mk.inj (Except.ok.inj hpair)
            change _ = params.toList.filter
              (·.1 ∉ String.ofList name :: rest.filterMap Segment.name?)
            rw [ih hrest, OrderedMap.toList_erase, List.filter_filter]
            apply List.filter_congr
            intro entry _
            simp [Bool.and_comm]
          · cases h

theorem fill_of_spells (hnodup : (segments.filterMap Segment.name?).Nodup)
    {chosen : List (List Char)} {path : List Char}
    (h : Spells (Fills values params) segments chosen path) :
    ∃ remaining, fill values segments params = .ok (path, remaining) := by
  have hfilling : ∀ key ∈ segments.filterMap Segment.name?,
      (filling? values params key).isSome := by
    intro key hkey
    obtain ⟨segment, hsegment, hname⟩ := List.mem_filterMap.mp hkey
    cases segment with
    | literal text => cases hname
    | param name =>
        obtain rfl := Option.some.inj hname
        obtain ⟨value, hvalue⟩ := h.exists_admitted hsegment
        rw [Fills] at hvalue
        rw [hvalue]
        rfl
  obtain ⟨_, other, remaining, hfill, hother, -⟩ := fill_ok hnodup hfilling
  have hunique : ∀ name value other, Fills values params name value →
      Fills values params name other → value = other := by
    intro name value other hvalue hother
    exact String.ofList_injective (Option.some.inj (hvalue.symm.trans hother))
  rw [h.unique_of_admits hunique hother]
  exact ⟨remaining, hfill⟩

theorem lookup?_chosen {chosen : List (List Char)} {path : List Char}
    (h : Spells (Fills values params) segments chosen path) (key : String) :
    Entries.lookup? key
        ((segments.filterMap Segment.name?).zip (chosen.map String.ofList)) =
      if key ∈ segments.filterMap Segment.name? then filling? values params key
      else none := by
  induction h with
  | nil => rfl
  | literal text _ ih => exact ih
  | @param rest chosen path name value hvalue _ ih =>
      have hkeys : (Segment.param name :: rest).filterMap Segment.name? =
          String.ofList name :: rest.filterMap Segment.name? := rfl
      rw [hkeys, List.map_cons, List.zip_cons_cons, Entries.lookup?, ih]
      by_cases heq : String.ofList name = key
      · subst heq
        rw [if_pos rfl, if_pos List.mem_cons_self]
        exact hvalue.symm
      · simp [heq, Ne.symm heq]

end Route

end Signpost
