import Signpost.Proofs.OrderedMap

namespace Signpost.OrderedMap

variable {α : Type}

/-! A map is determined by its keys in order and the value under each. -/

theorem entries_eq_of_lookup? {first second : List (String × α)}
    (hkeys : Entries.keys first = Entries.keys second)
    (hnodup : (Entries.keys first).Nodup)
    (hlookup : ∀ key, Entries.lookup? key first = Entries.lookup? key second) :
    first = second := by
  induction first generalizing second with
  | nil => exact (List.map_eq_nil_iff.mp hkeys.symm).symm
  | cons entry rest ih =>
      cases second with
      | nil => cases hkeys
      | cons other others =>
          obtain ⟨name, value⟩ := entry
          obtain ⟨name', value'⟩ := other
          simp only [Entries.keys_cons, List.cons.injEq] at hkeys
          obtain ⟨rfl, hrest⟩ := hkeys
          rw [Entries.keys_cons, List.nodup_cons] at hnodup
          have hvalue := hlookup name
          simp only [Entries.lookup?, if_true, Option.some.injEq] at hvalue
          subst hvalue
          congr 1
          apply ih hrest hnodup.2
          intro key
          by_cases hkey : name = key
          · subst hkey
            rw [Entries.lookup?_eq_none_iff.mpr hnodup.1, Entries.lookup?_eq_none_iff.mpr]
            rw [← hrest]
            exact hnodup.1
          · have hother := hlookup key
            simpa only [Entries.lookup?, if_neg hkey] using hother

theorem eq_of_get? {first second : OrderedMap α} (hkeys : first.keys = second.keys)
    (hget : ∀ key, first.get? key = second.get? key) : first = second :=
  ext (entries_eq_of_lookup? hkeys first.nodup hget)

/-! The keys after many insertions: first places count. -/

theorem keys_insertMany (map : OrderedMap α) (pairs : List (String × α)) :
    (map.insertMany pairs).keys =
      map.keys ++ ((pairs.map Prod.fst).filter (· ∉ map.keys)).eraseDups := by
  induction pairs generalizing map with
  | nil => simp
  | cons pair rest ih =>
      -- A key that the first pair adds drops out of what the rest adds.
      rw [insertMany_cons, ih, keys_insert, List.map_cons]
      by_cases hkey : pair.1 ∈ map.keys
      · rw [if_pos hkey, List.filter_cons_of_neg (by simpa using hkey)]
      · rw [if_neg hkey, List.filter_cons_of_pos (by simpa using hkey),
          List.eraseDups_cons, List.filter_filter, List.append_assoc,
          List.singleton_append]
        congr 4
        funext key
        simp [beq_eq_decide, and_comm]

theorem eraseDups_eq_self {keys : List String} (h : keys.Nodup) :
    keys.eraseDups = keys := by
  induction keys with
  | nil => rfl
  | cons key rest ih =>
      rw [List.nodup_cons] at h
      have hrest : rest.filter (fun other => !other == key) = rest := by
        rw [List.filter_eq_self]
        intro other hother
        have hne : other ≠ key := fun heq => h.1 (heq ▸ hother)
        simpa using hne
      rw [List.eraseDups_cons, hrest, ih h.2]

/-- What laying a map over a base gives. -/
structure Overlays (base upper result : OrderedMap α) : Prop where
  keys : result.keys = base.keys ++ upper.keys.filter (· ∉ base.keys)
  values : ∀ key, result.get? key = (upper.get? key).or (base.get? key)

theorem overlays_merge (base upper : OrderedMap α) :
    Overlays base upper (base.merge upper) where
  keys := by
    rw [merge, keys_insertMany]
    congr 1
    exact eraseDups_eq_self (upper.nodup_keys.filter _)
  values := get?_merge base upper

variable {base upper result : OrderedMap α}

theorem Overlays.eq_merge (h : Overlays base upper result) :
    result = base.merge upper := by
  have hmerge := overlays_merge base upper
  apply eq_of_get?
  · rw [h.keys, hmerge.keys]
  · intro key
    rw [h.values, hmerge.values]

theorem Overlays.mem_keys_iff (h : Overlays base upper result) {key : String} :
    key ∈ result.keys ↔ key ∈ base.keys ∨ key ∈ upper.keys := by
  rw [h.keys, List.mem_append, List.mem_filter]
  by_cases hbase : key ∈ base.keys <;> simp [hbase]

theorem Overlays.get?_of_mem (h : Overlays base upper result) {key : String}
    (hkey : key ∈ upper.keys) : result.get? key = upper.get? key := by
  obtain ⟨value, hvalue⟩ := Option.isSome_iff_exists.mp (isSome_get?_iff.mpr hkey)
  rw [h.values, hvalue, Option.some_or]

theorem merge_assoc (first second third : OrderedMap α) :
    (first.merge second).merge third = first.merge (second.merge third) := by
  have hinner := overlays_merge second third
  have hfirst := overlays_merge first second
  have houter := overlays_merge (first.merge second) third
  apply Overlays.eq_merge
  constructor
  · rw [houter.keys, hinner.keys, hfirst.keys, List.filter_append, List.append_assoc,
      List.filter_filter, ← hfirst.keys]
    congr 2
    apply List.filter_congr
    intro key _
    rw [← Bool.decide_and, decide_eq_decide, hfirst.mem_keys_iff, not_or]
  · intro key
    rw [houter.values, hinner.values, hfirst.values, Option.or_assoc]

@[simp] theorem empty_merge (map : OrderedMap α) : empty.merge map = map := by
  symm
  apply Overlays.eq_merge
  constructor
  · simp [keys]
  · simp

/-- Of a map nothing is left under another with the same keys in the same order. -/
theorem merge_eq_of_keys_eq (h : upper.keys = base.keys) : base.merge upper = upper := by
  symm
  apply Overlays.eq_merge
  constructor
  · have hnone : upper.keys.filter (· ∉ base.keys) = [] := by
      rw [List.filter_eq_nil_iff, h]
      intro key hkey
      simpa using hkey
    rw [hnone, List.append_nil, h]
  · intro key
    cases hvalue : upper.get? key with
    | some value => rw [Option.some_or]
    | none =>
        have hbase : base.get? key = none := by
          rw [get?_eq_none_iff] at hvalue ⊢
          rwa [← h]
        rw [hbase, Option.none_or]

@[simp] theorem merge_empty (map : OrderedMap α) : map.merge empty = map := rfl

@[simp] theorem merge_self (map : OrderedMap α) : map.merge map = map :=
  merge_eq_of_keys_eq rfl

@[simp] theorem merge_merge_self (base upper : OrderedMap α) :
    (base.merge upper).merge upper = base.merge upper := by
  simp [merge_assoc]

/-- Inserting pairs is laying over what they are collected into, also where a key comes
twice. -/
theorem insertMany_eq_merge (map : OrderedMap α) (pairs : List (String × α)) :
    map.insertMany pairs = map.merge (ofList pairs) := by
  induction pairs generalizing map with
  | nil => rfl
  | cons pair rest ih =>
      -- The first pair is collected into a map of its own, and the maps are laid together.
      have hfirst : ∀ base :
          OrderedMap α, base.insert pair.1 pair.2 = base.merge (ofList [pair]) :=
        fun _ => rfl
      have hcollect : (ofList [pair]).merge (ofList rest) = ofList (pair :: rest) :=
        (ih (ofList [pair])).symm
      rw [insertMany_cons, ih, hfirst, merge_assoc, hcollect]

/-- Each key stands at its first place and has its last value. -/
structure Collects (pairs : List (String × α)) (map : OrderedMap α) : Prop where
  keys : map.keys = (pairs.map Prod.fst).eraseDups
  values : ∀ key, map.get? key = Entries.lookup? key pairs.reverse

theorem collects_ofList (pairs : List (String × α)) : Collects pairs (ofList pairs) where
  keys := by
    rw [ofList, keys_insertMany]
    simp [OrderedMap.keys]
  values := by simp [ofList, get?_insertMany]

end Signpost.OrderedMap
