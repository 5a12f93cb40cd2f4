import Signpost.OrderedMap
import Mathlib.Data.List.Basic

namespace Signpost

variable {α : Type}

namespace Entries

theorem lookup?_eq_none_iff {key : String} {entries : List (String × α)} :
    lookup? key entries = none ↔ key ∉ keys entries := by
  induction entries with
  | nil => simp [lookup?]
  | cons entry rest ih =>
      obtain ⟨name, value⟩ := entry
      rw [lookup?, keys_cons, List.mem_cons, not_or]
      split
      · rename_i heq
        simp [heq]
      · rename_i hne
        rw [ih]
        exact ⟨fun h => ⟨fun heq => hne heq.symm, h⟩, fun h => h.2⟩

@[simp] theorem lookup?_append (key : String) (first second : List (String × α)) :
    lookup? key (first ++ second) = (lookup? key first).or (lookup? key second) := by
  induction first with
  | nil => rfl
  | cons entry rest ih =>
      obtain ⟨name, value⟩ := entry
      rw [List.cons_append, lookup?, lookup?, ih]
      split <;> rfl

theorem put_of_notMem {key : String} {entries : List (String × α)}
    (hkey : key ∉ keys entries) (value : α) :
    (put key value entries).2 = entries ++ [(key, value)] := by
  induction entries with
  | nil => rfl
  | cons entry rest ih =>
      obtain ⟨name, old⟩ := entry
      rw [keys_cons, List.mem_cons, not_or] at hkey
      rw [put, if_neg fun heq => hkey.1 heq.symm, List.cons_append, ← ih hkey.2]

theorem mem_put {key : String} {value : α} {entries : List (String × α)}
    {entry : String × α} (h : entry ∈ (put key value entries).2) :
    entry = (key, value) ∨ entry ∈ entries := by
  induction entries with
  | nil => exact .inl (List.mem_singleton.mp h)
  | cons first rest ih =>
      obtain ⟨name, old⟩ := first
      rw [put] at h
      split at h
      · rename_i heq
        subst heq
        exact (List.mem_cons.mp h).imp_right (List.mem_cons_of_mem _)
      · rcases List.mem_cons.mp h with rfl | hrest
        · exact .inr List.mem_cons_self
        · exact (ih hrest).imp_right (List.mem_cons_of_mem _)

theorem lookup?_eq_some_of_mem {entries : List (String × α)}
    (hnodup : (keys entries).Nodup) {key : String} {value : α}
    (h : (key, value) ∈ entries) :
    lookup? key entries = some value := by
  induction entries with
  | nil => cases h
  | cons first rest ih =>
      obtain ⟨name, old⟩ := first
      obtain ⟨hname, hrest⟩ := List.nodup_cons.mp hnodup
      rw [lookup?]
      rcases List.mem_cons.mp h with heq | hmem
      · obtain ⟨rfl, rfl⟩ := Prod.mk.inj heq
        rw [if_pos rfl]
      · have hkey : key ∈ keys rest := List.mem_map.mpr ⟨_, hmem, rfl⟩
        have hne : name ≠ key := fun heq => hname (heq ▸ hkey)
        rw [if_neg hne, ih hrest hmem]

theorem mem_of_lookup? {key : String} {value : α} {entries : List (String × α)}
    (h : lookup? key entries = some value) : (key, value) ∈ entries := by
  induction entries with
  | nil => cases h
  | cons first rest ih =>
      obtain ⟨name, old⟩ := first
      rw [lookup?] at h
      split at h
      · rename_i heq
        cases heq
        cases h
        exact List.mem_cons_self
      · exact List.mem_cons_of_mem _ (ih h)

theorem lookup?_put (key other : String) (value : α) (entries : List (String × α)) :
    lookup? other (put key value entries).2 =
      if key = other then some value else lookup? other entries := by
  induction entries with
  | nil =>
      rw [put, lookup?]
      rfl
  | cons entry rest ih =>
      obtain ⟨name, old⟩ := entry
      rw [put]
      split
      · rename_i heq
        subst heq
        rw [lookup?, lookup?]
        split <;> rfl
      · rename_i hne
        rw [lookup?, ih, lookup?]
        split
        · rename_i heq
          rw [if_neg fun hkey => hne (heq.trans hkey.symm)]
        · rfl

theorem lookup?_take {key : String} {entries : List (String × α)}
    (hnodup : (keys entries).Nodup) (other : String) :
    lookup? other (take key entries).2 =
      if key = other then none else lookup? other entries := by
  induction entries with
  | nil => simp [take, lookup?]
  | cons entry rest ih =>
      obtain ⟨name, old⟩ := entry
      obtain ⟨hname, hrest⟩ := List.nodup_cons.mp hnodup
      rw [take]
      split
      · rename_i heq
        subst heq
        rw [lookup?]
        split
        · rename_i hother
          subst hother
          exact lookup?_eq_none_iff.mpr hname
        · rfl
      · rename_i hne
        rw [lookup?, ih hrest, lookup?]
        split
        · rename_i heq
          rw [if_neg fun hkey => hne (heq.trans hkey.symm)]
        · rfl

theorem take_eq_filter {entries : List (String × α)} (hnodup : (keys entries).Nodup)
    (key : String) : (take key entries).2 = entries.filter (·.1 ≠ key) := by
  induction entries with
  | nil => rfl
  | cons entry rest ih =>
      obtain ⟨name, value⟩ := entry
      obtain ⟨hname, hrest⟩ := List.nodup_cons.mp hnodup
      rw [take]
      split
      · rename_i heq
        subst heq
        have hothers : ∀ other ∈ rest, decide (other.1 ≠ name) = true := by
          intro other hother
          have hkey : other.1 ∈ keys rest := List.mem_map_of_mem hother
          exact decide_eq_true fun heq => hname (heq ▸ hkey)
        rw [List.filter_cons_of_neg (by simp), List.filter_eq_self.mpr hothers]
      · rename_i hne
        rw [List.filter_cons_of_pos (by simpa using hne), ← ih hrest]

theorem lookup?_reverse {entries : List (String × α)} (hnodup : (keys entries).Nodup)
    (key : String) : lookup? key entries.reverse = lookup? key entries := by
  induction entries with
  | nil => rfl
  | cons entry rest ih =>
      obtain ⟨name, value⟩ := entry
      obtain ⟨hname, hrest⟩ := List.nodup_cons.mp hnodup
      rw [List.reverse_cons, lookup?_append, ih hrest]
      simp only [lookup?]
      split
      · rename_i heq
        subst heq
        rw [lookup?_eq_none_iff.mpr hname, Option.none_or]
      · rw [Option.or_none]

end Entries

namespace OrderedMap

variable {map other : OrderedMap α}

theorem get?_eq_some_of_mem {key : String} {value : α} (h : (key, value) ∈ map.toList) :
    map.get? key = some value :=
  Entries.lookup?_eq_some_of_mem map.nodup h

@[simp] theorem mem_toList_iff {key : String} {value : α} :
    (key, value) ∈ map.toList ↔ map.get? key = some value :=
  ⟨get?_eq_some_of_mem, Entries.mem_of_lookup?⟩

/-- Going through a map shows each key in turn, with the value under it. -/
theorem toList_eq_filterMap (map : OrderedMap α) :
    map.toList = map.keys.filterMap fun key => (map.get? key).map fun value =>
      (key, value) := by
  have hentry : ∀ entry ∈ map.toList,
      (map.get? entry.1).map (fun value => (entry.1, value)) = some entry := by
    intro entry hmem
    rw [get?_eq_some_of_mem hmem, Option.map_some]
  rw [keys, Entries.keys, List.filterMap_map]
  exact List.filterMap_some.symm.trans (List.filterMap_congr hentry).symm

/-! Maps split at an entry. -/

theorem get?_of_split {first last : List (String × α)} {entry : String × α}
    (h : map.toList = first ++ entry :: last) : map.get? entry.1 = some entry.2 := by
  apply get?_eq_some_of_mem
  rw [h]
  exact List.mem_append_right _ List.mem_cons_self

theorem exists_split {earlier later : List String} {key : String}
    (h : map.keys = earlier ++ key :: later) :
    ∃ first value last, map.toList = first ++ (key, value) :: last ∧
      Entries.keys first = earlier := by
  obtain ⟨first, rest, hsplit, hfirst, hrest⟩ := List.map_eq_append_iff.mp h
  obtain ⟨⟨name, value⟩, last, rfl, hname, -⟩ := List.map_eq_cons_iff.mp hrest
  cases hname
  exact ⟨first, value, last, hsplit, hfirst⟩

/-- What holds of the entries before a split holds of their keys, with the values under
them. -/
theorem forall_split_iff {first rest : List (String × α)} {motive : String → α → Prop}
    (h : map.toList = first ++ rest) :
    (∀ entry ∈ first, motive entry.1 entry.2) ↔
      ∀ key ∈ Entries.keys first, ∀ value, map.get? key = some value →
        motive key value := by
  have hget : ∀ entry ∈ first, map.get? entry.1 = some entry.2 := by
    intro entry hentry
    apply get?_eq_some_of_mem
    rw [h]
    exact List.mem_append_left _ hentry
  constructor
  · intro hfirst key hkey value hvalue
    obtain ⟨entry, hentry, rfl⟩ := List.mem_map.mp hkey
    rw [hget entry hentry] at hvalue
    cases hvalue
    exact hfirst entry hentry
  · intro hfirst entry hentry
    exact hfirst entry.1 (List.mem_map_of_mem hentry) entry.2 (hget entry hentry)

@[simp] theorem get?_insert (map : OrderedMap α) (key other : String) (value : α) :
    (map.insert key value).get? other =
      if key = other then some value else map.get? other :=
  Entries.lookup?_put key other value map.entries

@[simp] theorem get?_erase (map : OrderedMap α) (key other : String) :
    (map.erase key).get? other = if key = other then none else map.get? other :=
  Entries.lookup?_take map.nodup other

@[simp] theorem toList_erase (map : OrderedMap α) (key : String) :
    (map.erase key).toList = map.toList.filter (·.1 ≠ key) :=
  Entries.take_eq_filter map.nodup key

theorem erase_eq_self {key : String} (h : map.get? key = none) : map.erase key = map := by
  apply ext
  change (map.erase key).toList = map.toList
  rw [toList_erase, List.filter_eq_self]
  intro entry hentry
  apply decide_eq_true
  intro heq
  rw [← heq, get?_eq_some_of_mem hentry] at h
  cases h

theorem nodup_keys (map : OrderedMap α) : map.keys.Nodup := map.nodup

theorem get?_eq_none_iff {key : String} : map.get? key = none ↔ key ∉ map.keys :=
  Entries.lookup?_eq_none_iff

@[simp] theorem isSome_get?_iff {key : String} :
    (map.get? key).isSome ↔ key ∈ map.keys := by
  rw [Option.isSome_iff_ne_none, ne_eq, get?_eq_none_iff, not_not]

@[simp] theorem contains_iff {key : String} : map.contains key ↔ key ∈ map.keys := by
  simp [contains, keys, Entries.keys]

@[simp] theorem get?_empty (key : String) : (empty : OrderedMap α).get? key = none := rfl

theorem toList_insert_of_notMem {key : String} (hkey : key ∉ map.keys) (value : α) :
    (map.insert key value).toList = map.toList ++ [(key, value)] :=
  Entries.put_of_notMem hkey value

theorem toList_insertMany {map : OrderedMap α} {pairs : List (String × α)}
    (hnodup : (pairs.map Prod.fst).Nodup) (hnew : ∀ pair ∈ pairs, pair.1 ∉ map.keys) :
    (map.insertMany pairs).toList = map.toList ++ pairs := by
  induction pairs generalizing map with
  | nil => simp
  | cons pair rest ih =>
      obtain ⟨hfirst, hrest⟩ := List.nodup_cons.mp hnodup
      have hpair := hnew pair List.mem_cons_self
      rw [insertMany_cons, ih hrest, toList_insert_of_notMem hpair]
      · simp
      · intro later hlater hmem
        rw [keys_insert, if_neg hpair, List.mem_append, List.mem_singleton] at hmem
        rcases hmem with hold | heq
        · exact hnew later (List.mem_cons_of_mem _ hlater) hold
        · exact hfirst (heq ▸ List.mem_map_of_mem hlater)

theorem toList_ofList {pairs : List (String × α)} (hnodup : (pairs.map Prod.fst).Nodup) :
    (ofList pairs).toList = pairs :=
  toList_insertMany hnodup fun _ _ hmem => by cases hmem

/-- Later pairs win. -/
theorem get?_insertMany (map : OrderedMap α) (pairs : List (String × α)) (key : String) :
    (map.insertMany pairs).get? key =
      (Entries.lookup? key pairs.reverse).or (map.get? key) := by
  induction pairs generalizing map with
  | nil => rfl
  | cons pair rest ih =>
      obtain ⟨name, value⟩ := pair
      rw [insertMany_cons, ih, List.reverse_cons, Entries.lookup?_append, get?_insert,
        Option.or_assoc]
      congr 1
      rw [Entries.lookup?]
      split <;> rfl

@[simp] theorem get?_merge (map other : OrderedMap α) (key : String) :
    (map.merge other).get? key = (other.get? key).or (map.get? key) := by
  rw [merge, get?_insertMany, toList, Entries.lookup?_reverse other.nodup]
  rfl

end OrderedMap

end Signpost
