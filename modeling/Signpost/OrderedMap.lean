namespace Signpost

variable {α : Type}

/-! Association lists under the two single-key updates.  Each update also returns the value
that was stored under the key. -/

namespace Entries

def keys (entries : List (String × α)) : List String :=
  entries.map Prod.fst

def lookup? (key : String) : List (String × α) → Option α
  | [] => none
  | (name, value) :: rest => if name = key then some value else lookup? key rest

def put (key : String) (value : α) :
    List (String × α) → Option α × List (String × α)
  | [] => (none, [(key, value)])
  | (name, old) :: rest =>
      if name = key then (some old, (name, value) :: rest)
      else
        let (previous, updated) := put key value rest
        (previous, (name, old) :: updated)

def take (key : String) : List (String × α) → Option α × List (String × α)
  | [] => (none, [])
  | (name, old) :: rest =>
      if name = key then (some old, rest)
      else
        let (previous, remaining) := take key rest
        (previous, (name, old) :: remaining)

@[simp] theorem keys_nil : keys ([] : List (String × α)) = [] := rfl

@[simp] theorem keys_cons (entry : String × α) (rest : List (String × α)) :
    keys (entry :: rest) = entry.1 :: keys rest := rfl

@[simp] theorem put_fst (key : String) (value : α) (entries : List (String × α)) :
    (put key value entries).1 = lookup? key entries := by
  induction entries with
  | nil => rfl
  | cons entry rest ih =>
      obtain ⟨name, old⟩ := entry
      by_cases h : name = key <;> simp [put, lookup?, h, ih]

@[simp] theorem take_fst (key : String) (entries : List (String × α)) :
    (take key entries).1 = lookup? key entries := by
  induction entries with
  | nil => rfl
  | cons entry rest ih =>
      obtain ⟨name, old⟩ := entry
      by_cases h : name = key <;> simp [take, lookup?, h, ih]

theorem keys_put (key : String) (value : α) (entries : List (String × α)) :
    keys (put key value entries).2 =
      if key ∈ keys entries then keys entries else keys entries ++ [key] := by
  induction entries with
  | nil => simp [put]
  | cons entry rest ih =>
      obtain ⟨name, old⟩ := entry
      by_cases h : name = key
      · simp [put, h]
      · have hne : ¬ key = name := fun heq => h heq.symm
        by_cases hmem : key ∈ keys rest <;> simp [put, h, hne, ih, hmem]

theorem keys_take (key : String) (entries : List (String × α)) :
    keys (take key entries).2 = (keys entries).erase key := by
  induction entries with
  | nil => rfl
  | cons entry rest ih =>
      obtain ⟨name, old⟩ := entry
      by_cases h : name = key
      · simp [take, h]
      · have hbeq : (name == key) = false := by simpa using h
        simp [take, h, hbeq, ih]

theorem nodup_put {entries : List (String × α)} (hnodup : (keys entries).Nodup)
    (key : String) (value : α) : (keys (put key value entries).2).Nodup := by
  rw [keys_put]
  split
  · exact hnodup
  · rename_i hfresh
    rw [List.nodup_append]
    refine ⟨hnodup, by simp, ?_⟩
    intro left hleft right hright heq
    simp only [List.mem_singleton] at hright
    subst hright
    subst heq
    exact hfresh hleft

theorem nodup_take {entries : List (String × α)} (hnodup : (keys entries).Nodup)
    (key : String) : (keys (take key entries).2).Nodup := by
  rw [keys_take]
  exact hnodup.erase key

end Entries

/-- Finite maps keyed by names.  Iteration order is the order in which the keys became
present. -/
structure OrderedMap (α : Type) where
  entries : List (String × α)
  nodup : (Entries.keys entries).Nodup

namespace OrderedMap

def empty : OrderedMap α := ⟨[], List.nodup_nil⟩

instance : Inhabited (OrderedMap α) := ⟨empty⟩

@[ext] theorem ext {first second : OrderedMap α} (h : first.entries = second.entries) :
    first = second := by
  cases first
  cases second
  cases h
  rfl

instance [DecidableEq α] : DecidableEq (OrderedMap α) := fun first second =>
  if h : first.entries = second.entries then isTrue (ext h)
  else isFalse fun heq => h (congrArg entries heq)

def toList (map : OrderedMap α) : List (String × α) := map.entries

def keys (map : OrderedMap α) : List String := Entries.keys map.entries

def size (map : OrderedMap α) : Nat := map.entries.length

def isEmpty (map : OrderedMap α) : Bool := map.entries.isEmpty

def get? (map : OrderedMap α) (key : String) : Option α :=
  Entries.lookup? key map.entries

def contains (map : OrderedMap α) (key : String) : Bool :=
  map.entries.any fun entry => entry.1 = key

def put (map : OrderedMap α) (key : String) (value : α) : Option α × OrderedMap α :=
  ((Entries.put key value map.entries).1,
    ⟨(Entries.put key value map.entries).2, Entries.nodup_put map.nodup key value⟩)

def take (map : OrderedMap α) (key : String) : Option α × OrderedMap α :=
  ((Entries.take key map.entries).1,
    ⟨(Entries.take key map.entries).2, Entries.nodup_take map.nodup key⟩)

def insert (map : OrderedMap α) (key : String) (value : α) : OrderedMap α :=
  (map.put key value).2

def erase (map : OrderedMap α) (key : String) : OrderedMap α :=
  (map.take key).2

def insertMany (map : OrderedMap α) (pairs : List (String × α)) : OrderedMap α :=
  pairs.foldl (fun current pair => current.insert pair.1 pair.2) map

def merge (map other : OrderedMap α) : OrderedMap α :=
  map.insertMany other.toList

def ofList (pairs : List (String × α)) : OrderedMap α :=
  empty.insertMany pairs

@[simp] theorem entries_empty : (empty : OrderedMap α).entries = [] := rfl

@[simp] theorem insertMany_nil (map : OrderedMap α) : map.insertMany [] = map := rfl

@[simp] theorem insertMany_cons (map : OrderedMap α) (pair : String × α)
    (pairs : List (String × α)) :
    map.insertMany (pair :: pairs) = (map.insert pair.1 pair.2).insertMany pairs := rfl

@[simp] theorem put_fst (map : OrderedMap α) (key : String) (value : α) :
    (map.put key value).1 = map.get? key :=
  Entries.put_fst key value map.entries

@[simp] theorem take_fst (map : OrderedMap α) (key : String) :
    (map.take key).1 = map.get? key :=
  Entries.take_fst key map.entries

@[simp] theorem keys_insert (map : OrderedMap α) (key : String) (value : α) :
    (map.insert key value).keys =
      if key ∈ map.keys then map.keys else map.keys ++ [key] :=
  Entries.keys_put key value map.entries

@[simp] theorem keys_erase (map : OrderedMap α) (key : String) :
    (map.erase key).keys = map.keys.erase key :=
  Entries.keys_take key map.entries

end OrderedMap

end Signpost
