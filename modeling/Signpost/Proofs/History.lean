import Signpost.Proofs.OrderedMap
import Mathlib.Data.List.Induction
import Mathlib.Data.List.Pairwise

namespace Signpost.OrderedMap

variable {α : Type}

inductive Event (α : Type)
  | put (key : String) (value : α)
  | drop (key : String)
  | clear

namespace Event

def apply (map : OrderedMap α) : Event α → OrderedMap α
  | .put key value => map.insert key value
  | .drop key => map.erase key
  | .clear => empty

/-- Whatever was under the key before, the event settles what is under it afterwards. -/
def Settles (key : String) : Event α → Prop
  | .put other _ => other = key
  | .drop other => other = key
  | .clear => True

/-- The key is absent after the event. -/
def Ends (key : String) : Event α → Prop
  | .put _ _ => False
  | .drop other => other = key
  | .clear => True

theorem exists_put {key : String} {event : Event α} (hsettles : event.Settles key)
    (hends : ¬ event.Ends key) : ∃ value, event = .put key value := by
  cases event with
  | put other value =>
      cases hsettles
      exact ⟨value, rfl⟩
  | drop other => exact absurd hsettles hends
  | clear => exact absurd hsettles hends

end Event

def replay (events : List (Event α)) : OrderedMap α :=
  events.foldl Event.apply empty

def writings (pairs : List (String × α)) : List (Event α) :=
  pairs.map fun pair => .put pair.1 pair.2

theorem insertMany_eq_foldl (map : OrderedMap α) (pairs : List (String × α)) :
    map.insertMany pairs = (writings pairs).foldl Event.apply map := by
  rw [writings, List.foldl_map]
  rfl

/-! What events tell about a key.  Places in a history are counted from its start. -/

/-- The last event that settles the key puts the value under it. -/
def Wrote (events : List (Event α)) (key : String) (value : α) : Prop :=
  ∃ earlier later, events = earlier ++ .put key value :: later ∧
    ∀ event ∈ later, ¬ event.Settles key

def Present (events : List (Event α)) (key : String) : Prop :=
  ∃ value, Wrote events key value

/-- The event at the place made the key present after being absent, and it was not ended
since. -/
def Joined (events : List (Event α)) (key : String) (place : Nat) : Prop :=
  ∃ earlier value later, events = earlier ++ .put key value :: later ∧
    earlier.length = place ∧ ¬ Present earlier key ∧ ∀ event ∈ later, ¬ event.Ends key

def JoinedBefore (events : List (Event α)) (first second : String) : Prop :=
  ∃ earlier later, Joined events first earlier ∧ Joined events second later ∧
    earlier < later

variable {events earlier later : List (Event α)} {event middle : Event α} {key : String}
  {value : α} {place : Nat}

theorem append_single_eq_iff :
    events ++ [event] = earlier ++ middle :: later ↔
      (later = [] ∧ event = middle ∧ events = earlier) ∨
        ∃ rest, later = rest ++ [event] ∧ events = earlier ++ middle :: rest := by
  constructor
  · intro h
    rcases List.eq_nil_or_concat later with rfl | ⟨rest, last, rfl⟩
    · obtain ⟨hevents, hevent⟩ := List.append_inj' h rfl
      exact .inl ⟨rfl, List.head_eq_of_cons_eq hevent, hevents⟩
    · rw [List.concat_eq_append, ← List.cons_append, ← List.append_assoc] at h
      obtain ⟨hevents, hevent⟩ := List.append_inj' h rfl
      rw [List.concat_eq_append, List.head_eq_of_cons_eq hevent]
      exact .inr ⟨rest, rfl, hevents⟩
  · intro h
    rcases h with ⟨rfl, rfl, rfl⟩ | ⟨rest, rfl, rfl⟩
    · rfl
    · simp

theorem wrote_append_iff : Wrote (events ++ [event]) key value ↔
    event = .put key value ∨ (¬ event.Settles key ∧ Wrote events key value) := by
  constructor
  · intro h
    obtain ⟨earlier, later, hsplit, hlater⟩ := h
    rcases append_single_eq_iff.mp hsplit with ⟨-, hevent, -⟩ | ⟨rest, rfl, hevents⟩
    · exact .inl hevent
    · refine .inr ⟨hlater event (by simp), earlier, rest, hevents, ?_⟩
      intro other hother
      exact hlater other (List.mem_append_left _ hother)
  · intro h
    rcases h with rfl | ⟨hsettles, earlier, later, rfl, hlater⟩
    · exact ⟨events, [], rfl, by simp⟩
    · exact ⟨earlier, later ++ [event], by simp,
        List.forall_mem_append.mpr ⟨hlater, List.forall_mem_singleton.mpr hsettles⟩⟩

theorem joined_append_iff : Joined (events ++ [event]) key place ↔
    (Joined events key place ∧ ¬ event.Ends key) ∨
      ∃ value, event = .put key value ∧ ¬ Present events key ∧ events.length = place := by
  constructor
  · intro h
    obtain ⟨earlier, value, later, hsplit, hplace, habsent, hlater⟩ := h
    rcases append_single_eq_iff.mp hsplit with ⟨-, hevent, rfl⟩ | ⟨rest, rfl, hevents⟩
    · exact .inr ⟨value, hevent, habsent, hplace⟩
    · refine .inl ⟨⟨earlier, value, rest, hevents, hplace, habsent, ?_⟩,
        hlater event (by simp)⟩
      intro other hother
      exact hlater other (List.mem_append_left _ hother)
  · intro h
    rcases h with ⟨⟨earlier, value, later, rfl, hplace, habsent, hlater⟩, hends⟩ |
      ⟨value, rfl, habsent, hplace⟩
    · exact ⟨earlier, value, later ++ [event], by simp, hplace, habsent,
        List.forall_mem_append.mpr ⟨hlater, List.forall_mem_singleton.mpr hends⟩⟩
    · exact ⟨events, value, [], rfl, hplace, habsent, by simp⟩

theorem JoinedBefore.append {first second : String} (h : JoinedBefore events first second)
    (hfirst : ¬ event.Ends first) (hsecond : ¬ event.Ends second) :
    JoinedBefore (events ++ [event]) first second := by
  obtain ⟨earlier, later, hearlier, hlater, hlt⟩ := h
  exact ⟨earlier, later, joined_append_iff.mpr (.inl ⟨hearlier, hfirst⟩),
    joined_append_iff.mpr (.inl ⟨hlater, hsecond⟩), hlt⟩

theorem Joined.lt_length (h : Joined events key place) : place < events.length := by
  obtain ⟨earlier, value, later, rfl, rfl, -, -⟩ := h
  simp

/-! A key joins at one place only: from there on it is present. -/

theorem Present.append (h : Present events key) (hends : ¬ event.Ends key) :
    Present (events ++ [event]) key := by
  obtain ⟨value, hwrote⟩ := h
  by_cases hsettles : event.Settles key
  · obtain ⟨written, rfl⟩ := Event.exists_put hsettles hends
    exact ⟨written, wrote_append_iff.mpr (.inl rfl)⟩
  · exact ⟨value, wrote_append_iff.mpr (.inr ⟨hsettles, hwrote⟩)⟩

theorem present_of_put (hlater : ∀ event ∈ later, ¬ event.Ends key) :
    Present (earlier ++ .put key value :: later) key := by
  induction later using List.reverseRecOn with
  | nil => exact ⟨value, earlier, [], rfl, by simp⟩
  | append_singleton later event ih =>
      rw [← List.cons_append, ← List.append_assoc]
      apply Present.append
      · apply ih
        intro other hother
        exact hlater other (List.mem_append_left _ hother)
      · exact hlater event (by simp)

theorem Joined.present (h : Joined events key place) : Present events key := by
  obtain ⟨earlier, value, later, rfl, -, -, hlater⟩ := h
  exact present_of_put hlater

theorem Joined.unique {other : Nat} (hplace : Joined events key place)
    (hother : Joined events key other) : place = other := by
  induction events using List.reverseRecOn with
  | nil =>
      obtain ⟨earlier, value, later, hnil, -⟩ := hplace
      simp at hnil
  | append_singleton events event ih =>
      -- An event that makes the key present finds it absent, where an earlier place has it
      -- present.
      rcases joined_append_iff.mp hplace with ⟨hold, -⟩ | ⟨value, -, habsent, rfl⟩
      · rcases joined_append_iff.mp hother with ⟨hold', -⟩ | ⟨value, -, habsent, -⟩
        · exact ih hold hold'
        · exact absurd hold.present habsent
      · rcases joined_append_iff.mp hother with ⟨hold, -⟩ | ⟨value, -, -, rfl⟩
        · exact absurd hold.present habsent
        · rfl

/-! What a map holds is what its history tells. -/

structure Records (events : List (Event α)) (map : OrderedMap α) : Prop where
  wrote : ∀ key value, map.get? key = some value ↔ Wrote events key value
  joined : ∀ key ∈ map.keys, ∃ place, Joined events key place
  ordered : map.keys.Pairwise (JoinedBefore events)

variable {map : OrderedMap α}

theorem Records.present_iff (h : Records events map) :
    Present events key ↔ key ∈ map.keys := by
  rw [← isSome_get?_iff, Option.isSome_iff_exists]
  exact exists_congr fun value => (h.wrote key value).symm

theorem Records.existsUnique_place (h : Records events map) (hkey : key ∈ map.keys) :
    ∃! place, Joined events key place := by
  obtain ⟨place, hplace⟩ := h.joined key hkey
  exact ⟨place, hplace, fun other hother => hother.unique hplace⟩

theorem Records.put (h : Records events map) (key : String) (value : α) :
    Records (events ++ [.put key value]) (map.insert key value) where
  wrote := by
    intro other written
    rw [wrote_append_iff, ← h.wrote]
    by_cases hkey : key = other
    · subst hkey
      simp [Event.Settles]
    · simp [Event.Settles, hkey]
  joined := by
    intro other hother
    rw [keys_insert] at hother
    split at hother
    · obtain ⟨place, hplace⟩ := h.joined other hother
      exact ⟨place, joined_append_iff.mpr (.inl ⟨hplace, id⟩)⟩
    · rename_i hnew
      rcases List.mem_append.mp hother with hold | hkey
      · obtain ⟨place, hplace⟩ := h.joined other hold
        exact ⟨place, joined_append_iff.mpr (.inl ⟨hplace, id⟩)⟩
      · rw [List.mem_singleton.mp hkey]
        refine ⟨_, joined_append_iff.mpr (.inr ⟨value, rfl, ?_, rfl⟩)⟩
        rw [h.present_iff]
        exact hnew
  ordered := by
    have hold : map.keys.Pairwise (JoinedBefore (events ++ [.put key value])) :=
      h.ordered.imp fun hbefore => hbefore.append id id
    rw [keys_insert]
    split
    · exact hold
    · rename_i hnew
      rw [List.pairwise_append]
      refine ⟨hold, List.pairwise_singleton _ _, ?_⟩
      intro first hfirst second hsecond
      rw [List.mem_singleton.mp hsecond]
      obtain ⟨place, hplace⟩ := h.joined first hfirst
      refine ⟨place, events.length, joined_append_iff.mpr (.inl ⟨hplace, id⟩), ?_,
        hplace.lt_length⟩
      refine joined_append_iff.mpr (.inr ⟨value, rfl, ?_, rfl⟩)
      rw [h.present_iff]
      exact hnew

theorem Records.drop (h : Records events map) (key : String) :
    Records (events ++ [.drop key]) (map.erase key) where
  wrote := by
    intro other written
    rw [wrote_append_iff, ← h.wrote]
    by_cases hkey : key = other
    · simp [Event.Settles, hkey]
    · simp [Event.Settles, hkey]
  joined := by
    intro other hother
    rw [keys_erase, map.nodup_keys.mem_erase_iff] at hother
    obtain ⟨place, hplace⟩ := h.joined other hother.2
    exact ⟨place, joined_append_iff.mpr (.inl ⟨hplace, Ne.symm hother.1⟩)⟩
  ordered := by
    rw [keys_erase]
    apply (h.ordered.sublist List.erase_sublist).imp_of_mem
    intro first second hfirst hsecond hbefore
    rw [map.nodup_keys.mem_erase_iff] at hfirst hsecond
    exact hbefore.append (Ne.symm hfirst.1) (Ne.symm hsecond.1)

theorem records_clear (events : List (Event α)) :
    Records (events ++ [.clear]) (empty : OrderedMap α) where
  wrote := by
    intro key value
    simp [wrote_append_iff, Event.Settles]
  joined := by
    intro key hkey
    cases hkey
  ordered := .nil

theorem Records.append (h : Records events map) (event : Event α) :
    Records (events ++ [event]) (event.apply map) := by
  cases event with
  | put key value => exact h.put key value
  | drop key => exact h.drop key
  | clear => exact records_clear events

theorem records_nil : Records [] (empty : OrderedMap α) where
  wrote := by
    intro key value
    simp [Wrote]
  joined := by
    intro key hkey
    cases hkey
  ordered := .nil

theorem records_replay (events : List (Event α)) : Records events (replay events) := by
  induction events using List.reverseRecOn with
  | nil => exact records_nil
  | append_singleton events event ih =>
      rw [replay, List.foldl_append]
      exact ih.append event

end Signpost.OrderedMap
