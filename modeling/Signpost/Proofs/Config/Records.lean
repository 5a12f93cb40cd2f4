import Signpost.Config.Decode
import Signpost.Proofs.Except
import Mathlib.Data.List.Nodup

namespace Signpost.Decode

/-- A field of a record.  A field that has to be there has no default. -/
structure Field (ρ : Type) where
  name : String
  Value : Type
  decode : Node → Decoded Value
  value : ρ → Value
  default : Option Value

variable {σ ρ β : Type} {record : ρ} {fields : List (Field ρ)} {field : Field ρ}
  {items : List (String × Node)} {values : List Node} {node : Node} {name : String}

def valuesOf (name : String) (items : List (String × Node)) : List Node :=
  (items.filter (·.1 = name)).map Prod.snd

/-- What is said about a field of a record: nothing, or its value. -/
inductive Field.Told (field : Field ρ) (record : ρ) : List Node → Prop
  | default (h : field.default = some (field.value record)) : Told field record []
  | given {node : Node} (h : field.decode node = .ok (field.value record)) :
      Told field record [node]

structure Tells (fields : List (Field ρ)) (record : ρ)
    (items : List (String × Node)) : Prop where
  whole : ∀ member ∈ items, member.1 ∉ fields.map Field.name → member.2.isWhole
  told : ∀ field ∈ fields, field.Told record (valuesOf field.name items)

/-- A tree for a record.  The elements of an array are the first fields in their order. -/
inductive Describes (fields : List (Field ρ)) (record : ρ) : Node → Prop
  | object {items : List (String × Node)} (h : Tells fields record items) :
      Describes fields record (.ofMembers items)
  | array {values : List Node} (hlength : values.length ≤ fields.length)
      (h : Tells fields record ((fields.map Field.name).zip values)) :
      Describes fields record (.ofList values)

@[simp] theorem valuesOf_cons_self (name : String) (node : Node)
    (rest : List (String × Node)) :
    valuesOf name ((name, node) :: rest) = node :: valuesOf name rest := by
  simp [valuesOf]

@[simp] theorem valuesOf_cons_of_ne {other : String} (h : other ≠ name) (node : Node)
    (rest : List (String × Node)) :
    valuesOf name ((other, node) :: rest) = valuesOf name rest := by
  simp [valuesOf, h]

theorem valuesOf_eq_nil (h : ∀ item ∈ items, item.1 ≠ name) :
    valuesOf name items = [] := by
  rw [valuesOf, List.map_eq_nil_iff, List.filter_eq_nil_iff]
  exact fun item hitem => by simpa using h item hitem

/-! Slots for the fields that have been read. -/

structure Slot (σ ρ : Type) extends Field ρ where
  get : σ → Option Value
  set : σ → Option Value → σ

/-- What decodings put into a slot: none of them leaves it, and one of them fills an empty
one. -/
inductive Filled : Option β → List (Decoded β) → Option β → Prop
  | left (slot : Option β) : Filled slot [] slot
  | once (value : β) : Filled none [.ok value] (some value)

theorem Filled.of_cons {slot slot' : Option β} {first : Decoded β}
    {rest : List (Decoded β)} (h : Filled slot (first :: rest) slot') :
    slot = none ∧ ∃ value, first = .ok value ∧ rest = [] ∧ slot' = some value := by
  cases h with
  | once value => exact ⟨rfl, value, rfl, rfl, rfl⟩

theorem Filled.of_nil {slot slot' : Option β} (h : Filled slot [] slot') :
    slot' = slot := by
  cases h with
  | left => rfl

theorem Filled.of_some {value : β} {slot' : Option β} {decoded : List (Decoded β)}
    (h : Filled (some value) decoded slot') : decoded = [] ∧ slot' = some value := by
  cases h with
  | left => exact ⟨rfl, rfl⟩

variable {step : Step σ} {start : σ} {finish : σ → Option Nat → Decoded ρ}
  {slots : List (Slot σ ρ)}

/-- The slots of a record are independent of each other, and reading fills one of them at a
time. -/
structure Independent (step : Step σ) (slots : List (Slot σ ρ)) : Prop where
  nodup : (slots.map (·.name)).Nodup
  known : ∀ slot ∈ slots, ∀ state node, step state slot.name node = do
    let value ← once slot.name (slot.get state) slot.decode node
    pure (slot.set state value)
  unknown : ∀ name, name ∉ slots.map (·.name) → ∀ state node, step state name node =
    skip state node
  get_set : ∀ slot ∈ slots, ∀ state value, slot.get (slot.set state value) = value
  get_set_other : ∀ slot ∈ slots, ∀ other ∈ slots, slot.name ≠ other.name →
    ∀ state value, slot.get (other.set state value) = slot.get state

namespace Independent

theorem eq_of_name (h : Independent step slots) {slot other : Slot σ ρ}
    (hslot : slot ∈ slots) (hother : other ∈ slots) (hname : slot.name = other.name) :
    slot = other :=
  List.inj_on_of_nodup_map h.nodup hslot hother hname

theorem step_fresh (h : Independent step slots) {slot : Slot σ ρ} (hslot : slot ∈ slots)
    {state : σ} (hget : slot.get state = none) {value : slot.Value}
    (hdecode : slot.decode node = .ok value) :
    step state slot.name node = .ok (slot.set state (some value)) := by
  rw [h.known slot hslot, hget, once, hdecode]
  rfl

theorem exists_of_step (h : Independent step slots) {slot : Slot σ ρ}
    (hslot : slot ∈ slots) {state next : σ}
    (hstep : step state slot.name node = .ok next) :
    slot.get state = none ∧ ∃ value, slot.decode node = .ok value ∧
      next = slot.set state (some value) := by
  rw [h.known slot hslot] at hstep
  cases hget : slot.get state with
  | some value =>
      rw [hget] at hstep
      cases hstep
  | none =>
      rw [hget, once] at hstep
      cases hdecode : slot.decode node with
      | error cause =>
          rw [hdecode] at hstep
          cases hstep
      | ok value =>
          rw [hdecode] at hstep
          exact ⟨rfl, value, rfl, (Except.ok.inj hstep).symm⟩

/-- What members that can be read leave in the slots. -/
theorem filled_of_members (h : Independent step slots) {state final : σ}
    (hmembers : members step state (.ofList items) = .ok final) :
    (∀ member ∈ items, member.1 ∉ slots.map (·.name) → member.2.isWhole) ∧
      ∀ slot ∈ slots, Filled (slot.get state) ((valuesOf slot.name items).map slot.decode)
        (slot.get final) := by
  induction items generalizing state with
  | nil =>
      obtain rfl := Except.ok.inj hmembers
      exact ⟨fun _ hmember => (nomatch hmember), fun slot _ => .left _⟩
  | cons member rest ih =>
      obtain ⟨name, node⟩ := member
      rw [MemberSeq.ofList, members, key, ok_bind] at hmembers
      obtain ⟨next, hstep, hrest⟩ := exists_of_bind_ok hmembers
      obtain ⟨hwhole, hfilled⟩ := ih hrest
      by_cases hname : name ∈ slots.map (·.name)
      · obtain ⟨slot, hslot, rfl⟩ := List.mem_map.mp hname
        obtain ⟨hget, value, hdecode, rfl⟩ := h.exists_of_step hslot hstep
        refine ⟨List.forall_mem_cons.mpr ⟨fun hnew => absurd hname hnew, hwhole⟩, ?_⟩
        intro other hother
        have hlater := hfilled other hother
        by_cases heq : other.name = slot.name
        · obtain rfl := h.eq_of_name hother hslot heq
          rw [h.get_set other hother] at hlater
          obtain ⟨hnone, hfinal⟩ := hlater.of_some
          rw [valuesOf_cons_self, List.map_cons, hnone, hget, hdecode, hfinal]
          exact .once value
        · rw [h.get_set_other other hother slot hslot heq] at hlater
          rwa [valuesOf_cons_of_ne (Ne.symm heq)]
      · rw [h.unknown name hname, skip] at hstep
        split at hstep
        · rename_i hnode
          obtain rfl := Except.ok.inj hstep
          refine ⟨List.forall_mem_cons.mpr ⟨fun _ => hnode, hwhole⟩, ?_⟩
          intro slot hslot
          have hne : name ≠ slot.name := fun heq => hname (heq ▸ List.mem_map_of_mem hslot)
          rw [valuesOf_cons_of_ne hne]
          exact hfilled slot hslot
        · cases hstep

theorem exists_members (h : Independent step slots) {state : σ}
    (hwhole : ∀ member ∈ items, member.1 ∉ slots.map (·.name) → member.2.isWhole)
    (hfilled : ∀ slot ∈ slots, ∃ final,
      Filled (slot.get state) ((valuesOf slot.name items).map slot.decode) final) :
    ∃ final, members step state (.ofList items) = .ok final := by
  induction items generalizing state with
  | nil => exact ⟨state, rfl⟩
  | cons member rest ih =>
      obtain ⟨name, node⟩ := member
      obtain ⟨hnode, hrest⟩ := List.forall_mem_cons.mp hwhole
      rw [MemberSeq.ofList, members, key, ok_bind]
      by_cases hname : name ∈ slots.map (·.name)
      · obtain ⟨slot, hslot, rfl⟩ := List.mem_map.mp hname
        obtain ⟨final, hfirst⟩ := hfilled slot hslot
        rw [valuesOf_cons_self, List.map_cons] at hfirst
        obtain ⟨hget, value, hdecode, hnone, rfl⟩ := hfirst.of_cons
        rw [h.step_fresh hslot hget hdecode, ok_bind]
        apply ih hrest
        intro other hother
        by_cases heq : other.name = slot.name
        · obtain rfl := h.eq_of_name hother hslot heq
          rw [h.get_set other hother, hnone]
          exact ⟨some value, .left _⟩
        · have hlater := hfilled other hother
          rw [valuesOf_cons_of_ne (Ne.symm heq)] at hlater
          rwa [h.get_set_other other hother slot hslot heq]
      · rw [h.unknown name hname, skip, if_pos (hnode hname), ok_bind]
        apply ih hrest
        intro slot hslot
        have hne : name ≠ slot.name := fun heq => hname (heq ▸ List.mem_map_of_mem hslot)
        have hlater := hfilled slot hslot
        rwa [valuesOf_cons_of_ne hne] at hlater

end Independent

theorem Field.told_iff {final : Option field.Value}
    (h : Filled none (values.map field.decode) final) :
    field.Told record values ↔ final.or field.default = some (field.value record) := by
  cases values with
  | nil =>
      rw [h.of_nil, Option.none_or]
      constructor
      · intro htold
        cases htold with
        | default hdefault => exact hdefault
      · exact .default
  | cons node rest =>
      obtain ⟨-, value, hvalue, hrest, rfl⟩ := h.of_cons
      obtain rfl := List.map_eq_nil_iff.mp hrest
      rw [Option.some_or]
      constructor
      · intro htold
        cases htold with
        | given hgiven => exact congrArg some (Except.ok.inj (hvalue.symm.trans hgiven))
      · intro heq
        exact .given (hvalue.trans (congrArg Except.ok (Option.some.inj heq)))

theorem Field.Told.filled (h : field.Told record values) :
    ∃ final, Filled none (values.map field.decode) final := by
  cases h with
  | default hdefault => exact ⟨none, .left none⟩
  | given hgiven =>
      rw [List.map_singleton, hgiven]
      exact ⟨_, .once _⟩

/-! Objects and arrays.  The elements of an array are read as members would be whose names
are those of the fields in their order. -/

theorem exists_ofList_of_members : ∀ {body : MemberSeq} {state final : σ},
    members step state body = .ok final → ∃ list, body = .ofList list := by
  intro body state final h
  cases body with
  | nil => exact ⟨[], rfl⟩
  | fault => cases h
  | cons name node tail =>
      obtain ⟨found, hname, hrest⟩ := exists_of_bind_ok h
      obtain ⟨next, -, htail⟩ := exists_of_bind_ok hrest
      obtain ⟨list, rfl⟩ := exists_ofList_of_members htail
      cases name with
      | none => cases hname
      | some name => exact ⟨(name, node) :: list, rfl⟩

theorem members_of_elements {names : List String} {body : NodeSeq} {state final : σ}
    {count : Nat} (h : elements .json step state names body = .ok (final, count)) :
    ∃ values, body = .ofList values ∧ values.length ≤ names.length ∧
      members step state (.ofList (names.zip values)) = .ok final := by
  induction names generalizing body state count with
  | nil =>
      cases body with
      | nil =>
          cases h
          exact ⟨[], rfl, Nat.le_refl 0, rfl⟩
      | fault => cases h
      | cons node tail => cases h
  | cons name names ih =>
      cases body with
      | nil =>
          cases h
          exact ⟨[], rfl, Nat.zero_le _, rfl⟩
      | fault => cases h
      | cons node tail =>
          obtain ⟨next, hstep, hrest⟩ := exists_of_bind_ok h
          obtain ⟨⟨reached, others⟩, htail, hresult⟩ := exists_of_bind_ok hrest
          cases hresult
          obtain ⟨values, rfl, hlength, hmembers⟩ := ih htail
          refine ⟨node :: values, rfl, Nat.succ_le_succ hlength, ?_⟩
          rw [List.zip_cons_cons, MemberSeq.ofList, members, key, ok_bind, hstep, ok_bind,
            hmembers]

theorem elements_of_members {names : List String} {state final : σ}
    (hlength : values.length ≤ names.length)
    (h : members step state (.ofList (names.zip values)) = .ok final) :
    elements .json step state names (.ofList values) = .ok (final, values.length) := by
  induction names generalizing values state with
  | nil =>
      obtain rfl := List.length_eq_zero_iff.mp (Nat.le_zero.mp hlength)
      obtain rfl := Except.ok.inj h
      rfl
  | cons name names ih =>
      cases values with
      | nil =>
          obtain rfl := Except.ok.inj h
          rfl
      | cons node rest =>
          rw [List.zip_cons_cons, MemberSeq.ofList, members, key, ok_bind] at h
          obtain ⟨next, hstep, hrest⟩ := exists_of_bind_ok h
          rw [NodeSeq.ofList, elements, hstep, ok_bind,
            ih (Nat.le_of_succ_le_succ hlength) hrest]
          rfl

structure Reads (decode : Node → Decoded ρ) (step : Step σ) (start : σ)
    (finish : σ → Option Nat → Decoded ρ) (slots : List (Slot σ ρ)) : Prop where
  independent : Independent step slots
  empty : ∀ slot ∈ slots, slot.get start = none
  finishes : ∀ state count record, finish state count = .ok record ↔
    ∀ slot ∈ slots, (slot.get state).or slot.default = some (slot.value record)
  decodes : ∃ title, ∀ node, decode node =
    Decode.record .json title (slots.map (·.name)) step start node >>= fun read =>
      finish read.1 read.2

variable {decode : Node → Decoded ρ}

namespace Reads

theorem filled_of_members (h : Reads decode step start finish slots) {final : σ}
    (hmembers : members step start (.ofList items) = .ok final) :
    ∀ slot ∈ slots,
      Filled none ((valuesOf slot.name items).map slot.decode) (slot.get final) := by
  intro slot hslot
  have hfilled := (h.independent.filled_of_members hmembers).2 slot hslot
  rwa [h.empty slot hslot] at hfilled

theorem tells_of_finish (h : Reads decode step start finish slots) {final : σ}
    {count : Option Nat} (hmembers : members step start (.ofList items) = .ok final)
    (hfinish : finish final count = .ok record) :
    Tells (slots.map (·.toField)) record items where
  whole := by
    rw [List.map_map]
    exact (h.independent.filled_of_members hmembers).1
  told := by
    intro field hfield
    obtain ⟨slot, hslot, rfl⟩ := List.mem_map.mp hfield
    exact (Field.told_iff (h.filled_of_members hmembers slot hslot)).mpr
      ((h.finishes final count record).mp hfinish slot hslot)

theorem finish_of_tells (h : Reads decode step start finish slots)
    (htells : Tells (slots.map (·.toField)) record items) :
    ∃ final, members step start (.ofList items) = .ok final ∧
      ∀ count, finish final count = .ok record := by
  have htold : ∀ slot ∈ slots, slot.toField.Told record (valuesOf slot.name items) :=
    fun slot hslot => htells.told slot.toField (List.mem_map_of_mem hslot)
  have hwhole := htells.whole
  rw [List.map_map] at hwhole
  obtain ⟨final, hfinal⟩ := h.independent.exists_members hwhole fun slot hslot => by
    rw [h.empty slot hslot]
    exact (htold slot hslot).filled
  refine ⟨final, hfinal, fun count =>
    (h.finishes final count record).mpr fun slot hslot => ?_⟩
  exact (Field.told_iff (h.filled_of_members hfinal slot hslot)).mp (htold slot hslot)

/-- A tree is read as a record exactly if it is one for it. -/
theorem decode_iff (h : Reads decode step start finish slots) :
    decode node = .ok record ↔ Describes (slots.map (·.toField)) record node := by
  obtain ⟨title, hdecodes⟩ := h.decodes
  rw [hdecodes]
  constructor
  · intro hread
    obtain ⟨⟨final, count⟩, hrecord, hfinish⟩ := exists_of_bind_ok hread
    cases node with
    | object body =>
        obtain ⟨reached, hmembers, hresult⟩ := exists_of_bind_ok hrecord
        cases hresult
        obtain ⟨items, rfl⟩ := exists_ofList_of_members hmembers
        exact .object (h.tells_of_finish hmembers hfinish)
    | array body =>
        obtain ⟨⟨reached, length⟩, helements, hresult⟩ := exists_of_bind_ok hrecord
        cases hresult
        obtain ⟨values, rfl, hlength, hmembers⟩ := members_of_elements helements
        refine .array ?_ ?_
        · rwa [List.length_map] at hlength ⊢
        · rw [List.map_map]
          exact h.tells_of_finish hmembers hfinish
    | _ => cases hrecord
  · intro hdescribes
    cases hdescribes with
    | object htells =>
        obtain ⟨final, hmembers, hfinish⟩ := h.finish_of_tells htells
        rw [Node.ofMembers, Decode.record, hmembers]
        exact hfinish none
    | @array values hlength htells =>
        have hfields : (slots.map (·.toField)).map Field.name = slots.map (·.name) :=
          List.map_map
        rw [← List.length_map Field.name] at hlength
        rw [hfields] at htells hlength
        obtain ⟨final, hmembers, hfinish⟩ := h.finish_of_tells htells
        rw [Node.ofList, Decode.record, elements_of_members hlength hmembers]
        exact hfinish _

end Reads

end Signpost.Decode
