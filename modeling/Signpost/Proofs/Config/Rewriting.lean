import Signpost.Proofs.Config.Records
import Signpost.Proofs.Node

namespace Signpost.Decode

variable {ρ : Type} {record : ρ} {fields : List (Field ρ)} {field : Field ρ}
  {items others before after : List (String × Node)} {node other inner inner' : Node}

inductive Single : Node → Prop
  | null : Single .null
  | bool (value : Bool) : Single (.bool value)
  | number (value : Option Number) : Single (.number value)
  | text (value : Option String) : Single (.text value)

def Field.IsDefault (field : Field ρ) (node : Node) : Prop :=
  ∃ value, field.default = some value ∧ field.decode node = .ok value

/-- What stands for a field when the members of an object are listed. -/
inductive Field.Listed (items : List (String × Node)) (field : Field ρ) : Node → Prop
  | given {node : Node} (h : (field.name, node) ∈ items) : Listed items field node
  | omitted {node : Node} (habsent : ∀ item ∈ items, item.1 ≠ field.name)
      (hdefault : field.IsDefault node) : Listed items field node

/-- One change to an object for a record. -/
inductive Rewrite (fields : List (Field ρ)) : Node → Node → Prop
  | permute {items others : List (String × Node)} (h : items.Perm others) :
      Rewrite fields (.ofMembers items) (.ofMembers others)
  | add {before after : List (String × Node)} {name : String} {node : Node}
      (hname : name ∉ fields.map Field.name) (hnode : Single node) :
      Rewrite fields (.ofMembers (before ++ after))
        (.ofMembers (before ++ (name, node) :: after))
  | drop {before after : List (String × Node)} {field : Field ρ} {node : Node}
      (hfield : field ∈ fields) (hdefault : field.IsDefault node) :
      Rewrite fields (.ofMembers (before ++ (field.name, node) :: after))
        (.ofMembers (before ++ after))
  | list {items : List (String × Node)} {values : List Node}
      (h : List.Forall₂ (Field.Listed items) fields values) :
      Rewrite fields (.ofMembers items) (.ofList values)

/-- Two trees for a record that differ in what they hold for one field. -/
inductive Differ (fields : List (Field ρ)) (name : String) (inner inner' : Node) :
    Node → Node → Prop
  | member {before after : List (String × Node)} :
      Differ fields name inner inner' (.ofMembers (before ++ (name, inner) :: after))
        (.ofMembers (before ++ (name, inner') :: after))
  | element {before after : List Node} {front rest : List String}
      (hnames : fields.map Field.name = front ++ name :: rest)
      (hlength : before.length = front.length) :
      Differ fields name inner inner' (.ofList (before ++ inner :: after))
        (.ofList (before ++ inner' :: after))

theorem describes_object_iff {members : MemberSeq} :
    Describes fields record (.object members) ↔
      ∃ items, members = .ofList items ∧ Tells fields record items := by
  constructor
  · intro h
    generalize hnode : Node.object members = node at h
    cases h with
    | object htells => exact ⟨_, Node.object.inj hnode, htells⟩
    | array hlength htells => cases hnode
  · intro ⟨items, heq, htells⟩
    rw [heq]
    exact .object htells

theorem describes_array_iff {elements : NodeSeq} :
    Describes fields record (.array elements) ↔
      ∃ values, elements = .ofList values ∧ values.length ≤ fields.length ∧
        Tells fields record ((fields.map Field.name).zip values) := by
  constructor
  · intro h
    generalize hnode : Node.array elements = node at h
    cases h with
    | object htells => cases hnode
    | array hlength htells => exact ⟨_, Node.array.inj hnode, hlength, htells⟩
  · intro ⟨values, heq, hlength, htells⟩
    rw [heq]
    exact .array hlength htells

theorem Describes.tells (h : Describes fields record (.ofMembers items)) :
    Tells fields record items := by
  obtain ⟨others, heq, htells⟩ := describes_object_iff.mp h
  rwa [MemberSeq.ofList_injective heq]

theorem Describes.tells_elements {values : List Node}
    (h : Describes fields record (.ofList values)) : values.length ≤ fields.length ∧
      Tells fields record ((fields.map Field.name).zip values) := by
  obtain ⟨others, heq, htells⟩ := describes_array_iff.mp h
  rwa [NodeSeq.ofList_injective heq]

theorem Single.isWhole (h : Single node) : node.isWhole := by
  cases h <;> rfl

theorem Tells.permute (h : Tells fields record items) (hperm : items.Perm others) :
    Tells fields record others where
  whole := fun item hitem => h.whole item (hperm.mem_iff.mpr hitem)
  told := by
    intro field hfield
    have htold := h.told field hfield
    have hvalues : (valuesOf field.name items).Perm (valuesOf field.name others) :=
      (hperm.filter _).map _
    generalize valuesOf field.name items = values at htold hvalues
    cases htold with
    | default hdefault =>
        rw [List.perm_nil.mp hvalues.symm]
        exact .default hdefault
    | given hgiven =>
        rw [List.perm_singleton.mp hvalues.symm]
        exact .given hgiven

theorem tells_middle {item : String × Node} :
    Tells fields record (before ++ item :: after) ↔
      Tells fields record (item :: (before ++ after)) :=
  ⟨fun h => h.permute List.perm_middle, fun h => h.permute List.perm_middle.symm⟩

theorem Tells.add (h : Tells fields record items) {name : String}
    (hname : name ∉ fields.map Field.name) (hnode : Single node) :
    Tells fields record ((name, node) :: items) where
  whole := List.forall_mem_cons.mpr ⟨fun _ => hnode.isWhole, h.whole⟩
  told := by
    intro field hfield
    have hne : name ≠ field.name := fun heq => hname (heq ▸ List.mem_map_of_mem hfield)
    rw [valuesOf_cons_of_ne hne]
    exact h.told field hfield

/-- What an object says about a field in one of its members, it says nowhere else. -/
theorem Tells.of_cons (h : Tells fields record ((field.name, node) :: items))
    (hfield : field ∈ fields) :
    field.decode node = .ok (field.value record) ∧ valuesOf field.name items = [] := by
  have htold := h.told field hfield
  rw [valuesOf_cons_self] at htold
  generalize valuesOf field.name items = values at htold
  cases htold with
  | given hgiven => exact ⟨hgiven, rfl⟩

theorem Tells.decode_of_mem (h : Tells fields record items) (hfield : field ∈ fields)
    (hitem : (field.name, node) ∈ items) :
    field.decode node = .ok (field.value record) := by
  obtain ⟨before, after, rfl⟩ := List.append_of_mem hitem
  exact ((tells_middle.mp h).of_cons hfield).1

variable (hnodup : (fields.map Field.name).Nodup)
include hnodup

/-- Only one field is concerned with what stands under its name. -/
theorem Tells.change (h : Tells fields record items) (hfield : field ∈ fields)
    (hwhole : ∀ item ∈ others, item.1 ∉ fields.map Field.name → item.2.isWhole)
    (hkept : ∀ name, name ≠ field.name → valuesOf name others = valuesOf name items)
    (htold : field.Told record (valuesOf field.name others)) :
    Tells fields record others where
  whole := hwhole
  told := by
    intro other hother
    by_cases heq : other.name = field.name
    · obtain rfl := List.inj_on_of_nodup_map hnodup hother hfield heq
      exact htold
    · rw [hkept other.name heq]
      exact h.told other hother

theorem Tells.drop (h : Tells fields record ((field.name, node) :: items))
    (hfield : field ∈ fields) (hdefault : field.IsDefault node) :
    Tells fields record items := by
  obtain ⟨hgiven, hnone⟩ := h.of_cons hfield
  obtain ⟨value, hvalue, hdecode⟩ := hdefault
  rw [Except.ok.inj (hdecode.symm.trans hgiven)] at hvalue
  apply h.change hnodup hfield (List.forall_mem_cons.mp h.whole).2
  · exact fun name hname => (valuesOf_cons_of_ne (Ne.symm hname) node items).symm
  · rw [hnone]
    exact .default hvalue

theorem Tells.replace (h : Tells fields record ((field.name, inner) :: items))
    (hfield : field ∈ fields)
    (hsame : ∀ value, field.decode inner = .ok value → field.decode inner' = .ok value) :
    Tells fields record ((field.name, inner') :: items) := by
  obtain ⟨hgiven, hnone⟩ := h.of_cons hfield
  apply h.change hnodup hfield
  · exact List.forall_mem_cons.mpr ⟨fun hnew => absurd (List.mem_map_of_mem hfield) hnew,
      (List.forall_mem_cons.mp h.whole).2⟩
  · intro name hname
    rw [valuesOf_cons_of_ne (Ne.symm hname), valuesOf_cons_of_ne (Ne.symm hname)]
  · rw [valuesOf_cons_self, hnone]
    exact .given (hsame _ hgiven)

/-- Values listed in the order of the fields: each stands under the name of its field. -/
theorem exists_valuesOf_zip {related : Field ρ → Node → Prop} {values : List Node}
    (h : List.Forall₂ related fields values) (hfield : field ∈ fields) :
    ∃ node, related field node ∧
      valuesOf field.name ((fields.map Field.name).zip values) = [node] := by
  induction h with
  | nil => cases hfield
  | @cons first value others values hrelated hrest ih =>
      obtain ⟨hfirst, hothers⟩ := List.nodup_cons.mp hnodup
      rw [List.map_cons, List.zip_cons_cons]
      rcases List.mem_cons.mp hfield with rfl | hlater
      · have hnew : ∀ item ∈ (others.map Field.name).zip values, item.1 ≠ field.name :=
          fun item hitem heq => hfirst (heq ▸ (List.of_mem_zip hitem).1)
        rw [valuesOf_cons_self, valuesOf_eq_nil hnew]
        exact ⟨value, hrelated, rfl⟩
      · have hne : first.name ≠ field.name := fun heq =>
          hfirst (heq ▸ List.mem_map_of_mem hlater)
        rw [valuesOf_cons_of_ne hne]
        exact ih hothers hlater

omit hnodup in
theorem Field.Listed.decode (h : field.Listed items node)
    (htells : Tells fields record items) (hfield : field ∈ fields) :
    field.decode node = .ok (field.value record) := by
  cases h with
  | given hitem => exact htells.decode_of_mem hfield hitem
  | omitted habsent hdefault =>
      have htold := htells.told field hfield
      rw [valuesOf_eq_nil habsent] at htold
      obtain ⟨value, hvalue, hdecode⟩ := hdefault
      cases htold with
      | default hrecord => rw [hdecode, Option.some.inj (hvalue.symm.trans hrecord)]

theorem Tells.list (h : Tells fields record items) {values : List Node}
    (hvalues : List.Forall₂ (Field.Listed items) fields values) :
    Tells fields record ((fields.map Field.name).zip values) where
  whole := fun _ hitem hnew => absurd (List.of_mem_zip hitem).1 hnew
  told := by
    intro field hfield
    obtain ⟨node, hlisted, heq⟩ := exists_valuesOf_zip hnodup hvalues hfield
    rw [heq]
    exact .given (hlisted.decode h hfield)

theorem Rewrite.describes (h : Rewrite fields node other)
    (hdescribes : Describes fields record node) : Describes fields record other := by
  cases h with
  | permute hperm =>
      exact .object (hdescribes.tells.permute hperm)
  | add hname hnode =>
      exact .object (tells_middle.mpr (hdescribes.tells.add hname hnode))
  | drop hfield hdefault =>
      have htells := tells_middle.mp hdescribes.tells
      exact .object (htells.drop hnodup hfield hdefault)
  | list hvalues =>
      refine .array (Nat.le_of_eq hvalues.length_eq.symm) ?_
      exact hdescribes.tells.list hnodup hvalues

/-- What is held for a field can be changed to what is read as the same. -/
theorem Differ.describes (h : Differ fields field.name inner inner' node other)
    (hfield : field ∈ fields)
    (hsame : ∀ value, field.decode inner = .ok value → field.decode inner' = .ok value)
    (hdescribes : Describes fields record node) : Describes fields record other := by
  cases h with
  | member =>
      have htells := tells_middle.mp hdescribes.tells
      exact .object (tells_middle.mpr (htells.replace hnodup hfield hsame))
  | element hnames hlength =>
      obtain ⟨hfits, htells⟩ := hdescribes.tells_elements
      rw [hnames, List.zip_append hlength.symm, List.zip_cons_cons] at htells
      refine .array (by simpa using hfits) ?_
      rw [hnames, List.zip_append hlength.symm, List.zip_cons_cons]
      exact tells_middle.mpr ((tells_middle.mp htells).replace hnodup hfield hsame)

end Signpost.Decode
