import Signpost.Proofs.Config.Codec
import Signpost.Proofs.Config.Fields
import Signpost.Proofs.Config.Rewriting
import Signpost.Proofs.Config.Spelled
import Mathlib.Logic.Relation

namespace Signpost.Decode

variable {node other inner inner' whole : Node} {config : Config}

/-- One change to a configuration or to a record in it. -/
inductive Change : Node → Node → Prop
  | config {node other : Node} (h : Rewrite configRecord node other) : Change node other
  | server {inner inner' node other : Node} (h : Rewrite serverRecord inner inner')
      (hdiffer : Differ configRecord "server" inner inner' node other) : Change node other
  | observability {inner inner' node other : Node}
      (h : Rewrite observabilityRecord inner inner')
      (hdiffer : Differ configRecord "observability" inner inner' node other) :
      Change node other
  | route {inner inner' node other : Node} {before after : List Node}
      (h : Rewrite definitionRecord inner inner')
      (hdiffer : Differ configRecord "routes" (.ofList (before ++ inner :: after))
        (.ofList (before ++ inner' :: after)) node other) : Change node other

inductive HasRoute (route : Node) : Node → Prop
  | member {members : MemberSeq} {elements : NodeSeq}
      (hroutes : (some "routes", .array elements) ∈ members.toList)
      (h : route ∈ elements.toList) : HasRoute route (.object members)
  | element {server observability : Node} {elements tail : NodeSeq}
      (h : route ∈ elements.toList) :
      HasRoute route
        (.array (.cons server (.cons observability (.cons (.array elements) tail))))

theorem Rewrite.decodes {σ ρ : Type} {decode : Node → Decoded ρ} {step : Step σ}
    {start : σ} {finish : σ → Option Nat → Decoded ρ} {slots : List (Slot σ ρ)}
    {record : ρ} (hreads : Reads decode step start finish slots)
    (h : Rewrite (slots.map (·.toField)) inner inner')
    (hdecode : decode inner = .ok record) :
    decode inner' = .ok record := by
  have hnodup : ((slots.map (·.toField)).map Field.name).Nodup := by
    rw [List.map_map]
    exact hreads.independent.nodup
  exact hreads.decode_iff.mpr (h.describes hnodup (hreads.decode_iff.mp hdecode))

theorem routesFrom_replace {before after : List Node}
    (hsame : ∀ definition, route .json inner = .ok definition →
      route .json inner' = .ok definition) {definitions : List Definition}
    (h : routesFrom .json (.ofList (before ++ inner :: after)) = .ok definitions) :
    routesFrom .json (.ofList (before ++ inner' :: after)) = .ok definitions := by
  induction before generalizing definitions with
  | nil =>
      obtain ⟨first, hfirst, hrest⟩ := exists_of_bind_ok h
      rw [List.nil_append, NodeSeq.ofList, routesFrom, hsame first hfirst]
      exact hrest
  | cons node before ih =>
      obtain ⟨first, hfirst, hrest⟩ := exists_of_bind_ok h
      obtain ⟨others, hothers, hresult⟩ := exists_of_bind_ok hrest
      rw [List.cons_append, NodeSeq.ofList, routesFrom, hfirst, ok_bind, ih hothers]
      exact hresult

theorem Differ.decodes {slot : Slot ConfigSlots Config} (hslot : slot ∈ configSlots)
    (h : Differ configRecord slot.name inner inner' node other)
    (hsame : ∀ value, slot.decode inner = .ok value → slot.decode inner' = .ok value)
    (hdecode : Decode.config .json node = .ok config) :
    Decode.config .json other = .ok config := by
  have hdescribes := config_reads.decode_iff.mp hdecode
  have hfield : slot.toField ∈ configRecord := List.mem_map_of_mem hslot
  exact config_reads.decode_iff.mpr
    (Differ.describes (by decide) h hfield hsame hdescribes)

theorem Change.decodes (h : Change node other)
    (hdecode : Decode.config .json node = .ok config) :
    Decode.config .json other = .ok config := by
  have hserver : serverSlot ∈ configSlots := by simp [configSlots]
  have hobservability : observabilitySlot ∈ configSlots := by simp [configSlots]
  have hroutes : routesSlot ∈ configSlots := by simp [configSlots]
  cases h with
  | config h => exact h.decodes config_reads hdecode
  | server h hdiffer =>
      exact hdiffer.decodes hserver (fun _ => h.decodes server_reads) hdecode
  | observability h hdiffer =>
      exact hdiffer.decodes hobservability (fun _ => h.decodes observability_reads) hdecode
  | route h hdiffer =>
      exact hdiffer.decodes hroutes
        (fun _ => routesFrom_replace fun _ => h.decodes route_reads) hdecode

theorem decodes_of_changes (h : Relation.ReflTransGen Change node other)
    (hdecode : Decode.config .json node = .ok config) :
    Decode.config .json other = .ok config := by
  induction h with
  | refl => exact hdecode
  | tail _ hchange ih => exact hchange.decodes ih

theorem route_lacking {members : MemberSeq} {name : String}
    (hname : name ∈ ["name", "pattern", "action"])
    (h : ∀ member ∈ members.toList, member.1 ≠ some name) (definition : Definition) :
    route .json (.object members) ≠ .ok definition := by
  intro hdecode
  obtain ⟨items, rfl, htells⟩ :=
    describes_object_iff.mp (route_reads.decode_iff.mp hdecode)
  obtain ⟨slot, hslot, rfl, hdefault⟩ :
      ∃ slot ∈ routeSlots, slot.name = name ∧ slot.default = none := by
    simp only [List.mem_cons, List.not_mem_nil, or_false] at hname
    rcases hname with rfl | rfl | rfl <;> simp [routeSlots]
  have habsent : ∀ item ∈ items, item.1 ≠ slot.name := by
    intro item hitem heq
    refine h (some item.1, item.2) ?_ (congrArg some heq)
    rw [MemberSeq.toList_ofList]
    exact List.mem_map_of_mem hitem
  have htold := htells.told slot.toField (List.mem_map_of_mem hslot)
  rw [valuesOf_eq_nil habsent] at htold
  cases htold with
  | default hvalue =>
      rw [hdefault] at hvalue
      cases hvalue

theorem decodes_of_routesFrom : ∀ {elements : NodeSeq} {definitions : List Definition},
    routesFrom .json elements = .ok definitions → ∀ node ∈ elements.toList,
      ∃ definition, route .json node = .ok definition := by
  intro elements definitions h node hnode
  cases elements with
  | nil => cases hnode
  | fault => cases hnode
  | cons head tail =>
      obtain ⟨first, hfirst, hrest⟩ := exists_of_bind_ok h
      obtain ⟨others, hothers, -⟩ := exists_of_bind_ok hrest
      rcases List.mem_cons.mp hnode with rfl | hlater
      · exact ⟨first, hfirst⟩
      · exact decodes_of_routesFrom hothers node hlater

theorem HasRoute.decodes (h : HasRoute inner whole)
    (hdecode : Decode.config .json whole = .ok config) :
    ∃ definition, route .json inner = .ok definition := by
  have hroutes : routesSlot.toField ∈ configRecord := by simp [configRecord, configSlots]
  have hdescribes := config_reads.decode_iff.mp hdecode
  cases h with
  | member hmember hroute =>
      obtain ⟨items, rfl, htells⟩ := describes_object_iff.mp hdescribes
      rw [MemberSeq.toList_ofList] at hmember
      obtain ⟨⟨name, node⟩, hitem, heq⟩ := List.mem_map.mp hmember
      cases heq
      exact decodes_of_routesFrom (htells.decode_of_mem hroutes hitem) inner hroute
  | @element server observability elements tail hroute =>
      obtain ⟨values, heq, -, htells⟩ := describes_array_iff.mp hdescribes
      have hvalues := congrArg NodeSeq.toList heq
      rw [NodeSeq.toList_ofList] at hvalues
      have hitem : ("routes", Node.array elements) ∈
          (configRecord.map Field.name).zip values := by
        rw [← hvalues]
        exact List.mem_cons_of_mem _ (List.mem_cons_of_mem _ List.mem_cons_self)
      exact decodes_of_routesFrom (htells.decode_of_mem hroutes hitem) inner hroute

/-- What a configuration is read from spells a tree, and every text of the tree rewritten,
a change at a time, is read as the same configuration.  A text with a route that lacks what
has no default is not read at all. -/
theorem unchanged_by_rewriting :
    (∀ (text : String) (config : Config), configFromJson text = .ok config →
      (∃ node, Json.Document node text) ∧
      ∀ (other : String) (node node' : Node), Json.Document node text →
        Relation.ReflTransGen Change node node' → Json.Document node' other →
        configFromJson other = .ok config) ∧
    ∀ (members : MemberSeq) (name : String), name ∈ ["name", "pattern", "action"] →
      (∀ member ∈ members.toList, member.1 ≠ some name) →
      (∃ cause, route .json (.object members) = .error cause) ∧
      ∀ (text : String) (node : Node), Json.Document node text →
        HasRoute (.object members) node → ∃ cause, configFromJson text = .error cause := by
  constructor
  · intro text config hread
    obtain ⟨found, hspelled, -⟩ := (fromJson_eq_ok_iff config_needsWhole).mp hread
    refine ⟨⟨found, hspelled⟩, fun other node node' hdocument hchanges hdocument' => ?_⟩
    rw [configFromJson, fromJson_of_read hdocument.read] at hread
    rw [configFromJson, fromJson_of_read hdocument'.read]
    exact decodes_of_changes hchanges hread
  · intro members name hname hlacking
    refine ⟨?_, fun text node hdocument hroute => ?_⟩
    · cases hresult : route .json (.object members) with
      | error cause => exact ⟨cause, rfl⟩
      | ok definition => exact absurd hresult (route_lacking hname hlacking definition)
    · rw [configFromJson, fromJson_of_read hdocument.read]
      cases hresult : Decode.config .json node with
      | error cause => exact ⟨cause, rfl⟩
      | ok config =>
          obtain ⟨definition, hdefinition⟩ := hroute.decodes hresult
          exact absurd hdefinition (route_lacking hname hlacking definition)

/-- A route as an array, a setting left out and a remark added, one after another; and a
route without an action. -/
theorem unchanged_by_rewriting_thrice :
    let text :=
      "\x7b\"routes\":[\x7b\"name\":\"a\",\"action\":\"A\",\"pattern\":\"/\"\x7d]," ++
      "\"server\":\x7b\"request_timeout_secs\":30\x7d\x7d"
    let other :=
      "\x7b\"note\":null,\"routes\":[[\"a\",\"/\",\"A\",\x7b\x7d,\x7b\x7d,\x7b\x7d]]," ++
      "\"server\":\x7b\x7d\x7d"
    let config : Config := { routes := [⟨"a", { pattern := "/", action := "A" }⟩] }
    let lacking := "\x7b\"routes\":[\x7b\"name\":\"a\",\"pattern\":\"/\"\x7d]\x7d"
    (∃ node node', Json.Document node text ∧ Relation.ReflTransGen Change node node' ∧
      Json.Document node' other) ∧
    configFromJson text = .ok config ∧ configFromJson other = .ok config ∧
    ∃ cause, configFromJson lacking = .error cause := by
  intro text other config lacking
  let members :=
    [("name", Node.ofText "a"), ("action", .ofText "A"), ("pattern", .ofText "/")]
  let values := [Node.ofText "a", .ofText "/", .ofText "A", .ofMembers [], .ofMembers [],
    .ofMembers []]
  let server := [("request_timeout_secs", Node.ofNat 30)]
  let first := Node.ofMembers [("routes", .ofList [.ofMembers members]),
    ("server", .ofMembers server)]
  let second := Node.ofMembers
    [("routes", .ofList [.ofList values]), ("server", .ofMembers server)]
  let third := Node.ofMembers
    [("routes", .ofList [.ofList values]), ("server", .ofMembers [])]
  let last := Node.ofMembers [("note", .null), ("routes", .ofList [.ofList values]),
    ("server", .ofMembers [])]
  let bad := Node.ofMembers [("name", .ofText "a"), ("pattern", .ofText "/")]
  have hlist : Rewrite definitionRecord (.ofMembers members) (.ofList values) := by
    refine .list (.cons (.given ?_) (.cons (.given ?_) (.cons (.given ?_) (.cons
      (.omitted ?_ ⟨_, rfl, rfl⟩) (.cons (.omitted ?_ ⟨_, rfl, rfl⟩)
      (.cons (.omitted ?_ ⟨_, rfl, rfl⟩) .nil))))))
    all_goals simp [members]
  have hdrop : Rewrite serverRecord (.ofMembers server) (.ofMembers []) := by
    have htimeout : serverSlots[1].toField ∈ serverRecord := by
      simp [serverRecord, serverSlots]
    exact @Rewrite.drop _ _ [] [] _ _ htimeout ⟨_, rfl, rfl⟩
  have hremark : Rewrite configRecord third last :=
    @Rewrite.add _ _ [] _ _ _ (by decide : "note" ∉ configRecord.map Field.name) .null
  have hchanges : Relation.ReflTransGen Change first last := by
    refine .tail (.tail (.tail .refl (?_ : Change first second))
      (?_ : Change second third)) ?_
    · exact @Change.route _ _ _ _ [] [] hlist (@Differ.member _ _ _ _ _ [] _)
    · exact .server hdrop (@Differ.member _ _ _ _ _ [_] [])
    · exact .config hremark
  have hdocument : Json.Document first text :=
    Json.document_writeCompact (by decide : first.isExact)
  have hdocument' : Json.Document last other :=
    Json.document_writeCompact (by decide : last.isExact)
  have hlacking : Json.Document (.ofMembers [("routes", .ofList [bad])]) lacking :=
    Json.document_writeCompact
      (by decide : (Node.ofMembers [("routes", .ofList [bad])]).isExact)
  have hdecode : configFromJson text = .ok config := by
    rw [configFromJson, fromJson_of_read hdocument.read]
    rfl
  obtain ⟨hunchanged, hrefused⟩ := unchanged_by_rewriting
  refine ⟨⟨first, last, hdocument, hchanges, hdocument'⟩, hdecode,
    (hunchanged text config hdecode).2 other first last hdocument hchanges hdocument', ?_⟩
  have haction := hrefused (.ofList [("name", .ofText "a"), ("pattern", .ofText "/")])
    "action" (by decide) (by simp [MemberSeq.ofList, MemberSeq.toList])
  exact haction.2 lacking _ hlacking (.member List.mem_cons_self List.mem_cons_self)

end Signpost.Decode
