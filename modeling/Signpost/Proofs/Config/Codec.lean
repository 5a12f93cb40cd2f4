import Signpost.Config.Encode
import Signpost.Config.Json
import Signpost.Config.Load
import Signpost.Proofs.Except
import Signpost.Proofs.Json.Reading
import Signpost.Proofs.OrderedMap

namespace Signpost

namespace Decode

variable {α : Type}

/-- What is read in the end is the tree that the text spells. -/
theorem fromJson_of_read {decode : Node → Decoded α} {node : Node} {text : String}
    (h : Json.read text = ⟨node, true⟩) : fromJson decode text = decode node := by
  rw [fromJson, h]
  cases decode node <;> rfl

/-- A reader undoes a way of writing values, and JSON keeps the trees that are written. -/
structure Undoes (decode : Node → Decoded α) (encode : α → Node) : Prop where
  exact : ∀ value, (encode value).isExact
  decodes : ∀ value, decode (encode value) = .ok value

theorem Undoes.fromJson {decode : Node → Decoded α} {encode : α → Node}
    (h : Undoes decode encode) (value : α) :
    fromJson decode (Json.writeCompact (encode value)) = .ok value := by
  rw [fromJson_of_read (Json.read_writeCompact (h.exact value)), h.decodes]

theorem text_undoes : Undoes text .ofText where
  exact := fun _ => rfl
  decodes := fun _ => rfl

theorem bool_undoes : Undoes bool .bool where
  exact := fun _ => rfl
  decodes := fun _ => rfl

theorem word_undoes : Undoes word fun value => .ofNat value.toNat where
  exact := by
    intro value
    have hvalue : value.toNat < wordLimit := value.toNat_lt
    rw [Node.ofNat, Node.isExact, Option.any_some, Number.isExact_integer_iff]
    omega
  decodes := by
    intro value
    have hvalue : value.toNat < wordLimit := value.toNat_lt
    rw [Node.ofNat, word, if_pos (by omega), Int.toNat_natCast, UInt64.ofNat_toNat]

/-! Parameters.  Their names differ, so that every one of them is inserted behind the
others. -/

theorem paramsFrom_ofList (map : Params) (pairs : List (String × String)) :
    paramsFrom map (.ofList (pairs.map fun pair => (pair.1, .ofText pair.2))) =
      .ok (map.insertMany pairs) := by
  induction pairs generalizing map with
  | nil => rfl
  | cons pair rest ih => exact ih (map.insert pair.1 pair.2)

theorem params_undoes : Undoes params Params.node where
  exact := fun map => Node.isExact_texts map.toList
  decodes := by
    intro map
    have hlist : OrderedMap.ofList map.toList = map :=
      OrderedMap.ext (OrderedMap.toList_ofList map.nodup)
    exact (paramsFrom_ofList OrderedMap.empty map.toList).trans (congrArg Except.ok hlist)

theorem once_ok {decode : Node → Decoded α} {encode : α → Node} (h : Undoes decode encode)
    (field : String) (value : α) :
    once field none decode (encode value) = .ok (some value) := by
  rw [once, h.decodes]
  rfl

theorem members_cons {step : Step α} {slots next : α} {name : String} {value : Node}
    (h : step slots name value = .ok next) (rest : List (String × Node)) :
    members step slots (.ofList ((name, value) :: rest)) =
      members step next (.ofList rest) := by
  rw [MemberSeq.ofList, members, key, ok_bind, h, ok_bind]

theorem record_ofMembers {step : Step α} {slots final : α} {fields : List (String × Node)}
    (h : members step slots (.ofList fields) = .ok final) (dialect : Dialect)
    (name : String) (order : List String) :
    record dialect name order step slots (.ofMembers fields) = .ok (final, none) := by
  rw [Node.ofMembers, record, h]
  rfl

theorem server_undoes (dialect : Dialect) : Undoes (server dialect) ServerConfig.node where
  exact := by
    intro config
    apply Node.isExact_ofMembers
    simp [text_undoes.exact, word_undoes.exact]
  decodes := by
    intro config
    have hfields : members serverStep {} (.ofList
        [("bind_address", .ofText config.bindAddress),
          ("request_timeout_secs", .ofNat config.requestTimeout.toNat)]) =
        .ok ⟨some config.bindAddress, some config.requestTimeout⟩ := by
      rw [members_cons (by rw [serverStep, once_ok text_undoes]; rfl),
        members_cons (by rw [serverStep, once_ok word_undoes]; rfl)]
      rfl
    rw [server, ServerConfig.node, record_ofMembers hfields]
    rfl

theorem observability_undoes (dialect : Dialect) :
    Undoes (observability dialect) ObservabilityConfig.node where
  exact := by
    intro config
    apply Node.isExact_ofMembers
    simp [text_undoes.exact, bool_undoes.exact]
  decodes := by
    intro config
    have hfields : members observabilityStep {} (.ofList
        [("log_level", .ofText config.logLevel), ("json", .bool config.json)]) =
        .ok ⟨some config.logLevel, some config.json⟩ := by
      rw [members_cons (by rw [observabilityStep, once_ok text_undoes]; rfl),
        members_cons (by rw [observabilityStep, once_ok bool_undoes]; rfl)]
      rfl
    rw [observability, ObservabilityConfig.node, record_ofMembers hfields]
    rfl

theorem route_undoes (dialect : Dialect) : Undoes (route dialect) Definition.node where
  exact := by
    intro definition
    apply Node.isExact_ofMembers
    simp [text_undoes.exact, params_undoes.exact]
  decodes := by
    intro definition
    obtain ⟨name, pattern, action, constraints, values, args⟩ := definition
    have hfields : members routeStep {} (.ofList [("name", .ofText name),
        ("pattern", .ofText pattern), ("action", .ofText action),
        ("constraints", Params.node constraints), ("defaults", Params.node values),
        ("args", Params.node args)]) =
        .ok ⟨some name, some pattern, some action, some constraints, some values,
          some args⟩ := by
      rw [members_cons (by rw [routeStep, once_ok text_undoes]; rfl),
        members_cons (by rw [routeStep, once_ok text_undoes]; rfl),
        members_cons (by rw [routeStep, once_ok text_undoes]; rfl),
        members_cons (by rw [routeStep, once_ok params_undoes]; rfl),
        members_cons (by rw [routeStep, once_ok params_undoes]; rfl),
        members_cons (by rw [routeStep, once_ok params_undoes]; rfl)]
      rfl
    rw [route, Definition.node, record_ofMembers hfields]
    rfl

theorem routesFrom_ofList (dialect : Dialect) (definitions : List Definition) :
    routesFrom dialect (.ofList (definitions.map Definition.node)) = .ok definitions := by
  induction definitions with
  | nil => rfl
  | cons definition rest ih =>
      rw [List.map_cons, NodeSeq.ofList, routesFrom, (route_undoes dialect).decodes,
        ok_bind, ih]
      rfl

theorem routes_undoes (dialect : Dialect) :
    Undoes (routes dialect) fun definitions =>
      .ofList (definitions.map Definition.node) where
  exact := by
    intro definitions
    apply Node.isExact_ofList
    intro element helement
    obtain ⟨definition, -, rfl⟩ := List.mem_map.mp helement
    exact (route_undoes dialect).exact definition
  decodes := routesFrom_ofList dialect

theorem config_undoes (dialect : Dialect) : Undoes (config dialect) Config.node where
  exact := by
    intro config
    apply Node.isExact_ofMembers
    simp [(server_undoes dialect).exact, (observability_undoes dialect).exact,
      (routes_undoes dialect).exact config.routes]
  decodes := by
    intro config
    have hfields : members (configStep dialect) {} (.ofList
        [("server", config.server.node), ("observability", config.observability.node),
          ("routes", .ofList (config.routes.map Definition.node))]) =
        .ok ⟨some config.server, some config.observability, some config.routes⟩ := by
      rw [members_cons (by rw [configStep, once_ok (server_undoes dialect)]; rfl),
        members_cons (by rw [configStep, once_ok (observability_undoes dialect)]; rfl),
        members_cons (by rw [configStep, once_ok (routes_undoes dialect)]; rfl)]
      rfl
    rw [Decode.config, Config.node, record_ofMembers hfields]
    rfl

end Decode

namespace Config

/-- Every configuration comes back from JSON as it was, and what is accepted in TOML is
written in JSON again as it was written before. -/
theorem json_round_trip :
    (∀ config : Config, Decode.configFromJson config.toJson = .ok config) ∧
      ∀ text config, parse text = .ok config →
        ∃ again, Decode.configFromJson config.toJson = .ok again ∧
          again.toJson = config.toJson := by
  have hback : ∀ config : Config, Decode.configFromJson config.toJson = .ok config :=
    (Decode.config_undoes .json).fromJson
  exact ⟨hback, fun text config _ => ⟨config, hback config, rfl⟩⟩

/-- Arguments out of the order of their names, and a character that JSON escapes. -/
theorem json_round_trip_escaped :
    ∃ config : Config,
      parse "routes=[[\"a\\tb\",\"/\",\"A\",\x7b\x7d,\x7b\x7d,\x7by=1,x=\"\"\x7d]]" =
        .ok config ∧
      (config.routes.map fun definition =>
          (definition.name, definition.draft.args.toList)) =
        [("a\tb", [("y", "1"), ("x", "")])] ∧
      ∃ again, Decode.configFromJson config.toJson = .ok again ∧
        again.toJson = config.toJson := by
  let text := "routes=[[\"a\\tb\",\"/\",\"A\",\x7b\x7d,\x7b\x7d,\x7by=1,x=\"\"\x7d]]"
  have hroutes : (match parse text with
      | .ok config => config.routes.map fun definition =>
          (definition.name, definition.draft.args.toList)
      | .error _ => []) = [("a\tb", [("y", "1"), ("x", "")])] := by decide +kernel
  cases hparse : parse text with
  | error cause =>
      rw [hparse] at hroutes
      cases hroutes
  | ok config =>
      rw [hparse] at hroutes
      exact ⟨config, rfl, hroutes, json_round_trip.2 text config hparse⟩

end Config

end Signpost
