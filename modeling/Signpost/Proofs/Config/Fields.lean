import Signpost.Proofs.Config.Records

namespace Signpost.Decode

def serverSlots : List (Slot ServerSlots ServerConfig) := [
  { name := "bind_address", Value := String, decode := text, value := (·.bindAddress),
    default := some "127.0.0.1:8080", get := (·.bindAddress),
    set := fun slots value => { slots with bindAddress := value } },
  { name := "request_timeout_secs", Value := UInt64, decode := word,
    value := (·.requestTimeout), default := some 30, get := (·.requestTimeout),
    set := fun slots value => { slots with requestTimeout := value } }]

def observabilitySlots : List (Slot ObservabilitySlots ObservabilityConfig) := [
  { name := "log_level", Value := String, decode := text, value := (·.logLevel),
    default := some "info", get := (·.logLevel),
    set := fun slots value => { slots with logLevel := value } },
  { name := "json", Value := Bool, decode := bool, value := (·.json),
    default := some false, get := (·.json),
    set := fun slots value => { slots with json := value } }]

def routeSlots : List (Slot RouteSlots Definition) := [
  { name := "name", Value := String, decode := text, value := (·.name),
    default := none, get := (·.name),
    set := fun slots value => { slots with name := value } },
  { name := "pattern", Value := String, decode := text, value := (·.draft.pattern),
    default := none, get := (·.pattern),
    set := fun slots value => { slots with pattern := value } },
  { name := "action", Value := String, decode := text, value := (·.draft.action),
    default := none, get := (·.action),
    set := fun slots value => { slots with action := value } },
  { name := "constraints", Value := Params, decode := params,
    value := (·.draft.constraints), default := some .empty, get := (·.constraints),
    set := fun slots value => { slots with constraints := value } },
  { name := "defaults", Value := Params, decode := params, value := (·.draft.values),
    default := some .empty, get := (·.values),
    set := fun slots value => { slots with values := value } },
  { name := "args", Value := Params, decode := params, value := (·.draft.args),
    default := some .empty, get := (·.args),
    set := fun slots value => { slots with args := value } }]

def serverSlot : Slot ConfigSlots Config where
  name := "server"
  Value := ServerConfig
  decode := server .json
  value := (·.server)
  default := some {}
  get := (·.server)
  set := fun slots value => { slots with server := value }

def observabilitySlot : Slot ConfigSlots Config where
  name := "observability"
  Value := ObservabilityConfig
  decode := observability .json
  value := (·.observability)
  default := some {}
  get := (·.observability)
  set := fun slots value => { slots with observability := value }

def routesSlot : Slot ConfigSlots Config where
  name := "routes"
  Value := List Definition
  decode := routes .json
  value := (·.routes)
  default := some []
  get := (·.routes)
  set := fun slots value => { slots with routes := value }

def configSlots : List (Slot ConfigSlots Config) :=
  [serverSlot, observabilitySlot, routesSlot]

theorem server_reads : Reads (server .json) serverStep {} (fun slots _ => .ok slots.finish)
    serverSlots where
  independent := {
    nodup := by decide
    known := by simp [serverSlots, serverStep]
    unknown := by
      intro name hname slots node
      simp only [serverSlots, List.map_cons, List.mem_cons, not_or] at hname
      rw [serverStep]
      · exact hname.1
      · exact hname.2.1
    get_set := by simp [serverSlots]
    get_set_other := by simp [serverSlots] }
  empty := by simp [serverSlots]
  finishes := by
    intro slots _ config
    obtain ⟨address, timeout⟩ := config
    simp [serverSlots, ServerSlots.finish, Option.getD_eq_iff]
  decodes := ⟨"ServerConfig", fun _ => rfl⟩

theorem observability_reads : Reads (observability .json) observabilityStep {}
    (fun slots _ => .ok slots.finish) observabilitySlots where
  independent := {
    nodup := by decide
    known := by simp [observabilitySlots, observabilityStep]
    unknown := by
      intro name hname slots node
      simp only [observabilitySlots, List.map_cons, List.mem_cons, not_or] at hname
      rw [observabilityStep]
      · exact hname.1
      · exact hname.2.1
    get_set := by simp [observabilitySlots]
    get_set_other := by simp [observabilitySlots] }
  empty := by simp [observabilitySlots]
  finishes := by
    intro slots _ config
    obtain ⟨level, json⟩ := config
    simp [observabilitySlots, ObservabilitySlots.finish, Option.getD_eq_iff]
  decodes := ⟨"ObservabilityConfig", fun _ => rfl⟩

theorem need_iff {β : Type} {count : Option Nat} {field : String} {slot : Option β}
    {value : β} :
    need count field slot = .ok value ↔ slot = some value := by
  cases slot with
  | some found => simp [need]
  | none => cases count <;> simp [need]

theorem route_reads : Reads (route .json) routeStep {} RouteSlots.finish routeSlots where
  independent := {
    nodup := by decide
    known := by simp [routeSlots, routeStep]
    unknown := by
      intro name hname slots node
      simp only [routeSlots, List.map_cons, List.mem_cons, not_or] at hname
      obtain ⟨hname, hpattern, haction, hconstraints, hvalues, hargs, -⟩ := hname
      rw [routeStep] <;> assumption
    get_set := by simp [routeSlots]
    get_set_other := by simp [routeSlots] }
  empty := by simp [routeSlots]
  finishes := by
    intro slots count definition
    obtain ⟨name, pattern, action, constraints, values, args⟩ := definition
    simp [routeSlots, RouteSlots.finish, bind_eq_ok_iff, need_iff, Option.getD_eq_iff]
  decodes := ⟨routeRecord, fun _ => rfl⟩

theorem config_reads :
    Reads (config .json) (configStep .json) {} (fun slots _ => .ok slots.finish)
    configSlots where
  independent := {
    nodup := by decide
    known := by simp [configSlots, serverSlot, observabilitySlot, routesSlot, configStep]
    unknown := by
      intro name hname slots node
      simp only [configSlots, serverSlot, observabilitySlot, routesSlot, List.map_cons,
        List.mem_cons, not_or] at hname
      rw [configStep]
      · exact hname.1
      · exact hname.2.1
      · exact hname.2.2.1
    get_set := by simp [configSlots, serverSlot, observabilitySlot, routesSlot]
    get_set_other := by simp [configSlots, serverSlot, observabilitySlot, routesSlot] }
  empty := by simp [configSlots, serverSlot, observabilitySlot, routesSlot]
  finishes := by
    intro slots _ config
    obtain ⟨server, observability, routes⟩ := config
    simp [configSlots, serverSlot, observabilitySlot, routesSlot, ConfigSlots.finish,
      Option.getD_eq_iff]
  decodes := ⟨"RouterConfig", fun _ => rfl⟩

def serverRecord : List (Field ServerConfig) := serverSlots.map (·.toField)

def observabilityRecord : List (Field ObservabilityConfig) :=
  observabilitySlots.map (·.toField)

def definitionRecord : List (Field Definition) := routeSlots.map (·.toField)

def configRecord : List (Field Config) := configSlots.map (·.toField)

end Signpost.Decode
