import Signpost.Config.Basic
import Signpost.Json.Writing

namespace Signpost

def ServerConfig.node (server : ServerConfig) : Node :=
  .ofMembers [("bind_address", .ofText server.bindAddress),
    ("request_timeout_secs", .ofNat server.requestTimeout.toNat)]

def ObservabilityConfig.node (observability : ObservabilityConfig) : Node :=
  .ofMembers [("log_level", .ofText observability.logLevel),
    ("json", .bool observability.json)]

def Definition.node (definition : Definition) : Node :=
  .ofMembers [("name", .ofText definition.name),
    ("pattern", .ofText definition.draft.pattern),
    ("action", .ofText definition.draft.action),
    ("constraints", Params.node definition.draft.constraints),
    ("defaults", Params.node definition.draft.values),
    ("args", Params.node definition.draft.args)]

def Config.node (config : Config) : Node :=
  .ofMembers [("server", config.server.node),
    ("observability", config.observability.node),
    ("routes", .ofList (config.routes.map Definition.node))]

def Config.toJson (config : Config) : String := Json.writeCompact config.node

end Signpost
