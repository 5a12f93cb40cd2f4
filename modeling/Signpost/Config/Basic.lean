import Signpost.Definition

namespace Signpost

structure ServerConfig where
  bindAddress : String := "127.0.0.1:8080"
  /-- In seconds. -/
  requestTimeout : UInt64 := 30
deriving DecidableEq

structure ObservabilityConfig where
  logLevel : String := "info"
  json : Bool := false
deriving DecidableEq

structure Config where
  server : ServerConfig := {}
  observability : ObservabilityConfig := {}
  routes : List Definition := []
deriving DecidableEq

end Signpost
