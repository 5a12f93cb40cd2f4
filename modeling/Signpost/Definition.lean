import Signpost.Route

namespace Signpost

structure Definition where
  name : String
  draft : RouteDraft
deriving DecidableEq

end Signpost
