import Signpost.Node
import Signpost.OrderedMap

namespace Signpost

/-- Constraints, bound values, action arguments and query parameters are all of this
kind. -/
abbrev Params := OrderedMap String

def Params.node (params : Params) : Node :=
  .ofMembers (params.toList.map fun (name, value) => (name, .ofText value))

end Signpost
