import Signpost.Cli.Directory
import Signpost.Config.Encode
import Signpost.Config.Json
import Signpost.Http.Answer
import Signpost.Main
import Signpost.Proofs.Cli.Agreement
import Signpost.Proofs.Config.Codec
import Signpost.Proofs.Config.Problems
import Signpost.Proofs.Config.Registration
import Signpost.Proofs.Pattern.Division
import Signpost.Proofs.Pattern.Longest
import Signpost.Proofs.Pattern.Placeholders
import Signpost.Proofs.Pattern.Refusal
import Signpost.Proofs.Pattern.Slashes
import Signpost.Proofs.Route.Addresses
import Signpost.Proofs.Route.Resolution
import Signpost.Proofs.Route.Changes
import Signpost.Proofs.History
import Signpost.Proofs.Router.Finding
import Signpost.Proofs.Router.Table
import Signpost.Proofs.Overlay
import Signpost.Proofs.Params
import Signpost.Proofs.Router.Serving
import Signpost.Proofs.Router.Slashes
import Signpost.Proofs.Http.Answer
import Signpost.Proofs.Http.SamePath
import Signpost.Proofs.Http.Body
import Signpost.Proofs.Route.Rebuilding
import Signpost.Proofs.Route.Rematching
import Signpost.Proofs.Route.Slashes
import Signpost.Proofs.Json.Grammar
import Signpost.Proofs.Config.Parameters
import Signpost.Proofs.Config.Fields
import Signpost.Proofs.Config.Rewriting
import Signpost.Proofs.Config.Rewritten
import Signpost.Proofs.Config.Spelled
import Signpost.Proofs.Http.Identifier
import Signpost.Proofs.Route.Unused
