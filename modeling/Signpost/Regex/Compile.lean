import Signpost.Regex.Budget
import Signpost.Regex.Parse
import Signpost.Regex.Search

namespace Signpost.Regex

def compile (text : List Char) : Except RegexError Regex := do
  let regex ← parse text
  if sizeLimit < regex.totalBytes then .error .sizeLimit else pure regex

end Signpost.Regex
