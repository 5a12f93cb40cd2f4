namespace Signpost

inductive RegexError
  | tooMuchNesting
  | sizeLimit
  | groupUnclosed
  | groupUnopened
  | escapeAtEnd
  | escapeUnrecognized
  | backreference
  | unicodeClass
  | hexAtEnd
  | hexFixedAtEnd
  | hexFixedDigit
  | hexFixedInvalid
  | hexBraceAtEnd
  | hexBraceDigit
  | hexBraceEmpty
  | hexBraceInvalid
  | specialWordOrRepeatAtEnd
  | specialWordUnclosed
  | specialWordUnrecognized
  | decimalEmpty
  | decimalInvalid
  | repeatNothing
  | countNothing
  | countUnclosed
  | countUnclosedAfterLeast
  | countUnclosedAfterComma
  | countUnclosedAfterMost
  | countUnfinished
  | countReversed
  | lookAround
  | groupNameAtEnd
  | groupNameUnclosed
  | groupNameInvalid
  | groupNameEmpty
  | groupNameTwice
  | questionAtEnd
  | flagsEmpty
  | flagsAtEnd
  | flagTwice
  | flagUnrecognized
  | flagNegationTwice
  | flagNegationLast
  | classUnclosed
  | classUnclosedAfterNegation
  | classUnclosedAfterItem
  | classUnclosedAfterDash
  | classUnclosedAfterBracket
  | classNested
  | classIntersection
  | classDifference
  | classSymmetricDifference
  | classEscape
  | classRangeEnds
  | classRangeReversed
deriving DecidableEq, Repr

def RegexError.message : RegexError → String
  | .tooMuchNesting => "pattern has too much nesting"
  | .sizeLimit => "compiled regex exceeded size limit"
  | .groupUnclosed => "found open group without closing ')'"
  | .groupUnopened => "found closing ')' without matching '('"
  | .escapeAtEnd =>
      "saw start of escape sequence, but saw end of pattern before it finished"
  | .escapeUnrecognized => "unrecognized escape sequence"
  | .backreference => "backreferences are not supported"
  | .unicodeClass => "Unicode character classes are not supported"
  | .hexAtEnd => "expected hexadecimal number, but saw end of pattern first"
  | .hexFixedAtEnd =>
      "expected fixed length hexadecimal number, but saw end of pattern first"
  | .hexFixedDigit => "expected fixed length hexadecimal number, but got non-hex digit"
  | .hexFixedInvalid => "got invalid fixed length hexadecimal number"
  | .hexBraceAtEnd =>
      "expected hexadecimal number, but saw end of pattern before closing brace"
  | .hexBraceDigit => "expected hexadecimal number in braces, but got non-hex digit"
  | .hexBraceEmpty => "expected hexadecimal number in braces, but got no digits"
  | .hexBraceInvalid => "got invalid hexadecimal number in braces"
  | .specialWordOrRepeatAtEnd =>
      "found start of special word boundary or repetition without an end"
  | .specialWordUnclosed =>
      "special word boundary assertion is unclosed or has an invalid character"
  | .specialWordUnrecognized => "special word boundary assertion is unrecognized"
  | .decimalEmpty => "expected decimal number, but found no digits"
  | .decimalInvalid => "got invalid decimal number"
  | .repeatNothing => "uncounted repetition operator must be applied to a sub-expression"
  | .countNothing => "counted repetition operator must be applied to a sub-expression"
  | .countUnclosed => "found unclosed counted repetition operator"
  | .countUnclosedAfterLeast => "found incomplete and unclosed counted repetition operator"
  | .countUnclosedAfterComma =>
      "found counted repetition operator with a comma that is unclosed"
  | .countUnclosedAfterMost => "found counted repetition with min and max that is unclosed"
  | .countUnfinished =>
      "expected closing brace for counted repetition, but got something else"
  | .countReversed => "found counted repetition with a min bigger than its max"
  | .lookAround => "look-around is not supported"
  | .groupNameAtEnd => "expected capture group name, but got end of pattern"
  | .groupNameUnclosed => "expected end of capture group name, but got end of pattern"
  | .groupNameInvalid => "invalid group name"
  | .groupNameEmpty => "empty capture group names are not allowed"
  | .groupNameTwice => "duplicate capture group name"
  | .questionAtEnd => "expected closing ')', but got end of pattern"
  | .flagsEmpty => "empty flag directive '(?)' is not allowed"
  | .flagsAtEnd => "expected ':' or ')' to end inline flags, but got end of pattern"
  | .flagTwice => "duplicate inline flag is not allowed"
  | .flagUnrecognized => "unrecognized inline flag"
  | .flagNegationTwice => "inline flag negation cannot be repeated"
  | .flagNegationLast => "inline flags cannot end with negation directive"
  | .classUnclosed => "found unclosed character class"
  | .classUnclosedAfterNegation => "negated character class has no closing bracket"
  | .classUnclosedAfterItem => "non-empty character class has no closing bracket"
  | .classUnclosedAfterDash =>
      "non-empty character class has no closing bracket after dash"
  | .classUnclosedAfterBracket =>
      "character class begins with literal ']' but has no closing bracket"
  | .classNested => "nested character classes are not supported"
  | .classIntersection => "character class intersection is not supported"
  | .classDifference => "character class difference is not supported"
  | .classSymmetricDifference => "character class symmetric difference is not supported"
  | .classEscape => "invalid escape sequence in character class"
  | .classRangeEnds => "character class ranges must start and end with a single character"
  | .classRangeReversed => "invalid range in character class"

end Signpost
