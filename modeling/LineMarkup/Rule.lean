import LineMarkup.Segment

/-!
# Named matchers

The fifteen matchers that can be asked for by name.
-/

namespace LineMarkup

/-- The name of a matcher. -/
inductive Rule where
  | char
  | boundaryChar
  | anyToken
  | boldAsterisk
  | boldUnderscore
  | bold
  | italicAsterisk
  | italicUnderscore
  | italic
  | strikethrough
  | code
  | link
  | style
  | segment
  | markdown
  deriving DecidableEq, Repr, Inhabited

namespace Rule

def matcher : Rule → Matcher
  | .char => Matcher.char
  | .boundaryChar => Matcher.boundaryChar
  | .anyToken => Matcher.anyToken
  | .boldAsterisk => StyledSpan.boldAsterisk.matcher
  | .boldUnderscore => StyledSpan.boldUnderscore.matcher
  | .bold => Matcher.bold
  | .italicAsterisk => StyledSpan.italicAsterisk.matcher
  | .italicUnderscore => StyledSpan.italicUnderscore.matcher
  | .italic => Matcher.italic
  | .strikethrough => Matcher.strikethrough
  | .code => Matcher.code
  | .link => Matcher.link
  | .style => Matcher.style
  | .segment => Matcher.segment
  | .markdown => Matcher.markdown

def matchAt (rule : Rule) (index : Nat) (tokens : List Token) : Option Match :=
  rule.matcher.matchAt index tokens

/-- The first acceptance at an index, among several rules tried in order. -/
def firstMatchAt (rules : List Rule) (index : Nat) (tokens : List Token) : Option Match :=
  (Matcher.firstOf (rules.map matcher)).matchAt index tokens

/-- Match at every index of a token list, and right behind its last token. -/
def scan (rule : Rule) (tokens : List Token) : List (Option Match) :=
  (List.range (tokens.length + 1)).map (rule.matchAt · tokens)

end Rule

end LineMarkup
