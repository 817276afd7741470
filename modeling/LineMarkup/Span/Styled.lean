import LineMarkup.Match

/-!
# Styled spans

Bold, italic and strikethrough spans stand between two fences of one marker. The
characters between the fences are literal, there is at least one of them, and
neither the first nor the last is a boundary blank. A span closes at the first
place where a non-blank character stands right before a fence.
-/

namespace LineMarkup

/-- The five ways to write a styled span. -/
inductive StyledSpan where
  | boldAsterisk
  | boldUnderscore
  | italicAsterisk
  | italicUnderscore
  | strikethrough
  deriving DecidableEq, Repr, Inhabited

namespace StyledSpan

/-- The marker that the fences are made of. -/
def marker : StyledSpan → Token
  | .boldAsterisk | .italicAsterisk => .asterisk
  | .boldUnderscore | .italicUnderscore => .underscore
  | .strikethrough => .tilde

def arity : StyledSpan → Nat
  | .boldAsterisk | .boldUnderscore => 2
  | .italicAsterisk | .italicUnderscore | .strikethrough => 1

def kind : StyledSpan → SpanKind
  | .boldAsterisk | .boldUnderscore => .bold
  | .italicAsterisk | .italicUnderscore => .italic
  | .strikethrough => .strikethrough

/-- The markers on either side of a span. -/
def fence (span : StyledSpan) : List Token := List.replicate span.arity span.marker

/-- The characters up to the closing fence. A non-blank character right before a
fence is the last one; any other must be literal. -/
def inside? (span : StyledSpan) : List Token → Option (List Char)
  | .char c :: rest =>
      if !Text.isBoundaryBlank c && span.fence.isPrefixOf rest then some [c]
      else (span.inside? rest).map (c :: ·)
  | _ => none

/-- The characters of a span whose opening fence has been read: the first one may
not be blank. -/
def content? (span : StyledSpan) (tokens : List Token) : Option (List Char) :=
  if (Matcher.boundaryChar tokens).isSome then span.inside? tokens else none

/-- Recognise the span at the front of a token list. Markers beyond the closing
fence are left unread. -/
def matcher (span : StyledSpan) : Matcher := fun tokens =>
  if span.fence.isPrefixOf tokens then
    (span.content? (tokens.drop span.arity)).map fun content =>
      .single (.span span.kind (Node.ofChars content)) (content.length + 2 * span.arity)
  else none

theorem arity_pos (span : StyledSpan) : 0 < span.arity := by
  cases span <;> decide

theorem stop_pos {span : StyledSpan} {tokens : List Token} {found : Match}
    (h : span.matcher tokens = some found) : 0 < found.stop := by
  have hpos := span.arity_pos
  unfold matcher at h
  split at h
  next =>
    obtain ⟨content, _, rfl⟩ := Option.map_eq_some_iff.mp h
    simp only [Match.single]
    omega
  next => simp at h

end StyledSpan

end LineMarkup
