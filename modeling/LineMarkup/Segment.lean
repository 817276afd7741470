import LineMarkup.Style

/-!
# Cutting a line into segments

A segment is a styled piece, or a single token that begins no style and is kept as
plain text. A token list is cut from the left, one segment after another, up to its
first end mark.
-/

namespace LineMarkup

inductive Segment where
  /-- A piece that a style accepts. -/
  | styled (found : Match)
  /-- A token that begins no style, with the character it stands for. -/
  | kept (token : Token) (literal : Char)
  deriving DecidableEq, Repr, Inhabited

namespace Segment

/-- The acceptance that a segment stands for. -/
def toMatch : Segment → Match
  | .styled found => found
  | .kept _ literal => .single (.ofChar literal) 1

def nodes (segment : Segment) : List Node := segment.toMatch.nodes

def size (segment : Segment) : Nat := segment.toMatch.stop

/-- The segment at the front of a token list. There is none at an end mark. -/
def front? (tokens : List Token) : Option Segment :=
  match Matcher.style tokens with
  | some found => some (.styled found)
  | none =>
      match tokens with
      | token :: _ => token.literal?.map (.kept token)
      | [] => none

theorem size_pos {tokens : List Token} {segment : Segment} (h : front? tokens = some segment) :
    0 < segment.size := by
  unfold front? at h
  split at h
  next found hstyle =>
    cases h
    exact Matcher.style_stop_pos hstyle
  next =>
    split at h
    next token rest =>
      obtain ⟨c, _, rfl⟩ := Option.map_eq_some_iff.mp h
      exact Nat.one_pos
    next => simp at h

theorem front?_nil : front? [] = none := by
  simp [front?, Matcher.style_nil]

/-- Cutting off the segment at the front leaves fewer tokens. -/
theorem length_drop_size_lt {tokens : List Token} {segment : Segment}
    (h : front? tokens = some segment) : (tokens.drop segment.size).length < tokens.length := by
  have hpos := size_pos h
  have hne : tokens ≠ [] := fun hnil => by simp [hnil, front?_nil] at h
  have hlen := List.length_pos_iff.mpr hne
  rw [List.length_drop]
  omega

/-- Cut a token list into segments, up to its first end mark. -/
def cut (tokens : List Token) : List Segment :=
  match _h : front? tokens with
  | some segment => segment :: cut (tokens.drop segment.size)
  | none => []
termination_by tokens.length
decreasing_by exact length_drop_size_lt _h

def totalSize : List Segment → Nat
  | [] => 0
  | segment :: rest => segment.size + totalSize rest

end Segment

/-- The acceptance of a whole cut: all nodes in order, and the end mark taken too. It
needs at least one segment, and the segments must reach an end mark. -/
def Match.ofSegments? (tokens : List Token) (segments : List Segment) : Option Match :=
  let size := Segment.totalSize segments
  if segments ≠ [] ∧ (tokens.drop size).head?.getD .endMark = .endMark then
    some { nodes := segments.flatMap Segment.nodes, stop := size + 1 }
  else none

namespace Matcher

/-- A style, or else one token as plain text. -/
def segment : Matcher := fun tokens => (Segment.front? tokens).map Segment.toMatch

/-- Everything up to the first end mark, and that mark. -/
def markdown : Matcher := fun tokens => Match.ofSegments? tokens (Segment.cut tokens)

end Matcher

end LineMarkup
