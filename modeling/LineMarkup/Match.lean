import LineMarkup.Node
import LineMarkup.Text.Blank
import LineMarkup.Token

/-!
# Matchers

A matcher looks at the front of a token list and either rejects or accepts with
the nodes it made and the number of tokens it took. Matching at an index is
matching the tokens from there on, so no matcher can see what stands before it.
Where the tokens run out a matcher sees what it would see at an end mark.
-/

namespace LineMarkup

/-- An acceptance: the nodes made, and where the next token stands. -/
structure Match where
  nodes : List Node
  stop : Nat
  deriving DecidableEq, Repr, Inhabited

def Match.single (node : Node) (stop : Nat) : Match := { nodes := [node], stop := stop }

/-- The same acceptance, seen from `offset` tokens further to the left. -/
def Match.shift (found : Match) (offset : Nat) : Match :=
  { found with stop := offset + found.stop }

@[simp] theorem Match.nodes_shift (found : Match) (offset : Nat) :
    (found.shift offset).nodes = found.nodes := rfl

@[simp] theorem Match.stop_shift (found : Match) (offset : Nat) :
    (found.shift offset).stop = offset + found.stop := rfl

/-- A way to recognise a construct at the front of a token list. -/
abbrev Matcher := List Token → Option Match

namespace Matcher

/-- Match at an index, which may lie anywhere beyond the list. The acceptance
counts from the beginning of the list. -/
def matchAt (matcher : Matcher) (index : Nat) (tokens : List Token) : Option Match :=
  (matcher (tokens.drop index)).map (·.shift index)

def firstOf (matchers : List Matcher) : Matcher := fun tokens =>
  matchers.findSome? fun matcher => matcher tokens

def char : Matcher
  | .char c :: _ => some (.single (.ofChar c) 1)
  | _ => none

/-- One literal character that may stand at the edge of a styled span. -/
def boundaryChar : Matcher
  | .char c :: _ => if Text.isBoundaryBlank c then none else some (.single (.ofChar c) 1)
  | _ => none

/-- One token of any sort but the end mark, kept as the character it stands for. -/
def anyToken : Matcher
  | token :: _ => token.literal?.map fun c => .single (.ofChar c) 1
  | [] => none

theorem firstOf_eq_some {matchers : List Matcher} {tokens : List Token} {found : Match}
    (h : firstOf matchers tokens = some found) :
    ∃ matcher ∈ matchers, matcher tokens = some found := by
  simpa [firstOf] using List.exists_of_findSome?_eq_some h

end Matcher

end LineMarkup
