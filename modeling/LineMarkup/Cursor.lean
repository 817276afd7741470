import LineMarkup.Rule

/-!
# Cursors

A cursor is a position in a token list, which may lie beyond its end. Every read
beyond the end sees the end mark, so looking ahead needs no bound.
-/

namespace LineMarkup

/-- A position in a token list. -/
structure Cursor where
  tokens : List Token
  pos : Nat
  deriving DecidableEq, Repr, Inhabited

namespace Cursor

/-- The token at a distance from the position. -/
def peekAt (cursor : Cursor) (offset : Nat) : Token :=
  (cursor.tokens[cursor.pos + offset]?).getD .endMark

/-- The token at the position. -/
def peek (cursor : Cursor) : Token := cursor.peekAt 0

/-- Whether the position is at an end mark, or beyond the list. -/
def atEnd (cursor : Cursor) : Bool := cursor.peek = .endMark

/-- Whether a given token stands at the position. -/
def looksAt (cursor : Cursor) (token : Token) : Bool := cursor.peek = token

/-- Whether a token stands `count` times in a row, from a distance on. -/
def runOf (cursor : Cursor) (offset : Nat) (token : Token) : Nat → Bool
  | 0 => true
  | count + 1 => cursor.peekAt offset = token && cursor.runOf (offset + 1) token count

/-- Move on by several tokens. -/
def advance (cursor : Cursor) (count : Nat) : Cursor :=
  { cursor with pos := cursor.pos + count }

/-- Take the token at the position and move on, even at the end. -/
def bump (cursor : Cursor) : Token × Cursor := (cursor.peek, cursor.advance 1)

/-- Match at the position. An acceptance moves the cursor behind what it took. -/
def run (cursor : Cursor) (rule : Rule) : Option Match × Cursor :=
  match rule.matchAt cursor.pos cursor.tokens with
  | some found => (some found, { cursor with pos := found.stop })
  | none => (none, cursor)

/-- A run of a token is told from what stands behind the distance, since no run reaches the
end mark. -/
theorem runOf_eq_isPrefixOf (cursor : Cursor) {token : Token} (htoken : token ≠ .endMark)
    (offset count : Nat) :
    cursor.runOf offset token count =
      (List.replicate count token).isPrefixOf (cursor.tokens.drop (cursor.pos + offset)) := by
  induction count generalizing offset with
  | zero => simp [runOf]
  | succ count ih =>
      rw [runOf, ih, ← Nat.add_assoc, ← List.drop_drop, peekAt, ← List.head?_drop,
        List.replicate_succ]
      cases cursor.tokens.drop (cursor.pos + offset) with
      | nil => simp [htoken.symm]
      | cons next rest => simp [List.isPrefixOf, Bool.beq_eq_decide_eq, eq_comm]

end Cursor

end LineMarkup
