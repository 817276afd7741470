import LineMarkup.Cursor
import LineMarkup.Parse

/-!
# Matching by index

A matcher looks at the front of a token list. Its work can also be done on the whole list,
by a cursor that moves over the tokens and looks ahead from where it stands. Each index on
the way is the sum of an earlier one and an offset, and such sums may be held to a limit, as
where an index is a machine word: a sum beyond the limit ends the attempt. A segment that
falls back to plain text is reported at once, so a whole line leaves a log as it is parsed.
-/

namespace LineMarkup

/-! ## Single tokens -/

/-- The character of a literal token. -/
def Token.char? : Token → Option Char
  | .char c => some c
  | _ => none

/-- The character of a literal token, unless it is a boundary blank. -/
def Token.firmChar? (token : Token) : Option Char :=
  token.char?.filter fun c => !Text.isBoundaryBlank c

/-- The matcher of one token by the character that is kept of it. -/
def Matcher.keep (kept? : Token → Option Char) : Matcher := fun tokens =>
  (tokens.head?.bind kept?).map fun c => .single (.ofChar c) 1

theorem Matcher.char_eq_keep : char = keep Token.char? := by
  funext tokens
  rcases tokens with _ | ⟨_ | _, _⟩ <;> rfl

theorem Matcher.boundaryChar_eq_keep : boundaryChar = keep Token.firmChar? := by
  funext tokens
  rcases tokens with _ | ⟨token, rest⟩
  · rfl
  · cases token with
    | char c => by_cases hblank : Text.isBoundaryBlank c <;>
        simp [boundaryChar, keep, Token.firmChar?, Token.char?, hblank, Option.filter]
    | _ => rfl

theorem Matcher.anyToken_eq_keep : anyToken = keep Token.literal? := by
  funext tokens
  cases tokens <;> rfl

/-- A sum of indices that the limit does not allow. -/
structure IndexOverflow where
  sum : Nat
  deriving DecidableEq, Repr

/-- What is found by index, unless a sum on the way is too large. -/
abbrev Indexing := Except IndexOverflow

/-- What is found by index, with all that has been reported by then, in order. -/
abbrev Logging := StateT (List Notice) Indexing

namespace Logging

/-- Report something, behind what was reported before. -/
def log (notices : List Notice) : Logging Unit := modify (· ++ notices)

theorem log_nil : log [] = pure () := by
  funext notices
  exact congrArg (fun after => Except.ok ((), after)) (List.append_nil notices)

theorem log_append (first second : List Notice) :
    log (first ++ second) = log first >>= fun _ => log second := by
  funext notices
  exact congrArg (fun after => Except.ok ((), after)) (List.append_assoc notices first second).symm

theorem log_cons (first : Notice) (rest : List Notice) :
    log (first :: rest) = log [first] >>= fun _ => log rest :=
  log_append [first] rest

@[simp] theorem liftM_ok {α : Type} (a : α) :
    (liftM (Except.ok a : Indexing α) : Logging α) = pure a := rfl

theorem run_log_bind_pure {α : Type} (notices : List Notice) (a : α) :
    (log notices >>= fun _ => pure a : Logging α).run [] = .ok (a, notices) := rfl

theorem run'_log_bind_pure {α : Type} (notices : List Notice) (a : α) :
    (log notices >>= fun _ => pure a : Logging α).run' [] = .ok a := rfl

end Logging

namespace Indexing

@[simp] theorem ok_bind {α β : Type} (a : α) (next : α → Indexing β) :
    (Except.ok a >>= next : Indexing β) = next a := rfl

@[simp] theorem pure_eq {α : Type} (a : α) : (pure a : Indexing α) = .ok a := rfl

/-- The sum of an index and an offset. It has to stay below the limit, if there is one. -/
def plus (limit : Option Nat) (index offset : Nat) : Indexing Nat :=
  if limit.all (index + offset < ·) then .ok (index + offset) else .error ⟨index + offset⟩

/-! ## Reading tokens -/

variable (limit : Option Nat) (tokens : List Token)

/-- The token at a distance from an index. -/
def peekAt (pos offset : Nat) : Indexing Token := do
  let _ ← plus limit pos offset
  return (Cursor.mk tokens pos).peekAt offset

/-- Whether a token stands `count` more times in a row from a distance on, where it was
already read `read` times. -/
def runOf (pos offset : Nat) (token : Token) (read : Nat) : Nat → Indexing Bool
  | 0 => return true
  | count + 1 => do
      let next ← peekAt limit tokens pos (← plus limit offset read)
      if next = token then runOf pos offset token (read + 1) count else return false

/-- The token at an index as a text, if a character of it is to be kept. -/
def keepAt (kept? : Token → Option Char) (pos : Nat) : Indexing (Option Match) := do
  match kept? (← peekAt limit tokens pos 0) with
  | some c => return some (.single (.ofChar c) (← plus limit pos 1))
  | none => return none

def charAt : Nat → Indexing (Option Match) := keepAt limit tokens Token.char?

def boundaryCharAt : Nat → Indexing (Option Match) := keepAt limit tokens Token.firmChar?

def anyTokenAt : Nat → Indexing (Option Match) := keepAt limit tokens Token.literal?

/-! ## Styled spans -/

/-- The last character of a styled span, where a closing fence follows it. -/
def closeAt (span : StyledSpan) (pos : Nat) : Indexing (Option Match) := do
  match ← boundaryCharAt limit tokens pos with
  | some last =>
      if ← runOf limit tokens pos 1 span.marker 0 span.arity then return some last
      else return none
  | none => return none

/-- The rest of a styled span, from the second character of its content on. -/
def insideAt (span : StyledSpan) (children : List Node) (pos : Nat) :
    Indexing (Option Match) := do
  match ← closeAt limit tokens span pos with
  | some last =>
      let stop ← plus limit (← plus limit pos 1) span.arity
      return some (.single (.span span.kind (children ++ last.nodes)) stop)
  | none =>
      match ← charAt limit tokens pos with
      | some found =>
          let next ← plus limit pos 1
          -- A literal character stands in the list; the test shows that this ends.
          if _h : pos < next ∧ pos < tokens.length then
            insideAt span (children ++ found.nodes) next
          else return none
      | none => return none
termination_by tokens.length - pos

/-- A styled span from its last opening marker on. -/
def contentAt (span : StyledSpan) (pos : Nat) : Indexing (Option Match) := do
  match ← boundaryCharAt limit tokens (← plus limit pos 1) with
  | some first =>
      let next ← plus limit pos 2
      if ← runOf limit tokens next 0 span.marker 0 span.arity then
        return some (.single (.span span.kind first.nodes) (← plus limit next span.arity))
      else insideAt limit tokens span first.nodes next
  | none => return none

def styledAt (span : StyledSpan) (pos : Nat) : Indexing (Option Match) := do
  if ← runOf limit tokens pos 0 span.marker 0 (span.arity - 1) then
    let last ← plus limit pos (span.arity - 1)
    if (← peekAt limit tokens last 0) = span.marker then contentAt limit tokens span last
    else return none
  else return none

/-! ## Enclosed content -/

/-- The nodes of all acceptances that follow each other from an index on, and the index
behind them. -/
def repeatAt {m : Type → Type} [Monad m] (attempt : Nat → m (Option Match)) (pos : Nat) :
    m (List Node × Nat) := do
  match ← attempt pos with
  | some found =>
      -- Every acceptance moves the index on within the list; the test shows that this ends.
      if _h : pos < found.stop ∧ pos < tokens.length then
        let rest ← repeatAt attempt found.stop
        return (found.nodes ++ rest.1, rest.2)
      else return ([], pos)
  | none => return ([], pos)
termination_by tokens.length - pos

/-- An acceptance within the list comes first, with what happens on the way to it. -/
theorem repeatAt_of_some {m : Type → Type} [Monad m] [LawfulMonad m] {tokens : List Token}
    {attempt : Nat → m (Option Match)} {pos : Nat} {effect : m Unit} {found : Match}
    (h : attempt pos = effect >>= fun _ => pure (some found)) (hstop : pos < found.stop)
    (hpos : pos < tokens.length) :
    repeatAt tokens attempt pos = effect >>= fun _ =>
      (fun rest => (found.nodes ++ rest.1, rest.2)) <$> repeatAt tokens attempt found.stop := by
  rw [repeatAt, h]
  simp [hstop, hpos]

/-- Nothing happens on the way to what is found by index alone. -/
theorem repeatAt_of_ok_some {tokens : List Token} {attempt : Nat → Indexing (Option Match)}
    {pos : Nat} {found : Match} (h : attempt pos = .ok (some found)) (hstop : pos < found.stop)
    (hpos : pos < tokens.length) :
    repeatAt tokens attempt pos =
      (fun rest => (found.nodes ++ rest.1, rest.2)) <$> repeatAt tokens attempt found.stop :=
  repeatAt_of_some (show attempt pos = pure () >>= fun _ => pure (some found) from h) hstop hpos

theorem repeatAt_of_none {m : Type → Type} [Monad m] [LawfulMonad m] {tokens : List Token}
    {attempt : Nat → m (Option Match)} {pos : Nat} (h : attempt pos = pure none) :
    repeatAt tokens attempt pos = pure ([], pos) := by
  rw [repeatAt, h, pure_bind]

/-- The texts of a literal run between two delimiters, and the index behind the second. -/
def enclosedAt (opening closing : Token) (pos : Nat) : Indexing (Option (List Node × Nat)) := do
  if (← peekAt limit tokens pos 0) = opening then
    let (nodes, stop) ← repeatAt tokens (charAt limit tokens) (← plus limit pos 1)
    if nodes.isEmpty then return none
    else if (← peekAt limit tokens stop 0) = closing then
      return some (nodes, ← plus limit stop 1)
    else return none
  else return none

def codeAt (pos : Nat) : Indexing (Option Match) := do
  match ← enclosedAt limit tokens .backtick .backtick pos with
  | some (children, stop) => return some (.single (.span .code children) stop)
  | none => return none

def linkAt (pos : Nat) : Indexing (Option Match) := do
  match ← enclosedAt limit tokens .leftBracket .rightBracket pos with
  | some (label, middle) =>
      match ← enclosedAt limit tokens .leftParen .rightParen middle with
      | some (address, stop) => return some (.single (.link label address) stop)
      | none => return none
  | none => return none

/-! ## Alternatives and segments -/

/-- The first acceptance among several attempts at one index. -/
def firstAt (attempts : List (Nat → Indexing (Option Match))) (pos : Nat) :
    Indexing (Option Match) :=
  attempts.findSomeM? fun attempt => attempt pos

def boldAt : Nat → Indexing (Option Match) :=
  firstAt [styledAt limit tokens .boldAsterisk, styledAt limit tokens .boldUnderscore]

def italicAt : Nat → Indexing (Option Match) :=
  firstAt [styledAt limit tokens .italicAsterisk, styledAt limit tokens .italicUnderscore]

def styleAt : Nat → Indexing (Option Match) :=
  firstAt [boldAt limit tokens, italicAt limit tokens, styledAt limit tokens .strikethrough,
    codeAt limit tokens, linkAt limit tokens]

/-- A style, or else one token as plain text. A marker that is kept so is reported. -/
def segmentAt (pos : Nat) : Logging (Option Match) := do
  match ← styleAt limit tokens pos with
  | some found => return some found
  | none =>
      match ← anyTokenAt limit tokens pos with
      | some found =>
          if let some token := tokens[pos]? then
            unless token.isChar do Logging.log [.keptMarker pos token]
          return some found
      | none => return none

def markdownAt (pos : Nat) : Logging (Option Match) := do
  match ← segmentAt limit tokens pos with
  | some first =>
      let rest ← repeatAt tokens (segmentAt limit tokens) first.stop
      if (← peekAt limit tokens rest.2 0) = .endMark then
        return some { nodes := first.nodes ++ rest.1, stop := ← plus limit rest.2 1 }
      else return none
  | none => return none

/-- Parse a line by index. -/
def parseAt (line : String) : Logging (Except ParseError (List Node)) := do
  Logging.log [.parsing (tokenize line).length]
  match ← markdownAt limit (tokenize line) 0 with
  | some found =>
      Logging.log [.parsed found.nodes.length]
      return .ok found.nodes
  | none => return .error (.ofTokens (tokenize line))

end Indexing

/-- Match at an index of the whole token list, with a limit on the sums of indices, and leave
aside what is reported on the way. -/
def Rule.matchIndexed (limit : Option Nat) (rule : Rule) (index : Nat) (tokens : List Token) :
    Indexing (Option Match) :=
  match rule with
  | .char => Indexing.charAt limit tokens index
  | .boundaryChar => Indexing.boundaryCharAt limit tokens index
  | .anyToken => Indexing.anyTokenAt limit tokens index
  | .boldAsterisk => Indexing.styledAt limit tokens .boldAsterisk index
  | .boldUnderscore => Indexing.styledAt limit tokens .boldUnderscore index
  | .bold => Indexing.boldAt limit tokens index
  | .italicAsterisk => Indexing.styledAt limit tokens .italicAsterisk index
  | .italicUnderscore => Indexing.styledAt limit tokens .italicUnderscore index
  | .italic => Indexing.italicAt limit tokens index
  | .strikethrough => Indexing.styledAt limit tokens .strikethrough index
  | .code => Indexing.codeAt limit tokens index
  | .link => Indexing.linkAt limit tokens index
  | .style => Indexing.styleAt limit tokens index
  | .segment => (Indexing.segmentAt limit tokens index).run' []
  | .markdown => (Indexing.markdownAt limit tokens index).run' []

end LineMarkup
