import LineMarkup.Node.Normalize
import LineMarkup.Notice
import LineMarkup.Options

/-!
# Parsing a line

A line is cut into segments up to its end mark, and their nodes are the result. Only
the empty line fails: whatever forms no style is kept as plain text.
-/

namespace LineMarkup

/-- Why a line has no parse. -/
inductive ParseError where
  | emptyInput
  /-- Some of the line is left over. -/
  | incomplete
  deriving DecidableEq, Repr, Inhabited

def ParseError.message : ParseError → String
  | .emptyInput => "Cannot parse empty input"
  | .incomplete => "Input was not consumed up to the end marker"

/-- The failure of a token list that is not accepted as a whole. -/
def ParseError.ofTokens (tokens : List Token) : ParseError :=
  if tokens.head?.getD .endMark = .endMark then .emptyInput else .incomplete

/-- What a parse gives: its notices in order, and its nodes or its failure. -/
structure Report where
  notices : List Notice
  outcome : Except ParseError (List Node)
  deriving Repr

def Report.map (f : List Node → List Node) (report : Report) : Report :=
  { report with outcome := report.outcome.map f }

/-- Parse a line, with notices. -/
def report (line : String) : Report :=
  let tokens := tokenize line
  let segments := Segment.cut tokens
  let notices := .parsing tokens.length :: Notice.ofSegments 0 segments
  match Match.ofSegments? tokens segments with
  | some found =>
      { notices := notices ++ [.parsed found.nodes.length], outcome := .ok found.nodes }
  | none => { notices := notices, outcome := .error (.ofTokens tokens) }

/-- Parse a line under options, with notices. The empty line fails before anything is
reported, whether or not markup is recognised. -/
def reportWith (options : Options) (line : String) : Report :=
  if line.isEmpty then { notices := [], outcome := .error .emptyInput }
  else if !options.markdown then
    { notices := [.markupDisabled], outcome := .ok (Node.ofText line options.normalize) }
  else if options.normalize then (report line).map Node.normalize
  else report line

/-- Parse a line into nodes, one text node for each literal character. -/
def parse (line : String) : Except ParseError (List Node) := (report line).outcome

/-- Parse a line under options. -/
def parseWith (options : Options) (line : String) : Except ParseError (List Node) :=
  (reportWith options line).outcome

/-- The outcome of a parse is that of its cut. -/
theorem parse_eq (line : String) :
    parse line =
      match Matcher.markdown (tokenize line) with
      | some found => .ok found.nodes
      | none => .error (.ofTokens (tokenize line)) := by
  unfold parse report Matcher.markdown
  dsimp only
  split <;> rfl

end LineMarkup
