import LineMarkup.Segment

/-!
# Notices

What a parse reports on its way: how many tokens there are, every marker that is
kept as plain text, and how many nodes there are at the top level.
-/

namespace LineMarkup

inductive NoticeLevel where
  | debug
  | trace
  deriving DecidableEq, Repr, Inhabited

def NoticeLevel.label : NoticeLevel → String
  | .debug => "DEBUG"
  | .trace => "TRACE"

/-- Something a parse reports. -/
inductive Notice where
  /-- The parse begins on so many tokens, the end mark included. -/
  | parsing (tokens : Nat)
  /-- A marker begins no style and is kept as plain text. -/
  | keptMarker (index : Nat) (token : Token)
  /-- The parse is done, with so many nodes at the top level. -/
  | parsed (nodes : Nat)
  | markupDisabled
  deriving DecidableEq, Repr, Inhabited

namespace Notice

/-- Kept markers are traced; everything else is for debugging. -/
def level : Notice → NoticeLevel
  | .keptMarker .. => .trace
  | _ => .debug

def message : Notice → String
  | .parsing tokens => "parsing " ++ toString tokens ++ " tokens"
  | .keptMarker index token =>
      "no style matched at " ++ toString index ++ "; " ++ token.label ++ " kept as literal text"
  | .parsed nodes => "parsed " ++ toString nodes ++ " top-level nodes"
  | .markupDisabled => "markup disabled, returning input as text"

/-- What a log shows of a notice: its level and its text. -/
def record (notice : Notice) : String × String := (notice.level.label, notice.message)

/-- The notices of one segment that begins at an index. A literal character is kept
silently. -/
def ofSegment (index : Nat) : Segment → List Notice
  | .kept token _ => if token.isChar then [] else [.keptMarker index token]
  | .styled _ => []

/-- The notices of segments that follow each other from an index on. -/
def ofSegments (index : Nat) : List Segment → List Notice
  | [] => []
  | segment :: rest => ofSegment index segment ++ ofSegments (index + segment.size) rest

end Notice

end LineMarkup
