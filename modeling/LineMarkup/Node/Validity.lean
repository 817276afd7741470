import LineMarkup.Node.Display
import LineMarkup.Text.Blank
import LineMarkup.Text.Quoted

/-!
# Validity of node lists

A list is valid if it could come from the parser: no text is empty, what is inside a
span or a link is a list of texts and not empty, and no styled span has a boundary
blank at either edge. A list said to be in normal form must also have no two texts
next to each other. A check answers the first violation, in the order of the text.
-/

namespace LineMarkup

/-- What can be wrong with a node list. -/
inductive Violation where
  | adjacentTexts (left right : Node)
  | emptyText
  | emptyChildren (parent : Node)
  /-- A list below a node has an item that is no text. -/
  | nonTextChild (parent : Node)
  /-- A styled span begins or ends with a blank. -/
  | blankEdge (c : Char) (parent : Node)
  deriving DecidableEq, Repr

def Violation.message : Violation → String
  | .adjacentTexts left right =>
      "adjacent text nodes after normalization: " ++ left.display ++ " " ++ right.display
  | .emptyText => "empty text node"
  | .emptyChildren parent => "empty child list in " ++ parent.display
  | .nonTextChild parent => "non-text child in " ++ parent.display
  | .blankEdge c parent =>
      "whitespace boundary character " ++ Text.quoteChar c ++ " in " ++ parent.display

/-- Whether a kind of span has the boundary rule. Code may begin and end with blanks. -/
def SpanKind.hasBoundaryRule : SpanKind → Bool
  | .code => false
  | _ => true

theorem SpanKind.hasBoundaryRule_iff (kind : SpanKind) :
    kind.hasBoundaryRule = true ↔ kind ≠ .code := by
  cases kind <;> decide

namespace Node

/-- The first two neighbouring texts of a list. -/
def adjacentTexts? : List Node → Option Violation
  | left :: right :: rest =>
      if left.isText && right.isText then some (.adjacentTexts left right)
      else adjacentTexts? (right :: rest)
  | _ => none

/-- The first character of the first item and the last character of the last, where
these items are texts with content. -/
def edgeChars (children : List Node) : List Char :=
  (children.head?.bind text?).toList.flatMap (fun content => content.toList.head?.toList) ++
    (children.getLast?.bind text?).toList.flatMap fun content => content.toList.getLast?.toList

/-- The first boundary blank at an edge of a styled span. -/
def blankEdge? (parent : Node) (children : List Node) : Option Violation :=
  ((edgeChars children).find? Text.isBoundaryBlank).map (.blankEdge · parent)

/-- What is wrong with the form of a list below a node: it is empty, or one of its
items is no text. -/
def childForm? (parent : Node) (children : List Node) : Option Violation :=
  if children.isEmpty then some (.emptyChildren parent)
  else if children.all isText then none
  else some (.nonTextChild parent)

/-- Neighbouring texts count only in a list that is said to be in normal form. -/
def adjacency? (normalized : Bool) (nodes : List Node) : Option Violation :=
  if normalized then adjacentTexts? nodes else none

mutual

def violationIn? (normalized : Bool) : Node → Option Violation
  | .text content => if content.isEmpty then some .emptyText else none
  | .span kind children =>
      let parent := Node.span kind children
      childForm? parent children <|> adjacency? normalized children <|>
        violationAmong? normalized children <|>
        if kind.hasBoundaryRule then blankEdge? parent children else none
  | .link label address =>
      let parent := Node.link label address
      childForm? parent label <|> adjacency? normalized label <|>
        violationAmong? normalized label <|>
        childForm? parent address <|> adjacency? normalized address <|>
        violationAmong? normalized address

/-- The first violation among the items of a list, taken one by one. -/
def violationAmong? (normalized : Bool) : List Node → Option Violation
  | [] => none
  | node :: rest => violationIn? normalized node <|> violationAmong? normalized rest

end

/-- The first violation in a list: neighbouring texts come before anything else. -/
def violation? (normalized : Bool) (nodes : List Node) : Option Violation :=
  adjacency? normalized nodes <|> violationAmong? normalized nodes

end Node

end LineMarkup
