/-!
# Trees of a parsed line

A line is a list of nodes: plain text, spans of one of four kinds, and links with
two lists. The parser writes one text node for each character and never nests
spans, but a tree may have any shape.
-/

namespace LineMarkup

inductive SpanKind where
  | bold
  | italic
  | strikethrough
  | code
  deriving DecidableEq, Repr, Inhabited

/-- The name of a kind of span, as listings and outlines show it. -/
def SpanKind.label : SpanKind → String
  | .bold => "Bold"
  | .italic => "Italic"
  | .strikethrough => "Strikethrough"
  | .code => "Code"

/-- A piece of a parsed line. -/
inductive Node where
  | text (content : String)
  | span (kind : SpanKind) (children : List Node)
  /-- A link: the nodes that are shown and the nodes of the address. -/
  | link (label address : List Node)
  deriving Repr, Inhabited

namespace Node

def isText : Node → Bool
  | .text _ => true
  | _ => false

def text? : Node → Option String
  | .text content => some content
  | _ => none

/-- The child list of a span. Texts have none and links have two. -/
def children? : Node → Option (List Node)
  | .span _ children => some children
  | _ => none

/-- The text node of one character. -/
def ofChar (c : Char) : Node := .text (String.singleton c)

def ofChars (cs : List Char) : List Node := cs.map ofChar

/-- The text nodes of a string: one for each character, or one for the whole string
when they are merged. The empty string has none either way. -/
def ofText (s : String) (merged : Bool) : List Node :=
  if s.isEmpty then []
  else if merged then [.text s]
  else ofChars s.toList

mutual

def decEq : (a b : Node) → Decidable (a = b)
  | .text s, .text t => decidable_of_iff (s = t) (by simp)
  | .span k xs, .span l ys =>
      have := decEqList xs ys
      decidable_of_iff (k = l ∧ xs = ys) (by simp)
  | .link xs us, .link ys vs =>
      have := decEqList xs ys
      have := decEqList us vs
      decidable_of_iff (xs = ys ∧ us = vs) (by simp)
  | .text _, .span .. | .text _, .link .. | .span .., .text _
  | .span .., .link .. | .link .., .text _ | .link .., .span .. => isFalse nofun

def decEqList : (xs ys : List Node) → Decidable (xs = ys)
  | [], [] => isTrue rfl
  | x :: xs, y :: ys =>
      have := decEq x y
      have := decEqList xs ys
      decidable_of_iff (x = y ∧ xs = ys) (by simp)
  | [], _ :: _ | _ :: _, [] => isFalse nofun

end

instance : DecidableEq Node := decEq

@[simp] theorem isText_ofChar (c : Char) : (ofChar c).isText = true := rfl

@[simp] theorem ofChars_append (cs ds : List Char) :
    ofChars (cs ++ ds) = ofChars cs ++ ofChars ds := by
  simp [ofChars]

end Node

end LineMarkup
