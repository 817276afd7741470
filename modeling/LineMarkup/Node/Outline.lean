import LineMarkup.Node
import LineMarkup.Text.Quoted

/-!
# Outlines of node lists

An outline has one line for each node, and one for each of the two lists of a link.
What is inside a node is indented by one level more than the node.
-/

namespace LineMarkup

structure OutlineLine where
  depth : Nat
  label : String
  deriving DecidableEq, Repr, Inhabited

/-- The text of a line: two spaces for each level, the label, and a line feed. -/
def OutlineLine.render (line : OutlineLine) : String :=
  String.ofList (List.replicate (2 * line.depth) ' ') ++ line.label ++ "\n"

namespace Node

mutual

/-- The outline of a node at a given depth. -/
def outlineAt (depth : Nat) : Node → List OutlineLine
  | .text content => [⟨depth, "Text " ++ Text.quote content⟩]
  | .span kind children => ⟨depth, kind.label⟩ :: outlineListAt (depth + 1) children
  | .link label address =>
      ⟨depth, "Link"⟩ :: ⟨depth + 1, "text:"⟩ :: outlineListAt (depth + 2) label ++
        ⟨depth + 1, "url:"⟩ :: outlineListAt (depth + 2) address

def outlineListAt (depth : Nat) : List Node → List OutlineLine
  | [] => []
  | node :: rest => node.outlineAt depth ++ outlineListAt depth rest

end

def outline (nodes : List Node) : String :=
  String.join ((outlineListAt 0 nodes).map OutlineLine.render)

end Node

end LineMarkup
