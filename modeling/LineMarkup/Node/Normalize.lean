import LineMarkup.Node

/-!
# Normal form of node lists

In normal form neighbouring texts are one text and no text is empty, at every depth.
Spans and links keep their kind and their place.
-/

namespace LineMarkup.Node

/-- The text that was gathered, as nodes: none if it is empty. -/
def ofGathered (gathered : String) : List Node :=
  if gathered.isEmpty then [] else [.text gathered]

mutual

/-- A node with the lists below it in normal form. -/
def normalizeBelow : Node → Node
  | .text content => .text content
  | .span kind children => .span kind (normalizeFrom "" children)
  | .link label address => .link (normalizeFrom "" label) (normalizeFrom "" address)

/-- The normal form of a list that stands after a gathered text. -/
def normalizeFrom (gathered : String) : List Node → List Node
  | [] => ofGathered gathered
  | .text content :: rest => normalizeFrom (gathered ++ content) rest
  | node :: rest => ofGathered gathered ++ node.normalizeBelow :: normalizeFrom "" rest

end

def normalize (nodes : List Node) : List Node := normalizeFrom "" nodes

end LineMarkup.Node
