import LineMarkup.Node

/-!
# One-line display of nodes

A node is displayed with its texts unquoted; only a text that is exactly one space
is spelled out. Every item of a list is followed by a comma and a space.
-/

namespace LineMarkup.Node

mutual

def display : Node → String
  | .text content => if content = " " then "Text(<space>)" else "Text(" ++ content ++ ")"
  | .span kind children => kind.label ++ "([" ++ displayItems children ++ "])"
  | .link label address =>
      "Link(text=[" ++ displayItems label ++ "], url=[" ++ displayItems address ++ "])"

/-- The items of a list, each with what follows it. -/
def displayItems : List Node → String
  | [] => ""
  | node :: rest => node.display ++ ", " ++ displayItems rest

end

end LineMarkup.Node
