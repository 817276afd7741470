import LineMarkup.Json
import LineMarkup.Node

/-!
# The JSON form of nodes

A node is written as an object with a type tag and its own fields. Reading does not
mind the order of the fields nor fields of other names. It fails as a whole if, at
any depth, a tag is missing or unknown, or a field is missing or of the wrong type.

A node may also be given by position: an array of its tag and its fields, in the
order of the written form and without anything else. Below the top level a tag may
then be given by its number.
-/

namespace LineMarkup

/-- The types of node, in the order of their numbers. -/
inductive NodeTag where
  | text
  | span (kind : SpanKind)
  | link
  deriving DecidableEq, Repr, Inhabited

namespace NodeTag

def name : NodeTag → String
  | .text => "text"
  | .span .bold => "bold"
  | .span .italic => "italic"
  | .span .strikethrough => "strikethrough"
  | .span .code => "code"
  | .link => "link"

def all : List NodeTag :=
  [.text, .span .bold, .span .italic, .span .strikethrough, .span .code, .link]

def ofName? (s : String) : Option NodeTag := all.find? fun tag => tag.name == s

/-- The type that a JSON value names. A number is understood only below the top level. -/
def ofJson? (nested : Bool) (json : Json) : Option NodeTag :=
  match json with
  | .string s => ofName? s
  | _ => if nested then json.nat?.bind (all[·]?) else none

end NodeTag

namespace Node

mutual

def toJson : Node → Json
  | .text content =>
      .object [("type", .string NodeTag.text.name), ("content", .string content)]
  | .span kind children =>
      .object [("type", .string (NodeTag.span kind).name),
        ("children", .array (listToJson children))]
  | .link label address =>
      .object [("type", .string NodeTag.link.name), ("text", .array (listToJson label)),
        ("url", .array (listToJson address))]

def listToJson : List Node → List Json
  | [] => []
  | node :: rest => node.toJson :: listToJson rest

end

mutual

def ofJson? (nested : Bool) : Json → Option Node
  | .object members => do
      match ← (members.lookup "type").bind (NodeTag.ofJson? nested) with
      | .text => return .text (← (members.lookup "content").bind Json.string?)
      | .span kind => return .span kind (← member? "children" members)
      | .link => return .link (← member? "text" members) (← member? "url" members)
  | .array (tag :: fields) => do
      match ← NodeTag.ofJson? nested tag, fields with
      | .text, [.string content] => return .text content
      | .span kind, [children] => return .span kind (← items? children)
      | .link, [label, address] => return .link (← items? label) (← items? address)
      | _, _ => none
  | _ => none

/-- Read the node list that a member of an object holds. -/
def member? (name : String) : List (String × Json) → Option (List Node)
  | [] => none
  | (key, value) :: rest => if key = name then items? value else member? name rest

def items? : Json → Option (List Node)
  | .array items => listOfJson? true items
  | _ => none

/-- Read several nodes. One failure makes the whole list fail. -/
def listOfJson? (nested : Bool) : List Json → Option (List Node)
  | [] => some []
  | item :: rest => do return (← ofJson? nested item) :: (← listOfJson? nested rest)

end

/-- Read a list of nodes, which stands at the top level. -/
def decode? : Json → Option (List Node)
  | .array items => listOfJson? false items
  | _ => none

end Node

end LineMarkup
