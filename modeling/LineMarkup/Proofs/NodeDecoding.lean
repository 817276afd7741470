import LineMarkup.Node.Json
import LineMarkup.Proofs.JsonExtension

/-!
# What decodes to a node list

Decoding takes exactly the extensions of the written form: the members of an object may stand
in any order and others may be added, so long as they do not bear the name of the type tag or of
a field of that type. Whatever is wrong at a place where a node should stand makes the whole
list fail, and nothing else does.
-/

namespace LineMarkup

/-! ## Types and their fields -/

namespace NodeTag

/-- The names of the fields that hold a text. -/
def textFields : NodeTag → List String
  | .text => ["content"]
  | .span _ | .link => []

/-- The names of the fields that hold a list of nodes. -/
def listFields : NodeTag → List String
  | .text => []
  | .span _ => ["children"]
  | .link => ["text", "url"]

theorem ofName?_name (tag : NodeTag) : ofName? tag.name = some tag := by
  cases tag with
  | text => rfl
  | span kind => cases kind <;> rfl
  | link => rfl

theorem name_injective : Function.Injective name := by
  intro tag tag' h
  have hsome : some tag = some tag' := by rw [← ofName?_name, h, ofName?_name]
  exact Option.some.inj hsome

theorem ofName?_eq_some_iff {s : String} {tag : NodeTag} : ofName? s = some tag ↔ s = tag.name := by
  constructor
  · intro h
    have hname := List.find?_some h
    rw [beq_iff_eq] at hname
    exact hname.symm
  · rintro rfl
    exact ofName?_name tag

/-- Unless it is a number, a type tag is a name. -/
theorem ofJson?_eq_some_iff {nested : Bool} {json : Json} {tag : NodeTag}
    (hnumber : ∀ mantissa exponent, json ≠ .number mantissa exponent) :
    ofJson? nested json = some tag ↔ json = .string tag.name := by
  cases json with
  | string s => simp [ofJson?, ofName?_eq_some_iff]
  | number mantissa exponent => exact absurd rfl (hnumber mantissa exponent)
  | _ => simp [ofJson?, Json.nat?]

end NodeTag

/-! ## One object -/

namespace Node

/-- A node is found in the members of an object: its type under the type tag, and its own
fields, where a relation says which lists stand for which nodes. -/
def FoundIn (stands : List Json → List Node → Prop) (members : List (String × Json)) : Node → Prop
  | .text content =>
      members.lookup "type" = some (.string NodeTag.text.name) ∧
        members.lookup "content" = some (.string content)
  | .span kind children =>
      members.lookup "type" = some (.string (NodeTag.span kind).name) ∧
        ∃ list, members.lookup "children" = some (.array list) ∧ stands list children
  | .link label address =>
      members.lookup "type" = some (.string NodeTag.link.name) ∧
        (∃ list, members.lookup "text" = some (.array list) ∧ stands list label) ∧
        ∃ list, members.lookup "url" = some (.array list) ∧ stands list address

section Reading

/-- A JSON list is read as nodes. -/
def ReadAs (list : List Json) (nodes : List Node) : Prop := listOfJson? true list = some nodes

theorem member?_eq (name : String) (members : List (String × Json)) :
    member? name members = (members.lookup name).bind items? := by
  induction members with
  | nil => rfl
  | cons member rest ih =>
      obtain ⟨key, value⟩ := member
      by_cases hkey : key = name
      · subst hkey
        rw [member?, if_pos rfl, List.lookup_cons_self, Option.bind_some]
      · rw [member?, if_neg hkey, ih, List.lookup_cons, beq_false_of_ne (Ne.symm hkey)]

theorem items?_eq_some_iff {json : Json} {nodes : List Node} :
    items? json = some nodes ↔ ∃ list, json = .array list ∧ ReadAs list nodes := by
  cases json <;> simp [items?, ReadAs]

theorem member?_eq_some_iff {name : String} {members : List (String × Json)} {nodes : List Node} :
    member? name members = some nodes ↔
      ∃ list, members.lookup name = some (.array list) ∧ ReadAs list nodes := by
  rw [member?_eq, Option.bind_eq_some_iff]
  constructor
  · rintro ⟨json, hlookup, hitems⟩
    obtain ⟨list, rfl, hlist⟩ := items?_eq_some_iff.mp hitems
    exact ⟨list, hlookup, hlist⟩
  · rintro ⟨list, hlookup, hlist⟩
    exact ⟨.array list, hlookup, items?_eq_some_iff.mpr ⟨list, rfl, hlist⟩⟩

theorem ofJson?_object (nested : Bool) (members : List (String × Json)) :
    ofJson? nested (.object members) = do
      match ← (members.lookup "type").bind (NodeTag.ofJson? nested) with
      | .text => return .text (← (members.lookup "content").bind Json.string?)
      | .span kind => return .span kind (← member? "children" members)
      | .link => return .link (← member? "text" members) (← member? "url" members) := rfl

theorem ofJson?_of_foundIn {nested : Bool} {members : List (String × Json)} {node : Node}
    (h : node.FoundIn ReadAs members) : ofJson? nested (.object members) = some node := by
  cases node with
  | text content =>
      obtain ⟨htag, hcontent⟩ := h
      simp [ofJson?_object, htag, hcontent, NodeTag.ofJson?, NodeTag.ofName?_name, Json.string?]
  | span kind children =>
      obtain ⟨htag, hchildren⟩ := h
      simp [ofJson?_object, htag, member?_eq_some_iff.mpr hchildren, NodeTag.ofJson?,
        NodeTag.ofName?_name]
  | link label address =>
      obtain ⟨htag, hlabel, haddress⟩ := h
      simp [ofJson?_object, htag, member?_eq_some_iff.mpr hlabel,
        member?_eq_some_iff.mpr haddress, NodeTag.ofJson?, NodeTag.ofName?_name]

/-- An object is read only as a node that is found in it. -/
theorem foundIn_of_ofJson? {nested : Bool} {members : List (String × Json)} {node : Node}
    (hnumber : ∀ mantissa exponent, ("type", Json.number mantissa exponent) ∉ members)
    (h : ofJson? nested (.object members) = some node) : node.FoundIn ReadAs members := by
  rw [ofJson?_object] at h
  obtain ⟨tag, htag, h⟩ := Option.bind_eq_some_iff.mp h
  obtain ⟨json, hlookup, hjson⟩ := Option.bind_eq_some_iff.mp htag
  have hname : json = .string tag.name := by
    refine (NodeTag.ofJson?_eq_some_iff fun mantissa exponent hnum => ?_).mp hjson
    exact hnumber mantissa exponent (hnum ▸ mem_of_lookup_eq_some hlookup)
  subst hname
  cases tag with
  | text =>
      obtain ⟨content, hcontent, hnode⟩ := Option.bind_eq_some_iff.mp h
      cases hnode
      obtain ⟨json, hfield, hstring⟩ := Option.bind_eq_some_iff.mp hcontent
      cases json with
      | string s =>
          cases hstring
          exact ⟨hlookup, hfield⟩
      | _ => cases hstring
  | span kind =>
      obtain ⟨children, hchildren, hnode⟩ := Option.bind_eq_some_iff.mp h
      cases hnode
      exact ⟨hlookup, member?_eq_some_iff.mp hchildren⟩
  | link =>
      obtain ⟨label, hlabel, h⟩ := Option.bind_eq_some_iff.mp h
      obtain ⟨address, haddress, hnode⟩ := Option.bind_eq_some_iff.mp h
      cases hnode
      exact ⟨hlookup, member?_eq_some_iff.mp hlabel, member?_eq_some_iff.mp haddress⟩

/-- Only an object is read as a node, where arrays are out of the question. -/
theorem exists_object_of_ofJson? {nested : Bool} {json : Json} {node : Node}
    (harray : ∀ list, json ≠ .array list) (h : ofJson? nested json = some node) :
    ∃ members, json = .object members := by
  cases json with
  | object members => exact ⟨members, rfl⟩
  | array list => exact absurd rfl (harray list)
  | _ => cases h

theorem listOfJson?_cons_eq_some_iff {nested : Bool} {item : Json} {rest : List Json}
    {nodes : List Node} :
    listOfJson? nested (item :: rest) = some nodes ↔
      ∃ node others, ofJson? nested item = some node ∧
        listOfJson? nested rest = some others ∧ node :: others = nodes := by
  simp [listOfJson?, Option.bind_eq_some_iff]

end Reading

section Extending

/-- A JSON list is an extension of the written form of nodes. -/
def ExtendedAs (list : List Json) (nodes : List Node) : Prop :=
  Json.AllExtendTo (listToJson nodes) list

/-- An extension of a written node is an object in which the node is found. -/
theorem exists_foundIn_of_extendsTo {node : Node} {json : Json} (h : node.toJson.ExtendsTo json) :
    ∃ members, json = .object members ∧ node.FoundIn ExtendedAs members := by
  cases node with
  | text content =>
      obtain ⟨own', members, rfl, hown, hfound⟩ :=
        Json.exists_lookup_of_extendsTo_object (by simp) h
      obtain _ | ⟨htag, _ | ⟨hcontent, -⟩⟩ := hown
      rw [Json.extendsTo_string_iff] at htag hcontent
      subst htag hcontent
      exact ⟨members, rfl, hfound _ _ (by simp), hfound _ _ (by simp)⟩
  | span kind children =>
      obtain ⟨own', members, rfl, hown, hfound⟩ :=
        Json.exists_lookup_of_extendsTo_object (by simp) h
      obtain _ | ⟨htag, _ | ⟨hchildren, -⟩⟩ := hown
      rw [Json.extendsTo_string_iff] at htag
      obtain ⟨list, rfl, hlist⟩ := Json.extendsTo_array_iff.mp hchildren
      subst htag
      exact ⟨members, rfl, hfound _ _ (by simp), list, hfound _ _ (by simp), hlist⟩
  | link label address =>
      obtain ⟨own', members, rfl, hown, hfound⟩ :=
        Json.exists_lookup_of_extendsTo_object (by simp) h
      obtain _ | ⟨htag, _ | ⟨hlabel, _ | ⟨haddress, -⟩⟩⟩ := hown
      rw [Json.extendsTo_string_iff] at htag
      obtain ⟨list, rfl, hlist⟩ := Json.extendsTo_array_iff.mp hlabel
      obtain ⟨list', rfl, hlist'⟩ := Json.extendsTo_array_iff.mp haddress
      subst htag
      exact ⟨members, rfl, hfound _ _ (by simp), ⟨list, hfound _ _ (by simp), hlist⟩,
        list', hfound _ _ (by simp), hlist'⟩

/-- An object that repeats no key is an extension of every node that is found in it. -/
theorem extendsTo_of_foundIn {node : Node} {members : List (String × Json)}
    (hkeys : (members.map Prod.fst).Nodup) (h : node.FoundIn ExtendedAs members) :
    node.toJson.ExtendsTo (.object members) := by
  cases node with
  | text content =>
      obtain ⟨htag, hcontent⟩ := h
      refine Json.extendsTo_object_of_subset (Json.MembersExtendTo.refl _) (by simp) ?_ hkeys
      simp [mem_of_lookup_eq_some htag, mem_of_lookup_eq_some hcontent]
  | span kind children =>
      obtain ⟨htag, list, hchildren, hlist⟩ := h
      refine Json.extendsTo_object_of_subset (.cons (.string _) (.cons (.array hlist) .nil))
        (by simp) ?_ hkeys
      simp [mem_of_lookup_eq_some htag, mem_of_lookup_eq_some hchildren]
  | link label address =>
      obtain ⟨htag, ⟨list, hlabel, hlist⟩, list', haddress, hlist'⟩ := h
      refine Json.extendsTo_object_of_subset
        (.cons (.string _) (.cons (.array hlist) (.cons (.array hlist') .nil))) (by simp) ?_ hkeys
      simp [mem_of_lookup_eq_some htag, mem_of_lookup_eq_some hlabel,
        mem_of_lookup_eq_some haddress]

end Extending

/-! ## Places of nodes -/

/-- The places in a JSON list where a node should stand: the items of the list, and the items
of the lists that an object at such a place has under the names of the fields of its type. -/
inductive Place (items : List Json) : Json → Prop
  | item {place : Json} : place ∈ items → Place items place
  | inside {members : List (String × Json)} {tag : NodeTag} {field : String} {list : List Json}
      {place : Json} :
      Place items (.object members) → ("type", .string tag.name) ∈ members →
      field ∈ tag.listFields → (field, .array list) ∈ members → place ∈ list →
      Place items place

/-- At the places of nodes no object repeats a key, no array stands for a node, and no number
for a type. -/
structure PlainForm (items : List Json) : Prop where
  nodup_keys : ∀ members, Place items (.object members) → (members.map Prod.fst).Nodup
  not_array : ∀ list, ¬ Place items (.array list)
  not_number_tag : ∀ members mantissa exponent, Place items (.object members) →
    ("type", .number mantissa exponent) ∉ members

/-- An object that names a type and has every field of that type, with a value of the right
sort. -/
def IsNodeObject (json : Json) : Prop :=
  ∃ members tag, json = .object members ∧ ("type", .string (NodeTag.name tag)) ∈ members ∧
    (∀ field ∈ tag.textFields, ∃ content, (field, .string content) ∈ members) ∧
    ∀ field ∈ tag.listFields, ∃ list, (field, .array list) ∈ members

/-! ## Extensions decode -/

mutual

theorem ofJson?_of_extendsTo (nested : Bool) :
    (node : Node) → {json : Json} → node.toJson.ExtendsTo json → ofJson? nested json = some node
  | .text content, json, h => by
      obtain ⟨members, rfl, htag, hcontent⟩ := exists_foundIn_of_extendsTo h
      exact ofJson?_of_foundIn ⟨htag, hcontent⟩
  | .span kind children, json, h => by
      obtain ⟨members, rfl, htag, list, hlookup, hlist⟩ := exists_foundIn_of_extendsTo h
      have hchildren : ReadAs list children := listOfJson?_of_extendedAs true children hlist
      exact ofJson?_of_foundIn ⟨htag, list, hlookup, hchildren⟩
  | .link label address, json, h => by
      obtain ⟨members, rfl, htag, ⟨list, hlookup, hlist⟩, list', hlookup', hlist'⟩ :=
        exists_foundIn_of_extendsTo h
      have hlabel : ReadAs list label := listOfJson?_of_extendedAs true label hlist
      have haddress : ReadAs list' address := listOfJson?_of_extendedAs true address hlist'
      exact ofJson?_of_foundIn ⟨htag, ⟨list, hlookup, hlabel⟩, list', hlookup', haddress⟩

theorem listOfJson?_of_extendedAs (nested : Bool) :
    (nodes : List Node) → {list : List Json} → ExtendedAs list nodes →
      listOfJson? nested list = some nodes
  | [], _, h => by
      cases h
      rfl
  | node :: nodes, _, h => by
      rw [ExtendedAs, listToJson] at h
      cases h with
      | cons hnode hnodes =>
          exact listOfJson?_cons_eq_some_iff.mpr ⟨node, nodes,
            ofJson?_of_extendsTo nested node hnode,
            listOfJson?_of_extendedAs nested nodes hnodes, rfl⟩

end

/-! ## What is decoded is an extension -/

section Places

variable {items : List Json}

theorem PlainForm.exists_foundIn (hplain : PlainForm items) {json : Json}
    (hplace : Place items json) {nested : Bool} {node : Node}
    (h : ofJson? nested json = some node) :
    ∃ members, json = .object members ∧ node.FoundIn ReadAs members := by
  obtain ⟨members, rfl⟩ := exists_object_of_ofJson?
    (fun list hlist => hplain.not_array list (hlist ▸ hplace)) h
  refine ⟨members, rfl, foundIn_of_ofJson? (fun mantissa exponent => ?_) h⟩
  exact hplain.not_number_tag members mantissa exponent hplace

mutual

theorem extendsTo_of_ofJson? (hplain : PlainForm items) :
    (node : Node) → {nested : Bool} → {json : Json} → Place items json →
      ofJson? nested json = some node → node.toJson.ExtendsTo json
  | .text content, nested, json, hplace, h => by
      obtain ⟨members, rfl, hfound⟩ := hplain.exists_foundIn hplace h
      exact extendsTo_of_foundIn (hplain.nodup_keys members hplace) ⟨hfound.1, hfound.2⟩
  | .span kind children, nested, json, hplace, h => by
      obtain ⟨members, rfl, htag, list, hlookup, hlist⟩ := hplain.exists_foundIn hplace h
      have hinside (item : Json) (hitem : item ∈ list) : Place items item :=
        .inside hplace (mem_of_lookup_eq_some htag) (by simp [NodeTag.listFields])
          (mem_of_lookup_eq_some hlookup) hitem
      exact extendsTo_of_foundIn (hplain.nodup_keys members hplace)
        ⟨htag, list, hlookup, extendedAs_of_listOfJson? hplain children hinside hlist⟩
  | .link label address, nested, json, hplace, h => by
      obtain ⟨members, rfl, htag, ⟨list, hlookup, hlist⟩, list', hlookup', hlist'⟩ :=
        hplain.exists_foundIn hplace h
      have hinside (item : Json) (hitem : item ∈ list) : Place items item :=
        .inside hplace (mem_of_lookup_eq_some htag) (by simp [NodeTag.listFields])
          (mem_of_lookup_eq_some hlookup) hitem
      have hinside' (item : Json) (hitem : item ∈ list') : Place items item :=
        .inside hplace (mem_of_lookup_eq_some htag) (by simp [NodeTag.listFields])
          (mem_of_lookup_eq_some hlookup') hitem
      exact extendsTo_of_foundIn (hplain.nodup_keys members hplace)
        ⟨htag, ⟨list, hlookup, extendedAs_of_listOfJson? hplain label hinside hlist⟩,
          list', hlookup', extendedAs_of_listOfJson? hplain address hinside' hlist'⟩

theorem extendedAs_of_listOfJson? (hplain : PlainForm items) :
    (nodes : List Node) → {nested : Bool} → {list : List Json} →
      (∀ item ∈ list, Place items item) → listOfJson? nested list = some nodes →
      ExtendedAs list nodes
  | [], nested, [], _, _ => .nil
  | [], nested, item :: rest, _, h => by
      obtain ⟨node, others, _, _, hcons⟩ := listOfJson?_cons_eq_some_iff.mp h
      cases hcons
  | node :: nodes, nested, [], _, h => by cases h
  | node :: nodes, nested, item :: rest, hinside, h => by
      obtain ⟨_, _, hitem, hrest, hcons⟩ := listOfJson?_cons_eq_some_iff.mp h
      cases hcons
      rw [List.forall_mem_cons] at hinside
      exact .cons (extendsTo_of_ofJson? hplain node hinside.1 hitem)
        (extendedAs_of_listOfJson? hplain nodes hinside.2 hrest)

end

/-! ## Where decoding fails -/

theorem exists_ofJson?_of_mem {nested : Bool} {list : List Json} {nodes : List Node}
    (h : listOfJson? nested list = some nodes) {item : Json} (hitem : item ∈ list) :
    ∃ node, ofJson? nested item = some node := by
  induction list generalizing nodes with
  | nil => cases hitem
  | cons first rest ih =>
      obtain ⟨node, others, hfirst, hrest, -⟩ := listOfJson?_cons_eq_some_iff.mp h
      rcases List.mem_cons.mp hitem with rfl | hitem
      · exact ⟨node, hfirst⟩
      · exact ih hrest hitem

/-- The lists inside a node that is found in an object are read as nodes. -/
theorem FoundIn.exists_readAs {members : List (String × Json)} {node : Node}
    (hkeys : (members.map Prod.fst).Nodup) (h : node.FoundIn ReadAs members) {tag : NodeTag}
    {field : String} {list : List Json} (htag : ("type", .string tag.name) ∈ members)
    (hfield : field ∈ tag.listFields) (hlist : (field, .array list) ∈ members) :
    ∃ nodes, ReadAs list nodes := by
  have hsame {other : NodeTag} (hother : members.lookup "type" = some (.string other.name)) :
      tag = other := by
    have hvalue := eq_of_mem_of_nodup_keys hkeys htag (mem_of_lookup_eq_some hother)
    exact NodeTag.name_injective (Json.string.inj hvalue)
  have hread {list' : List Json} {nodes : List Node}
      (hlookup : members.lookup field = some (.array list')) (hnodes : ReadAs list' nodes) :
      ∃ nodes, ReadAs list nodes := by
    have hvalue := eq_of_mem_of_nodup_keys hkeys hlist (mem_of_lookup_eq_some hlookup)
    cases hvalue
    exact ⟨nodes, hnodes⟩
  cases node with
  | text content =>
      rw [hsame h.1] at hfield
      cases hfield
  | span kind children =>
      obtain ⟨hother, list', hlookup, hnodes⟩ := h
      rw [hsame hother, NodeTag.listFields, List.mem_singleton] at hfield
      subst hfield
      exact hread hlookup hnodes
  | link label address =>
      obtain ⟨hother, ⟨list', hlookup, hnodes⟩, list'', hlookup', hnodes'⟩ := h
      rw [hsame hother, NodeTag.listFields, List.mem_pair] at hfield
      rcases hfield with rfl | rfl
      · exact hread hlookup hnodes
      · exact hread hlookup' hnodes'

/-- Where a list is decoded, something is read at every place of a node. -/
theorem Place.exists_ofJson? (hplain : PlainForm items) {nested : Bool} {nodes : List Node}
    (h : listOfJson? nested items = some nodes) {place : Json} (hplace : Place items place) :
    ∃ nested node, ofJson? nested place = some node := by
  induction hplace with
  | item hitem => exact ⟨nested, exists_ofJson?_of_mem h hitem⟩
  | inside hobject htag hfield hlist hmem ih =>
      obtain ⟨nested', node, hnode⟩ := ih
      obtain ⟨members, hmembers, hfound⟩ := hplain.exists_foundIn hobject hnode
      cases hmembers
      obtain ⟨nodes', hnodes'⟩ :=
        hfound.exists_readAs (hplain.nodup_keys _ hobject) htag hfield hlist
      exact ⟨true, exists_ofJson?_of_mem hnodes' hmem⟩

theorem FoundIn.isNodeObject {members : List (String × Json)} {node : Node}
    (h : node.FoundIn ReadAs members) : IsNodeObject (.object members) := by
  cases node with
  | text content =>
      refine ⟨members, .text, rfl, mem_of_lookup_eq_some h.1, ?_, by simp [NodeTag.listFields]⟩
      simpa [NodeTag.textFields] using ⟨content, mem_of_lookup_eq_some h.2⟩
  | span kind children =>
      obtain ⟨htag, list, hlookup, -⟩ := h
      refine ⟨members, .span kind, rfl, mem_of_lookup_eq_some htag,
        by simp [NodeTag.textFields], ?_⟩
      simpa [NodeTag.listFields] using ⟨list, mem_of_lookup_eq_some hlookup⟩
  | link label address =>
      obtain ⟨htag, ⟨list, hlookup, -⟩, list', hlookup', -⟩ := h
      refine ⟨members, .link, rfl, mem_of_lookup_eq_some htag, by simp [NodeTag.textFields], ?_⟩
      simpa [NodeTag.listFields] using
        ⟨⟨list, mem_of_lookup_eq_some hlookup⟩, list', mem_of_lookup_eq_some hlookup'⟩

/-- An object of the right form is read if the lists of its fields are. -/
theorem exists_foundIn_of_isNodeObject {members : List (String × Json)}
    (hkeys : (members.map Prod.fst).Nodup) (h : IsNodeObject (.object members))
    (hlists : ∀ tag field list, ("type", .string (NodeTag.name tag)) ∈ members →
      field ∈ tag.listFields → (field, .array list) ∈ members → ∃ nodes, ReadAs list nodes) :
    ∃ node : Node, node.FoundIn ReadAs members := by
  obtain ⟨_, tag, hmembers, htag, htexts, hfields⟩ := h
  cases hmembers
  have hlookup {field : String} (hfield : field ∈ tag.listFields) :
      ∃ list nodes, members.lookup field = some (.array list) ∧ ReadAs list nodes := by
    obtain ⟨list, hlist⟩ := hfields field hfield
    obtain ⟨nodes, hnodes⟩ := hlists tag field list htag hfield hlist
    exact ⟨list, nodes, (lookup_eq_some_iff_mem hkeys).mpr hlist, hnodes⟩
  have htype := (lookup_eq_some_iff_mem hkeys).mpr htag
  cases tag with
  | text =>
      obtain ⟨content, hcontent⟩ := htexts "content" List.mem_cons_self
      exact ⟨.text content, htype, (lookup_eq_some_iff_mem hkeys).mpr hcontent⟩
  | span kind =>
      obtain ⟨list, children, hchildren⟩ := hlookup (List.mem_singleton_self "children")
      exact ⟨.span kind children, htype, list, hchildren⟩
  | link =>
      obtain ⟨list, label, hlabel⟩ := hlookup (List.mem_pair.mpr (.inl rfl))
      obtain ⟨list', address, haddress⟩ := hlookup (List.mem_pair.mpr (.inr rfl))
      exact ⟨.link label address, htype, ⟨list, hlabel⟩, list', haddress⟩

mutual

/-- Where every place holds an object of the right form, every place is read. -/
theorem exists_ofJson? (hplain : PlainForm items) (hgood : ∀ place, Place items place →
    IsNodeObject place) (nested : Bool) :
    (json : Json) → Place items json → ∃ node, ofJson? nested json = some node
  | .object members, hplace => by
      have hlists := fun tag field list (htag : ("type", .string (NodeTag.name tag)) ∈ members)
          (hfield : field ∈ tag.listFields) (hlist : (field, .array list) ∈ members) =>
        exists_readAs_of_mem hplain hgood members hlist fun item hitem =>
          .inside hplace htag hfield hlist hitem
      obtain ⟨node, hfound⟩ := exists_foundIn_of_isNodeObject (hplain.nodup_keys members hplace)
        (hgood _ hplace) hlists
      exact ⟨node, ofJson?_of_foundIn hfound⟩
  | .array list, hplace => absurd hplace (hplain.not_array list)
  | .null, hplace | .boolean _, hplace | .number _ _, hplace | .string _, hplace => by
      obtain ⟨_, _, hobject, _⟩ := hgood _ hplace
      cases hobject

theorem exists_readAs_of_mem (hplain : PlainForm items) (hgood : ∀ place, Place items place →
    IsNodeObject place) :
    (members : List (String × Json)) → {field : String} → {list : List Json} →
      (field, .array list) ∈ members → (∀ item ∈ list, Place items item) →
      ∃ nodes, ReadAs list nodes
  | (_, value) :: rest, field, list, hmem, hinside => by
      rcases List.mem_cons.mp hmem with heq | hmem
      · exact exists_readAs_of_value hplain hgood value (Prod.mk.inj heq).2.symm hinside
      · exact exists_readAs_of_mem hplain hgood rest hmem hinside

theorem exists_readAs_of_value (hplain : PlainForm items) (hgood : ∀ place, Place items place →
    IsNodeObject place) :
    (value : Json) → {list : List Json} → value = .array list →
      (∀ item ∈ list, Place items item) → ∃ nodes, ReadAs list nodes
  | .array list, _, heq, hinside => by
      cases heq
      exact exists_listOfJson? hplain hgood true list hinside

theorem exists_listOfJson? (hplain : PlainForm items) (hgood : ∀ place, Place items place →
    IsNodeObject place) (nested : Bool) :
    (list : List Json) → (∀ item ∈ list, Place items item) →
      ∃ nodes, listOfJson? nested list = some nodes
  | [], _ => ⟨[], rfl⟩
  | item :: rest, hinside => by
      rw [List.forall_mem_cons] at hinside
      obtain ⟨node, hnode⟩ := exists_ofJson? hplain hgood nested item hinside.1
      obtain ⟨nodes, hnodes⟩ := exists_listOfJson? hplain hgood nested rest hinside.2
      exact ⟨node :: nodes, listOfJson?_cons_eq_some_iff.mpr ⟨node, nodes, hnode, hnodes, rfl⟩⟩

end

end Places

/-- The written form of a list decodes to that list. A JSON list in plain form decodes to a node
list exactly if it is an extension of its written form, and fails exactly if at some place of a
node there is no object that names a type and has the fields of that type. -/
theorem decode?_extensions :
    (∀ nodes, decode? (.array (listToJson nodes)) = some nodes) ∧
      ∀ items, PlainForm items →
        (∀ nodes, decode? (.array items) = some nodes ↔
          Json.ExtendsTo (.array (listToJson nodes)) (.array items)) ∧
        (decode? (.array items) = none ↔ ∃ place, Place items place ∧ ¬ IsNodeObject place) := by
  refine ⟨?_, fun items hplain => ⟨fun nodes => ?_, ?_⟩⟩
  · intro nodes
    exact listOfJson?_of_extendedAs false nodes (Json.AllExtendTo.refl _)
  · rw [decode?, Json.extendsTo_array_iff]
    constructor
    · intro h
      exact ⟨items, rfl, extendedAs_of_listOfJson? hplain nodes (fun _ => .item) h⟩
    · rintro ⟨_, hitems, hextended⟩
      cases hitems
      exact listOfJson?_of_extendedAs false nodes hextended
  · rw [decode?]
    constructor
    · intro hnone
      by_contra hgood
      push Not at hgood
      obtain ⟨nodes, hnodes⟩ := exists_listOfJson? hplain hgood false items fun _ => .item
      rw [hnone] at hnodes
      cases hnodes
    · rintro ⟨place, hplace, hbad⟩
      rw [Option.eq_none_iff_forall_ne_some]
      intro nodes hnodes
      obtain ⟨nested, node, hnode⟩ := hplace.exists_ofJson? hplain hnodes
      obtain ⟨members, rfl, hfound⟩ := hplain.exists_foundIn hplace hnode
      exact hbad hfound.isNodeObject

/-- The members of a text with one more member, which bears the name of a span's field and
holds what could stand at no place of a node. -/
def textWithChildren : List (String × Json) :=
  [("children", .array [.array []]), ("content", .string "a"), ("type", .string "text")]

theorem decode?_extensions_text_with_children :
    PlainForm [.object textWithChildren] ∧
      Json.ExtendsTo (.array (listToJson [.text "a"])) (.array [.object textWithChildren]) := by
  have hplace {place : Json} (h : Place [.object textWithChildren] place) :
      place = .object textWithChildren := by
    induction h with
    | item h => exact List.mem_singleton.mp h
    | @inside members tag field list place _ htag hfield _ _ ih =>
        cases ih
        have hname : tag.name = "text" := by simpa [textWithChildren] using htag
        have htext : tag = .text := NodeTag.name_injective hname
        rw [htext] at hfield
        cases hfield
  have hplain : PlainForm [.object textWithChildren] := by
    constructor
    · intro members h
      cases hplace h
      decide
    · intro list h
      cases hplace h
    · intro members mantissa exponent h
      cases hplace h
      simp [textWithChildren]
  exact ⟨hplain, ((decode?_extensions.2 _ hplain).1 [.text "a"]).mp rfl⟩

end Node

end LineMarkup
