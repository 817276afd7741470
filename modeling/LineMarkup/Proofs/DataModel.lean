import LineMarkup.Node.Validity
import LineMarkup.Proofs.Phrase
import Mathlib.Data.List.Chain

/-!
# The data model of node lists

The data model says which node lists are valid without saying in which order they are
checked: no text is empty, the lists below a node hold texts only and at least one, and a
styled span has no boundary blank at either edge of its joined text. In normal form
texts are kept apart, so that a list below a node is a single text. The validator
accepts exactly these lists.
-/

namespace LineMarkup.Node

/-- No two texts stand next to each other. -/
def NoAdjacentTexts (nodes : List Node) : Prop :=
  nodes.IsChain fun left right => ¬ (left.isText = true ∧ right.isText = true)

/-- A list that may stand below a node. -/
structure IsTextRun (normalized : Bool) (children : List Node) : Prop where
  ne_nil : children ≠ []
  texts : ∀ child ∈ children, ∃ content, child = .text content ∧ content ≠ ""
  single : normalized = true → children.length = 1

/-- The contents of the texts in a list, joined. -/
def joinedText (children : List Node) : List Char :=
  children.flatMap fun child => (child.text?.getD "").toList

/-- The data model of a node. -/
def Conforms (normalized : Bool) : Node → Prop
  | .text content => content ≠ ""
  | .span kind children => IsTextRun normalized children ∧
      (kind.hasBoundaryRule = true → Text.FirmEdges (joinedText children))
  | .link label address => IsTextRun normalized label ∧ IsTextRun normalized address

/-- The data model of a node list. -/
structure AllConform (normalized : Bool) (nodes : List Node) : Prop where
  items : ∀ node ∈ nodes, node.Conforms normalized
  apart : normalized = true → NoAdjacentTexts nodes

mutual

/-- The contents of all texts in a node, at every depth. -/
def contents : Node → List String
  | .text content => [content]
  | .span _ children => allContents children
  | .link label address => allContents label ++ allContents address

/-- The contents of all texts in a list, at every depth. -/
def allContents : List Node → List String
  | [] => []
  | node :: rest => node.contents ++ allContents rest

end

/-- Every text at every depth is a single character. -/
def AllSingle (nodes : List Node) : Prop := ∀ content ∈ allContents nodes, content.length = 1

theorem allSingle_cons (node : Node) (rest : List Node) :
    AllSingle (node :: rest) ↔ AllSingle [node] ∧ AllSingle rest := by
  simp only [AllSingle, allContents, List.append_nil, List.forall_mem_append]

theorem allSingle_text (content : String) : AllSingle [.text content] ↔ content.length = 1 := by
  simp [AllSingle, allContents, contents]

theorem allSingle_span (kind : SpanKind) (children : List Node) :
    AllSingle [.span kind children] ↔ AllSingle children := by
  simp only [AllSingle, allContents, contents, List.append_nil]

theorem allSingle_link (label address : List Node) :
    AllSingle [.link label address] ↔ AllSingle label ∧ AllSingle address := by
  simp only [AllSingle, allContents, contents, List.append_nil, List.forall_mem_append]

theorem allSingle_ofChars (cs : List Char) : AllSingle (ofChars cs) := by
  induction cs with
  | nil => exact nofun
  | cons c cs ih =>
      refine (allSingle_cons _ _).mpr ⟨?_, ih⟩
      exact (allSingle_text _).mpr String.length_singleton

@[simp] theorem joinedText_text_cons (content : String) (rest : List Node) :
    joinedText (.text content :: rest) = content.toList ++ joinedText rest := rfl

@[simp] theorem joinedText_ofChars (cs : List Char) : joinedText (ofChars cs) = cs := by
  induction cs with
  | nil => rfl
  | cons c cs ih =>
      change (String.singleton c).toList ++ joinedText (ofChars cs) = c :: cs
      rw [ih, String.toList_singleton]
      rfl

theorem isTextRun_ofChars {cs : List Char} (h : cs ≠ []) : IsTextRun false (ofChars cs) := by
  refine ⟨by simpa [ofChars] using h, ?_, nofun⟩
  intro child hchild
  obtain ⟨c, _, rfl⟩ := List.mem_map.mp hchild
  exact ⟨String.singleton c, rfl, String.singleton_ne_empty⟩

theorem isTextRun_singleton {normalized : Bool} {content : String} (h : content ≠ "") :
    IsTextRun normalized [.text content] := by
  refine ⟨List.cons_ne_nil _ _, ?_, fun _ => rfl⟩
  intro child hchild
  exact ⟨content, List.mem_singleton.mp hchild, h⟩

theorem IsTextRun.exists_eq_text {normalized : Bool} {children : List Node}
    (h : IsTextRun normalized children) :
    ∀ child ∈ children, ∃ content, child = .text content := by
  intro child hchild
  obtain ⟨content, hcontent, _⟩ := h.texts child hchild
  exact ⟨content, hcontent⟩

theorem IsTextRun.eq_singleton {children : List Node} (h : IsTextRun true children) :
    ∃ content, children = [.text content] := by
  obtain ⟨child, rfl⟩ := List.length_eq_one_iff.mp (h.single rfl)
  obtain ⟨content, rfl⟩ := h.exists_eq_text child List.mem_cons_self
  exact ⟨content, rfl⟩

theorem IsTextRun.joinedText_ne_nil {normalized : Bool} {children : List Node}
    (h : IsTextRun normalized children) : joinedText children ≠ [] := by
  cases children with
  | nil => exact absurd rfl h.ne_nil
  | cons child rest =>
      obtain ⟨content, rfl, hcontent⟩ := h.texts child List.mem_cons_self
      rw [joinedText_text_cons]
      intro hnil
      exact hcontent (String.toList_eq_nil_iff.mp (List.append_eq_nil_iff.mp hnil).1)

theorem IsTextRun.of_normalized {normalized : Bool} {children : List Node}
    (h : IsTextRun normalized children) : IsTextRun false children :=
  ⟨h.ne_nil, h.texts, nofun⟩

/-- Dropping the demand for normal form keeps a list valid. -/
theorem AllConform.of_normalized {normalized : Bool} {nodes : List Node}
    (h : AllConform normalized nodes) : AllConform false nodes := by
  refine ⟨?_, nofun⟩
  intro node hnode
  have hconforms := h.items node hnode
  cases node with
  | text content => exact hconforms
  | span kind children =>
      obtain ⟨hrun, hedges⟩ := hconforms
      exact ⟨hrun.of_normalized, hedges⟩
  | link label address =>
      obtain ⟨hlabel, haddress⟩ := hconforms
      exact ⟨hlabel.of_normalized, haddress.of_normalized⟩

/-- The edges that the validator looks at are those of the joined text. -/
theorem IsTextRun.edgeChars_eq {normalized : Bool} {children : List Node}
    (h : IsTextRun normalized children) :
    edgeChars children =
      (joinedText children).head?.toList ++ (joinedText children).getLast?.toList := by
  have hhead : (children.head?.bind text?).toList.flatMap (fun content =>
      content.toList.head?.toList) = (joinedText children).head?.toList := by
    cases children with
    | nil => rfl
    | cons child rest =>
        obtain ⟨content, rfl, hcontent⟩ := h.texts child List.mem_cons_self
        have hne : content.toList ≠ [] := mt String.toList_eq_nil_iff.mp hcontent
        rw [joinedText_text_cons, List.head?_append_of_ne_nil _ hne]
        exact List.append_nil _
  have hlast : (children.getLast?.bind text?).toList.flatMap (fun content =>
      content.toList.getLast?.toList) = (joinedText children).getLast?.toList := by
    rcases List.eq_nil_or_concat children with rfl | ⟨front, child, rfl⟩
    · rfl
    · obtain ⟨content, rfl, hcontent⟩ := h.texts child (by simp)
      have hne : content.toList ≠ [] := mt String.toList_eq_nil_iff.mp hcontent
      have hjoined : joinedText (front ++ [.text content]) =
          joinedText front ++ content.toList := by
        rw [joinedText, List.flatMap_append, List.flatMap_singleton]
        rfl
      rw [List.concat_eq_append, hjoined, List.getLast?_append_of_ne_nil _ hne,
        List.getLast?_concat]
      exact List.append_nil _
  rw [edgeChars, hhead, hlast]

theorem IsTextRun.blankEdge?_eq_none_iff {normalized : Bool} {children : List Node}
    (h : IsTextRun normalized children) (parent : Node) :
    blankEdge? parent children = none ↔ Text.FirmEdges (joinedText children) := by
  rw [blankEdge?, Option.map_eq_none_iff, List.find?_eq_none, h.edgeChars_eq]
  constructor
  · intro hall
    exact ⟨fun c hc => by simpa using hall c (by simp [Option.mem_def.mp hc]),
      fun c hc => by simpa using hall c (by simp [Option.mem_def.mp hc])⟩
  · intro hedges c hc
    rw [List.mem_append, Option.mem_toList, Option.mem_toList] at hc
    rcases hc with hc | hc
    · simp [hedges.head c hc]
    · simp [hedges.last c hc]

/-! ## The validator -/

/-- The first violation in a list below a node. -/
def violationBelow? (normalized : Bool) (parent : Node) (children : List Node) :
    Option Violation :=
  (childForm? parent children).or ((adjacency? normalized children).or
    (violationAmong? normalized children))

theorem violationIn?_text (normalized : Bool) (content : String) :
    violationIn? normalized (.text content) = if content = "" then some .emptyText else none := by
  simp [violationIn?]

theorem violationIn?_span (normalized : Bool) (kind : SpanKind) (children : List Node) :
    violationIn? normalized (.span kind children) =
      (violationBelow? normalized (.span kind children) children).or
        (if kind.hasBoundaryRule then blankEdge? (.span kind children) children else none) := by
  simp only [violationIn?, violationBelow?, Option.orElse_eq_orElse, Option.orElse_eq_or,
    Option.or_assoc]

theorem violationIn?_link (normalized : Bool) (label address : List Node) :
    violationIn? normalized (.link label address) =
      (violationBelow? normalized (.link label address) label).or
        (violationBelow? normalized (.link label address) address) := by
  simp only [violationIn?, violationBelow?, Option.orElse_eq_orElse, Option.orElse_eq_or,
    Option.or_assoc]

theorem violationAmong?_cons (normalized : Bool) (node : Node) (rest : List Node) :
    violationAmong? normalized (node :: rest) =
      (violationIn? normalized node).or (violationAmong? normalized rest) := by
  rw [violationAmong?, Option.orElse_eq_orElse, Option.orElse_eq_or]

theorem violation?_eq (normalized : Bool) (nodes : List Node) :
    violation? normalized nodes =
      (adjacency? normalized nodes).or (violationAmong? normalized nodes) := by
  rw [violation?, Option.orElse_eq_orElse, Option.orElse_eq_or]

theorem childForm?_eq_none_iff (parent : Node) (children : List Node) :
    childForm? parent children = none ↔
      children ≠ [] ∧ ∀ child ∈ children, child.isText = true := by
  rw [childForm?]
  split
  next hempty => simp [List.isEmpty_iff.mp hempty]
  next hempty =>
    have hne : children ≠ [] := fun hnil => hempty (List.isEmpty_iff.mpr hnil)
    split
    next hall => simpa [hne] using hall
    next hall => simpa [hne] using hall

theorem adjacentTexts?_eq_none_iff (nodes : List Node) :
    adjacentTexts? nodes = none ↔ NoAdjacentTexts nodes := by
  induction nodes with
  | nil => simp [adjacentTexts?, NoAdjacentTexts]
  | cons left rest ih =>
      cases rest with
      | nil => simp [adjacentTexts?, NoAdjacentTexts]
      | cons right rest =>
          rw [NoAdjacentTexts, List.isChain_cons_cons, adjacentTexts?]
          by_cases htexts : left.isText = true ∧ right.isText = true
          · rw [if_pos (by simpa using htexts)]
            simp [htexts]
          · rw [if_neg (by simpa using htexts), ih]
            exact (and_iff_right htexts).symm

theorem adjacency?_eq_none_iff (normalized : Bool) (nodes : List Node) :
    adjacency? normalized nodes = none ↔ (normalized = true → NoAdjacentTexts nodes) := by
  rw [adjacency?]
  cases normalized with
  | false => simp
  | true => simp [adjacentTexts?_eq_none_iff]

theorem violationAmong?_eq_none_iff (normalized : Bool) (nodes : List Node) :
    violationAmong? normalized nodes = none ↔
      ∀ node ∈ nodes, violationIn? normalized node = none := by
  induction nodes with
  | nil => simp [violationAmong?]
  | cons node rest ih =>
      rw [violationAmong?_cons, Option.or_eq_none_iff, ih, List.forall_mem_cons]

theorem violationBelow?_eq_none_iff (normalized : Bool) (parent : Node) (children : List Node) :
    violationBelow? normalized parent children = none ↔ IsTextRun normalized children := by
  rw [violationBelow?, Option.or_eq_none_iff, Option.or_eq_none_iff, childForm?_eq_none_iff,
    adjacency?_eq_none_iff, violationAmong?_eq_none_iff]
  constructor
  · intro h
    obtain ⟨⟨hne, htexts⟩, hadjacent, hitems⟩ := h
    refine ⟨hne, ?_, ?_⟩
    · intro child hchild
      have htext := htexts child hchild
      have hitem := hitems child hchild
      cases child with
      | text content =>
          refine ⟨content, rfl, ?_⟩
          rintro rfl
          cases hitem
      | span kind children => cases htext
      | link label address => cases htext
    · intro hnormalized
      match children, hne with
      | [child], _ => rfl
      | left :: right :: rest, _ =>
          -- Below a node all items are texts, so the first two would be neighbours.
          have hpair := (List.isChain_cons_cons.mp (hadjacent hnormalized)).1
          exact absurd ⟨htexts left (by simp), htexts right (by simp)⟩ hpair
  · intro h
    refine ⟨⟨h.ne_nil, ?_⟩, ?_, ?_⟩
    · intro child hchild
      obtain ⟨content, rfl, _⟩ := h.texts child hchild
      rfl
    · intro hnormalized
      obtain ⟨child, rfl⟩ := List.length_eq_one_iff.mp (h.single hnormalized)
      exact List.IsChain.singleton child
    · intro child hchild
      obtain ⟨content, rfl, hcontent⟩ := h.texts child hchild
      rw [violationIn?_text, if_neg hcontent]

theorem violationIn?_eq_none_iff (normalized : Bool) (node : Node) :
    violationIn? normalized node = none ↔ node.Conforms normalized := by
  cases node with
  | text content => simp [violationIn?_text, Conforms]
  | span kind children =>
      rw [violationIn?_span, Option.or_eq_none_iff, violationBelow?_eq_none_iff, Conforms]
      apply and_congr_right
      intro hrun
      by_cases hrule : kind.hasBoundaryRule = true
      · rw [if_pos hrule, hrun.blankEdge?_eq_none_iff]
        exact ⟨fun hedges _ => hedges, fun hedges => hedges hrule⟩
      · rw [if_neg hrule]
        simp [hrule]
  | link label address =>
      rw [violationIn?_link, Option.or_eq_none_iff, violationBelow?_eq_none_iff,
        violationBelow?_eq_none_iff, Conforms]

/-- The validator accepts exactly the lists of the data model. -/
theorem violation?_eq_none_iff (normalized : Bool) (nodes : List Node) :
    violation? normalized nodes = none ↔ AllConform normalized nodes := by
  rw [violation?_eq, Option.or_eq_none_iff, adjacency?_eq_none_iff, violationAmong?_eq_none_iff]
  constructor
  · intro h
    exact ⟨fun node hnode => (violationIn?_eq_none_iff normalized node).mp (h.2 node hnode), h.1⟩
  · intro h
    exact ⟨h.apart, fun node hnode =>
      (violationIn?_eq_none_iff normalized node).mpr (h.items node hnode)⟩

/-! ## The data model by its lists -/

/-- The lists right below a node. -/
def childLists : Node → List (List Node)
  | .text _ => []
  | .span _ children => [children]
  | .link label address => [label, address]

/-- A node follows the data model if its content is not empty, its lists are runs of texts, and,
unless it is code, its edges are firm. -/
theorem conforms_iff_childLists (normalized : Bool) (node : Node) :
    node.Conforms normalized ↔
      (∀ content, node = .text content → content ≠ "") ∧
        (∀ children ∈ node.childLists, IsTextRun normalized children) ∧
        ∀ kind children, node = .span kind children → kind ≠ .code →
          Text.FirmEdges (joinedText children) := by
  cases node with
  | text content => simp [Conforms, childLists]
  | span kind children => simp [Conforms, childLists, SpanKind.hasBoundaryRule_iff]
  | link label address => simp [Conforms, childLists]

/-- The validator accepts a list exactly if no text in it is empty, the lists below its nodes hold
texts that are not empty and at least one, and no bold, italic or struck span has a blank at an
edge of its joined text; and, where normal form is demanded, no two texts of the list are
neighbours and each list below a node is a single text. -/
theorem violation?_eq_none_iff_childLists (normalized : Bool) (nodes : List Node) :
    violation? normalized nodes = none ↔
      (∀ content, .text content ∈ nodes → content ≠ "") ∧
        (∀ node ∈ nodes, ∀ children ∈ node.childLists, children ≠ [] ∧
          ∀ child ∈ children, ∃ content, child = .text content ∧ content ≠ "") ∧
        (∀ kind children, .span kind children ∈ nodes → kind ≠ .code →
          Text.FirmEdges (joinedText children)) ∧
        (normalized = true → NoAdjacentTexts nodes ∧
          ∀ node ∈ nodes, ∀ children ∈ node.childLists, children.length = 1) := by
  rw [violation?_eq_none_iff]
  constructor
  · intro h
    have hitems := fun node hnode => (conforms_iff_childLists normalized node).mp (h.items node hnode)
    refine ⟨?_, ?_, ?_, ?_⟩
    · intro content hcontent
      exact (hitems _ hcontent).1 content rfl
    · intro node hnode children hchildren
      have hrun := (hitems node hnode).2.1 children hchildren
      exact ⟨hrun.ne_nil, hrun.texts⟩
    · intro kind children hspan hkind
      exact (hitems _ hspan).2.2 kind children rfl hkind
    · intro hnormalized
      refine ⟨h.apart hnormalized, ?_⟩
      intro node hnode children hchildren
      exact ((hitems node hnode).2.1 children hchildren).single hnormalized
  · intro h
    obtain ⟨hcontents, hlists, hedges, hnormal⟩ := h
    refine ⟨?_, fun hnormalized => (hnormal hnormalized).1⟩
    intro node hnode
    rw [conforms_iff_childLists]
    refine ⟨?_, ?_, ?_⟩
    · rintro content rfl
      exact hcontents content hnode
    · intro children hchildren
      obtain ⟨hne, htexts⟩ := hlists node hnode children hchildren
      exact ⟨hne, htexts, fun hnormalized => (hnormal hnormalized).2 node hnode children hchildren⟩
    · rintro kind children rfl hkind
      exact hedges kind children hnode hkind

end LineMarkup.Node
