import LineMarkup.Proofs.Events
import LineMarkup.Proofs.Merged

/-!
# Lists without empty texts

Merging the texts of a list neither mends a fault of it nor makes one, apart from empty texts,
which normal form drops. So the validator finds the same first fault in the normal form as in the
list without its empty texts: what it reports of a node there, it reports here of the node with
the lists below it in normal form.
-/

namespace LineMarkup

/-- The violation with its node, if it names one, in normal form below. -/
def Violation.normalizeParent : Violation → Violation
  | .adjacentTexts left right => .adjacentTexts left right
  | .emptyText => .emptyText
  | .emptyChildren parent => .emptyChildren parent.normalizeBelow
  | .nonTextChild parent => .nonTextChild parent.normalizeBelow
  | .blankEdge c parent => .blankEdge c parent.normalizeBelow

namespace Node

/-! ## Dropping empty texts -/

mutual

/-- A node without the empty texts below it. -/
def stripBelow : Node → Node
  | .text content => .text content
  | .span kind children => .span kind (strip children)
  | .link label address => .link (strip label) (strip address)

/-- A node list without its empty texts, at every depth. -/
def strip : List Node → List Node
  | [] => []
  | .text content :: rest => if content = "" then strip rest else .text content :: strip rest
  | node :: rest => node.stripBelow :: strip rest

end

theorem strip_text_cons (content : String) (rest : List Node) :
    strip (.text content :: rest) =
      if content = "" then strip rest else .text content :: strip rest := by
  rw [strip]

theorem strip_cons_of_not_isText {node : Node} (h : node.isText = false) (rest : List Node) :
    strip (node :: rest) = node.stripBelow :: strip rest := by
  cases node with
  | text content => cases h
  | span kind children => rw [strip]; exact nofun
  | link label address => rw [strip]; exact nofun

theorem isText_stripBelow (node : Node) : node.stripBelow.isText = node.isText := by
  cases node <;> simp [stripBelow, isText]

theorem text_empty_notMem_strip (nodes : List Node) : .text "" ∉ strip nodes := by
  induction nodes using texts_induction with
  | nil =>
      rw [strip]
      exact List.not_mem_nil
  | text content rest ih =>
      rw [strip_text_cons]
      split
      next => exact ih
      next hcontent =>
        rw [List.mem_cons, not_or]
        exact ⟨fun heq => hcontent (Node.text.inj heq).symm, ih⟩
  | other node rest htext ih =>
      rw [strip_cons_of_not_isText htext, List.mem_cons, not_or]
      refine ⟨?_, ih⟩
      intro heq
      rw [← isText_stripBelow, ← heq] at htext
      cases htext

mutual

theorem normalizeBelow_stripBelow : (node : Node) →
    node.stripBelow.normalizeBelow = node.normalizeBelow
  | .text content => rfl
  | .span kind children => by
      rw [stripBelow, normalizeBelow, normalizeBelow, normalizeFrom_strip]
  | .link label address => by
      rw [stripBelow, normalizeBelow, normalizeBelow, normalizeFrom_strip, normalizeFrom_strip]

/-- Empty texts do not count for the normal form. -/
theorem normalizeFrom_strip (gathered : String) (nodes : List Node) :
    normalizeFrom gathered (strip nodes) = normalizeFrom gathered nodes := by
  cases nodes with
  | nil => rw [strip]
  | cons node rest =>
      rcases node.exists_eq_text_or_not_isText with ⟨content, rfl⟩ | htext
      · rw [strip_text_cons, normalizeFrom_text_cons]
        split
        next hcontent => rw [hcontent, String.append_empty, normalizeFrom_strip]
        next => rw [normalizeFrom_text_cons, normalizeFrom_strip]
      · rw [strip_cons_of_not_isText htext,
          normalizeFrom_cons_of_not_isText ((isText_stripBelow node).trans htext),
          normalizeBelow_stripBelow, normalizeFrom_cons_of_not_isText htext, normalizeFrom_strip]

end

/-! ## The checks of a list without empty texts -/

theorem all_isText_normalizeFrom (gathered : String) (nodes : List Node) :
    (normalizeFrom gathered nodes).all isText = nodes.all isText := by
  induction nodes using texts_induction generalizing gathered with
  | nil =>
      rw [normalizeFrom, ofGathered]
      split <;> rfl
  | text content rest ih =>
      rw [normalizeFrom_text_cons, ih]
      rfl
  | other node rest htext ih =>
      have hbelow := (isText_normalizeBelow node).trans htext
      rw [normalizeFrom_cons_of_not_isText htext, List.all_append, List.all_cons, List.all_cons,
        htext, hbelow, Bool.false_and, Bool.false_and, Bool.and_false]

/-- Only an empty text leaves no trace in a walk. -/
theorem events_eq_nil_iff (node : Node) : node.events = [] ↔ node = .text "" := by
  cases node with
  | text content => simp [events]
  | span kind children => simp [events]
  | link label address => simp [events]

theorem normalizeFrom_eq_nil_iff {nodes : List Node} (h : .text "" ∉ nodes) :
    normalizeFrom "" nodes = [] ↔ nodes = [] := by
  constructor
  · intro hnil
    have hwalk : allEvents nodes = [] := by rw [← allEvents_normalize, normalize, hnil, allEvents_nil]
    cases nodes with
    | nil => rfl
    | cons node rest =>
        rw [allEvents_cons, List.append_eq_nil_iff, events_eq_nil_iff] at hwalk
        exact absurd (hwalk.1 ▸ List.mem_cons_self) h
  · rintro rfl
    rfl

/-- Below a node the form of a list is judged alike before and after its texts are merged. -/
theorem childForm?_normalizeFrom {children : List Node} (h : .text "" ∉ children)
    (parent : Node) :
    childForm? parent.normalizeBelow (normalizeFrom "" children) =
      (childForm? parent children).map .normalizeParent := by
  have hempty : (normalizeFrom "" children).isEmpty = children.isEmpty := by
    rw [Bool.eq_iff_iff, List.isEmpty_iff, List.isEmpty_iff, normalizeFrom_eq_nil_iff h]
  rw [childForm?, childForm?, hempty, all_isText_normalizeFrom]
  split
  next => rfl
  next => split <;> rfl

/-- The texts of a list are in order: none is empty, and none are neighbours where that counts. -/
structure HasSoundTexts (normalized : Bool) (nodes : List Node) : Prop where
  text_ne_empty : .text "" ∉ nodes
  apart : normalized = true → NoAdjacentTexts nodes

theorem hasSoundTexts_strip (nodes : List Node) : HasSoundTexts false (strip nodes) :=
  ⟨text_empty_notMem_strip nodes, nofun⟩

theorem hasSoundTexts_normalizeFrom (gathered : String) (nodes : List Node) :
    HasSoundTexts true (normalizeFrom gathered nodes) := by
  have hmerged := isMerged_normalizeFrom gathered nodes
  exact ⟨hmerged.text_ne_empty, fun _ => hmerged.apart⟩

section SoundTexts

variable {normalized : Bool} {children : List Node} (h : HasSoundTexts normalized children)
include h

theorem HasSoundTexts.isTextRun {parent : Node} (hform : childForm? parent children = none) :
    IsTextRun normalized children := by
  obtain ⟨_, htexts⟩ := (childForm?_eq_none_iff parent children).mp hform
  have hitems : violationAmong? normalized children = none := by
    rw [violationAmong?_eq_none_iff]
    intro child hchild
    cases child with
    | text content =>
        rw [violationIn?_eq_none_iff]
        rintro rfl
        exact h.text_ne_empty hchild
    | span kind children => cases htexts _ hchild
    | link label address => cases htexts _ hchild
  rw [← violationBelow?_eq_none_iff normalized parent, violationBelow?, hform,
    (adjacency?_eq_none_iff normalized children).mpr h.apart, hitems]
  rfl

/-- In a list below a node whose texts are in order only its form can be wrong. -/
theorem HasSoundTexts.violationBelow?_eq (parent : Node) :
    violationBelow? normalized parent children = childForm? parent children := by
  cases hform : childForm? parent children with
  | some violation => rw [violationBelow?, hform, Option.some_or]
  | none => exact (violationBelow?_eq_none_iff _ _ _).mpr (h.isTextRun hform)

end SoundTexts

/-! ## The checks of the normal form -/

/-- Merging keeps the edges of a run of texts. -/
theorem IsTextRun.blankEdge?_normalizeFrom {normalized : Bool} {children : List Node}
    (h : IsTextRun normalized children) (parent : Node) :
    blankEdge? parent.normalizeBelow (Node.normalizeFrom "" children) =
      (blankEdge? parent children).map .normalizeParent := by
  rw [blankEdge?, blankEdge?, h.normalizeFrom.edgeChars_eq, h.joinedText_normalizeFrom,
    h.edgeChars_eq, Option.map_map]
  rfl

/-- Below a node the first violation in a normal form is the one in the list without its empty
texts. -/
theorem violationBelow?_normalizeFrom (parent : Node) (children : List Node) :
    violationBelow? true parent.normalizeBelow (normalizeFrom "" (strip children)) =
      (violationBelow? false parent (strip children)).map .normalizeParent := by
  rw [(hasSoundTexts_normalizeFrom "" _).violationBelow?_eq,
    (hasSoundTexts_strip children).violationBelow?_eq,
    childForm?_normalizeFrom (text_empty_notMem_strip children)]

theorem violationIn?_normalizeBelow {node : Node} (htext : node.isText = false) :
    violationIn? true node.normalizeBelow =
      (violationIn? false node.stripBelow).map .normalizeParent := by
  rw [← normalizeBelow_stripBelow]
  cases node with
  | text content => cases htext
  | span kind children =>
      have hbelow := violationBelow?_normalizeFrom (.span kind (strip children)) children
      have hedges (hrun : IsTextRun false (strip children)) :=
        hrun.blankEdge?_normalizeFrom (.span kind (strip children))
      rw [stripBelow, violationIn?_span, Option.map_or, ← hbelow]
      rw [normalizeBelow] at hbelow hedges ⊢
      rw [violationIn?_span]
      -- The edges are looked at only where nothing else is wrong, and then the texts are a run.
      cases hlist : violationBelow? true (.span kind (normalizeFrom "" (strip children)))
          (normalizeFrom "" (strip children)) with
      | some violation => rfl
      | none =>
          rw [hlist, eq_comm, Option.map_eq_none_iff, violationBelow?_eq_none_iff] at hbelow
          split
          next => rw [hedges hbelow]
          next => rfl
  | link label address =>
      have hlabel := violationBelow?_normalizeFrom (.link (strip label) (strip address)) label
      have haddress := violationBelow?_normalizeFrom (.link (strip label) (strip address)) address
      rw [stripBelow, violationIn?_link, Option.map_or, ← hlabel, ← haddress, normalizeBelow,
        violationIn?_link]

theorem violationAmong?_text_cons {content : String} (h : content ≠ "") (normalized : Bool)
    (rest : List Node) :
    violationAmong? normalized (.text content :: rest) = violationAmong? normalized rest := by
  have htext : violationIn? normalized (.text content) = none :=
    (violationIn?_eq_none_iff normalized _).mpr h
  rw [violationAmong?_cons, htext, Option.none_or]

theorem violationAmong?_ofGathered_append (normalized : Bool) (gathered : String)
    (nodes : List Node) :
    violationAmong? normalized (ofGathered gathered ++ nodes) =
      violationAmong? normalized nodes := by
  by_cases hgathered : gathered = ""
  · rw [hgathered]
    rfl
  · rw [ofGathered_of_ne_empty hgathered, List.singleton_append,
      violationAmong?_text_cons hgathered]

theorem violationAmong?_normalizeFrom (gathered : String) (nodes : List Node) :
    violationAmong? true (normalizeFrom gathered nodes) =
      (violationAmong? false (strip nodes)).map .normalizeParent := by
  induction nodes using texts_induction generalizing gathered with
  | nil =>
      rw [normalizeFrom, ← List.append_nil (ofGathered gathered),
        violationAmong?_ofGathered_append, strip, violationAmong?, violationAmong?]
      rfl
  | text content rest ih =>
      rw [normalizeFrom_text_cons, ih, strip_text_cons]
      split
      next => rfl
      next hcontent => rw [violationAmong?_text_cons hcontent]
  | other node rest htext ih =>
      rw [normalizeFrom_cons_of_not_isText htext, violationAmong?_ofGathered_append,
        strip_cons_of_not_isText htext, violationAmong?_cons, violationAmong?_cons,
        violationIn?_normalizeBelow htext, ih, Option.map_or]

/-- The normal form of a list is valid exactly if the list is, once its empty texts are dropped.
So a valid list has a valid normal form; and whatever is found wrong first without the empty texts,
a nested style, an empty span or a blank at an edge, is found wrong first in the normal form. -/
theorem violation?_normalize (nodes : List Node) :
    (violation? true (normalize nodes) = none ↔ violation? false (strip nodes) = none) ∧
      (violation? false nodes = none → violation? true (normalize nodes) = none) ∧
      violation? true (normalize nodes) =
        (violation? false (strip nodes)).map .normalizeParent := by
  have hfirst : violation? true (normalize nodes) =
      (violation? false (strip nodes)).map .normalizeParent := by
    have hapart := (adjacency?_eq_none_iff true (normalize nodes)).mpr
      fun _ => noAdjacentTexts_normalizeFrom "" nodes
    rw [violation?, violation?, hapart]
    exact violationAmong?_normalizeFrom "" nodes
  refine ⟨?_, ?_, hfirst⟩
  · rw [hfirst, Option.map_eq_none_iff]
  · intro hvalid
    exact (violation?_eq_none_iff true _).mpr ((violation?_eq_none_iff false _).mp hvalid).normalize

theorem violation?_normalize_inner_blank :
    violation? false [.text "a", .text "b", .span .bold [.text "c", .text " ", .text "d"]] = none ∧
      violation? true
        (normalize [.text "a", .text "b", .span .bold [.text "c", .text " ", .text "d"]]) = none :=
  ⟨by decide, (violation?_normalize _).2.1 (by decide)⟩

/-- An empty text in front of a blank does not keep it from being an edge. -/
example : violation? true (normalize [.span .bold [.text "", .text " ", .text "a"]]) =
    some (.blankEdge ' ' (.span .bold [.text " a"])) := by
  decide

end Node

end LineMarkup
