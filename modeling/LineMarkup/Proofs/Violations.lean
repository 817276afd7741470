import LineMarkup.Proofs.DataModel

/-!
# What the validator reports

The validator names one violation, the first that it meets. That violation is really there: it
can be found in the list or in the lists right below its items. And where nothing is reported
there is nothing to be found.
-/

namespace LineMarkup

open Node

/-- The lists that the validator looks through: the list itself and those right below its items. -/
def Node.checkedLists (nodes : List Node) : List (List Node) := nodes :: nodes.flatMap childLists

/-- A violation that can be found in a node list. Neighbouring texts count only in a list that is
said to be in normal form. -/
inductive Violation.OccursIn (normalized : Bool) (nodes : List Node) : Violation → Prop
  | adjacentTexts {list left right} : normalized = true → list ∈ checkedLists nodes →
      [left, right] <:+: list → left.isText = true → right.isText = true →
      OccursIn normalized nodes (.adjacentTexts left right)
  | emptyText {list} : list ∈ checkedLists nodes → .text "" ∈ list →
      OccursIn normalized nodes .emptyText
  | emptyChildren {parent} : parent ∈ nodes → [] ∈ parent.childLists →
      OccursIn normalized nodes (.emptyChildren parent)
  | nonTextChild {parent children child} : parent ∈ nodes → children ∈ parent.childLists →
      child ∈ children → child.isText = false → OccursIn normalized nodes (.nonTextChild parent)
  | blankEdge {c kind children} : .span kind children ∈ nodes → kind ≠ .code →
      c ∈ (joinedText children).head? ∨ c ∈ (joinedText children).getLast? →
      Text.isBoundaryBlank c = true →
      OccursIn normalized nodes (.blankEdge c (.span kind children))

variable {normalized : Bool} {nodes : List Node} {violation : Violation}

namespace Node

theorem mem_checkedLists_of_childLists {parent : Node} {children : List Node}
    (hparent : parent ∈ nodes) (hchildren : children ∈ parent.childLists) :
    children ∈ checkedLists nodes :=
  List.mem_cons_of_mem _ (List.mem_flatMap.mpr ⟨parent, hparent, hchildren⟩)

/-! ## What each check reports -/

theorem exists_of_adjacentTexts?_eq_some (h : adjacentTexts? nodes = some violation) :
    ∃ left right, violation = .adjacentTexts left right ∧ [left, right] <:+: nodes ∧
      left.isText = true ∧ right.isText = true := by
  induction nodes using adjacentTexts?.induct with
  | case1 left right rest htexts =>
      rw [adjacentTexts?, if_pos htexts] at h
      obtain ⟨hleft, hright⟩ := Bool.and_eq_true_iff.mp htexts
      exact ⟨left, right, (Option.some.inj h).symm, ⟨[], rest, rfl⟩, hleft, hright⟩
  | case2 left right rest htexts ih =>
      rw [adjacentTexts?, if_neg htexts] at h
      obtain ⟨first, second, hviolation, hinfix, hfirst, hsecond⟩ := ih h
      exact ⟨first, second, hviolation, hinfix.trans (List.suffix_cons _ _).isInfix, hfirst, hsecond⟩
  | case3 nodes hshort => simp [adjacentTexts?] at h

theorem exists_of_violationAmong?_eq_some
    (h : violationAmong? normalized nodes = some violation) :
    ∃ node ∈ nodes, violationIn? normalized node = some violation := by
  induction nodes with
  | nil => simp [violationAmong?] at h
  | cons node rest ih =>
      rw [violationAmong?_cons, Option.or_eq_some_iff] at h
      rcases h with hnode | ⟨_, hrest⟩
      · exact ⟨node, List.mem_cons_self, hnode⟩
      · obtain ⟨later, hlater, hfound⟩ := ih hrest
        exact ⟨later, List.mem_cons_of_mem _ hlater, hfound⟩

theorem eq_emptyText_of_violationIn? {content : String}
    (h : violationIn? normalized (.text content) = some violation) :
    violation = .emptyText ∧ content = "" := by
  rw [violationIn?_text] at h
  split at h
  next hempty => exact ⟨(Option.some.inj h).symm, hempty⟩
  next => cases h

theorem occursIn_of_adjacency? {list : List Node} (hlist : list ∈ checkedLists nodes)
    (h : adjacency? normalized list = some violation) : violation.OccursIn normalized nodes := by
  unfold adjacency? at h
  split at h
  next hnormalized =>
    obtain ⟨left, right, rfl, hinfix, hleft, hright⟩ := exists_of_adjacentTexts?_eq_some h
    exact .adjacentTexts hnormalized hlist hinfix hleft hright
  next => cases h

section Below

variable {parent : Node} {children : List Node}

theorem occursIn_of_childForm? (hparent : parent ∈ nodes) (hchildren : children ∈ parent.childLists)
    (h : childForm? parent children = some violation) : violation.OccursIn normalized nodes := by
  unfold childForm? at h
  split at h
  next hempty =>
    rw [List.isEmpty_iff.mp hempty] at hchildren
    cases h
    exact .emptyChildren hparent hchildren
  next =>
    split at h
    next => cases h
    next htexts =>
      cases h
      obtain ⟨child, hchild, htext⟩ : ∃ child ∈ children, child.isText = false := by
        simpa using htexts
      exact .nonTextChild hparent hchildren hchild htext

/-- The checks of a list below a node report only what is there. -/
theorem occursIn_of_violationBelow? (hparent : parent ∈ nodes)
    (hchildren : children ∈ parent.childLists)
    (h : violationBelow? normalized parent children = some violation) :
    violation.OccursIn normalized nodes := by
  have hlist := mem_checkedLists_of_childLists hparent hchildren
  rw [violationBelow?, Option.or_eq_some_iff, Option.or_eq_some_iff] at h
  rcases h with hform | ⟨hform, hadjacent | ⟨_, hitems⟩⟩
  · exact occursIn_of_childForm? hparent hchildren hform
  · exact occursIn_of_adjacency? hlist hadjacent
  · -- All items are texts by now, so that one of them is empty.
    obtain ⟨child, hchild, hfound⟩ := exists_of_violationAmong?_eq_some hitems
    have htext := ((childForm?_eq_none_iff parent children).mp hform).2 child hchild
    cases child with
    | text content =>
        obtain ⟨rfl, rfl⟩ := eq_emptyText_of_violationIn? hfound
        exact .emptyText hlist hchild
    | span kind children => cases htext
    | link label address => cases htext

end Below

theorem occursIn_of_blankEdge? {kind : SpanKind} {children : List Node}
    (hspan : .span kind children ∈ nodes) (hkind : kind ≠ .code)
    (hrun : IsTextRun normalized children)
    (h : blankEdge? (.span kind children) children = some violation) :
    violation.OccursIn normalized nodes := by
  rw [blankEdge?, hrun.edgeChars_eq, Option.map_eq_some_iff] at h
  obtain ⟨c, hfound, rfl⟩ := h
  have hedge := List.mem_of_find?_eq_some hfound
  rw [List.mem_append, Option.mem_toList, Option.mem_toList] at hedge
  exact .blankEdge hspan hkind hedge (List.find?_some hfound)

theorem occursIn_of_violationIn? {node : Node} (hnode : node ∈ nodes)
    (h : violationIn? normalized node = some violation) : violation.OccursIn normalized nodes := by
  cases node with
  | text content =>
      obtain ⟨rfl, rfl⟩ := eq_emptyText_of_violationIn? h
      exact .emptyText List.mem_cons_self hnode
  | span kind children =>
      rw [violationIn?_span, Option.or_eq_some_iff] at h
      rcases h with hbelow | ⟨hnone, hedges⟩
      · exact occursIn_of_violationBelow? hnode List.mem_cons_self hbelow
      · have hrun := (violationBelow?_eq_none_iff _ _ _).mp hnone
        split at hedges
        next hrule =>
          exact occursIn_of_blankEdge? hnode (kind.hasBoundaryRule_iff.mp hrule) hrun hedges
        next => cases hedges
  | link label address =>
      rw [violationIn?_link, Option.or_eq_some_iff] at h
      rcases h with hlabel | ⟨_, haddress⟩
      · exact occursIn_of_violationBelow? hnode List.mem_cons_self hlabel
      · exact occursIn_of_violationBelow? hnode (List.mem_cons_of_mem _ List.mem_cons_self) haddress

/-- What the validator reports is found in the list. -/
theorem occursIn_of_violation?_eq_some (h : violation? normalized nodes = some violation) :
    violation.OccursIn normalized nodes := by
  rw [violation?_eq, Option.or_eq_some_iff] at h
  rcases h with hadjacent | ⟨_, hitems⟩
  · exact occursIn_of_adjacency? List.mem_cons_self hadjacent
  · obtain ⟨node, hnode, hfound⟩ := exists_of_violationAmong?_eq_some hitems
    exact occursIn_of_violationIn? hnode hfound

/-! ## Nothing is overlooked -/

theorem AllConform.isTextRun (h : AllConform normalized nodes) {parent : Node}
    {children : List Node} (hparent : parent ∈ nodes) (hchildren : children ∈ parent.childLists) :
    IsTextRun normalized children :=
  ((conforms_iff_childLists normalized parent).mp (h.items parent hparent)).2.1 children hchildren

/-- Each list of a valid list that is looked through follows the data model itself. -/
theorem AllConform.of_mem_checkedLists (h : AllConform normalized nodes) {list : List Node}
    (hlist : list ∈ checkedLists nodes) : AllConform normalized list := by
  rcases List.mem_cons.mp hlist with rfl | hbelow
  · exact h
  · obtain ⟨parent, hparent, hchildren⟩ := List.mem_flatMap.mp hbelow
    have hrun := h.isTextRun hparent hchildren
    refine ⟨?_, ?_⟩
    · intro child hchild
      obtain ⟨content, rfl, hcontent⟩ := hrun.texts child hchild
      exact hcontent
    · intro hnormalized
      obtain ⟨child, rfl⟩ := List.length_eq_one_iff.mp (hrun.single hnormalized)
      exact List.IsChain.singleton child

theorem AllConform.not_occursIn (h : AllConform normalized nodes) :
    ¬ violation.OccursIn normalized nodes := by
  intro hoccurs
  cases hoccurs with
  | adjacentTexts hnormalized hlist hinfix hleft hright =>
      have hapart := (h.of_mem_checkedLists hlist).apart hnormalized
      obtain ⟨front, rest, rfl⟩ := hinfix
      have hpair := hapart.left_of_append.right_of_append
      exact (List.isChain_cons_cons.mp hpair).1 ⟨hleft, hright⟩
  | emptyText hlist htext => exact (h.of_mem_checkedLists hlist).items _ htext rfl
  | emptyChildren hparent hempty => exact (h.isTextRun hparent hempty).ne_nil rfl
  | nonTextChild hparent hchildren hchild htext =>
      obtain ⟨content, rfl, _⟩ := (h.isTextRun hparent hchildren).texts _ hchild
      cases htext
  | blankEdge hspan hkind hedge hblank =>
      have hfirm := ((conforms_iff_childLists normalized _).mp (h.items _ hspan)).2.2 _ _ rfl hkind
      rcases hedge with hfirst | hlast
      · rw [hfirm.head _ hfirst] at hblank
        cases hblank
      · rw [hfirm.last _ hlast] at hblank
        cases hblank

/-- The validator reports nothing exactly if no violation is to be found. -/
theorem violation?_eq_none_iff_forall_not_occursIn (normalized : Bool) (nodes : List Node) :
    violation? normalized nodes = none ↔
      ∀ violation : Violation, ¬ violation.OccursIn normalized nodes := by
  constructor
  · intro hnone violation
    exact ((violation?_eq_none_iff normalized nodes).mp hnone).not_occursIn
  · intro hnothing
    cases hviolation : violation? normalized nodes with
    | none => rfl
    | some violation => exact absurd (occursIn_of_violation?_eq_some hviolation) (hnothing violation)

end Node

end LineMarkup
