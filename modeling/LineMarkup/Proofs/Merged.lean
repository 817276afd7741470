import LineMarkup.Proofs.NormalForm

/-!
# Merged lists

A list is merged if no text in it is empty and no two texts stand next to each other. Normal form
makes all lists of a tree merged, at every depth, and it leaves exactly those trees as they are
whose lists are merged already. Lists that are valid in normal form are among these.
-/

namespace LineMarkup.Node

/-! ## The lists of a tree -/

mutual

/-- The lists below a node, at every depth. -/
def listsBelow : Node → List (List Node)
  | .text _ => []
  | .span _ children => children :: listsBelowAll children
  | .link label address => label :: listsBelowAll label ++ address :: listsBelowAll address

/-- The lists below the items of a list, at every depth. -/
def listsBelowAll : List Node → List (List Node)
  | [] => []
  | node :: rest => node.listsBelow ++ listsBelowAll rest

end

/-- All lists of a tree: the outermost one and the lists below its items. -/
def lists (nodes : List Node) : List (List Node) := nodes :: listsBelowAll nodes

/-- Nothing in a list is left to be merged or dropped. -/
structure IsMerged (nodes : List Node) : Prop where
  apart : NoAdjacentTexts nodes
  text_ne_empty : .text "" ∉ nodes

instance (nodes : List Node) : Decidable (NoAdjacentTexts nodes) :=
  inferInstanceAs (Decidable (nodes.IsChain _))

instance (nodes : List Node) : Decidable (IsMerged nodes) :=
  decidable_of_iff (NoAdjacentTexts nodes ∧ .text "" ∉ nodes)
    ⟨fun h => ⟨h.1, h.2⟩, fun h => ⟨h.apart, h.text_ne_empty⟩⟩

theorem listsBelow_span (kind : SpanKind) (children : List Node) :
    listsBelow (.span kind children) = lists children := by
  rw [listsBelow, lists]

theorem listsBelow_link (label address : List Node) :
    listsBelow (.link label address) = lists label ++ lists address := by
  rw [listsBelow, lists, lists]

theorem listsBelowAll_cons (node : Node) (rest : List Node) :
    listsBelowAll (node :: rest) = node.listsBelow ++ listsBelowAll rest := by
  rw [listsBelowAll]

theorem listsBelowAll_eq_flatMap (nodes : List Node) :
    listsBelowAll nodes = nodes.flatMap listsBelow := by
  induction nodes with
  | nil => rfl
  | cons node rest ih => rw [listsBelowAll_cons, ih, List.flatMap_cons]

theorem listsBelowAll_ofGathered_append (gathered : String) (nodes : List Node) :
    listsBelowAll (ofGathered gathered ++ nodes) = listsBelowAll nodes := by
  unfold ofGathered
  split
  next => rfl
  next => rw [List.singleton_append, listsBelowAll_cons, listsBelow, List.nil_append]

/-! ## What normal form makes -/

theorem text_empty_notMem_normalizeFrom (gathered : String) (nodes : List Node) :
    .text "" ∉ normalizeFrom gathered nodes := by
  have hgathered (gathered : String) : .text "" ∉ ofGathered gathered := by
    intro hmem
    obtain ⟨heq, hne⟩ := eq_text_of_mem_ofGathered hmem
    exact hne (Node.text.inj heq).symm
  induction nodes using texts_induction generalizing gathered with
  | nil =>
      rw [normalizeFrom]
      exact hgathered gathered
  | text content rest ih =>
      rw [normalizeFrom_text_cons]
      exact ih _
  | other node rest htext ih =>
      rw [normalizeFrom_cons_of_not_isText htext, List.mem_append, List.mem_cons, not_or, not_or]
      refine ⟨hgathered gathered, ?_, ih ""⟩
      intro heq
      rw [← isText_normalizeBelow, ← heq] at htext
      cases htext

theorem isMerged_normalizeFrom (gathered : String) (nodes : List Node) :
    IsMerged (normalizeFrom gathered nodes) :=
  ⟨noAdjacentTexts_normalizeFrom gathered nodes, text_empty_notMem_normalizeFrom gathered nodes⟩

mutual

theorem forall_listsBelow_normalizeBelow : (node : Node) →
    ∀ list ∈ node.normalizeBelow.listsBelow, IsMerged list
  | .text content => nofun
  | .span kind children => by
      rw [normalizeBelow, listsBelow_span]
      exact forall_lists_normalizeFrom "" children
  | .link label address => by
      rw [normalizeBelow, listsBelow_link, List.forall_mem_append]
      exact ⟨forall_lists_normalizeFrom "" label, forall_lists_normalizeFrom "" address⟩

/-- Each list in a normal form was brought to normal form on its own. -/
theorem forall_lists_normalizeFrom (gathered : String) (nodes : List Node) :
    ∀ list ∈ lists (normalizeFrom gathered nodes), IsMerged list := by
  rw [lists, List.forall_mem_cons]
  refine ⟨isMerged_normalizeFrom gathered nodes, ?_⟩
  cases nodes with
  | nil =>
      rw [normalizeFrom, ← List.append_nil (ofGathered gathered), listsBelowAll_ofGathered_append]
      exact nofun
  | cons node rest =>
      rcases node.exists_eq_text_or_not_isText with ⟨content, rfl⟩ | htext
      · rw [normalizeFrom_text_cons]
        exact (List.forall_mem_cons.mp (forall_lists_normalizeFrom _ rest)).2
      · rw [normalizeFrom_cons_of_not_isText htext, listsBelowAll_ofGathered_append,
          listsBelowAll_cons, List.forall_mem_append]
        exact ⟨forall_listsBelow_normalizeBelow node,
          (List.forall_mem_cons.mp (forall_lists_normalizeFrom "" rest)).2⟩

end

/-! ## What normal form leaves as it is -/

theorem IsMerged.tail {node : Node} {rest : List Node} (h : IsMerged (node :: rest)) :
    IsMerged rest :=
  ⟨h.apart.tail, fun hmem => h.text_ne_empty (List.mem_cons_of_mem _ hmem)⟩

mutual

theorem normalizeBelow_eq_self : (node : Node) → (∀ list ∈ node.listsBelow, IsMerged list) →
    node.normalizeBelow = node
  | .text content, _ => rfl
  | .span kind children, h => by
      rw [listsBelow_span] at h
      rw [normalizeBelow, normalizeFrom_eq_self children h]
  | .link label address, h => by
      rw [listsBelow_link, List.forall_mem_append] at h
      rw [normalizeBelow, normalizeFrom_eq_self label h.1, normalizeFrom_eq_self address h.2]

theorem normalizeFrom_eq_self (nodes : List Node) (h : ∀ list ∈ lists nodes, IsMerged list) :
    normalizeFrom "" nodes = nodes := by
  obtain ⟨hmerged, hbelow⟩ := List.forall_mem_cons.mp h
  cases nodes with
  | nil => rfl
  | cons node rest =>
      rw [listsBelowAll_cons, List.forall_mem_append] at hbelow
      have hrest := normalizeFrom_eq_self rest (List.forall_mem_cons.mpr ⟨hmerged.tail, hbelow.2⟩)
      rcases node.exists_eq_text_or_not_isText with ⟨content, rfl⟩ | htext
      · have hcontent : content ≠ "" := by
          rintro rfl
          exact hmerged.text_ne_empty List.mem_cons_self
        rw [normalizeFrom_text_cons_of_apart hcontent hmerged.apart, hrest]
      · rw [normalizeFrom_cons_of_not_isText htext, normalizeBelow_eq_self node hbelow.1, hrest]
        rfl

end

/-- Normal form leaves a list as it is exactly if no list in its tree, at any depth, has two
neighbouring texts or an empty one, and every normal form is such a list. -/
theorem normalize_eq_self_iff_forall_isMerged (nodes : List Node) :
    (normalize nodes = nodes ↔ ∀ list ∈ lists nodes, IsMerged list) ∧
      ∀ list ∈ lists (normalize nodes), IsMerged list := by
  have hnormal : ∀ list ∈ lists (normalize nodes), IsMerged list :=
    forall_lists_normalizeFrom "" nodes
  refine ⟨⟨?_, normalizeFrom_eq_self nodes⟩, hnormal⟩
  intro hself
  rwa [hself] at hnormal

/-- Two texts below a node are not merged. -/
example : ¬ ∀ list ∈ lists [.text "a", .span .code [.text "b", .text "c"]], IsMerged list := by
  decide

/-! ## Valid lists -/

theorem IsTextRun.forall_lists_isMerged {children : List Node} (h : IsTextRun true children) :
    ∀ list ∈ lists children, IsMerged list := by
  obtain ⟨content, rfl⟩ := h.eq_singleton
  obtain ⟨_, heq, hcontent⟩ := h.texts _ List.mem_cons_self
  rw [← Node.text.inj heq] at hcontent
  have honly : lists [.text content] = [[.text content]] := by
    rw [lists, listsBelowAll_eq_flatMap, List.flatMap_singleton, listsBelow]
  rw [honly, List.forall_mem_singleton]
  exact ⟨List.IsChain.singleton _, by simpa [eq_comm] using hcontent⟩

theorem Conforms.forall_listsBelow_isMerged {node : Node} (h : node.Conforms true) :
    ∀ list ∈ node.listsBelow, IsMerged list := by
  cases node with
  | text content => exact nofun
  | span kind children =>
      rw [listsBelow_span]
      exact h.1.forall_lists_isMerged
  | link label address =>
      rw [listsBelow_link, List.forall_mem_append]
      exact ⟨h.1.forall_lists_isMerged, h.2.forall_lists_isMerged⟩

/-- A list that is valid in normal form is its own normal form. -/
theorem AllConform.normalize_eq_self {nodes : List Node} (h : AllConform true nodes) :
    Node.normalize nodes = nodes := by
  apply normalizeFrom_eq_self
  rw [lists, List.forall_mem_cons, listsBelowAll_eq_flatMap, List.forall_mem_flatMap]
  refine ⟨⟨h.apart rfl, fun hmem => h.items _ hmem rfl⟩, ?_⟩
  intro node hnode
  exact (h.items node hnode).forall_listsBelow_isMerged

/-- Splitting is undone by the normal form. -/
theorem AllConform.normalize_split {nodes : List Node} (h : AllConform true nodes) :
    Node.normalize (split nodes) = nodes := by
  rw [Node.normalize, normalizeFrom_split]
  exact h.normalize_eq_self

end LineMarkup.Node
