import LineMarkup.Node.Normalize
import LineMarkup.Proofs.DataModel

/-!
# Normal form and the data model

Bringing a valid list to normal form gives a list that is valid in normal form: a run of
texts becomes one text with the same joined characters, so that its edges stay what they
were. Splitting is the other way round: every text falls apart into its characters, and
that does not change the normal form.
-/

namespace LineMarkup.Node

/-! ## Equations of the normal form -/

theorem normalizeFrom_text_cons (gathered content : String) (rest : List Node) :
    normalizeFrom gathered (.text content :: rest) = normalizeFrom (gathered ++ content) rest := by
  rw [normalizeFrom]

/-- A node that is no text ends the gathered text. -/
theorem normalizeFrom_cons_of_not_isText {node : Node} (h : node.isText = false)
    (gathered : String) (rest : List Node) :
    normalizeFrom gathered (node :: rest) =
      ofGathered gathered ++ node.normalizeBelow :: normalizeFrom "" rest := by
  cases node with
  | text content => cases h
  | span kind children => rw [normalizeFrom]; exact nofun
  | link label address => rw [normalizeFrom]; exact nofun

theorem exists_eq_text_or_not_isText (node : Node) :
    (∃ content, node = .text content) ∨ node.isText = false := by
  cases node <;> simp [isText]

/-- Induction along a node list that tells its texts from its other nodes. -/
theorem texts_induction {motive : List Node → Prop} (nil : motive [])
    (text : ∀ content rest, motive rest → motive (.text content :: rest))
    (other : ∀ node rest, node.isText = false → motive rest → motive (node :: rest))
    (nodes : List Node) : motive nodes := by
  induction nodes with
  | nil => exact nil
  | cons node rest ih =>
      rcases node.exists_eq_text_or_not_isText with ⟨content, rfl⟩ | htext
      · exact text content rest ih
      · exact other node rest htext ih

theorem isText_normalizeBelow (node : Node) : node.normalizeBelow.isText = node.isText := by
  cases node <;> simp [normalizeBelow, isText]

theorem eq_text_of_mem_ofGathered {gathered : String} {node : Node}
    (h : node ∈ ofGathered gathered) : node = .text gathered ∧ gathered ≠ "" := by
  unfold ofGathered at h
  split at h
  next => cases h
  next hne => exact ⟨List.mem_singleton.mp h, by simpa using hne⟩

theorem ofGathered_of_ne_empty {gathered : String} (h : gathered ≠ "") :
    ofGathered gathered = [.text gathered] := by
  rw [ofGathered, if_neg]
  simpa using h

theorem normalizeFrom_ofChars_append (cs : List Char) (gathered : String) (rest : List Node) :
    normalizeFrom gathered (ofChars cs ++ rest) =
      normalizeFrom (gathered ++ String.ofList cs) rest := by
  induction cs generalizing gathered with
  | nil =>
      rw [String.ofList_nil, String.append_empty]
      rfl
  | cons c cs ih =>
      change normalizeFrom gathered (.text (String.singleton c) :: (ofChars cs ++ rest)) = _
      have hjoined : gathered ++ String.singleton c ++ String.ofList cs =
          gathered ++ String.ofList (c :: cs) := by
        apply String.toList_injective
        simp
      rw [normalizeFrom_text_cons, ih, hjoined]

/-- Texts alone are gathered to their joined text. -/
theorem normalizeFrom_of_texts {children : List Node}
    (h : ∀ child ∈ children, ∃ content, child = .text content) (gathered : String) :
    normalizeFrom gathered children =
      ofGathered (gathered ++ String.ofList (joinedText children)) := by
  induction children generalizing gathered with
  | nil =>
      rw [normalizeFrom]
      simp [joinedText]
  | cons child rest ih =>
      obtain ⟨content, rfl⟩ := h child List.mem_cons_self
      have hrest : ∀ child ∈ rest, ∃ content, child = .text content := fun child hchild =>
        h child (List.mem_cons_of_mem _ hchild)
      rw [normalizeFrom_text_cons, ih hrest, joinedText_text_cons, String.ofList_append,
        String.ofList_toList, String.append_assoc]

/-! ## Validity in normal form -/

theorem noAdjacentTexts_ofGathered_append {gathered : String} {node : Node} {rest : List Node}
    (hnode : node.isText = false) (hrest : NoAdjacentTexts rest) :
    NoAdjacentTexts (ofGathered gathered ++ node :: rest) := by
  have hcons : NoAdjacentTexts (node :: rest) := by
    cases rest with
    | nil => exact List.IsChain.singleton node
    | cons next rest => exact List.isChain_cons_cons.mpr ⟨by simp [hnode], hrest⟩
  unfold ofGathered
  split
  · exact hcons
  · exact List.isChain_cons_cons.mpr ⟨by simp [hnode], hcons⟩

theorem noAdjacentTexts_normalizeFrom (gathered : String) (nodes : List Node) :
    NoAdjacentTexts (normalizeFrom gathered nodes) := by
  induction nodes using texts_induction generalizing gathered with
  | nil =>
      rw [normalizeFrom, ofGathered]
      split
      · exact List.IsChain.nil
      · exact List.IsChain.singleton _
  | text content rest ih =>
      rw [normalizeFrom_text_cons]
      exact ih _
  | other node rest htext ih =>
      rw [normalizeFrom_cons_of_not_isText htext]
      apply noAdjacentTexts_ofGathered_append _ (ih "")
      rw [isText_normalizeBelow, htext]

/-- A run of texts becomes one text. -/
theorem IsTextRun.normalizeFrom_eq {normalized : Bool} {children : List Node}
    (h : IsTextRun normalized children) :
    normalizeFrom "" children = [.text (String.ofList (joinedText children))] := by
  rw [normalizeFrom_of_texts h.exists_eq_text, String.empty_append, ofGathered_of_ne_empty]
  intro hempty
  exact h.joinedText_ne_nil (by simpa using hempty)

theorem IsTextRun.joinedText_normalizeFrom {normalized : Bool} {children : List Node}
    (h : IsTextRun normalized children) :
    joinedText (Node.normalizeFrom "" children) = joinedText children := by
  rw [h.normalizeFrom_eq, joinedText_text_cons, String.toList_ofList]
  exact List.append_nil _

theorem IsTextRun.normalizeFrom {normalized : Bool} {children : List Node}
    (h : IsTextRun normalized children) : IsTextRun true (normalizeFrom "" children) := by
  rw [h.normalizeFrom_eq]
  apply isTextRun_singleton
  intro hempty
  exact h.joinedText_ne_nil (by simpa using hempty)

theorem Conforms.normalizeBelow {normalized : Bool} {node : Node}
    (h : node.Conforms normalized) : node.normalizeBelow.Conforms true := by
  cases node with
  | text content =>
      rw [Node.normalizeBelow]
      exact h
  | span kind children =>
      obtain ⟨hrun, hedges⟩ := h
      rw [Node.normalizeBelow]
      refine ⟨hrun.normalizeFrom, ?_⟩
      intro hrule
      rw [hrun.joinedText_normalizeFrom]
      exact hedges hrule
  | link label address =>
      obtain ⟨hlabel, haddress⟩ := h
      rw [Node.normalizeBelow]
      exact ⟨hlabel.normalizeFrom, haddress.normalizeFrom⟩

theorem conforms_of_mem_normalizeFrom {normalized : Bool} {nodes : List Node}
    (h : ∀ node ∈ nodes, node.Conforms normalized) {gathered : String} {node : Node}
    (hnode : node ∈ Node.normalizeFrom gathered nodes) : node.Conforms true := by
  induction nodes using texts_induction generalizing gathered with
  | nil =>
      rw [Node.normalizeFrom] at hnode
      obtain ⟨rfl, hne⟩ := eq_text_of_mem_ofGathered hnode
      exact hne
  | text content rest ih =>
      rw [normalizeFrom_text_cons] at hnode
      exact ih (List.forall_mem_cons.mp h).2 hnode
  | other first rest htext ih =>
      obtain ⟨hfirst, hrest⟩ := List.forall_mem_cons.mp h
      rw [normalizeFrom_cons_of_not_isText htext, List.mem_append, List.mem_cons] at hnode
      rcases hnode with hgathered | rfl | hlater
      · -- What was gathered so far ends here.
        obtain ⟨rfl, hne⟩ := eq_text_of_mem_ofGathered hgathered
        exact hne
      · exact hfirst.normalizeBelow
      · exact ih hrest hlater

/-- The normal form of a valid list is valid in normal form. -/
theorem AllConform.normalize {normalized : Bool} {nodes : List Node}
    (h : AllConform normalized nodes) : AllConform true (Node.normalize nodes) :=
  ⟨fun _ hnode => conforms_of_mem_normalizeFrom h.items hnode,
    fun _ => noAdjacentTexts_normalizeFrom "" nodes⟩

/-- Where no text comes next, the gathered text ends. -/
theorem normalizeFrom_eq_append {nodes : List Node}
    (h : ∀ node ∈ nodes.head?, node.isText = false) (gathered : String) :
    Node.normalizeFrom gathered nodes = ofGathered gathered ++ Node.normalizeFrom "" nodes := by
  cases nodes with
  | nil =>
      rw [Node.normalizeFrom, Node.normalizeFrom]
      exact (List.append_nil _).symm
  | cons node rest =>
      have hnode : node.isText = false := h node rfl
      rw [normalizeFrom_cons_of_not_isText hnode, normalizeFrom_cons_of_not_isText hnode]
      rfl

/-- A text that no other text follows is gathered alone. -/
theorem normalizeFrom_text_cons_of_apart {content : String} {rest : List Node}
    (hcontent : content ≠ "") (h : NoAdjacentTexts (.text content :: rest)) :
    Node.normalizeFrom "" (.text content :: rest) =
      .text content :: Node.normalizeFrom "" rest := by
  have hhead : ∀ next ∈ rest.head?, next.isText = false := by
    intro next hnext
    obtain ⟨tail, rfl⟩ := List.head?_eq_some_iff.mp hnext
    have hpair := (List.isChain_cons_cons.mp h).1
    simpa [isText] using hpair
  rw [normalizeFrom_text_cons, String.empty_append, normalizeFrom_eq_append hhead,
    ofGathered_of_ne_empty hcontent]
  rfl

/-! ## Splitting texts into characters -/

mutual

/-- A node with the lists below it split. -/
def splitBelow : Node → Node
  | .text content => .text content
  | .span kind children => .span kind (split children)
  | .link label address => .link (split label) (split address)

/-- A node list with one text for each character, at every depth. -/
def split : List Node → List Node
  | [] => []
  | .text content :: rest => ofChars content.toList ++ split rest
  | node :: rest => node.splitBelow :: split rest

end

theorem split_text_cons (content : String) (rest : List Node) :
    split (.text content :: rest) = ofChars content.toList ++ split rest := by
  rw [split]

theorem split_cons_of_not_isText {node : Node} (h : node.isText = false) (rest : List Node) :
    split (node :: rest) = node.splitBelow :: split rest := by
  cases node with
  | text content => cases h
  | span kind children => rw [split]; exact nofun
  | link label address => rw [split]; exact nofun

theorem isText_splitBelow (node : Node) : node.splitBelow.isText = node.isText := by
  cases node <;> simp [splitBelow, isText]

theorem split_of_texts {children : List Node}
    (h : ∀ child ∈ children, ∃ content, child = .text content) :
    split children = ofChars (joinedText children) := by
  induction children with
  | nil => simp [split, joinedText, ofChars]
  | cons child rest ih =>
      obtain ⟨content, rfl⟩ := h child List.mem_cons_self
      have hrest : ∀ child ∈ rest, ∃ content, child = .text content := fun child hchild =>
        h child (List.mem_cons_of_mem _ hchild)
      rw [split_text_cons, ih hrest, joinedText_text_cons, ofChars_append]

theorem IsTextRun.split_eq {normalized : Bool} {children : List Node}
    (h : IsTextRun normalized children) : split children = ofChars (joinedText children) :=
  split_of_texts h.exists_eq_text

mutual

theorem normalizeBelow_splitBelow : (node : Node) →
    node.splitBelow.normalizeBelow = node.normalizeBelow
  | .text content => rfl
  | .span kind children => by
      rw [splitBelow, normalizeBelow, normalizeBelow, normalizeFrom_split]
  | .link label address => by
      rw [splitBelow, normalizeBelow, normalizeBelow, normalizeFrom_split, normalizeFrom_split]

/-- Splitting does not change the normal form. -/
theorem normalizeFrom_split (gathered : String) : (nodes : List Node) →
    normalizeFrom gathered (split nodes) = normalizeFrom gathered nodes
  | [] => by rw [split]
  | .text content :: rest => by
      rw [split_text_cons, normalizeFrom_ofChars_append, String.ofList_toList,
        normalizeFrom_text_cons, normalizeFrom_split]
  | .span kind children :: rest => by
      rw [split_cons_of_not_isText rfl, normalizeFrom_cons_of_not_isText (isText_splitBelow _),
        normalizeBelow_splitBelow, normalizeFrom_cons_of_not_isText rfl, normalizeFrom_split]
  | .link label address :: rest => by
      rw [split_cons_of_not_isText rfl, normalizeFrom_cons_of_not_isText (isText_splitBelow _),
        normalizeBelow_splitBelow, normalizeFrom_cons_of_not_isText rfl, normalizeFrom_split]

end

theorem ofChars_toList_of_length_eq_one {content : String} (h : content.length = 1) :
    ofChars content.toList = [.text content] := by
  rw [← String.length_toList] at h
  obtain ⟨c, hc⟩ := List.length_eq_one_iff.mp h
  have hcontent : String.singleton c = content := by
    apply String.toList_injective
    rw [hc, String.toList_singleton]
  rw [hc, ← hcontent]
  rfl

mutual

theorem splitBelow_of_allSingle : (node : Node) → AllSingle [node] → node.splitBelow = node
  | .text content, _ => rfl
  | .span kind children, h => by
      rw [splitBelow, split_of_allSingle children ((allSingle_span kind children).mp h)]
  | .link label address, h => by
      obtain ⟨hlabel, haddress⟩ := (allSingle_link label address).mp h
      rw [splitBelow, split_of_allSingle label hlabel, split_of_allSingle address haddress]

/-- Single characters are not split further. -/
theorem split_of_allSingle : (nodes : List Node) → AllSingle nodes → split nodes = nodes
  | [], _ => by rw [split]
  | .text content :: rest, h => by
      obtain ⟨hnode, hrest⟩ := (allSingle_cons _ _).mp h
      rw [split_text_cons, split_of_allSingle rest hrest,
        ofChars_toList_of_length_eq_one ((allSingle_text content).mp hnode)]
      rfl
  | .span kind children :: rest, h => by
      obtain ⟨hnode, hrest⟩ := (allSingle_cons _ _).mp h
      rw [split_cons_of_not_isText rfl, splitBelow_of_allSingle _ hnode,
        split_of_allSingle rest hrest]
  | .link label address :: rest, h => by
      obtain ⟨hnode, hrest⟩ := (allSingle_cons _ _).mp h
      rw [split_cons_of_not_isText rfl, splitBelow_of_allSingle _ hnode,
        split_of_allSingle rest hrest]

end

end LineMarkup.Node
