import LineMarkup.Node.Outline
import LineMarkup.Proofs.Quoting

/-!
# Outlines tell node lists apart

An outline has no closing marks. Still it determines its nodes: the lines can be told from the
text, since no label has a line break in it or a blank at its front, and the lines of a node
end where the next one is not indented deeper.
-/

namespace LineMarkup

/-! ## Lines -/

namespace OutlineLine

/-- A text that stays apart from the indentation in front of it and from the next line. -/
structure IsLabel (label : String) : Prop where
  head : label.toList.head? ≠ some ' '
  newline_notMem : '\n' ∉ label.toList

/-- The characters of a line up to its line feed. -/
def chars (line : OutlineLine) : List Char :=
  List.replicate (2 * line.depth) ' ' ++ line.label.toList

theorem toList_render (line : OutlineLine) : line.render.toList = line.chars ++ ['\n'] := by
  simp [render, chars]

theorem newline_notMem_chars {line : OutlineLine} (h : IsLabel line.label) :
    '\n' ∉ line.chars := by
  simp [chars, h.newline_notMem]

/-- The indentation ends where the label begins. -/
theorem takeWhile_chars {line : OutlineLine} (h : IsLabel line.label) :
    line.chars.takeWhile (· = ' ') = List.replicate (2 * line.depth) ' ' := by
  have hlabel : line.label.toList.takeWhile (· = ' ') = [] := by
    cases hchars : line.label.toList with
    | nil => rfl
    | cons c cs =>
        have hc := h.head
        rw [hchars, List.head?_cons, ne_eq, Option.some.injEq] at hc
        simp [hc]
  rw [chars, List.takeWhile_append_of_pos (by simp), hlabel, List.append_nil]

theorem eq_of_chars_eq {first second : OutlineLine} (hfirst : IsLabel first.label)
    (hsecond : IsLabel second.label) (h : first.chars = second.chars) : first = second := by
  have hindent : 2 * first.depth = 2 * second.depth := by
    have hlength := congrArg (fun cs => (cs.takeWhile (· = ' ')).length) h
    simpa only [takeWhile_chars hfirst, takeWhile_chars hsecond, List.length_replicate]
      using hlength
  have hdepth : first.depth = second.depth := Nat.eq_of_mul_eq_mul_left Nat.two_pos hindent
  rw [chars, chars, hdepth, List.append_right_inj, String.toList_inj] at h
  cases first
  cases second
  cases hdepth
  cases h
  rfl

/-- What stands in front of the first line feed of a text is told from the text. -/
theorem eq_of_append_newline_eq {first second rest rest' : List Char} (hfirst : '\n' ∉ first)
    (hsecond : '\n' ∉ second) (h : first ++ '\n' :: rest = second ++ '\n' :: rest') :
    first = second ∧ rest = rest' := by
  have htake {cs : List Char} (hcs : '\n' ∉ cs) (tail : List Char) :
      (cs ++ '\n' :: tail).takeWhile (· ≠ '\n') = cs := by
    rw [List.takeWhile_append_of_pos fun c hc => by simpa using ne_of_mem_of_not_mem hc hcs]
    exact List.append_nil _
  have heq : first = second := by rw [← htake hfirst rest, h, htake hsecond]
  rw [heq, List.append_right_inj] at h
  exact ⟨heq, (List.cons.inj h).2⟩

/-- Lines can be told from their text. -/
theorem eq_of_join_render_eq {first second : List OutlineLine}
    (hfirst : ∀ line ∈ first, IsLabel line.label) (hsecond : ∀ line ∈ second, IsLabel line.label)
    (h : String.join (first.map render) = String.join (second.map render)) : first = second := by
  have htext (lines : List OutlineLine) : (String.join (lines.map render)).toList =
      lines.flatMap fun line => line.chars ++ ['\n'] := by
    simp [List.flatMap_map, toList_render]
  rw [← String.toList_inj, htext, htext] at h
  induction first generalizing second with
  | nil =>
      cases second with
      | nil => rfl
      | cons line' second => simp at h
  | cons line first ih =>
      cases second with
      | nil => simp at h
      | cons line' second =>
          simp only [List.mem_cons, forall_eq_or_imp] at hfirst hsecond
          simp only [List.flatMap_cons, List.append_assoc, List.singleton_append] at h
          obtain ⟨hline, hrest⟩ := eq_of_append_newline_eq (newline_notMem_chars hfirst.1)
            (newline_notMem_chars hsecond.1) h
          rw [eq_of_chars_eq hfirst.1 hsecond.1 hline, ih hfirst.2 hsecond.2 hrest]

end OutlineLine

/-! ## Labels -/

namespace Node

open OutlineLine (IsLabel)

theorem isLabel_text (content : String) : IsLabel ("Text " ++ Text.quote content) := by
  constructor
  · simp
  · simp [Text.newline_notMem_quote]

theorem isLabel_link : IsLabel "Link" ∧ IsLabel "text:" ∧ IsLabel "url:" := by
  refine ⟨?_, ?_, ?_⟩ <;> constructor <;> decide

theorem isLabel_kind (kind : SpanKind) : IsLabel kind.label := by
  cases kind <;> constructor <;> decide

mutual

theorem isLabel_of_mem_outlineAt {depth : Nat} {line : OutlineLine} :
    (node : Node) → line ∈ node.outlineAt depth → IsLabel line.label
  | .text content, h => by
      rw [outlineAt, List.mem_singleton] at h
      rw [h]
      exact isLabel_text content
  | .span kind children, h => by
      rw [outlineAt, List.mem_cons] at h
      rcases h with rfl | h
      · exact isLabel_kind kind
      · exact isLabel_of_mem_outlineListAt children h
  | .link label address, h => by
      simp only [outlineAt, List.cons_append, List.mem_cons, List.mem_append] at h
      rcases h with rfl | rfl | h | rfl | h
      · exact isLabel_link.1
      · exact isLabel_link.2.1
      · exact isLabel_of_mem_outlineListAt label h
      · exact isLabel_link.2.2
      · exact isLabel_of_mem_outlineListAt address h

theorem isLabel_of_mem_outlineListAt {depth : Nat} {line : OutlineLine} :
    (nodes : List Node) → line ∈ outlineListAt depth nodes → IsLabel line.label
  | [], h => by simp [outlineListAt] at h
  | node :: rest, h => by
      rw [outlineListAt, List.mem_append] at h
      rcases h with h | h
      · exact isLabel_of_mem_outlineAt node h
      · exact isLabel_of_mem_outlineListAt rest h

end

theorem text_label_ne_kind (content : String) (kind : SpanKind) :
    "Text " ++ Text.quote content ≠ kind.label := by
  intro h
  have hhead := congrArg (fun label => label.toList.head?) h
  cases kind <;> simp [SpanKind.label] at hhead

theorem text_label_ne_link (content : String) : "Text " ++ Text.quote content ≠ "Link" := by
  intro h
  have hhead := congrArg (fun label => label.toList.head?) h
  simp at hhead

theorem kind_label_ne_link (kind : SpanKind) : kind.label ≠ "Link" := by
  cases kind <;> decide

theorem kind_label_injective : Function.Injective SpanKind.label := by
  intro kind kind'
  cases kind <;> cases kind' <;> decide

/-! ## Nodes -/

/-- Lines that do not go on below a depth: if there is a first one, it is less deep. -/
def EndsAbove (depth : Nat) (lines : List OutlineLine) : Prop :=
  ∀ line ∈ lines.head?, line.depth < depth

theorem endsAbove_cons {depth : Nat} {line : OutlineLine} (h : line.depth < depth)
    (rest : List OutlineLine) : EndsAbove depth (line :: rest) := by
  intro first hfirst
  cases hfirst
  exact h

theorem outlineAt_eq_cons (depth : Nat) (node : Node) :
    ∃ label rest, node.outlineAt depth = ⟨depth, label⟩ :: rest := by
  cases node <;> exact ⟨_, _, rfl⟩

theorem EndsAbove.outlineListAt_append {depth : Nat} {rest : List OutlineLine}
    (h : EndsAbove depth rest) (nodes : List Node) :
    EndsAbove (depth + 1) (outlineListAt depth nodes ++ rest) := by
  cases nodes with
  | nil => exact fun line hline => Nat.lt_succ_of_lt (h line hline)
  | cons node nodes =>
      obtain ⟨label, inner, hnode⟩ := node.outlineAt_eq_cons depth
      rw [outlineListAt, hnode]
      exact endsAbove_cons (Nat.lt_succ_self depth) _

/-- Lines that end above a depth do not begin with a node at that depth. -/
theorem EndsAbove.ne_outlineAt_append {depth : Nat} {lines : List OutlineLine}
    (h : EndsAbove depth lines) (node : Node) (rest : List OutlineLine) :
    lines ≠ node.outlineAt depth ++ rest := by
  rintro rfl
  obtain ⟨label, inner, hnode⟩ := node.outlineAt_eq_cons depth
  rw [hnode] at h
  exact absurd (h _ rfl) (Nat.lt_irrefl depth)

mutual

/-- A node is told from its lines, where no deeper line comes behind them. -/
theorem outlineAt_append_inj {depth : Nat} {rest rest' : List OutlineLine}
    (hrest : EndsAbove (depth + 1) rest) (hrest' : EndsAbove (depth + 1) rest') :
    (node node' : Node) → node.outlineAt depth ++ rest = node'.outlineAt depth ++ rest' →
      node = node' ∧ rest = rest'
  | .text content, .text content', h => by
      simp only [outlineAt, List.singleton_append, List.cons.injEq, OutlineLine.mk.injEq,
        String.append_right_inj, true_and] at h
      exact ⟨congrArg Node.text (Text.quote_injective h.1), h.2⟩
  | .span kind children, .span kind' children', h => by
      simp only [outlineAt, List.cons_append, List.cons.injEq, OutlineLine.mk.injEq,
        true_and] at h
      obtain ⟨hchildren, htail⟩ := outlineListAt_append_inj hrest hrest' children children' h.2
      exact ⟨congrArg₂ Node.span (kind_label_injective h.1) hchildren, htail⟩
  | .link label address, .link label' address', h => by
      -- The line of the address ends the label, since it is one level less deep.
      have hends (lines : List OutlineLine) :
          EndsAbove (depth + 2) (⟨depth + 1, "url:"⟩ :: lines) :=
        endsAbove_cons (Nat.lt_succ_self _) lines
      have hdeeper {lines : List OutlineLine} (h : EndsAbove (depth + 1) lines) :
          EndsAbove (depth + 2) lines := fun line hline => Nat.lt_succ_of_lt (h line hline)
      simp only [outlineAt, List.cons_append, List.append_assoc, List.cons.injEq,
        true_and] at h
      obtain ⟨hlabel, htail⟩ := outlineListAt_append_inj (hends _) (hends _) label label' h
      obtain ⟨haddress, htail⟩ := outlineListAt_append_inj (hdeeper hrest) (hdeeper hrest')
        address address' (List.cons.inj htail).2
      exact ⟨congrArg₂ Node.link hlabel haddress, htail⟩
  | .text content, .span kind _, h =>
      absurd (OutlineLine.mk.inj (List.cons.inj h).1).2 (text_label_ne_kind content kind)
  | .text content, .link _ _, h =>
      absurd (OutlineLine.mk.inj (List.cons.inj h).1).2 (text_label_ne_link content)
  | .span kind _, .text content, h =>
      absurd (OutlineLine.mk.inj (List.cons.inj h).1).2 (text_label_ne_kind content kind).symm
  | .span kind _, .link _ _, h =>
      absurd (OutlineLine.mk.inj (List.cons.inj h).1).2 (kind_label_ne_link kind)
  | .link _ _, .text content, h =>
      absurd (OutlineLine.mk.inj (List.cons.inj h).1).2 (text_label_ne_link content).symm
  | .link _ _, .span kind _, h =>
      absurd (OutlineLine.mk.inj (List.cons.inj h).1).2 (kind_label_ne_link kind).symm

/-- A list is told from its lines, where no line behind them is as deep. -/
theorem outlineListAt_append_inj {depth : Nat} {rest rest' : List OutlineLine}
    (hrest : EndsAbove depth rest) (hrest' : EndsAbove depth rest') :
    (nodes nodes' : List Node) →
      outlineListAt depth nodes ++ rest = outlineListAt depth nodes' ++ rest' →
      nodes = nodes' ∧ rest = rest'
  | [], [], h => ⟨rfl, h⟩
  | [], node' :: nodes', h => by
      rw [outlineListAt, outlineListAt, List.append_assoc] at h
      exact absurd h (hrest.ne_outlineAt_append node' _)
  | node :: nodes, [], h => by
      rw [outlineListAt, outlineListAt, List.append_assoc] at h
      exact absurd h.symm (hrest'.ne_outlineAt_append node _)
  | node :: nodes, node' :: nodes', h => by
      rw [outlineListAt, outlineListAt, List.append_assoc, List.append_assoc] at h
      obtain ⟨hnode, htail⟩ := outlineAt_append_inj (hrest.outlineListAt_append nodes)
        (hrest'.outlineListAt_append nodes') node node' h
      obtain ⟨hnodes, htail⟩ := outlineListAt_append_inj hrest hrest' nodes nodes' htail
      exact ⟨by rw [hnode, hnodes], htail⟩

end

/-- Two node lists of any shape have the same outline only if they are equal. -/
theorem outline_eq_outline_iff (nodes nodes' : List Node) :
    outline nodes = outline nodes' ↔ nodes = nodes' := by
  constructor
  · intro h
    have hlines : outlineListAt 0 nodes = outlineListAt 0 nodes' :=
      OutlineLine.eq_of_join_render_eq (fun line => isLabel_of_mem_outlineListAt nodes)
        (fun line => isLabel_of_mem_outlineListAt nodes') h
    have hnil : EndsAbove 0 [] := by simp [EndsAbove]
    exact (outlineListAt_append_inj hnil hnil nodes nodes' (by rw [hlines])).1
  · intro h
    rw [h]

end Node

end LineMarkup
