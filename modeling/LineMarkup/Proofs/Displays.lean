import LineMarkup.Node.Display
import LineMarkup.Proofs.ParseValid

/-!
# Displays tell raw trees apart

A display has its texts unquoted, so a text may look like the marks around it. Where every text
is a single character this does no harm: how far a text reaches is known, and an item of a list
begins with a letter while the list ends with a bracket. So a display shows where it ends and
which node it is, whatever comes behind it.
-/

namespace LineMarkup

theorem SpanKind.label_append_inj {kind kind' : SpanKind} {rest rest' : List Char}
    (h : kind.label.toList ++ rest = kind'.label.toList ++ rest') :
    kind = kind' ∧ rest = rest' := by
  cases kind <;> cases kind' <;> simp_all [label]

namespace Node

/-! ## Single characters -/

/-- What a display shows of a single character. -/
def shown (c : Char) : List Char :=
  if c = ' ' then "<space>".toList else [c]

theorem toList_display_ofChar (c : Char) :
    (ofChar c).display.toList = "Text(".toList ++ shown c ++ [')'] := by
  rw [ofChar, display, shown]
  by_cases hspace : c = ' '
  · rw [if_pos (by rw [hspace]; rfl), if_pos hspace]
    rfl
  · have hcontent : String.singleton c ≠ " " := by
      intro h
      have hchars := congrArg String.toList h
      rw [String.toList_singleton] at hchars
      exact hspace (List.singleton_inj.mp hchars)
    simp [hcontent, hspace]

/-- A shown character ends at the parenthesis behind it, even if it is one itself. -/
theorem shown_append_inj {c c' : Char} {rest rest' : List Char}
    (h : shown c ++ ')' :: rest = shown c' ++ ')' :: rest') : c = c' ∧ rest = rest' := by
  unfold shown at h
  split_ifs at h with hspace hspace' <;> simp_all

theorem exists_eq_ofChar {content : String} (h : AllSingle [.text content]) :
    ∃ c, Node.text content = ofChar c := by
  have hchars := ofChars_toList_of_length_eq_one ((allSingle_text content).mp h)
  obtain ⟨c, _, hc⟩ := List.map_eq_singleton_iff.mp hchars
  exact ⟨c, hc.symm⟩

/-! ## Nodes -/

theorem toList_display_span (kind : SpanKind) (children : List Node) :
    (span kind children).display.toList =
      kind.label.toList ++ ('(' :: '[' :: (displayItems children).toList ++ [']', ')']) := by
  simp [display]

theorem toList_display_link (label address : List Node) :
    (link label address).display.toList =
      "Link(text=[".toList ++ (displayItems label).toList ++
        (']' :: ", url=[".toList ++ (displayItems address).toList ++ [']', ')']) := by
  simp [display]

theorem toList_displayItems_cons (node : Node) (rest : List Node) :
    (displayItems (node :: rest)).toList =
      node.display.toList ++ (',' :: ' ' :: (displayItems rest).toList) := by
  simp [displayItems]

/-- The letter that a display begins with. -/
def initial : Node → Char
  | .text _ => 'T'
  | .span .bold _ => 'B'
  | .span .italic _ => 'I'
  | .span .strikethrough _ => 'S'
  | .span .code _ => 'C'
  | .link .. => 'L'

theorem display_eq_initial_cons (node : Node) :
    ∃ cs, node.display.toList = node.initial :: cs := by
  cases node with
  | text content =>
      rw [display]
      split
      · exact ⟨_, rfl⟩
      · rw [String.toList_append, String.toList_append]
        exact ⟨_, rfl⟩
  | span kind children =>
      rw [toList_display_span]
      cases kind <;> exact ⟨_, rfl⟩
  | link label address =>
      rw [toList_display_link]
      exact ⟨_, rfl⟩

theorem initial_eq_of_display_append_eq {node node' : Node} {rest rest' : List Char}
    (h : node.display.toList ++ rest = node'.display.toList ++ rest') :
    node.initial = node'.initial := by
  obtain ⟨cs, hcs⟩ := node.display_eq_initial_cons
  obtain ⟨cs', hcs'⟩ := node'.display_eq_initial_cons
  rw [hcs, hcs'] at h
  exact (List.cons.inj h).1

theorem initial_ne_bracket (node : Node) : node.initial ≠ ']' := by
  rcases node with _ | ⟨_ | _, _⟩ | _ <;> exact nofun

/-- A list that goes on is told from one that ends. -/
theorem bracket_ne_displayItems_cons (node : Node) (nodes : List Node) {rest rest' : List Char} :
    ']' :: rest ≠ (displayItems (node :: nodes)).toList ++ rest' := by
  obtain ⟨cs, hcs⟩ := node.display_eq_initial_cons
  rw [toList_displayItems_cons, hcs]
  intro h
  exact node.initial_ne_bracket (List.cons.inj h).1.symm

mutual

/-- A node is told from its display, whatever comes behind it. -/
theorem display_append_inj {rest rest' : List Char} :
    (node node' : Node) → AllSingle [node] → AllSingle [node'] →
      node.display.toList ++ rest = node'.display.toList ++ rest' →
      node = node' ∧ rest = rest'
  | .text content, .text content', hsingle, hsingle', h => by
      obtain ⟨c, hc⟩ := exists_eq_ofChar hsingle
      obtain ⟨c', hc'⟩ := exists_eq_ofChar hsingle'
      rw [hc, hc', toList_display_ofChar, toList_display_ofChar] at h
      simp only [List.append_assoc, List.singleton_append, List.append_cancel_left_eq] at h
      obtain ⟨hchar, htail⟩ := shown_append_inj h
      rw [hc, hc', hchar]
      exact ⟨rfl, htail⟩
  | .span kind children, .span kind' children', hsingle, hsingle', h => by
      rw [toList_display_span, toList_display_span] at h
      simp only [List.append_assoc, List.cons_append, List.nil_append] at h
      obtain ⟨hkind, hinside⟩ := SpanKind.label_append_inj h
      simp only [List.cons.injEq, true_and] at hinside
      obtain ⟨hchildren, htail⟩ := displayItems_append_inj children children'
        ((allSingle_span _ _).mp hsingle) ((allSingle_span _ _).mp hsingle') hinside
      exact ⟨congrArg₂ Node.span hkind hchildren, (List.cons.inj htail).2⟩
  | .link label address, .link label' address', hsingle, hsingle', h => by
      obtain ⟨hlabels, haddresses⟩ := (allSingle_link _ _).mp hsingle
      obtain ⟨hlabels', haddresses'⟩ := (allSingle_link _ _).mp hsingle'
      rw [toList_display_link, toList_display_link] at h
      simp only [List.append_assoc, List.cons_append, List.nil_append,
        List.append_cancel_left_eq] at h
      obtain ⟨hlabel, htail⟩ := displayItems_append_inj label label' hlabels hlabels' h
      rw [List.append_cancel_left_eq] at htail
      obtain ⟨haddress, htail⟩ :=
        displayItems_append_inj address address' haddresses haddresses' htail
      exact ⟨congrArg₂ Node.link hlabel haddress, (List.cons.inj htail).2⟩
  | .text _, .span kind _, _, _, h =>
      absurd (initial_eq_of_display_append_eq h) (by cases kind <;> exact nofun)
  | .text _, .link _ _, _, _, h => absurd (initial_eq_of_display_append_eq h) nofun
  | .span kind _, .text _, _, _, h =>
      absurd (initial_eq_of_display_append_eq h) (by cases kind <;> exact nofun)
  | .span kind _, .link _ _, _, _, h =>
      absurd (initial_eq_of_display_append_eq h) (by cases kind <;> exact nofun)
  | .link _ _, .text _, _, _, h => absurd (initial_eq_of_display_append_eq h) nofun
  | .link _ _, .span kind _, _, _, h =>
      absurd (initial_eq_of_display_append_eq h) (by cases kind <;> exact nofun)

/-- The items of a list are told from their displays, where a bracket ends the list. -/
theorem displayItems_append_inj {rest rest' : List Char} :
    (nodes nodes' : List Node) → AllSingle nodes → AllSingle nodes' →
      (displayItems nodes).toList ++ ']' :: rest = (displayItems nodes').toList ++ ']' :: rest' →
      nodes = nodes' ∧ rest = rest'
  | [], [], _, _, h => ⟨rfl, (List.cons.inj h).2⟩
  | [], node' :: nodes', _, _, h => absurd h (bracket_ne_displayItems_cons node' nodes')
  | node :: nodes, [], _, _, h => absurd h.symm (bracket_ne_displayItems_cons node nodes)
  | node :: nodes, node' :: nodes', hsingle, hsingle', h => by
      obtain ⟨hfirst, hothers⟩ := (allSingle_cons _ _).mp hsingle
      obtain ⟨hfirst', hothers'⟩ := (allSingle_cons _ _).mp hsingle'
      rw [toList_displayItems_cons, toList_displayItems_cons, List.append_assoc,
        List.append_assoc] at h
      obtain ⟨hnode, htail⟩ := display_append_inj node node' hfirst hfirst' h
      simp only [List.cons_append, List.cons.injEq, true_and] at htail
      obtain ⟨hnodes, htail⟩ := displayItems_append_inj nodes nodes' hothers hothers' htail
      exact ⟨congrArg₂ List.cons hnode hnodes, htail⟩

end

/-- Two nodes of any nesting, with a single character in every text, have the same display only
if they are equal. -/
theorem display_eq_display_iff {first second : Node} (hfirst : AllSingle [first])
    (hsecond : AllSingle [second]) : first.display = second.display ↔ first = second := by
  constructor
  · intro h
    have hchars : first.display.toList ++ [] = second.display.toList ++ [] := by rw [h]
    exact (display_append_inj first second hfirst hsecond hchars).1
  · intro h
    rw [h]

/-- The texts look like the ends of texts and lists, and like the first letter of a space. -/
theorem display_eq_display_iff_marks :
    AllSingle [.span .bold (ofChars [')', ',', ' '])] ∧
      AllSingle [.span .bold (ofChars [')', ']', '<'])] ∧
      ((span .bold (ofChars [')', ',', ' '])).display =
          (span .bold (ofChars [')', ']', '<'])).display ↔
        span .bold (ofChars [')', ',', ' ']) = span .bold (ofChars [')', ']', '<'])) := by
  have hfirst : AllSingle [.span .bold (ofChars [')', ',', ' '])] :=
    (allSingle_span _ _).mpr (allSingle_ofChars _)
  have hsecond : AllSingle [.span .bold (ofChars [')', ']', '<'])] :=
    (allSingle_span _ _).mpr (allSingle_ofChars _)
  exact ⟨hfirst, hsecond, display_eq_display_iff hfirst hsecond⟩

-- A longer text can look like two texts.
example : (span .code [.text "a), Text(b"]).display =
    (span .code [.text "a", .text "b"]).display := by decide

/-! ## Parses -/

theorem displayItems_eq_join (nodes : List Node) :
    displayItems nodes = String.join ((nodes.map display).map (· ++ ", ")) := by
  induction nodes with
  | nil => rfl
  | cons node rest ih => simp [displayItems, ih]

theorem allSingle_of_parse {line : String} {nodes : List Node} (h : parse line = .ok nodes) :
    AllSingle nodes := by
  by_cases hline : line = ""
  · rw [hline, parse_empty] at h
    cases h
  · rw [parse_of_ne_empty hline] at h
    cases h
    exact (cutNodes_valid _).2

/-- Two raw parses whose nodes are displayed alike are equal. -/
theorem eq_of_map_display_eq_of_parse {line line' : String} {nodes nodes' : List Node}
    (hparse : parse line = .ok nodes) (hparse' : parse line' = .ok nodes')
    (h : nodes.map display = nodes'.map display) : nodes = nodes' := by
  have hitems : (displayItems nodes).toList ++ [']'] = (displayItems nodes').toList ++ [']'] := by
    rw [displayItems_eq_join, displayItems_eq_join, h]
  exact (displayItems_append_inj nodes nodes' (allSingle_of_parse hparse)
    (allSingle_of_parse hparse') hitems).1

end Node

end LineMarkup
