import LineMarkup.Proofs.Events
import LineMarkup.Proofs.ParseValid
import LineMarkup.Proofs.Spelling
import LineMarkup.Proofs.Switches

/-!
# Lines without effective markup

On some lines it makes no difference whether markup is recognised. These are the lines in which no
style is accepted and no backslash has a character to protect: there every token is kept as its
character, and the characters that are kept are all those of the line.
-/

namespace LineMarkup

open Node

/-! ## Texts without protected characters -/

namespace Text

theorem unescape_cons_of_ne_backslash {c : Char} (h : c ≠ '\\') (rest : List Char) :
    unescape (c :: rest) = c :: unescape rest :=
  unescape.eq_2 c rest fun _ _ hbackslash _ => h hbackslash

theorem length_unescape_le (cs : List Char) : (unescape cs).length ≤ cs.length := by
  induction cs using Token.ofChars_induction with
  | nil => exact Nat.le_refl 0
  | lastBackslash => exact Nat.le_refl 1
  | escaped c rest ih =>
      rw [unescape, List.length_cons, List.length_cons, List.length_cons]
      omega
  | single c rest hbackslash ih =>
      rw [unescape_cons_of_ne_backslash hbackslash, List.length_cons, List.length_cons]
      omega

/-- A text loses no character exactly if no character in it stands behind a backslash. -/
theorem unescape_eq_self_iff (cs : List Char) : unescape cs = cs ↔ '\\' ∉ cs.dropLast := by
  induction cs using Token.ofChars_induction with
  | nil => simp [unescape]
  | lastBackslash => simp [unescape]
  | escaped c rest ih =>
      have hshorter : unescape ('\\' :: c :: rest) ≠ '\\' :: c :: rest := by
        intro heq
        have hlength := congrArg List.length heq
        have hle := length_unescape_le rest
        rw [unescape, List.length_cons, List.length_cons, List.length_cons] at hlength
        omega
      simp [hshorter]
  | single c rest hbackslash ih =>
      rw [unescape_cons_of_ne_backslash hbackslash, List.cons_inj_right, ih]
      cases rest with
      | nil => simp
      | cons next rest => simp [hbackslash.symm]

end Text

/-! ## Cuts without styles -/

theorem Node.ofChars_injective : Function.Injective ofChars :=
  Function.LeftInverse.injective joinedText_ofChars

/-- On lists of single characters the normal form can be undone. -/
theorem Node.AllSingle.normalize_inj {first second : List Node} (hfirst : AllSingle first)
    (hsecond : AllSingle second) : Node.normalize first = Node.normalize second ↔ first = second := by
  constructor
  · intro h
    have hsplit := split_eq_of_allEvents_eq (normalize_eq_iff_allEvents_eq.mp h)
    rwa [split_of_allSingle first hfirst, split_of_allSingle second hsecond] at hsplit
  · rintro rfl
    rfl

/-- Where a cut has texts only, they are the characters of the tokens. -/
theorem Segment.cutNodes_eq_ofChars {tokens : List Token}
    (h : ∀ node ∈ cutNodes tokens, node.isText = true) :
    cutNodes tokens = ofChars (Token.literals (Token.beforeEnd tokens)) := by
  induction tokens using cut_induction with
  | nil => simp [ofChars]
  | endMark rest => simp [ofChars]
  | phrase phrase rest hsound _ =>
      rw [cutNodes_phrase_append hsound] at h
      have htext := h phrase.node List.mem_cons_self
      rw [phrase.isText_node] at htext
      cases htext
  | kept token c rest hstyle hliteral ih =>
      rw [cutNodes_cons_of_style_eq_none hstyle hliteral] at h ⊢
      rw [ih fun node hnode => h node (List.mem_cons_of_mem _ hnode),
        Token.beforeEnd_cons_of_literal? hliteral, Token.literals_cons, hliteral]
      rfl

/-- The nodes of a line are the texts of all its characters exactly if they are texts and no
backslash protects a character. -/
theorem cutNodes_tokenize_eq_ofChars_iff (line : String) :
    Segment.cutNodes (tokenize line) = ofChars line.toList ↔
      (∀ node ∈ Segment.cutNodes (tokenize line), node.isText = true) ∧
        '\\' ∉ line.toList.dropLast := by
  have hkept (htexts : ∀ node ∈ Segment.cutNodes (tokenize line), node.isText = true) :
      Segment.cutNodes (tokenize line) = ofChars (Text.unescape line.toList) := by
    rw [Segment.cutNodes_eq_ofChars htexts, beforeEnd_tokenize, Token.literals_ofChars]
  constructor
  · intro h
    have htexts : ∀ node ∈ Segment.cutNodes (tokenize line), node.isText = true := by
      intro node hnode
      rw [h] at hnode
      obtain ⟨c, _, rfl⟩ := List.mem_map.mp hnode
      rfl
    refine ⟨htexts, ?_⟩
    rw [← Text.unescape_eq_self_iff]
    exact ofChars_injective ((hkept htexts).symm.trans h)
  · rintro ⟨htexts, hbackslash⟩
    rw [hkept htexts, (Text.unescape_eq_self_iff _).mpr hbackslash]

/-! ## Parsing without markup -/

/-- A line parses alike with and without markup, in normal form or not, exactly if its parse has
texts only at the top and no backslash stands in front of another character. -/
theorem parseWith_markdown_eq_iff (normalize : Bool) {line : String} (h : line ≠ "") :
    parseWith ⟨true, normalize⟩ line = parseWith ⟨false, normalize⟩ line ↔
      (∃ nodes, parse line = .ok nodes ∧ ∀ node ∈ nodes, node.isText = true) ∧
        '\\' ∉ line.toList.dropLast := by
  have hsame : parseWith ⟨true, normalize⟩ line = parseWith ⟨false, normalize⟩ line ↔
      Segment.cutNodes (tokenize line) = ofChars line.toList := by
    rw [parseWith_of_ne_empty h, parseWith_of_ne_empty h]
    cases normalize with
    | false => simp [ofText_false]
    | true =>
        have hsingle := (cutNodes_valid (tokenize line)).2
        simp [← normalize_ofText_false, ofText_false,
          hsingle.normalize_inj (allSingle_ofChars line.toList)]
  rw [hsame, cutNodes_tokenize_eq_ofChars_iff, parse_of_ne_empty h]
  simp

/-- Asterisks that close nothing, and a backslash with nothing behind it. -/
theorem parseWith_markdown_eq_last_backslash :
    "**a\\" ≠ "" ∧ parseWith ⟨true, true⟩ "**a\\" = parseWith ⟨false, true⟩ "**a\\" := by
  have hline : "**a\\" ≠ "" := by decide
  have hparse : parse "**a\\" = .ok (ofChars "**a\\".toList) := by cbv
  exact ⟨hline, (parseWith_markdown_eq_iff true hline).mpr
    ⟨⟨_, hparse, by decide⟩, by decide⟩⟩

end LineMarkup
