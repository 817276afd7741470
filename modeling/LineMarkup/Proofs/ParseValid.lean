import LineMarkup.Proofs.NormalForm
import LineMarkup.Proofs.Outcome

/-!
# Every parse is valid

What a sound phrase and a kept token make is valid and made of single characters. So a
raw parse is valid, its normal form is valid in normal form, and so is the plain text
that is the result where markup is switched off.
-/

namespace LineMarkup

open Node

theorem Phrase.Sound.conforms_node {phrase : Phrase} (h : phrase.Sound) :
    phrase.node.Conforms false := by
  cases phrase with
  | styled span content =>
      obtain ⟨hne, hedges⟩ := h
      refine ⟨isTextRun_ofChars hne, ?_⟩
      intro _
      rw [joinedText_ofChars]
      exact hedges
  | code content => exact ⟨isTextRun_ofChars h, nofun⟩
  | link label address => exact ⟨isTextRun_ofChars h.1, isTextRun_ofChars h.2⟩

theorem Phrase.allSingle_node (phrase : Phrase) : AllSingle [phrase.node] := by
  cases phrase with
  | styled span content => exact (allSingle_span _ _).mpr (allSingle_ofChars content)
  | code content => exact (allSingle_span _ _).mpr (allSingle_ofChars content)
  | link label address =>
      exact (allSingle_link _ _).mpr ⟨allSingle_ofChars label, allSingle_ofChars address⟩

theorem Node.conforms_ofChar (normalized : Bool) (c : Char) : (ofChar c).Conforms normalized :=
  String.singleton_ne_empty

/-- The nodes of a cut are valid and made of single characters. -/
theorem cutNodes_valid (tokens : List Token) :
    AllConform false (Segment.cutNodes tokens) ∧ AllSingle (Segment.cutNodes tokens) := by
  have hitems : (∀ node ∈ Segment.cutNodes tokens, node.Conforms false) ∧
      AllSingle (Segment.cutNodes tokens) := by
    induction tokens using Segment.cut_induction with
    | nil =>
        rw [Segment.cutNodes_nil]
        exact ⟨nofun, nofun⟩
    | endMark rest =>
        rw [Segment.cutNodes_endMark_cons]
        exact ⟨nofun, nofun⟩
    | phrase phrase rest hsound ih =>
        rw [Segment.cutNodes_phrase_append hsound, List.forall_mem_cons, allSingle_cons]
        exact ⟨⟨hsound.conforms_node, ih.1⟩, phrase.allSingle_node, ih.2⟩
    | kept token c rest hstyle hliteral ih =>
        rw [Segment.cutNodes_cons_of_style_eq_none hstyle hliteral, List.forall_mem_cons,
          allSingle_cons]
        exact ⟨⟨conforms_ofChar false c, ih.1⟩, allSingle_ofChars [c], ih.2⟩
  exact ⟨⟨hitems.1, nofun⟩, hitems.2⟩

theorem Node.allConform_ofText (line : String) (merged : Bool) :
    AllConform merged (ofText line merged) := by
  unfold ofText
  split
  next => exact ⟨nofun, fun _ => List.IsChain.nil⟩
  next hne =>
    cases merged with
    | false =>
        refine ⟨?_, nofun⟩
        intro node hnode
        obtain ⟨c, _, rfl⟩ := List.mem_map.mp hnode
        exact conforms_ofChar false c
    | true =>
        have hcontent : line ≠ "" := by simpa using hne
        refine ⟨?_, fun _ => List.IsChain.singleton _⟩
        intro node hnode
        rw [List.mem_singleton.mp hnode]
        exact hcontent

/-- Under all options, a line that is not empty has a parse, and the validator accepts
it: it follows the data model, in normal form if that was asked for. In a raw parse
every text is a single character. -/
theorem parseWith_valid (options : Options) {line : String} (hline : line ≠ "") :
    (∃ nodes, parseWith options line = .ok nodes ∧
      violation? options.normalize nodes = none ∧ AllConform options.normalize nodes) ∧
    ∃ nodes, parse line = .ok nodes ∧ AllSingle nodes := by
  obtain ⟨hconform, hsingle⟩ := cutNodes_valid (tokenize line)
  refine ⟨?_, _, parse_of_ne_empty hline, hsingle⟩
  rw [parseWith_of_ne_empty hline]
  refine ⟨_, rfl, ?_⟩
  rw [violation?_eq_none_iff, and_self]
  cases options with
  | mk markdown normalize =>
      cases markdown with
      | false => exact allConform_ofText line normalize
      | true =>
          cases normalize with
          | false => exact hconform
          | true => exact hconform.normalize

theorem parseWith_valid_unclosed_fence :
    "*a***b*" ≠ "" ∧
      (∃ nodes, parseWith .raw "*a***b*" = .ok nodes ∧
        violation? Options.raw.normalize nodes = none ∧
        AllConform Options.raw.normalize nodes) ∧
      ∃ nodes, parse "*a***b*" = .ok nodes ∧ AllSingle nodes :=
  ⟨by decide, parseWith_valid .raw (by decide)⟩

end LineMarkup
