import LineMarkup.Proofs.Spelling

/-!
# Plain text around a line

Plain text in front of a line or behind it is kept as its characters and does not change
how the line is cut. A phrase ends with a marker, so tokens that are no markers can
neither complete a phrase that stands unfinished in front of them nor move the end of one.
-/

namespace LineMarkup

/-- A text without protected characters. -/
def Text.IsPlain (cs : List Char) : Prop := ∀ c ∈ cs, c ∉ Text.protectedChars

/-- Plain text is read as its characters. -/
theorem Text.IsPlain.reads {cs : List Char} (h : Text.IsPlain cs) :
    Token.Reads cs (cs.map .char) := by
  apply Token.reads_spelled
  apply Text.spelled_self
  intro c hc
  exact .inr ⟨rfl, h c hc⟩

/-- Tokens none of which is a marker: literal characters and end marks. -/
def Token.NoMarkers (tokens : List Token) : Prop :=
  ∀ token ∈ tokens, token.isChar = true ∨ token = .endMark

theorem Token.noMarkers_map_char_append {tokens : List Token} (h : NoMarkers tokens)
    (cs : List Char) : NoMarkers (cs.map .char ++ tokens) := by
  intro token htoken
  rcases List.mem_append.mp htoken with hchar | hlater
  · obtain ⟨c, _, rfl⟩ := List.mem_map.mp hchar
    exact .inl rfl
  · exact h token hlater

theorem Token.noMarkers_endMark : NoMarkers [.endMark] := by
  intro token htoken
  exact .inr (List.mem_singleton.mp htoken)

/-! ## Phrases in front of tokens that are no markers -/

namespace Phrase

/-- A phrase ends with a marker. -/
theorem isChar_of_mem_getLast?_tokens {phrase : Phrase} {token : Token}
    (h : token ∈ phrase.tokens.getLast?) : token.isChar = false := by
  obtain ⟨marker, inner, hclosing, _⟩ := phrase.closing_eq_cons
  have hne : phrase.closing ≠ [] := hclosing ▸ List.cons_ne_nil _ _
  rw [tokens_eq, List.getLast?_append_of_ne_nil _ (List.append_ne_nil_of_right_ne_nil _ hne),
    List.getLast?_append_of_ne_nil _ hne] at h
  cases phrase with
  | styled span content =>
      rw [List.eq_of_mem_replicate (List.mem_of_getLast? h)]
      exact span.isChar_marker
  | code content =>
      cases h
      rfl
  | link label address =>
      have hlast : (link label address).closing =
          (.rightBracket :: .leftParen :: address.map .char) ++ [.rightParen] := rfl
      rw [hlast, List.getLast?_concat] at h
      cases h
      rfl

/-- A phrase does not reach into tokens that are no markers. -/
theorem tokens_prefix_append_iff (phrase : Phrase) {tokens tail : List Token}
    (htail : Token.NoMarkers tail) :
    phrase.tokens <+: tokens ++ tail ↔ phrase.tokens <+: tokens := by
  constructor
  · rintro ⟨rest, hrest⟩
    rcases List.append_eq_append_iff.mp hrest with ⟨more, hmore, _⟩ | ⟨surplus, hphrase, hsplit⟩
    · exact ⟨more, hmore.symm⟩
    · rcases List.eq_nil_or_concat surplus with rfl | ⟨front, last, rfl⟩
      · rw [List.append_nil] at hphrase
        exact ⟨[], (List.append_nil _).trans hphrase⟩
      · -- The last token of the phrase would be one of the tail.
        rw [List.concat_eq_append] at hphrase hsplit
        have hlast : last ∈ phrase.tokens.getLast? := by
          rw [hphrase, ← List.append_assoc, List.getLast?_concat]
          rfl
        have hmem : last ∈ tail := by
          rw [hsplit]
          exact List.mem_append_left _ (List.mem_append_right _ List.mem_cons_self)
        rcases htail last hmem with hchar | rfl
        · rw [isChar_of_mem_getLast?_tokens hlast] at hchar
          cases hchar
        · exact absurd (List.mem_of_getLast? hlast) phrase.endMark_notMem_tokens
  · intro h
    exact h.trans (List.prefix_append _ _)

end Phrase

/-- Tokens at the end that are no markers do not change what the styles accept. -/
theorem Matcher.style_append_of_noMarkers {tail : List Token} (htail : Token.NoMarkers tail)
    (tokens : List Token) : Matcher.style (tokens ++ tail) = Matcher.style tokens := by
  apply Option.ext
  intro found
  simp only [Matcher.style_eq_some_iff, Phrase.tokens_prefix_append_iff _ htail]

/-! ## Cutting -/

/-- Tokens that are no markers are cut on their own. -/
theorem Segment.cutNodes_append_of_noMarkers {tokens tail : List Token}
    (hend : .endMark ∉ tokens) (htail : Token.NoMarkers tail) :
    cutNodes (tokens ++ tail) = cutNodes tokens ++ cutNodes tail := by
  induction tokens using cut_induction with
  | nil => simp
  | endMark rest => exact absurd List.mem_cons_self hend
  | phrase phrase rest hsound ih =>
      have hrest : .endMark ∉ rest := fun hmem => hend (List.mem_append_right _ hmem)
      rw [List.append_assoc, cutNodes_phrase_append hsound, cutNodes_phrase_append hsound,
        ih hrest, List.cons_append]
  | kept token c rest hstyle hliteral ih =>
      have hrest : .endMark ∉ rest := fun hmem => hend (List.mem_cons_of_mem _ hmem)
      have hstyle' : Matcher.style (token :: (rest ++ tail)) = none := by
        rw [← List.cons_append, Matcher.style_append_of_noMarkers htail, hstyle]
      rw [List.cons_append, cutNodes_cons_of_style_eq_none hstyle' hliteral,
        cutNodes_cons_of_style_eq_none hstyle hliteral, ih hrest, List.cons_append]

/-- Literal characters are cut into their texts, up to the end mark. -/
theorem Segment.cutNodes_map_char_endMark (cs : List Char) :
    cutNodes (cs.map .char ++ [.endMark]) = Node.ofChars cs := by
  rw [cutNodes_map_char_append, cutNodes_endMark_cons, List.append_nil]

/-- The texts of a string that are not merged are those of its characters. -/
theorem Node.ofText_false (s : String) : ofText s false = ofChars s.toList := by
  unfold ofText
  split
  next hempty =>
    have hnothing : s = "" := by simpa using hempty
    subst hnothing
    rfl
  next => rfl

/-- The cut of a line stands between the texts of what surrounds it. -/
theorem cutNodes_tokenize_surrounded {before line after : String}
    (hbefore : Text.IsPlain before.toList) (hafter : Text.IsPlain after.toList)
    (hline : Even (Text.trailingBackslashes line.toList)) :
    Segment.cutNodes (tokenize (before ++ line ++ after)) =
      Node.ofText before false ++ Segment.cutNodes (tokenize line) ++
        Node.ofText after false := by
  have hend := Token.endMark_notMem_ofChars line.toList
  have htail := Token.noMarkers_map_char_append Token.noMarkers_endMark after.toList
  have htokens : tokenize (before ++ line ++ after) =
      before.toList.map .char ++
        (Token.ofChars line.toList ++ (after.toList.map .char ++ [.endMark])) := by
    rw [tokenize, String.toList_append, String.toList_append, List.append_assoc, hbefore.reads,
      Token.reads_ofChars_of_even hline, hafter.reads.ofChars_eq, List.append_assoc,
      List.append_assoc]
  have hcut : Segment.cutNodes (tokenize line) = Segment.cutNodes (Token.ofChars line.toList) := by
    rw [tokenize, Segment.cutNodes_append_of_noMarkers hend Token.noMarkers_endMark,
      Segment.cutNodes_endMark_cons, List.append_nil]
  rw [htokens, Segment.cutNodes_map_char_append, Segment.cutNodes_append_of_noMarkers hend htail,
    Segment.cutNodes_map_char_endMark, hcut, Node.ofText_false, Node.ofText_false,
    List.append_assoc]

/-- Between plain texts a line parses to the nodes that it parses to alone, and the texts
around it to their characters. The line may not be empty, and it may not end in a backslash
that would protect the text behind it. -/
theorem parse_surrounded {before line after : String} (hbefore : Text.IsPlain before.toList)
    (hafter : Text.IsPlain after.toList) (hne : line ≠ "")
    (hline : Even (Text.trailingBackslashes line.toList)) :
    ∃ nodes, parse line = .ok nodes ∧
      parse (before ++ line ++ after) =
        .ok (Node.ofText before false ++ nodes ++ Node.ofText after false) := by
  have hwhole : before ++ line ++ after ≠ "" := by simp [hne]
  refine ⟨_, parse_of_ne_empty hne, ?_⟩
  rw [parse_of_ne_empty hwhole, cutNodes_tokenize_surrounded hbefore hafter hline]

/-- Plain text behind a bold span that lacks one asterisk, and behind two backslashes. -/
theorem parse_surrounded_open_fence :
    Text.IsPlain "x ".toList ∧ Text.IsPlain "yz".toList ∧ "**a*\\\\" ≠ "" ∧
      Even (Text.trailingBackslashes "**a*\\\\".toList) ∧
      ∃ nodes, parse "**a*\\\\" = .ok nodes ∧
        parse ("x " ++ "**a*\\\\" ++ "yz") =
          .ok (Node.ofText "x " false ++ nodes ++ Node.ofText "yz" false) := by
  have hbefore : Text.IsPlain "x ".toList := by simp [Text.IsPlain, Text.protectedChars]
  have hafter : Text.IsPlain "yz".toList := by simp [Text.IsPlain, Text.protectedChars]
  have hne : "**a*\\\\" ≠ "" := by decide
  have hline : Even (Text.trailingBackslashes "**a*\\\\".toList) := by decide
  exact ⟨hbefore, hafter, hne, hline, parse_surrounded hbefore hafter hne hline⟩

end LineMarkup
