import LineMarkup.Proofs.Cutting

/-!
# A word between two runs of a marker

The markers right before a word and those right behind it need not be equal in number. A span
takes from either side as many of them as both sides have and as one fence can hold, the ones
next to the word, and what is left over further out is text. This span is found although every
marker in front of the word is tried in turn: content follows a fence at once, so no span
begins at a marker that is further from the word than a fence reaches.
-/

namespace LineMarkup

/-- Tokens without a literal character begin no style. -/
theorem Matcher.style_eq_none_of_no_char {tokens : List Token}
    (h : ∀ token ∈ tokens, token.isChar = false) : style tokens = none := by
  rw [Option.eq_none_iff_forall_ne_some]
  intro found hfound
  obtain ⟨phrase, hsound, hprefix, _⟩ := style_eq_some_iff.mp hfound
  obtain ⟨c, cs, hcontent⟩ := List.exists_cons_of_ne_nil hsound.content_ne_nil
  have hmem : .char c ∈ phrase.tokens := by simp [phrase.tokens_eq, hcontent]
  have hnot := h _ (List.IsPrefix.subset hprefix hmem)
  cases hnot

/-! ## The markers of fences -/

/-- A marker that fences of styled spans are made of. -/
inductive FenceMarker where
  | asterisk
  | underscore
  | tilde
  deriving DecidableEq, Repr

namespace FenceMarker

def token : FenceMarker → Token
  | .asterisk => .asterisk
  | .underscore => .underscore
  | .tilde => .tilde

/-- The character of a marker that is kept as text. -/
def literal : FenceMarker → Char
  | .asterisk => '*'
  | .underscore => '_'
  | .tilde => '~'

/-- The number of markers in the longest fence. -/
def maxArity : FenceMarker → Nat
  | .asterisk | .underscore => 2
  | .tilde => 1

/-- The kind of a span between fences of so many markers. -/
def kind : FenceMarker → Nat → SpanKind
  | .tilde, _ => .strikethrough
  | _, 1 => .italic
  | _, _ => .bold

variable (marker : FenceMarker)

theorem literal?_token : marker.token.literal? = some marker.literal := by
  cases marker <;> rfl

theorem isChar_token : marker.token.isChar = false := by
  cases marker <;> rfl

theorem exists_span {count : Nat} (hpos : 1 ≤ count) (hle : count ≤ marker.maxArity) :
    ∃ span : StyledSpan, span.fence = List.replicate count marker.token ∧
      span.kind = marker.kind count := by
  cases marker with
  | asterisk =>
      obtain rfl | rfl : count = 1 ∨ count = 2 := by
        rw [maxArity] at hle
        omega
      · exact ⟨.italicAsterisk, rfl, rfl⟩
      · exact ⟨.boldAsterisk, rfl, rfl⟩
  | underscore =>
      obtain rfl | rfl : count = 1 ∨ count = 2 := by
        rw [maxArity] at hle
        omega
      · exact ⟨.italicUnderscore, rfl, rfl⟩
      · exact ⟨.boldUnderscore, rfl, rfl⟩
  | tilde =>
      obtain rfl : count = 1 := Nat.le_antisymm hle hpos
      exact ⟨.strikethrough, rfl, rfl⟩

theorem le_maxArity_of_fence_eq {span : StyledSpan} {count : Nat}
    (h : span.fence = List.replicate count marker.token) : 1 ≤ count ∧ count ≤ marker.maxArity := by
  have hcount : span.arity = count := by simpa using congrArg List.length h
  subst hcount
  refine ⟨span.arity_pos, ?_⟩
  cases span <;> cases marker <;> first | decide | cases h

/-! ## Markers around a word -/

/-- The tokens of a word with markers in front of it and behind it, up to the end mark. -/
def around (before : Nat) (word : List Char) (after : Nat) : List Token :=
  List.replicate before marker.token ++
    (word.map .char ++ (List.replicate after marker.token ++ [.endMark]))

/-- The nodes of such a word. The markers next to it that have a counterpart on the other side
make a span, as many of them as one fence holds, if the word may stand in one. All other markers
are texts. -/
def nodesAround (before : Nat) (word : List Char) (after : Nat) : List Node :=
  let width := min marker.maxArity (min before after)
  let text := Node.ofChar marker.literal
  if 1 ≤ width ∧ Text.FirmEdges word then
    List.replicate (before - width) text ++
      .span (marker.kind width) (Node.ofChars word) :: List.replicate (after - width) text
  else List.replicate before text ++ Node.ofChars word ++ List.replicate after text

variable {marker} {before after : Nat} {word : List Char}

/-- Behind the markers in front of the word stand its characters, and no more. -/
theorem literalRun_drop_around :
    literalRun ((marker.around before word after).drop before) = word := by
  have hbehind : literalRun (List.replicate after marker.token ++ [.endMark]) = [] := by
    cases after with
    | zero => rfl
    | succ after => exact literalRun_cons_of_not_isChar marker.isChar_token _
  rw [around, List.drop_left' List.length_replicate, literalRun_map_char_append, hbehind,
    List.append_nil]

/-- Only a span of the whole word begins in front of it, and its fences are all the markers
there. -/
theorem exists_span_of_prefix {phrase : Phrase} (hsound : phrase.Sound) (hword : word ≠ [])
    (h : phrase.tokens <+: marker.around before word after) :
    ∃ span, phrase = .styled span word ∧ span.fence = List.replicate before marker.token ∧
      before ≤ after := by
  obtain ⟨rest, hrest⟩ := h
  have hopening : phrase.opening = List.replicate before marker.token := by
    obtain ⟨c, cs, rfl⟩ := List.exists_cons_of_ne_nil hword
    rw [← hsound.takeWhile_tokens_append rest, hrest, around, List.takeWhile_append_of_pos]
    · simp [Token.isChar]
    · intro token htoken
      rw [List.eq_of_mem_replicate htoken, marker.isChar_token]
      rfl
  have hcontent : phrase.content = word := by
    rw [← phrase.literalRun_drop_opening rest, hrest, hopening, List.length_replicate,
      literalRun_drop_around]
  have hclosing : phrase.closing ++ rest = List.replicate after marker.token ++ [.endMark] := by
    rw [phrase.tokens_eq, hopening, hcontent, around, List.append_assoc, List.append_assoc] at hrest
    exact List.append_cancel_left (List.append_cancel_left hrest)
  cases phrase with
  | styled span content =>
      cases hcontent
      refine ⟨span, rfl, hopening, ?_⟩
      -- The closing fence is one of the runs of the marker behind the word.
      have hfence : (Phrase.styled span content).closing = List.replicate before marker.token :=
        hopening
      have hcount := congrArg (List.count marker.token) hclosing
      rw [hfence, List.count_append, List.count_append, List.count_replicate_self,
        List.count_replicate_self, List.count_singleton] at hcount
      have hend : (Token.endMark == marker.token) = false := by cases marker <;> rfl
      simp only [hend, Bool.false_eq_true, if_false] at hcount
      omega
  | code content =>
      have hmem : .backtick ∈ List.replicate before marker.token :=
        hopening ▸ List.mem_singleton_self Token.backtick
      have hmarker := List.eq_of_mem_replicate hmem
      cases marker <;> cases hmarker
  | link label address =>
      have hmem : .leftBracket ∈ List.replicate before marker.token :=
        hopening ▸ List.mem_singleton_self Token.leftBracket
      have hmarker := List.eq_of_mem_replicate hmem
      cases marker <;> cases hmarker

/-- No span begins where there are more markers in front of the word than behind it or than a
fence can hold, nor where there is none, nor around a word with a blank edge. -/
theorem style_around_eq_none (hword : word ≠ [])
    (h : ¬ (Text.FirmEdges word ∧ 1 ≤ before ∧ before ≤ min marker.maxArity after)) :
    Matcher.style (marker.around before word after) = none := by
  rw [Option.eq_none_iff_forall_ne_some]
  intro found hfound
  obtain ⟨phrase, hsound, hprefix, _⟩ := Matcher.style_eq_some_iff.mp hfound
  obtain ⟨span, rfl, hfence, hle⟩ := exists_span_of_prefix hsound hword hprefix
  obtain ⟨hpos, hmax⟩ := marker.le_maxArity_of_fence_eq hfence
  exact h ⟨hsound.2, hpos, Nat.le_min.mpr ⟨hmax, hle⟩⟩

/-! ## Cutting -/

/-- Markers that no content follows are texts. -/
theorem cutNodes_replicate_endMark (marker : FenceMarker) (count : Nat) :
    Segment.cutNodes (List.replicate count marker.token ++ [.endMark]) =
      List.replicate count (.ofChar marker.literal) := by
  induction count with
  | zero => simp
  | succ count ih =>
      have hstyle : Matcher.style (marker.token :: (List.replicate count marker.token ++
          [.endMark])) = none := by
        apply Matcher.style_eq_none_of_no_char
        intro token htoken
        simp only [List.mem_cons, List.mem_append, List.mem_replicate, List.not_mem_nil,
          or_false] at htoken
        rcases htoken with rfl | ⟨_, rfl⟩ | rfl
        · exact marker.isChar_token
        · exact marker.isChar_token
        · rfl
      rw [List.replicate_succ, List.cons_append,
        Segment.cutNodes_cons_of_style_eq_none hstyle marker.literal?_token, ih,
        List.replicate_succ]

/-- Where all markers in front of the word make a fence, the span is cut off with as many of
those behind it. -/
theorem cutNodes_around_of_fits (hword : word ≠ []) (hfirm : Text.FirmEdges word)
    (hpos : 1 ≤ before) (hle : before ≤ min marker.maxArity after) :
    Segment.cutNodes (marker.around before word after) =
      .span (marker.kind before) (Node.ofChars word) ::
        List.replicate (after - before) (.ofChar marker.literal) := by
  obtain ⟨hmax, hafter⟩ := Nat.le_min.mp hle
  obtain ⟨span, hfence, hkind⟩ := marker.exists_span hpos hmax
  have htokens : marker.around before word after = (Phrase.styled span word).tokens ++
      (List.replicate (after - before) marker.token ++ [.endMark]) := by
    have hsplit : List.replicate after marker.token =
        List.replicate before marker.token ++ List.replicate (after - before) marker.token := by
      rw [List.replicate_append_replicate, Nat.add_sub_of_le hafter]
    simp only [around, Phrase.tokens, hfence, hsplit, List.append_assoc]
  have hsound : (Phrase.styled span word).Sound := ⟨hword, hfirm⟩
  rw [htokens, Segment.cutNodes_phrase_append hsound, cutNodes_replicate_endMark, Phrase.node,
    hkind]

/-- The markers in front of the word are tried from the outermost one inwards, and each that
begins no span is a text. -/
theorem cutNodes_around (hword : word ≠ []) :
    Segment.cutNodes (marker.around before word after) = marker.nodesAround before word after := by
  induction before with
  | zero =>
      rw [around, List.replicate_zero, List.nil_append, Segment.cutNodes_map_char_append,
        cutNodes_replicate_endMark]
      simp [nodesAround]
  | succ before ih =>
      by_cases hfits : Text.FirmEdges word ∧ before + 1 ≤ min marker.maxArity after
      · obtain ⟨hfirm, hle⟩ := hfits
        have hwidth : min marker.maxArity (min (before + 1) after) = before + 1 := by omega
        rw [cutNodes_around_of_fits hword hfirm (Nat.succ_pos _) hle, nodesAround, hwidth,
          if_pos ⟨Nat.succ_pos _, hfirm⟩, Nat.sub_self, List.replicate_zero, List.nil_append]
      · have hstyle : Matcher.style (marker.around (before + 1) word after) = none :=
          style_around_eq_none hword fun h => hfits ⟨h.1, h.2.2⟩
        have hcons : marker.around (before + 1) word after =
            marker.token :: marker.around before word after := rfl
        rw [hcons] at hstyle ⊢
        rw [Segment.cutNodes_cons_of_style_eq_none hstyle marker.literal?_token, ih, nodesAround,
          nodesAround]
        by_cases hfirm : Text.FirmEdges word
        · -- The outermost marker is beyond the reach of the span, which stays as wide.
          have hover : min marker.maxArity after < before + 1 :=
            Nat.lt_of_not_le fun hle => hfits ⟨hfirm, hle⟩
          have hwidth : min marker.maxArity (min (before + 1) after) =
              min marker.maxArity (min before after) := by omega
          have hreach : min marker.maxArity (min before after) ≤ before := by omega
          rw [hwidth]
          generalize min marker.maxArity (min before after) = width at hreach
          by_cases hpos : 1 ≤ width
          · simp [hpos, hfirm, Nat.succ_sub hreach, List.replicate_succ]
          · simp [hpos, List.replicate_succ]
        · simp [hfirm, List.replicate_succ]

end FenceMarker

/-- A word between two runs of a marker is accepted up to and with the end mark. If it may stand
in a span, the innermost markers that both sides have make one, at most as many as one fence
holds, and the markers further out are texts. Otherwise every token is a text. -/
theorem markdown_matchAt_marked_word (marker : FenceMarker) (before after : Nat)
    {word : List Char} (hword : word ≠ []) :
    Matcher.markdown.matchAt 0 (List.replicate before marker.token ++ word.map .char ++
        List.replicate after marker.token ++ [.endMark]) =
      some ⟨marker.nodesAround before word after, before + word.length + after + 1⟩ := by
  have htokens : List.replicate before marker.token ++ word.map .char ++
      List.replicate after marker.token ++ [.endMark] = marker.around before word after := by
    simp only [FenceMarker.around, List.append_assoc]
  have hbefore : Token.beforeEnd (marker.around before word after) =
      List.replicate before marker.token ++ word.map .char ++
        List.replicate after marker.token := by
    rw [← htokens, Token.beforeEnd_append, Token.beforeEnd_endMark_cons, List.append_nil]
    cases marker <;> simp [FenceMarker.token]
  rw [htokens, Matcher.matchAt, List.drop_zero, Matcher.markdown_eq, hbefore,
    FenceMarker.cutNodes_around hword]
  simp [hword, Match.shift, Nat.add_assoc]

/-- Three asterisks in front of a word and four behind it. -/
theorem markdown_matchAt_marked_word_surplus :
    ['a', ' ', 'b'] ≠ [] ∧
      Matcher.markdown.matchAt 0 (List.replicate 3 .asterisk ++ ['a', ' ', 'b'].map .char ++
          List.replicate 4 .asterisk ++ [.endMark]) =
        some ⟨[.ofChar '*', .span .bold (Node.ofChars ['a', ' ', 'b']), .ofChar '*', .ofChar '*'],
          11⟩ := by
  have hword : ['a', ' ', 'b'] ≠ [] := by simp
  have hnodes : FenceMarker.asterisk.nodesAround 3 ['a', ' ', 'b'] 4 =
      [.ofChar '*', .span .bold (Node.ofChars ['a', ' ', 'b']), .ofChar '*', .ofChar '*'] := by
    decide
  have hmatch := markdown_matchAt_marked_word .asterisk 3 4 hword
  rw [hnodes] at hmatch
  exact ⟨hword, hmatch⟩

end LineMarkup
