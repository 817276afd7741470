import LineMarkup.Proofs.Acceptance

/-!
# The grammar of styled spans by index

Whether a styled span stands at an index is told by the tokens there alone: a fence, the
literal run behind it, and a fence right behind that run. The run must not be empty and has no
boundary blank at either edge. Since a fence begins with no literal character, a span from a
given start closes where its literal run ends or nowhere.
-/

namespace LineMarkup

/-! ## Delimiters in a token list -/

/-- A text stands at the front of a list if its first part stands there and its second part
right behind. -/
theorem append_prefix_iff {α : Type} {first second list : List α} :
    first ++ second <+: list ↔ first <+: list ∧ second <+: list.drop first.length := by
  constructor
  · rintro ⟨rest, rfl⟩
    rw [List.append_assoc, List.drop_left]
    exact ⟨List.prefix_append _ _, List.prefix_append _ _⟩
  · rintro ⟨⟨rest, rfl⟩, hsecond⟩
    rw [List.drop_left] at hsecond
    exact (List.prefix_append_right_inj first).mpr hsecond

/-- Copies of a token stand from an index on exactly if each of their places holds it. -/
theorem replicate_prefix_drop_iff {count index : Nat} {token : Token} {tokens : List Token} :
    List.replicate count token <+: tokens.drop index ↔
      ∀ k < count, tokens[index + k]? = some token := by
  simp [List.prefix_iff_getElem?]

/-- Literal content right before something that begins with no literal character is the whole
literal run. -/
theorem map_char_append_prefix_iff {content : List Char} {marker : Token} {rest tokens : List Token}
    (hmarker : marker.isChar = false) :
    content.map .char ++ marker :: rest <+: tokens ↔
      content = literalRun tokens ∧ marker :: rest <+: tokens.drop content.length := by
  constructor
  · intro h
    refine ⟨?_, ?_⟩
    · obtain ⟨tail, rfl⟩ := h
      rw [List.append_assoc, literalRun_map_char_append, List.cons_append,
        literalRun_cons_of_not_isChar hmarker, List.append_nil]
    · have hsplit := (append_prefix_iff.mp h).2
      rwa [List.length_map] at hsplit
  · rintro ⟨rfl, hrest⟩
    obtain ⟨tail, htail⟩ := hrest
    refine ⟨tail, ?_⟩
    rw [List.append_assoc, htail, map_char_literalRun_append_drop]

namespace StyledSpan

variable (span : StyledSpan)

/-- Literal content closed by a fence is the whole literal run. -/
theorem map_char_fence_prefix_iff {content : List Char} {tokens : List Token} :
    content.map .char ++ span.fence <+: tokens ↔
      content = literalRun tokens ∧ span.fence <+: tokens.drop content.length := by
  obtain ⟨rest, hfence⟩ := span.fence_eq_cons
  rw [hfence]
  exact map_char_append_prefix_iff span.isChar_marker

/-- The tokens of a styled phrase at an index: a fence, the literal run, and a fence again. -/
theorem tokens_prefix_drop_iff {content : List Char} {index : Nat} {tokens : List Token} :
    (Phrase.styled span content).tokens <+: tokens.drop index ↔
      (∀ k < span.arity, tokens[index + k]? = some span.marker) ∧
        content = literalRun (tokens.drop (index + span.arity)) ∧
        ∀ k < span.arity, tokens[index + span.arity + content.length + k]? = some span.marker := by
  rw [Phrase.tokens, append_prefix_iff, length_fence, List.drop_drop, map_char_fence_prefix_iff,
    List.drop_drop, fence, replicate_prefix_drop_iff, replicate_prefix_drop_iff]

/-- A styled span is accepted at an index exactly where a fence stands, then a literal run that
is not empty and has firm edges, then a fence again. It is the one node of that run, with a text
for each character, and ends with the closing fence; no content but the whole run can stand
before a closing fence. -/
theorem matchAt_eq_some_iff (index : Nat) (tokens : List Token) :
    let run := literalRun (tokens.drop (index + span.arity))
    (∀ found, span.matcher.matchAt index tokens = some found ↔
      (∀ k < span.arity, tokens[index + k]? = some span.marker) ∧
        run ≠ [] ∧ Text.FirmEdges run ∧
        (∀ k < span.arity, tokens[index + span.arity + run.length + k]? = some span.marker) ∧
        found = .single (.span span.kind (Node.ofChars run))
          (index + 2 * span.arity + run.length)) ∧
      ∀ content : List Char,
        content.map .char ++ span.fence <+: tokens.drop (index + span.arity) → content = run := by
  intro run
  refine ⟨fun found => ?_, fun content hcontent => (span.map_char_fence_prefix_iff.mp hcontent).1⟩
  have hstop (content : List Char) : ((Phrase.styled span content).toMatch).shift index =
      .single (.span span.kind (Node.ofChars content))
        (index + 2 * span.arity + content.length) := by
    simp only [Phrase.toMatch, Phrase.node, Phrase.tokens, Match.single, Match.shift,
      List.length_append, List.length_map, length_fence, Match.mk.injEq, true_and]
    omega
  rw [Matcher.matchAt, Option.map_eq_some_iff]
  simp only [matcher_eq_some_iff, tokens_prefix_drop_iff]
  constructor
  · rintro ⟨_, ⟨content, ⟨hne, hfirm⟩, ⟨hopen, rfl, hclose⟩, rfl⟩, rfl⟩
    exact ⟨hopen, hne, hfirm, hclose, hstop _⟩
  · rintro ⟨hopen, hne, hfirm, hclose, rfl⟩
    exact ⟨_, ⟨run, ⟨hne, hfirm⟩, ⟨hopen, rfl, hclose⟩, rfl⟩, hstop run⟩

end StyledSpan

end LineMarkup
