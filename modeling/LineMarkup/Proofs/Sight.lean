import LineMarkup.Proofs.IndexRoom
import LineMarkup.Proofs.StyleOrder

/-!
# What a matcher sees

A matcher at an index sees the tokens from there on up to the first end mark, and nothing
else. What stands before the index does not matter, nor does what follows the end mark, and a
list without an end mark is read as if one came behind it.
-/

namespace LineMarkup

/-! ## The tokens in front of the end mark -/

namespace Token

theorem endMark_notMem_beforeEnd (tokens : List Token) : .endMark ∉ beforeEnd tokens := by
  intro h
  have hall := List.all_eq_true.mp (List.all_takeWhile (l := tokens) (p := (· ≠ .endMark))) _ h
  simp at hall

/-- A list without end marks stands at the front of the tokens before the end mark exactly if
it stands at the front of all tokens. -/
theorem prefix_beforeEnd_iff {front tokens : List Token} (h : .endMark ∉ front) :
    front <+: beforeEnd tokens ↔ front <+: tokens := by
  constructor
  · intro hprefix
    exact hprefix.trans (List.takeWhile_prefix _)
  · rintro ⟨rest, rfl⟩
    rw [beforeEnd_append h]
    exact List.prefix_append _ _

theorem beforeEnd_beforeEnd (tokens : List Token) :
    beforeEnd (beforeEnd tokens) = beforeEnd tokens := by
  have hwhole := beforeEnd_append (endMark_notMem_beforeEnd tokens) []
  rwa [List.append_nil, beforeEnd_nil, List.append_nil] at hwhole

end Token

/-! ## Matchers that stop at the end mark -/

/-- The matcher does not see the first end mark, nor anything behind it. -/
def Matcher.StopsAtEnd (matcher : Matcher) : Prop :=
  ∀ tokens, matcher (Token.beforeEnd tokens) = matcher tokens

namespace Matcher

theorem keep_stopsAtEnd {kept? : Token → Option Char} (hend : kept? .endMark = none) :
    (keep kept?).StopsAtEnd := by
  intro tokens
  cases tokens with
  | nil => rfl
  | cons token rest =>
      by_cases htoken : token = .endMark
      · simp [htoken, keep, hend]
      · rw [← List.singleton_append, Token.beforeEnd_append (by simpa using Ne.symm htoken)]
        rfl

/-- Phrases hold no end mark, so what accepts phrases does not see one. -/
theorem Recognizes.stopsAtEnd {matcher : Matcher} {kind : Phrase → Prop}
    (h : matcher.Recognizes kind) : matcher.StopsAtEnd := by
  intro tokens
  ext found
  rw [h, h]
  simp only [Token.prefix_beforeEnd_iff (Phrase.endMark_notMem_tokens _)]

theorem style_stopsAtEnd : style.StopsAtEnd := by
  intro tokens
  ext found
  rw [style_eq_some_iff, style_eq_some_iff]
  simp only [Token.prefix_beforeEnd_iff (Phrase.endMark_notMem_tokens _)]

theorem anyToken_stopsAtEnd : anyToken.StopsAtEnd := by
  rw [anyToken_eq_keep]
  exact keep_stopsAtEnd rfl

theorem segment_stopsAtEnd : segment.StopsAtEnd := by
  intro tokens
  rw [segment_eq, segment_eq, style_stopsAtEnd, anyToken_stopsAtEnd]

end Matcher

/-- A cut ends at the first end mark. -/
theorem Segment.cutNodes_beforeEnd (tokens : List Token) :
    cutNodes (Token.beforeEnd tokens) = cutNodes tokens := by
  induction tokens using cut_induction with
  | nil => simp
  | endMark rest => simp
  | phrase phrase rest hsound ih =>
      rw [Token.beforeEnd_append phrase.endMark_notMem_tokens, cutNodes_phrase_append hsound, ih,
        cutNodes_phrase_append hsound]
  | kept token c rest hstyle hliteral ih =>
      have hbefore := Token.beforeEnd_cons_of_literal? hliteral rest
      have hstyle' : Matcher.style (token :: Token.beforeEnd rest) = none := by
        rw [← hbefore, Matcher.style_stopsAtEnd, hstyle]
      rw [hbefore, cutNodes_cons_of_style_eq_none hstyle' hliteral, ih,
        cutNodes_cons_of_style_eq_none hstyle hliteral]

theorem Matcher.markdown_stopsAtEnd : markdown.StopsAtEnd := by
  intro tokens
  rw [markdown_eq, markdown_eq, Token.beforeEnd_beforeEnd, Segment.cutNodes_beforeEnd]

/-! ## All rules -/

namespace Rule

theorem matcher_stopsAtEnd_of_mem_phraseRules {rule : Rule} (h : rule ∈ phraseRules) :
    rule.matcher.StopsAtEnd :=
  (recognizes_of_mem_phraseRules h).stopsAtEnd

theorem firstOf_stopsAtEnd (order : List Rule) (h : ∀ rule ∈ order, rule ∈ phraseRules) :
    (Matcher.firstOf (order.map matcher)).StopsAtEnd :=
  (recognizes_firstOf_of_subset h).stopsAtEnd

theorem matcher_stopsAtEnd (rule : Rule) : rule.matcher.StopsAtEnd := by
  cases rule with
  | char =>
      rw [matcher, Matcher.char_eq_keep]
      exact Matcher.keep_stopsAtEnd rfl
  | boundaryChar =>
      rw [matcher, Matcher.boundaryChar_eq_keep]
      exact Matcher.keep_stopsAtEnd rfl
  | anyToken => exact Matcher.anyToken_stopsAtEnd
  | bold => exact firstOf_stopsAtEnd [.boldAsterisk, .boldUnderscore] (by decide)
  | italic => exact firstOf_stopsAtEnd [.italicAsterisk, .italicUnderscore] (by decide)
  | style => exact Matcher.style_stopsAtEnd
  | segment => exact Matcher.segment_stopsAtEnd
  | markdown => exact Matcher.markdown_stopsAtEnd
  | _ => exact matcher_stopsAtEnd_of_mem_phraseRules (by decide)

/-- Every rule at an index accepts what it accepts at the front of the tokens from there up to
the first end mark, moved on by the index. This is also what comes out when the rule is
carried out by index on the whole list, where sums of indices are not limited. -/
theorem matchAt_eq_matchAt_beforeEnd (rule : Rule) (index : Nat) (tokens : List Token) :
    rule.matchIndexed none index tokens = .ok (rule.matchAt index tokens) ∧
      rule.matchAt index tokens =
        (rule.matchAt 0 (Token.beforeEnd (tokens.drop index))).map (·.shift index) := by
  constructor
  · exact (IndexRoom.unbounded index tokens).matchIndexed_eq rule (Nat.le_max_left _ _)
  · have hsight := rule.matcher_stopsAtEnd (tokens.drop index)
    rw [matchAt, matchAt, Matcher.matchAt, Matcher.matchAt, List.drop_zero, hsight,
      Option.map_map]
    congr 1
    funext found
    simp [Match.shift]

end Rule

end LineMarkup
