import LineMarkup.Proofs.IndexRoom
import Mathlib.Algebra.Group.Nat.Defs

/-!
# Indices in a machine word

Where an index is a machine word, a sum that no word holds ends the attempt. It never comes to
that: the sums stay at or below the index that a rule is asked for, or one beyond the tokens.
So a rule finds the same as with unbounded indices, and behind the tokens it finds nothing.
-/

namespace LineMarkup

variable {index word : Nat} {tokens : List Token}

/-- There is room in a word that is larger than the index and than any index at which a match
in the list can stop. -/
theorem IndexRoom.of_lt (hindex : index < word) (hlength : tokens.length + 1 < word) :
    IndexRoom (some word) tokens (max index (tokens.length + 1)) := by
  constructor
  · simp only [Option.all_some, decide_eq_true_eq]
    exact Nat.max_lt.mpr ⟨hindex, hlength⟩
  · exact Nat.lt_of_lt_of_le (Nat.lt_succ_self _) (Nat.le_max_right _ _)

namespace Rule

/-- No rule accepts where there are no tokens. -/
theorem matcher_nil (rule : Rule) : rule.matcher [] = none := by
  cases rule with
  | segment => rw [matcher, Matcher.segment, Segment.front?_nil, Option.map_none]
  | markdown => rw [matcher, Matcher.markdown_eq, Token.beforeEnd_nil, if_pos rfl]
  | _ => rfl

theorem matchAt_of_length_le (rule : Rule) (h : tokens.length ≤ index) :
    rule.matchAt index tokens = none := by
  rw [matchAt, Matcher.matchAt, List.drop_of_length_le h, matcher_nil, Option.map_none]

/-- With indices of 64 bits and at most `2 ^ 60` tokens no sum of indices is too large, whichever
rule is asked for at whichever index. The rule finds what it finds with unbounded indices, and
nothing at an index beyond the tokens. -/
theorem matchIndexed_word (rule : Rule) (hindex : index < 2 ^ 64)
    (hlength : tokens.length ≤ 2 ^ 60) :
    rule.matchIndexed (some (2 ^ 64)) index tokens = rule.matchIndexed none index tokens ∧
      rule.matchIndexed (some (2 ^ 64)) index tokens = .ok (rule.matchAt index tokens) ∧
      (tokens.length ≤ index → rule.matchIndexed (some (2 ^ 64)) index tokens = .ok none) := by
  have hword : tokens.length + 1 < 2 ^ 64 := by omega
  have hchecked : rule.matchIndexed (some (2 ^ 64)) index tokens =
      .ok (rule.matchAt index tokens) :=
    (IndexRoom.of_lt hindex hword).matchIndexed_eq rule (Nat.le_max_left _ _)
  have hunbounded : rule.matchIndexed none index tokens = .ok (rule.matchAt index tokens) :=
    (IndexRoom.unbounded index tokens).matchIndexed_eq rule (Nat.le_max_left _ _)
  refine ⟨hchecked.trans hunbounded.symm, hchecked, ?_⟩
  intro hbeyond
  rw [hchecked, rule.matchAt_of_length_le hbeyond]

/-- The largest index of a word is looked up without a sum that leaves the word. -/
theorem matchIndexed_word_last :
    2 ^ 64 - 1 < 2 ^ 64 ∧ [Token.asterisk, .char 'a', .asterisk].length ≤ 2 ^ 60 ∧
      Rule.style.matchIndexed (some (2 ^ 64)) (2 ^ 64 - 1) [.asterisk, .char 'a', .asterisk] =
        .ok none :=
  ⟨by decide, by decide, (matchIndexed_word .style (by decide) (by decide)).2.2 (by decide)⟩

-- Room for the tokens alone is not enough, since the end mark behind them is taken too.
example : Rule.markdown.matchIndexed (some 2) 0 [.char 'a'] = .error ⟨2⟩ := by cbv

end Rule

end LineMarkup
