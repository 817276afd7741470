import LineMarkup.Proofs.Cutting

/-!
# Cut points

Matching a whole token list from an index cuts the tokens there into pieces, up to the
first end mark and never beyond it. Each piece is one accepted style, or one token that
no style accepts, and makes exactly one node.
-/

namespace LineMarkup

/-- One piece from an index to a later one: what a style accepts there, or else a single
token as the text of its literal character. -/
structure CutStep (tokens : List Token) (start stop : Nat) (node : Node) : Prop where
  lt : start < stop
  styled : ∀ found, Matcher.style.matchAt start tokens = some found → found = .single node stop
  kept : Matcher.style.matchAt start tokens = none →
    stop = start + 1 ∧
      ∃ token c, tokens[start]? = some token ∧ token.literal? = some c ∧ node = .ofChar c

/-- Cut points from one index to another, with a piece between each and the next that
makes one of the nodes. -/
def HasCutPoints (tokens : List Token) (start stop : Nat) (nodes : List Node) : Prop :=
  ∃ cuts : Nat → Nat, cuts 0 = start ∧ cuts nodes.length = stop ∧
    ∀ j (hj : j < nodes.length), CutStep tokens (cuts j) (cuts (j + 1)) nodes[j]

namespace HasCutPoints

theorem nil (tokens : List Token) (index : Nat) : HasCutPoints tokens index index [] :=
  ⟨fun _ => index, rfl, rfl, nofun⟩

/-- A piece goes in front of the cut points behind it. -/
theorem cons {tokens : List Token} {start next stop : Nat} {node : Node} {nodes : List Node}
    (hstep : CutStep tokens start next node) (hrest : HasCutPoints tokens next stop nodes) :
    HasCutPoints tokens start stop (node :: nodes) := by
  obtain ⟨cuts, rfl, hlast, hsteps⟩ := hrest
  refine ⟨fun | 0 => start | j + 1 => cuts j, rfl, hlast, ?_⟩
  intro j hj
  cases j with
  | zero => exact hstep
  | succ j => exact hsteps j (Nat.lt_of_succ_lt_succ hj)

end HasCutPoints

theorem drop_add_of_drop_eq_append {tokens front rest : List Token} {index : Nat}
    (h : tokens.drop index = front ++ rest) : tokens.drop (index + front.length) = rest := by
  rw [← List.drop_drop, h, List.drop_left]

/-- A sound phrase is one piece. -/
theorem CutStep.phrase {tokens rest : List Token} {index : Nat} {phrase : Phrase}
    (h : tokens.drop index = phrase.tokens ++ rest) (hsound : phrase.Sound) :
    CutStep tokens index (index + phrase.tokens.length) phrase.node := by
  have hstyle : Matcher.style.matchAt index tokens =
      some (.single phrase.node (index + phrase.tokens.length)) := by
    rw [Matcher.matchAt, h, Matcher.style_phrase_append hsound]
    rfl
  have hpos := List.length_pos_iff.mpr phrase.tokens_ne_nil
  refine ⟨by omega, ?_, ?_⟩
  · intro found hfound
    rw [hstyle] at hfound
    cases hfound
    rfl
  · intro hnone
    rw [hstyle] at hnone
    cases hnone

/-- A token that no style accepts is one piece. -/
theorem CutStep.kept_token {tokens rest : List Token} {index : Nat} {token : Token} {c : Char}
    (h : tokens.drop index = token :: rest) (hstyle : Matcher.style (token :: rest) = none)
    (hliteral : token.literal? = some c) : CutStep tokens index (index + 1) (.ofChar c) := by
  have hnone : Matcher.style.matchAt index tokens = none := by
    rw [Matcher.matchAt, h, hstyle]
    rfl
  refine ⟨Nat.lt_succ_self index, ?_, ?_⟩
  · intro found hfound
    rw [hnone] at hfound
    cases hfound
  · intro _
    refine ⟨rfl, token, c, ?_, hliteral, rfl⟩
    rw [← List.head?_drop, h]
    rfl

/-- The nodes of a whole cut come from pieces that end at the first end mark. -/
theorem hasCutPoints_cutNodes (tokens : List Token) (index : Nat) :
    HasCutPoints tokens index (Token.endIndex tokens index)
      (Segment.cutNodes (tokens.drop index)) := by
  rw [Token.endIndex, ← Token.length_beforeEnd]
  -- The cut sees the tokens from the index on only; the index moves along with it.
  generalize hsuffix : tokens.drop index = suffix
  induction suffix using Segment.cut_induction generalizing index with
  | nil =>
      rw [Segment.cutNodes_nil]
      exact .nil tokens index
  | endMark rest =>
      rw [Segment.cutNodes_endMark_cons]
      exact .nil tokens index
  | phrase phrase rest hsound ih =>
      rw [Segment.cutNodes_phrase_append hsound,
        Token.beforeEnd_append phrase.endMark_notMem_tokens, List.length_append, ← Nat.add_assoc]
      exact .cons (.phrase hsuffix hsound) (ih _ (drop_add_of_drop_eq_append hsuffix))
  | kept token c rest hstyle hliteral ih =>
      have hrest : tokens.drop (index + 1) = rest :=
        drop_add_of_drop_eq_append (hsuffix.trans (List.singleton_append).symm)
      rw [Segment.cutNodes_cons_of_style_eq_none hstyle hliteral,
        Token.beforeEnd_cons_of_literal? hliteral, List.length_cons, Nat.add_comm _ 1,
        ← Nat.add_assoc]
      exact .cons (.kept_token hsuffix hstyle hliteral) (ih _ hrest)

/-- Matching a whole token list rejects exactly at an end mark. Anywhere else it stops
right behind the first end mark, and its nodes come from the pieces up to there. -/
theorem markdown_matchAt_cutPoints (tokens : List Token) (index : Nat) :
    (Matcher.markdown.matchAt index tokens = none ∧ Token.endIndex tokens index = index) ∨
      ∃ found, Matcher.markdown.matchAt index tokens = some found ∧
        index < Token.endIndex tokens index ∧
        found.stop = Token.endIndex tokens index + 1 ∧
        HasCutPoints tokens index (Token.endIndex tokens index) found.nodes := by
  have hcuts := hasCutPoints_cutNodes tokens index
  rw [Matcher.matchAt, Matcher.markdown_eq]
  rw [Token.endIndex, ← Token.length_beforeEnd] at hcuts ⊢
  by_cases hempty : Token.beforeEnd (tokens.drop index) = []
  · left
    rw [if_pos hempty, hempty]
    exact ⟨rfl, rfl⟩
  · right
    have hpos := List.length_pos_iff.mpr hempty
    rw [if_neg hempty]
    exact ⟨_, rfl, by omega, rfl, hcuts⟩

end LineMarkup
