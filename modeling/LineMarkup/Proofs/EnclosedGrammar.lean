import LineMarkup.Proofs.SpanGrammar

/-!
# The grammars of code spans and links by index

Whether a code span or a link stands at an index is told by the tokens there alone: each
delimiter stands at a place of its own, which the literal runs before it determine. A run goes
on as far as literal characters reach, and nothing is asked of it but that it is not empty.
-/

namespace LineMarkup

/-! ## Literal runs by index -/

/-- The literal characters that stand from an index on, as far as they reach. -/
structure Token.IsLiteralRun (tokens : List Token) (start : Nat) (run : List Char) : Prop where
  chars : ∀ k c, run[k]? = some c → tokens[start + k]? = some (.char c)
  stops : ∀ c, tokens[start + run.length]? ≠ some (.char c)

/-- Behind a literal run stands no literal character. -/
theorem head?_drop_literalRun_ne_char (tokens : List Token) (c : Char) :
    (tokens.drop (literalRun tokens).length).head? ≠ some (.char c) := by
  induction tokens using literalRun.induct with
  | case1 d rest ih => exact ih
  | case2 tokens hnot =>
      rw [literalRun.eq_2 tokens hnot]
      intro hhead
      obtain ⟨rest, rfl⟩ := List.head?_eq_some_iff.mp hhead
      exact hnot c rest rfl

/-- From any index on stands exactly one literal run, which may be empty. -/
theorem Token.isLiteralRun_iff {tokens : List Token} {start : Nat} {run : List Char} :
    IsLiteralRun tokens start run ↔ run = literalRun (tokens.drop start) := by
  constructor
  · intro h
    have hprefix : run.map .char <+: tokens.drop start := by
      rw [List.prefix_iff_getElem?]
      intro k hk
      rw [List.length_map] at hk
      rw [List.getElem?_drop, List.getElem_map]
      exact h.chars k run[k] (List.getElem?_eq_getElem hk)
    obtain ⟨rest, hrest⟩ := hprefix
    have hstop : ∀ c behind, rest ≠ .char c :: behind := by
      rintro c behind rfl
      apply h.stops c
      rw [← List.head?_drop, ← List.drop_drop, ← hrest, List.drop_left' (List.length_map _)]
      rfl
    rw [← hrest, literalRun_map_char_append, literalRun.eq_2 rest hstop, List.append_nil]
  · rintro rfl
    constructor
    · intro k c hc
      obtain ⟨hk, _⟩ := List.getElem?_eq_some_iff.mp hc
      rw [← List.getElem?_drop, ← map_char_literalRun_append_drop (tokens.drop start),
        List.getElem?_append_left (by simpa using hk), List.getElem?_map, hc, Option.map_some]
    · intro c
      rw [← List.head?_drop, ← List.drop_drop]
      exact head?_drop_literalRun_ne_char _ c

/-! ## Delimiters by index -/

/-- What begins with a token stands at an index if the token stands there and the rest right
behind it. -/
theorem cons_prefix_drop_iff {token : Token} {rest tokens : List Token} {index : Nat} :
    token :: rest <+: tokens.drop index ↔
      tokens[index]? = some token ∧ rest <+: tokens.drop (index + 1) := by
  rw [← List.singleton_append, append_prefix_iff, List.singleton_prefix_iff_head?_eq_some,
    List.head?_drop, List.drop_drop, List.length_singleton]

/-- Content between two delimiters is the whole literal run behind the first of them, and the
second stands where that run ends. -/
theorem delimited_prefix_drop_iff {opening closing : Token} (hclosing : closing.isChar = false)
    {content : List Char} {rest tokens : List Token} {index : Nat} :
    opening :: (content.map .char ++ closing :: rest) <+: tokens.drop index ↔
      tokens[index]? = some opening ∧ Token.IsLiteralRun tokens (index + 1) content ∧
        tokens[index + 1 + content.length]? = some closing ∧
        rest <+: tokens.drop (index + 1 + content.length + 1) := by
  rw [cons_prefix_drop_iff, map_char_append_prefix_iff hclosing, ← Token.isLiteralRun_iff,
    List.drop_drop, cons_prefix_drop_iff]

namespace Phrase

theorem code_prefix_drop_iff {content : List Char} {index : Nat} {tokens : List Token} :
    (code content).tokens <+: tokens.drop index ↔
      tokens[index]? = some .backtick ∧ Token.IsLiteralRun tokens (index + 1) content ∧
        tokens[index + content.length + 1]? = some .backtick := by
  rw [Phrase.tokens, delimited_prefix_drop_iff rfl, Nat.add_right_comm index 1]
  simp

theorem link_prefix_drop_iff {label address : List Char} {index : Nat} {tokens : List Token} :
    (link label address).tokens <+: tokens.drop index ↔
      tokens[index]? = some .leftBracket ∧ Token.IsLiteralRun tokens (index + 1) label ∧
        tokens[index + label.length + 1]? = some .rightBracket ∧
        tokens[index + label.length + 2]? = some .leftParen ∧
        Token.IsLiteralRun tokens (index + label.length + 3) address ∧
        tokens[index + label.length + address.length + 3]? = some .rightParen := by
  rw [Phrase.tokens, delimited_prefix_drop_iff rfl, delimited_prefix_drop_iff rfl,
    Nat.add_right_comm index 1, Nat.add_right_comm _ (2 + 1)]
  simp

end Phrase

namespace Matcher

variable {index : Nat} {tokens : List Token} {found : Match}

/-- What is recognized at an index is a phrase that begins there. -/
theorem Recognizes.matchAt_iff {matcher : Matcher} {kind : Phrase → Prop}
    (h : matcher.Recognizes kind) :
    matcher.matchAt index tokens = some found ↔
      ∃ phrase, kind phrase ∧ phrase.Sound ∧ phrase.tokens <+: tokens.drop index ∧
        found = phrase.toMatch.shift index := by
  rw [matchAt, Option.map_eq_some_iff]
  constructor
  · rintro ⟨_, hfront, rfl⟩
    obtain ⟨phrase, hkind, hsound, hprefix, rfl⟩ := (h _ _).mp hfront
    exact ⟨phrase, hkind, hsound, hprefix, rfl⟩
  · rintro ⟨phrase, hkind, hsound, hprefix, rfl⟩
    exact ⟨_, (h _ _).mpr ⟨phrase, hkind, hsound, hprefix, rfl⟩, rfl⟩

/-- A code span at an index is a sound code phrase there. -/
theorem code_matchAt_eq_some_iff :
    code.matchAt index tokens = some found ↔
      ∃ content, content ≠ [] ∧ (Phrase.code content).tokens <+: tokens.drop index ∧
        found = .single (.span .code (Node.ofChars content)) (index + content.length + 2) := by
  have hstop (content : List Char) : ((Phrase.code content).toMatch).shift index =
      .single (.span .code (Node.ofChars content)) (index + content.length + 2) := by
    simp [Phrase.toMatch, Phrase.node, Phrase.tokens, Match.single, Match.shift, Nat.add_assoc]
  rw [recognizes_code.matchAt_iff]
  constructor
  · rintro ⟨_, ⟨content, rfl⟩, hne, hprefix, rfl⟩
    exact ⟨content, hne, hprefix, hstop content⟩
  · rintro ⟨content, hne, hprefix, rfl⟩
    exact ⟨_, ⟨content, rfl⟩, hne, hprefix, (hstop content).symm⟩

/-- A link at an index is a sound link phrase there. -/
theorem link_matchAt_eq_some_iff :
    link.matchAt index tokens = some found ↔
      ∃ label address, label ≠ [] ∧ address ≠ [] ∧
        (Phrase.link label address).tokens <+: tokens.drop index ∧
        found = .single (.link (Node.ofChars label) (Node.ofChars address))
          (index + label.length + address.length + 4) := by
  have hstop (label address : List Char) : ((Phrase.link label address).toMatch).shift index =
      .single (.link (Node.ofChars label) (Node.ofChars address))
        (index + label.length + address.length + 4) := by
    simp only [Phrase.toMatch, Phrase.node, Phrase.tokens, Match.single, Match.shift,
      List.length_cons, List.length_append, List.length_map, List.length_nil, Match.mk.injEq,
      true_and]
    omega
  rw [recognizes_link.matchAt_iff]
  constructor
  · rintro ⟨_, ⟨⟨label, address⟩, rfl⟩, ⟨hlabel, haddress⟩, hprefix, rfl⟩
    exact ⟨label, address, hlabel, haddress, hprefix, hstop label address⟩
  · rintro ⟨label, address, hlabel, haddress, hprefix, rfl⟩
    exact ⟨_, ⟨(label, address), rfl⟩, ⟨hlabel, haddress⟩, hprefix, (hstop label address).symm⟩

/-- A code span is accepted at an index exactly where a backtick stands, then a literal run that
is not empty, then a backtick. A link is accepted exactly where a literal run that is not empty
stands in brackets and, right behind them, another one in parentheses. Either way the node has
one text for each character of its runs and ends with the last delimiter. Blanks in a run make
no difference. -/
theorem enclosed_matchAt_eq_some_iff (index : Nat) (tokens : List Token) (found : Match) :
    (code.matchAt index tokens = some found ↔
      ∃ content, content ≠ [] ∧
        tokens[index]? = some .backtick ∧
        Token.IsLiteralRun tokens (index + 1) content ∧
        tokens[index + content.length + 1]? = some .backtick ∧
        found = .single (.span .code (Node.ofChars content)) (index + content.length + 2)) ∧
    (link.matchAt index tokens = some found ↔
      ∃ label address, label ≠ [] ∧ address ≠ [] ∧
        tokens[index]? = some .leftBracket ∧
        Token.IsLiteralRun tokens (index + 1) label ∧
        tokens[index + label.length + 1]? = some .rightBracket ∧
        tokens[index + label.length + 2]? = some .leftParen ∧
        Token.IsLiteralRun tokens (index + label.length + 3) address ∧
        tokens[index + label.length + address.length + 3]? = some .rightParen ∧
        found = .single (.link (Node.ofChars label) (Node.ofChars address))
          (index + label.length + address.length + 4)) := by
  constructor
  · simp only [code_matchAt_eq_some_iff, Phrase.code_prefix_drop_iff, and_assoc]
  · simp only [link_matchAt_eq_some_iff, Phrase.link_prefix_drop_iff, and_assoc]

example : link.matchAt 1 (tokenize "-[ a]( )") =
    some (.single (.link (Node.ofChars [' ', 'a']) (Node.ofChars [' '])) 8) := by
  cbv

end Matcher

end LineMarkup
