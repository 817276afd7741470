import LineMarkup.Proofs.Indexing
import LineMarkup.Proofs.StyleOrder

/-!
# The tokens that an acceptance depends on

What a matcher accepts is told by the tokens that it takes. A phrase ends with its closing
delimiter, and nothing is looked at behind that, so the acceptance stands whatever follows. A
segment is different: a single token is kept because no style accepts there, and a style may
accept if other tokens follow.
-/

namespace LineMarkup

namespace Matcher

/-- What the matcher accepts it accepts on account of the tokens that it takes: there are some,
none of them is an end mark, and what follows them does not matter. -/
def SeesOnlyTaken (matcher : Matcher) : Prop :=
  ∀ tokens found, matcher tokens = some found →
    ∃ taken, taken.length = found.stop ∧ taken ≠ [] ∧ .endMark ∉ taken ∧ taken <+: tokens ∧
      ∀ other, taken <+: other → matcher other = some found

theorem keep_seesOnlyTaken {kept? : Token → Option Char} (hend : kept? .endMark = none) :
    (keep kept?).SeesOnlyTaken := by
  intro tokens found h
  cases tokens with
  | nil => cases h
  | cons token rest =>
      have hne : token ≠ .endMark := by
        rintro rfl
        simp [keep, hend] at h
      obtain ⟨c, _, rfl⟩ := Option.map_eq_some_iff.mp h
      refine ⟨[token], rfl, List.cons_ne_nil _ _, by simpa using hne.symm, ?_, ?_⟩
      · exact List.prefix_append [token] rest
      · rintro _ ⟨other, rfl⟩
        exact h

/-- A phrase stands at the front whatever follows it. -/
theorem Recognizes.seesOnlyTaken {matcher : Matcher} {kind : Phrase → Prop}
    (h : matcher.Recognizes kind) : matcher.SeesOnlyTaken := by
  intro tokens found hfound
  obtain ⟨phrase, hkind, hsound, hprefix, rfl⟩ := (h tokens found).mp hfound
  refine ⟨phrase.tokens, rfl, phrase.tokens_ne_nil, phrase.endMark_notMem_tokens, hprefix, ?_⟩
  intro other hother
  exact (h _ _).mpr ⟨phrase, hkind, hsound, hother, rfl⟩

theorem recognizes_style : Recognizes style (fun _ => True) := by
  intro tokens found
  simp [style_eq_some_iff]

end Matcher

namespace Rule

theorem firstOf_seesOnlyTaken (order : List Rule) (h : ∀ rule ∈ order, rule ∈ phraseRules) :
    (Matcher.firstOf (order.map matcher)).SeesOnlyTaken :=
  (recognizes_firstOf_of_subset h).seesOnlyTaken

theorem matcher_seesOnlyTaken {rule : Rule} (hsegment : rule ≠ .segment)
    (hmarkdown : rule ≠ .markdown) : rule.matcher.SeesOnlyTaken := by
  cases rule with
  | char =>
      rw [matcher, Matcher.char_eq_keep]
      exact Matcher.keep_seesOnlyTaken rfl
  | boundaryChar =>
      rw [matcher, Matcher.boundaryChar_eq_keep]
      exact Matcher.keep_seesOnlyTaken rfl
  | anyToken =>
      rw [matcher, Matcher.anyToken_eq_keep]
      exact Matcher.keep_seesOnlyTaken rfl
  | bold => exact firstOf_seesOnlyTaken [.boldAsterisk, .boldUnderscore] (by decide)
  | italic => exact firstOf_seesOnlyTaken [.italicAsterisk, .italicUnderscore] (by decide)
  | style => exact Matcher.recognizes_style.seesOnlyTaken
  | segment => exact absurd rfl hsegment
  | markdown => exact absurd rfl hmarkdown
  | _ => exact (recognizes_of_mem_phraseRules (by decide)).seesOnlyTaken

/-- Rules other than those for segments and whole lists depend only on what they take: if one of
them accepts at an index, it takes tokens of the list in front of any end mark, and it accepts
with the same result at that index of any list that agrees on the tokens taken. -/
theorem matchAt_of_agree_on_taken {rule : Rule} (hsegment : rule ≠ .segment)
    (hmarkdown : rule ≠ .markdown) {index : Nat} {tokens : List Token} {found : Match}
    (h : rule.matchAt index tokens = some found) :
    index < found.stop ∧ found.stop ≤ tokens.length ∧
      (∀ k, index ≤ k → k < found.stop → tokens[k]? ≠ some .endMark) ∧
      ∀ other : List Token, (∀ k, index ≤ k → k < found.stop → other[k]? = tokens[k]?) →
        rule.matchAt index other = some found := by
  obtain ⟨front, hfront, rfl⟩ := Option.map_eq_some_iff.mp h
  obtain ⟨taken, hlength, hne, hend, hprefix, hother⟩ :=
    matcher_seesOnlyTaken hsegment hmarkdown _ _ hfront
  rw [Match.stop_shift, ← hlength]
  have htaken : ∀ k (hk : k < taken.length), tokens[index + k]? = some taken[k] := by
    intro k hk
    rw [← List.getElem?_drop]
    exact List.prefix_iff_getElem?.mp hprefix k hk
  refine ⟨?_, ?_, ?_, ?_⟩
  · have hpos := List.length_pos_iff.mpr hne
    omega
  · have hpos := List.length_pos_iff.mpr hne
    have hbound := hprefix.length_le
    rw [List.length_drop] at hbound
    omega
  · intro k hle hlt hmark
    obtain ⟨distance, rfl⟩ := Nat.exists_eq_add_of_le hle
    have hdistance : distance < taken.length := Nat.lt_of_add_lt_add_left hlt
    rw [htaken distance hdistance, Option.some.injEq] at hmark
    exact hend (hmark ▸ List.getElem_mem hdistance)
  · intro other hagree
    have hstands : taken <+: other.drop index := by
      rw [List.prefix_iff_getElem?]
      intro k hk
      rw [List.getElem?_drop, hagree _ (Nat.le_add_right _ _) (Nat.add_lt_add_left hk _),
        htaken k hk]
    rw [matchAt, Matcher.matchAt, hother _ hstands]
    rfl

/-- A bold span is accepted alike where other tokens stand in front of it and a surplus asterisk
follows it. -/
theorem matchAt_of_agree_on_taken_bold :
    Rule.bold ≠ .segment ∧ Rule.bold ≠ .markdown ∧
      Rule.bold.matchAt 1 (tokenize "-**a**") = some ⟨[.span .bold [.ofChar 'a']], 6⟩ ∧
      Rule.bold.matchAt 1 (tokenize "***a***b") = some ⟨[.span .bold [.ofChar 'a']], 6⟩ := by
  have hsegment : Rule.bold ≠ .segment := by decide
  have hmarkdown : Rule.bold ≠ .markdown := by decide
  have hfound : Rule.bold.matchAt 1 (tokenize "-**a**") =
      some ⟨[.span .bold [.ofChar 'a']], 6⟩ := by decide
  have hagree : ∀ k < 6, 1 ≤ k → (tokenize "***a***b")[k]? = (tokenize "-**a**")[k]? := by decide
  obtain ⟨_, _, _, hother⟩ := matchAt_of_agree_on_taken hsegment hmarkdown hfound
  refine ⟨hsegment, hmarkdown, hfound, hother _ ?_⟩
  intro k hle hlt
  exact hagree k hlt hle

example : Rule.segment.matchAt 0 (tokenize "*a") = some ⟨[.ofChar '*'], 1⟩ ∧
    Rule.segment.matchAt 0 (tokenize "*a*") = some ⟨[.span .italic [.ofChar 'a']], 3⟩ := by
  decide

end Rule

end LineMarkup
