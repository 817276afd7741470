import LineMarkup.Proofs.Acceptance
import LineMarkup.Rule

/-!
# The order of the styles

Seven rules accept phrases, each of them those that are written in its own way. Since at
most one sound phrase stands at a place, at most one of the seven accepts there. So it
does not matter in which order they are tried, or how often, and the order of precedence
gives the same answer as any other: a doubled marker begins no italic span, because its
second half is no literal character.
-/

namespace LineMarkup

/-- The rule of one way to write a styled span. -/
def StyledSpan.rule : StyledSpan → Rule
  | .boldAsterisk => .boldAsterisk
  | .boldUnderscore => .boldUnderscore
  | .italicAsterisk => .italicAsterisk
  | .italicUnderscore => .italicUnderscore
  | .strikethrough => .strikethrough

/-- The rule for the way in which a phrase is written. -/
def Phrase.rule : Phrase → Rule
  | .styled span _ => span.rule
  | .code _ => .code
  | .link _ _ => .link

namespace StyledSpan

theorem matcher_rule (span : StyledSpan) : span.rule.matcher = span.matcher := by
  cases span <;> rfl

theorem rule_injective : Function.Injective rule := by
  intro span span' h
  cases span <;> cases span' <;> first | rfl | cases h

theorem rule_ne_code (span : StyledSpan) : span.rule ≠ .code := by
  cases span <;> decide

theorem rule_ne_link (span : StyledSpan) : span.rule ≠ .link := by
  cases span <;> decide

end StyledSpan

namespace Rule

/-- The rules that accept phrases, one for each way to write one. -/
def phraseRules : List Rule :=
  [.boldAsterisk, .boldUnderscore, .italicAsterisk, .italicUnderscore, .strikethrough, .code,
    .link]

theorem rule_mem_phraseRules (phrase : Phrase) : phrase.rule ∈ phraseRules := by
  cases phrase with
  | styled span content => cases span <;> simp [Phrase.rule, StyledSpan.rule, phraseRules]
  | code content => simp [Phrase.rule, phraseRules]
  | link label address => simp [Phrase.rule, phraseRules]

theorem mem_phraseRules_iff {rule : Rule} :
    rule ∈ phraseRules ↔ (∃ span : StyledSpan, rule = span.rule) ∨ rule = .code ∨ rule = .link := by
  constructor
  · intro h
    simp only [phraseRules, List.mem_cons, List.not_mem_nil, or_false] at h
    rcases h with rfl | rfl | rfl | rfl | rfl | rfl | rfl
    · exact .inl ⟨.boldAsterisk, rfl⟩
    · exact .inl ⟨.boldUnderscore, rfl⟩
    · exact .inl ⟨.italicAsterisk, rfl⟩
    · exact .inl ⟨.italicUnderscore, rfl⟩
    · exact .inl ⟨.strikethrough, rfl⟩
    · exact .inr (.inl rfl)
    · exact .inr (.inr rfl)
  · rintro (⟨span, rfl⟩ | rfl | rfl)
    · exact rule_mem_phraseRules (.styled span [])
    · exact rule_mem_phraseRules (.code [])
    · exact rule_mem_phraseRules (.link [] [])

end Rule

/-! ## The class of each rule -/

theorem Phrase.rule_eq_spanRule_iff (phrase : Phrase) (span : StyledSpan) :
    phrase.rule = span.rule ↔ ∃ content, phrase = .styled span content := by
  constructor
  · intro hrule
    cases phrase with
    | styled span' content => exact ⟨content, by rw [StyledSpan.rule_injective hrule]⟩
    | code content => exact absurd hrule.symm span.rule_ne_code
    | link label address => exact absurd hrule.symm span.rule_ne_link
  · rintro ⟨content, rfl⟩
    rfl

theorem Phrase.rule_eq_code_iff (phrase : Phrase) :
    phrase.rule = .code ↔ ∃ content, phrase = .code content := by
  constructor
  · intro hrule
    cases phrase with
    | styled span content => exact absurd hrule span.rule_ne_code
    | code content => exact ⟨content, rfl⟩
    | link label address => cases hrule
  · rintro ⟨content, rfl⟩
    rfl

theorem Phrase.rule_eq_link_iff (phrase : Phrase) :
    phrase.rule = .link ↔ ∃ ends : List Char × List Char, phrase = .link ends.1 ends.2 := by
  constructor
  · intro hrule
    cases phrase with
    | styled span content => exact absurd hrule span.rule_ne_link
    | code content => cases hrule
    | link label address => exact ⟨(label, address), rfl⟩
  · rintro ⟨ends, rfl⟩
    rfl

namespace Rule

/-- Each of these rules accepts exactly the sound phrases that are written in its way. -/
theorem recognizes_of_mem_phraseRules {rule : Rule} (h : rule ∈ phraseRules) :
    rule.matcher.Recognizes (fun phrase => phrase.rule = rule) := by
  rcases mem_phraseRules_iff.mp h with ⟨span, rfl⟩ | rfl | rfl
  · simp only [Phrase.rule_eq_spanRule_iff, StyledSpan.matcher_rule]
    exact Matcher.recognizes_styled span
  · simp only [Phrase.rule_eq_code_iff]
    exact Matcher.recognizes_code
  · simp only [Phrase.rule_eq_link_iff]
    exact Matcher.recognizes_link

/-- Two rules that accept the same tokens take the same phrase, so they are one rule. -/
theorem eq_of_matcher_eq_some {first second : Rule} (hfirst : first ∈ phraseRules)
    (hsecond : second ∈ phraseRules) {tokens : List Token} {found found' : Match}
    (h : first.matcher tokens = some found) (h' : second.matcher tokens = some found') :
    first = second := by
  obtain ⟨phrase, hrule, hsound, hprefix, _⟩ :=
    (recognizes_of_mem_phraseRules hfirst tokens found).mp h
  obtain ⟨phrase', hrule', hsound', hprefix', _⟩ :=
    (recognizes_of_mem_phraseRules hsecond tokens found').mp h'
  rw [← hrule, ← hrule', hsound.eq_of_prefix hsound' hprefix hprefix']

/-! ## Any order -/

/-- Trying several of these rules one after another accepts the phrases of all of them. -/
theorem recognizes_firstOf_of_subset {order : List Rule} (h : ∀ rule ∈ order, rule ∈ phraseRules) :
    (Matcher.firstOf (order.map matcher)).Recognizes (fun phrase => phrase.rule ∈ order) := by
  induction order with
  | nil => simpa using Matcher.recognizes_firstOf_nil
  | cons rule rest ih =>
      have hrule := recognizes_of_mem_phraseRules (h rule List.mem_cons_self)
      have hrest := ih fun other hother => h other (List.mem_cons_of_mem _ hother)
      simpa only [List.map_cons, List.mem_cons] using Matcher.recognizes_firstOf_cons hrule hrest

/-- Trying all of these rules accepts what the styles accept. -/
theorem firstOf_eq_style {order : List Rule} (h : ∀ rule, rule ∈ order ↔ rule ∈ phraseRules)
    (tokens : List Token) :
    Matcher.firstOf (order.map matcher) tokens = Matcher.style tokens := by
  have hrecognizes := recognizes_firstOf_of_subset fun rule hrule => (h rule).mp hrule
  apply Option.ext
  intro found
  rw [hrecognizes tokens found, Matcher.style_eq_some_iff]
  constructor
  · intro haccepted
    obtain ⟨phrase, _, haccept⟩ := haccepted
    exact ⟨phrase, haccept⟩
  · intro haccepted
    obtain ⟨phrase, haccept⟩ := haccepted
    exact ⟨phrase, (h _).mpr (rule_mem_phraseRules phrase), haccept⟩

/-- At most one of the rules for phrases accepts at an index. So trying them there in any
order, each at least once, gives what the styles give in their order of precedence. -/
theorem firstMatchAt_of_any_order (tokens : List Token) (index : Nat) :
    (∀ first ∈ phraseRules, ∀ second ∈ phraseRules,
      (first.matchAt index tokens).isSome → (second.matchAt index tokens).isSome →
      first = second) ∧
    ∀ order : List Rule, (∀ rule, rule ∈ order ↔ rule ∈ phraseRules) →
      firstMatchAt order index tokens = Rule.style.matchAt index tokens := by
  constructor
  · intro first hfirst second hsecond h h'
    rw [matchAt, Matcher.matchAt, Option.isSome_map] at h h'
    obtain ⟨found, hfound⟩ := Option.isSome_iff_exists.mp h
    obtain ⟨found', hfound'⟩ := Option.isSome_iff_exists.mp h'
    exact eq_of_matcher_eq_some hfirst hsecond hfound hfound'
  · intro order horder
    rw [firstMatchAt, Matcher.matchAt, firstOf_eq_style horder]
    rfl

/-- Behind a surplus asterisk bold is accepted, so italic is not, and bold is found although
it is tried last of all and then once more. -/
theorem firstMatchAt_of_bold_last :
    (Rule.boldAsterisk.matchAt 1 (tokenize "***a***")).isSome ∧
      ¬ (Rule.italicAsterisk.matchAt 1 (tokenize "***a***")).isSome ∧
      firstMatchAt (phraseRules.reverse ++ phraseRules) 1 (tokenize "***a***") =
        Rule.style.matchAt 1 (tokenize "***a***") := by
  have hmatch : (Rule.boldAsterisk.matchAt 1 (tokenize "***a***")).isSome := by decide
  have horder (rule : Rule) : rule ∈ phraseRules.reverse ++ phraseRules ↔ rule ∈ phraseRules := by
    simp
  obtain ⟨hunique, hany⟩ := firstMatchAt_of_any_order (tokenize "***a***") 1
  refine ⟨hmatch, ?_, hany _ horder⟩
  intro hitalic
  cases hunique .boldAsterisk (by decide) .italicAsterisk (by decide) hmatch hitalic

end Rule

end LineMarkup
