import LineMarkup.Proofs.Phrase

/-!
# What the styles accept

Every matcher of a style accepts exactly the sound phrases of its kind: an acceptance is
a sound phrase at the front of the tokens, and a sound phrase is accepted whatever
follows it. Since at most one sound phrase stands at the front, the order in which the
styles are tried does not matter.
-/

namespace LineMarkup

/-! ## Styled spans -/

namespace StyledSpan

variable (span : StyledSpan)

theorem not_fence_isPrefixOf_char (c : Char) (rest : List Token) :
    span.fence.isPrefixOf (.char c :: rest) = false := by
  cases span <;> rfl

theorem fence_isPrefixOf_append (rest : List Token) :
    span.fence.isPrefixOf (span.fence ++ rest) = true := by
  rw [List.isPrefixOf_iff_prefix]
  exact List.prefix_append _ _

/-- The inside of a span that closes: its last character is no blank, and a fence
follows it. -/
theorem inside?_append {content : List Char} (hne : content ≠ [])
    (hlast : ∀ c ∈ content.getLast?, Text.isBoundaryBlank c = false) (rest : List Token) :
    span.inside? (content.map .char ++ (span.fence ++ rest)) = some content := by
  induction content with
  | nil => exact absurd rfl hne
  | cons c content ih =>
      cases content with
      | nil =>
          have hc : Text.isBoundaryBlank c = false := hlast c rfl
          simp [inside?, hc, span.fence_isPrefixOf_append rest]
      | cons d content =>
          -- A literal character is no fence, so the first one cannot be the last.
          have hinner := ih (List.cons_ne_nil _ _) hlast
          rw [List.map_cons, List.cons_append] at hinner
          rw [List.map_cons, List.map_cons, List.cons_append, List.cons_append, inside?,
            not_fence_isPrefixOf_char, Bool.and_false, if_neg Bool.false_ne_true, hinner,
            Option.map_some]

/-- Only the inside of a span that closes is found. -/
theorem of_inside?_eq_some {tokens : List Token} {content : List Char}
    (h : span.inside? tokens = some content) :
    content ≠ [] ∧ (∀ c ∈ content.getLast?, Text.isBoundaryBlank c = false) ∧
      ∃ rest, tokens = content.map .char ++ (span.fence ++ rest) := by
  induction tokens generalizing content with
  | nil => simp [inside?] at h
  | cons token tokens ih =>
      cases token with
      | char c =>
          rw [inside?] at h
          split at h
          next hclose =>
            simp only [Bool.and_eq_true, Bool.not_eq_true', List.isPrefixOf_iff_prefix] at hclose
            obtain ⟨hc, rest, rfl⟩ := hclose
            cases h
            refine ⟨List.cons_ne_nil _ _, ?_, rest, rfl⟩
            intro d hd
            cases hd
            exact hc
          next =>
            obtain ⟨inner, hinner, rfl⟩ := Option.map_eq_some_iff.mp h
            obtain ⟨hne, hlast, rest, rfl⟩ := ih hinner
            refine ⟨List.cons_ne_nil _ _, ?_, rest, rfl⟩
            rwa [List.getLast?_cons_of_ne_nil hne]
      | _ => simp [inside?] at h

/-- Behind the opening fence stands a span exactly where firm content is closed by
another fence. -/
theorem content?_eq_some_iff {tokens : List Token} {content : List Char} :
    span.content? tokens = some content ↔
      content ≠ [] ∧ Text.FirmEdges content ∧ content.map .char ++ span.fence <+: tokens := by
  constructor
  · intro h
    unfold content? at h
    split at h
    next hfirst =>
      obtain ⟨hne, hlast, rest, rfl⟩ := span.of_inside?_eq_some h
      refine ⟨hne, ⟨?_, hlast⟩, rest, List.append_assoc _ _ _⟩
      intro c hc
      obtain ⟨cs, rfl⟩ := List.head?_eq_some_iff.mp hc
      simpa [Matcher.boundaryChar] using hfirst
    next => cases h
  · intro h
    obtain ⟨hne, hedges, rest, rfl⟩ := h
    obtain ⟨c, cs, rfl⟩ := List.exists_cons_of_ne_nil hne
    have hc : Text.isBoundaryBlank c = false := hedges.head c rfl
    rw [List.append_assoc, content?, if_pos]
    · exact span.inside?_append hne hedges.last rest
    · simp [Matcher.boundaryChar, hc]

/-- A styled matcher accepts exactly the sound phrases of its span. -/
theorem matcher_eq_some_iff {tokens : List Token} {found : Match} :
    span.matcher tokens = some found ↔
      ∃ content, (Phrase.styled span content).Sound ∧
        (Phrase.styled span content).tokens <+: tokens ∧
        found = (Phrase.styled span content).toMatch := by
  have hmatch (content : List Char) : (Phrase.styled span content).toMatch =
      .single (.span span.kind (Node.ofChars content)) (content.length + 2 * span.arity) := by
    simp only [Phrase.toMatch, Phrase.node, Phrase.tokens, List.length_append, List.length_map,
      length_fence]
    congr 1
    omega
  constructor
  · intro h
    unfold matcher at h
    split at h
    next hopen =>
      obtain ⟨content, hcontent, rfl⟩ := Option.map_eq_some_iff.mp h
      obtain ⟨tail, rfl⟩ := List.isPrefixOf_iff_prefix.mp hopen
      rw [← length_fence, List.drop_left] at hcontent
      obtain ⟨hne, hedges, hprefix⟩ := span.content?_eq_some_iff.mp hcontent
      refine ⟨content, ⟨hne, hedges⟩, ?_, (hmatch content).symm⟩
      exact List.prefix_append_right_inj _ |>.mpr hprefix
    next => cases h
  · intro h
    obtain ⟨content, ⟨hne, hedges⟩, ⟨rest, rfl⟩, rfl⟩ := h
    have hcontent : span.content? (content.map .char ++ span.fence ++ rest) = some content :=
      span.content?_eq_some_iff.mpr ⟨hne, hedges, List.prefix_append _ _⟩
    rw [hmatch, Phrase.tokens, List.append_assoc, matcher, fence_isPrefixOf_append, if_pos rfl,
      ← length_fence, List.drop_left, hcontent]
    rfl

end StyledSpan

/-! ## Enclosed content -/

/-- What is enclosed is the non-empty literal run between the two delimiters. -/
theorem enclosed?_eq_some_iff {opening closing : Token} (hclosing : closing.isChar = false)
    {tokens : List Token} {content : List Char} :
    enclosed? opening closing tokens = some content ↔
      content ≠ [] ∧ opening :: (content.map .char ++ [closing]) <+: tokens := by
  constructor
  · intro h
    cases tokens with
    | nil => simp [enclosed?] at h
    | cons token rest =>
        rw [enclosed?] at h
        split at h
        next hall =>
          obtain ⟨rfl, hne, hhead⟩ := hall
          cases h
          refine ⟨hne, ?_⟩
          obtain ⟨tail, htail⟩ := List.head?_eq_some_iff.mp hhead
          have hrest := map_char_literalRun_append_drop rest
          rw [htail] at hrest
          refine ⟨tail, ?_⟩
          rw [List.cons_append, List.append_assoc]
          exact congrArg (token :: ·) hrest
        next => simp at h
  · intro h
    obtain ⟨hne, tail, rfl⟩ := h
    have hrun : literalRun (content.map .char ++ ([closing] ++ tail)) = content := by
      rw [literalRun_map_char_append, List.singleton_append,
        literalRun_cons_of_not_isChar hclosing, List.append_nil]
    have hdrop : (content.map Token.char ++ ([closing] ++ tail)).drop content.length =
        [closing] ++ tail := List.drop_left' (List.length_map _)
    rw [List.cons_append, List.append_assoc, enclosed?, hrun, hdrop]
    exact if_pos ⟨rfl, hne, rfl⟩

namespace Matcher

/-- The code matcher accepts exactly the sound code phrases. -/
theorem code_eq_some_iff {tokens : List Token} {found : Match} :
    code tokens = some found ↔
      ∃ content, (Phrase.code content).Sound ∧ (Phrase.code content).tokens <+: tokens ∧
        found = (Phrase.code content).toMatch := by
  have hclosing : Token.backtick.isChar = false := rfl
  have hmatch (content : List Char) : (Phrase.code content).toMatch =
      .single (.span .code (Node.ofChars content)) (content.length + 2) := by
    simp [Phrase.toMatch, Phrase.node, Phrase.tokens]
  simp only [code, Option.map_eq_some_iff, enclosed?_eq_some_iff hclosing, hmatch]
  constructor
  · intro h
    obtain ⟨content, ⟨hne, hprefix⟩, rfl⟩ := h
    exact ⟨content, hne, hprefix, rfl⟩
  · intro h
    obtain ⟨content, hne, hprefix, rfl⟩ := h
    exact ⟨content, ⟨hne, hprefix⟩, rfl⟩

/-- The link matcher accepts exactly the sound link phrases. -/
theorem link_eq_some_iff {tokens : List Token} {found : Match} :
    link tokens = some found ↔
      ∃ label address, (Phrase.link label address).Sound ∧
        (Phrase.link label address).tokens <+: tokens ∧
        found = (Phrase.link label address).toMatch := by
  have hlabel : Token.rightBracket.isChar = false := rfl
  have haddress : Token.rightParen.isChar = false := rfl
  have hmatch (label address : List Char) : (Phrase.link label address).toMatch =
      .single (.link (Node.ofChars label) (Node.ofChars address))
        (label.length + address.length + 4) := by
    simp only [Phrase.toMatch, Phrase.node, Phrase.tokens, List.length_cons, List.length_append,
      List.length_map, List.length_nil]
    rfl
  have htokens (label address : List Char) (rest : List Token) :
      (Phrase.link label address).tokens ++ rest =
        .leftBracket :: (label.map .char ++ [.rightBracket]) ++
          (.leftParen :: (address.map .char ++ [.rightParen]) ++ rest) := by
    simp [Phrase.tokens]
  have hdrop (label : List Char) (rest : List Token) :
      (Token.leftBracket :: (label.map .char ++ [.rightBracket]) ++ rest).drop
        (label.length + 2) = rest := List.drop_left' (by simp)
  simp only [link, Option.bind_eq_some_iff, Option.map_eq_some_iff,
    enclosed?_eq_some_iff hlabel, enclosed?_eq_some_iff haddress, hmatch]
  constructor
  · intro h
    obtain ⟨label, ⟨hne, rest, rfl⟩, address, ⟨hne', hprefix⟩, rfl⟩ := h
    rw [hdrop] at hprefix
    obtain ⟨tail, rfl⟩ := hprefix
    exact ⟨label, address, ⟨hne, hne'⟩, ⟨tail, htokens label address tail⟩, rfl⟩
  · intro h
    obtain ⟨label, address, ⟨hne, hne'⟩, ⟨tail, rfl⟩, rfl⟩ := h
    rw [htokens]
    refine ⟨label, ⟨hne, List.prefix_append _ _⟩, address, ⟨hne', ?_⟩, rfl⟩
    rw [hdrop]
    exact List.prefix_append _ _

/-! ## The order of the styles -/

/-- The matcher accepts exactly the sound phrases of a class. -/
def Recognizes (matcher : Matcher) (kind : Phrase → Prop) : Prop :=
  ∀ tokens found, matcher tokens = some found ↔
    ∃ phrase, kind phrase ∧ phrase.Sound ∧ phrase.tokens <+: tokens ∧ found = phrase.toMatch

theorem recognizes_family {α : Type} {matcher : Matcher} {make : α → Phrase}
    (haccepts : ∀ tokens found, matcher tokens = some found ↔
      ∃ a, (make a).Sound ∧ (make a).tokens <+: tokens ∧ found = (make a).toMatch) :
    Recognizes matcher (fun phrase => ∃ a, phrase = make a) := by
  intro tokens found
  rw [haccepts]
  constructor
  · intro h
    obtain ⟨a, haccept⟩ := h
    exact ⟨make a, ⟨a, rfl⟩, haccept⟩
  · intro h
    obtain ⟨_, ⟨a, rfl⟩, haccept⟩ := h
    exact ⟨a, haccept⟩

theorem recognizes_styled (span : StyledSpan) :
    Recognizes span.matcher (fun phrase => ∃ content, phrase = .styled span content) := by
  apply recognizes_family
  intro tokens found
  exact span.matcher_eq_some_iff

theorem recognizes_code : Recognizes code (fun phrase => ∃ content, phrase = .code content) := by
  apply recognizes_family
  intro tokens found
  exact code_eq_some_iff

theorem recognizes_link : Recognizes link
    (fun phrase => ∃ ends : List Char × List Char, phrase = .link ends.1 ends.2) := by
  apply recognizes_family
  intro tokens found
  rw [link_eq_some_iff, Prod.exists]

theorem recognizes_firstOf_nil : Recognizes (firstOf []) (fun _ => False) := by
  intro tokens found
  simp [firstOf]

/-- Trying one matcher before others adds the phrases of its class. An earlier
acceptance hides no later one, because both take the same phrase. -/
theorem recognizes_firstOf_cons {matcher : Matcher} {matchers : List Matcher}
    {kind kinds : Phrase → Prop} (hfirst : Recognizes matcher kind)
    (hrest : Recognizes (firstOf matchers) kinds) :
    Recognizes (firstOf (matcher :: matchers)) (fun phrase => kind phrase ∨ kinds phrase) := by
  intro tokens found
  rw [firstOf, List.findSome?_cons]
  cases hmatch : matcher tokens with
  | some first =>
      -- A later matcher could only have taken the phrase that is taken here.
      obtain ⟨phrase, hkind, hsound, hprefix, rfl⟩ := (hfirst tokens first).mp hmatch
      constructor
      · intro h
        cases h
        exact ⟨phrase, .inl hkind, hsound, hprefix, rfl⟩
      · intro h
        obtain ⟨other, _, hother, hprefix', rfl⟩ := h
        rw [hsound.eq_of_prefix hother hprefix hprefix']
  | none =>
      have hfound := hrest tokens found
      rw [firstOf] at hfound
      refine hfound.trans ?_
      constructor
      · intro h
        obtain ⟨phrase, hkinds, haccept⟩ := h
        exact ⟨phrase, .inr hkinds, haccept⟩
      · intro h
        obtain ⟨phrase, hkind | hkinds, haccept⟩ := h
        · have hsome := (hfirst tokens found).mpr ⟨phrase, hkind, haccept⟩
          rw [hmatch] at hsome
          cases hsome
        · exact ⟨phrase, hkinds, haccept⟩

/-- Some style accepts exactly where a sound phrase stands at the front. -/
theorem style_eq_some_iff {tokens : List Token} {found : Match} :
    style tokens = some found ↔
      ∃ phrase : Phrase, phrase.Sound ∧ phrase.tokens <+: tokens ∧ found = phrase.toMatch := by
  have hbold := recognizes_firstOf_cons (recognizes_styled .boldAsterisk)
    (recognizes_firstOf_cons (recognizes_styled .boldUnderscore) recognizes_firstOf_nil)
  have hitalic := recognizes_firstOf_cons (recognizes_styled .italicAsterisk)
    (recognizes_firstOf_cons (recognizes_styled .italicUnderscore) recognizes_firstOf_nil)
  have hstyle := recognizes_firstOf_cons hbold (recognizes_firstOf_cons hitalic
    (recognizes_firstOf_cons (recognizes_styled .strikethrough)
      (recognizes_firstOf_cons recognizes_code
        (recognizes_firstOf_cons recognizes_link recognizes_firstOf_nil))))
  rw [style, styles, bold, italic, strikethrough, hstyle tokens found]
  constructor
  · intro h
    obtain ⟨phrase, _, haccept⟩ := h
    exact ⟨phrase, haccept⟩
  · intro h
    obtain ⟨phrase, haccept⟩ := h
    refine ⟨phrase, ?_, haccept⟩
    cases phrase with
    | styled span content => cases span <;> simp
    | code content => simp
    | link label address => simp

/-- A sound phrase is accepted whatever follows it. -/
theorem style_phrase_append {phrase : Phrase} (h : phrase.Sound) (rest : List Token) :
    style (phrase.tokens ++ rest) = some phrase.toMatch :=
  style_eq_some_iff.mpr ⟨phrase, h, List.prefix_append _ _, rfl⟩

/-- No style begins with a literal character. -/
theorem style_char_cons (c : Char) (rest : List Token) : style (.char c :: rest) = none := by
  rw [Option.eq_none_iff_forall_ne_some]
  intro found h
  obtain ⟨phrase, _, ⟨tail, htail⟩, _⟩ := style_eq_some_iff.mp h
  obtain ⟨marker, _, htokens, hmarker⟩ := phrase.tokens_eq_cons
  rw [htokens, List.cons_append] at htail
  cases htail
  cases hmarker

/-- No style begins at an end mark. -/
theorem style_endMark_cons (rest : List Token) : style (.endMark :: rest) = none := by
  rw [Option.eq_none_iff_forall_ne_some]
  intro found h
  obtain ⟨phrase, _, ⟨tail, htail⟩, _⟩ := style_eq_some_iff.mp h
  obtain ⟨marker, inner, htokens, _⟩ := phrase.tokens_eq_cons
  have hend := phrase.endMark_notMem_tokens
  rw [htokens, List.cons_append] at htail
  cases htail
  exact hend (htokens ▸ List.mem_cons_self)

end Matcher

end LineMarkup
