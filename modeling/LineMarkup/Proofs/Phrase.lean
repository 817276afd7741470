import LineMarkup.Style

/-!
# Phrases

A phrase is a styled piece of a line, known by its kind and its literal content. Its
tokens are the content between the delimiters of its kind. At the front of a token list
stands at most one sound phrase, since the delimiters and the literal runs can be told
apart token by token.
-/

namespace LineMarkup

/-- No boundary blank stands at either edge of a text. -/
structure Text.FirmEdges (cs : List Char) : Prop where
  head : ∀ c ∈ cs.head?, Text.isBoundaryBlank c = false
  last : ∀ c ∈ cs.getLast?, Text.isBoundaryBlank c = false

theorem Text.firmEdges_iff (cs : List Char) :
    Text.FirmEdges cs ↔
      (cs.head?.all (!Text.isBoundaryBlank ·) && cs.getLast?.all (!Text.isBoundaryBlank ·)) =
        true := by
  simp only [Bool.and_eq_true, Option.all_eq_true, Bool.not_eq_true']
  exact ⟨fun h => ⟨h.head, h.last⟩, fun h => ⟨h.1, h.2⟩⟩

instance Text.decidableFirmEdges (cs : List Char) : Decidable (Text.FirmEdges cs) :=
  decidable_of_iff _ (Text.firmEdges_iff cs).symm

/-! ## Literal runs -/

theorem literalRun_map_char_append (cs : List Char) (rest : List Token) :
    literalRun (cs.map .char ++ rest) = cs ++ literalRun rest := by
  induction cs with
  | nil => rfl
  | cons c cs ih => simp only [List.map_cons, List.cons_append, literalRun, ih]

theorem literalRun_cons_of_not_isChar {token : Token} (htoken : token.isChar = false)
    (rest : List Token) : literalRun (token :: rest) = [] := by
  cases token <;> first | rfl | simp [Token.isChar] at htoken

/-- A token list begins with its literal run. -/
theorem map_char_literalRun_append_drop (tokens : List Token) :
    (literalRun tokens).map .char ++ tokens.drop (literalRun tokens).length = tokens := by
  induction tokens using literalRun.induct with
  | case1 c rest ih => simp only [literalRun, List.map_cons, List.length_cons, List.drop_succ_cons,
      List.cons_append, ih]
  | case2 tokens hnot =>
      rw [literalRun.eq_2 tokens hnot]
      rfl

/-! ## Fences -/

namespace StyledSpan

variable (span : StyledSpan)

@[simp] theorem length_fence : span.fence.length = span.arity := List.length_replicate

theorem fence_eq_cons : ∃ rest, span.fence = span.marker :: rest := by
  cases span <;> exact ⟨_, rfl⟩

theorem isChar_marker : span.marker.isChar = false := by
  cases span <;> rfl

theorem fence_injective : Function.Injective fence := by
  intro span span' h
  cases span <;> cases span' <;> first | rfl | cases h

theorem fence_ne_backtick (span : StyledSpan) : span.fence ≠ [.backtick] := by
  cases span <;> decide

theorem fence_ne_leftBracket (span : StyledSpan) : span.fence ≠ [.leftBracket] := by
  cases span <;> decide

end StyledSpan

/-! ## Phrases and their sound forms -/

/-- A styled piece of a line, by its kind and its literal content. -/
inductive Phrase where
  | styled (span : StyledSpan) (content : List Char)
  | code (content : List Char)
  | link (label address : List Char)
  deriving DecidableEq, Repr

namespace Phrase

/-- The tokens of a phrase: its delimiters around its literal content. -/
def tokens : Phrase → List Token
  | .styled span content => span.fence ++ (content.map .char ++ span.fence)
  | .code content => .backtick :: (content.map .char ++ [.backtick])
  | .link label address =>
      .leftBracket :: (label.map .char ++
        .rightBracket :: .leftParen :: (address.map .char ++ [.rightParen]))

/-- The node of a phrase, with one text for each character of its content. -/
def node : Phrase → Node
  | .styled span content => .span span.kind (Node.ofChars content)
  | .code content => .span .code (Node.ofChars content)
  | .link label address => .link (Node.ofChars label) (Node.ofChars address)

theorem isText_node (phrase : Phrase) : phrase.node.isText = false := by
  cases phrase <;> simp [node, Node.isText]

/-- A sound phrase has content wherever it may have some, and between fences the
content has no boundary blank at either edge. -/
def Sound : Phrase → Prop
  | .styled _ content => content ≠ [] ∧ Text.FirmEdges content
  | .code content => content ≠ []
  | .link label address => label ≠ [] ∧ address ≠ []

/-- The acceptance that takes exactly a phrase. -/
def toMatch (phrase : Phrase) : Match := .single phrase.node phrase.tokens.length

/-- The delimiter that a phrase begins with. -/
def opening : Phrase → List Token
  | .styled span _ => span.fence
  | .code _ => [.backtick]
  | .link _ _ => [.leftBracket]

/-- The literal content right behind the opening delimiter. -/
def content : Phrase → List Char
  | .styled _ content => content
  | .code content => content
  | .link label _ => label

/-- Everything behind that content. -/
def closing : Phrase → List Token
  | .styled span _ => span.fence
  | .code _ => [.backtick]
  | .link _ address => .rightBracket :: .leftParen :: (address.map .char ++ [.rightParen])

theorem tokens_eq (phrase : Phrase) :
    phrase.tokens = phrase.opening ++ (phrase.content.map .char ++ phrase.closing) := by
  cases phrase <;> rfl

theorem Sound.content_ne_nil {phrase : Phrase} (h : phrase.Sound) : phrase.content ≠ [] := by
  cases phrase with
  | styled span content => exact h.1
  | code content => exact h
  | link label address => exact h.1

theorem isChar_of_mem_opening {phrase : Phrase} {token : Token} (h : token ∈ phrase.opening) :
    token.isChar = false := by
  cases phrase with
  | styled span content =>
      rw [List.eq_of_mem_replicate h]
      exact span.isChar_marker
  | code content =>
      rw [List.mem_singleton.mp h]
      rfl
  | link label address =>
      rw [List.mem_singleton.mp h]
      rfl

theorem closing_eq_cons (phrase : Phrase) :
    ∃ token rest, phrase.closing = token :: rest ∧ token.isChar = false := by
  cases phrase with
  | styled span content =>
      obtain ⟨rest, hrest⟩ := span.fence_eq_cons
      exact ⟨span.marker, rest, hrest, span.isChar_marker⟩
  | code content => exact ⟨_, _, rfl, rfl⟩
  | link label address => exact ⟨_, _, rfl, rfl⟩

theorem endMark_notMem_tokens (phrase : Phrase) : .endMark ∉ phrase.tokens := by
  cases phrase with
  | styled span content => cases span <;>
      simp [tokens, StyledSpan.fence, StyledSpan.arity, StyledSpan.marker]
  | code content => simp [tokens]
  | link label address => simp [tokens]

/-- A phrase begins with a marker. -/
theorem tokens_eq_cons (phrase : Phrase) :
    ∃ marker rest, phrase.tokens = marker :: rest ∧ marker.isChar = false := by
  cases phrase with
  | styled span content =>
      obtain ⟨rest, hrest⟩ := span.fence_eq_cons
      refine ⟨span.marker, rest ++ (content.map .char ++ span.fence), ?_, span.isChar_marker⟩
      rw [tokens, hrest, List.cons_append]
  | code content => exact ⟨_, _, rfl, rfl⟩
  | link label address => exact ⟨_, _, rfl, rfl⟩

theorem tokens_ne_nil (phrase : Phrase) : phrase.tokens ≠ [] := by
  obtain ⟨marker, rest, htokens, _⟩ := phrase.tokens_eq_cons
  rw [htokens]
  exact List.cons_ne_nil _ _

/-- The opening delimiter ends where the content begins. -/
theorem Sound.takeWhile_tokens_append {phrase : Phrase} (h : phrase.Sound) (rest : List Token) :
    (phrase.tokens ++ rest).takeWhile (fun token => !token.isChar) = phrase.opening := by
  obtain ⟨c, cs, hcontent⟩ := List.exists_cons_of_ne_nil h.content_ne_nil
  have hopening : ∀ token ∈ phrase.opening, (!token.isChar) = true := by
    intro token htoken
    rw [isChar_of_mem_opening htoken]
    rfl
  rw [tokens_eq, hcontent, List.append_assoc, List.takeWhile_append_of_pos hopening]
  exact List.append_nil _

/-- The content ends where the closing delimiter begins. -/
theorem literalRun_drop_opening (phrase : Phrase) (rest : List Token) :
    literalRun ((phrase.tokens ++ rest).drop phrase.opening.length) = phrase.content := by
  obtain ⟨token, tail, hclosing, htoken⟩ := phrase.closing_eq_cons
  rw [tokens_eq, hclosing, List.append_assoc, List.drop_left, List.append_assoc,
    literalRun_map_char_append, List.cons_append, literalRun_cons_of_not_isChar htoken,
    List.append_nil]

/-- At most one sound phrase stands at the front of a token list. -/
theorem Sound.eq_of_prefix {first second : Phrase} (hfirst : first.Sound) (hsecond : second.Sound)
    {tokens : List Token} (h : first.tokens <+: tokens) (h' : second.tokens <+: tokens) :
    first = second := by
  obtain ⟨rest, rfl⟩ := h
  obtain ⟨rest', heq⟩ := h'
  -- Opening, content and closing are read off the tokens one after another.
  have hopening : second.opening = first.opening := by
    rw [← hsecond.takeWhile_tokens_append rest', heq, hfirst.takeWhile_tokens_append]
  have hcontent : second.content = first.content := by
    rw [← second.literalRun_drop_opening rest', heq, hopening, literalRun_drop_opening]
  have hclosing : second.closing ++ rest' = first.closing ++ rest := by
    simp only [tokens_eq, hopening, hcontent, List.append_assoc] at heq
    exact List.append_cancel_left (List.append_cancel_left heq)
  cases first with
  | styled span content =>
      cases second with
      | styled span' content' =>
          cases hcontent
          rw [StyledSpan.fence_injective hopening]
      | code _ => exact absurd hopening.symm span.fence_ne_backtick
      | link _ _ => exact absurd hopening.symm span.fence_ne_leftBracket
  | code content =>
      cases second with
      | styled span _ => exact absurd hopening span.fence_ne_backtick
      | code content' => rw [show content' = content from hcontent]
      | link _ _ => simp [opening] at hopening
  | link label address =>
      cases second with
      | styled span _ => exact absurd hopening span.fence_ne_leftBracket
      | code _ => simp [opening] at hopening
      | link label' address' =>
          -- Behind two fixed markers the address is the next literal run.
          have haddress := congrArg (fun tokens => literalRun (tokens.drop 2)) hclosing
          simp only [closing, List.cons_append, List.drop_succ_cons, List.drop_zero,
            List.append_assoc, literalRun_map_char_append, List.nil_append, literalRun,
            List.append_nil] at haddress
          rw [haddress, show label' = label from hcontent]

end Phrase

end LineMarkup
