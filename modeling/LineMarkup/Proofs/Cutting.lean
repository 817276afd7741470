import LineMarkup.Proofs.Acceptance
import LineMarkup.Segment

/-!
# How a token list is cut

A cut takes either a sound phrase or a single token at each step, and it goes on until
the first end mark or the end of the list. So the segments cover exactly the tokens in
front of the first end mark, one node for each segment, and the whole list is accepted
unless there is no such token.
-/

namespace LineMarkup

/-! ## The first end mark -/

namespace Token

/-- The tokens in front of the first end mark. -/
def beforeEnd (tokens : List Token) : List Token := tokens.takeWhile (· ≠ .endMark)

/-- The first index from a given one on that holds an end mark. Where there is none, it
is the first index from there on beyond the list. -/
def endIndex (tokens : List Token) (index : Nat) : Nat :=
  index + (tokens.drop index).findIdx (· = .endMark)

theorem endIndex_of_mem {tokens : List Token} {index : Nat} (h : .endMark ∈ tokens.drop index) :
    tokens[endIndex tokens index]? = some .endMark ∧
      ∀ j, index ≤ j → j < endIndex tokens index → tokens[j]? ≠ some .endMark := by
  have hexists : ∃ token ∈ tokens.drop index, decide (token = .endMark) = true :=
    ⟨.endMark, h, rfl⟩
  constructor
  · have hfound := List.findIdx_getElem?_eq_getElem_of_exists hexists
    have hend := List.findIdx_of_getElem?_eq_some hfound
    rw [endIndex, ← List.getElem?_drop, hfound, of_decide_eq_true hend]
  · intro j hle hlt hend
    obtain ⟨distance, rfl⟩ := Nat.exists_eq_add_of_le hle
    rw [← List.getElem?_drop] at hend
    obtain ⟨hbound, hend⟩ := List.getElem?_eq_some_iff.mp hend
    have hnot := List.not_of_lt_findIdx (Nat.add_lt_add_iff_left.mp hlt)
    rw [hend] at hnot
    cases hnot

theorem endIndex_of_notMem {tokens : List Token} {index : Nat}
    (h : .endMark ∉ tokens.drop index) : endIndex tokens index = max index tokens.length := by
  have hlength : (tokens.drop index).findIdx (· = .endMark) = (tokens.drop index).length := by
    apply List.findIdx_eq_length_of_false
    intro token htoken
    rw [decide_eq_false_iff_not]
    rintro rfl
    exact h htoken
  rw [endIndex, hlength, List.length_drop]
  omega

@[simp] theorem beforeEnd_nil : beforeEnd [] = [] := rfl

@[simp] theorem beforeEnd_endMark_cons (rest : List Token) : beforeEnd (.endMark :: rest) = [] :=
  rfl

theorem beforeEnd_append {tokens : List Token} (h : .endMark ∉ tokens) (rest : List Token) :
    beforeEnd (tokens ++ rest) = tokens ++ beforeEnd rest := by
  rw [beforeEnd, List.takeWhile_append_of_pos, beforeEnd]
  intro token htoken
  rw [decide_eq_true_eq]
  rintro rfl
  exact h htoken

theorem length_beforeEnd (tokens : List Token) :
    (beforeEnd tokens).length = tokens.findIdx (· = .endMark) := by
  induction tokens with
  | nil => rfl
  | cons token rest ih =>
      by_cases hend : token = .endMark
      · subst hend
        rfl
      · rw [← List.singleton_append, beforeEnd_append (by simpa using Ne.symm hend),
          List.length_append, ih, List.singleton_append, List.findIdx_cons]
        simp [hend, Nat.add_comm]

/-- Behind the tokens in front of the first end mark an end mark is read. -/
theorem head?_drop_beforeEnd (tokens : List Token) :
    (tokens.drop (beforeEnd tokens).length).head?.getD .endMark = .endMark := by
  rw [length_beforeEnd, List.head?_drop]
  by_cases hmem : .endMark ∈ tokens.drop 0
  · have hend := (endIndex_of_mem hmem).1
    rw [endIndex, Nat.zero_add, List.drop_zero] at hend
    rw [hend]
    rfl
  · have hlength := endIndex_of_notMem hmem
    rw [endIndex, Nat.zero_add, List.drop_zero, Nat.zero_max] at hlength
    rw [hlength, List.getElem?_eq_none (Nat.le_refl _)]
    rfl

theorem ne_endMark_of_literal? {token : Token} {c : Char} (h : token.literal? = some c) :
    token ≠ .endMark := by
  rintro rfl
  cases h

theorem beforeEnd_cons_of_literal? {token : Token} {c : Char} (h : token.literal? = some c)
    (rest : List Token) : beforeEnd (token :: rest) = token :: beforeEnd rest := by
  have hnot : .endMark ∉ [token] := by simpa using (ne_endMark_of_literal? h).symm
  exact beforeEnd_append hnot rest

theorem eq_endMark_or_exists_literal? (token : Token) :
    token = .endMark ∨ ∃ c, token.literal? = some c := by
  cases token <;> first | exact .inl rfl | exact .inr ⟨_, rfl⟩

end Token

/-! ## Steps of a cut -/

namespace Segment

theorem front?_phrase_append {phrase : Phrase} (h : phrase.Sound) (rest : List Token) :
    front? (phrase.tokens ++ rest) = some (.styled phrase.toMatch) := by
  unfold front?
  rw [Matcher.style_phrase_append h]

theorem front?_cons_of_style_eq_none {token : Token} {rest : List Token}
    (h : Matcher.style (token :: rest) = none) :
    front? (token :: rest) = token.literal?.map (.kept token) := by
  unfold front?
  rw [h]

theorem cut_eq_cons {tokens : List Token} {segment : Segment} (h : front? tokens = some segment) :
    cut tokens = segment :: cut (tokens.drop segment.size) := by
  rw [cut]
  split
  next other hother =>
    rw [h] at hother
    cases hother
    rfl
  next hnone =>
    rw [h] at hnone
    cases hnone

theorem cut_eq_nil {tokens : List Token} (h : front? tokens = none) : cut tokens = [] := by
  rw [cut]
  split
  next other hother =>
    rw [h] at hother
    cases hother
  next => rfl

@[simp] theorem cut_nil : cut [] = [] := cut_eq_nil front?_nil

@[simp] theorem cut_endMark_cons (rest : List Token) : cut (.endMark :: rest) = [] := by
  apply cut_eq_nil
  rw [front?_cons_of_style_eq_none (Matcher.style_endMark_cons rest)]
  rfl

/-- A sound phrase at the front is cut off as one segment. -/
theorem cut_phrase_append {phrase : Phrase} (h : phrase.Sound) (rest : List Token) :
    cut (phrase.tokens ++ rest) = .styled phrase.toMatch :: cut rest := by
  rw [cut_eq_cons (front?_phrase_append h rest)]
  change _ :: cut ((phrase.tokens ++ rest).drop phrase.tokens.length) = _
  rw [List.drop_left]

/-- A token that begins no style is cut off alone. -/
theorem cut_cons_of_style_eq_none {token : Token} {c : Char} {rest : List Token}
    (hstyle : Matcher.style (token :: rest) = none) (hliteral : token.literal? = some c) :
    cut (token :: rest) = .kept token c :: cut rest := by
  have hfront : front? (token :: rest) = some (.kept token c) := by
    rw [front?_cons_of_style_eq_none hstyle, hliteral]
    rfl
  rw [cut_eq_cons hfront]
  rfl

/-- Induction along a cut: the list is at its end, begins with a sound phrase, or begins
with a token that is kept. -/
theorem cut_induction {motive : List Token → Prop} (nil : motive [])
    (endMark : ∀ rest, motive (.endMark :: rest))
    (phrase : ∀ (phrase : Phrase) (rest : List Token), phrase.Sound → motive rest →
      motive (phrase.tokens ++ rest))
    (kept : ∀ (token : Token) (c : Char) (rest : List Token),
      Matcher.style (token :: rest) = none → token.literal? = some c → motive rest →
      motive (token :: rest))
    (tokens : List Token) : motive tokens := by
  -- A style takes several tokens at once, so the induction is on the length.
  induction hlength : tokens.length using Nat.strongRecOn generalizing tokens with
  | ind length ih =>
      subst hlength
      cases tokens with
      | nil => exact nil
      | cons token rest =>
          cases hstyle : Matcher.style (token :: rest) with
          | some found =>
              obtain ⟨first, hsound, ⟨tail, htail⟩, _⟩ := Matcher.style_eq_some_iff.mp hstyle
              rw [← htail]
              refine phrase first tail hsound (ih tail.length ?_ tail rfl)
              have hpos := List.length_pos_iff.mpr first.tokens_ne_nil
              rw [← htail, List.length_append]
              omega
          | none =>
              rcases token.eq_endMark_or_exists_literal? with rfl | ⟨c, hliteral⟩
              · exact endMark rest
              · exact kept token c rest hstyle hliteral
                  (ih rest.length (Nat.lt_succ_self _) rest rfl)

/-! ## The nodes of a whole cut -/

/-- The nodes of all segments of a token list. -/
def cutNodes (tokens : List Token) : List Node := (cut tokens).flatMap nodes

@[simp] theorem cutNodes_nil : cutNodes [] = [] := by
  rw [cutNodes, cut_nil]
  rfl

@[simp] theorem cutNodes_endMark_cons (rest : List Token) : cutNodes (.endMark :: rest) = [] := by
  rw [cutNodes, cut_endMark_cons]
  rfl

theorem cutNodes_phrase_append {phrase : Phrase} (h : phrase.Sound) (rest : List Token) :
    cutNodes (phrase.tokens ++ rest) = phrase.node :: cutNodes rest := by
  rw [cutNodes, cut_phrase_append h]
  rfl

theorem cutNodes_cons_of_style_eq_none {token : Token} {c : Char} {rest : List Token}
    (hstyle : Matcher.style (token :: rest) = none) (hliteral : token.literal? = some c) :
    cutNodes (token :: rest) = .ofChar c :: cutNodes rest := by
  rw [cutNodes, cut_cons_of_style_eq_none hstyle hliteral]
  rfl

/-- Literal characters in front of a token list become its first texts. -/
theorem cutNodes_map_char_append (cs : List Char) (rest : List Token) :
    cutNodes (cs.map .char ++ rest) = Node.ofChars cs ++ cutNodes rest := by
  induction cs with
  | nil => rfl
  | cons c cs ih =>
      rw [List.map_cons, List.cons_append,
        cutNodes_cons_of_style_eq_none (Matcher.style_char_cons c _) rfl, ih]
      rfl

/-- The segments cover the tokens in front of the first end mark. -/
theorem totalSize_cut (tokens : List Token) :
    totalSize (cut tokens) = (Token.beforeEnd tokens).length := by
  induction tokens using cut_induction with
  | nil => simp [totalSize]
  | endMark rest => simp [totalSize]
  | phrase phrase rest hsound ih =>
      rw [cut_phrase_append hsound, Token.beforeEnd_append phrase.endMark_notMem_tokens,
        List.length_append, ← ih]
      rfl
  | kept token c rest hstyle hliteral ih =>
      rw [cut_cons_of_style_eq_none hstyle hliteral, Token.beforeEnd_cons_of_literal? hliteral,
        List.length_cons, ← ih, totalSize, Nat.add_comm]
      rfl

/-- There is no segment exactly where no token stands in front of the end mark. -/
theorem cut_eq_nil_iff (tokens : List Token) : cut tokens = [] ↔ Token.beforeEnd tokens = [] := by
  cases tokens using cut_induction with
  | nil => simp
  | endMark rest => simp
  | phrase phrase rest hsound _ =>
      rw [cut_phrase_append hsound, Token.beforeEnd_append phrase.endMark_notMem_tokens]
      simp [phrase.tokens_ne_nil]
  | kept token c rest hstyle hliteral _ =>
      rw [cut_cons_of_style_eq_none hstyle hliteral, Token.beforeEnd_cons_of_literal? hliteral]
      simp

end Segment

/-- A whole token list is accepted unless an end mark stands at its front, and it is
taken up to and with its first end mark. -/
theorem Matcher.markdown_eq (tokens : List Token) :
    Matcher.markdown tokens =
      if Token.beforeEnd tokens = [] then none
      else some ⟨Segment.cutNodes tokens, (Token.beforeEnd tokens).length + 1⟩ := by
  rw [Matcher.markdown, Match.ofSegments?, Segment.totalSize_cut]
  by_cases hempty : Token.beforeEnd tokens = []
  · rw [if_pos hempty, if_neg]
    intro h
    exact h.1 ((Segment.cut_eq_nil_iff tokens).mpr hempty)
  · have hcut : Segment.cut tokens ≠ [] := fun hcut =>
      hempty ((Segment.cut_eq_nil_iff tokens).mp hcut)
    rw [if_neg hempty, if_pos ⟨hcut, Token.head?_drop_beforeEnd tokens⟩]
    rfl

end LineMarkup
