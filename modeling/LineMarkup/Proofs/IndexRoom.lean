import LineMarkup.Proofs.Cutting
import LineMarkup.Proofs.Indexing

/-!
# Room for every index

Matching by index gives what the matcher gives at that index, as long as there is room for
the index itself and for one index beyond the tokens. For a sum is formed only where an
earlier read has shown that the cursor stands inside the list. Each function by index is
compared with its counterpart on the tokens that the index leaves.
-/

namespace LineMarkup

/-- The indices up to a bound can be held, and the bound lies beyond the tokens. -/
structure IndexRoom (limit : Option Nat) (tokens : List Token) (bound : Nat) : Prop where
  fits : limit.all (bound < ·) = true
  length_lt : tokens.length < bound

/-- Without a limit there is room for any index. -/
theorem IndexRoom.unbounded (index : Nat) (tokens : List Token) :
    IndexRoom none tokens (max index (tokens.length + 1)) := by
  constructor
  · rfl
  · exact Nat.lt_of_lt_of_le (Nat.lt_succ_self _) (Nat.le_max_right _ _)

/-! ## What an index leaves -/

theorem length_of_drop_eq_cons {tokens rest : List Token} {pos : Nat} {token : Token}
    (h : tokens.drop pos = token :: rest) : tokens.length = pos + 1 + rest.length := by
  have hlength := congrArg List.length h
  rw [List.length_drop, List.length_cons] at hlength
  omega

theorem drop_succ_of_drop_eq_cons {tokens rest : List Token} {pos : Nat} {token : Token}
    (h : tokens.drop pos = token :: rest) : tokens.drop (pos + 1) = rest := by
  rw [← List.drop_drop, h, List.drop_succ_cons, List.drop_zero]

theorem getD_endMark_eq_iff {token : Token} (h : token ≠ .endMark) {next : Option Token} :
    next.getD .endMark = token ↔ next = some token := by
  cases next <;> simp [h.symm]

/-! ## The matchers on what an index leaves -/

namespace StyledSpan

variable (span : StyledSpan)

theorem marker_ne_endMark : span.marker ≠ .endMark := by
  cases span <;> decide

theorem fence_eq_append :
    span.fence = List.replicate (span.arity - 1) span.marker ++ [span.marker] := by
  cases span <;> rfl

/-- A span whose opening fence was read but for its last marker. -/
theorem matcher_replicate_append (tail : List Token) :
    span.matcher (List.replicate (span.arity - 1) span.marker ++ tail) =
      if tail.head? = some span.marker then
        (span.content? (tail.drop 1)).map fun content =>
          .single (.span span.kind (Node.ofChars content)) (content.length + 2 * span.arity)
      else none := by
  have hprefix : span.fence.isPrefixOf (List.replicate (span.arity - 1) span.marker ++ tail) =
      [span.marker].isPrefixOf tail := by
    rw [Bool.eq_iff_iff, List.isPrefixOf_iff_prefix, List.isPrefixOf_iff_prefix,
      span.fence_eq_append, List.prefix_append_right_inj]
  have hdrop : (List.replicate (span.arity - 1) span.marker ++ tail).drop span.arity =
      tail.drop 1 := by
    rw [List.drop_append, List.drop_replicate, List.length_replicate,
      Nat.sub_eq_zero_of_le (Nat.sub_le _ _), Nat.sub_sub_self span.arity_pos]
    rfl
  rw [matcher, hprefix, hdrop]
  cases tail with
  | nil => rfl
  | cons token rest => simp [eq_comm (a := span.marker)]

end StyledSpan

/-- A segment is what a style accepts, or else one token. -/
theorem Matcher.segment_eq (tokens : List Token) :
    segment tokens = (style tokens).or (anyToken tokens) := by
  unfold segment Segment.front?
  cases style tokens with
  | some found => rfl
  | none =>
      cases tokens with
      | nil => rfl
      | cons token rest => cases token <;> rfl

theorem Token.length_beforeEnd_le (tokens : List Token) :
    (beforeEnd tokens).length ≤ tokens.length :=
  (List.takeWhile_sublist _).length_le

theorem Segment.size_le_length {tokens : List Token} {segment : Segment}
    (h : front? tokens = some segment) : segment.size ≤ tokens.length := by
  have hcut := totalSize_cut tokens
  rw [cut_eq_cons h, totalSize] at hcut
  have hbefore := Token.length_beforeEnd_le tokens
  omega

/-- The first segment has its nodes in front of those of what it leaves. -/
theorem Segment.cutNodes_eq_append {tokens : List Token} {segment : Segment}
    (h : front? tokens = some segment) :
    cutNodes tokens = segment.nodes ++ cutNodes (tokens.drop segment.size) := by
  rw [cutNodes, cut_eq_cons h]
  rfl

/-- The first segment takes its tokens from those in front of the end mark. -/
theorem Segment.length_beforeEnd_eq_add {tokens : List Token} {segment : Segment}
    (h : front? tokens = some segment) :
    (Token.beforeEnd tokens).length =
      segment.size + (Token.beforeEnd (tokens.drop segment.size)).length := by
  rw [← totalSize_cut, ← totalSize_cut, cut_eq_cons h]
  rfl

/-! ## Agreement -/

namespace Indexing

/-- Matching by index and a matcher agree at every index up to a bound. -/
def Agrees (tokens : List Token) (bound : Nat) (attempt : Nat → Indexing (Option Match))
    (matcher : Matcher) : Prop :=
  ∀ pos ≤ bound, attempt pos = .ok (matcher.matchAt pos tokens)

theorem agrees_firstAt_nil {tokens : List Token} {bound : Nat} :
    Agrees tokens bound (firstAt []) (Matcher.firstOf []) :=
  fun _ _ => rfl

theorem Agrees.firstAt_cons {tokens : List Token} {bound : Nat}
    {attempt : Nat → Indexing (Option Match)} {attempts : List (Nat → Indexing (Option Match))}
    {matcher : Matcher} {matchers : List Matcher} (hfirst : Agrees tokens bound attempt matcher)
    (hrest : Agrees tokens bound (firstAt attempts) (Matcher.firstOf matchers)) :
    Agrees tokens bound (firstAt (attempt :: attempts))
      (Matcher.firstOf (matcher :: matchers)) := by
  intro pos h
  have hlater := hrest pos h
  rw [firstAt, Matcher.matchAt, Matcher.firstOf] at hlater
  rw [firstAt, List.findSomeM?, hfirst pos h, ok_bind, Matcher.matchAt, Matcher.matchAt,
    Matcher.firstOf, List.findSome?_cons]
  cases matcher (tokens.drop pos) with
  | some found => rfl
  | none => exact hlater

end Indexing

namespace IndexRoom

open Indexing

variable {limit : Option Nat} {tokens : List Token} {bound : Nat}
  (room : IndexRoom limit tokens bound)

include room

/-! ### Reading tokens -/

theorem plus_eq (index offset : Nat) (h : index + offset ≤ bound) :
    plus limit index offset = .ok (index + offset) := by
  have hfits := room.fits
  rw [plus, if_pos]
  cases limit with
  | none => simp
  | some top =>
      simp only [Option.all_some, decide_eq_true_eq] at hfits ⊢
      omega

theorem peekAt_eq (pos offset : Nat) (h : pos + offset ≤ bound) :
    peekAt limit tokens pos offset = .ok ((tokens.drop (pos + offset)).head?.getD .endMark) := by
  rw [peekAt, room.plus_eq pos offset h, List.head?_drop]
  rfl

theorem peek_eq (pos : Nat) (h : pos ≤ bound) :
    peekAt limit tokens pos 0 = .ok ((tokens.drop pos).head?.getD .endMark) :=
  room.peekAt_eq pos 0 h

/-- Reading on stops at the first other token, so all that is read stands at or right behind
the last token of the list. -/
theorem runOf_eq_cursor {token : Token} (htoken : token ≠ .endMark) {pos offset read : Nat}
    (h : pos + offset + read ≤ bound) (count : Nat) :
    runOf limit tokens pos offset token read count =
      .ok ((Cursor.mk tokens pos).runOf (offset + read) token count) := by
  have hlength := room.length_lt
  induction count generalizing read with
  | zero => rfl
  | succ count ih =>
      rw [runOf, room.plus_eq _ _ (by omega), ok_bind, peekAt, room.plus_eq _ _ (by omega), ok_bind,
        Cursor.runOf]
      by_cases hnext : (Cursor.mk tokens pos).peekAt (offset + read) = token
      · -- The next read is in range, because this one was inside the list.
        have hinside : pos + (offset + read) < tokens.length := by
          refine Nat.lt_of_not_le fun hbeyond => ?_
          rw [Cursor.peekAt, List.getElem?_eq_none hbeyond] at hnext
          exact htoken hnext.symm
        have hrest := ih (show pos + offset + (read + 1) ≤ bound by omega)
        rw [pure_eq, ok_bind, if_pos hnext, hrest, hnext]
        simp [Nat.add_assoc]
      · rw [pure_eq, ok_bind, if_neg hnext, pure_eq]
        simp [hnext]

theorem runOf_eq {token : Token} (htoken : token ≠ .endMark) {pos offset : Nat}
    (h : pos + offset ≤ bound) (count : Nat) :
    runOf limit tokens pos offset token 0 count =
      .ok ((List.replicate count token).isPrefixOf (tokens.drop (pos + offset))) := by
  rw [room.runOf_eq_cursor htoken h, Cursor.runOf_eq_isPrefixOf _ htoken]
  rfl

theorem runOf_fence_eq (span : StyledSpan) (pos offset : Nat) (h : pos + offset ≤ bound) :
    runOf limit tokens pos offset span.marker 0 span.arity =
      .ok (span.fence.isPrefixOf (tokens.drop (pos + offset))) :=
  room.runOf_eq span.marker_ne_endMark h span.arity

/-! ### Single tokens -/

theorem keepAt_agrees {kept? : Token → Option Char} (hend : kept? .endMark = none) :
    Agrees tokens bound (keepAt limit tokens kept?) (Matcher.keep kept?) := by
  intro pos h
  have hlength := room.length_lt
  rw [keepAt, room.peek_eq pos h, ok_bind, Matcher.matchAt, Matcher.keep]
  cases hdrop : tokens.drop pos with
  | nil => simp [hend]
  | cons token rest =>
      have hinside := length_of_drop_eq_cons hdrop
      have hplus := room.plus_eq pos 1 (by omega)
      cases hkept : kept? token with
      | none => simp [hkept]
      | some c => simp [hkept, hplus, Match.single, Match.shift]

theorem charAt_agrees : Agrees tokens bound (charAt limit tokens) Matcher.char := by
  rw [Matcher.char_eq_keep]
  exact room.keepAt_agrees rfl

theorem boundaryCharAt_agrees :
    Agrees tokens bound (boundaryCharAt limit tokens) Matcher.boundaryChar := by
  rw [Matcher.boundaryChar_eq_keep]
  exact room.keepAt_agrees rfl

theorem anyTokenAt_agrees : Agrees tokens bound (anyTokenAt limit tokens) Matcher.anyToken := by
  rw [Matcher.anyToken_eq_keep]
  exact room.keepAt_agrees rfl

theorem charAt_eq_of_drop_eq_cons {pos : Nat} {c : Char} {rest : List Token}
    (hdrop : tokens.drop pos = .char c :: rest) :
    charAt limit tokens pos = .ok (some (.single (.ofChar c) (pos + 1))) := by
  have hlength := room.length_lt
  have hinside := length_of_drop_eq_cons hdrop
  rw [room.charAt_agrees pos (by omega), Matcher.matchAt, hdrop]
  rfl

/-! ### Styled spans -/

/-- A literal character closes a span if it is no blank and a fence follows it. -/
theorem closeAt_eq_of_drop_eq_cons (span : StyledSpan) {pos : Nat} {c : Char}
    {rest : List Token} (hdrop : tokens.drop pos = .char c :: rest) :
    closeAt limit tokens span pos = .ok (
      if !Text.isBoundaryBlank c && span.fence.isPrefixOf rest then
        some (.single (.ofChar c) (pos + 1))
      else none) := by
  have hlength := room.length_lt
  have hinside := length_of_drop_eq_cons hdrop
  have hrun := room.runOf_fence_eq span pos 1 (by omega)
  rw [drop_succ_of_drop_eq_cons hdrop] at hrun
  rw [closeAt, room.boundaryCharAt_agrees pos (by omega), ok_bind, Matcher.matchAt, hdrop]
  by_cases hblank : Text.isBoundaryBlank c
  · simp [Matcher.boundaryChar, hblank]
  · by_cases hfence : span.fence <+: rest <;>
      simp [Matcher.boundaryChar, hblank, hrun, hfence, Match.single, Match.shift]

/-- Where no literal character stands, a span is neither closed nor continued. -/
theorem insideAt_eq_none (span : StyledSpan) (children : List Node) {pos : Nat} (h : pos ≤ bound)
    (hchar : Matcher.char (tokens.drop pos) = none)
    (hboundary : Matcher.boundaryChar (tokens.drop pos) = none) :
    insideAt limit tokens span children pos = .ok none := by
  have hclose : closeAt limit tokens span pos = .ok none := by
    rw [closeAt, room.boundaryCharAt_agrees pos h, ok_bind, Matcher.matchAt, hboundary]
    rfl
  rw [insideAt, hclose, ok_bind]
  simp [room.charAt_agrees pos h, Matcher.matchAt, hchar]

theorem insideAt_eq (span : StyledSpan) (children : List Node) (pos : Nat) (h : pos ≤ bound) :
    insideAt limit tokens span children pos = .ok ((span.inside? (tokens.drop pos)).map
      fun content => .single (.span span.kind (children ++ Node.ofChars content))
        (pos + content.length + span.arity)) := by
  have hlength := room.length_lt
  generalize hdrop : tokens.drop pos = suffix
  induction suffix generalizing pos children with
  | nil =>
      rw [room.insideAt_eq_none span children h (by rw [hdrop]; rfl) (by rw [hdrop]; rfl)]
      rfl
  | cons token rest ih =>
      have hinside := length_of_drop_eq_cons hdrop
      cases token with
      | char c =>
          rw [insideAt, room.closeAt_eq_of_drop_eq_cons span hdrop, ok_bind, StyledSpan.inside?]
          by_cases hclose : (!Text.isBoundaryBlank c && span.fence.isPrefixOf rest) = true
          · have hfence : span.arity ≤ rest.length := by
              simp only [Bool.and_eq_true, List.isPrefixOf_iff_prefix] at hclose
              simpa using hclose.2.length_le
            have hnext := room.plus_eq pos 1 (by omega)
            have hstop := room.plus_eq (pos + 1) span.arity (by omega)
            rw [if_pos hclose, if_pos hclose]
            simp [hnext, hstop, Match.single, Node.ofChars]
          · rw [if_neg hclose, if_neg hclose]
            simp only [room.charAt_eq_of_drop_eq_cons hdrop, ok_bind]
            rw [room.plus_eq _ _ (by omega), ok_bind, dif_pos (by omega),
              ih _ _ (by omega) (drop_succ_of_drop_eq_cons hdrop)]
            cases span.inside? rest with
            | none => rfl
            | some content =>
                simp only [Match.single, Node.ofChars, List.append_assoc, List.cons_append,
                  List.nil_append, Option.map_some, List.map_cons, List.length_cons,
                  Except.ok.injEq, Option.some.injEq, Match.mk.injEq, true_and]
                omega
      | _ =>
          rw [room.insideAt_eq_none span children h (by rw [hdrop]; rfl) (by rw [hdrop]; rfl)]
          rfl

theorem contentAt_eq (span : StyledSpan) (pos : Nat) (h : pos < tokens.length) :
    contentAt limit tokens span pos = .ok ((span.content? (tokens.drop (pos + 1))).map
      fun content => .single (.span span.kind (Node.ofChars content))
        (pos + 1 + content.length + span.arity)) := by
  have hlength := room.length_lt
  rw [contentAt, room.plus_eq _ _ (by omega), ok_bind, room.boundaryCharAt_agrees _ (by omega),
    ok_bind, Matcher.matchAt, StyledSpan.content?]
  cases hdrop : tokens.drop (pos + 1) with
  | nil => rfl
  | cons token rest =>
      have hinside := length_of_drop_eq_cons hdrop
      have hrest : tokens.drop (pos + 2) = rest := drop_succ_of_drop_eq_cons hdrop
      cases token with
      | char c =>
          have hnext := room.plus_eq pos 2 (by omega)
          have hclose := room.runOf_fence_eq span (pos + 2) 0 (by omega)
          rw [Nat.add_zero, hrest] at hclose
          by_cases hblank : Text.isBoundaryBlank c = true
          · simp [Matcher.boundaryChar, hblank]
          · by_cases hfence : span.fence <+: rest
            · have hshort : span.arity ≤ rest.length := by simpa using hfence.length_le
              have hstop := room.plus_eq (pos + 2) span.arity (by omega)
              simp [Matcher.boundaryChar, hblank, StyledSpan.inside?, hfence, hnext, hclose, hstop,
                Match.single, Match.shift, Node.ofChars]
            · have hlater := room.insideAt_eq span [.ofChar c] (pos + 2) (by omega)
              rw [hrest] at hlater
              simp only [Matcher.boundaryChar, hblank, Bool.false_eq_true, if_false,
                Option.map_some, Match.shift, Match.single, hnext, ok_bind, hclose,
                List.isPrefixOf_iff_prefix, hfence, hlater, Option.isSome_some, if_true,
                StyledSpan.inside?, Bool.not_false, Bool.true_and, Option.map_map, Node.ofChars,
                List.singleton_append, Except.ok.injEq]
              congr 1
              funext content
              simp only [Function.comp_apply, List.map_cons, List.length_cons, Match.mk.injEq,
                true_and]
              omega
      | _ => rfl

theorem styledAt_agrees (span : StyledSpan) :
    Agrees tokens bound (styledAt limit tokens span) span.matcher := by
  intro pos h
  have hlength := room.length_lt
  have hopen : runOf limit tokens pos 0 span.marker 0 (span.arity - 1) =
      .ok ((List.replicate (span.arity - 1) span.marker).isPrefixOf (tokens.drop pos)) :=
    room.runOf_eq span.marker_ne_endMark h _
  rw [styledAt, hopen, ok_bind, Matcher.matchAt]
  by_cases hfirst : List.replicate (span.arity - 1) span.marker <+: tokens.drop pos
  · obtain ⟨tail, htail⟩ := hfirst
    have hlast := congrArg List.length htail
    rw [List.length_append, List.length_replicate, List.length_drop] at hlast
    have hdrop : tokens.drop (pos + (span.arity - 1)) = tail := by
      rw [← List.drop_drop, ← htail, List.drop_left' List.length_replicate]
    have hbound : pos + (span.arity - 1) ≤ bound := by omega
    have hpeek := room.peek_eq _ hbound
    rw [hdrop] at hpeek
    rw [← htail, if_pos (List.isPrefixOf_iff_prefix.mpr (List.prefix_append _ _)),
      room.plus_eq _ _ hbound, ok_bind, hpeek, ok_bind, span.matcher_replicate_append]
    cases tail with
    | nil => simp [span.marker_ne_endMark.symm]
    | cons token rest =>
        by_cases htoken : token = span.marker
        · have hinside := length_of_drop_eq_cons hdrop
          have hpos := span.arity_pos
          have hcontent := room.contentAt_eq span (pos + (span.arity - 1)) (by omega)
          rw [drop_succ_of_drop_eq_cons hdrop] at hcontent
          simp only [htoken, List.head?_cons, Option.getD_some, if_true, hcontent,
            List.drop_succ_cons, List.drop_zero, Option.map_map, Except.ok.injEq]
          congr 1
          funext content
          simp only [Function.comp_apply, Match.single, Match.shift, Match.mk.injEq, true_and]
          omega
        · simp [htoken]
  · have hfence : ¬ span.fence <+: tokens.drop pos := by
      intro hprefix
      rw [span.fence_eq_append] at hprefix
      exact hfirst ((List.prefix_append _ _).trans hprefix)
    simp [StyledSpan.matcher, hfirst, hfence]

/-! ### Enclosed content -/

theorem repeatAt_charAt_eq (pos : Nat) (h : pos ≤ bound) :
    repeatAt tokens (charAt limit tokens) pos =
      .ok (Node.ofChars (literalRun (tokens.drop pos)),
        pos + (literalRun (tokens.drop pos)).length) := by
  have hlength := room.length_lt
  generalize hdrop : tokens.drop pos = suffix
  induction suffix using literalRun.induct generalizing pos with
  | case1 c rest ih =>
      have hinside := length_of_drop_eq_cons hdrop
      have hchar := room.charAt_eq_of_drop_eq_cons hdrop
      have hrest : repeatAt tokens (charAt limit tokens) (pos + 1) =
          .ok (Node.ofChars (literalRun rest), pos + 1 + (literalRun rest).length) :=
        ih _ (by omega) (drop_succ_of_drop_eq_cons hdrop)
      rw [repeatAt_of_ok_some hchar (Nat.lt_succ_self pos) (by omega), Match.single, hrest,
        literalRun]
      simp only [Functor.map, Except.map, Node.ofChars, List.map_cons, List.singleton_append,
        List.length_cons]
      congr 2
      omega
  | case2 suffix hnot =>
      have hchar : charAt limit tokens pos = .ok none := by
        rw [room.charAt_agrees pos h, Matcher.matchAt, hdrop, Matcher.char.eq_2 suffix hnot]
        rfl
      rw [repeatAt_of_none hchar, literalRun.eq_2 suffix hnot]
      rfl

theorem enclosedAt_eq {opening closing : Token} (hopening : opening ≠ .endMark)
    (hclosing : closing ≠ .endMark) {pos : Nat} (h : pos ≤ bound) :
    enclosedAt limit tokens opening closing pos =
      .ok ((enclosed? opening closing (tokens.drop pos)).map fun content =>
        (Node.ofChars content, pos + content.length + 2)) := by
  have hlength := room.length_lt
  rw [enclosedAt, room.peek_eq pos h, ok_bind]
  cases hdrop : tokens.drop pos with
  | nil => simp [hopening.symm, enclosed?]
  | cons token rest =>
      have hinside := length_of_drop_eq_cons hdrop
      have hrest := drop_succ_of_drop_eq_cons hdrop
      have hstart := room.plus_eq pos 1 (by omega)
      have hrun := room.repeatAt_charAt_eq (pos + 1) (by omega)
      rw [hrest] at hrun
      by_cases htoken : token = opening
      · by_cases hempty : literalRun rest = []
        · simp [htoken, hstart, hrun, enclosed?, hempty, Node.ofChars]
        · -- The closing delimiter is looked for behind the whole literal run.
          have hshort := congrArg List.length (map_char_literalRun_append_drop rest)
          rw [List.length_append, List.length_map] at hshort
          have hpeek := room.peek_eq (pos + 1 + (literalRun rest).length) (by omega)
          rw [← List.drop_drop, hrest, List.head?_drop] at hpeek
          by_cases hclose : rest[(literalRun rest).length]? = some closing
          · obtain ⟨hbound, _⟩ := List.getElem?_eq_some_iff.mp hclose
            have hstop := room.plus_eq (pos + 1 + (literalRun rest).length) 1
              (by omega)
            simp only [htoken, List.head?_cons, Option.getD_some, if_true, hstart, ok_bind, hrun,
              Node.ofChars, List.isEmpty_iff, List.map_eq_nil_iff, hempty, if_false, hpeek, hclose,
              hstop, pure_eq, enclosed?, List.head?_drop, ne_eq, not_false_eq_true, and_self,
              Option.map_some, Except.ok.injEq, Option.some.injEq, Prod.mk.injEq, true_and]
            omega
          · have hother : rest[(literalRun rest).length]?.getD .endMark ≠ closing := by
              rwa [ne_eq, getD_endMark_eq_iff hclosing]
            simp [htoken, hstart, hrun, enclosed?, hempty, hpeek, hclose, hother, Node.ofChars]
      · simp [htoken, enclosed?]

theorem codeAt_agrees : Agrees tokens bound (codeAt limit tokens) Matcher.code := by
  intro pos h
  rw [codeAt, room.enclosedAt_eq (by decide) (by decide) h, ok_bind, Matcher.matchAt,
    Matcher.code]
  cases enclosed? .backtick .backtick (tokens.drop pos) with
  | none => rfl
  | some content => simp [Match.single, Match.shift, Nat.add_assoc]

theorem linkAt_agrees : Agrees tokens bound (linkAt limit tokens) Matcher.link := by
  intro pos h
  have hlength := room.length_lt
  rw [linkAt, room.enclosedAt_eq (by decide) (by decide) h, ok_bind, Matcher.matchAt,
    Matcher.link]
  cases hlabel : enclosed? .leftBracket .rightBracket (tokens.drop pos) with
  | none => rfl
  | some label =>
      obtain ⟨_, hprefix⟩ := (enclosed?_eq_some_iff (by rfl)).mp hlabel
      have hshort := hprefix.length_le
      rw [List.length_drop, List.length_cons, List.length_append, List.length_map,
        List.length_singleton] at hshort
      have hdrop : tokens.drop (pos + label.length + 2) =
          (tokens.drop pos).drop (label.length + 2) := by
        rw [List.drop_drop, Nat.add_assoc]
      simp only [Option.map_some, Option.bind_some]
      rw [room.enclosedAt_eq (by decide) (by decide) (by omega), ok_bind, hdrop]
      cases enclosed? .leftParen .rightParen ((tokens.drop pos).drop (label.length + 2)) with
      | none => rfl
      | some address =>
          simp only [Option.map_some, Match.single, pure_eq, Match.shift, Except.ok.injEq,
            Option.some.injEq, Match.mk.injEq, true_and]
          omega

/-! ### Alternatives and segments -/

theorem boldAt_agrees : Agrees tokens bound (boldAt limit tokens) Matcher.bold :=
  (room.styledAt_agrees _).firstAt_cons ((room.styledAt_agrees _).firstAt_cons agrees_firstAt_nil)

theorem italicAt_agrees : Agrees tokens bound (italicAt limit tokens) Matcher.italic :=
  (room.styledAt_agrees _).firstAt_cons ((room.styledAt_agrees _).firstAt_cons agrees_firstAt_nil)

theorem styleAt_agrees : Agrees tokens bound (styleAt limit tokens) Matcher.style :=
  room.boldAt_agrees.firstAt_cons (room.italicAt_agrees.firstAt_cons
    ((room.styledAt_agrees .strikethrough).firstAt_cons
      (room.codeAt_agrees.firstAt_cons (room.linkAt_agrees.firstAt_cons agrees_firstAt_nil))))

/-- A segment is found with its notices. -/
theorem segmentAt_of_front?_eq_some {pos : Nat} (h : pos ≤ bound) {segment : Segment}
    (hfront : Segment.front? (tokens.drop pos) = some segment) :
    segmentAt limit tokens pos = Logging.log (Notice.ofSegment pos segment) >>= fun _ =>
      pure (some (segment.toMatch.shift pos)) := by
  have hstyle := room.styleAt_agrees pos h
  have hany := room.anyTokenAt_agrees pos h
  rw [Matcher.matchAt] at hstyle hany
  rw [segmentAt, hstyle, hany]
  unfold Segment.front? at hfront
  split at hfront
  next found hfound =>
    cases hfront
    simp [hfound, Notice.ofSegment, Logging.log_nil, Segment.toMatch]
  next hnone =>
    split at hfront
    next token rest hdrop =>
      obtain ⟨c, hliteral, rfl⟩ := Option.map_eq_some_iff.mp hfront
      have htoken : tokens[pos]? = some token := by rw [← List.head?_drop, hdrop, List.head?_cons]
      rw [hdrop] at hnone
      cases hchar : token.isChar <;>
        simp [hdrop, hnone, htoken, hliteral, hchar, Matcher.anyToken, Notice.ofSegment,
          Logging.log_nil, Segment.toMatch]
    next => cases hfront

theorem segmentAt_of_front?_eq_none {pos : Nat} (h : pos ≤ bound)
    (hfront : Segment.front? (tokens.drop pos) = none) :
    segmentAt limit tokens pos = pure none := by
  have hstyle := room.styleAt_agrees pos h
  have hany := room.anyTokenAt_agrees pos h
  have hsegment := Matcher.segment_eq (tokens.drop pos)
  rw [Matcher.segment, hfront, Option.map_none, eq_comm, Option.or_eq_none_iff] at hsegment
  rw [Matcher.matchAt, hsegment.1] at hstyle
  rw [Matcher.matchAt, hsegment.2] at hany
  rw [segmentAt, hstyle, hany]
  rfl

/-- All segments from an index on are found, with their notices in order. -/
theorem repeatAt_segmentAt_eq (pos : Nat) (h : pos ≤ bound) :
    repeatAt tokens (segmentAt limit tokens) pos =
      Logging.log (Notice.ofSegments pos (Segment.cut (tokens.drop pos))) >>= fun _ =>
        pure (Segment.cutNodes (tokens.drop pos),
          pos + (Token.beforeEnd (tokens.drop pos)).length) := by
  have hlength := room.length_lt
  rw [← Segment.totalSize_cut, Segment.cutNodes]
  generalize hdrop : tokens.drop pos = suffix
  induction suffix using Segment.cut.induct generalizing pos with
  | case1 suffix segment hfront ih =>
      have hsegment := room.segmentAt_of_front?_eq_some h (by rw [hdrop, hfront])
      have hpos := Segment.size_pos hfront
      have hsize := Segment.size_le_length hfront
      rw [← hdrop, List.length_drop] at hsize
      have hrest : tokens.drop (pos + segment.size) = suffix.drop segment.size := by
        rw [← List.drop_drop, hdrop]
      rw [repeatAt_of_some hsegment (Nat.lt_add_of_pos_right hpos) (by omega), Match.stop_shift]
      change (Logging.log _ >>= fun _ => _ <$> repeatAt tokens _ (pos + segment.size)) = _
      rw [ih _ (by omega) hrest, Segment.cut_eq_cons hfront, Notice.ofSegments,
        Logging.log_append]
      simp [Segment.totalSize, Nat.add_assoc, Segment.nodes]
  | case2 suffix hfront =>
      rw [repeatAt_of_none (room.segmentAt_of_front?_eq_none h (by rw [hdrop, hfront])),
        Segment.cut_eq_nil hfront, Notice.ofSegments, Logging.log_nil]
      rfl

/-- An end mark stands behind the last segment, or the tokens have run out there. -/
theorem peekAt_behind_segments (pos : Nat) (h : pos ≤ bound) :
    peekAt limit tokens (pos + (Token.beforeEnd (tokens.drop pos)).length) 0 = .ok .endMark := by
  have hlength := room.length_lt
  have hbefore := Token.length_beforeEnd_le (tokens.drop pos)
  rw [List.length_drop] at hbefore
  rw [room.peek_eq _ (by omega), ← List.drop_drop, Token.head?_drop_beforeEnd]

/-- A whole line is found with the notices of its segments. -/
theorem markdownAt_eq (pos : Nat) (h : pos ≤ bound) :
    markdownAt limit tokens pos =
      Logging.log (Notice.ofSegments pos (Segment.cut (tokens.drop pos))) >>= fun _ =>
        pure (Matcher.markdown.matchAt pos tokens) := by
  have hlength := room.length_lt
  rw [Matcher.matchAt, Matcher.markdown_eq, markdownAt]
  cases hfront : Segment.front? (tokens.drop pos) with
  | none =>
      have hempty := (Segment.cut_eq_nil_iff _).mp (Segment.cut_eq_nil hfront)
      rw [room.segmentAt_of_front?_eq_none h hfront, Segment.cut_eq_nil hfront, hempty,
        Notice.ofSegments, Logging.log_nil]
      rfl
  | some segment =>
      have hsize := Segment.size_le_length hfront
      have hbefore := Token.length_beforeEnd_le (tokens.drop pos)
      have hpos := Segment.size_pos hfront
      rw [List.length_drop] at hsize hbefore
      have hne : Token.beforeEnd (tokens.drop pos) ≠ [] := by
        rw [ne_eq, ← Segment.cut_eq_nil_iff, Segment.cut_eq_cons hfront]
        exact List.cons_ne_nil _ _
      -- The first segment and the ones behind it are all the segments from the index on.
      have hnodes := Segment.cutNodes_eq_append hfront
      have hstop := Segment.length_beforeEnd_eq_add hfront
      rw [List.drop_drop] at hnodes hstop
      have hlater := room.repeatAt_segmentAt_eq (pos + segment.size) (by omega)
      have hpeek := room.peekAt_behind_segments (pos + segment.size) (by omega)
      have hplus := room.plus_eq (pos + (Token.beforeEnd (tokens.drop pos)).length) 1 (by omega)
      rw [hstop, ← Nat.add_assoc] at hplus
      rw [room.segmentAt_of_front?_eq_some h hfront, Segment.cut_eq_cons hfront,
        Notice.ofSegments, Logging.log_append]
      simp only [bind_assoc, pure_bind]
      change (Logging.log _ >>= fun _ => repeatAt tokens _ (pos + segment.size) >>= _) = _
      rw [hlater]
      simp only [bind_assoc, pure_bind, hpeek, hplus, Logging.liftM_ok, if_true, hne, if_false,
        Option.map_some, hnodes, hstop, Match.shift, List.drop_drop]
      simp only [Segment.nodes, Nat.add_assoc]

/-- Where there is room, matching by index finds what the rule finds at that index. -/
theorem matchIndexed_eq (rule : Rule) {index : Nat} (h : index ≤ bound) :
    rule.matchIndexed limit index tokens = .ok (rule.matchAt index tokens) := by
  cases rule with
  | char => exact room.charAt_agrees index h
  | boundaryChar => exact room.boundaryCharAt_agrees index h
  | anyToken => exact room.anyTokenAt_agrees index h
  | boldAsterisk => exact room.styledAt_agrees _ index h
  | boldUnderscore => exact room.styledAt_agrees _ index h
  | bold => exact room.boldAt_agrees index h
  | italicAsterisk => exact room.styledAt_agrees _ index h
  | italicUnderscore => exact room.styledAt_agrees _ index h
  | italic => exact room.italicAt_agrees index h
  | strikethrough => exact room.styledAt_agrees _ index h
  | code => exact room.codeAt_agrees index h
  | link => exact room.linkAt_agrees index h
  | style => exact room.styleAt_agrees index h
  | segment =>
      cases hfront : Segment.front? (tokens.drop index) with
      | none =>
          rw [Rule.matchIndexed, room.segmentAt_of_front?_eq_none h hfront, Rule.matchAt,
            Matcher.matchAt, Rule.matcher, Matcher.segment, hfront]
          rfl
      | some segment =>
          rw [Rule.matchIndexed, room.segmentAt_of_front?_eq_some h hfront,
            Logging.run'_log_bind_pure, Rule.matchAt, Matcher.matchAt, Rule.matcher,
            Matcher.segment, hfront]
          rfl
  | markdown =>
      rw [Rule.matchIndexed, room.markdownAt_eq index h, Logging.run'_log_bind_pure]
      rfl

end IndexRoom

/-- A parse by index reports what the parse reports, and has its outcome. -/
theorem IndexRoom.parseAt_eq {limit : Option Nat} {line : String} {bound : Nat}
    (room : IndexRoom limit (tokenize line) bound) :
    Indexing.parseAt limit line = Logging.log (report line).notices >>= fun _ =>
      pure (report line).outcome := by
  rw [Indexing.parseAt, room.markdownAt_eq 0 (Nat.zero_le _), report, Matcher.matchAt,
    List.drop_zero, Matcher.markdown]
  cases Match.ofSegments? (tokenize line) (Segment.cut (tokenize line)) with
  | none =>
      dsimp only
      rw [Logging.log_cons _ (Notice.ofSegments 0 _)]
      simp only [Option.map_none, bind_assoc, pure_bind]
  | some found =>
      dsimp only
      rw [List.cons_append, Logging.log_cons _ (Notice.ofSegments 0 _ ++ _), Logging.log_append]
      simp only [Option.map_some, Match.nodes_shift, bind_assoc, pure_bind]

end LineMarkup
