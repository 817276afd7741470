import LineMarkup.Proofs.IndexRoom
import LineMarkup.Proofs.Outcome
import LineMarkup.Proofs.Pieces
import Mathlib.Algebra.GroupWithZero.Nat

/-!
# The markers that a report names

Every marker of a line either is a delimiter of a span or is kept as plain text. A parse
reports the markers of the second sort as it meets them, each of them once and from left to
right, and no attempt that fails reports anything. So the markers of a line are counted by
what is logged and by the delimiters of its nodes.
-/

namespace LineMarkup

/-- Whether a token is neither a literal character nor an end mark. -/
def Token.isMarker (token : Token) : Bool := !token.isChar && token != .endMark

theorem Token.isMarker_of_literal? {token : Token} {c : Char} (h : token.literal? = some c) :
    token.isMarker = !token.isChar := by
  cases token <;> simp [literal?, isMarker, isChar] at h ⊢

/-- The names of markers tell them apart. -/
theorem Token.label_inj_of_isMarker {token other : Token} (htoken : token.isMarker = true)
    (hother : other.isMarker = true) (h : token.label = other.label) : token = other := by
  cases token <;> cases other <;> simp_all [isMarker, isChar, label]

/-- The number of markers that a node is written with: two fences of two markers for a bold
span, two of one for any other span, and four brackets for a link. -/
def Node.delimiters : Node → Nat
  | .text _ => 0
  | .span .bold _ => 4
  | .span _ _ => 2
  | .link _ _ => 4

/-- Whether an index lies in a span or a link, where the nodes stand between cut points. -/
def InSpan (cuts : Nat → Nat) (nodes : List Node) (index : Nat) : Prop :=
  ∃ j, ∃ hj : j < nodes.length,
    nodes[j].isText = false ∧ cuts j ≤ index ∧ index < cuts (j + 1)

/-! ## Kept markers of segments -/

namespace Segment

/-- The marker that a segment keeps as plain text, if it is a single marker. -/
def keptMarker? : Segment → Option Token
  | .kept token _ => if token.isChar then none else some token
  | .styled _ => none

theorem keptMarker?_eq_some_iff {segment : Segment} {token : Token} :
    segment.keptMarker? = some token ↔ token.isChar = false ∧ ∃ c, segment = .kept token c := by
  constructor
  · intro h
    cases segment with
    | styled found => cases h
    | kept own c =>
        rw [keptMarker?] at h
        split at h
        next => cases h
        next hchar =>
          cases h
          exact ⟨by simpa using hchar, c, rfl⟩
  · rintro ⟨hchar, c, rfl⟩
    simp [keptMarker?, hchar]

/-- The kept markers of segments that follow each other from an index on, with the places
where they stand. -/
def keptMarkers (index : Nat) : List Segment → List (Nat × Token)
  | [] => []
  | segment :: rest =>
      segment.keptMarker?.toList.map (index, ·) ++ keptMarkers (index + segment.size) rest

theorem keptMarkers_styled_cons (index : Nat) (found : Match) (rest : List Segment) :
    keptMarkers index (.styled found :: rest) = keptMarkers (index + found.stop) rest := by
  simp [keptMarkers, keptMarker?, size, toMatch]

theorem length_keptMarkers_kept_cons (index : Nat) (token : Token) (c : Char)
    (rest : List Segment) :
    (keptMarkers index (.kept token c :: rest)).length =
      (if !token.isChar then 1 else 0) + (keptMarkers (index + 1) rest).length := by
  cases hchar : token.isChar <;>
    simp [keptMarkers, keptMarker?, hchar, size, toMatch, Match.single, Nat.add_comm]

/-- Nothing but kept markers is reported of segments. -/
theorem ofSegments_eq_map_keptMarkers (index : Nat) (segments : List Segment) :
    Notice.ofSegments index segments =
      (keptMarkers index segments).map fun kept => .keptMarker kept.1 kept.2 := by
  induction segments generalizing index with
  | nil => rfl
  | cons segment rest ih =>
      rw [Notice.ofSegments, keptMarkers, List.map_append, ih]
      congr 1
      cases segment with
      | styled found => rfl
      | kept token c => cases hchar : token.isChar <;> simp [Notice.ofSegment, keptMarker?, hchar]

/-- Each kept marker stands where its segment begins. -/
theorem mem_keptMarkers_iff {segments : List Segment} {index k : Nat} {token : Token} :
    (k, token) ∈ keptMarkers index segments ↔
      ∃ j segment, segments[j]? = some segment ∧ segment.keptMarker? = some token ∧
        k = index + cutPoint segments j := by
  induction segments generalizing index with
  | nil => simp [keptMarkers]
  | cons first rest ih =>
      have hfirst : (k, token) ∈ first.keptMarker?.toList.map (index, ·) ↔
          first.keptMarker? = some token ∧ k = index := by
        simp [eq_comm, and_comm]
      rw [keptMarkers, List.mem_append, hfirst, ih]
      constructor
      · rintro (⟨hkept, rfl⟩ | ⟨j, segment, hsegment, hkept, rfl⟩)
        · exact ⟨0, first, by simp, hkept, by simp⟩
        · refine ⟨j + 1, segment, by simpa using hsegment, hkept, ?_⟩
          rw [cutPoint_cons_succ, Nat.add_assoc]
      · rintro ⟨j, segment, hsegment, hkept, rfl⟩
        cases j with
        | zero =>
            rw [List.getElem?_cons_zero, Option.some.injEq] at hsegment
            subst hsegment
            exact .inl ⟨hkept, by simp⟩
        | succ j =>
            rw [List.getElem?_cons_succ] at hsegment
            refine .inr ⟨j, segment, hsegment, hkept, ?_⟩
            rw [cutPoint_cons_succ, Nat.add_assoc]

theorem le_of_mem_keptMarkers {segments : List Segment} {index : Nat} {kept : Nat × Token}
    (h : kept ∈ keptMarkers index segments) : index ≤ kept.1 := by
  obtain ⟨j, _, _, _, hplace⟩ := mem_keptMarkers_iff.mp h
  omega

/-- Kept markers are listed from left to right. -/
theorem pairwise_keptMarkers (index : Nat) (segments : List Segment) :
    (keptMarkers index segments).Pairwise (fun left right => left.1 < right.1) := by
  induction segments generalizing index with
  | nil => exact .nil
  | cons first rest ih =>
      cases hkept : first.keptMarker? with
      | none => simpa [keptMarkers, hkept] using ih (index + first.size)
      | some token =>
          -- A marker that is kept is a segment of its own, so the others stand behind it.
          obtain ⟨_, c, rfl⟩ := keptMarker?_eq_some_iff.mp hkept
          simp only [keptMarkers, hkept, Option.toList_some, List.map_singleton,
            List.singleton_append, List.pairwise_cons]
          refine ⟨?_, ih _⟩
          intro other hother
          exact le_of_mem_keptMarkers hother

/-! ## Kept markers of a token list -/

/-- A token that is kept lies in no span. -/
theorem not_inSpan_of_kept {tokens : List Token} {j : Nat} {token : Token} {c : Char}
    (h : (cut tokens)[j]? = some (.kept token c)) :
    ¬ InSpan (cutPoint (cut tokens)) (cutNodes tokens) (cutPoint (cut tokens) j) := by
  rintro ⟨i, hi, htext, hle, hlt⟩
  have hnext := cutPoint_succ_of_kept h
  obtain rfl : i = j := eq_of_cutPoint_le_lt hle hlt (Nat.le_refl _) (by omega)
  have hnode : [.ofChar c] = [(cutNodes tokens)[i]] := nodes_getElem_cut h hi
  rw [List.cons.injEq] at hnode
  rw [← hnode.1, Node.isText_ofChar] at htext
  cases htext

/-- All tokens of a phrase lie in its span. -/
theorem inSpan_of_styled {tokens : List Token} {j k : Nat} {found : Match}
    (h : (cut tokens)[j]? = some (.styled found))
    (hle : cutPoint (cut tokens) j ≤ k) (hlt : k < cutPoint (cut tokens) (j + 1)) :
    InSpan (cutPoint (cut tokens)) (cutNodes tokens) k := by
  obtain ⟨phrase, rfl⟩ := exists_phrase_of_getElem?_cut h
  have hj : j < (cutNodes tokens).length := by
    rw [length_cutNodes]
    exact (List.getElem?_eq_some_iff.mp h).1
  have hnode : [phrase.node] = [(cutNodes tokens)[j]] := nodes_getElem_cut h hj
  rw [List.cons.injEq] at hnode
  refine ⟨j, hj, ?_, hle, hlt⟩
  rw [← hnode.1, phrase.isText_node]

/-- The kept markers of a token list are those in front of its end mark that lie in no
span. -/
theorem mem_keptMarkers_cut_iff {tokens : List Token} {k : Nat} {token : Token} :
    (k, token) ∈ keptMarkers 0 (cut tokens) ↔
      k < totalSize (cut tokens) ∧ tokens[k]? = some token ∧ token.isMarker = true ∧
        ¬ InSpan (cutPoint (cut tokens)) (cutNodes tokens) k := by
  rw [mem_keptMarkers_iff]
  constructor
  · rintro ⟨j, segment, hsegment, hkept, rfl⟩
    obtain ⟨hchar, c, rfl⟩ := keptMarker?_eq_some_iff.mp hkept
    obtain ⟨htoken, hliteral⟩ := getElem?_of_getElem?_cut hsegment
    rw [Nat.zero_add]
    refine ⟨?_, htoken, ?_, not_inSpan_of_kept hsegment⟩
    · have hnext := cutPoint_succ_of_kept hsegment
      have hle := cutPoint_succ_le_totalSize hsegment
      omega
    · simp [Token.isMarker_of_literal? hliteral, hchar]
  · rintro ⟨hbound, htoken, hmarker, hspan⟩
    obtain ⟨j, segment, hsegment, hle, hlt⟩ := exists_cutPoint_le_lt hbound
    cases segment with
    | styled found => exact absurd (inSpan_of_styled hsegment hle hlt) hspan
    | kept own c =>
        obtain ⟨hown, hliteral⟩ := getElem?_of_getElem?_cut hsegment
        have hnext := cutPoint_succ_of_kept hsegment
        obtain rfl : k = cutPoint (cut tokens) j := by omega
        obtain rfl : own = token := Option.some.inj (hown.symm.trans htoken)
        refine ⟨j, .kept own c, hsegment, ?_, (Nat.zero_add _).symm⟩
        apply keptMarker?_eq_some_iff.mpr
        rw [Token.isMarker_of_literal? hliteral] at hmarker
        exact ⟨by simpa using hmarker, c, rfl⟩

end Segment

/-! ## Counting markers -/

@[simp] theorem Token.isMarker_comp_char : isMarker ∘ Token.char = fun _ => false := by
  funext c
  simp [isMarker, isChar]

namespace StyledSpan

variable (span : StyledSpan)

theorem countP_isMarker_fence : span.fence.countP Token.isMarker = span.arity := by
  have hmarker : span.marker.isMarker = true := by
    cases span <;> simp [marker, Token.isMarker, Token.isChar]
  simp [fence, List.countP_replicate, hmarker]

theorem delimiters_eq (children : List Node) :
    (Node.span span.kind children).delimiters = 2 * span.arity := by
  cases span <;> simp [kind, arity, Node.delimiters]

end StyledSpan

/-- A phrase is written with its delimiters and no other marker. -/
theorem Phrase.countP_isMarker_tokens (phrase : Phrase) :
    phrase.tokens.countP Token.isMarker = phrase.node.delimiters := by
  cases phrase with
  | styled span content =>
      rw [tokens, node, span.delimiters_eq, List.countP_append, List.countP_append,
        span.countP_isMarker_fence]
      simp [Nat.two_mul]
  | code content =>
      simp [tokens, Token.isMarker, Token.isChar, node, Node.delimiters]
  | link label address =>
      simp [tokens, Token.isMarker, Token.isChar, node, Node.delimiters]

/-- Every marker in front of the end mark is kept or is a delimiter of a node. -/
theorem Segment.countP_isMarker_beforeEnd (tokens : List Token) (index : Nat) :
    (Token.beforeEnd tokens).countP Token.isMarker =
      (keptMarkers index (cut tokens)).length + ((cutNodes tokens).map Node.delimiters).sum := by
  induction tokens using cut_induction generalizing index with
  | nil => simp [keptMarkers]
  | endMark rest => simp [keptMarkers]
  | phrase phrase rest hsound ih =>
      rw [Token.beforeEnd_append phrase.endMark_notMem_tokens, List.countP_append,
        phrase.countP_isMarker_tokens, ih (index + phrase.toMatch.stop), cut_phrase_append hsound,
        cutNodes_phrase_append hsound, keptMarkers_styled_cons, List.map_cons, List.sum_cons]
      exact Nat.add_left_comm _ _ _
  | kept token c rest hstyle hliteral ih =>
      have htext : (Node.ofChar c).delimiters = 0 := by simp [Node.ofChar, Node.delimiters]
      rw [Token.beforeEnd_cons_of_literal? hliteral, List.countP_cons, ih (index + 1),
        cut_cons_of_style_eq_none hstyle hliteral,
        cutNodes_cons_of_style_eq_none hstyle hliteral, Token.isMarker_of_literal? hliteral,
        length_keptMarkers_kept_cons, List.map_cons, List.sum_cons, htext]
      omega

/-! ## The notices of a parse -/

/-- What a parse reports, in order: how many tokens there are, the markers that are kept, and
how many nodes there are, unless the line is empty. -/
theorem notices_report (line : String) :
    (report line).notices =
      .parsing (tokenize line).length ::
        (Segment.keptMarkers 0 (Segment.cut (tokenize line))).map
          (fun kept => .keptMarker kept.1 kept.2) ++
        (if line = "" then [] else [.parsed (Segment.cutNodes (tokenize line)).length]) := by
  have hmarkdown := Matcher.markdown_eq (tokenize line)
  rw [Matcher.markdown] at hmarkdown
  rw [report, hmarkdown, ← Segment.ofSegments_eq_map_keptMarkers]
  by_cases hempty : line = ""
  · rw [if_pos ((beforeEnd_tokenize_eq_nil_iff line).mpr hempty), if_pos hempty, List.append_nil]
  · have hne := mt (beforeEnd_tokenize_eq_nil_iff line).mp hempty
    rw [if_neg hne, if_neg hempty]

/-- Kept markers are traced, and nothing else is. -/
theorem countP_trace_notices_report (line : String) :
    (report line).notices.countP (fun notice => notice.level = .trace) =
      (Segment.keptMarkers 0 (Segment.cut (tokenize line))).length := by
  have hkept : (fun notice : Notice => decide (notice.level = .trace)) ∘
      (fun mark : Nat × Token => Notice.keptMarker mark.1 mark.2) = fun _ => true := by
    funext mark
    simp [Notice.level]
  rw [notices_report, List.countP_append, List.countP_cons, List.countP_map, hkept,
    List.countP_true]
  by_cases hempty : line = "" <;> simp [hempty, Notice.level]

/-- A marker of a line stands in front of its end mark. -/
theorem Token.lt_length_beforeEnd_tokenize {line : String} {k : Nat} {token : Token}
    (h : (tokenize line)[k]? = some token) (hmarker : token.isMarker = true) :
    k < (beforeEnd (tokenize line)).length := by
  rw [beforeEnd_tokenize]
  by_contra hnot
  rw [tokenize, List.getElem?_append_right (Nat.le_of_not_lt hnot)] at h
  obtain rfl := List.mem_singleton.mp (List.mem_of_getElem? h)
  cases hmarker

theorem countP_isMarker_tokenize (line : String) :
    (tokenize line).countP Token.isMarker =
      (Token.beforeEnd (tokenize line)).countP Token.isMarker := by
  rw [beforeEnd_tokenize, tokenize, List.countP_append]
  simp [Token.isMarker]

/-- A parse by index logs what is reported. -/
theorem run_parseAt (line : String) :
    (Indexing.parseAt none line).run [] = .ok (parse line, (report line).notices) := by
  rw [(IndexRoom.unbounded 0 (tokenize line)).parseAt_eq, Logging.run_log_bind_pure, parse]

/-- The log of a parse: its counts are for debugging, and each marker that is kept is traced with
its place and its name. -/
theorem records_report (line : String) :
    (report line).notices.map Notice.record =
      ("DEBUG", "parsing " ++ toString (tokenize line).length ++ " tokens") ::
        (Segment.keptMarkers 0 (Segment.cut (tokenize line))).map
          (fun kept => ("TRACE", "no style matched at " ++ toString kept.1 ++ "; " ++
            kept.2.label ++ " kept as literal text")) ++
        (if line = "" then []
        else [("DEBUG", "parsed " ++ toString (Segment.cutNodes (tokenize line)).length ++
          " top-level nodes")]) := by
  rw [notices_report, List.map_append, List.map_cons, List.map_map]
  congr 1
  by_cases hempty : line = ""
  · rw [if_pos hempty, if_pos hempty, List.map_nil]
  · rw [if_neg hempty, if_neg hempty]
    rfl

/-- A parse logs, as it goes along the tokens, their number, then from left to right the markers
that lie in no span or link of its result, each with its place and its name, and last, unless the
line is empty, the number of nodes. So the markers of a line are those traced and the delimiters
of the nodes. -/
theorem report_accounts_for_markers (line : String) :
    ∃ (nodes : List Node) (cuts : Nat → Nat) (kept : List (Nat × Token)),
      parse line = (if line = "" then .error .emptyInput else .ok nodes) ∧
      cuts 0 = 0 ∧ cuts nodes.length = Token.endIndex (tokenize line) 0 ∧
      (∀ j (hj : j < nodes.length), CutStep (tokenize line) (cuts j) (cuts (j + 1)) nodes[j]) ∧
      (Indexing.parseAt none line).run [] = .ok (parse line, (report line).notices) ∧
      (report line).notices =
        .parsing (tokenize line).length :: kept.map (fun mark => .keptMarker mark.1 mark.2) ++
          (if line = "" then [] else [.parsed nodes.length]) ∧
      (report line).notices.map Notice.record =
        ("DEBUG", "parsing " ++ toString (tokenize line).length ++ " tokens") ::
          kept.map (fun mark => ("TRACE", "no style matched at " ++ toString mark.1 ++ "; " ++
            mark.2.label ++ " kept as literal text")) ++
          (if line = "" then []
          else [("DEBUG", "parsed " ++ toString nodes.length ++ " top-level nodes")]) ∧
      kept.Pairwise (fun left right => left.1 < right.1) ∧
      (∀ k token, (k, token) ∈ kept ↔
        (tokenize line)[k]? = some token ∧ token.isMarker = true ∧ ¬ InSpan cuts nodes k) ∧
      (∀ mark ∈ kept, ∀ token : Token, token.isMarker = true → token.label = mark.2.label →
        token = mark.2) ∧
      (tokenize line).countP Token.isMarker =
        (report line).notices.countP (fun notice => notice.level = .trace) +
          (nodes.map Node.delimiters).sum := by
  have hcover := Segment.totalSize_cut (tokenize line)
  have hkept : ∀ k token, (k, token) ∈ Segment.keptMarkers 0 (Segment.cut (tokenize line)) ↔
      (tokenize line)[k]? = some token ∧ token.isMarker = true ∧
        ¬ InSpan (Segment.cutPoint (Segment.cut (tokenize line)))
          (Segment.cutNodes (tokenize line)) k := by
    intro k token
    rw [Segment.mem_keptMarkers_cut_iff, hcover]
    constructor
    · exact fun h => h.2
    · intro h
      exact ⟨Token.lt_length_beforeEnd_tokenize h.1 h.2.1, h⟩
  refine ⟨Segment.cutNodes (tokenize line), Segment.cutPoint (Segment.cut (tokenize line)),
    Segment.keptMarkers 0 (Segment.cut (tokenize line)), ?_, Segment.cutPoint_zero _, ?_,
    fun j hj => Segment.cutStep_cutPoint _ hj, run_parseAt line, notices_report line,
    records_report line, Segment.pairwise_keptMarkers _ _, hkept, ?_, ?_⟩
  · by_cases hempty : line = ""
    · rw [hempty, parse_empty, if_pos rfl]
    · rw [parse_of_ne_empty hempty, if_neg hempty]
  · rw [Segment.length_cutNodes, Segment.cutPoint_length, hcover, Token.length_beforeEnd,
      Token.endIndex, Nat.zero_add, List.drop_zero]
  · intro mark hmark token htoken hlabel
    exact Token.label_inj_of_isMarker htoken ((hkept _ _).mp hmark).2.1 hlabel
  · rw [countP_isMarker_tokenize, Segment.countP_isMarker_beforeEnd _ 0,
      countP_trace_notices_report]

example : (report "*a **b**").notices = [.parsing 9, .keptMarker 0 .asterisk, .parsed 4] := by
  cbv

end LineMarkup
