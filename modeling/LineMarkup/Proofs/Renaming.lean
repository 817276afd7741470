import LineMarkup.Proofs.Pieces

/-!
# Renaming of tokens

A renaming changes literal characters, but no blank into another character or the other way
round, and it may exchange asterisks and underscores. It does not change where a line is
styled: the styles accept the same tokens, with the characters of their nodes renamed, and a
token that was kept is kept as the character that its new token stands for.
-/

namespace LineMarkup

/-- A change of tokens that keeps boundary blanks apart from other characters. -/
structure Renaming where
  /-- Asterisks become underscores and underscores become asterisks. -/
  exchange : Bool
  onChar : Char → Char
  isBoundaryBlank_onChar : ∀ c, Text.isBoundaryBlank (onChar c) = Text.isBoundaryBlank c

namespace Renaming

variable (r : Renaming)

def token : Token → Token
  | .asterisk => if r.exchange then .underscore else .asterisk
  | .underscore => if r.exchange then .asterisk else .underscore
  | .char c => .char (r.onChar c)
  | other => other

@[simp] theorem token_char (c : Char) : r.token (.char c) = .char (r.onChar c) := rfl

@[simp] theorem token_endMark : r.token .endMark = .endMark := rfl

@[simp] theorem token_comp_char : r.token ∘ Token.char = Token.char ∘ r.onChar := rfl

@[simp] theorem isChar_token (token : Token) : (r.token token).isChar = token.isChar := by
  cases token <;> simp only [Renaming.token] <;> try split
  all_goals rfl

/-- Markers are fixed or exchanged in pairs. -/
theorem token_token {token : Token} (h : token.isChar = false) :
    r.token (r.token token) = token := by
  cases hexchange : r.exchange <;> cases token <;>
    simp [Renaming.token, hexchange, Token.isChar] at h ⊢

theorem token_eq_endMark_iff (token : Token) : r.token token = .endMark ↔ token = .endMark := by
  cases token <;> simp only [Renaming.token] <;> try split
  all_goals simp

/-- The way to write a span that a renamed span is written in. -/
def span : StyledSpan → StyledSpan
  | .boldAsterisk => if r.exchange then .boldUnderscore else .boldAsterisk
  | .boldUnderscore => if r.exchange then .boldAsterisk else .boldUnderscore
  | .italicAsterisk => if r.exchange then .italicUnderscore else .italicAsterisk
  | .italicUnderscore => if r.exchange then .italicAsterisk else .italicUnderscore
  | .strikethrough => .strikethrough

theorem fence_span (span : StyledSpan) : (r.span span).fence = span.fence.map r.token := by
  cases hexchange : r.exchange <;> cases span <;>
    simp [Renaming.span, hexchange, StyledSpan.fence, StyledSpan.marker, StyledSpan.arity,
      Renaming.token]

theorem kind_span (span : StyledSpan) : (r.span span).kind = span.kind := by
  cases hexchange : r.exchange <;> cases span <;> simp [Renaming.span, hexchange, StyledSpan.kind]

theorem span_span (span : StyledSpan) : r.span (r.span span) = span := by
  cases hexchange : r.exchange <;> cases span <;> simp [Renaming.span, hexchange]

theorem firmEdges_map_iff (cs : List Char) :
    Text.FirmEdges (cs.map r.onChar) ↔ Text.FirmEdges cs := by
  have hedge (edge : Option Char) :
      (∀ c ∈ edge.map r.onChar, Text.isBoundaryBlank c = false) ↔
        ∀ c ∈ edge, Text.isBoundaryBlank c = false := by
    cases edge <;> simp [r.isBoundaryBlank_onChar]
  constructor
  · intro h
    refine ⟨(hedge _).mp ?_, (hedge _).mp ?_⟩
    · simpa only [List.head?_map] using h.head
    · simpa only [List.getLast?_map] using h.last
  · intro h
    refine ⟨?_, ?_⟩
    · simpa only [List.head?_map] using (hedge _).mpr h.head
    · simpa only [List.getLast?_map] using (hedge _).mpr h.last

end Renaming

/-! ## Renamed nodes -/

namespace Node

mutual

/-- A node with every character of its texts changed. -/
def mapChars (f : Char → Char) : Node → Node
  | .text content => .text (content.map f)
  | .span kind children => .span kind (mapAllChars f children)
  | .link label address => .link (mapAllChars f label) (mapAllChars f address)

/-- A node list with every character of its texts changed. -/
def mapAllChars (f : Char → Char) : List Node → List Node
  | [] => []
  | node :: rest => node.mapChars f :: mapAllChars f rest

end

theorem mapChars_ofChar (f : Char → Char) (c : Char) : (ofChar c).mapChars f = ofChar (f c) := by
  rw [ofChar, mapChars, ofChar]
  congr 1
  apply String.toList_injective
  simp

theorem mapAllChars_ofChars (f : Char → Char) (cs : List Char) :
    mapAllChars f (ofChars cs) = ofChars (cs.map f) := by
  induction cs with
  | nil => rfl
  | cons c cs ih =>
      change (ofChar c).mapChars f :: mapAllChars f (ofChars cs) = _
      rw [mapChars_ofChar, ih]
      rfl

end Node

/-- An acceptance with every character of its nodes changed. -/
def Match.mapChars (f : Char → Char) (found : Match) : Match :=
  { found with nodes := Node.mapAllChars f found.nodes }

/-! ## Renamed phrases -/

namespace Phrase

variable (r : Renaming)

def rename : Phrase → Phrase
  | .styled span content => .styled (r.span span) (content.map r.onChar)
  | .code content => .code (content.map r.onChar)
  | .link label address => .link (label.map r.onChar) (address.map r.onChar)

theorem tokens_rename (phrase : Phrase) : (phrase.rename r).tokens = phrase.tokens.map r.token := by
  cases phrase with
  | styled span content => simp [rename, tokens, r.fence_span]
  | code content => simp [rename, tokens, Renaming.token]
  | link label address => simp [rename, tokens, Renaming.token]

theorem sound_rename_iff (phrase : Phrase) : (phrase.rename r).Sound ↔ phrase.Sound := by
  cases phrase <;> simp [rename, Sound, r.firmEdges_map_iff]

theorem node_rename (phrase : Phrase) : (phrase.rename r).node = phrase.node.mapChars r.onChar := by
  cases phrase <;> simp [rename, node, Node.mapChars, r.kind_span, Node.mapAllChars_ofChars]

theorem toMatch_rename (phrase : Phrase) :
    (phrase.rename r).toMatch = phrase.toMatch.mapChars r.onChar := by
  rw [toMatch, tokens_rename, List.length_map, node_rename]
  rfl

end Phrase

/-! ## Phrases of renamed tokens -/

namespace Renaming

variable (r : Renaming)

/-- Tokens that become literal characters were literal characters. -/
theorem exists_eq_map_char {tokens : List Token} {cs : List Char}
    (h : tokens.map r.token = cs.map .char) :
    ∃ ds : List Char, ds.map r.onChar = cs ∧ tokens = ds.map .char := by
  induction tokens generalizing cs with
  | nil =>
      refine ⟨[], ?_, rfl⟩
      simpa using h.symm
  | cons token rest ih =>
      cases cs with
      | nil => simp at h
      | cons c cs =>
          simp only [List.map_cons, List.cons.injEq] at h
          obtain ⟨ds, rfl, rfl⟩ := ih h.2
          have hchar : token.isChar = true := by
            rw [← r.isChar_token, h.1]
            rfl
          cases token with
          | char d =>
              rw [token_char, Token.char.injEq] at h
              exact ⟨d :: ds, by simp [h.1], rfl⟩
          | _ => cases hchar

/-- Tokens that become markers were the markers that these become. -/
theorem eq_map_of_map_eq {tokens markers : List Token} (h : tokens.map r.token = markers)
    (hmarkers : ∀ marker ∈ markers, marker.isChar = false) : tokens = markers.map r.token := by
  subst h
  rw [List.map_map]
  have hself : tokens.map id = tokens.map (r.token ∘ r.token) := by
    apply List.map_congr_left
    intro token htoken
    have hmarker := hmarkers _ (List.mem_map_of_mem htoken)
    rw [r.isChar_token] at hmarker
    exact (r.token_token hmarker).symm
  rwa [List.map_id] at hself

/-- Markers, a literal run and the rest are told apart in the tokens that become them. -/
theorem exists_append_of_map_eq (opening : List Token) {tokens closing : List Token}
    {cs : List Char} (h : tokens.map r.token = opening ++ (cs.map .char ++ closing))
    (hopening : ∀ marker ∈ opening, marker.isChar = false) :
    ∃ (ds : List Char) (rest : List Token), ds.map r.onChar = cs ∧ rest.map r.token = closing ∧
      tokens = opening.map r.token ++ (ds.map .char ++ rest) := by
  obtain ⟨front, behind, rfl, hfront, hbehind⟩ := List.map_eq_append_iff.mp h
  obtain ⟨run, rest, rfl, hrun, hrest⟩ := List.map_eq_append_iff.mp hbehind
  obtain ⟨ds, hds, rfl⟩ := r.exists_eq_map_char hrun
  exact ⟨ds, rest, hds, hrest, by rw [r.eq_map_of_map_eq hfront hopening]⟩

/-- Tokens that become a phrase are a phrase. -/
theorem exists_rename_eq {tokens : List Token} {phrase : Phrase}
    (h : tokens.map r.token = phrase.tokens) :
    ∃ source : Phrase, source.rename r = phrase ∧ source.tokens = tokens := by
  cases phrase with
  | styled span content =>
      have hfence : ∀ marker ∈ span.fence, marker.isChar = false := by
        intro marker hmarker
        rw [List.eq_of_mem_replicate hmarker]
        exact span.isChar_marker
      obtain ⟨ds, rest, rfl, hrest, rfl⟩ := r.exists_append_of_map_eq span.fence h hfence
      refine ⟨.styled (r.span span) ds, ?_, ?_⟩
      · rw [Phrase.rename, r.span_span]
      · rw [r.eq_map_of_map_eq hrest hfence, Phrase.tokens, r.fence_span]
  | code content =>
      obtain ⟨ds, rest, rfl, hrest, rfl⟩ :=
        r.exists_append_of_map_eq [.backtick] h (by simp [Token.isChar])
      refine ⟨.code ds, rfl, ?_⟩
      rw [r.eq_map_of_map_eq hrest (by simp [Token.isChar])]
      rfl
  | link label address =>
      obtain ⟨ds, behind, rfl, hbehind, rfl⟩ :=
        r.exists_append_of_map_eq [.leftBracket] h (by simp [Token.isChar])
      obtain ⟨es, rest, rfl, hrest, rfl⟩ :=
        r.exists_append_of_map_eq [.rightBracket, .leftParen] hbehind
          (by simp [Token.isChar])
      refine ⟨.link ds es, rfl, ?_⟩
      rw [r.eq_map_of_map_eq hrest (by simp [Token.isChar])]
      rfl

/-! ## Renamed acceptances -/

/-- The styles accept renamed tokens exactly where they accept the tokens. -/
theorem style_map_token (tokens : List Token) :
    Matcher.style (tokens.map r.token) = (Matcher.style tokens).map (·.mapChars r.onChar) := by
  ext found
  rw [Matcher.style_eq_some_iff, Option.map_eq_some_iff]
  constructor
  · rintro ⟨phrase, hsound, ⟨tail, htail⟩, rfl⟩
    obtain ⟨front, rest, rfl, hfront, _⟩ := List.append_eq_map_iff.mp htail
    obtain ⟨source, rfl, rfl⟩ := r.exists_rename_eq hfront
    refine ⟨source.toMatch, ?_, (source.toMatch_rename r).symm⟩
    exact Matcher.style_phrase_append ((source.sound_rename_iff r).mp hsound) rest
  · rintro ⟨found, hfound, rfl⟩
    obtain ⟨phrase, hsound, ⟨rest, rfl⟩, rfl⟩ := Matcher.style_eq_some_iff.mp hfound
    refine ⟨phrase.rename r, (phrase.sound_rename_iff r).mpr hsound, ?_,
      (phrase.toMatch_rename r).symm⟩
    rw [phrase.tokens_rename, List.map_append]
    exact List.prefix_append _ _

end Renaming

/-! ## Renamed cuts -/

namespace Segment

variable (r : Renaming)

/-- A segment of renamed tokens. A kept token stands for the character of its new token. -/
def rename : Segment → Segment
  | .styled found => .styled (found.mapChars r.onChar)
  | .kept token c => .kept (r.token token) ((r.token token).literal?.getD c)

theorem kept_rename {token : Token} {c : Char} (h : token.literal? = some c) :
    ∃ d, (r.token token).literal? = some d ∧ (kept token c).rename r = .kept (r.token token) d := by
  rcases (r.token token).eq_endMark_or_exists_literal? with hend | ⟨d, hd⟩
  · rw [r.token_eq_endMark_iff] at hend
    exact absurd hend (Token.ne_endMark_of_literal? h)
  · exact ⟨d, hd, by rw [rename, hd, Option.getD_some]⟩

/-- Renamed tokens are cut at the same places. -/
theorem cut_map_token (tokens : List Token) :
    cut (tokens.map r.token) = (cut tokens).map (rename r) := by
  induction tokens using cut_induction with
  | nil => simp
  | endMark rest => simp
  | phrase phrase rest hsound ih =>
      rw [List.map_append, ← phrase.tokens_rename,
        cut_phrase_append ((phrase.sound_rename_iff r).mpr hsound), cut_phrase_append hsound, ih,
        List.map_cons, rename, phrase.toMatch_rename]
  | kept token c rest hstyle hliteral ih =>
      obtain ⟨d, hd, hkept⟩ := kept_rename r hliteral
      have hstyle' : Matcher.style (r.token token :: rest.map r.token) = none := by
        rw [← List.map_cons, r.style_map_token, hstyle, Option.map_none]
      rw [List.map_cons, cut_cons_of_style_eq_none hstyle' hd,
        cut_cons_of_style_eq_none hstyle hliteral, List.map_cons, hkept, ih]

end Segment

theorem Token.beforeEnd_map (r : Renaming) (tokens : List Token) :
    beforeEnd (tokens.map r.token) = (beforeEnd tokens).map r.token := by
  rw [beforeEnd, List.takeWhile_map, beforeEnd]
  congr 2
  funext token
  simp [r.token_eq_endMark_iff]

/-- One piece of a token list, with the node that it makes and the node that it makes of the
renamed tokens: a styled node has its characters renamed, and the text of a single token
becomes the text of the renamed token. -/
structure RenamedStep (r : Renaming) (tokens : List Token) (start stop : Nat)
    (node image : Node) : Prop extends CutStep tokens start stop node where
  styled_image : (Matcher.style.matchAt start tokens).isSome →
    node.isText = false ∧ image = node.mapChars r.onChar
  kept_image : Matcher.style.matchAt start tokens = none →
    ∃ token c, tokens[start]? = some token ∧ (r.token token).literal? = some c ∧ image = .ofChar c

/-- A segment at the front of what an index leaves is one piece, also of the renamed tokens. -/
theorem renamedStep_of_front? {r : Renaming} {tokens : List Token} {start : Nat}
    {segment : Segment} {node image : Node}
    (h : Segment.front? (tokens.drop start) = some segment) (hnode : segment.nodes = [node])
    (himage : (segment.rename r).nodes = [image]) :
    RenamedStep r tokens start (start + segment.size) node image := by
  have hstep := Segment.cutStep_of_front? h hnode
  rcases Segment.front?_eq_some h with ⟨phrase, rest, hdrop, hsound, rfl⟩ |
    ⟨token, c, rest, hdrop, hstyle, hliteral, rfl⟩
  · refine ⟨hstep, ?_, ?_⟩
    · intro _
      cases hnode
      cases himage
      exact ⟨phrase.isText_node, rfl⟩
    · intro hnone
      rw [Matcher.matchAt, hdrop, Matcher.style_phrase_append hsound] at hnone
      cases hnone
  · refine ⟨hstep, ?_, ?_⟩
    · intro hsome
      rw [Matcher.matchAt, hstyle] at hsome
      cases hsome
    · intro _
      obtain ⟨d, hd, hkept⟩ := Segment.kept_rename r hliteral
      rw [hkept] at himage
      cases himage
      refine ⟨token, d, ?_, hd, rfl⟩
      rw [← List.head?_drop, hdrop, List.head?_cons]

/-- Cut points of a token list from one index to another, where each piece makes a node and,
of the renamed tokens, an image. -/
def HasRenamedSteps (r : Renaming) (tokens : List Token) (start stop : Nat)
    (nodes images : List Node) : Prop :=
  images.length = nodes.length ∧
    ∃ cuts : Nat → Nat, cuts 0 = start ∧ cuts nodes.length = stop ∧
      ∀ j (hj : j < nodes.length) (hj' : j < images.length),
        RenamedStep r tokens (cuts j) (cuts (j + 1)) nodes[j] images[j]

/-- The cuts of a token list and of the renamed one have the same cut points. -/
theorem hasRenamedSteps_cutNodes (r : Renaming) (tokens : List Token) (index : Nat) :
    HasRenamedSteps r tokens index (Token.endIndex tokens index)
      (Segment.cutNodes (tokens.drop index))
      (Segment.cutNodes ((tokens.drop index).map r.token)) := by
  rw [Token.endIndex, ← Token.length_beforeEnd, ← Segment.totalSize_cut]
  generalize hsegments : Segment.cut (tokens.drop index) = segments
  refine ⟨?_, fun j => index + Segment.cutPoint segments j, ?_, ?_, ?_⟩
  · rw [Segment.length_cutNodes, Segment.length_cutNodes, Segment.cut_map_token, List.length_map]
  · simp
  · beta_reduce
    rw [Segment.length_cutNodes, hsegments, Segment.cutPoint_length]
  · intro j hj hj'
    beta_reduce
    have hlt : j < segments.length := by rwa [Segment.length_cutNodes, hsegments] at hj
    have hsegment : segments[j]? = some segments[j] := List.getElem?_eq_getElem hlt
    have hfront := Segment.front?_drop_cutPoint (tokens.drop index) j
    rw [List.drop_drop, hsegments, hsegment] at hfront
    rw [Segment.cutPoint_succ hsegment, ← Nat.add_assoc]
    apply renamedStep_of_front? hfront
    · apply Segment.nodes_getElem_cut
      rw [hsegments, hsegment]
    · apply Segment.nodes_getElem_cut
      rw [Segment.cut_map_token, hsegments, List.getElem?_map, hsegment, Option.map_some]

/-- The styles accept renamed tokens at an index exactly if they accept the tokens there, with
the same stop and the characters of the node renamed. A whole list of renamed tokens is
accepted exactly if the list is, with the same stop and cut at the same places. -/
theorem matchAt_map_token (r : Renaming) (tokens : List Token) (index : Nat) :
    Matcher.style.matchAt index (tokens.map r.token) =
        (Matcher.style.matchAt index tokens).map (·.mapChars r.onChar) ∧
      ((Matcher.markdown.matchAt index tokens = none ∧
          Matcher.markdown.matchAt index (tokens.map r.token) = none) ∨
        ∃ found image, Matcher.markdown.matchAt index tokens = some found ∧
          Matcher.markdown.matchAt index (tokens.map r.token) = some image ∧
          image.stop = found.stop ∧
          HasRenamedSteps r tokens index (Token.endIndex tokens index) found.nodes
            image.nodes) := by
  have hdrop : (tokens.map r.token).drop index = (tokens.drop index).map r.token :=
    (List.map_drop ..).symm
  constructor
  · rw [Matcher.matchAt, hdrop, r.style_map_token, Matcher.matchAt, Option.map_map, Option.map_map]
    rfl
  · rw [Matcher.matchAt, Matcher.matchAt, hdrop, Matcher.markdown_eq, Matcher.markdown_eq,
      Token.beforeEnd_map, List.length_map]
    by_cases hempty : Token.beforeEnd (tokens.drop index) = []
    · left
      simp [hempty]
    · right
      have hmapped : (Token.beforeEnd (tokens.drop index)).map r.token ≠ [] := by
        simpa using hempty
      rw [if_neg hempty, if_neg hmapped]
      exact ⟨_, _, rfl, rfl, rfl, hasRenamedSteps_cutNodes r tokens index⟩

/-- The renaming that hides what is written: blanks stay, any other literal character becomes
an x, and asterisks and underscores are exchanged. -/
def Renaming.mask : Renaming where
  exchange := true
  onChar c := if Text.isBoundaryBlank c then c else 'x'
  isBoundaryBlank_onChar c := by
    cases hblank : Text.isBoundaryBlank c
    · simp; decide
    · simp [hblank]

example : Matcher.style.matchAt 1 ((tokenize "-**a b**").map Renaming.mask.token) =
    some (.single (.span .bold (Node.ofChars ['x', ' ', 'x'])) 8) := by
  decide

end LineMarkup
