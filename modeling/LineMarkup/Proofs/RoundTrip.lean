import LineMarkup.Proofs.Merged
import LineMarkup.Proofs.Writing

/-!
# Reading written nodes

Where markers are protected by backslashes, the written form of a valid list is read back
as that list, whatever follows it: characters are read one by one, delimiters are read as
fences, and a sound phrase at the front is cut off without looking behind it.
-/

namespace LineMarkup

/-- The characters that are literal only behind a backslash. -/
def Text.protectedChars : List Char := ['*', '_', '~', '\x60', '[', ']', '(', ')', '\\']

/-- The escaped spelling: a backslash may stand before any character, and it has to stand
before a protected one. -/
def Text.Escaped (c : Char) (w : List Char) : Prop :=
  w = ['\\', c] ∨ (w = [c] ∧ c ∉ Text.protectedChars)

theorem Text.exists_escaped (c : Char) : ∃ w, Text.Escaped c w := ⟨_, .inl rfl⟩

/-! ## Every tree has a written form -/

section Existence

variable {spells : Char → List Char → Prop}

theorem Text.exists_spelled (h : ∀ c, ∃ w, spells c w) (cs : List Char) :
    ∃ w, Text.Spelled spells cs w := by
  induction cs with
  | nil => exact ⟨[], .nil⟩
  | cons c cs ih =>
      obtain ⟨w, hw⟩ := h c
      obtain ⟨v, hv⟩ := ih
      exact ⟨w ++ v, .cons hw hv⟩

theorem SpanKind.fences_ne_nil (kind : SpanKind) : kind.fences ≠ [] := by
  cases kind <;> exact List.cons_ne_nil _ _

mutual

theorem Node.exists_written (h : ∀ c, ∃ w, spells c w) : (node : Node) →
    ∃ w, Node.Written spells node w
  | .text content => by
      obtain ⟨w, hw⟩ := Text.exists_spelled h content.toList
      exact ⟨w, .text hw⟩
  | .span kind children => by
      obtain ⟨fence, hfence⟩ := List.exists_mem_of_ne_nil _ kind.fences_ne_nil
      obtain ⟨w, hw⟩ := Node.exists_allWritten h children
      exact ⟨_, .span hfence hw⟩
  | .link label address => by
      obtain ⟨w, hw⟩ := Node.exists_allWritten h label
      obtain ⟨v, hv⟩ := Node.exists_allWritten h address
      exact ⟨_, .link hw hv⟩

theorem Node.exists_allWritten (h : ∀ c, ∃ w, spells c w) : (nodes : List Node) →
    ∃ w, Node.AllWritten spells nodes w
  | [] => ⟨[], .nil⟩
  | node :: rest => by
      obtain ⟨w, hw⟩ := Node.exists_written h node
      obtain ⟨v, hv⟩ := Node.exists_allWritten h rest
      exact ⟨w ++ v, .cons hw hv⟩

end

theorem Text.Spelled.append {cs ds w v : List Char} (hcs : Text.Spelled spells cs w)
    (hds : Text.Spelled spells ds v) : Text.Spelled spells (cs ++ ds) (w ++ v) := by
  induction hcs with
  | nil => exact hds
  | cons hspells _ ih =>
      rw [List.cons_append, List.append_assoc]
      exact .cons hspells ih

/-- A run of texts is written by spelling its joined text. -/
theorem Node.AllWritten.spelled_joinedText {children : List Node} {w : List Char}
    (h : Node.AllWritten spells children w)
    (htexts : ∀ child ∈ children, ∃ content, child = .text content) :
    Text.Spelled spells (Node.joinedText children) w := by
  induction children generalizing w with
  | nil =>
      cases h
      exact .nil
  | cons child rest ih =>
      cases h with
      | cons hchild hrest =>
          obtain ⟨content, rfl⟩ := htexts child List.mem_cons_self
          cases hchild with
          | text hspelled =>
              rw [Node.joinedText_text_cons]
              apply hspelled.append
              exact ih hrest fun child hchild => htexts child (List.mem_cons_of_mem _ hchild)

end Existence

/-! ## Reading characters and delimiters -/

namespace Token

/-- Characters that are read as certain tokens, whatever follows them. -/
def Reads (w : List Char) (tokens : List Token) : Prop :=
  ∀ rest, ofChars (w ++ rest) = tokens ++ ofChars rest

theorem Reads.nil : Reads [] [] := fun _ => rfl

theorem Reads.append {w v : List Char} {first second : List Token} (hfirst : Reads w first)
    (hsecond : Reads v second) : Reads (w ++ v) (first ++ second) := by
  intro rest
  rw [List.append_assoc, hfirst, hsecond, List.append_assoc]

theorem Reads.ofChars_eq {w : List Char} {tokens : List Token} (h : Reads w tokens) :
    ofChars w = tokens := by
  simpa [ofChars] using h []

theorem reads_singleton {c : Char} (h : c ≠ '\\') : Reads [c] [ofChar c] := by
  intro rest
  exact ofChars.eq_2 c rest fun _ _ hbackslash _ => h hbackslash

theorem ofChar_of_notMem {c : Char} (h : c ∉ Text.protectedChars) : ofChar c = .char c := by
  simp only [Text.protectedChars, List.mem_cons, List.not_mem_nil, or_false, not_or] at h
  simp [ofChar, h]

theorem reads_escaped {c : Char} {w : List Char} (h : Text.Escaped c w) : Reads w [.char c] := by
  rcases h with rfl | ⟨rfl, hplain⟩
  · exact fun _ => rfl
  · have hbackslash : c ≠ '\\' := by
      rintro rfl
      exact hplain (by decide)
    rw [← ofChar_of_notMem hplain]
    exact reads_singleton hbackslash

theorem reads_spelled {cs w : List Char} (h : Text.Spelled Text.Escaped cs w) :
    Reads w (cs.map .char) := by
  induction h with
  | nil => exact Reads.nil
  | cons hspells _ ih => exact (reads_escaped hspells).append ih

/-- A delimiter of a styled kind is read as the fence of a span of that kind. -/
theorem reads_fence {kind : SpanKind} {fence : List Char} (hfence : fence ∈ kind.fences)
    (hkind : kind ≠ .code) : ∃ span : StyledSpan, span.kind = kind ∧ Reads fence span.fence := by
  cases kind with
  | bold =>
      rcases List.mem_pair.mp hfence with rfl | rfl
      · exact ⟨.boldAsterisk, rfl, fun _ => rfl⟩
      · exact ⟨.boldUnderscore, rfl, fun _ => rfl⟩
  | italic =>
      rcases List.mem_pair.mp hfence with rfl | rfl
      · exact ⟨.italicAsterisk, rfl, fun _ => rfl⟩
      · exact ⟨.italicUnderscore, rfl, fun _ => rfl⟩
  | strikethrough =>
      rw [List.mem_singleton.mp hfence]
      exact ⟨.strikethrough, rfl, fun _ => rfl⟩
  | code => exact absurd rfl hkind

end Token

/-! ## Reading nodes -/

open Node

/-- A run of texts is read as its characters. -/
theorem Node.IsTextRun.reads {normalized : Bool} {children : List Node} {w : List Char}
    (h : IsTextRun normalized children) (hwritten : AllWritten Text.Escaped children w) :
    Token.Reads w ((joinedText children).map .char) := by
  apply Token.reads_spelled
  exact hwritten.spelled_joinedText h.exists_eq_text

/-- The written form of a valid node that is no text is read as a sound phrase, and that
phrase makes the node again, one text for each character. -/
theorem exists_phrase_of_written {node : Node} {w : List Char}
    (hwritten : Written Text.Escaped node w) (hnode : node.Conforms false)
    (htext : node.isText = false) :
    ∃ phrase : Phrase, phrase.Sound ∧ phrase.node = node.splitBelow ∧
      Token.Reads w phrase.tokens := by
  cases hwritten with
  | text _ => cases htext
  | @span kind children fence w hfence hchildren =>
      obtain ⟨hrun, hedges⟩ := hnode
      have hcontent := hrun.reads hchildren
      by_cases hkind : kind = .code
      · subst hkind
        have hbacktick : Token.Reads fence [.backtick] := by
          rw [List.mem_singleton.mp hfence]
          exact fun _ => rfl
        refine ⟨.code (joinedText children), hrun.joinedText_ne_nil, ?_, ?_⟩
        · rw [Phrase.node, splitBelow, hrun.split_eq]
        · exact hbacktick.append (hcontent.append hbacktick)
      · obtain ⟨span, rfl, hreads⟩ := Token.reads_fence hfence hkind
        have hfirm := hedges ((SpanKind.hasBoundaryRule_iff _).mpr hkind)
        refine ⟨.styled span (joinedText children), ⟨hrun.joinedText_ne_nil, hfirm⟩, ?_, ?_⟩
        · rw [Phrase.node, splitBelow, hrun.split_eq]
        · exact hreads.append (hcontent.append hreads)
  | @link label address w v hlabel haddress =>
      obtain ⟨hshown, htarget⟩ := hnode
      have hopen : Token.Reads ['['] [.leftBracket] := fun _ => rfl
      have hmiddle : Token.Reads [']', '('] [.rightBracket, .leftParen] := fun _ => rfl
      have hclose : Token.Reads [')'] [.rightParen] := fun _ => rfl
      refine ⟨.link (joinedText label) (joinedText address),
        ⟨hshown.joinedText_ne_nil, htarget.joinedText_ne_nil⟩, ?_, ?_⟩
      · rw [Phrase.node, splitBelow, hshown.split_eq, htarget.split_eq]
      · have hend := (htarget.reads haddress).append hclose
        exact hopen.append ((hshown.reads hlabel).append (hmiddle.append hend))

/-- A valid list in front of other characters is cut off node by node. -/
theorem cutNodes_written_append {nodes : List Node} {w : List Char}
    (hwritten : AllWritten Text.Escaped nodes w) (hnodes : ∀ node ∈ nodes, node.Conforms false)
    (rest : List Char) (tail : List Token) :
    Segment.cutNodes (Token.ofChars (w ++ rest) ++ tail) =
      split nodes ++ Segment.cutNodes (Token.ofChars rest ++ tail) := by
  induction nodes generalizing w with
  | nil =>
      cases hwritten
      rfl
  | cons node nodes ih =>
      cases hwritten with
      | cons hnode hrest =>
          have hitems : ∀ node ∈ nodes, node.Conforms false := fun other hother =>
            hnodes other (List.mem_cons_of_mem _ hother)
          rcases node.exists_eq_text_or_not_isText with ⟨content, rfl⟩ | htext
          · cases hnode with
            | text hspelled =>
                rw [List.append_assoc, Token.reads_spelled hspelled, List.append_assoc,
                  Segment.cutNodes_map_char_append, ih hrest hitems, split_text_cons,
                  List.append_assoc]
          · -- The phrase is cut off whole, so what stands behind it cannot change it.
            obtain ⟨phrase, hsound, hmade, hreads⟩ :=
              exists_phrase_of_written hnode (hnodes node List.mem_cons_self) htext
            rw [List.append_assoc, hreads, List.append_assoc,
              Segment.cutNodes_phrase_append hsound, ih hrest hitems,
              split_cons_of_not_isText htext, hmade, List.cons_append]

/-! ## The round trip -/

/-- The parse of a line that may be empty: nothing makes no node. -/
def parseOrEmpty (line : String) : Except ParseError (List Node) :=
  if line = "" then .ok [] else parse line

theorem parseOrEmpty_eq (line : String) :
    parseOrEmpty line = .ok (Segment.cutNodes (tokenize line)) := by
  by_cases hempty : line = ""
  · subst hempty
    change Except.ok [] = Except.ok (Segment.cutNodes [.endMark])
    rw [Segment.cutNodes_endMark_cons]
  · rw [parseOrEmpty, if_neg hempty, parse_of_ne_empty hempty]

section Written

variable {nodes : List Node} {w : List Char} (hwritten : AllWritten Text.Escaped nodes w)
include hwritten

theorem cutNodes_tokenize_append (hnodes : AllConform false nodes) (suffix : String) :
    Segment.cutNodes (tokenize (String.ofList w ++ suffix)) =
      split nodes ++ Segment.cutNodes (tokenize suffix) := by
  rw [tokenize, tokenize, String.toList_append, String.toList_ofList]
  exact cutNodes_written_append hwritten hnodes.items suffix.toList [.endMark]

theorem cutNodes_tokenize_written (hnodes : AllConform false nodes) :
    Segment.cutNodes (tokenize (String.ofList w)) = split nodes := by
  have hcut := cutNodes_tokenize_append hwritten hnodes ""
  have hnothing : Segment.cutNodes (tokenize "") = [] := Segment.cutNodes_endMark_cons []
  rwa [String.append_empty, hnothing, List.append_nil] at hcut

/-- Only what splits into nothing is written as nothing. -/
theorem ofList_ne_empty_of_written (hnodes : AllConform false nodes) (hsplit : split nodes ≠ []) :
    String.ofList w ≠ "" := by
  intro hempty
  apply hsplit
  -- The empty line is cut into no nodes, but it is also cut into those of the split list.
  rw [← cutNodes_tokenize_written hwritten hnodes, hempty]
  exact Segment.cutNodes_endMark_cons []

/-- What a valid list of single characters is written as parses to it and to the parse of
what follows. -/
theorem parse_append_of_written (hnodes : AllConform false nodes) (hsingle : AllSingle nodes)
    {suffix : String} (hne : nodes ≠ [] ∨ suffix ≠ "") :
    parse (String.ofList w ++ suffix) = (parseOrEmpty suffix).map (nodes ++ ·) := by
  have hsplit := split_of_allSingle nodes hsingle
  have hline : String.ofList w ++ suffix ≠ "" := by
    intro hempty
    rw [String.append_eq_empty_iff] at hempty
    rcases hne with hne | hne
    · exact ofList_ne_empty_of_written hwritten hnodes (by rwa [hsplit]) hempty.1
    · exact hne hempty.2
  rw [parse_of_ne_empty hline, parseOrEmpty_eq, cutNodes_tokenize_append hwritten hnodes, hsplit]
  rfl

/-- What a list in normal form is written as has that list as its parse. -/
theorem parseWith_of_written (hnodes : AllConform true nodes) (hne : nodes ≠ []) :
    parseWith {} (String.ofList w) = .ok nodes := by
  have hsplit : split nodes ≠ [] := by
    intro hnil
    apply hne
    rw [← hnodes.normalize_split, hnil]
    rfl
  have hline := ofList_ne_empty_of_written hwritten hnodes.of_normalized hsplit
  rw [parseWith_of_ne_empty hline, if_pos rfl, if_pos rfl,
    cutNodes_tokenize_written hwritten hnodes.of_normalized, hnodes.normalize_split]

end Written

/-- A valid list of single characters is read back from any of its written forms, in front
of any other text. A list that is valid in normal form is the parse of each of its written
forms under the default options, and it has such a form. -/
theorem parse_written :
    (∀ (nodes : List Node) (w : List Char) (suffix : String),
      violation? false nodes = none → AllSingle nodes → AllWritten Text.Escaped nodes w →
      nodes ≠ [] ∨ suffix ≠ "" →
      parse (String.ofList w ++ suffix) = (parseOrEmpty suffix).map (nodes ++ ·)) ∧
    ∀ nodes : List Node, nodes ≠ [] → violation? true nodes = none →
      (∀ w, AllWritten Text.Escaped nodes w → parseWith {} (String.ofList w) = .ok nodes) ∧
      ∃ line, parseWith {} line = .ok nodes := by
  constructor
  · intro nodes w suffix hvalid hsingle hwritten hne
    rw [violation?_eq_none_iff] at hvalid
    exact parse_append_of_written hwritten hvalid hsingle hne
  · intro nodes hne hvalid
    rw [violation?_eq_none_iff] at hvalid
    refine ⟨fun w hwritten => parseWith_of_written hwritten hvalid hne, ?_⟩
    obtain ⟨w, hwritten⟩ := exists_allWritten Text.exists_escaped nodes
    exact ⟨_, parseWith_of_written hwritten hvalid hne⟩

/-- A bold span, an italic one and a literal asterisk, each right behind the other, in
front of an opening fence that nothing closes. -/
theorem parse_written_adjacent_spans :
    parse "**a***\\b*\\***c" = (parseOrEmpty "**c").map
        ([.span .bold [.ofChar 'a'], .span .italic [.ofChar 'b'], .ofChar '*'] ++ ·) ∧
      parseWith {} "**a***\\b*\\*" =
        .ok [.span .bold [.ofChar 'a'], .span .italic [.ofChar 'b'], .ofChar '*'] := by
  have hplain : Text.Escaped 'a' ['a'] := .inr ⟨rfl, by decide⟩
  have hescaped (c : Char) : Text.Escaped c ['\\', c] := .inl rfl
  have hwritten : AllWritten Text.Escaped
      [.span .bold [.ofChar 'a'], .span .italic [.ofChar 'b'], .ofChar '*']
      ((['*', '*'] ++ ((['a'] ++ []) ++ ['*', '*'])) ++
        ((['*'] ++ ((['\\', 'b'] ++ []) ++ ['*'])) ++ (['\\', '*'] ++ []))) := by
    apply AllWritten.cons
    · exact .span (by decide) (.cons (written_ofChar hplain) .nil)
    · apply AllWritten.cons
      · exact .span (by decide) (.cons (written_ofChar (hescaped 'b')) .nil)
      · exact .cons (written_ofChar (hescaped '*')) .nil
  have hsingle : AllSingle
      [.span .bold [.ofChar 'a'], .span .italic [.ofChar 'b'], .ofChar '*'] := by
    unfold AllSingle
    decide
  have hraw := parse_written.1 _ _ "**c" (by decide) hsingle hwritten (.inr (by decide))
  have hnormal := (parse_written.2 _ (List.cons_ne_nil _ _) (by decide)).1 _ hwritten
  exact ⟨hraw, hnormal⟩

end LineMarkup
