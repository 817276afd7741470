import LineMarkup.Proofs.Outcome

/-!
# Writing nodes as markup

A node list is written by putting the delimiters of each kind around what the node
holds. Bold and italic have two delimiters each, so a tree has several written forms; how
a literal character is spelled is a parameter. With every character spelled as itself,
the written form of a parse is the line without its protecting backslashes.
-/

namespace LineMarkup

/-- The delimiters that may stand on both sides of a span. -/
def SpanKind.fences : SpanKind → List (List Char)
  | .bold => [['*', '*'], ['_', '_']]
  | .italic => [['*'], ['_']]
  | .strikethrough => [['~']]
  | .code => [['\x60']]

/-- Characters one after another, each spelled in a way that `spells` admits. -/
inductive Text.Spelled (spells : Char → List Char → Prop) : List Char → List Char → Prop
  | nil : Spelled spells [] []
  | cons {c w cs v} : spells c w → Spelled spells cs v → Spelled spells (c :: cs) (w ++ v)

mutual

/-- A written form of a node. Every span chooses its delimiter for itself. -/
inductive Node.Written (spells : Char → List Char → Prop) : Node → List Char → Prop
  | text {content w} : Text.Spelled spells content.toList w → Written spells (.text content) w
  | span {kind children fence w} : fence ∈ kind.fences → AllWritten spells children w →
      Written spells (.span kind children) (fence ++ (w ++ fence))
  | link {label address w v} : AllWritten spells label w → AllWritten spells address v →
      Written spells (.link label address) ('[' :: (w ++ ']' :: '(' :: (v ++ [')'])))

/-- A written form of a node list: its nodes in order. -/
inductive Node.AllWritten (spells : Char → List Char → Prop) : List Node → List Char → Prop
  | nil : AllWritten spells [] []
  | cons {node w nodes v} : Written spells node w → AllWritten spells nodes v →
      AllWritten spells (node :: nodes) (w ++ v)

end

/-- The plain spelling: a character stands for itself. -/
def Text.Plain (c : Char) (w : List Char) : Prop := w = [c]

/-- A text without its protecting backslashes: of a backslash and the character after it
only the character is kept, and a backslash with nothing after it is kept too. -/
def Text.unescape : List Char → List Char
  | '\\' :: c :: rest => c :: unescape rest
  | c :: rest => c :: unescape rest
  | [] => []

/-- A text whose characters may all stand for themselves spells itself. -/
theorem Text.spelled_self {spells : Char → List Char → Prop} {cs : List Char}
    (h : ∀ c ∈ cs, spells c [c]) : Text.Spelled spells cs cs := by
  induction cs with
  | nil => exact .nil
  | cons c cs ih =>
      exact .cons (h c List.mem_cons_self) (ih fun d hd => h d (List.mem_cons_of_mem _ hd))

theorem Text.spelled_plain (cs : List Char) : Text.Spelled Text.Plain cs cs :=
  Text.spelled_self fun _ _ => rfl

namespace Node

variable {spells : Char → List Char → Prop}

theorem written_ofChar {c : Char} {w : List Char} (h : spells c w) :
    Written spells (.ofChar c) w := by
  have hspelled : Text.Spelled spells [c] (w ++ []) := .cons h .nil
  rw [List.append_nil] at hspelled
  apply Written.text
  rwa [String.toList_singleton]

theorem allWritten_ofChars {cs w : List Char} (h : Text.Spelled spells cs w) :
    AllWritten spells (ofChars cs) w := by
  induction h with
  | nil => exact .nil
  | cons hspells _ ih => exact .cons (written_ofChar hspells) ih

end Node

/-! ## What a parse keeps -/

/-- The characters that tokens stand for. -/
def Token.literals (tokens : List Token) : List Char := tokens.filterMap Token.literal?

@[simp] theorem Token.literals_nil : Token.literals [] = [] := rfl

theorem Token.literals_cons (token : Token) (rest : List Token) :
    Token.literals (token :: rest) = token.literal?.toList ++ Token.literals rest := by
  cases hliteral : token.literal? with
  | none => simp [Token.literals, hliteral]
  | some c => simp [Token.literals, hliteral]

theorem Token.literals_append (first second : List Token) :
    Token.literals (first ++ second) = Token.literals first ++ Token.literals second :=
  List.filterMap_append

theorem Token.literals_map_char (cs : List Char) : Token.literals (cs.map .char) = cs := by
  induction cs with
  | nil => rfl
  | cons c cs ih => exact congrArg (c :: ·) ih

theorem Token.literals_ofChars (cs : List Char) :
    Token.literals (Token.ofChars cs) = Text.unescape cs := by
  induction cs using Token.ofChars.induct with
  | case1 c rest ih => exact congrArg (c :: ·) ih
  | case2 c rest hplain ih =>
      rw [Token.ofChars.eq_2 c rest hplain, Text.unescape.eq_2 c rest hplain, ← ih]
      exact List.filterMap_cons_some (Token.literal?_ofChar c)
  | case3 => rfl

theorem StyledSpan.literals_fence_mem (span : StyledSpan) :
    Token.literals span.fence ∈ span.kind.fences := by
  cases span <;> decide

/-- The tokens of a phrase, read as characters, are a written form of its node. -/
theorem Phrase.written_node (phrase : Phrase) :
    Node.Written Text.Plain phrase.node (Token.literals phrase.tokens) := by
  have hchars (cs : List Char) : Node.AllWritten Text.Plain (Node.ofChars cs) cs :=
    Node.allWritten_ofChars (Text.spelled_plain cs)
  cases phrase with
  | styled span content =>
      rw [tokens, Token.literals_append, Token.literals_append, Token.literals_map_char]
      exact .span span.literals_fence_mem (hchars content)
  | code content =>
      have hwritten : Token.literals (code content).tokens =
          ['\x60'] ++ (content ++ ['\x60']) := by
        simp [tokens, Token.literals_cons, Token.literals_append, Token.literals_map_char,
          Token.literal?]
      rw [hwritten]
      exact .span (List.mem_singleton_self _) (hchars content)
  | link label address =>
      have hwritten : Token.literals (link label address).tokens =
          '[' :: (label ++ ']' :: '(' :: (address ++ [')'])) := by
        simp [tokens, Token.literals_cons, Token.literals_append, Token.literals_map_char,
          Token.literal?]
      rw [hwritten]
      exact .link (hchars label) (hchars address)

/-- Cutting loses nothing: the nodes are a written form of the tokens in front of the end
mark. -/
theorem allWritten_cutNodes (tokens : List Token) :
    Node.AllWritten Text.Plain (Segment.cutNodes tokens)
      (Token.literals (Token.beforeEnd tokens)) := by
  induction tokens using Segment.cut_induction with
  | nil =>
      rw [Segment.cutNodes_nil]
      exact .nil
  | endMark rest =>
      rw [Segment.cutNodes_endMark_cons]
      exact .nil
  | phrase phrase rest hsound ih =>
      rw [Segment.cutNodes_phrase_append hsound,
        Token.beforeEnd_append phrase.endMark_notMem_tokens, Token.literals_append]
      exact .cons phrase.written_node ih
  | kept token c rest hstyle hliteral ih =>
      have hliterals : Token.literals (token :: Token.beforeEnd rest) =
          [c] ++ Token.literals (Token.beforeEnd rest) := List.filterMap_cons_some hliteral
      rw [Segment.cutNodes_cons_of_style_eq_none hstyle hliteral,
        Token.beforeEnd_cons_of_literal? hliteral, hliterals]
      exact .cons (Node.written_ofChar rfl) ih

/-- Parsing fails on the empty line only, and always for that reason. The parse of any
other line has as a written form the line without its protecting backslashes. -/
theorem parse_lossless (line : String) :
    (parse line = .error .emptyInput ↔ line = "") ∧ parse line ≠ .error .incomplete ∧
      (line ≠ "" → ∃ nodes, parse line = .ok nodes ∧
        Node.AllWritten Text.Plain nodes (Text.unescape line.toList)) := by
  by_cases hempty : line = ""
  · subst hempty
    rw [parse_empty]
    simp
  · rw [parse_of_ne_empty hempty]
    -- The tokens in front of the end mark are all that was read from the line.
    have hwritten := allWritten_cutNodes (tokenize line)
    rw [beforeEnd_tokenize, Token.literals_ofChars] at hwritten
    refine ⟨by simp [hempty], by simp, ?_⟩
    intro _
    exact ⟨_, rfl, hwritten⟩

theorem parse_lossless_crossed_markers :
    "*a\\**_b_\\" ≠ "" ∧ ∃ nodes, parse "*a\\**_b_\\" = .ok nodes ∧
      Node.AllWritten Text.Plain nodes (Text.unescape "*a\\**_b_\\".toList) := by
  have hline : "*a\\**_b_\\" ≠ "" := by decide
  exact ⟨hline, (parse_lossless _).2.2 hline⟩

end LineMarkup
