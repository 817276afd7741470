import LineMarkup.Match

/-!
# Code spans and links

Code stands between two backticks, and a link is a text in brackets followed at
once by an address in parentheses. What is enclosed is literal and not empty, and
blanks at its edges are allowed.
-/

namespace LineMarkup

/-- The literal characters at the front of a token list. -/
def literalRun : List Token → List Char
  | .char c :: rest => c :: literalRun rest
  | _ => []

/-- The characters between an opening and a closing token, if there are any and both
tokens are in place. -/
def enclosed? (opening closing : Token) : List Token → Option (List Char)
  | [] => none
  | token :: rest =>
      let content := literalRun rest
      if token = opening ∧ content ≠ [] ∧ (rest.drop content.length).head? = some closing then
        some content
      else none

namespace Matcher

def code : Matcher := fun tokens =>
  (enclosed? .backtick .backtick tokens).map fun content =>
    .single (.span .code (Node.ofChars content)) (content.length + 2)

def link : Matcher := fun tokens =>
  (enclosed? .leftBracket .rightBracket tokens).bind fun label =>
    (enclosed? .leftParen .rightParen (tokens.drop (label.length + 2))).map fun address =>
      .single (.link (Node.ofChars label) (Node.ofChars address))
        (label.length + address.length + 4)

theorem code_stop_pos {tokens : List Token} {found : Match} (h : code tokens = some found) :
    0 < found.stop := by
  obtain ⟨content, _, rfl⟩ := Option.map_eq_some_iff.mp h
  simp [Match.single]

theorem link_stop_pos {tokens : List Token} {found : Match} (h : link tokens = some found) :
    0 < found.stop := by
  obtain ⟨label, _, h⟩ := Option.bind_eq_some_iff.mp h
  obtain ⟨address, _, rfl⟩ := Option.map_eq_some_iff.mp h
  simp [Match.single]

end Matcher

end LineMarkup
