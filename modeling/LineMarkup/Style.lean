import LineMarkup.Span.Enclosed
import LineMarkup.Span.Styled

/-!
# Styles

The styles in the order in which they are tried: bold, italic, strikethrough,
code, link. Bold comes before italic, since two markers also begin with one.
-/

namespace LineMarkup.Matcher

/-- Bold, in either marker. -/
def bold : Matcher := firstOf [StyledSpan.boldAsterisk.matcher, StyledSpan.boldUnderscore.matcher]

/-- Italic, in either marker. -/
def italic : Matcher :=
  firstOf [StyledSpan.italicAsterisk.matcher, StyledSpan.italicUnderscore.matcher]

def strikethrough : Matcher := StyledSpan.strikethrough.matcher

/-- The styles, in the order of their precedence. -/
def styles : List Matcher := [bold, italic, strikethrough, code, link]

def style : Matcher := firstOf styles

theorem style_stop_pos {tokens : List Token} {found : Match} (h : style tokens = some found) :
    0 < found.stop := by
  have two {first second : StyledSpan}
      (h : firstOf [first.matcher, second.matcher] tokens = some found) : 0 < found.stop := by
    obtain ⟨matcher, hmem, h⟩ := firstOf_eq_some h
    simp only [List.mem_cons, List.not_mem_nil, or_false] at hmem
    rcases hmem with rfl | rfl <;> exact StyledSpan.stop_pos h
  obtain ⟨matcher, hmem, h⟩ := firstOf_eq_some h
  simp only [styles, List.mem_cons, List.not_mem_nil, or_false] at hmem
  rcases hmem with rfl | rfl | rfl | rfl | rfl
  · exact two h
  · exact two h
  · exact StyledSpan.stop_pos h
  · exact code_stop_pos h
  · exact link_stop_pos h

theorem style_nil : style [] = none := by rfl

end LineMarkup.Matcher
