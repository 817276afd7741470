import LineMarkup.Parse
import LineMarkup.Proofs.Cutting

/-!
# The outcome of a parse

Only the empty line fails. Any other line parses to the nodes of its cut.
-/

namespace LineMarkup

theorem Token.ofChars_eq_nil_iff (cs : List Char) : Token.ofChars cs = [] ↔ cs = [] := by
  cases cs using Token.ofChars.fun_cases with
  | case1 c rest => simp [Token.ofChars]
  | case2 c rest hplain => simp [Token.ofChars.eq_2 c rest hplain]
  | case3 => simp [Token.ofChars]

/-- All tokens that are read from a line stand in front of its end mark. -/
theorem beforeEnd_tokenize (line : String) :
    Token.beforeEnd (tokenize line) = Token.ofChars line.toList := by
  rw [tokenize, Token.beforeEnd_append (Token.endMark_notMem_ofChars _),
    Token.beforeEnd_endMark_cons, List.append_nil]

theorem beforeEnd_tokenize_eq_nil_iff (line : String) :
    Token.beforeEnd (tokenize line) = [] ↔ line = "" := by
  rw [beforeEnd_tokenize, Token.ofChars_eq_nil_iff, String.toList_eq_nil_iff]

@[simp] theorem parse_empty : parse "" = .error .emptyInput := by
  rw [parse_eq, Matcher.markdown_eq, if_pos ((beforeEnd_tokenize_eq_nil_iff "").mpr rfl)]
  rfl

/-- A line that is not empty parses to the nodes of its cut. -/
theorem parse_of_ne_empty {line : String} (h : line ≠ "") :
    parse line = .ok (Segment.cutNodes (tokenize line)) := by
  have hne : Token.beforeEnd (tokenize line) ≠ [] := by
    intro hnil
    exact h ((beforeEnd_tokenize_eq_nil_iff line).mp hnil)
  rw [parse_eq, Matcher.markdown_eq, if_neg hne]

theorem reportWith_empty (options : Options) :
    reportWith options "" = ⟨[], .error .emptyInput⟩ := by
  simp [reportWith]

/-- What options add to the report of a line that is not empty. -/
theorem reportWith_of_ne_empty {line : String} (h : line ≠ "") (options : Options) :
    reportWith options line =
      if options.markdown then
        if options.normalize then (report line).map Node.normalize else report line
      else ⟨[.markupDisabled], .ok (Node.ofText line options.normalize)⟩ := by
  have hempty : ¬ line.isEmpty = true := by simpa using h
  rw [reportWith, if_neg hempty]
  cases options.markdown <;> simp

/-- Under options such a line has a parse too: its nodes, in normal form if that is asked
for, or its text where markup is switched off. -/
theorem parseWith_of_ne_empty {line : String} (h : line ≠ "") (options : Options) :
    parseWith options line = .ok
      (if options.markdown then
        if options.normalize then Node.normalize (Segment.cutNodes (tokenize line))
        else Segment.cutNodes (tokenize line)
      else Node.ofText line options.normalize) := by
  have hreport : (report line).outcome = .ok (Segment.cutNodes (tokenize line)) :=
    parse_of_ne_empty h
  rw [parseWith, reportWith_of_ne_empty h]
  cases options.markdown <;> cases options.normalize <;> simp [Report.map, hreport, Except.map]

end LineMarkup
