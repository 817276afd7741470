import LineMarkup.Proofs.NormalForm
import LineMarkup.Proofs.PlainSurroundings

/-!
# The two switches of a parse

The switches do not depend on each other. Whether or not markup is recognised, asking for the
normal form has the effect of normalising the result, also where the text of a line is never
cut into characters. With markup on and normal form off a line is only parsed.
-/

namespace LineMarkup

/-! ## Texts in normal form -/

namespace Node

theorem ofText_true (s : String) : ofText s true = ofGathered s := by
  simp [ofText, ofGathered]

/-- The normal form of the texts of single characters is the text of all of them. -/
theorem normalize_ofChars (cs : List Char) : normalize (ofChars cs) = ofGathered (.ofList cs) := by
  have hgathered := normalizeFrom_ofChars_append cs "" []
  rwa [List.append_nil, String.empty_append, normalizeFrom] at hgathered

/-- Texts that are merged are the normal form of those that are not. -/
theorem normalize_ofText_false (s : String) : normalize (ofText s false) = ofText s true := by
  rw [ofText_false, normalize_ofChars, String.ofList_toList, ofText_true]

end Node

/-! ## Reports under options -/

/-- Asking for the normal form changes nodes and nothing else in a report. -/
theorem reportWith_normalize (markdown : Bool) (line : String) :
    reportWith ⟨markdown, true⟩ line = (reportWith ⟨markdown, false⟩ line).map Node.normalize := by
  by_cases hempty : line = ""
  · subst hempty
    rw [reportWith_empty, reportWith_empty]
    rfl
  · rw [reportWith_of_ne_empty hempty, reportWith_of_ne_empty hempty]
    cases markdown with
    | true => simp
    | false => simp [Report.map, Except.map, Node.normalize_ofText_false]

/-! ## Parsing under options -/

/-- Under options too, only the empty line fails. -/
theorem parseWith_eq_error_iff (options : Options) (line : String) (error : ParseError) :
    parseWith options line = .error error ↔ line = "" ∧ error = .emptyInput := by
  by_cases hempty : line = ""
  · subst hempty
    rw [parseWith, reportWith_empty]
    simp [eq_comm]
  · simp [parseWith_of_ne_empty hempty, hempty]

theorem parseWith_raw (line : String) : parseWith .raw line = parse line := by
  by_cases hempty : line = ""
  · -- The one finds no character in the line, the other no token in front of its end mark.
    subst hempty
    rw [parse_empty, parseWith_eq_error_iff]
    exact ⟨rfl, rfl⟩
  · rw [parseWith_of_ne_empty hempty, parse_of_ne_empty hempty]
    simp [Options.raw]

/-- The normal form is taken of the result of the parse whether or not markup is recognised,
raw options only parse, and the empty line fails under all options, no other line under any. -/
theorem parseWith_switches (line : String) :
    (∀ markdown, parseWith ⟨markdown, true⟩ line =
        (parseWith ⟨markdown, false⟩ line).map Node.normalize) ∧
      parseWith .raw line = parse line ∧
      ∀ options error, parseWith options line = .error error ↔
        line = "" ∧ error = .emptyInput := by
  refine ⟨?_, parseWith_raw line, ?_⟩
  · intro markdown
    rw [parseWith, reportWith_normalize]
    rfl
  · intro options error
    exact parseWith_eq_error_iff options line error

end LineMarkup
