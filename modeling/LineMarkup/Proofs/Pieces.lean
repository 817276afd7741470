import LineMarkup.Proofs.CutPoints
import Mathlib.Data.List.Forall2
import Mathlib.Order.Monotone.Basic

/-!
# The pieces of a cut by number

A segment of a cut begins where the earlier ones end. So the segment of a given number is
the one at the front of what the earlier ones leave, it makes the node of the same number,
and every token in front of the end mark lies in one of the segments.
-/

namespace LineMarkup.Segment

/-- The number of tokens that the first few segments take. -/
def cutPoint (segments : List Segment) (count : Nat) : Nat := totalSize (segments.take count)

@[simp] theorem cutPoint_zero (segments : List Segment) : cutPoint segments 0 = 0 := by
  simp [cutPoint, totalSize]

@[simp] theorem cutPoint_cons_succ (segment : Segment) (rest : List Segment) (count : Nat) :
    cutPoint (segment :: rest) (count + 1) = segment.size + cutPoint rest count := by
  simp [cutPoint, totalSize]

theorem cutPoint_length (segments : List Segment) :
    cutPoint segments segments.length = totalSize segments := by
  rw [cutPoint, List.take_length]

theorem cutPoint_succ {segments : List Segment} {j : Nat} {segment : Segment}
    (h : segments[j]? = some segment) :
    cutPoint segments (j + 1) = cutPoint segments j + segment.size := by
  induction segments generalizing j with
  | nil => simp at h
  | cons first rest ih =>
      cases j with
      | zero =>
          rw [List.getElem?_cons_zero, Option.some.injEq] at h
          simp [h]
      | succ j =>
          rw [List.getElem?_cons_succ] at h
          rw [cutPoint_cons_succ, cutPoint_cons_succ, ih h, Nat.add_assoc]

theorem cutPoint_succ_of_kept {segments : List Segment} {j : Nat} {token : Token} {c : Char}
    (h : segments[j]? = some (.kept token c)) :
    cutPoint segments (j + 1) = cutPoint segments j + 1 :=
  cutPoint_succ h

theorem cutPoint_mono (segments : List Segment) : Monotone (cutPoint segments) := by
  apply monotone_nat_of_le_succ
  intro j
  cases hsegment : segments[j]? with
  | some segment =>
      rw [cutPoint_succ hsegment]
      exact Nat.le_add_right _ _
  | none =>
      have hlength : segments.length ≤ j := List.getElem?_eq_none_iff.mp hsegment
      rw [cutPoint, cutPoint, List.take_of_length_le hlength,
        List.take_of_length_le (Nat.le_succ_of_le hlength)]

theorem cutPoint_succ_le_totalSize {segments : List Segment} {j : Nat} {segment : Segment}
    (h : segments[j]? = some segment) : cutPoint segments (j + 1) ≤ totalSize segments := by
  obtain ⟨hlt, _⟩ := List.getElem?_eq_some_iff.mp h
  rw [← cutPoint_length]
  exact cutPoint_mono segments hlt

/-- Every token that the segments take lies in one of them. -/
theorem exists_cutPoint_le_lt {segments : List Segment} {k : Nat} (h : k < totalSize segments) :
    ∃ j segment, segments[j]? = some segment ∧
      cutPoint segments j ≤ k ∧ k < cutPoint segments (j + 1) := by
  induction segments generalizing k with
  | nil => simp [totalSize] at h
  | cons first rest ih =>
      by_cases hfirst : k < first.size
      · exact ⟨0, first, by simp, by simp, by simpa using hfirst⟩
      · obtain ⟨j, segment, hsegment, hle, hlt⟩ := ih (k := k - first.size)
          (by rw [totalSize] at h; omega)
        refine ⟨j + 1, segment, by simpa using hsegment, ?_, ?_⟩
        · rw [cutPoint_cons_succ]
          omega
        · rw [cutPoint_cons_succ]
          omega

/-- A token lies in one segment at most. -/
theorem eq_of_cutPoint_le_lt {segments : List Segment} {i j k : Nat}
    (hi : cutPoint segments i ≤ k) (hi' : k < cutPoint segments (i + 1))
    (hj : cutPoint segments j ≤ k) (hj' : k < cutPoint segments (j + 1)) : i = j := by
  rcases Nat.lt_trichotomy i j with hlt | heq | hgt
  · have hle : cutPoint segments (i + 1) ≤ cutPoint segments j := cutPoint_mono segments hlt
    omega
  · exact heq
  · have hle : cutPoint segments (j + 1) ≤ cutPoint segments i := cutPoint_mono segments hgt
    omega

/-- The segment of a given number stands at the front of what the earlier ones leave. -/
theorem front?_drop_cutPoint (tokens : List Token) (j : Nat) :
    front? (tokens.drop (cutPoint (cut tokens) j)) = (cut tokens)[j]? := by
  induction j generalizing tokens with
  | zero =>
      cases hfront : front? tokens with
      | none => simp [cut_eq_nil hfront, hfront]
      | some segment => simp [cut_eq_cons hfront, hfront]
  | succ j ih =>
      cases hfront : front? tokens with
      | none => simp [cut_eq_nil hfront, hfront, cutPoint, totalSize]
      | some segment =>
          rw [cut_eq_cons hfront, cutPoint_cons_succ, ← List.drop_drop, ih,
            List.getElem?_cons_succ]

/-- A segment at the front is a sound phrase, or a token that begins no style. -/
theorem front?_eq_some {tokens : List Token} {segment : Segment}
    (h : front? tokens = some segment) :
    (∃ phrase rest, tokens = phrase.tokens ++ rest ∧ Phrase.Sound phrase ∧
        segment = .styled phrase.toMatch) ∨
      ∃ token c rest, tokens = token :: rest ∧ Matcher.style tokens = none ∧
        token.literal? = some c ∧ segment = .kept token c := by
  cases tokens using cut_induction with
  | nil => simp [front?_nil] at h
  | endMark rest =>
      rw [front?_cons_of_style_eq_none (Matcher.style_endMark_cons rest)] at h
      cases h
  | phrase phrase rest hsound _ =>
      rw [front?_phrase_append hsound] at h
      cases h
      exact .inl ⟨phrase, rest, rfl, hsound, rfl⟩
  | kept token c rest hstyle hliteral _ =>
      rw [front?_cons_of_style_eq_none hstyle, hliteral] at h
      cases h
      exact .inr ⟨token, c, rest, rfl, hstyle, hliteral, rfl⟩

/-- A piece that a style accepts is a phrase. -/
theorem exists_phrase_of_getElem?_cut {tokens : List Token} {j : Nat} {found : Match}
    (h : (cut tokens)[j]? = some (.styled found)) : ∃ phrase : Phrase, found = phrase.toMatch := by
  rw [← front?_drop_cutPoint] at h
  rcases front?_eq_some h with ⟨phrase, _, _, _, heq⟩ | ⟨_, _, _, _, _, _, heq⟩
  · cases heq
    exact ⟨phrase, rfl⟩
  · cases heq

/-- A token that is kept stands where its piece begins, and is no end mark. -/
theorem getElem?_of_getElem?_cut {tokens : List Token} {j : Nat} {token : Token} {c : Char}
    (h : (cut tokens)[j]? = some (.kept token c)) :
    tokens[cutPoint (cut tokens) j]? = some token ∧ token.literal? = some c := by
  rw [← front?_drop_cutPoint] at h
  rcases front?_eq_some h with ⟨_, _, _, _, heq⟩ | ⟨_, _, rest, hdrop, _, hliteral, heq⟩
  · cases heq
  · cases heq
    refine ⟨?_, hliteral⟩
    rw [← List.head?_drop, hdrop, List.head?_cons]

/-- A segment at the front of what an index leaves is one piece there. -/
theorem cutStep_of_front? {tokens : List Token} {start : Nat} {segment : Segment} {node : Node}
    (h : front? (tokens.drop start) = some segment) (hnode : segment.nodes = [node]) :
    CutStep tokens start (start + segment.size) node := by
  rcases front?_eq_some h with ⟨phrase, rest, hdrop, hsound, rfl⟩ |
    ⟨token, c, rest, hdrop, hstyle, hliteral, rfl⟩
  · cases hnode
    exact .phrase hdrop hsound
  · cases hnode
    rw [hdrop] at hstyle
    exact .kept_token hdrop hstyle hliteral

/-- Segments and nodes of a cut belong together one by one. -/
theorem forall₂_cut_cutNodes (tokens : List Token) :
    List.Forall₂ (fun segment node => segment.nodes = [node]) (cut tokens) (cutNodes tokens) := by
  induction tokens using cut_induction with
  | nil => simp
  | endMark rest => simp
  | phrase phrase rest hsound ih =>
      rw [cut_phrase_append hsound, cutNodes_phrase_append hsound]
      exact .cons rfl ih
  | kept token c rest hstyle hliteral ih =>
      rw [cut_cons_of_style_eq_none hstyle hliteral, cutNodes_cons_of_style_eq_none hstyle hliteral]
      exact .cons rfl ih

theorem length_cutNodes (tokens : List Token) :
    (cutNodes tokens).length = (cut tokens).length :=
  (forall₂_cut_cutNodes tokens).length_eq.symm

theorem nodes_getElem_cut {tokens : List Token} {j : Nat} {segment : Segment}
    (h : (cut tokens)[j]? = some segment) (hj : j < (cutNodes tokens).length) :
    segment.nodes = [(cutNodes tokens)[j]] := by
  obtain ⟨hlt, rfl⟩ := List.getElem?_eq_some_iff.mp h
  exact (List.forall₂_iff_get.mp (forall₂_cut_cutNodes tokens)).2 j hlt hj

/-- One piece stands between each cut point of a token list and the next. -/
theorem cutStep_cutPoint (tokens : List Token) {j : Nat} (hj : j < (cutNodes tokens).length) :
    CutStep tokens (cutPoint (cut tokens) j) (cutPoint (cut tokens) (j + 1))
      (cutNodes tokens)[j] := by
  have hlt : j < (cut tokens).length := by rwa [← length_cutNodes]
  have hsegment : (cut tokens)[j]? = some (cut tokens)[j] := List.getElem?_eq_getElem hlt
  rw [cutPoint_succ hsegment]
  apply cutStep_of_front?
  · rw [front?_drop_cutPoint, hsegment]
  · exact nodes_getElem_cut hsegment hj

end LineMarkup.Segment
