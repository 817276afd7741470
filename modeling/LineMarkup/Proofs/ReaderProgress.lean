import LineMarkup.Toml.Document
import Mathlib.Order.Nat

/-!
# TOML readers move on

What a reader leaves of a text is never longer than the text. A statement takes a character at
least, so the bound on the number of lines never cuts a document short.
-/

namespace LineMarkup.Toml

variable {α β : Type} {cs rest : List Char}

/-- What the reader leaves is no longer than what it is given. -/
def Shortens (reader : Reader α) : Prop :=
  ∀ ⦃cs a rest⦄, reader cs = some (a, rest) → rest.length ≤ cs.length

/-- Another view of what was found does not change what is left. -/
theorem Shortens.of_map {reader : Reader α} (hreader : Shortens reader) {f : α → β} {b : β}
    (h : ((reader cs).map fun (a, rest) => (f a, rest)) = some (b, rest)) :
    rest.length ≤ cs.length := by
  obtain ⟨⟨a, after⟩, hread, heq⟩ := Option.map_eq_some_iff.mp h
  cases heq
  exact hreader hread

/-! ## Blanks and line ends -/

theorem length_skipBlanks_le (cs : List Char) : (skipBlanks cs).length ≤ cs.length :=
  (List.dropWhile_sublist _).length_le

theorem length_of_skipNewline? (h : skipNewline? cs = some rest) : rest.length < cs.length := by
  unfold skipNewline? at h
  split at h
  · cases h
    exact Nat.lt_succ_self _
  · cases h
    exact Nat.lt_succ_of_lt (Nat.lt_succ_self _)
  · cases h

theorem length_dropNewline_le (cs : List Char) : (dropNewline cs).length ≤ cs.length := by
  unfold dropNewline
  cases h : skipNewline? cs with
  | none => rfl
  | some rest => exact (length_of_skipNewline? h).le

theorem length_of_skipGap? {inComment : Bool} (h : skipGap? inComment cs = some rest) :
    rest.length ≤ cs.length := by
  fun_induction skipGap? inComment cs <;> grind

/-- Behind a statement nothing is left, or a line end has been taken. -/
theorem length_of_skipLineEnd? (h : skipLineEnd? cs = some rest) :
    rest = [] ∨ rest.length < cs.length := by
  have hblanks := length_skipBlanks_le cs
  unfold skipLineEnd? at h
  dsimp only at h
  split at h
  next =>
    cases h
    exact .inl rfl
  next =>
    have hnewline := length_of_skipNewline? h
    split at hnewline
    next tail htail =>
      have hcomment := (List.dropWhile_sublist isPlain (l := tail)).length_le
      rw [htail, List.length_cons] at hblanks
      exact .inr (by omega)
    next => exact .inr (by omega)

/-! ## Strings and keys -/

theorem basicString_shortens : Shortens basicString := by
  intro cs content rest h
  fun_induction basicString cs generalizing content rest <;>
    simp only [Option.bind_eq_bind, Option.bind_eq_some_iff, Prod.exists, Option.pure_def,
      Option.some.injEq, List.length_cons, reduceCtorEq] at h ⊢ <;>
    grind

theorem literalString_shortens : Shortens literalString := by
  intro cs content rest h
  fun_induction literalString cs generalizing content rest <;>
    simp only [Option.bind_eq_bind, Option.bind_eq_some_iff, Prod.exists, Option.pure_def,
      Option.some.injEq, List.length_cons, reduceCtorEq] at h ⊢ <;>
    grind

theorem basicLines_shortens (joining : Bool) : Shortens (basicLines joining) := by
  intro cs content rest h
  fun_induction basicLines joining cs generalizing content rest <;>
    simp only [Option.bind_eq_bind, Option.bind_eq_some_iff, Prod.exists, Option.pure_def,
      Option.some.injEq, List.length_cons, reduceCtorEq] at h ⊢ <;>
    grind

theorem literalLines_shortens : Shortens literalLines := by
  intro cs content rest h
  fun_induction literalLines cs generalizing content rest <;>
    simp only [Option.bind_eq_bind, Option.bind_eq_some_iff, Prod.exists, Option.pure_def,
      Option.some.injEq, List.length_cons, reduceCtorEq] at h ⊢ <;>
    grind

theorem string_shortens : Shortens string := by
  intro cs content rest h
  obtain ⟨⟨inner, after⟩, hinner, heq⟩ := Option.map_eq_some_iff.mp h
  cases heq
  split at hinner
  next tail =>
    have hread := basicLines_shortens false hinner
    have hdrop := length_dropNewline_le tail
    simp only [List.length_cons]
    omega
  next => exact (basicString_shortens hinner).trans (Nat.le_succ _)
  next tail =>
    have hread := literalLines_shortens hinner
    have hdrop := length_dropNewline_le tail
    simp only [List.length_cons]
    omega
  next => exact (literalString_shortens hinner).trans (Nat.le_succ _)
  next => cases hinner

theorem key_shortens : Shortens key := by
  intro cs name rest h
  unfold key at h
  split at h
  next => exact (basicString_shortens.of_map h).trans (Nat.le_succ _)
  next => exact (literalString_shortens.of_map h).trans (Nat.le_succ _)
  next =>
    dsimp only at h
    split at h
    next => cases h
    next =>
      cases h
      exact (List.dropWhile_sublist _).length_le

theorem dottedKeyWithin_shortens (count : Nat) : Shortens (dottedKeyWithin count) := by
  intro cs names rest h
  induction count generalizing cs names with
  | zero => cases h
  | succ count ih =>
      simp only [dottedKeyWithin, Option.bind_eq_bind, Option.bind_eq_some_iff, Prod.exists] at h
      obtain ⟨name, after, hkey, h⟩ := h
      have hfirst := (key_shortens hkey).trans (length_skipBlanks_le cs)
      have hblanks := length_skipBlanks_le after
      split at h
      next tail htail =>
        simp only [Option.bind_eq_some_iff, Prod.exists] at h
        obtain ⟨others, last, hothers, hlast⟩ := h
        cases hlast
        have hrest := ih hothers
        rw [htail, List.length_cons] at hblanks
        omega
      next =>
        cases h
        exact hblanks.trans hfirst

theorem dottedKey_shortens : Shortens dottedKey := dottedKeyWithin_shortens _

/-! ## Values -/

theorem wordValue_shortens : Shortens wordValue := by
  intro cs value rest h
  obtain ⟨value, -, heq⟩ := Option.map_eq_some_iff.mp h
  cases heq
  exact (List.drop_sublist _ _).length_le

theorem plainValue_shortens : Shortens plainValue := by
  intro cs value rest h
  unfold plainValue at h
  split at h
  · exact string_shortens.of_map h
  · exact string_shortens.of_map h
  · exact wordValue_shortens h

theorem itemsUpTo_shortens {item : Reader Value} (hitem : Shortens item) (fuel : Nat) :
    Shortens (itemsUpTo item fuel) := by
  intro cs items rest h
  induction fuel generalizing cs items with
  | zero => cases h
  | succ fuel ih =>
      simp only [itemsUpTo, Option.bind_eq_bind, Option.bind_eq_some_iff] at h
      obtain ⟨start, hgap, h⟩ := h
      have hstart := length_of_skipGap? hgap
      split at h
      next =>
        cases h
        exact (Nat.le_succ _).trans hstart
      next =>
        simp only [Option.bind_eq_some_iff, Prod.exists] at h
        obtain ⟨first, after, hfirst, next, hgap, h⟩ := h
        have hafter := hitem hfirst
        have hnext := length_of_skipGap? hgap
        split at h
        next =>
          simp only [Option.bind_eq_some_iff, Prod.exists] at h
          obtain ⟨others, last, hothers, hlast⟩ := h
          cases hlast
          have hrest := ih hothers
          rw [List.length_cons] at hnext
          omega
        next =>
          cases h
          rw [List.length_cons] at hnext
          omega
        next => cases h

theorem membersUpTo_shortens {member : Reader Value} (hmember : Shortens member) (fuel : Nat)
    (table : Table) : Shortens (membersUpTo member fuel table) := by
  intro cs whole rest h
  induction fuel generalizing cs table with
  | zero => cases h
  | succ fuel ih =>
      simp only [membersUpTo, Option.bind_eq_bind, Option.bind_eq_some_iff] at h
      obtain ⟨start, hgap, h⟩ := h
      have hstart := length_of_skipGap? hgap
      split at h
      next =>
        cases h
        exact (Nat.le_succ _).trans hstart
      next =>
        simp only [Option.bind_eq_some_iff, Prod.exists] at h
        obtain ⟨path, after, hpath, next, hgap, h⟩ := h
        have hafter := dottedKey_shortens hpath
        have hnext := length_of_skipGap? hgap
        split at h
        next =>
          simp only [Option.bind_eq_some_iff, Prod.exists] at h
          obtain ⟨front, hfront, value, behind, hvalue, changed, -, last, hlast, h⟩ := h
          have hfront := length_of_skipGap? hfront
          have hbehind := hmember hvalue
          have hlast := length_of_skipGap? hlast
          rw [List.length_cons] at hnext
          split at h
          next =>
            have hrest := ih _ h
            rw [List.length_cons] at hlast
            omega
          next =>
            cases h
            rw [List.length_cons] at hlast
            omega
          next => cases h
        next => cases h

theorem valueWithin_shortens (depth : Nat) : Shortens (valueWithin depth) := by
  induction depth with
  | zero => exact plainValue_shortens
  | succ depth ih =>
      intro cs value rest h
      unfold valueWithin at h
      split at h
      next =>
        simp only [Option.bind_eq_bind, Option.bind_eq_some_iff, Prod.exists] at h
        obtain ⟨items, after, hitems, heq⟩ := h
        cases heq
        exact (itemsUpTo_shortens ih _ hitems).trans (Nat.le_succ _)
      next =>
        simp only [Option.bind_eq_bind, Option.bind_eq_some_iff, Prod.exists] at h
        obtain ⟨table, after, htable, heq⟩ := h
        cases heq
        exact (membersUpTo_shortens ih _ _ htable).trans (Nat.le_succ _)
      next => exact plainValue_shortens h

theorem value_shortens : Shortens value := valueWithin_shortens _

end LineMarkup.Toml
