import LineMarkup.Proofs.ReaderProgress
import Mathlib.Tactic.SplitIfs

/-!
# Documents by their statements

A document is read line by line, and each statement changes the table at once. What the
statements are does not depend on the table. So it comes to the same to read all of them first
and to build the table from them afterwards, one after the other, and a document is a text whose
statements build a table.
-/

namespace LineMarkup.Toml

/-! ## Statements -/

inductive Statement where
  /-- A key, which may be dotted, with its value. -/
  | assign (path : List String) (value : Value)
  /-- The header of a table. -/
  | table (path : List String)
  /-- A header in double brackets, which begins a further table under its path. -/
  | row (path : List String)

namespace Statement

/-- Read a statement, whatever came before it. -/
def read : Reader Statement
  | '[' :: '[' :: rest => do
      let (path, rest) ← dottedKey rest
      match rest with
      | ']' :: ']' :: rest => return (.row path, rest)
      | _ => none
  | '[' :: rest => do
      let (path, rest) ← dottedKey rest
      match rest with
      | ']' :: rest => return (.table path, rest)
      | _ => none
  | cs => do
      let (path, rest) ← dottedKey cs
      match rest with
      | '=' :: rest => do
          let (value, rest) ← value (skipBlanks rest)
          return (.assign path value, rest)
      | _ => none

/-- A statement takes a character at least. -/
theorem length_of_read {cs rest : List Char} {first : Statement}
    (h : read cs = some (first, rest)) : rest.length < cs.length := by
  unfold read at h
  split at h
  -- All statements have a key first, at the front or behind their brackets.
  all_goals
    simp only [Option.bind_eq_bind, Option.bind_eq_some_iff, Prod.exists] at h
    obtain ⟨path, after, hpath, h⟩ := h
    have hafter := dottedKey_shortens hpath
    split at h
  next =>
    cases h
    simp only [List.length_cons] at hafter ⊢
    omega
  next => cases h
  next =>
    cases h
    simp only [List.length_cons] at hafter ⊢
    omega
  next => cases h
  next tail =>
    simp only [Option.bind_eq_some_iff, Prod.exists] at h
    obtain ⟨value, last, hvalue, heq⟩ := h
    cases heq
    have hlast := value_shortens hvalue
    have hblanks := length_skipBlanks_le tail
    rw [List.length_cons] at hafter
    omega
  next => cases h

end Statement

namespace Draft

/-- What a statement adds to a document. -/
def apply (draft : Draft) : Statement → Option Draft
  | .assign path value =>
      (draft.root.update false (Table.set path value) draft.header).map (⟨·, draft.header⟩)
  | .table path => (draft.root.openTable path).map (⟨·, path⟩)
  | .row path => (draft.root.openRow path).map (⟨·, path⟩)

def applyAll (draft : Draft) (statements : List Statement) : Option Draft :=
  statements.foldlM apply draft

theorem applyAll_nil (draft : Draft) : draft.applyAll [] = some draft := rfl

theorem applyAll_cons (draft : Draft) (first : Statement) (rest : List Statement) :
    draft.applyAll (first :: rest) = (draft.apply first).bind (·.applyAll rest) :=
  List.foldlM_cons ..

end Draft

/-- A statement is read first and then added. -/
theorem statement_eq (draft : Draft) (cs : List Char) :
    statement draft cs =
      (Statement.read cs).bind fun found => (draft.apply found.1).map (·, found.2) := by
  cases cs using Statement.read.fun_cases with
  | case1 rest =>
      rw [statement.eq_1, Statement.read.eq_1]
      simp only [Option.bind_eq_bind, Option.bind_assoc]
      congr 1
      funext found
      obtain ⟨path, after⟩ := found
      dsimp only
      split <;> simp [Draft.apply, Option.map_eq_bind, Option.bind_assoc]
  | case2 rest hsingle =>
      rw [statement.eq_2 _ _ hsingle, Statement.read.eq_2 _ hsingle]
      simp only [Option.bind_eq_bind, Option.bind_assoc]
      congr 1
      funext found
      obtain ⟨path, after⟩ := found
      dsimp only
      split <;> simp [Draft.apply, Option.map_eq_bind, Option.bind_assoc]
  | case3 cs hdouble hsingle =>
      rw [statement.eq_3 _ _ hdouble hsingle, Statement.read.eq_3 _ hdouble hsingle, keyStatement]
      simp only [Option.bind_eq_bind, Option.bind_assoc]
      congr 1
      funext found
      obtain ⟨path, after⟩ := found
      dsimp only
      split <;> simp [Draft.apply, Option.map_eq_bind, Option.bind_assoc]

/-! ## Documents -/

/-- The statements on the lines of a text. -/
inductive Lines : List Char → List Statement → Prop where
  | done {cs : List Char} (hblank : skipBlanks cs = []) : Lines cs []
  | empty {cs rest : List Char} {statements : List Statement} (hne : skipBlanks cs ≠ [])
      (hempty : isEmptyLine (skipBlanks cs) = true)
      (hend : skipLineEnd? (skipBlanks cs) = some rest) (hrest : Lines rest statements) :
      Lines cs statements
  | statement {cs behind rest : List Char} {first : Statement} {statements : List Statement}
      (hne : isEmptyLine (skipBlanks cs) = false)
      (hread : Statement.read (skipBlanks cs) = some (first, behind))
      (hend : skipLineEnd? behind = some rest) (hrest : Lines rest statements) :
      Lines cs (first :: statements)

/-- The statements build a table, one after the other. -/
def Builds (statements : List Statement) (table : Table) : Prop :=
  ∃ header, Draft.empty.applyAll statements = some ⟨table, header⟩

/-- The text is a document with the given table. -/
def Denotes (text : String) (table : Table) : Prop :=
  ∃ statements, Lines (dropByteOrderMark text.toList) statements ∧ Builds statements table

/-- A line has no statement, or one that is read before it is added. -/
theorem linesUpTo_succ (fuel : Nat) (draft : Draft) (cs : List Char) :
    linesUpTo (fuel + 1) draft cs =
      if skipBlanks cs = [] then some draft
      else if isEmptyLine (skipBlanks cs) then
        (skipLineEnd? (skipBlanks cs)).bind (linesUpTo fuel draft)
      else
        (Statement.read (skipBlanks cs)).bind fun found =>
          (draft.apply found.1).bind fun next =>
            (skipLineEnd? found.2).bind (linesUpTo fuel next) := by
  rw [linesUpTo]
  by_cases hempty : isEmptyLine (skipBlanks cs) = true
  · simp [hempty]
  · simp [hempty, statement_eq, Option.map_eq_bind, Option.bind_assoc]

theorem lines_of_blank {cs : List Char} {statements : List Statement}
    (hblank : skipBlanks cs = []) : Lines cs statements ↔ statements = [] := by
  constructor
  · intro hlines
    cases hlines with
    | done => rfl
    | empty hne => exact absurd hblank hne
    | statement hline => simp [hblank, isEmptyLine] at hline
  · rintro rfl
    exact .done hblank

theorem lines_of_empty {cs : List Char} {statements : List Statement} (hne : skipBlanks cs ≠ [])
    (hempty : isEmptyLine (skipBlanks cs) = true) :
    Lines cs statements ↔
      ∃ rest, skipLineEnd? (skipBlanks cs) = some rest ∧ Lines rest statements := by
  constructor
  · intro hlines
    cases hlines with
    | done hblank => exact absurd hblank hne
    | empty _ _ hend hrest => exact ⟨_, hend, hrest⟩
    | statement hline => simp [hempty] at hline
  · rintro ⟨rest, hend, hrest⟩
    exact .empty hne hempty hend hrest

theorem lines_of_statement {cs : List Char} {statements : List Statement}
    (hne : skipBlanks cs ≠ []) (hline : isEmptyLine (skipBlanks cs) = false) :
    Lines cs statements ↔
      ∃ first others behind rest, statements = first :: others ∧
        Statement.read (skipBlanks cs) = some (first, behind) ∧
        skipLineEnd? behind = some rest ∧ Lines rest others := by
  constructor
  · intro hlines
    cases hlines with
    | done hblank => exact absurd hblank hne
    | empty _ hempty => simp [hline] at hempty
    | statement _ hread hend hrest => exact ⟨_, _, _, _, rfl, hread, hend, hrest⟩
  · rintro ⟨first, others, behind, rest, rfl, hread, hend, hrest⟩
    exact .statement hline hread hend hrest

/-- Where a line is not blank, less is left behind it. -/
theorem length_behind_line {cs behind rest : List Char} (hne : skipBlanks cs ≠ [])
    (hbehind : behind.length ≤ (skipBlanks cs).length) (hend : skipLineEnd? behind = some rest) :
    rest.length < cs.length := by
  have hblanks := length_skipBlanks_le cs
  have hpos := List.length_pos_iff.mpr hne
  rcases length_of_skipLineEnd? hend with rfl | hless
  · exact Nat.lt_of_lt_of_le hpos hblanks
  · omega

/-- Enough fuel reads all lines. -/
theorem linesUpTo_eq_some_iff {fuel : Nat} {draft after : Draft} {cs : List Char}
    (hfuel : cs.length < fuel) :
    linesUpTo fuel draft cs = some after ↔
      ∃ statements, Lines cs statements ∧ draft.applyAll statements = some after := by
  induction fuel generalizing draft cs with
  | zero => exact absurd hfuel (Nat.not_lt_zero _)
  | succ fuel ih =>
      rw [linesUpTo_succ]
      split_ifs with hblank hempty
      · simp [lines_of_blank hblank, Draft.applyAll_nil]
      · simp only [lines_of_empty hblank hempty, Option.bind_eq_some_iff]
        constructor
        · rintro ⟨rest, hend, h⟩
          have hless := length_behind_line hblank (Nat.le_refl _) hend
          obtain ⟨statements, hrest, h⟩ := (ih (by omega)).mp h
          exact ⟨statements, ⟨rest, hend, hrest⟩, h⟩
        · rintro ⟨statements, ⟨rest, hend, hrest⟩, h⟩
          have hless := length_behind_line hblank (Nat.le_refl _) hend
          exact ⟨rest, hend, (ih (by omega)).mpr ⟨statements, hrest, h⟩⟩
      · have hline := eq_false_of_ne_true hempty
        simp only [lines_of_statement hblank hline, Option.bind_eq_some_iff, Prod.exists]
        constructor
        · rintro ⟨first, behind, hread, next, hnext, rest, hend, h⟩
          have hless := length_behind_line hblank (Statement.length_of_read hread).le hend
          obtain ⟨others, hrest, h⟩ := (ih (by omega)).mp h
          refine ⟨_, ⟨first, others, behind, rest, rfl, hread, hend, hrest⟩, ?_⟩
          rw [Draft.applyAll_cons, hnext, Option.bind_some, h]
        · rintro ⟨_, ⟨first, others, behind, rest, rfl, hread, hend, hrest⟩, h⟩
          have hless := length_behind_line hblank (Statement.length_of_read hread).le hend
          rw [Draft.applyAll_cons, Option.bind_eq_some_iff] at h
          obtain ⟨next, hnext, h⟩ := h
          exact ⟨first, behind, hread, next, hnext, rest, hend,
            (ih (by omega)).mpr ⟨others, hrest, h⟩⟩

/-- The documents are the texts that are read, and their tables are what is read. -/
theorem parse?_eq_some_iff (text : String) (table : Table) :
    parse? text = some table ↔ Denotes text table := by
  rw [parse?, Option.map_eq_some_iff]
  simp only [linesUpTo_eq_some_iff (Nat.lt_succ_self _)]
  constructor
  · rintro ⟨after, ⟨statements, hlines, hall⟩, rfl⟩
    exact ⟨statements, hlines, after.header, hall⟩
  · rintro ⟨statements, hlines, header, hall⟩
    exact ⟨_, ⟨statements, hlines, hall⟩, rfl⟩

end LineMarkup.Toml
