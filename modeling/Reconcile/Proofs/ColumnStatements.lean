import Reconcile.Proofs.ColumnShapes
import Reconcile.Proofs.Plans
import Reconcile.Proofs.Wording

/-!
# What the statements for a column say

SQL Server alters a column in at most three steps, each of which is there or not for
reasons of its own: the default that goes is dropped, the column is restated, the default
that comes is added (`columnChanges_eq`).  Each statement says which step it is.  Its first
words tell the three apart, and the rest is read by the quotes around names and by the
blanks between the parts of a shape (`statement_inj`).
-/

namespace Reconcile.SqlServer

variable {o : Options} {t : Table} {column : String} {desired current : Column}

/-! ## The steps -/

/-- The default that goes, or the reason why it cannot. -/
def releases (t : Table) (desired current : Column) : Except ScriptFault (List ColumnChange) :=
  if desired.default != current.default then dropDefault t current else pure []

def restatements (o : Options) (desired current : Column) : List ColumnChange :=
  if columnShape o desired != columnShape o current then
    [.restate desired.dataType (desired.scriptedCollation o) desired.nullable]
  else []

/-- The default that comes. -/
def additions (desired current : Column) : List ColumnChange :=
  if desired.default != current.default then
    desired.default.toList.map (.addDefault desired.defaultConstraint)
  else []

theorem releases_of_same (h : desired.default = current.default) :
    releases t desired current = .ok [] := by
  simp [releases, h, pure, Except.pure]

theorem releases_of_changed (h : desired.default ≠ current.default) :
    releases t desired current = dropDefault t current := by
  simp [releases, h]

/-- An identity that stays leaves three steps. -/
theorem columnChanges_eq (hidentity : desired.identity = current.identity) :
    columnChanges o t desired current
      = (releases t desired current).map fun drops =>
          drops ++ restatements o desired current ++ additions desired current := by
  unfold columnChanges releases additions restatements
  simp only [hidentity, ne_eq, not_true, if_false]
  cases desired.default != current.default with
  | false => rfl
  | true => cases dropDefault t current <;> rfl

section Members

variable {change : ColumnChange} {drops : List ColumnChange}

theorem mem_releases (h : releases t desired current = .ok drops) (hchange : change ∈ drops) :
    ∃ name, change = .dropDefault name := by
  unfold releases dropDefault at h
  split at h
  · split at h <;> cases h
    · cases hchange
    · exact ⟨_, List.mem_singleton.mp hchange⟩
  · cases h
    cases hchange

theorem mem_restatements :
    change ∈ restatements o desired current
      ↔ columnShape o desired ≠ columnShape o current
        ∧ change = .restate desired.dataType (desired.scriptedCollation o) desired.nullable := by
  by_cases hshape : columnShape o desired = columnShape o current <;>
    simp [restatements, hshape]

theorem mem_additions (hchange : change ∈ additions desired current) :
    ∃ name expression, change = .addDefault name expression := by
  unfold additions at hchange
  split at hchange
  · obtain ⟨expression, -, rfl⟩ := List.mem_map.mp hchange
    exact ⟨_, _, rfl⟩
  · cases hchange

/-- No blank stands in a type or a collation that the change restates. -/
def ColumnChange.Unspaced : ColumnChange → Prop
  | .restate dataType collation _ =>
      ' ' ∉ dataType.toList ∧ ∀ name ∈ collation, ' ' ∉ name.toList
  | _ => True

/-- The steps to a column without blanks restate none. -/
theorem unspaced_steps (hd : desired.Unspaced) (h : releases t desired current = .ok drops) :
    ∀ change ∈ drops ++ restatements o desired current ++ additions desired current,
      change.Unspaced := by
  intro change hchange
  simp only [List.mem_append] at hchange
  rcases hchange with (hdropped | hrestated) | hadded
  · obtain ⟨name, rfl⟩ := mem_releases h hdropped
    trivial
  · obtain ⟨-, rfl⟩ := mem_restatements.mp hrestated
    exact ⟨hd.1, scriptedCollation_unspaced hd⟩
  · obtain ⟨name, expression, rfl⟩ := mem_additions hadded
    trivial

end Members

/-! ## Where a step is refused -/

/-- If the column has a default, the name of its constraint is known. -/
def Named (c : Column) : Prop :=
  c.default.isSome → c.defaultConstraint.isSome

instance (c : Column) : Decidable (Named c) := by
  unfold Named
  infer_instance

/-- A default that changes cannot go without the name of its constraint, and that is all
that can be in the way. -/
theorem releases_eq_error_iff {fault : ScriptFault} :
    releases t desired current = .error fault
      ↔ desired.default ≠ current.default ∧ ¬ Named current
        ∧ fault = .unnamedDefault t.name current.name := by
  by_cases hsame : desired.default = current.default
  · simp [releases_of_same hsame, hsame]
  · rw [releases_of_changed hsame, dropDefault]
    cases hdefault : current.default with
    | none => simp [Named, hdefault]
    | some expression =>
        rw [hdefault] at hsame
        cases hname : current.defaultConstraint <;>
          simp [Named, hdefault, hname, hsame, eq_comm]

theorem alterColumn_eq_error_iff {fault : ScriptFault}
    (hidentity : desired.identity = current.identity) :
    alterColumn o t desired current = .error fault
      ↔ desired.default ≠ current.default ∧ ¬ Named current
        ∧ fault = .unnamedDefault t.name current.name := by
  rw [← releases_eq_error_iff (t := t), alterColumn, columnChanges_eq hidentity]
  cases releases t desired current <;> simp [Except.map]

/-- The statements of an alteration are those of its steps. -/
theorem alterColumn_eq_ok_iff {statements : List String}
    (hidentity : desired.identity = current.identity) :
    alterColumn o t desired current = .ok statements
      ↔ ∃ drops, releases t desired current = .ok drops
        ∧ (drops ++ restatements o desired current ++ additions desired current).map
            (ColumnChange.statement o t desired.name) = statements := by
  rw [alterColumn, columnChanges_eq hidentity]
  simp [map_eq_ok]

/-! ## The words of a step -/

namespace ColumnChange

/-- What a change says after the table that it alters. -/
def words (column : String) (change : ColumnChange) : String :=
  match change with
  | .dropDefault constraint => "DROP CONSTRAINT " ++ Dialect.sqlServer.quote constraint
  | .restate dataType collation nullable =>
      "ALTER COLUMN " ++ Dialect.sqlServer.quote column ++ " "
        ++ shape dataType collation nullable
  | .addDefault constraint expression =>
      "ADD " ++ constraintClause constraint ++ "DEFAULT " ++ expression ++ " FOR "
        ++ Dialect.sqlServer.quote column

@[simp] theorem words_dropDefault (constraint : String) :
    (dropDefault constraint).words column
      = "DROP CONSTRAINT " ++ Dialect.sqlServer.quote constraint := rfl

@[simp] theorem words_restate (dataType : String) (collation : Option String)
    (nullable : Bool) :
    (restate dataType collation nullable).words column
      = "ALTER COLUMN " ++ Dialect.sqlServer.quote column ++ " "
        ++ shape dataType collation nullable := rfl

@[simp] theorem words_addDefault (constraint : Option String) (expression : String) :
    (addDefault constraint expression).words column
      = "ADD " ++ constraintClause constraint ++ "DEFAULT " ++ expression ++ " FOR "
        ++ Dialect.sqlServer.quote column := rfl

theorem statement_eq (change : ColumnChange) :
    change.statement o t column = Dialect.sqlServer.alterTable o t (change.words column) := by
  cases change <;> rfl

/-- Up to the word that tells the steps apart. -/
def firstWord : ColumnChange → String
  | .dropDefault _ => "DROP CONSTRAINT "
  | .restate _ _ _ => "ALTER COLUMN "
  | .addDefault none _ => "ADD DEFAULT "
  | .addDefault (some _) _ => "ADD CONSTRAINT "

theorem words_begin (change : ColumnChange) : Begins change.firstWord (change.words column) := by
  cases change with
  | dropDefault constraint => simp [firstWord, Begins]
  | restate dataType collation nullable => simp [firstWord, Begins]
  | addDefault constraint expression =>
      cases constraint <;> simp [firstWord, constraintClause, Begins]

theorem firstWord_mem (change : ColumnChange) :
    change.firstWord
      ∈ ["DROP CONSTRAINT ", "ALTER COLUMN ", "ADD DEFAULT ", "ADD CONSTRAINT "] := by
  cases change with
  | dropDefault | restate => simp [firstWord]
  | addDefault constraint => cases constraint <;> simp [firstWord]

theorem firstWord_eq_or_exclusive (a b : ColumnChange) :
    a.firstWord = b.firstWord ∨ Exclusive a.firstWord b.firstWord := by
  have hwords : ∀ x ∈ ["DROP CONSTRAINT ", "ALTER COLUMN ", "ADD DEFAULT ", "ADD CONSTRAINT "],
      ∀ y ∈ ["DROP CONSTRAINT ", "ALTER COLUMN ", "ADD DEFAULT ", "ADD CONSTRAINT "],
        x = y ∨ Exclusive x y := by
    decide
  exact hwords _ (firstWord_mem a) _ (firstWord_mem b)

/-- A default that is added can be told from the name of its constraint. -/
theorem addDefault_words_inj {name name' : Option String} {expression expression' : String}
    (hfirst : (addDefault name expression).firstWord = (addDefault name' expression').firstWord)
    (h : (addDefault name expression).words column
      = (addDefault name' expression').words column) :
    name = name' ∧ expression = expression' := by
  cases name with
  | none =>
      cases name' with
      | none => exact ⟨rfl, by simpa [constraintClause] using h⟩
      | some constraint' => simp [firstWord] at hfirst
  | some constraint =>
      cases name' with
      | none => simp [firstWord] at hfirst
      | some constraint' =>
          have hchars := congrArg String.toList h
          simp only [words_addDefault, constraintClause, toString_text, String.toList_append,
            List.append_assoc, List.append_cancel_left_eq] at hchars
          obtain ⟨rfl, hrest⟩ :=
            Dialect.quote_append_inj (by simp [Dialect.closingQuote])
              (by simp [Dialect.closingQuote]) hchars
          have hexpression : expression.toList = expression'.toList := by simpa using hrest
          exact ⟨rfl, String.toList_inj.mp hexpression⟩

/-- The words of a change say which change it is. -/
theorem words_inj {a b : ColumnChange} (ha : a.Unspaced) (hb : b.Unspaced)
    (h : a.words column = b.words column) : a = b := by
  have hfirst : a.firstWord = b.firstWord :=
    (firstWord_eq_or_exclusive a b).resolve_right fun hne =>
      (words_begin a).ne hne (words_begin b) h
  cases a with
  | dropDefault constraint =>
      cases b with
      | dropDefault constraint' =>
          have hquoted : Dialect.sqlServer.quote constraint
              = Dialect.sqlServer.quote constraint' := by
            simpa using h
          rw [Dialect.quote_inj hquoted]
      | restate => simp [firstWord] at hfirst
      | addDefault name => cases name <;> simp [firstWord] at hfirst
  | restate dataType collation nullable =>
      cases b with
      | dropDefault => simp [firstWord] at hfirst
      | restate dataType' collation' nullable' =>
          have hshape : shape dataType collation nullable
              = shape dataType' collation' nullable' := by
            simpa using h
          obtain ⟨rfl, rfl, rfl⟩ := shape_inj ha.1 hb.1 ha.2 hb.2 hshape
          rfl
      | addDefault name => cases name <;> simp [firstWord] at hfirst
  | addDefault name expression =>
      cases b with
      | dropDefault => cases name <;> simp [firstWord] at hfirst
      | restate => cases name <;> simp [firstWord] at hfirst
      | addDefault name' expression' =>
          obtain ⟨rfl, rfl⟩ := addDefault_words_inj hfirst h
          rfl

/-- So does its statement. -/
theorem statement_inj {a b : ColumnChange} (ha : a.Unspaced) (hb : b.Unspaced)
    (h : a.statement o t column = b.statement o t column) : a = b := by
  rw [statement_eq, statement_eq] at h
  exact words_inj ha hb (Dialect.alterTable_inj h).2.2

/-- A list of statements says which changes it makes. -/
theorem statements_inj {as bs : List ColumnChange} (ha : ∀ a ∈ as, a.Unspaced)
    (hb : ∀ b ∈ bs, b.Unspaced)
    (h : as.map (statement o t column) = bs.map (statement o t column)) : as = bs := by
  induction as generalizing bs with
  | nil => exact (List.map_eq_nil_iff.mp h.symm).symm
  | cons a as ih =>
      obtain ⟨b, bs, rfl, hfirst, hrest⟩ := List.map_eq_cons_iff.mp h.symm
      rw [statement_inj (ha a List.mem_cons_self) (hb b List.mem_cons_self) hfirst.symm,
        ih (fun x hx => ha x (List.mem_cons_of_mem _ hx))
          (fun x hx => hb x (List.mem_cons_of_mem _ hx)) hrest.symm]

end ColumnChange

/-- The statements are those of the changes, and of no other changes that can be read
back. -/
structure Says (o : Options) (t : Table) (column : String) (statements : List String)
    (changes : List ColumnChange) : Prop where
  written : statements = changes.map (ColumnChange.statement o t column)
  only : ∀ others : List ColumnChange, (∀ change ∈ others, change.Unspaced) →
    statements = others.map (ColumnChange.statement o t column) → others = changes

theorem says_of_unspaced {changes : List ColumnChange}
    (h : ∀ change ∈ changes, change.Unspaced) :
    Says o t column (changes.map (ColumnChange.statement o t column)) changes where
  written := rfl
  only := fun _ hothers hsame => ColumnChange.statements_inj hothers h hsame.symm

end Reconcile.SqlServer
