import Reconcile.Proofs.Names
import Reconcile.Script.Plan

/-!
# How statements begin

Which kind a statement is can be read off its first words: two starts of which
neither continues the other never begin the same text.  The one case where first
words do not decide is a constraint that is added to a table.  There the name of
the table and then the name of the constraint are read past, and what follows
tells a foreign key from a primary key, a unique constraint and a default.

Main statements: `alterTable_inj` reads table and change back from a statement, and
the three lemmas `not_addsForeignKey_of_*` say which texts are no creation of a
foreign key.
-/

namespace Reconcile

/-- A text stands in an interpolated statement as it is.  Unfolding the printing of
values instead would take numbers apart. -/
@[simp] theorem toString_text (s : String) : toString s = s :=
  rfl

/-- The text starts with those words. -/
def Begins (start text : String) : Prop :=
  start.toList <+: text.toList

/-- Neither of two starts continues the other. -/
def Exclusive (a b : String) : Prop :=
  ¬ a.toList <+: b.toList ∧ ¬ b.toList <+: a.toList

instance (a b : String) : Decidable (Exclusive a b) := by
  unfold Exclusive
  infer_instance

namespace Begins

theorem refl (a : String) : Begins a a :=
  List.prefix_refl _

theorem append {a t : String} (h : Begins a t) (u : String) : Begins a (t ++ u) := by
  unfold Begins
  rw [String.toList_append]
  exact h.trans (List.prefix_append _ _)

theorem not_begins {a b t : String} (h : Begins a t) (hab : Exclusive a b) :
    ¬ Begins b t := by
  intro hb
  rcases List.prefix_or_prefix_of_prefix h hb with hp | hp
  · exact hab.1 hp
  · exact hab.2 hp

/-- Texts with exclusive starts are not the same. -/
theorem ne {a b t u : String} (h : Begins a t) (hab : Exclusive a b)
    (hu : Begins b u) : t ≠ u := by
  intro hsame
  rw [hsame] at h
  exact h.not_begins hab hu

end Begins

/-! ## Changes of a table -/

namespace Dialect

variable {d : Dialect} {o : Options} {t t' : Table}

theorem toList_alterTable (change : String) :
    (d.alterTable o t change).toList
      = "ALTER TABLE ".toList ++ ((d.tableName o t).toList ++ ' ' :: change.toList) := by
  unfold alterTable
  simp

theorem alterTable_begins (change : String) :
    Begins "ALTER TABLE " (d.alterTable o t change) := by
  unfold Begins
  rw [toList_alterTable]
  exact List.prefix_append _ _

/-- The table and the change can be read back from a statement that alters a
table. -/
theorem alterTable_inj {change change' : String}
    (h : d.alterTable o t change = d.alterTable o t' change') :
    (o.useSchemaName = true → t.schema = t'.schema) ∧ t.name = t'.name
      ∧ change = change' := by
  have hchars := congrArg String.toList h
  rw [toList_alterTable, toList_alterTable] at hchars
  obtain ⟨hschema, hname, hchange⟩ :=
    qualified_append_inj (List.append_cancel_left hchars)
  exact ⟨hschema, hname, String.toList_inj.mp hchange⟩

/-- How a change begins that adds a constraint, up to what it says of it. -/
def constraintStart (d : Dialect) (name word : String) : String :=
  "ADD CONSTRAINT " ++ d.quote name ++ " " ++ word

/-- The change adds a foreign key to its table. -/
def AddsKey (d : Dialect) (change : String) : Prop :=
  ∃ name, Begins (d.constraintStart name "FOREIGN KEY (") change

theorem constraintStart_begins (name word : String) :
    Begins "ADD CONSTRAINT " (d.constraintStart name word) := by
  unfold constraintStart
  exact (((Begins.refl _).append _).append _).append _

/-- The start with its word run together with the blank before it. -/
theorem constraintStart_eq {name word joined : String} (h : " " ++ word = joined) :
    d.constraintStart name word = "ADD CONSTRAINT " ++ d.quote name ++ joined := by
  unfold constraintStart
  rw [String.append_assoc, h]

theorem toList_constraintStart (name word : String) :
    (d.constraintStart name word).toList
      = "ADD CONSTRAINT ".toList ++ ((d.quote name).toList ++ ' ' :: word.toList) := by
  unfold constraintStart
  simp

theorem not_addsKey_of_begins {start change : String} (h : Begins start change)
    (hne : Exclusive start "ADD CONSTRAINT ") : ¬ d.AddsKey change := by
  rintro ⟨name, hkey⟩
  exact h.not_begins hne ((constraintStart_begins name _).trans hkey)

/-- A constraint that does not go on as a foreign key is none. -/
theorem not_addsKey_of_constraint {name word change : String}
    (h : Begins (d.constraintStart name word) change)
    (hne : Exclusive word "FOREIGN KEY (") : ¬ d.AddsKey change := by
  rintro ⟨other, ⟨r', hr'⟩⟩
  obtain ⟨r, hr⟩ := h
  have hsame := hr.trans hr'.symm
  rw [toList_constraintStart, toList_constraintStart, List.append_assoc,
    List.append_assoc, List.append_assoc, List.append_assoc] at hsame
  have hblank : ∀ cs : List Char, (' ' :: cs).head? ≠ some d.closingQuote := by
    intro cs hcs
    exact closingQuote_ne_blank (Option.some.inj hcs).symm
  -- A blank ends the quoted name in both readings, so what follows it is the same.
  obtain ⟨-, hrest⟩ := quote_append_inj (hblank _) (hblank _)
    (List.append_cancel_left hsame)
  have hwords : word.toList ++ r = "FOREIGN KEY (".toList ++ r' :=
    (List.cons.inj hrest).2
  have hone : word.toList <+: word.toList ++ r := List.prefix_append _ _
  have htwo : "FOREIGN KEY (".toList <+: word.toList ++ r := by
    rw [hwords]
    exact List.prefix_append _ _
  rcases List.prefix_or_prefix_of_prefix hone htwo with hp | hp
  · exact hne.1 hp
  · exact hne.2 hp

end Dialect

/-! ## Statements that add a foreign key -/

/-- The statement is one that the spelling writes to add a foreign key. -/
def Spelling.AddsForeignKey (s : Spelling) (text : String) : Prop :=
  ∃ t fk, s.createForeignKey t fk = .ok text

namespace Spelling

variable {d : Dialect} {o : Options} {t : Table} {text : String}

@[simp] theorem of_dialect (d : Dialect) (o : Options) :
    (Spelling.of d o).dialect = d := by
  cases d <;> rfl

@[simp] theorem of_options (d : Dialect) (o : Options) :
    (Spelling.of d o).options = o := by
  cases d <;> rfl

theorem createForeignKey_changes {fk : ForeignKey}
    (h : (Spelling.of d o).createForeignKey t fk = .ok text) :
    ∃ change, text = d.alterTable o t change ∧ d.AddsKey change := by
  unfold createForeignKey at h
  cases hactions : (Spelling.of d o).referentialActions fk with
  | error e => simp [hactions, bind, Except.bind] at h
  | ok actions =>
      simp only [hactions, bind, Except.bind, pure, Except.pure, of_dialect,
        of_options, Except.ok.injEq] at h
      refine ⟨_, h.symm, fk.name, ?_⟩
      -- Seven parts follow the opening bracket; none of them matters here.
      iterate 7 refine Begins.append ?_ _
      have hword : " " ++ "FOREIGN KEY (" = " FOREIGN KEY (" := by decide
      rw [Dialect.constraintStart_eq hword]
      simp only [toString_text, quote, of_dialect]
      exact Begins.refl _

theorem not_addsForeignKey_of_begins (start : String) (h : Begins start text)
    (hne : Exclusive start "ALTER TABLE ") :
    ¬ (Spelling.of d o).AddsForeignKey text := by
  rintro ⟨t, fk, htext⟩
  obtain ⟨change, rfl, -⟩ := createForeignKey_changes htext
  exact h.not_begins hne (Dialect.alterTable_begins change)

/-- A statement that alters a table adds a foreign key only if its change does. -/
theorem not_addsForeignKey_alterTable {change : String}
    (h : ¬ d.AddsKey change) :
    ¬ (Spelling.of d o).AddsForeignKey (d.alterTable o t change) := by
  rintro ⟨t', fk, htext⟩
  obtain ⟨change', hsame, hkey⟩ := createForeignKey_changes htext
  obtain ⟨-, -, rfl⟩ := Dialect.alterTable_inj hsame
  exact h hkey

theorem not_addsForeignKey_of_change (start : String) {change : String}
    (h : Begins start change) (hne : Exclusive start "ADD CONSTRAINT ") :
    ¬ (Spelling.of d o).AddsForeignKey (d.alterTable o t change) :=
  not_addsForeignKey_alterTable (Dialect.not_addsKey_of_begins h hne)

theorem not_addsForeignKey_of_constraint (name word : String) {change : String}
    (h : Begins (d.constraintStart name word) change)
    (hne : Exclusive word "FOREIGN KEY (") :
    ¬ (Spelling.of d o).AddsForeignKey (d.alterTable o t change) :=
  not_addsForeignKey_alterTable (Dialect.not_addsKey_of_constraint h hne)

end Spelling

end Reconcile
