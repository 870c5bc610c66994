import Reconcile.Proofs.AlteringColumns
import Reconcile.Proofs.ColumnStatements

/-!
# When a column is restated

Whether two columns differ in type, nullability or collation is asked in two ways.  The
comparison and PostgreSQL compare the attributes, and types in either letter case
(`ShapesDiffer`).  SQL Server compares the texts that state them, letter by letter.  The
texts are different wherever the attributes are, but also where the catalogs merely spell a
type in different cases (`Respelled`), and then a column is restated to what it already is
(`alterColumn_restates_iff`).
-/

namespace Reconcile

/-! ## The test by attributes -/

/-- Type, nullability or a collation that counts is another one. -/
def ShapesDiffer (o : Options) (desired current : Column) : Prop :=
  Text.sameFolded desired.dataType current.dataType = false
    ∨ desired.nullable ≠ current.nullable
    ∨ (o.ignoreCollate = false ∧ desired.collation ≠ current.collation)

/-- The types are the same but for the case of their letters. -/
def Respelled (desired current : Column) : Prop :=
  Text.sameFolded desired.dataType current.dataType = true
    ∧ desired.dataType ≠ current.dataType

instance (o : Options) (desired current : Column) : Decidable (ShapesDiffer o desired current) := by
  unfold ShapesDiffer
  infer_instance

instance (desired current : Column) : Decidable (Respelled desired current) := by
  unfold Respelled
  infer_instance

variable {o : Options} {t : Table} {desired current : Column}

theorem not_shapesDiffer_of_equal (h : columnsEqual o desired current = true) :
    ¬ ShapesDiffer o desired current := by
  simp only [columnsEqual, Bool.and_eq_true, Bool.or_eq_true, beq_iff_eq] at h
  obtain ⟨⟨⟨⟨⟨htype, hnullable⟩, -⟩, -⟩, -⟩, hcollation⟩ := h
  rintro (hdiffers | hdiffers | ⟨hcounts, hdiffers⟩)
  · exact Bool.false_ne_true (hdiffers.symm.trans htype)
  · exact hdiffers hnullable
  · rcases hcollation with hignored | ⟨hsame, -⟩
    · exact Bool.false_ne_true (hcounts.symm.trans hignored)
    · exact hdiffers hsame

theorem Column.scriptedCollation_ne_iff {a b : Column} :
    a.scriptedCollation o ≠ b.scriptedCollation o
      ↔ o.ignoreCollate = false ∧ a.collation ≠ b.collation := by
  rw [ne_eq, Column.scriptedCollation_eq_iff, not_or, Bool.not_eq_true]

/-! ## PostgreSQL -/

namespace PostgreSql

/-- The change states a type, a collation or a nullability. -/
def ColumnChange.Restates : ColumnChange → Prop
  | .retype _ _ => True
  | .setNullable _ => True
  | _ => False

theorem not_restates_identities {change : ColumnChange}
    (h : change ∈ identities desired current) : ¬ change.Restates := by
  unfold identities identityChange at h
  split at h
  · split at h <;> simp_all [ColumnChange.Restates]
  · cases h

theorem not_restates_defaults {change : ColumnChange} (h : change ∈ defaults desired current) :
    ¬ change.Restates := by
  unfold defaults at h
  split at h
  · rw [List.mem_singleton.mp h]
    cases desired.default <;> exact id
  · cases h

theorem not_restates_comments {change : ColumnChange} (h : change ∈ comments desired current) :
    ¬ change.Restates := by
  unfold comments at h
  split at h
  · rw [List.mem_singleton.mp h]
    exact id
  · cases h

/-- PostgreSQL restates a column by the test of the comparison. -/
theorem restates_iff :
    (∃ change ∈ columnChanges o desired current, change.Restates)
      ↔ ShapesDiffer o desired current := by
  constructor
  · rintro ⟨change, hchange, hrestates⟩
    rw [columnChanges_eq] at hchange
    simp only [List.mem_append] at hchange
    rcases hchange with (((hretyped | hidentity) | hnullable) | hdefault) | hcomment
    · unfold retypes at hretyped
      split at hretyped
      · next hdiffers =>
          rw [Bool.or_eq_true, Bool.not_eq_true', bne_iff_ne,
            Column.scriptedCollation_ne_iff] at hdiffers
          exact hdiffers.imp_right Or.inr
      · cases hretyped
    · exact absurd hrestates (not_restates_identities hidentity)
    · unfold nullabilities at hnullable
      split at hnullable
      · next hdiffers => exact Or.inr (Or.inl (bne_iff_ne.mp hdiffers))
      · cases hnullable
    · exact absurd hrestates (not_restates_defaults hdefault)
    · exact absurd hrestates (not_restates_comments hcomment)
  · rintro (htype | hnullable | hcollation)
    · exact ⟨.retype desired.dataType (desired.scriptedCollation o),
        by simp [columnChanges, htype], trivial⟩
    · exact ⟨.setNullable desired.nullable, by simp [columnChanges, hnullable], trivial⟩
    · have hscripted := Column.scriptedCollation_ne_iff.mpr hcollation
      exact ⟨.retype desired.dataType (desired.scriptedCollation o),
        by simp [columnChanges, hscripted], trivial⟩

end PostgreSql

/-! ## SQL Server -/

theorem Dialect.alterTable_begins_iff {d : Dialect} {a b : String} :
    Begins (d.alterTable o t a) (d.alterTable o t b) ↔ Begins a b := by
  unfold Begins
  rw [toList_alterTable, toList_alterTable, List.prefix_append_right_inj,
    List.prefix_append_right_inj, List.cons_prefix_cons]
  simp

namespace SqlServer

/-- The statement is an ALTER COLUMN of the table. -/
def Restates (o : Options) (t : Table) (text : String) : Prop :=
  Begins (Dialect.sqlServer.alterTable o t "ALTER COLUMN ") text

theorem restates_statement_iff {column : String} {change : ColumnChange} :
    Restates o t (change.statement o t column)
      ↔ ∃ dataType collation nullable, change = .restate dataType collation nullable := by
  rw [Restates, ColumnChange.statement_eq, Dialect.alterTable_begins_iff]
  constructor
  · intro hbegins
    have hfirst : change.firstWord = "ALTER COLUMN " := by
      rcases ColumnChange.firstWord_eq_or_exclusive change (.restate "" none true) with h | h
      · exact h
      · exact absurd hbegins ((change.words_begin).not_begins h)
    cases change with
    | dropDefault => simp [ColumnChange.firstWord] at hfirst
    | restate dataType collation nullable => exact ⟨dataType, collation, nullable, rfl⟩
    | addDefault name => cases name <;> simp [ColumnChange.firstWord] at hfirst
  · rintro ⟨dataType, collation, nullable, rfl⟩
    exact ColumnChange.words_begin (.restate dataType collation nullable)

/-- There is an ALTER COLUMN just if the texts differ that state the two columns. -/
theorem restates_iff_columnShape {statements : List String}
    (hidentity : desired.identity = current.identity)
    (h : alterColumn o t desired current = .ok statements) :
    (∃ text ∈ statements, Restates o t text)
      ↔ columnShape o desired ≠ columnShape o current := by
  obtain ⟨drops, hdrops, rfl⟩ := (alterColumn_eq_ok_iff hidentity).mp h
  constructor
  · rintro ⟨text, htext, hrestates⟩
    obtain ⟨change, hchange, rfl⟩ := List.mem_map.mp htext
    obtain ⟨dataType, collation, nullable, rfl⟩ := restates_statement_iff.mp hrestates
    simp only [List.mem_append] at hchange
    rcases hchange with (hdropped | hrestated) | hadded
    · obtain ⟨name, hdrop⟩ := mem_releases hdrops hdropped
      cases hdrop
    · exact (mem_restatements.mp hrestated).1
    · obtain ⟨name, expression, hadd⟩ := mem_additions hadded
      cases hadd
  · intro hshape
    have hmem := List.mem_append_left (additions desired current)
      (List.mem_append_right drops (mem_restatements.mpr ⟨hshape, rfl⟩))
    exact ⟨_, List.mem_map_of_mem hmem, restates_statement_iff.mpr ⟨_, _, _, rfl⟩⟩

/-- The texts that state two columns without blanks differ where the attributes do, and
where a type is spelled in other letters. -/
theorem columnShape_ne_iff (hd : desired.Unspaced) (hc : current.Unspaced) :
    columnShape o desired ≠ columnShape o current
      ↔ ShapesDiffer o desired current ∨ Respelled desired current := by
  have hsame : desired.dataType = current.dataType →
      Text.sameFolded desired.dataType current.dataType = true := by
    intro h
    rw [h]
    exact sameFolded_self _
  rw [ne_eq, columnShape_eq_iff hd hc, ShapesDiffer, Respelled,
    ← Column.scriptedCollation_ne_iff, ← Bool.not_eq_true]
  tauto

/-- An alteration without another identity fails just if a default that changes has no
constraint to drop it by, and has an ALTER COLUMN otherwise where type, nullability or a
collation that counts differ, or where the type is respelled.  So it restates by the test
that the comparison and PostgreSQL apply unless only the spelling of the type differs. -/
theorem alterColumn_restates_iff (o : Options) (t : Table) (desired current : Column)
    (hidentity : desired.identity = current.identity) (hd : desired.Unspaced)
    (hc : current.Unspaced) :
    ((∃ fault, alterColumn o t desired current = .error fault)
      ↔ desired.default ≠ current.default ∧ ¬ Named current)
    ∧ (∀ statements, alterColumn o t desired current = .ok statements →
      ((∃ text ∈ statements, Restates o t text)
        ↔ ShapesDiffer o desired current ∨ Respelled desired current)
      ∧ (((∃ text ∈ statements, Restates o t text) ↔ ShapesDiffer o desired current)
        ↔ (Respelled desired current → ShapesDiffer o desired current)))
    ∧ (columnsEqual o desired current = true → ¬ ShapesDiffer o desired current)
    ∧ ((∃ change ∈ PostgreSql.columnChanges o desired current, change.Restates)
      ↔ ShapesDiffer o desired current) := by
  refine ⟨?fails, ?restates, not_shapesDiffer_of_equal, PostgreSql.restates_iff⟩
  case fails =>
      simp only [alterColumn_eq_error_iff hidentity]
      exact ⟨fun ⟨_, h⟩ => ⟨h.1, h.2.1⟩, fun h => ⟨_, h.1, h.2, rfl⟩⟩
  case restates =>
      intro statements h
      have hrestates := (restates_iff_columnShape hidentity h).trans (columnShape_ne_iff hd hc)
      refine ⟨hrestates, ?_⟩
      rw [hrestates, or_iff_left_iff_imp]

/-- A wider column is restated, in whatever letters its type is spelled. -/
theorem alterColumn_restates_iff_note :
    let orders : Table := { schema := "dbo", name := "orders" }
    let current : Column := { name := "note", dataType := "varchar(20)" }
    let desired : Column := { name := "note", dataType := "VARCHAR(40)" }
    desired.identity = current.identity ∧ desired.Unspaced ∧ current.Unspaced
    ∧ alterColumn {} orders desired current
      = .ok ["ALTER TABLE [orders] ALTER COLUMN [note] VARCHAR(40) NOT NULL"]
    ∧ ∃ text ∈ ["ALTER TABLE [orders] ALTER COLUMN [note] VARCHAR(40) NOT NULL"],
        Restates {} orders text := by
  refine ⟨by decide, by decide, by decide, by decide, ?_⟩
  have hrestates := alterColumn_restates_iff {} { schema := "dbo", name := "orders" }
    { name := "note", dataType := "VARCHAR(40)" } { name := "note", dataType := "varchar(20)" }
    rfl (by decide) (by decide)
  exact (hrestates.2.1 _ (by decide)).1.mpr (by decide)

/-- Columns that are equal to the comparison are restated where their types are respelled,
and so is a column of which only the default changes. -/
theorem alterColumn_restates_quantity :
    let orders : Table := { schema := "dbo", name := "orders" }
    let current : Column := { name := "quantity", dataType := "int" }
    let respelled : Column := { name := "quantity", dataType := "INT" }
    let filled : Column :=
      { respelled with default := some "((0))", defaultConstraint := some "df_quantity" }
    columnsEqual {} respelled current = true
    ∧ ¬ ShapesDiffer {} respelled current
    ∧ alterColumn {} orders respelled current
      = .ok ["ALTER TABLE [orders] ALTER COLUMN [quantity] INT NOT NULL"]
    ∧ ¬ ShapesDiffer {} filled current
    ∧ alterColumn {} orders filled current
      = .ok ["ALTER TABLE [orders] ALTER COLUMN [quantity] INT NOT NULL",
          "ALTER TABLE [orders] ADD CONSTRAINT [df_quantity] DEFAULT ((0)) FOR [quantity]"] := by
  exact ⟨by decide, by decide, by decide, by decide, by decide⟩

end SqlServer

end Reconcile
