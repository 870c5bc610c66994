import Reconcile.Proofs.TableEdits

/-!
# Empty plans

A plan that alters a table is empty just if the comparison finds nothing to alter
(`Table.planAlter_empty_iff`).  One direction is the rule for edits: what is unchanged
calls for none.  The other needs that every edit has a statement, or fails, and there the
comparison and the three engines meet that are written independently of each other.  They
notice the same attributes on tables as the engine's crawler reads them
(`Table.ReportedBy`); an attribute that no crawler of the engine fills in may count in the
comparison and have no statement.
-/

namespace Reconcile

/-! ## Tables as an engine reports them -/

/-- Only MySQL has character sets of columns.  SQL Server has no comments of them, and no
blank in a type or a collation. -/
def Column.ReportedBy (c : Column) : Dialect → Prop
  | .mySql => True
  | .postgreSql => c.characterSet = none
  | .sqlServer => c.characterSet = none ∧ c.comment = none ∧ c.Unspaced

/-- Tables of MySQL have an engine with a name, and those of other engines say nothing
beside their members. -/
def TableExtension.ReportedBy : TableExtension → Dialect → Prop
  | .mySql engine _ _ _, .mySql => engine ≠ ""
  | .none, .postgreSql => True
  | .none, .sqlServer => True
  | _, _ => False

/-- A table that uses only what the crawler of an engine fills in. -/
structure Table.ReportedBy (t : Table) (d : Dialect) : Prop where
  columns : ∀ c ∈ t.columns, c.ReportedBy d
  extension : t.extension.ReportedBy d

instance (c : Column) (d : Dialect) : Decidable (c.ReportedBy d) := by
  cases d <;> unfold Column.ReportedBy <;> infer_instance

instance (x : TableExtension) (d : Dialect) : Decidable (x.ReportedBy d) := by
  cases x <;> cases d <;> unfold TableExtension.ReportedBy <;> infer_instance

instance (t : Table) (d : Dialect) : Decidable (t.ReportedBy d) :=
  decidable_of_iff ((∀ c ∈ t.columns, c.ReportedBy d) ∧ t.extension.ReportedBy d)
    ⟨fun h => ⟨h.1, h.2⟩, fun h => ⟨h.columns, h.extension⟩⟩

/-- What an engine has no statement for does not count where both columns are as the engine
reports them. -/
theorem Dialect.columnsEqual_of_unwritten {d : Dialect} {o : Options}
    {wanted existing : Column} (hw : wanted.ReportedBy d) (he : existing.ReportedBy d)
    (h : d.Unwritten o wanted existing) : columnsEqual o wanted existing = true := by
  cases d with
  | mySql => exact absurd h id
  | postgreSql =>
      have hsame : { existing with characterSet := wanted.characterSet } = existing := by
        have hset : wanted.characterSet = existing.characterSet := hw.trans he.symm
        rw [hset]
      rwa [Unwritten, hsame] at h
  | sqlServer =>
      obtain ⟨hidentity, hdefault, hshape⟩ := h
      obtain ⟨hset, hcomment, hspaces⟩ := hw
      obtain ⟨hset', hcomment', hspaces'⟩ := he
      obtain ⟨htype, hcollation, hnullable⟩ :=
        (SqlServer.columnShape_eq_iff hspaces hspaces').mp hshape
      have hcounted := Column.scriptedCollation_eq_iff.mp hcollation
      simp [columnsEqual, sameFolded_self, htype, hnullable, hdefault, hidentity, hcomment,
        hcomment', hset, hset', hcounted]

/-! ## Edits where something differs -/

namespace MemberDiff

variable {α : Type} {nameOf : α → String} {equal : α → α → Bool} {source target : List α}
  {m : MemberDiff α}

/-- A difference holds the members that its state speaks of, whether or not names are used
twice. -/
theorem between_cases (h : m ∈ between nameOf equal source target) :
    (∃ x ∈ source, ∃ y ∈ target,
      m = ⟨nameOf x, .classify equal (some x) (some y), some x, some y⟩)
    ∨ (∃ x ∈ source, m = ⟨nameOf x, .added, some x, none⟩)
    ∨ ∃ y ∈ target, m = ⟨nameOf y, .deleted, none, some y⟩ := by
  rcases List.mem_append.mp h with h | h
  · obtain ⟨x, hx, rfl⟩ := List.mem_map.mp h
    cases hlast : lastNamed nameOf (nameOf x) target with
    | none =>
        refine Or.inr (Or.inl ⟨x, hx, ?_⟩)
        simp [ofSource, hlast, DiffState.classify]
    | some y =>
        have hy := List.mem_reverse.mp (List.mem_of_find?_eq_some hlast)
        exact Or.inl ⟨x, hx, y, hy, by simp [ofSource, hlast]⟩
  · obtain ⟨y, hy, rfl⟩ := List.mem_map.mp h
    exact Or.inr (Or.inr ⟨y, (List.mem_filter.mp hy).1, rfl⟩)

/-- A member is neither dropped nor created just if it is unchanged. -/
theorem unedited_iff (h : m ∈ between nameOf equal source target) :
    m.dropped? = none ∧ m.created? = none ↔ m.state = .unchanged := by
  rcases between_cases h with ⟨x, -, y, -, rfl⟩ | ⟨x, -, rfl⟩ | ⟨y, -, rfl⟩
  · cases hequal : equal x y <;> simp [dropped?, created?, DiffState.classify, hequal]
  · simp [created?]
  · simp [dropped?]

theorem all_unedited_iff (nameOf : α → String) (equal : α → α → Bool) (source target : List α) :
    let ms := between nameOf equal source target
    ms.filterMap dropped? = [] ∧ ms.filterMap created? = []
      ↔ ∀ m ∈ ms, m.state = .unchanged := by
  intro ms
  rw [List.filterMap_eq_nil_iff, List.filterMap_eq_nil_iff, ← forall₂_and]
  exact forall₂_congr fun m hm => unedited_iff hm

theorem columnEdit_eq_none_iff {equal : Column → Column → Bool} {source target : List Column}
    {m : MemberDiff Column} (h : m ∈ between Column.name equal source target) :
    m.columnEdit? = none ↔ m.state = .unchanged := by
  rcases between_cases h with ⟨x, -, y, -, rfl⟩ | ⟨x, -, rfl⟩ | ⟨y, -, rfl⟩
  · cases hequal : equal x y <;> simp [columnEdit?, DiffState.classify, hequal]
  · simp [columnEdit?]
  · simp [columnEdit?]

/-- A column is altered where the two sides have one that differs. -/
theorem of_columnEdit_eq_alter {equal : Column → Column → Bool} {source target : List Column}
    {m : MemberDiff Column} (h : m ∈ between Column.name equal source target)
    {wanted existing : Column} (halter : m.columnEdit? = some (.alterColumn wanted existing)) :
    wanted ∈ source ∧ existing ∈ target ∧ equal wanted existing = false := by
  rcases between_cases h with ⟨x, hx, y, hy, rfl⟩ | ⟨x, -, rfl⟩ | ⟨y, -, rfl⟩
  · cases hequal : equal x y with
    | true => simp [columnEdit?, DiffState.classify, hequal] at halter
    | false =>
        simp only [columnEdit?, DiffState.classify, hequal, Bool.false_eq_true, if_false,
          Option.some.injEq, TableEdit.alterColumn.injEq] at halter
        obtain ⟨rfl, rfl⟩ := halter
        exact ⟨hx, hy, hequal⟩
  · simp [columnEdit?] at halter
  · simp [columnEdit?] at halter

end MemberDiff

/-- A difference calls for no edit just if it is none. -/
theorem TableDiff.inOrder_eq_nil_iff (o : Options) (source target : Table) :
    (between o source target).edits.inOrder = []
      ↔ (between o source target).isUnchanged = true := by
  have hcolumns : (between o source target).columns.filterMap MemberDiff.columnEdit? = []
      ↔ ∀ m ∈ (between o source target).columns, m.state = .unchanged := by
    rw [List.filterMap_eq_nil_iff]
    exact forall₂_congr fun m hm => MemberDiff.columnEdit_eq_none_iff hm
  have hindexes := MemberDiff.all_unedited_iff Index.name indexesEqual source.indexes
    target.indexes
  have hkeys := MemberDiff.all_unedited_iff ForeignKey.name (foreignKeysEqual o)
    source.foreignKeys target.foreignKeys
  have hoptions : (if (between o source target).optionsChanged then [TableEdit.alterOptions]
      else []) = [] ↔ (between o source target).optionsChanged = false := by
    cases (between o source target).optionsChanged <;> simp
  rw [isUnchanged_iff, ← hcolumns, ← hoptions]
  simp only [between] at hindexes hkeys ⊢
  rw [← hindexes, ← hkeys]
  simp only [TableEdits.inOrder, edits, List.append_eq_nil_iff, List.map_eq_nil_iff]
  tauto

/-! ## Statements where something differs -/

namespace Table

variable {d : Dialect} {o : Options} {desired current : Table} {p : Plan}

theorem planAlter_of_inOrder_eq_nil {s : Spelling}
    (h : (TableDiff.between s.options desired current).edits.inOrder = []) :
    planAlter s desired current = .ok {} := by
  simp only [TableEdits.inOrder, List.append_eq_nil_iff] at h
  obtain ⟨⟨⟨⟨hdropKeys, hdropIndexes⟩, halterations⟩, hindexes⟩, hkeys⟩ := h
  refine planAlter_eq_ok.mpr ⟨[], [], [], [], [], ?_⟩
  rw [hdropKeys, hdropIndexes, halterations, hindexes, hkeys]
  exact ⟨rfl, rfl, rfl, rfl, rfl, rfl⟩

/-- MySQL states an engine that has a name. -/
theorem alterTableOptions_ne_nil (hd : desired.extension.ReportedBy .mySql) :
    MySql.alterTableOptions o desired current ≠ [] := by
  cases hextension : desired.extension with
  | none =>
      rw [hextension] at hd
      exact hd.elim
  | mySql engine version characterSet collation =>
      have hengine : engine ≠ "" := by
        rw [hextension] at hd
        exact hd
      have hbegins : Begins s!"ENGINE={engine}" (MySql.tableOptions o desired) := by
        simp only [MySql.tableOptions, hextension, MySql.option, String.isEmpty_iff, hengine,
          if_false]
        exact Spelling.joined_begins _ _ _
      have hstated : MySql.tableOptions o desired ≠ "" := by
        intro hempty
        simp [hempty, Begins] at hbegins
      simp [MySql.alterTableOptions, hstated]

/-- Only MySQL has something to say of a table beside its members. -/
theorem alterOptions_statements_ne_nil (hd : desired.ReportedBy d) (hc : current.ReportedBy d)
    (hchanged : extensionsEqual o desired.extension current.extension = false) :
    TableEdit.statements (Spelling.of d o) desired current .alterOptions ≠ .ok [] := by
  have hdesired := hd.extension
  have hcurrent := hc.extension
  cases d with
  | mySql =>
      have hstated : MySql.alterTableOptions o desired current ≠ [] :=
        alterTableOptions_ne_nil hdesired
      exact fun h => hstated (Except.ok.inj h)
  | postgreSql | sqlServer =>
      cases hextension : desired.extension <;> cases hextension' : current.extension
        <;> simp [hextension, hextension', TableExtension.ReportedBy, extensionsEqual] at *

theorem alters_of_mem_inOrder {diff : TableDiff} {wanted existing : Column}
    (h : .alterColumn wanted existing ∈ diff.edits.inOrder) :
    ∃ m ∈ diff.columns, m.columnEdit? = some (.alterColumn wanted existing) := by
  simpa [TableEdits.inOrder, TableDiff.edits] using h

theorem optionsChanged_of_mem_inOrder {diff : TableDiff}
    (h : .alterOptions ∈ diff.edits.inOrder) : diff.optionsChanged = true := by
  have hcolumn : ∀ m : MemberDiff Column, m.columnEdit? ≠ some .alterOptions := by
    intro m hm
    rcases columnEdit_cases hm with ⟨_, h⟩ | ⟨_, h⟩ | ⟨_, _, h⟩ <;> cases h
  simpa [TableEdits.inOrder, TableDiff.edits, hcolumn] using h

/-- Every edit that a difference calls for has a statement if it can be written. -/
theorem statements_ne_nil (hd : desired.ReportedBy d) (hc : current.ReportedBy d)
    {e : TableEdit} (he : e ∈ (TableDiff.between o desired current).edits.inOrder) :
    e.statements (Spelling.of d o) desired current ≠ .ok [] := by
  intro h
  -- Only the two kinds of alterations can be without statement.
  by_cases hcolumn : ∃ wanted existing, e = .alterColumn wanted existing
  · obtain ⟨wanted, existing, rfl⟩ := hcolumn
    obtain ⟨m, hm, halter⟩ := alters_of_mem_inOrder he
    obtain ⟨hwanted, hexisting, hdiffers⟩ := MemberDiff.of_columnEdit_eq_alter hm halter
    have hequal := Dialect.columnsEqual_of_unwritten (hd.columns wanted hwanted)
      (hc.columns existing hexisting) (alterColumn_eq_nil.mp h)
    exact Bool.false_ne_true (hdiffers.symm.trans hequal)
  · by_cases hoptions : e = .alterOptions
    · subst hoptions
      have hchanged : extensionsEqual o desired.extension current.extension = false := by
        simpa [TableDiff.between] using optionsChanged_of_mem_inOrder he
      exact alterOptions_statements_ne_nil hd hc hchanged h
    · push Not at hcolumn
      exact texts_ne_nil h hcolumn hoptions (texts_of_statements h)

theorem statements_planAlter_ne_nil (hd : desired.ReportedBy d) (hc : current.ReportedBy d)
    (h : planAlter (Spelling.of d o) desired current = .ok p)
    (hdiffers : (TableDiff.between o desired current).isUnchanged = false) :
    p.statements ≠ [] := by
  have hedits : (TableDiff.between o desired current).edits.inOrder ≠ [] := by
    rw [ne_eq, TableDiff.inOrder_eq_nil_iff, hdiffers]
    exact Bool.false_ne_true
  obtain ⟨e, he⟩ := List.exists_mem_of_ne_nil _ hedits
  obtain ⟨hstatements, hwritten⟩ := planAlter_eq_operations h
  rw [Spelling.of_options] at hwritten
  obtain ⟨texts, htexts⟩ := hwritten e he
  have hne : e.texts (Spelling.of d o) desired current ≠ [] := by
    intro hnil
    rw [texts_of_statements htexts] at hnil
    exact statements_ne_nil hd hc he (hnil ▸ htexts)
  have hoperation : e ∈ operations (Spelling.of d o) desired current := by
    rw [operations, Spelling.of_options]
    exact List.mem_filter.mpr ⟨he, by simpa using hne⟩
  rw [hstatements]
  intro hnil
  exact hne (List.flatMap_eq_nil_iff.mp hnil e hoperation)

/-- No difference is dropped: between tables as the engine reports them the plan is empty
just if the comparison finds them unchanged, and otherwise there is a statement or the plan
fails.  Names may even be used twice. -/
theorem planAlter_empty_iff (hd : desired.ReportedBy d) (hc : current.ReportedBy d) :
    ((∃ p, planAlter (Spelling.of d o) desired current = .ok p ∧ p.isEmpty = true)
      ↔ (TableDiff.between o desired current).isUnchanged = true)
    ∧ ((TableDiff.between o desired current).isUnchanged = false →
      (∃ fault, planAlter (Spelling.of d o) desired current = .error fault)
      ∨ ∃ p, planAlter (Spelling.of d o) desired current = .ok p ∧ p.statements ≠ []) := by
  refine ⟨⟨?unchanged, ?empty⟩, ?differs⟩
  case unchanged =>
      rintro ⟨p, hp, hempty⟩
      by_contra hdiffers
      exact statements_planAlter_ne_nil hd hc hp (Bool.eq_false_iff.mpr hdiffers)
        (List.isEmpty_iff.mp hempty)
  case empty =>
      intro hunchanged
      refine ⟨{}, planAlter_of_inOrder_eq_nil ?_, rfl⟩
      rw [Spelling.of_options]
      exact (TableDiff.inOrder_eq_nil_iff o desired current).mpr hunchanged
  case differs =>
      intro hdiffers
      cases hplan : planAlter (Spelling.of d o) desired current with
      | error fault => exact Or.inl ⟨fault, rfl⟩
      | ok p => exact Or.inr ⟨p, rfl, statements_planAlter_ne_nil hd hc hplan hdiffers⟩

/-- Letter case of a type never counts, and the collation does unless it is ignored. -/
theorem planAlter_empty_iff_notes :
    let notes : Table :=
      { schema := "dbo", name := "notes"
        columns := [{ name := "note", dataType := "nvarchar(50)",
                      collation := some "Latin1_General_CI_AS" }] }
    let collated : Table :=
      { notes with columns := [{ name := "note", dataType := "NVARCHAR(50)",
                                 collation := some "Latin1_General_CS_AS" }] }
    notes.ReportedBy .sqlServer ∧ collated.ReportedBy .sqlServer
    ∧ (∃ p, planAlter (Spelling.of .sqlServer { ignoreCollate := true }) notes collated = .ok p
        ∧ p.isEmpty = true)
    ∧ ((∃ fault, planAlter (Spelling.of .sqlServer {}) notes collated = .error fault)
      ∨ ∃ p, planAlter (Spelling.of .sqlServer {}) notes collated = .ok p
          ∧ p.statements ≠ []) := by
  intro notes collated
  have hnotes : notes.ReportedBy .sqlServer := by decide
  have hcollated : collated.ReportedBy .sqlServer := by decide
  have hempty := (planAlter_empty_iff hnotes hcollated).1.mpr
    (by decide : (TableDiff.between { ignoreCollate := true } notes collated).isUnchanged = true)
  have hdiffers := (planAlter_empty_iff hnotes hcollated).2
    (by decide : (TableDiff.between {} notes collated).isUnchanged = false)
  exact ⟨hnotes, hcollated, hempty, hdiffers⟩

end Table

end Reconcile
