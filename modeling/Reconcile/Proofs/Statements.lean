import Reconcile.Proofs.Wording

/-!
# What each engine writes

The first words of the statements of the three engines, as far as the order of a
script turns on them: which statements drop a table, and which add a foreign key.
A statement that drops something is recognised as such, whatever it is called;
everything else that is written for a table, an index or a sequence adds no foreign
key.
-/

namespace Reconcile.Spelling

variable {d : Dialect} {o : Options} {t : Table} {text : String}
  {texts : List String}

/-! ## Drops -/

theorem dropTable_begins (t : Table) :
    Begins "DROP TABLE " ((Spelling.of d o).dropTable t) := by
  unfold dropTable Dialect.dropTable
  simp [Begins]

theorem dropView_begins (v : View) :
    Begins "DROP VIEW " ((Spelling.of d o).dropView v) := by
  unfold dropView Dialect.dropView
  simp [Begins]

theorem dropRoutine_begins (r : Routine) :
    Begins "DROP FUNCTION " ((Spelling.of d o).dropRoutine r)
      ∨ Begins "DROP PROCEDURE " ((Spelling.of d o).dropRoutine r) := by
  cases hk : r.kind with
  | function =>
      refine Or.inl ?_
      cases d <;>
        simp [Begins, Spelling.of, SqlServer.spelling, MySql.spelling,
          PostgreSql.spelling, SqlServer.dropRoutine, MySql.dropRoutine,
          PostgreSql.dropRoutine, RoutineKind.keyword, hk]
  | procedure =>
      refine Or.inr ?_
      cases d <;>
        simp [Begins, Spelling.of, SqlServer.spelling, MySql.spelling,
          PostgreSql.spelling, SqlServer.dropRoutine, MySql.dropRoutine,
          PostgreSql.dropRoutine, RoutineKind.keyword, hk]

theorem dropForeignKey_changes (t : Table) (fk : ForeignKey) :
    ∃ change, (Spelling.of d o).dropForeignKey t fk = d.alterTable o t change
      ∧ Begins "DROP " change := by
  cases d <;> exact ⟨_, rfl, by simp [Begins]⟩

/-- An index goes by a statement of its own, a constraint by a change of its
table. -/
theorem dropIndex_changes (t : Table) (i : Index) :
    Begins "DROP INDEX " ((Spelling.of d o).dropIndex t i)
      ∨ ∃ change, (Spelling.of d o).dropIndex t i = d.alterTable o t change
        ∧ Begins "DROP " change := by
  cases d with
  | sqlServer =>
      change Begins _ (SqlServer.dropIndex o t i)
        ∨ ∃ change, SqlServer.dropIndex o t i = _ ∧ _
      unfold SqlServer.dropIndex
      split
      · exact Or.inr ⟨_, rfl, by simp [Begins]⟩
      · exact Or.inl (by simp [Begins])
  | mySql =>
      change Begins _ (MySql.dropIndex o t i)
        ∨ ∃ change, MySql.dropIndex o t i = _ ∧ _
      unfold MySql.dropIndex
      split
      · exact Or.inr ⟨_, rfl, by simp [Begins]⟩
      · exact Or.inl (by simp [Begins])
  | postgreSql =>
      change Begins _ (PostgreSql.dropIndex o t i)
        ∨ ∃ change, PostgreSql.dropIndex o t i = _ ∧ _
      unfold PostgreSql.dropIndex
      split
      · exact Or.inr ⟨_, rfl, by simp [Begins]⟩
      · exact Or.inl (by simp [Begins])

theorem dropColumn_changes {c : Column}
    (h : text ∈ (Spelling.of d o).dropColumn t c) :
    ∃ change, text = d.alterTable o t change ∧ Begins "DROP " change := by
  cases d with
  | sqlServer =>
      rcases List.mem_append.mp h with h | h
      · obtain ⟨name, -, rfl⟩ := List.mem_map.mp h
        exact ⟨_, rfl, by simp [Begins]⟩
      · rw [List.mem_singleton.mp h]
        exact ⟨_, rfl, by simp [Begins]⟩
  | mySql =>
      rw [List.mem_singleton.mp h]
      exact ⟨_, rfl, by simp [Begins]⟩
  | postgreSql =>
      rw [List.mem_singleton.mp h]
      exact ⟨_, rfl, by simp [Begins]⟩

theorem alterTable_ne_dropTable (t : Table) (change : String) (u : Table) :
    d.alterTable o t change ≠ (Spelling.of d o).dropTable u :=
  (Dialect.alterTable_begins change).ne (by decide) (dropTable_begins u)

theorem dropForeignKey_ne_dropTable (t : Table) (fk : ForeignKey) (u : Table) :
    (Spelling.of d o).dropForeignKey t fk ≠ (Spelling.of d o).dropTable u := by
  obtain ⟨change, hchange, -⟩ := dropForeignKey_changes (d := d) (o := o) t fk
  rw [hchange]
  exact alterTable_ne_dropTable t change u

theorem dropIndex_ne_dropTable (t : Table) (i : Index) (u : Table) :
    (Spelling.of d o).dropIndex t i ≠ (Spelling.of d o).dropTable u := by
  rcases dropIndex_changes (d := d) (o := o) t i with h | ⟨change, hchange, -⟩
  · exact h.ne (by decide) (dropTable_begins u)
  · rw [hchange]
    exact alterTable_ne_dropTable t change u

theorem dropView_ne_dropTable (v : View) (u : Table) :
    (Spelling.of d o).dropView v ≠ (Spelling.of d o).dropTable u :=
  (dropView_begins v).ne (by decide) (dropTable_begins u)

theorem dropRoutine_ne_dropTable (r : Routine) (u : Table) :
    (Spelling.of d o).dropRoutine r ≠ (Spelling.of d o).dropTable u := by
  rcases dropRoutine_begins (d := d) (o := o) r with h | h
  · exact h.ne (by decide) (dropTable_begins u)
  · exact h.ne (by decide) (dropTable_begins u)

/-! ## No drop adds a foreign key -/

theorem dropTable_adds_no_key (t : Table) :
    ¬ (Spelling.of d o).AddsForeignKey ((Spelling.of d o).dropTable t) :=
  not_addsForeignKey_of_begins _ (dropTable_begins t) (by decide)

theorem dropView_adds_no_key (v : View) :
    ¬ (Spelling.of d o).AddsForeignKey ((Spelling.of d o).dropView v) :=
  not_addsForeignKey_of_begins _ (dropView_begins v) (by decide)

theorem dropRoutine_adds_no_key (r : Routine) :
    ¬ (Spelling.of d o).AddsForeignKey ((Spelling.of d o).dropRoutine r) := by
  rcases dropRoutine_begins (d := d) (o := o) r with h | h
  · exact not_addsForeignKey_of_begins _ h (by decide)
  · exact not_addsForeignKey_of_begins _ h (by decide)

theorem dropForeignKey_adds_no_key (t : Table) (fk : ForeignKey) :
    ¬ (Spelling.of d o).AddsForeignKey ((Spelling.of d o).dropForeignKey t fk) := by
  obtain ⟨change, hchange, hdrop⟩ := dropForeignKey_changes (d := d) (o := o) t fk
  rw [hchange]
  exact not_addsForeignKey_of_change _ hdrop (by decide)

theorem dropIndex_adds_no_key (t : Table) (i : Index) :
    ¬ (Spelling.of d o).AddsForeignKey ((Spelling.of d o).dropIndex t i) := by
  rcases dropIndex_changes (d := d) (o := o) t i with h | ⟨change, hchange, hdrop⟩
  · exact not_addsForeignKey_of_begins _ h (by decide)
  · rw [hchange]
    exact not_addsForeignKey_of_change _ hdrop (by decide)

theorem dropColumn_adds_no_key {c : Column}
    (h : text ∈ (Spelling.of d o).dropColumn t c) :
    ¬ (Spelling.of d o).AddsForeignKey text := by
  obtain ⟨change, rfl, hdrop⟩ := dropColumn_changes h
  exact not_addsForeignKey_of_change _ hdrop (by decide)

/-! ## What tables and columns are made of -/

theorem columnComment_begins (column : String) (comment : Option String) :
    Begins "COMMENT ON COLUMN " (PostgreSql.columnComment o t column comment) := by
  unfold PostgreSql.columnComment
  repeat refine Begins.append ?_ _
  exact Begins.refl _

theorem createTable_adds_no_key (h : (Spelling.of d o).createTable t = .ok texts)
    (hmem : text ∈ texts) : ¬ (Spelling.of d o).AddsForeignKey text := by
  cases d with
  | sqlServer =>
      cases h
      rw [List.mem_singleton.mp hmem]
      exact not_addsForeignKey_of_begins "CREATE TABLE "
        (by simp [Begins]) (by decide)
  | mySql =>
      change MySql.createTable o t = .ok texts at h
      unfold MySql.createTable at h
      split at h
      · simp at h
      · cases h
        rw [List.mem_singleton.mp hmem]
        exact not_addsForeignKey_of_begins "CREATE TABLE "
          (by simp [Begins]) (by decide)
  | postgreSql =>
      cases h
      rcases List.mem_cons.mp hmem with rfl | hcomment
      · exact not_addsForeignKey_of_begins "CREATE TABLE "
          (by simp [Begins]) (by decide)
      · obtain ⟨c, -, rfl⟩ := List.mem_map.mp hcomment
        exact not_addsForeignKey_of_begins _ (columnComment_begins _ _) (by decide)

/-- SQL Server adds a column without the word COLUMN, so here it is the quote in
front of the column's name that rules a constraint out. -/
theorem addColumn_adds_no_key {c : Column}
    (hmem : text ∈ (Spelling.of d o).addColumn t c) :
    ¬ (Spelling.of d o).AddsForeignKey text := by
  cases d with
  | sqlServer =>
      rw [List.mem_singleton.mp hmem]
      refine not_addsForeignKey_of_change "ADD [" ?_ (by decide)
      simp [Begins, SqlServer.columnDefinition, Dialect.quote, Text.enclose,
        Text.encloseChars, Dialect.openingQuote]
  | mySql =>
      rw [List.mem_singleton.mp hmem]
      exact not_addsForeignKey_of_change "ADD COLUMN "
        (by simp [Begins]) (by decide)
  | postgreSql =>
      rcases List.mem_cons.mp hmem with rfl | hcomment
      · exact not_addsForeignKey_of_change "ADD COLUMN "
          (by simp [Begins]) (by decide)
      · split at hcomment
        · rw [List.mem_singleton.mp hcomment]
          exact not_addsForeignKey_of_begins _ (columnComment_begins _ _) (by decide)
        · cases hcomment

theorem sqlServer_change_adds_no_key (column : String)
    (change : SqlServer.ColumnChange) :
    ¬ (Spelling.of .sqlServer o).AddsForeignKey
      (SqlServer.ColumnChange.statement o t column change) := by
  cases change with
  | dropDefault name =>
      exact not_addsForeignKey_of_change "DROP CONSTRAINT "
        (by simp [Begins]) (by decide)
  | restate dataType collation nullable =>
      exact not_addsForeignKey_of_change "ALTER COLUMN "
        (by simp [Begins]) (by decide)
  | addDefault name expression =>
      cases name with
      | none =>
          exact not_addsForeignKey_of_change "ADD DEFAULT "
            (by simp [Begins, SqlServer.constraintClause]) (by decide)
      | some name =>
          refine not_addsForeignKey_of_constraint name "DEFAULT " ?_ (by decide)
          unfold Dialect.constraintStart
          simp [Begins, SqlServer.constraintClause]

theorem postgreSql_change_adds_no_key (column : String)
    (change : PostgreSql.ColumnChange) :
    ¬ (Spelling.of .postgreSql o).AddsForeignKey
      (PostgreSql.ColumnChange.statement o t column change) := by
  have halter : ∀ clause : String, ¬ (Spelling.of .postgreSql o).AddsForeignKey
      (Dialect.postgreSql.alterTable o t
        s!"ALTER COLUMN {Dialect.postgreSql.quote column} {clause}") := by
    intro clause
    exact not_addsForeignKey_of_change "ALTER COLUMN "
      (by simp [Begins]) (by decide)
  cases change with
  | retype dataType collation => exact halter _
  | addIdentity i => exact halter _
  | dropIdentity => exact halter _
  | setIdentity i => exact halter _
  | setNullable nullable => cases nullable <;> exact halter _
  | setDefault expression => exact halter _
  | dropDefault => exact halter _
  | comment comment =>
      exact not_addsForeignKey_of_begins _ (columnComment_begins _ _) (by decide)

theorem alterColumn_adds_no_key {desired current : Column}
    (h : (Spelling.of d o).alterColumn t desired current = .ok texts)
    (hmem : text ∈ texts) : ¬ (Spelling.of d o).AddsForeignKey text := by
  cases d with
  | sqlServer =>
      change SqlServer.alterColumn o t desired current = .ok texts at h
      unfold SqlServer.alterColumn at h
      cases hchanges : SqlServer.columnChanges o t desired current with
      | error e => simp [hchanges, Except.map] at h
      | ok changes =>
          simp only [hchanges, Except.map, Except.ok.injEq] at h
          subst h
          obtain ⟨change, -, rfl⟩ := List.mem_map.mp hmem
          exact sqlServer_change_adds_no_key _ change
  | mySql =>
      cases h
      rw [List.mem_singleton.mp hmem]
      exact not_addsForeignKey_of_change "MODIFY COLUMN "
        (by simp [Begins]) (by decide)
  | postgreSql =>
      cases h
      obtain ⟨change, -, rfl⟩ := List.mem_map.mp hmem
      exact postgreSql_change_adds_no_key _ change

theorem joined_begins (separator part : String) (parts : List String) :
    Begins part (Text.joined separator (part :: parts)) := by
  cases parts with
  | nil => simp [Begins, Text.joined]
  | cons next rest =>
      rw [Text.joined, String.intercalate_cons_cons]
      exact ((Begins.refl _).append _).append _

theorem option_begins {name value part : String}
    (h : part ∈ MySql.option name value) : Begins (name ++ "=") part := by
  unfold MySql.option at h
  split at h
  · cases h
  · rw [List.mem_singleton.mp h]
    exact (Begins.refl _).append value

/-- The options of a table begin with the name of the first one that is given. -/
theorem tableOptions_begins (h : MySql.tableOptions o t ≠ "") :
    ∃ name ∈ ["ENGINE", "DEFAULT CHARSET", "COLLATE"],
      Begins (name ++ "=") (MySql.tableOptions o t) := by
  cases hextension : t.extension with
  | none => simp [MySql.tableOptions, hextension] at h
  | mySql engine version characterSet collation =>
      obtain ⟨parts, hparts⟩ : ∃ parts, parts = MySql.option "ENGINE" engine
          ++ if o.ignoreCollate then [] else MySql.option "DEFAULT CHARSET" characterSet
            ++ MySql.option "COLLATE" collation := ⟨_, rfl⟩
      have hjoined : MySql.tableOptions o t = Text.joined " " parts := by
        simp [MySql.tableOptions, hextension, hparts]
      rw [hjoined] at h ⊢
      cases parts with
      | nil => exact absurd rfl h
      | cons part rest =>
          have hpart : part ∈ part :: rest := List.mem_cons_self
          rw [hparts, List.mem_append] at hpart
          have hbegins := joined_begins " " part rest
          rcases hpart with hpart | hpart
          · exact ⟨"ENGINE", by simp, (option_begins hpart).trans hbegins⟩
          · split at hpart
            · cases hpart
            · rcases List.mem_append.mp hpart with hpart | hpart
              · exact ⟨"DEFAULT CHARSET", by simp, (option_begins hpart).trans hbegins⟩
              · exact ⟨"COLLATE", by simp, (option_begins hpart).trans hbegins⟩

theorem alterTableOptions_adds_no_key {desired current : Table}
    (hmem : text ∈ (Spelling.of d o).alterTableOptions desired current) :
    ¬ (Spelling.of d o).AddsForeignKey text := by
  cases d with
  | sqlServer => cases hmem
  | postgreSql => cases hmem
  | mySql =>
      change text ∈ MySql.alterTableOptions o desired current at hmem
      by_cases hnone : MySql.tableOptions o desired = ""
      · simp [MySql.alterTableOptions, hnone] at hmem
      · simp only [MySql.alterTableOptions, String.isEmpty_iff, hnone, if_false,
          List.mem_singleton] at hmem
        subst hmem
        obtain ⟨name, hname, hbegins⟩ := tableOptions_begins hnone
        refine not_addsForeignKey_of_change _ hbegins ?_
        simp only [List.mem_cons, List.not_mem_nil, or_false] at hname
        rcases hname with rfl | rfl | rfl <;> decide

/-! ## Indexes -/

theorem sqlServer_createIndex_adds_no_key {i : Index}
    (h : SqlServer.createIndex o t i = .ok text) :
    ¬ (Spelling.of .sqlServer o).AddsForeignKey text := by
  unfold SqlServer.createIndex at h
  cases hkind : i.kind with
  | fulltext => simp [hkind] at h
  | primaryKey =>
      simp only [hkind, Except.ok.injEq] at h
      subst h
      refine not_addsForeignKey_of_constraint i.name "PRIMARY KEY " ?_ (by decide)
      unfold Dialect.constraintStart
      simp [Begins]
  | uniqueConstraint =>
      simp only [hkind, Except.ok.injEq] at h
      subst h
      refine not_addsForeignKey_of_constraint i.name "UNIQUE " ?_ (by decide)
      unfold Dialect.constraintStart
      simp [Begins]
  | unique | index | spatial =>
      simp only [hkind, Except.ok.injEq] at h
      subst h
      exact not_addsForeignKey_of_begins "CREATE "
        (by simp [Begins]) (by decide)

theorem mySql_createIndex_adds_no_key (i : Index) :
    ¬ (Spelling.of .mySql o).AddsForeignKey (MySql.createIndex o t i) := by
  cases hkind : i.kind with
  | primaryKey =>
      simp only [MySql.createIndex, hkind]
      exact not_addsForeignKey_of_change "ADD PRIMARY KEY "
        (by simp [Begins]) (by decide)
  | unique | uniqueConstraint | index | fulltext | spatial =>
      simp only [MySql.createIndex, hkind]
      exact not_addsForeignKey_of_begins "CREATE "
        (by simp [Begins]) (by decide)

theorem postgreSql_createIndex_adds_no_key {i : Index}
    (h : PostgreSql.createIndex o t i = .ok text) :
    ¬ (Spelling.of .postgreSql o).AddsForeignKey text := by
  unfold PostgreSql.createIndex at h
  cases hkind : i.kind with
  | fulltext | spatial => simp [hkind] at h
  | primaryKey =>
      simp only [hkind, Except.ok.injEq] at h
      subst h
      refine not_addsForeignKey_of_constraint i.name "PRIMARY KEY " ?_ (by decide)
      unfold Dialect.constraintStart
      simp [Begins]
  | uniqueConstraint =>
      simp only [hkind, Except.ok.injEq] at h
      subst h
      refine not_addsForeignKey_of_constraint i.name "UNIQUE " ?_ (by decide)
      unfold Dialect.constraintStart
      simp [Begins]
  | unique | index =>
      simp only [hkind, Except.ok.injEq] at h
      subst h
      exact not_addsForeignKey_of_begins "CREATE "
        (by simp [Begins]) (by decide)

theorem createIndex_adds_no_key {i : Index}
    (h : (Spelling.of d o).createIndex t i = .ok text) :
    ¬ (Spelling.of d o).AddsForeignKey text := by
  cases d with
  | sqlServer => exact sqlServer_createIndex_adds_no_key h
  | mySql =>
      cases h
      exact mySql_createIndex_adds_no_key i
  | postgreSql => exact postgreSql_createIndex_adds_no_key h

/-! ## Sequences -/

/-! The first words of these are peeled off one append at a time: simplifying the
whole text would also work on the numbers in it. -/

theorem createSequence_begins {q : Sequence}
    (h : (Spelling.of d o).createSequence q = .ok text) :
    Begins "CREATE SEQUENCE " text := by
  cases d with
  | mySql => cases h
  | sqlServer | postgreSql =>
      cases h
      repeat refine Begins.append ?_ _
      exact Begins.refl _

theorem dropSequence_begins {q : Sequence}
    (h : (Spelling.of d o).dropSequence q = .ok text) :
    Begins "DROP SEQUENCE " text := by
  cases d with
  | mySql => cases h
  | sqlServer | postgreSql =>
      cases h
      repeat refine Begins.append ?_ _
      exact Begins.refl _

theorem createSequence_adds_no_key {q : Sequence}
    (h : (Spelling.of d o).createSequence q = .ok text) :
    ¬ (Spelling.of d o).AddsForeignKey text :=
  not_addsForeignKey_of_begins _ (createSequence_begins h) (by decide)

theorem dropSequence_adds_no_key {q : Sequence}
    (h : (Spelling.of d o).dropSequence q = .ok text) :
    ¬ (Spelling.of d o).AddsForeignKey text :=
  not_addsForeignKey_of_begins _ (dropSequence_begins h) (by decide)

/-- A sequence is altered in place, or dropped and created anew. -/
theorem alterSequence_adds_no_key {desired current : Sequence}
    (h : (Spelling.of d o).alterSequence desired current = .ok texts)
    (hmem : text ∈ texts) : ¬ (Spelling.of d o).AddsForeignKey text := by
  have halter : ∀ {text : String}, Begins "ALTER SEQUENCE " text →
      ¬ (Spelling.of d o).AddsForeignKey text :=
    fun hbegins => not_addsForeignKey_of_begins _ hbegins (by decide)
  cases d with
  | mySql => cases h
  | postgreSql =>
      cases h
      rw [List.mem_singleton.mp hmem]
      apply halter
      repeat refine Begins.append ?_ _
      exact Begins.refl _
  | sqlServer =>
      cases h
      unfold SqlServer.alterSequence at hmem
      split at hmem
      · rw [List.mem_singleton.mp hmem]
        apply halter
        repeat refine Begins.append ?_ _
        exact Begins.refl _
      · simp only [List.mem_cons, List.not_mem_nil, or_false] at hmem
        rcases hmem with rfl | rfl
        · exact dropSequence_adds_no_key (d := .sqlServer) (q := current) rfl
        · exact createSequence_adds_no_key (d := .sqlServer) (q := desired) rfl

end Reconcile.Spelling
