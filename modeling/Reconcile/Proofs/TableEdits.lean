import Reconcile.Proofs.ColumnShapes
import Reconcile.Proofs.Convergence
import Reconcile.Proofs.MemberEdits

/-!
# Altering a table

A plan that alters a table is a list of edits in order, each with the statements that
write it (`Table.operations`).  Run on the table as it stands, every edit finds what it
needs: what is dropped or altered is there, what is added or created is not
(`TableEdit.run?`).  What equals the desired member is left alone, and afterwards no
member differs from the desired one (`Table.planAlter_converges`).

Edits of columns, of indexes and of foreign keys do not get in each other's way, so a
run is three runs on lists of named members (`TableEdit.run_of_parts`).  The order of the
phases matters for indexes and foreign keys: what differs is dropped before it is created
anew under its name.

One difference has no statement.  An engine that lacks an attribute of columns, such as a
character set of their own, cannot alter it, and a column that differs in nothing else
stays as it is (`Dialect.Unwritten`).
-/

namespace Reconcile

/-! ## Edits as edits of members -/

namespace TableEdit

/-- What an edit does to the list of columns, if anything. -/
def onColumns : TableEdit → Option (MemberEdit Column)
  | .dropColumn c => some (.remove c.name)
  | .addColumn c => some (.add c)
  | .alterColumn wanted _ => some (.replace wanted)
  | _ => none

def onIndexes : TableEdit → Option (MemberEdit Index)
  | .dropIndex i => some (.remove i.name)
  | .createIndex i => some (.add i)
  | _ => none

def onForeignKeys : TableEdit → Option (MemberEdit ForeignKey)
  | .dropForeignKey fk => some (.remove fk.name)
  | .createForeignKey fk => some (.add fk)
  | _ => none

/-- The table once an edit has run.  It does not run if what it drops or alters is not
there, or if what it adds or creates is. -/
def run? (desired t : Table) (e : TableEdit) : Option Table := do
  let columns ← e.onColumns.elim (some t.columns) (MemberEdit.run? Column.name t.columns)
  let indexes ← e.onIndexes.elim (some t.indexes) (MemberEdit.run? Index.name t.indexes)
  let foreignKeys ← e.onForeignKeys.elim (some t.foreignKeys)
    (MemberEdit.run? ForeignKey.name t.foreignKeys)
  let extension := if e = .alterOptions then desired.extension else t.extension
  return { t with columns, indexes, foreignKeys, extension }

theorem foldlM_filterMap_cons {α β σ : Type} (f : α → Option β) (g : σ → β → Option σ)
    (a : α) (as : List α) (s : σ) :
    ((a :: as).filterMap f).foldlM g s
      = (f a).elim (some s) (g s) >>= (as.filterMap f).foldlM g := by
  cases h : f a with
  | none => rw [List.filterMap_cons_none h]; rfl
  | some b => rw [List.filterMap_cons_some h, List.foldlM_cons]; rfl

/-- Edits run on a table if its three lists of members can be edited. -/
theorem run_of_parts (desired : Table) {t : Table} {edits : List TableEdit} {columns : List Column}
    {indexes : List Index} {foreignKeys : List ForeignKey}
    (hcolumns : (edits.filterMap onColumns).foldlM (MemberEdit.run? Column.name) t.columns
      = some columns)
    (hindexes : (edits.filterMap onIndexes).foldlM (MemberEdit.run? Index.name) t.indexes
      = some indexes)
    (hkeys : (edits.filterMap onForeignKeys).foldlM (MemberEdit.run? ForeignKey.name)
      t.foreignKeys = some foreignKeys) :
    ∃ after, edits.foldlM (run? desired) t = some after ∧ after.columns = columns
      ∧ after.indexes = indexes ∧ after.foreignKeys = foreignKeys := by
  induction edits generalizing t with
  | nil =>
      cases hcolumns
      cases hindexes
      cases hkeys
      exact ⟨t, rfl, rfl, rfl, rfl⟩
  | cons e rest ih =>
      rw [foldlM_filterMap_cons] at hcolumns hindexes hkeys
      obtain ⟨columns', hcolumn, hcolumns⟩ := Option.bind_eq_some_iff.mp hcolumns
      obtain ⟨indexes', hindex, hindexes⟩ := Option.bind_eq_some_iff.mp hindexes
      obtain ⟨keys', hkey, hkeys⟩ := Option.bind_eq_some_iff.mp hkeys
      let next : Table := { t with
        columns := columns', indexes := indexes', foreignKeys := keys'
        extension := if e = .alterOptions then desired.extension else t.extension }
      have hnext : run? desired t e = some next := by
        simp only [run?, hcolumn, hindex, hkey]
        rfl
      rw [List.foldlM_cons, hnext]
      exact ih hcolumns hindexes hkeys

end TableEdit

/-! ## What a plan is made of -/

/-- The statements of an edit, none if it cannot be written. -/
def TableEdit.texts (s : Spelling) (desired current : Table) (e : TableEdit) : List String :=
  match e.statements s desired current with
  | .ok texts => texts
  | .error _ => []

/-- All edits, phase after phase. -/
def TableEdits.inOrder (edits : TableEdits) : List TableEdit :=
  edits.dropForeignKeys ++ edits.dropIndexes ++ edits.alterations ++ edits.createIndexes
    ++ edits.createForeignKeys

/-- The edits that a plan has statements for, in its order. -/
def Table.operations (s : Spelling) (desired current : Table) : List TableEdit :=
  (TableDiff.between s.options desired current).edits.inOrder.filter fun e =>
    !(e.texts s desired current).isEmpty

section Plans

variable {s : Spelling} {desired current : Table} {p : Plan}

theorem texts_of_statements {e : TableEdit} {texts : List String}
    (h : e.statements s desired current = .ok texts) :
    e.texts s desired current = texts := by
  unfold TableEdit.texts
  rw [h]

theorem editStatements_eq_flatMap {edits : List TableEdit} {texts : List String}
    (h : editStatements s desired current edits = .ok texts) :
    texts = edits.flatMap (TableEdit.texts s desired current)
      ∧ ∀ e ∈ edits, ∃ part, e.statements s desired current = .ok part := by
  obtain ⟨parts, hparts, rfl⟩ := map_eq_ok.mp h
  have hall := mapM_eq_ok.mp hparts
  clear h hparts
  induction hall with
  | nil => exact ⟨rfl, fun e he => absurd he List.not_mem_nil⟩
  | cons hfirst _ ih =>
      obtain ⟨htexts, hrest⟩ := ih
      constructor
      · rw [List.flatten_cons, List.flatMap_cons, texts_of_statements hfirst, htexts]
      · exact List.forall_mem_cons.mpr ⟨⟨_, hfirst⟩, hrest⟩

/-- What an edit without statements would add to a list of them is nothing. -/
theorem flatMap_filter_nonempty {α β : Type} (f : α → List β) (xs : List α) :
    (xs.filter fun x => !(f x).isEmpty).flatMap f = xs.flatMap f := by
  induction xs with
  | nil => rfl
  | cons x xs ih =>
      rw [List.filter_cons, List.flatMap_cons]
      cases hx : f x with
      | nil => simpa using ih
      | cons y ys => simp [hx, ih]

/-- A plan is its operations one after another, and every edit it was made of can be
written. -/
theorem Table.planAlter_eq_operations (h : planAlter s desired current = .ok p) :
    p.statements = (operations s desired current).flatMap (TableEdit.texts s desired current)
      ∧ ∀ e ∈ (TableDiff.between s.options desired current).edits.inOrder,
          ∃ texts, e.statements s desired current = .ok texts := by
  obtain ⟨_, _, _, _, _, hdropKeys, hdropIndexes, hcreates, hindexes, hkeys, rfl⟩ :=
    planAlter_eq_ok.mp h
  obtain ⟨rfl, hdropKeys'⟩ := editStatements_eq_flatMap hdropKeys
  obtain ⟨rfl, hdropIndexes'⟩ := editStatements_eq_flatMap hdropIndexes
  obtain ⟨rfl, hcreates'⟩ := editStatements_eq_flatMap hcreates
  obtain ⟨rfl, hindexes'⟩ := editStatements_eq_flatMap hindexes
  obtain ⟨rfl, hkeys'⟩ := editStatements_eq_flatMap hkeys
  constructor
  · rw [operations, flatMap_filter_nonempty]
    simp [Plan.statements, TableEdits.inOrder, List.flatMap_append]
  · simp only [TableEdits.inOrder, List.forall_mem_append]
    exact ⟨⟨⟨⟨hdropKeys', hdropIndexes'⟩, hcreates'⟩, hindexes'⟩, hkeys'⟩

end Plans

/-! ## What has no statement -/

/-- The two columns differ in nothing that the engine alters.  MySQL restates a column
whole.  PostgreSQL has no character sets of columns.  SQL Server refuses another
identity, and beside the default states type, collation and nullability, which is all that
its columns have. -/
def Dialect.Unwritten (o : Options) (wanted existing : Column) : Dialect → Prop
  | .mySql => False
  | .postgreSql =>
      columnsEqual o wanted { existing with characterSet := wanted.characterSet } = true
  | .sqlServer =>
      wanted.identity = existing.identity ∧ wanted.default = existing.default
        ∧ SqlServer.columnShape o wanted = SqlServer.columnShape o existing

theorem PostgreSql.columnChanges_eq_nil {o : Options} {wanted existing : Column} :
    columnChanges o wanted existing = [] ↔ Dialect.postgreSql.Unwritten o wanted existing := by
  have hidentity : identityChange wanted.identity existing.identity = [] →
      wanted.identity = existing.identity := by
    cases wanted.identity <;> cases existing.identity <;> simp [identityChange]
  simp only [columnChanges, Dialect.Unwritten, columnsEqual, List.append_eq_nil_iff,
    ite_eq_right_iff, List.cons_ne_nil, imp_false, Bool.or_eq_true,
    Bool.not_eq_true', bne_iff_ne, ne_eq, not_or, Bool.and_eq_true, beq_iff_eq, not_not,
    Bool.not_eq_false, Column.scriptedCollation_eq_iff, and_true]
  tauto

theorem SqlServer.dropDefault_eq_nil {t : Table} {c : Column} :
    dropDefault t c = .ok [] ↔ c.default = none := by
  unfold dropDefault
  cases c.default with
  | none => simp
  | some expression => cases c.defaultConstraint <;> simp

theorem SqlServer.columnChanges_eq_nil {o : Options} {t : Table} {wanted existing : Column} :
    columnChanges o t wanted existing = .ok []
      ↔ Dialect.sqlServer.Unwritten o wanted existing := by
  unfold columnChanges Dialect.Unwritten
  by_cases hidentity : wanted.identity = existing.identity
  · by_cases hdefault : wanted.default = existing.default
    · simp [hidentity, hdefault, bind, Except.bind, pure, Except.pure]
    · -- One of the two has a default, which is dropped or added.
      refine iff_of_false (fun h => ?_) fun h => hdefault h.2.1
      simp only [hidentity, hdefault, bne_iff_ne, ne_eq, not_true, not_false_iff, if_true,
        if_false] at h
      obtain ⟨drops, hdrops, h⟩ := bind_eq_ok.mp h
      obtain ⟨hfirst, hadds⟩ := List.append_eq_nil_iff.mp (Except.ok.inj h)
      obtain ⟨rfl, -⟩ := List.append_eq_nil_iff.mp hfirst
      have hwanted : wanted.default = none := by
        simpa using hadds
      exact hdefault (hwanted.trans (dropDefault_eq_nil.mp hdrops).symm)
  · simp [hidentity, bind, Except.bind, throw, throwThe, MonadExceptOf.throw]

theorem alterColumn_eq_nil {d : Dialect} {o : Options} {t : Table}
    {wanted existing : Column} :
    (Spelling.of d o).alterColumn t wanted existing = .ok []
      ↔ d.Unwritten o wanted existing := by
  cases d with
  | mySql =>
      refine iff_of_false (fun h => ?_) id
      cases h
  | postgreSql =>
      rw [← PostgreSql.columnChanges_eq_nil]
      change Except.ok (PostgreSql.alterColumn o t wanted existing) = .ok [] ↔ _
      rw [Except.ok.injEq, PostgreSql.alterColumn, List.map_eq_nil_iff]
  | sqlServer =>
      rw [← SqlServer.columnChanges_eq_nil (t := t)]
      change SqlServer.alterColumn o t wanted existing = .ok [] ↔ _
      rw [SqlServer.alterColumn, map_eq_ok]
      constructor
      · rintro ⟨changes, hchanges, hnil⟩
        rwa [List.map_eq_nil_iff.mp hnil] at hchanges
      · intro hchanges
        exact ⟨[], hchanges, rfl⟩

/-! ## Operations by kind of member -/

section Kinds

variable {d : Dialect} {o : Options} {desired current : Table} {p : Plan}

/-- Alterations alone, of columns and of what a table says beside its members, can be
without statement. -/
theorem texts_ne_nil {e : TableEdit} {texts : List String}
    (h : e.statements (Spelling.of d o) desired current = .ok texts)
    (hcolumn : ∀ c c', e ≠ .alterColumn c c') (hoptions : e ≠ .alterOptions) :
    e.texts (Spelling.of d o) desired current ≠ [] := by
  rw [texts_of_statements h]
  cases e with
  | dropForeignKey | dropIndex =>
      cases h
      exact List.cons_ne_nil _ _
  | dropColumn c =>
      cases h
      cases d with
      | mySql | postgreSql => exact List.cons_ne_nil _ _
      | sqlServer => exact List.append_ne_nil_of_right_ne_nil _ (List.cons_ne_nil _ _)
  | addColumn =>
      cases h
      cases d <;> exact List.cons_ne_nil _ _
  | createIndex | createForeignKey =>
      obtain ⟨text, -, rfl⟩ := map_eq_ok.mp h
      exact List.cons_ne_nil _ _
  | alterColumn c c' => exact absurd rfl (hcolumn c c')
  | alterOptions => exact absurd rfl hoptions

/-- Nothing is altered in place but columns and what a table says beside its members. -/
theorem alterations_cases {diff : TableDiff} {e : TableEdit} (h : e ∈ diff.edits.alterations) :
    (∃ c, e = .dropColumn c) ∨ (∃ c, e = .addColumn c) ∨ (∃ c c', e = .alterColumn c c')
      ∨ e = .alterOptions := by
  rcases List.mem_append.mp h with h | h
  · obtain ⟨m, -, hm⟩ := List.mem_filterMap.mp h
    rcases Table.columnEdit_cases hm with hdrop | hadd | halter
    · exact Or.inl hdrop
    · exact Or.inr (Or.inl hadd)
    · exact Or.inr (Or.inr (Or.inl halter))
  · split at h
    · exact Or.inr (Or.inr (Or.inr (List.mem_singleton.mp h)))
    · cases h

theorem alterations_onIndexes (diff : TableDiff) :
    diff.edits.alterations.filterMap TableEdit.onIndexes = [] := by
  refine List.filterMap_eq_nil_iff.mpr fun e he => ?_
  rcases alterations_cases he with ⟨_, rfl⟩ | ⟨_, rfl⟩ | ⟨_, _, rfl⟩ | rfl <;> rfl

theorem alterations_onForeignKeys (diff : TableDiff) :
    diff.edits.alterations.filterMap TableEdit.onForeignKeys = [] := by
  refine List.filterMap_eq_nil_iff.mpr fun e he => ?_
  rcases alterations_cases he with ⟨_, rfl⟩ | ⟨_, rfl⟩ | ⟨_, _, rfl⟩ | rfl <;> rfl

/-- Where no alteration counts, the operations are all edits. -/
theorem filterMap_operations {β : Type} {f : TableEdit → Option β}
    (h : Table.planAlter (Spelling.of d o) desired current = .ok p)
    (hcolumn : ∀ c c', f (.alterColumn c c') = none) (hoptions : f .alterOptions = none) :
    (Table.operations (Spelling.of d o) desired current).filterMap f
      = (TableDiff.between (Spelling.of d o).options desired current).edits.inOrder.filterMap
        f := by
  rw [Table.operations, List.filterMap_filter]
  refine List.filterMap_congr fun e he => ?_
  obtain ⟨texts, htexts⟩ := (Table.planAlter_eq_operations h).2 e he
  by_cases hnone : f e = none
  · rw [hnone, ite_self]
  · have hwritten : e.texts (Spelling.of d o) desired current ≠ [] := by
      refine texts_ne_nil htexts ?_ ?_
      · rintro c c' rfl
        exact hnone (hcolumn c c')
      · rintro rfl
        exact hnone hoptions
    rw [if_pos (by simpa using hwritten)]

theorem operations_onIndexes
    (h : Table.planAlter (Spelling.of d o) desired current = .ok p) :
    let ms := MemberDiff.between Index.name indexesEqual desired.indexes current.indexes
    (Table.operations (Spelling.of d o) desired current).filterMap TableEdit.onIndexes
      = MemberEdit.drops Index.name ms ++ MemberEdit.creations ms := by
  rw [filterMap_operations h (fun _ _ => rfl) rfl]
  simp only [TableEdits.inOrder, List.filterMap_append, alterations_onIndexes]
  simp [TableDiff.edits, TableDiff.between, MemberEdit.drops, MemberEdit.creations,
    TableEdit.onIndexes, List.filterMap_map, Function.comp_def]

theorem operations_onForeignKeys
    (h : Table.planAlter (Spelling.of d o) desired current = .ok p) :
    let ms := MemberDiff.between ForeignKey.name (foreignKeysEqual o) desired.foreignKeys
      current.foreignKeys
    (Table.operations (Spelling.of d o) desired current).filterMap TableEdit.onForeignKeys
      = MemberEdit.drops ForeignKey.name ms ++ MemberEdit.creations ms := by
  rw [filterMap_operations h (fun _ _ => rfl) rfl]
  simp only [TableEdits.inOrder, List.filterMap_append, alterations_onForeignKeys]
  simp [TableDiff.edits, TableDiff.between, MemberEdit.drops, MemberEdit.creations,
    TableEdit.onForeignKeys, List.filterMap_map, Function.comp_def]

theorem inOrder_onColumns {f : TableEdit → Option (MemberEdit Column)}
    (hf : ∀ e, e.onColumns = none → f e = none) (diff : TableDiff) :
    diff.edits.inOrder.filterMap f
      = diff.columns.filterMap fun m => m.columnEdit?.bind f := by
  have hnone : ∀ {α : Type} (g : α → TableEdit) (xs : List α),
      (∀ x, (g x).onColumns = none) → (xs.map g).filterMap f = [] := by
    intro α g xs hg
    refine List.filterMap_eq_nil_iff.mpr fun e he => ?_
    obtain ⟨x, -, rfl⟩ := List.mem_map.mp he
    exact hf _ (hg x)
  have hoptions : (if diff.optionsChanged then [TableEdit.alterOptions] else []).filterMap f
      = [] := by
    split
    · exact List.filterMap_cons_none (hf .alterOptions rfl)
    · rfl
  simp only [TableEdits.inOrder, TableDiff.edits, List.filterMap_append, hoptions,
    hnone TableEdit.dropForeignKey _ fun _ => rfl, hnone TableEdit.dropIndex _ fun _ => rfl,
    hnone TableEdit.createIndex _ fun _ => rfl,
    hnone TableEdit.createForeignKey _ fun _ => rfl, List.nil_append, List.append_nil,
    List.filterMap_filterMap]

/-- Every column that goes or comes has its statement; of the alterations those count that
have one. -/
theorem operations_onColumns (d : Dialect) (o : Options) (desired current : Table) :
    (Table.operations (Spelling.of d o) desired current).filterMap TableEdit.onColumns
      = MemberEdit.amending Column.name
          (fun c c' => !((TableEdit.alterColumn c c').texts (Spelling.of d o) desired
            current).isEmpty)
          (MemberDiff.between Column.name (columnsEqual o) desired.columns
            current.columns) := by
  rw [Table.operations, List.filterMap_filter, inOrder_onColumns, Spelling.of_options]
  · refine List.filterMap_congr fun m _ => ?_
    have hdrop : ∀ c, (TableEdit.dropColumn c).texts (Spelling.of d o) desired current ≠ [] :=
      fun c => texts_ne_nil rfl (by simp) (by simp)
    have hadd : ∀ c, (TableEdit.addColumn c).texts (Spelling.of d o) desired current ≠ [] :=
      fun c => texts_ne_nil rfl (by simp) (by simp)
    obtain ⟨name, state, source, target⟩ := m
    cases state <;> cases source <;> cases target
      <;> simp [MemberDiff.columnEdit?, MemberEdit.amendment?, hdrop, hadd,
        TableEdit.onColumns]
  · intro e he
    rw [he, ite_self]

end Kinds

/-! ## Altering comes to what is desired -/

/-- What a plan that alters `current` comes to.  Its statements are those of its
operations, one operation after another.  Run in that order every operation finds what it
needs, and they lead to `result`: members that equal the desired ones were not touched,
and nothing differs from `desired` any more but columns that stand as they stood because
the engine has no statement for what tells them apart. -/
structure Plan.Converges (d : Dialect) (o : Options) (desired current : Table) (p : Plan)
    (result : Table) : Prop where
  statements : p.statements = (Table.operations (.of d o) desired current).flatMap
    (TableEdit.texts (.of d o) desired current)
  runs : (Table.operations (.of d o) desired current).foldlM (TableEdit.run? desired) current
    = some result
  columnsUntouched : MemberEdit.Untouched Column.name (columnsEqual o) desired.columns
    current.columns
    ((Table.operations (.of d o) desired current).filterMap TableEdit.onColumns)
  indexesUntouched : MemberEdit.Untouched Index.name indexesEqual desired.indexes
    current.indexes
    ((Table.operations (.of d o) desired current).filterMap TableEdit.onIndexes)
  foreignKeysUntouched : MemberEdit.Untouched ForeignKey.name (foreignKeysEqual o)
    desired.foreignKeys current.foreignKeys
    ((Table.operations (.of d o) desired current).filterMap TableEdit.onForeignKeys)
  columns : ∀ m ∈ (TableDiff.between o desired result).columns, m.state = .unchanged
    ∨ ∃ wanted ∈ desired.columns, ∃ existing ∈ current.columns,
        d.Unwritten o wanted existing
        ∧ m = ⟨wanted.name, .modified, some wanted, some existing⟩
  indexes : ∀ m ∈ (TableDiff.between o desired result).indexes, m.state = .unchanged
  foreignKeys : ∀ m ∈ (TableDiff.between o desired result).foreignKeys, m.state = .unchanged

namespace Table

variable {d : Dialect} {o : Options} {desired current : Table} {p : Plan}

/-- An alteration that is called for and yet leaves no statement is one that the engine
has none for. -/
theorem unwritten_of_texts (hc : current.DistinctNames)
    (h : planAlter (Spelling.of d o) desired current = .ok p) {wanted existing : Column}
    (hwanted : wanted ∈ desired.columns) (hexisting : existing ∈ current.columns)
    (hname : wanted.name = existing.name) (hdiffers : columnsEqual o wanted existing = false)
    (htexts : (TableEdit.alterColumn wanted existing).texts (Spelling.of d o) desired current
      = []) :
    d.Unwritten o wanted existing := by
  let m : MemberDiff Column := ⟨wanted.name, .modified, some wanted, some existing⟩
  have hm : m ∈ (TableDiff.between (Spelling.of d o).options desired current).columns := by
    rw [Spelling.of_options]
    refine (MemberDiff.mem_between hc.columns).mpr
      (Or.inl ⟨wanted, hwanted, existing, hexisting, hname, ?_⟩)
    simp [m, DiffState.classify, hdiffers]
  have hedit : .alterColumn wanted existing
      ∈ (TableDiff.between (Spelling.of d o).options desired current).edits.inOrder := by
    have halter : TableEdit.alterColumn wanted existing
        ∈ (TableDiff.between (Spelling.of d o).options desired current).columns.filterMap
          MemberDiff.columnEdit? := List.mem_filterMap.mpr ⟨m, hm, rfl⟩
    simp only [TableEdits.inOrder, TableDiff.edits, List.mem_append]
    exact Or.inl (Or.inl (Or.inr (Or.inl halter)))
  obtain ⟨texts, hstatements⟩ := (planAlter_eq_operations h).2 _ hedit
  rw [texts_of_statements hstatements] at htexts
  subst htexts
  exact alterColumn_eq_nil.mp hstatements

/-- A plan that alters a table can be executed and converges. -/
theorem planAlter_converges (hd : desired.DistinctNames) (hc : current.DistinctNames)
    (h : planAlter (Spelling.of d o) desired current = .ok p) :
    ∃ result, p.Converges d o desired current result := by
  obtain ⟨columns, hcolumns, hcolumnsUntouched, hcolumnsUnchanged⟩ :=
    MemberEdit.run_amending (fun c c' => !((TableEdit.alterColumn c c').texts
      (Spelling.of d o) desired current).isEmpty) hd.columns hc.columns (columnsEqual_self o)
  obtain ⟨indexes, hindexes, hindexesUntouched, hindexesUnchanged⟩ :=
    MemberEdit.run_rebuilding hd.indexes hc.indexes indexesEqual_self
  obtain ⟨keys, hkeys, hkeysUntouched, hkeysUnchanged⟩ :=
    MemberEdit.run_rebuilding hd.foreignKeys hc.foreignKeys (foreignKeysEqual_self o)
  rw [← operations_onColumns d o desired current] at hcolumns hcolumnsUntouched
  rw [← operations_onIndexes h] at hindexes hindexesUntouched
  rw [← operations_onForeignKeys h] at hkeys hkeysUntouched
  obtain ⟨result, hrun, rfl, rfl, rfl⟩ :=
    TableEdit.run_of_parts desired hcolumns hindexes hkeys
  refine ⟨result, (planAlter_eq_operations h).1, hrun, hcolumnsUntouched, hindexesUntouched,
    hkeysUntouched, ?columns, ?indexes, ?keys⟩
  case columns =>
      intro m hm
      rcases hcolumnsUnchanged m hm with hunchanged | ⟨wanted, hwanted, existing, hexisting,
        hname, hdiffers, htexts, rfl⟩
      · exact Or.inl hunchanged
      · have hunwritten := unwritten_of_texts hc h hwanted hexisting hname hdiffers
          (by simpa using htexts)
        exact Or.inr ⟨wanted, hwanted, existing, hexisting, hunwritten, rfl⟩
  case indexes => exact hindexesUnchanged.of_none_spared
  case keys => exact hkeysUnchanged.of_none_spared

/-- Orders that are dated, numbered uniquely and go with their customer. -/
def orders : Table :=
  { schema := "shop", name := "orders"
    columns := [{ name := "id", dataType := "bigint" },
      { name := "placed", dataType := "date" }]
    indexes := [{ name := "number", kind := .unique }]
    foreignKeys := [{ name := "by", referencedSchema := "shop",
                      referencedTable := "customers", onDelete := .cascade }] }

/-- The orders as they stand, with a column and a key that differ. -/
def standingOrders : Table :=
  { schema := "shop", name := "orders"
    columns := [{ name := "total", dataType := "int" },
      { name := "id", dataType := "bigint", nullable := true }]
    indexes := [{ name := "number", kind := .index }]
    foreignKeys := [{ name := "by", referencedSchema := "shop",
                      referencedTable := "customers" }] }

/-- A column goes, comes and is altered each, and an index and a key are replaced. -/
theorem planAlter_converges_orders :
    orders.DistinctNames ∧ standingOrders.DistinctNames
    ∧ ∃ p, planAlter (Spelling.of .postgreSql {}) orders standingOrders = .ok p
      ∧ ∃ result, p.Converges .postgreSql {} orders standingOrders result := by
  have horders : orders.DistinctNames := by decide
  have hstanding : standingOrders.DistinctNames := by decide
  have hplan : ∃ p, planAlter (Spelling.of .postgreSql {}) orders standingOrders = .ok p :=
    ⟨_, rfl⟩
  obtain ⟨p, hp⟩ := hplan
  exact ⟨horders, hstanding, p, hp, planAlter_converges horders hstanding hp⟩

/-- PostgreSQL has no statement for a column that differs in its character set alone: the
plan is empty, running it leaves the table as it was, and the column differs as before. -/
theorem planAlter_keeps_characterSet :
    let s := Spelling.of .postgreSql {}
    let wanted : Column := { name := "note", dataType := "text", characterSet := some "utf8" }
    let existing : Column := { wanted with characterSet := some "latin1" }
    let desired : Table := { schema := "shop", name := "notes", columns := [wanted] }
    let current : Table := { desired with columns := [existing] }
    desired.DistinctNames ∧ current.DistinctNames
    ∧ ∃ p, planAlter s desired current = .ok p ∧ p.statements = []
      ∧ (operations s desired current).foldlM (TableEdit.run? desired) current = some current
      ∧ (TableDiff.between {} desired current).columns
          = [⟨"note", .modified, some wanted, some existing⟩] :=
  ⟨by decide, by decide, {}, rfl, rfl, rfl, by decide⟩

end Table

end Reconcile
