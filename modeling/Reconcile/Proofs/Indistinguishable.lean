import Reconcile.Proofs.Noting
import Reconcile.Proofs.Redaction

/-!
# Runs on redacted models

If neither the equalities (`Redaction.Unseen`) nor the statements of a spelling
(`Redaction.Unwritten`) depend on what a redaction replaces, then nothing of a run does.
Plans are the same, and with them every script, every fault and every report on a task;
of a result only the objects differ, by the redaction.

So two pairs of models that the redaction makes the same cannot be told apart by any run
(`Redaction.indistinguishable`), including runs that fail or are told to stop.
-/

namespace Reconcile

/-- No statement of a spelling says what was replaced. -/
structure Redaction.Unwritten (ρ : Redaction) (s : Spelling) : Prop where
  /-- What alters a table is decided by the equalities. -/
  unseen : ρ.Unseen s.options
  createTable : ∀ t, s.createTable (ρ.table t) = s.createTable t
  addColumn : ∀ t c, s.addColumn (ρ.table t) (ρ.column c) = s.addColumn t c
  dropColumn : ∀ t c, s.dropColumn (ρ.table t) (ρ.column c) = s.dropColumn t c
  alterColumn : ∀ t c c',
    s.alterColumn (ρ.table t) (ρ.column c) (ρ.column c') = s.alterColumn t c c'
  alterTableOptions : ∀ t t',
    s.alterTableOptions (ρ.table t) (ρ.table t') = s.alterTableOptions t t'
  createIndex : ∀ t i, s.createIndex (ρ.table t) (ρ.index i) = s.createIndex t i
  dropIndex : ∀ t i, s.dropIndex (ρ.table t) (ρ.index i) = s.dropIndex t i
  createForeignKey : ∀ t fk,
    s.createForeignKey (ρ.table t) (ρ.foreignKey fk) = s.createForeignKey t fk
  dropForeignKey : ∀ t fk,
    s.dropForeignKey (ρ.table t) (ρ.foreignKey fk) = s.dropForeignKey t fk

/-- If the rest of a run ends otherwise, the whole of it does. -/
theorem run_bind_map {σ α β : Type} {f : β → β} {x : StateM σ α} {y z : α → StateM σ β}
    (h : ∀ a tr, (y a).run tr = Prod.map f id ((z a).run tr)) (tr : σ) :
    (x >>= y).run tr = Prod.map f id ((x >>= z).run tr) := by
  rw [run_bind_state, run_bind_state]
  exact h (x.run tr).1 (x.run tr).2

/-! ## Edits of a table -/

theorem mapM_map_of_eq {ε α β : Type} {f : α → α} {g h : α → Except ε β}
    (hgh : ∀ x, g (f x) = h x) (xs : List α) : (xs.map f).mapM g = xs.mapM h := by
  induction xs with
  | nil => rfl
  | cons x rest ih => rw [List.map_cons, List.mapM_cons, List.mapM_cons, hgh, ih]

namespace MemberDiff

variable {α : Type} (f : α → α) (ms : List (MemberDiff α))

theorem filterMap_dropped?_redacted :
    (ms.map (redacted f)).filterMap dropped? = (ms.filterMap dropped?).map f := by
  rw [List.filterMap_map, List.map_filterMap]
  refine List.filterMap_congr fun m _ => ?_
  change (redacted f m).dropped? = m.dropped?.map f
  obtain ⟨name, state, source, target⟩ := m
  cases state <;> rfl

theorem filterMap_created?_redacted :
    (ms.map (redacted f)).filterMap created? = (ms.filterMap created?).map f := by
  rw [List.filterMap_map, List.map_filterMap]
  refine List.filterMap_congr fun m _ => ?_
  change (redacted f m).created? = m.created?.map f
  obtain ⟨name, state, source, target⟩ := m
  cases state <;> rfl

end MemberDiff

namespace Redaction

variable (ρ : Redaction) {s : Spelling} {d : Direction} {c : Category}

def edit : TableEdit → TableEdit
  | .dropForeignKey fk => .dropForeignKey (ρ.foreignKey fk)
  | .dropIndex i => .dropIndex (ρ.index i)
  | .dropColumn c => .dropColumn (ρ.column c)
  | .addColumn c => .addColumn (ρ.column c)
  | .alterColumn desired current => .alterColumn (ρ.column desired) (ρ.column current)
  | .alterOptions => .alterOptions
  | .createIndex i => .createIndex (ρ.index i)
  | .createForeignKey fk => .createForeignKey (ρ.foreignKey fk)

theorem columnEdit?_redacted (m : MemberDiff Column) :
    (m.redacted ρ.column).columnEdit? = m.columnEdit?.map ρ.edit := by
  obtain ⟨name, state, source, target⟩ := m
  cases state <;> cases source <;> cases target <;> rfl

/-- The edits that a redacted difference calls for, phase by phase. -/
theorem edits_diff (d : TableDiff) :
    (ρ.diff d).edits =
      { dropForeignKeys := d.edits.dropForeignKeys.map ρ.edit
        dropIndexes := d.edits.dropIndexes.map ρ.edit
        alterations := d.edits.alterations.map ρ.edit
        createIndexes := d.edits.createIndexes.map ρ.edit
        createForeignKeys := d.edits.createForeignKeys.map ρ.edit } := by
  have hcolumns : (d.columns.map (MemberDiff.redacted ρ.column)).filterMap
      MemberDiff.columnEdit? = (d.columns.filterMap MemberDiff.columnEdit?).map ρ.edit := by
    rw [List.filterMap_map, List.map_filterMap]
    exact List.filterMap_congr fun m _ => ρ.columnEdit?_redacted m
  have hoptions : (if d.optionsChanged then [TableEdit.alterOptions] else []).map ρ.edit
      = if d.optionsChanged then [TableEdit.alterOptions] else [] := by
    split <;> rfl
  unfold TableDiff.edits diff
  simp only [MemberDiff.filterMap_dropped?_redacted, MemberDiff.filterMap_created?_redacted,
    hcolumns, List.map_append, hoptions, List.map_map]
  rfl

/-! An item stands in a script as before, with its objects redacted. -/

theorem stateFor_item (d : Direction) (i : Item c) :
    (ρ.item c i).stateFor d = i.stateFor d := by
  cases d <;> rfl

theorem desired_item (d : Direction) (i : Item c) :
    (ρ.item c i).desired d = (i.desired d).map (ρ.object c) := by
  cases d <;> rfl

theorem current_item (d : Direction) (i : Item c) :
    (ρ.item c i).current d = (i.current d).map (ρ.object c) := by
  cases d <;> rfl

theorem size_comparison (r : Comparison) : (ρ.comparison r).size = r.size := by
  unfold Comparison.size
  simp only [items_comparison, List.length_map]

section Writing

variable {ρ} (h : ρ.Unwritten s)
include h

theorem statements_edit (desired current : Table) (edit : TableEdit) :
    (ρ.edit edit).statements s (ρ.table desired) (ρ.table current)
      = edit.statements s desired current := by
  cases edit with
  | dropForeignKey fk => exact congrArg (fun text => Except.ok [text]) (h.dropForeignKey current fk)
  | dropIndex i => exact congrArg (fun text => Except.ok [text]) (h.dropIndex current i)
  | dropColumn c => exact congrArg Except.ok (h.dropColumn current c)
  | addColumn c => exact congrArg Except.ok (h.addColumn desired c)
  | alterColumn wanted existing => exact h.alterColumn desired wanted existing
  | alterOptions => exact congrArg Except.ok (h.alterTableOptions desired current)
  | createIndex i => exact congrArg (Except.map ([·])) (h.createIndex desired i)
  | createForeignKey fk => exact congrArg (Except.map ([·])) (h.createForeignKey desired fk)

theorem editStatements_map (desired current : Table) (edits : List TableEdit) :
    editStatements s (ρ.table desired) (ρ.table current) (edits.map ρ.edit)
      = editStatements s desired current edits := by
  unfold editStatements
  rw [mapM_map_of_eq (statements_edit h desired current)]

/-! ## Plans -/

theorem planCreate_table (t : Table) : (ρ.table t).planCreate s = t.planCreate s := by
  have hkinds : ((ρ.table t).indexes.filter (·.kind != .primaryKey))
      = (t.indexes.filter (·.kind != .primaryKey)).map ρ.index := by
    change (t.indexes.map ρ.index).filter _ = _
    rw [List.filter_map]
    have hkind : ((fun i : Index => i.kind != .primaryKey) ∘ ρ.index)
        = fun i => i.kind != .primaryKey := by
      funext i
      exact congrArg (· != IndexKind.primaryKey) (ρ.index_kind i)
    rw [hkind]
  have hindexes := mapM_map_of_eq (h.createIndex t)
    (t.indexes.filter (·.kind != .primaryKey))
  have hforeignKeys : (ρ.table t).foreignKeys.mapM (s.createForeignKey (ρ.table t))
      = t.foreignKeys.mapM (s.createForeignKey t) :=
    mapM_map_of_eq (h.createForeignKey t) t.foreignKeys
  unfold Table.planCreate
  rw [h.createTable, hkinds, hindexes, hforeignKeys]

theorem planDrop_table (t : Table) : (ρ.table t).planDrop s = t.planDrop s := by
  have hkeys : (ρ.table t).foreignKeys.map (s.dropForeignKey (ρ.table t))
      = t.foreignKeys.map (s.dropForeignKey t) := by
    change (t.foreignKeys.map ρ.foreignKey).map _ = _
    rw [List.map_map]
    exact List.map_congr_left fun fk _ => h.dropForeignKey t fk
  unfold Table.planDrop
  rw [hkeys]
  rfl

theorem planAlter_table (desired current : Table) :
    Table.planAlter s (ρ.table desired) (ρ.table current)
      = Table.planAlter s desired current := by
  unfold Table.planAlter
  rw [diff_between h.unseen, edits_diff]
  simp only [editStatements_map h]

theorem planCreate_object (x : c.Object) :
    c.planCreate s (ρ.object c x) = c.planCreate s x := by
  cases c with
  | table => exact planCreate_table h x
  | _ => rfl

theorem planDrop_object (x : c.Object) :
    c.planDrop s (ρ.object c x) = c.planDrop s x := by
  cases c with
  | table => exact congrArg Except.ok (planDrop_table h x)
  | _ => rfl

theorem planAlter_object (x y : c.Object) :
    c.planAlter s (ρ.object c x) (ρ.object c y) = c.planAlter s x y := by
  cases c with
  | table => exact planAlter_table h x y
  | _ => rfl

/-! ## Items -/

theorem plan_item (d : Direction) (i : Item c) :
    (ρ.item c i).plan s d = i.plan s d := by
  unfold Item.plan
  rw [stateFor_item, desired_item, current_item]
  cases i.stateFor d <;> cases i.desired d <;> cases i.current d <;>
    simp only [Option.map_some, Option.map_none, planCreate_object h, planDrop_object h,
      planAlter_object h] <;> rfl

theorem scripts_item (i : Item c) : (ρ.item c i).scripts s = i.scripts s := by
  unfold Item.scripts
  rw [plan_item h]
  simp only [item]
  cases i.source <;> cases i.target <;>
    simp only [Option.map_some, Option.map_none, planCreate_object h]

theorem annotated_item (i : Item c) :
    (ρ.item c i).annotated s = ρ.item c (i.annotated s) := by
  unfold Item.annotated
  rw [scripts_item h]
  cases i.scripts s <;> rfl

theorem noted_item (d : Direction) (i : Item c) :
    (ρ.item c i).noted ((ρ.item c i).planFault s d)
      = ρ.item c (i.noted (i.planFault s d)) := by
  have hfault : (ρ.item c i).planFault s d = i.planFault s d := by
    unfold Item.planFault
    rw [plan_item h]
  rw [hfault]
  cases i.planFault s d <;> rfl

/-! ## Consolidated scripts -/

theorem outcomes_comparison (d : Direction) (r : Comparison) (c : Category) :
    (ρ.comparison r).outcomes s d c = r.outcomes s d c := by
  unfold Comparison.outcomes
  rw [items_comparison, List.zipIdx_map, List.filter_map, List.map_map]
  refine List.map_congr_left fun entry _ => ?_
  obtain ⟨i, n⟩ := entry
  exact congrArg (fun outcome => (n, i.key, outcome)) (plan_item h d i)

theorem skipped_comparison (d : Direction) (r : Comparison) :
    (ρ.comparison r).skipped s d = r.skipped s d := by
  unfold Comparison.skipped Comparison.skippedOf
  simp only [outcomes_comparison h]

/-- The drops of a table's foreign keys that point at tables that go. -/
theorem drops_table (gone : List Key) (t : Table) :
    ((ρ.table t).foreignKeys.filter fun fk => gone.contains fk.referencedKey).map
        (s.dropForeignKey (ρ.table t))
      = (t.foreignKeys.filter fun fk => gone.contains fk.referencedKey).map
          (s.dropForeignKey t) := by
  have hgone : ((fun fk : ForeignKey => gone.contains fk.referencedKey) ∘ ρ.foreignKey)
      = fun fk => gone.contains fk.referencedKey := by
    funext fk
    exact congrArg gone.contains (ρ.foreignKey_referencedKey fk)
  have hkeys : (ρ.table t).foreignKeys = t.foreignKeys.map ρ.foreignKey := rfl
  rw [hkeys, List.filter_map, List.map_map, hgone]
  exact List.map_congr_left fun fk _ => h.dropForeignKey t fk

theorem danglingDrops_comparison (d : Direction) (r : Comparison) :
    (ρ.comparison r).danglingDrops s d = r.danglingDrops s d := by
  have htables : (ρ.comparison r).tables = r.tables.map (ρ.item .table) := rfl
  have hdropped : (ρ.comparison r).droppedTables d = r.droppedTables d := by
    unfold Comparison.droppedTables
    rw [htables, List.filter_map, List.map_map]
    simp only [Function.comp_def, stateFor_item]
    rfl
  unfold Comparison.danglingDrops
  rw [hdropped, htables, List.filter_map, List.flatMap_map]
  simp only [Function.comp_def, stateFor_item, current_item]
  refine List.flatMap_congr fun i _ => ?_
  cases i.current d with
  | none => rfl
  | some t => exact drops_table h (r.droppedTables d) t

theorem consolidated_comparison (d : Direction) (r : Comparison) :
    (ρ.comparison r).consolidated s d = r.consolidated s d := by
  have hgather : ∀ part c, (ρ.comparison r).gather s d part c = r.gather s d part c := by
    intro part c
    unfold Comparison.gather Comparison.plans
    rw [outcomes_comparison h]
  unfold Comparison.consolidated Comparison.statements Comparison.phases
    Comparison.foreignKeyDrops
  simp only [hgather, danglingDrops_comparison h]

/-! ## Runs -/

theorem complaints_comparison (r : Comparison) :
    (ρ.comparison r).complaints s = r.complaints s := by
  unfold Comparison.complaints
  simp only [items_comparison, List.map_map]
  refine List.flatMap_congr fun c _ => List.map_congr_left fun i _ => ?_
  change (ρ.item c i).complaint? s = i.complaint? s
  unfold Item.complaint?
  rw [scripts_item h]
  rfl

theorem annotateFirst_comparison (n : Nat) (r : Comparison) :
    (ρ.comparison r).annotateFirst s n = ρ.comparison (r.annotateFirst s n) := by
  have hitems : ∀ (r : Comparison) c, (r.annotateFirst s n).items c
      = mapFirst (Item.annotated s) (n - r.sizeBefore c) (r.items c) := by
    intro r c
    cases c <;> rfl
  have hbefore : ∀ c, (ρ.comparison r).sizeBefore c = r.sizeBefore c := by
    intro c
    unfold Comparison.sizeBefore
    simp only [items_comparison, List.length_map]
  refine Comparison.eq_of_items rfl rfl (fun c => ?_) rfl rfl
  rw [hitems, items_comparison, items_comparison, hitems, hbefore]
  unfold mapFirst
  rw [← List.map_take, ← List.map_drop, List.map_append, List.map_map, List.map_map]
  refine congrArg₂ (· ++ ·) (List.map_congr_left fun i _ => ?_) rfl
  exact annotated_item h i

theorem annotated_comparison (r : Comparison) :
    (ρ.comparison r).annotated s = ρ.comparison (r.annotated s) := by
  unfold Comparison.annotated
  rw [size_comparison, annotateFirst_comparison h]

theorem noteSkipped_comparison (d : Direction) (r : Comparison) :
    (ρ.comparison r).noteSkipped s d = ρ.comparison (r.noteSkipped s d) := by
  obtain ⟨hdialect, hoptions, hscript⟩ := Comparison.foldl_note_beside (r.skipped s d) r
  obtain ⟨hdialect', hoptions', hscript'⟩ :=
    Comparison.foldl_note_beside ((ρ.comparison r).skipped s d) (ρ.comparison r)
  refine Comparison.eq_of_items (hdialect'.trans hdialect.symm) (hoptions'.trans hoptions.symm)
    (fun c => ?_) ((hscript' .sourceToTarget).trans (hscript .sourceToTarget).symm)
    ((hscript' .targetToSource).trans (hscript .targetToSource).symm)
  rw [Comparison.items_noteSkipped, items_comparison, items_comparison,
    Comparison.items_noteSkipped, List.map_map, List.map_map]
  exact List.map_congr_left fun i _ => noted_item h d i

theorem halfScripted_comparison (r : Comparison) :
    (ρ.comparison r).halfScripted s = ρ.comparison (r.halfScripted s) := by
  unfold Comparison.halfScripted
  rw [annotated_comparison h, noteSkipped_comparison h]

theorem scripted_comparison (r : Comparison) :
    (ρ.comparison r).scripted s = ρ.comparison (r.scripted s) := by
  unfold Comparison.scripted
  rw [annotated_comparison h, halfScripted_comparison h, noteSkipped_comparison h,
    consolidated_comparison h, consolidated_comparison h]
  generalize (r.halfScripted s).noteSkipped s .targetToSource = noted
  rfl

theorem scriptComparison_run (r : Comparison) (task : Address) (polls : Polls)
    (tr : Tracker) :
    (scriptComparison s (ρ.comparison r) task polls).run tr
      = Prod.map (Prod.map ρ.comparison id) id
          ((scriptComparison s r task polls).run tr) := by
  unfold scriptComparison
  simp only [complaints_comparison h, size_comparison, skipped_comparison h,
    annotateFirst_comparison h, annotated_comparison h, halfScripted_comparison h,
    scripted_comparison h]
  refine run_bind_map (fun started tr => ?_) tr
  cases started with
  | error e => rfl
  | ok _ =>
      refine run_bind_map (fun added tr => ?_) tr
      cases added with
      | error e => rfl
      | ok tasks =>
          obtain ⟨items, full⟩ := tasks
          refine run_bind_map (fun reported tr => ?_) tr
          cases reported
          -- Whether or not the reports went through, the rest is the same.
          all_goals
            refine run_bind_map (fun reported tr => ?_) tr
            refine run_bind_map (fun ended tr => ?_) tr
            cases ended with
            | error e => rfl
            | ok _ =>
                refine run_bind_map (fun outcome tr => ?_) tr
                cases outcome <;> rfl

end Writing

end Redaction

/-! ## Two runs -/

/-- No run tells the first two models from the second two.  Comparing them ends alike, in
the same fault or in comparisons of one outline, and leaves the task in the same state;
scripting the two comparisons does likewise, however far it comes; and all that scripting
adds to them is the same, to the letter. -/
structure Indistinguishable (o : Options) (s : Spelling) (a b a' b' : Model) : Prop where
  comparing : ∀ task polls tr,
    Prod.map (Except.map Comparison.outline) id ((compare o a b task polls).on tr)
      = Prod.map (Except.map Comparison.outline) id ((compare o a' b' task polls).on tr)
  scripting : ∀ task polls tr,
    Prod.map (Prod.map Comparison.outline id) id
        ((scriptComparison s (.between o a b) task polls).run tr)
      = Prod.map (Prod.map Comparison.outline id) id
          ((scriptComparison s (.between o a' b') task polls).run tr)
  scripted : ((Comparison.between o a b).scripted s).outline
    = ((Comparison.between o a' b').scripted s).outline
  consolidated : ∀ d, (Comparison.between o a b).consolidated s d
    = (Comparison.between o a' b').consolidated s d

/-- Models that a redaction makes the same are indistinguishable where it neither is seen
nor shows. -/
theorem Redaction.indistinguishable {ρ : Redaction} {o : Options} {s : Spelling}
    {a b a' b' : Model} (hunseen : ρ.Unseen o) (hunwritten : ρ.Unwritten s)
    (ha : ρ.model a = ρ.model a') (hb : ρ.model b = ρ.model b') :
    Indistinguishable o s a b a' b' := by
  have hbetween : ρ.comparison (.between o a b) = ρ.comparison (.between o a' b') := by
    rw [← comparison_between hunseen, ← comparison_between hunseen, ha, hb]
  have houtline : Comparison.outline ∘ ρ.comparison = Comparison.outline :=
    funext ρ.outline_comparison
  have hresult : Except.map Comparison.outline ∘ Except.map ρ.comparison
      = (Except.map Comparison.outline : Except Fault Comparison → _) := by
    funext outcome
    cases outcome with
    | error e => rfl
    | ok r => exact congrArg Except.ok (ρ.outline_comparison r)
  refine ⟨?comparing, ?scripting, ?scripted, ?consolidated⟩
  case comparing =>
      intro task polls tr
      have hrun := compare_run hunseen a b task polls tr
      rw [ha, hb, compare_run hunseen a' b' task polls tr] at hrun
      have hshown := congrArg (Prod.map (Except.map Comparison.outline) id) hrun
      rw [Prod.map_map, Prod.map_map, hresult] at hshown
      exact hshown.symm
  case scripting =>
      intro task polls tr
      have hrun := scriptComparison_run hunwritten (.between o a b) task polls tr
      rw [hbetween, scriptComparison_run hunwritten] at hrun
      have hshown := congrArg (Prod.map (Prod.map Comparison.outline id) id) hrun
      rw [Prod.map_map, Prod.map_map, Prod.map_comp_map, houtline] at hshown
      exact hshown.symm
  case scripted =>
      rw [← ρ.outline_comparison, ← scripted_comparison hunwritten, hbetween,
        scripted_comparison hunwritten, ρ.outline_comparison]
  case consolidated =>
      intro d
      rw [← consolidated_comparison hunwritten, hbetween, consolidated_comparison hunwritten]

end Reconcile
