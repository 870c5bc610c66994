import Reconcile.Proofs.Statements
import Reconcile.Proofs.Phases

/-!
# Foreign keys in a consolidated script

A foreign key ties two tables together, so the order of a script turns on it twice.
It has to go before the table it points at, and it may come only when both tables
stand as they should.  `Comparison.keySafe` states both for every comparison, whatever
the foreign keys look like as a graph and whichever items could not be planned.

The drop of a key has two origins.  If its table goes as well, the plan of that table
has the drop, and a plan that drops a table is never missing.  Any other table leaves
the key dangling, and the drop is written for it whether its own plan could be made
or not.
-/

namespace Reconcile

namespace Item

variable {c : Category} {s : Spelling} {d : Direction} {i : Item c}

theorem stateFor_eq_unchanged : i.stateFor d = .unchanged ↔ i.state = .unchanged := by
  cases d with
  | sourceToTarget => rfl
  | targetToSource =>
      unfold stateFor
      cases i.state <;> simp [DiffState.reversed]

theorem differs_of_deleted (h : i.stateFor d = .deleted) : i.state ≠ .unchanged := by
  intro hsame
  rw [stateFor_eq_unchanged.mpr hsame] at h
  cases h

/-- The plan of a table that goes is there in any case. -/
theorem plan_of_deleted_table {i : Item .table} {t : Table}
    (h : i.stateFor d = .deleted) (hcurrent : i.current d = some t) :
    i.plan s d = .ok (t.planDrop s) := by
  unfold plan
  rw [h, hcurrent]
  rfl

end Item

namespace Comparison

/-- The script drops and adds foreign keys where nothing is in the way. -/
structure KeySafe (s : Spelling) (d : Direction) (r : Comparison) : Prop where
  /-- A table that goes is dropped, and wherever that stands, every foreign key that
  points at it was dropped before, whatever becomes of the table that owns the key. -/
  drops : ∀ gone ∈ r.tables, gone.stateFor d = .deleted →
    ∀ u, gone.current d = some u →
      s.dropTable u ∈ r.statements s d
      ∧ ∀ owner ∈ r.tables, ∀ t, owner.current d = some t →
          ∀ fk ∈ t.foreignKeys, fk.referencedKey = gone.key →
            Precedes (s.dropForeignKey t fk) (s.dropTable u) (r.statements s d)
  /-- The phase that drops foreign keys says nothing twice. -/
  once : r.foreignKeyDrops s d ∈ r.phases s d ∧ (r.foreignKeyDrops s d).Nodup
  /-- What the plans add as foreign keys is recognised as such. -/
  adds : ∀ text ∈ r.gather s d Plan.createForeignKeys .table, s.AddsForeignKey text
  /-- Before a foreign key is added, all tables are created, all columns are changed
  and all indexes are there. -/
  creates : ∀ text, s.AddsForeignKey text → ∀ before after,
    r.statements s d = before ++ text :: after →
      (r.gather s d Plan.creates .table ++ r.gather s d Plan.createIndexes .table).Sublist
        before

variable {e : Dialect} {o : Options} {d : Direction} {r : Comparison} {text : String}

/-- The script cut after its first `n` phases. -/
theorem statements_eq_take_append_drop (s : Spelling) (n : Nat) :
    r.statements s d
      = ((r.phases s d).take n).flatten ++ ((r.phases s d).drop n).flatten := by
  unfold statements
  rw [← List.flatten_append, List.take_append_drop]

/-! ## Before a table is dropped -/

/-- Nothing that runs before the tables are dropped drops one. -/
theorem dropTable_notMem_take (u : Table) :
    (Spelling.of e o).dropTable u
      ∉ ((r.phases (Spelling.of e o) d).take 5).flatten := by
  simp only [phases, List.take_succ_cons, List.take_zero, List.flatten_cons,
    List.flatten_nil, List.append_nil, List.mem_append, not_or]
  refine ⟨?procedures, ?functions, ?views, ?keys, ?indexes⟩
  case procedures =>
      intro h
      obtain ⟨i, -, -, p, hp, hmem⟩ := mem_gather.mp h
      obtain ⟨x, hx⟩ := (Item.plan_plain_routine (.inr rfl) hp).drops _ hmem
      exact Spelling.dropRoutine_ne_dropTable x u hx.symm
  case functions =>
      intro h
      obtain ⟨i, -, -, p, hp, hmem⟩ := mem_gather.mp h
      obtain ⟨x, hx⟩ := (Item.plan_plain_routine (.inl rfl) hp).drops _ hmem
      exact Spelling.dropRoutine_ne_dropTable x u hx.symm
  case views =>
      intro h
      obtain ⟨i, -, -, p, hp, hmem⟩ := mem_gather.mp h
      obtain ⟨v, hv⟩ := (Item.plan_plain_view hp).drops _ hmem
      exact Spelling.dropView_ne_dropTable v u hv.symm
  case keys =>
      intro h
      rcases mem_foreignKeyDrops.mp h with h | h
      · obtain ⟨i, -, -, p, hp, hmem⟩ := mem_gather.mp h
        obtain ⟨t, fk, hfk⟩ := (Item.plan_ofTable hp).dropForeignKeys _ hmem
        exact Spelling.dropForeignKey_ne_dropTable t fk u hfk.symm
      · obtain ⟨i, -, -, t, -, fk, -, -, hfk⟩ := mem_danglingDrops.mp h
        exact Spelling.dropForeignKey_ne_dropTable t fk u hfk.symm
  case indexes =>
      intro h
      obtain ⟨i, -, -, p, hp, hmem⟩ := mem_gather.mp h
      obtain ⟨t, x, hx⟩ := (Item.plan_ofTable hp).dropIndexes _ hmem
      exact Spelling.dropIndex_ne_dropTable t x u hx.symm

/-- A foreign key that points at a table that goes is dropped, by the plan of its own
table if that goes too, and as a dangling key otherwise. -/
theorem dropForeignKey_mem {s : Spelling} {gone owner : Item .table} {t : Table}
    {fk : ForeignKey} (hgone : gone ∈ r.tables) (hdeleted : gone.stateFor d = .deleted)
    (howner : owner ∈ r.tables) (hcurrent : owner.current d = some t)
    (hfk : fk ∈ t.foreignKeys) (href : fk.referencedKey = gone.key) :
    s.dropForeignKey t fk ∈ r.foreignKeyDrops s d := by
  rw [mem_foreignKeyDrops]
  by_cases hgoes : owner.stateFor d = .deleted
  · refine Or.inl (mem_gather.mpr ⟨owner, howner, Item.differs_of_deleted hgoes, ?_⟩)
    exact ⟨_, Item.plan_of_deleted_table hgoes hcurrent, List.mem_map_of_mem hfk⟩
  · refine Or.inr (mem_danglingDrops.mpr ⟨owner, howner, hgoes, t, hcurrent, fk, hfk, ?_⟩)
    exact ⟨mem_droppedTables.mpr ⟨gone, hgone, hdeleted, href.symm⟩, rfl⟩

theorem dropTable_mem {s : Spelling} {gone : Item .table} {u : Table}
    (hgone : gone ∈ r.tables) (hdeleted : gone.stateFor d = .deleted)
    (hcurrent : gone.current d = some u) : s.dropTable u ∈ r.statements s d := by
  have hmem : s.dropTable u ∈ r.gather s d Plan.drops .table := by
    refine mem_gather.mpr ⟨gone, hgone, Item.differs_of_deleted hdeleted, ?_⟩
    exact ⟨_, Item.plan_of_deleted_table hdeleted hcurrent, List.mem_singleton_self _⟩
  simp [statements, phases, hmem]

/-! ## Before a foreign key is added -/

/-- Nothing up to the creation of the last index adds a foreign key. -/
theorem take_adds_no_key
    (hmem : text ∈ ((r.phases (Spelling.of e o) d).take 10).flatten) :
    ¬ (Spelling.of e o).AddsForeignKey text := by
  simp only [phases, List.take_succ_cons, List.take_zero, List.flatten_cons,
    List.flatten_nil, List.append_nil, List.mem_append, mem_foreignKeyDrops,
    mem_danglingDrops, mem_gather] at hmem
  rcases hmem with ⟨i, -, -, p, hp, hmem⟩ | ⟨i, -, -, p, hp, hmem⟩
    | ⟨i, -, -, p, hp, hmem⟩ | (⟨i, -, -, p, hp, hmem⟩ | ⟨i, -, -, t, -, fk, -, -, rfl⟩)
    | ⟨i, -, -, p, hp, hmem⟩ | ⟨i, -, -, p, hp, hmem⟩ | ⟨i, -, -, p, hp, hmem⟩
    | ⟨i, -, -, p, hp, hmem⟩ | ⟨i, -, -, p, hp, hmem⟩ | ⟨i, -, -, p, hp, hmem⟩
  · obtain ⟨x, rfl⟩ := (Item.plan_plain_routine (.inr rfl) hp).drops _ hmem
    exact Spelling.dropRoutine_adds_no_key x
  · obtain ⟨x, rfl⟩ := (Item.plan_plain_routine (.inl rfl) hp).drops _ hmem
    exact Spelling.dropRoutine_adds_no_key x
  · obtain ⟨v, rfl⟩ := (Item.plan_plain_view hp).drops _ hmem
    exact Spelling.dropView_adds_no_key v
  · obtain ⟨t, fk, rfl⟩ := (Item.plan_ofTable hp).dropForeignKeys _ hmem
    exact Spelling.dropForeignKey_adds_no_key t fk
  · exact Spelling.dropForeignKey_adds_no_key t fk
  · obtain ⟨t, x, rfl⟩ := (Item.plan_ofTable hp).dropIndexes _ hmem
    exact Spelling.dropIndex_adds_no_key t x
  · obtain ⟨t, rfl⟩ := (Item.plan_ofTable hp).drops _ hmem
    exact Spelling.dropTable_adds_no_key t
  · obtain ⟨q, hq⟩ := (Item.plan_plain_sequence hp).drops _ hmem
    exact Spelling.dropSequence_adds_no_key hq
  · rcases (Item.plan_plain_sequence hp).creates _ hmem with ⟨q, hq⟩
      | ⟨q, u, texts, htexts, htext⟩
    · exact Spelling.createSequence_adds_no_key hq
    · exact Spelling.alterSequence_adds_no_key htexts htext
  · rcases (Item.plan_ofTable hp).creates _ hmem with ⟨t, texts, htexts, htext⟩
      | ⟨t, c, htext⟩ | ⟨t, c, htext⟩ | ⟨t, c, c', texts, htexts, htext⟩
      | ⟨t, t', htext⟩
    · exact Spelling.createTable_adds_no_key htexts htext
    · exact Spelling.dropColumn_adds_no_key htext
    · exact Spelling.addColumn_adds_no_key htext
    · exact Spelling.alterColumn_adds_no_key htexts htext
    · exact Spelling.alterTableOptions_adds_no_key htext
  · obtain ⟨t, x, hx⟩ := (Item.plan_ofTable hp).createIndexes _ hmem
    exact Spelling.createIndex_adds_no_key hx

/-- Table creations, changes and indexes all stand among the first ten phases. -/
theorem creates_sublist_take (s : Spelling) :
    (r.gather s d Plan.creates .table ++ r.gather s d Plan.createIndexes .table).Sublist
      ((r.phases s d).take 10).flatten := by
  have htail : ((r.phases s d).take 10).flatten
      = ((r.phases s d).take 8).flatten
        ++ (r.gather s d Plan.creates .table ++ r.gather s d Plan.createIndexes .table) := by
    simp [phases]
  rw [htail]
  exact List.sublist_append_right _ _

/-! ## The order as a whole -/

/-- Every consolidated script of every engine drops and adds foreign keys safely. -/
theorem keySafe (e : Dialect) (o : Options) (d : Direction) (r : Comparison) :
    r.KeySafe (Spelling.of e o) d := by
  refine ⟨?drops, ?once, ?adds, ?creates⟩
  case drops =>
      intro gone hgone hdeleted u hu
      refine ⟨dropTable_mem hgone hdeleted hu, ?_⟩
      intro owner howner t hcurrent fk hfk href
      -- The drop of the key stands among the first five phases, and no drop of a table
      -- does, not even by chance.
      rw [statements_eq_take_append_drop _ 5]
      refine Precedes.of_append ?_ (dropTable_notMem_take u)
      have hdrop := dropForeignKey_mem (s := Spelling.of e o) hgone hdeleted howner
        hcurrent hfk href
      simp [phases, hdrop]
  case once =>
      exact ⟨by simp [phases], firsts_nodup _⟩
  case adds =>
      intro text hmem
      obtain ⟨i, -, -, p, hp, htext⟩ := mem_gather.mp hmem
      exact (Item.plan_ofTable hp).createForeignKeys text htext
  case creates =>
      intro text hadds before after hsplit
      -- No such statement is among the first ten phases, so they all come before it.
      rw [statements_eq_take_append_drop _ 10] at hsplit
      have hlate : text ∉ ((r.phases (Spelling.of e o) d).take 10).flatten :=
        fun hmem => take_adds_no_key hmem hadds
      exact (creates_sublist_take _).trans (prefix_of_notMem hsplit hlate).sublist

end Comparison

end Reconcile
