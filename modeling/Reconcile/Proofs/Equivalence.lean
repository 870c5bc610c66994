import Reconcile.Proofs.Convergence

/-!
# Being unchanged is an equivalence

Every equality compares what it reads of one object with what it reads of the other, and
so is an equivalence (`equivalence_of_reading`).  What it reads may be folded, sorted or
in canonical form, and it may be less under some options than under others.

That two tables do not differ is not of that kind: it is found out by pairing members by
name.  Where no name is used twice it says that every member of either side has an equal
one of its name on the other (`MemberDiff.all_unchanged_iff`), and such pairings can be
turned round and put together.  Where a name is used twice a table may even differ from
itself.
-/

namespace Reconcile

/-! ## Equalities -/

section Reading

variable {α β : Type} {equal : α → α → Bool}

/-- Objects that are equal when the same is read of them. -/
theorem equivalence_of_reading (read : α → β)
    (h : ∀ a b, equal a b = true ↔ read a = read b) :
    Equivalence fun a b => equal a b = true where
  refl a := (h a a).mpr rfl
  symm hab := (h _ _).mpr ((h _ _).mp hab).symm
  trans hab hbc := (h _ _).mpr (((h _ _).mp hab).trans ((h _ _).mp hbc))

end Reading

theorem sameFolded_iff {a b : String} :
    Text.sameFolded a b = true ↔ a.toList.map Char.toLower = b.toList.map Char.toLower :=
  beq_iff_eq

/-- The collation and the character set that count, which are none where collations are
ignored. -/
def Column.countedCollation (o : Options) (c : Column) : Option (Option String × Option String) :=
  if o.ignoreCollate then none else some (c.collation, c.characterSet)

theorem columnsEqual_equivalence (o : Options) :
    Equivalence fun a b => columnsEqual o a b = true := by
  refine equivalence_of_reading (fun c => (c.dataType.toList.map Char.toLower, c.nullable,
    c.default, c.identity, c.comment, c.countedCollation o)) fun a b => ?_
  cases hignore : o.ignoreCollate <;>
    simp [columnsEqual, sameFolded_iff, Column.countedCollation, hignore, and_assoc]

theorem indexesEqual_equivalence : Equivalence fun a b => indexesEqual a b = true :=
  equivalence_of_reading (fun i => (i.kind, i.extension, i.shape)) fun a b => by
    simp [indexesEqual, and_assoc]

theorem foreignKeysEqual_equivalence (o : Options) :
    Equivalence fun a b => foreignKeysEqual o a b = true :=
  equivalence_of_reading (fun fk => (fk.referencedKey, fk.onUpdate, fk.onDelete, fk.pairs o))
    fun a b => by simp [foreignKeysEqual, and_assoc]

/-- What counts of an extension: its engine, and character set and collation unless those
are ignored. -/
def TableExtension.counted (o : Options) :
    TableExtension → Option (List Char × Option (String × String))
  | .none => .none
  | .mySql engine _ characterSet collation =>
      some (engine.toList.map Char.toLower,
        if o.ignoreCollate then .none else some (characterSet, collation))

theorem extensionsEqual_equivalence (o : Options) :
    Equivalence fun a b => extensionsEqual o a b = true := by
  refine equivalence_of_reading (TableExtension.counted o) fun a b => ?_
  cases a <;> cases b <;> cases hignore : o.ignoreCollate <;>
    simp [extensionsEqual, sameFolded_iff, TableExtension.counted, hignore]

theorem sequencesEqual_equivalence : Equivalence fun a b => sequencesEqual a b = true :=
  equivalence_of_reading (fun q => (q.dataType.toList.map Char.toLower, q.startValue,
    q.increment, q.minValue, q.maxValue, q.cycle)) fun a b => by
      simp [sequencesEqual, sameFolded_iff, and_assoc]

theorem viewsEqual_equivalence : Equivalence fun a b => viewsEqual a b = true :=
  equivalence_of_reading (fun v => Text.canonical v.definition) fun a b => by
    simp [viewsEqual, Text.sameDefinition]

theorem routinesEqual_equivalence : Equivalence fun a b => routinesEqual a b = true :=
  equivalence_of_reading (fun r => (r.arguments, r.returnType, Text.canonical r.definition))
    fun a b => by simp [routinesEqual, Text.sameDefinition, and_assoc]

/-! ## Members -/

namespace MemberDiff

variable {α : Type} {nameOf : α → String} {equal : α → α → Bool} {source target : List α}

/-- Every member of either side has an equal one of its name on the other. -/
structure Paired (nameOf : α → String) (equal : α → α → Bool) (source target : List α) :
    Prop where
  there : ∀ x ∈ source, ∃ y ∈ target, nameOf x = nameOf y ∧ equal x y = true
  back : ∀ y ∈ target, ∃ x ∈ source, nameOf x = nameOf y ∧ equal x y = true

theorem paired_equivalence (nameOf : α → String)
    (h : Equivalence fun x y => equal x y = true) : Equivalence (Paired nameOf equal) where
  refl _ := ⟨fun x hx => ⟨x, hx, rfl, h.refl x⟩, fun x hx => ⟨x, hx, rfl, h.refl x⟩⟩
  symm hxy := by
    refine ⟨fun y hy => ?_, fun x hx => ?_⟩
    · obtain ⟨x, hx, hname, hequal⟩ := hxy.back y hy
      exact ⟨x, hx, hname.symm, h.symm hequal⟩
    · obtain ⟨y, hy, hname, hequal⟩ := hxy.there x hx
      exact ⟨y, hy, hname.symm, h.symm hequal⟩
  trans hxy hyz := by
    refine ⟨fun x hx => ?_, fun z hz => ?_⟩
    · obtain ⟨y, hy, hname, hequal⟩ := hxy.there x hx
      obtain ⟨z, hz, hname', hequal'⟩ := hyz.there y hy
      exact ⟨z, hz, hname.trans hname', h.trans hequal hequal'⟩
    · obtain ⟨y, hy, hname', hequal'⟩ := hyz.back z hz
      obtain ⟨x, hx, hname, hequal⟩ := hxy.back y hy
      exact ⟨x, hx, hname.trans hname', h.trans hequal hequal'⟩

/-- Where no name is used twice, nothing differs just if the members are paired. -/
theorem all_unchanged_iff (ht : (target.map nameOf).Nodup) :
    (∀ m ∈ between nameOf equal source target, m.state = .unchanged)
      ↔ Paired nameOf equal source target := by
  have hpair : ∀ {x y}, DiffState.classify equal (some x) (some y) = .unchanged →
      equal x y = true := by
    intro x y h
    simpa [DiffState.classify] using h
  constructor
  · intro h
    refine ⟨fun x hx => ?_, fun y hy => ?_⟩
    · by_cases hfound : ∃ y ∈ target, nameOf x = nameOf y
      · obtain ⟨y, hy, hname⟩ := hfound
        exact ⟨y, hy, hname, hpair (h _ ((mem_between ht).mpr
          (Or.inl ⟨x, hx, y, hy, hname, rfl⟩)))⟩
      · push Not at hfound
        cases h _ ((mem_between ht).mpr
          (Or.inr (Or.inl ⟨x, hx, fun y hy => (hfound y hy).symm, rfl⟩)))
    · by_cases hfound : ∃ x ∈ source, nameOf x = nameOf y
      · obtain ⟨x, hx, hname⟩ := hfound
        exact ⟨x, hx, hname, hpair (h _ ((mem_between ht).mpr
          (Or.inl ⟨x, hx, y, hy, hname, rfl⟩)))⟩
      · push Not at hfound
        cases h _ ((mem_between ht).mpr (Or.inr (Or.inr ⟨y, hy, hfound, rfl⟩)))
  · intro h m hm
    rcases (mem_between ht).mp hm with ⟨x, hx, y, hy, hname, rfl⟩ | ⟨x, hx, hnone, -⟩
      | ⟨y, hy, hnone, -⟩
    · obtain ⟨y', hy', hname', hequal⟩ := h.there x hx
      obtain rfl := List.inj_on_of_nodup_map ht hy' hy (hname'.symm.trans hname)
      simp [DiffState.classify, hequal]
    · obtain ⟨y, hy, hname, -⟩ := h.there x hx
      exact absurd hname.symm (hnone y hy)
    · obtain ⟨x, hx, hname, -⟩ := h.back y hy
      exact absurd hname (hnone x hx)

end MemberDiff

/-! ## Tables -/

/-- The members of two tables are paired, and what they say beside them is equal. -/
structure Table.Paired (o : Options) (a b : Table) : Prop where
  columns : MemberDiff.Paired Column.name (columnsEqual o) a.columns b.columns
  indexes : MemberDiff.Paired Index.name indexesEqual a.indexes b.indexes
  foreignKeys : MemberDiff.Paired ForeignKey.name (foreignKeysEqual o) a.foreignKeys
    b.foreignKeys
  extension : extensionsEqual o a.extension b.extension = true

theorem Table.paired_equivalence (o : Options) : Equivalence (Table.Paired o) := by
  have hcolumns := MemberDiff.paired_equivalence Column.name (columnsEqual_equivalence o)
  have hindexes := MemberDiff.paired_equivalence Index.name indexesEqual_equivalence
  have hkeys := MemberDiff.paired_equivalence ForeignKey.name (foreignKeysEqual_equivalence o)
  have hextensions := extensionsEqual_equivalence o
  exact
    { refl := fun _ =>
        ⟨hcolumns.refl _, hindexes.refl _, hkeys.refl _, hextensions.refl _⟩
      symm := fun h =>
        ⟨hcolumns.symm h.columns, hindexes.symm h.indexes, hkeys.symm h.foreignKeys,
          hextensions.symm h.extension⟩
      trans := fun h h' =>
        ⟨hcolumns.trans h.columns h'.columns, hindexes.trans h.indexes h'.indexes,
          hkeys.trans h.foreignKeys h'.foreignKeys,
          hextensions.trans h.extension h'.extension⟩ }

theorem TableDiff.isUnchanged_iff_paired (o : Options) (a : Table) {b : Table}
    (hb : b.DistinctNames) :
    (between o a b).isUnchanged = true ↔ Table.Paired o a b := by
  have hoptions : (between o a b).optionsChanged = false
      ↔ extensionsEqual o a.extension b.extension = true := by
    change (!extensionsEqual o a.extension b.extension) = false ↔ _
    rw [Bool.not_eq_false']
  rw [isUnchanged_iff, hoptions]
  unfold between
  rw [MemberDiff.all_unchanged_iff hb.columns, MemberDiff.all_unchanged_iff hb.indexes,
    MemberDiff.all_unchanged_iff hb.foreignKeys]
  exact ⟨fun h => ⟨h.1, h.2.1, h.2.2.1, h.2.2.2⟩,
    fun h => ⟨h.columns, h.indexes, h.foreignKeys, h.extension⟩⟩

/-- To be unchanged is an equivalence of tables whose names are distinct, so that two which
are unchanged against a third are unchanged against each other.  The equalities of views,
routines and sequences are equivalences as well. -/
theorem unchanged_equivalence (o : Options) :
    Equivalence (fun a b : { t : Table // t.DistinctNames } =>
      (TableDiff.between o a.val b.val).isUnchanged = true)
    ∧ (∀ a b c : { t : Table // t.DistinctNames },
        (TableDiff.between o a.val c.val).isUnchanged = true →
        (TableDiff.between o b.val c.val).isUnchanged = true →
        (TableDiff.between o a.val b.val).isUnchanged = true)
    ∧ Equivalence (fun v w => viewsEqual v w = true)
    ∧ Equivalence (fun r r' => routinesEqual r r' = true)
    ∧ Equivalence (fun q q' => sequencesEqual q q' = true) := by
  have hpaired : ∀ a b : { t : Table // t.DistinctNames },
      (TableDiff.between o a.val b.val).isUnchanged = true ↔ Table.Paired o a.val b.val :=
    fun a b => TableDiff.isUnchanged_iff_paired o a.val b.property
  have htables := Table.paired_equivalence o
  refine ⟨⟨?refl, ?symm, ?trans⟩, ?common, viewsEqual_equivalence, routinesEqual_equivalence,
    sequencesEqual_equivalence⟩
  case refl => exact fun a => (hpaired a a).mpr (htables.refl a.val)
  case symm => exact fun {a b} h => (hpaired b a).mpr (htables.symm ((hpaired a b).mp h))
  case trans =>
    intro a b c hab hbc
    exact (hpaired a c).mpr (htables.trans ((hpaired a b).mp hab) ((hpaired b c).mp hbc))
  case common =>
    intro a b c hac hbc
    exact (hpaired a b).mpr
      (htables.trans ((hpaired a c).mp hac) (htables.symm ((hpaired b c).mp hbc)))

/-- Of two columns of one name the first is compared with the second. -/
example :
    let twice : Table :=
      { schema := "shop", name := "orders"
        columns := [{ name := "id", dataType := "int" }, { name := "id", dataType := "date" }] }
    (TableDiff.between {} twice twice).isUnchanged = false := by decide

end Reconcile
