import Reconcile.Proofs.Wording
import Reconcile.Proofs.Phases

/-!
# Names that cannot be mistaken

What a script says depends on where its names end.  A quoted name ends where its last quote
was written, whatever quotes stand inside it, unless another closing quote follows
(`TellsNames.quoted`).  Whatever is made of quoted names with a blank or a dot between them
can therefore be taken apart again.  Qualified names are those of one schema and one name,
and two statements that drop a foreign key are the same text only if they drop the same key
of the same table, so the phase that keeps the first of equal drops loses no key
(`tells_names`).
-/

namespace Reconcile

theorem firsts_sublist (xs : List String) : (firsts xs).Sublist xs := by
  induction xs with
  | nil => exact List.Sublist.refl _
  | cons x xs ih =>
      rw [firsts]
      exact (List.filter_sublist.trans ih).cons_cons x

/-- What tells the foreign keys of a database apart: the table that owns the key, and the
key's own name. -/
def keyName (k : Table × ForeignKey) : Key × String :=
  (k.1.key, k.2.name)

namespace Dialect

variable {d : Dialect} {o : Options}

/-- An engine that reads the name at the front of a text reads the name that was quoted. -/
theorem enclosed?_quote (name : String) {rest : List Char}
    (hrest : rest.head? ≠ some d.closingQuote) :
    Text.enclosed? d.openingQuote d.closingQuote ((d.quote name).toList ++ rest)
      = some (name.toList, rest) := by
  rw [quote, Text.toList_enclose]
  exact Text.enclosed?_encloseChars hrest name.toList

/-- A name of closing quotes only, in front of a dot. -/
example : Text.enclosed? '[' ']' "[]]]]].[t]".toList = some ("]]".toList, ".[t]".toList) := by
  cbv

theorem qualify_injective (d : Dialect) :
    Function.Injective fun k : Key => d.qualify k.schema k.name true := by
  intro k k' h
  have hblank : (d.qualify k.schema k.name true).toList ++ ' ' :: []
      = (d.qualify k'.schema k'.name true).toList ++ ' ' :: [] :=
    congrArg (fun text : String => text.toList ++ ' ' :: []) h
  obtain ⟨hschema, hname, -⟩ :=
    qualified_append_inj (o := { useSchemaName := true }) hblank
  cases k
  cases k'
  cases hschema rfl
  cases hname
  rfl

end Dialect

namespace Spelling

variable {d : Dialect} {o : Options}

/-- Engines differ in the words that drop a foreign key. -/
theorem dropForeignKey_eq (d : Dialect) (o : Options) :
    ∃ words : String, ∀ t fk, (Spelling.of d o).dropForeignKey t fk
      = d.alterTable o t (words ++ d.quote fk.name) := by
  cases d with
  | mySql => exact ⟨"DROP FOREIGN KEY ", fun t fk => rfl⟩
  | sqlServer => exact ⟨"DROP CONSTRAINT ", fun t fk => rfl⟩
  | postgreSql => exact ⟨"DROP CONSTRAINT ", fun t fk => rfl⟩

theorem dropForeignKey_eq_iff {t t' : Table} {fk fk' : ForeignKey} :
    (Spelling.of d o).dropForeignKey t fk = (Spelling.of d o).dropForeignKey t' fk'
      ↔ (o.useSchemaName = true → t.schema = t'.schema) ∧ t.name = t'.name
        ∧ fk.name = fk'.name := by
  obtain ⟨words, hwords⟩ := dropForeignKey_eq d o
  rw [hwords, hwords]
  constructor
  · intro h
    obtain ⟨hschema, hname, hchange⟩ := Dialect.alterTable_inj h
    have hquoted : d.quote fk.name = d.quote fk'.name := by
      simpa using hchange
    exact ⟨hschema, hname, Dialect.quote_inj hquoted⟩
  · rintro ⟨hschema, hname, hkey⟩
    have htable : d.tableName o t = d.tableName o t' := by
      unfold Dialect.tableName Dialect.qualified Dialect.qualify
      cases huse : o.useSchemaName with
      | false => simp [hname]
      | true => rw [hschema huse, hname]
    rw [Dialect.alterTable, Dialect.alterTable, htable, hkey]

theorem dropForeignKey_eq_iff_keyName (huse : o.useSchemaName = true)
    (k k' : Table × ForeignKey) :
    (Spelling.of d o).dropForeignKey k.1 k.2 = (Spelling.of d o).dropForeignKey k'.1 k'.2
      ↔ keyName k = keyName k' := by
  rw [dropForeignKey_eq_iff]
  simp [huse, keyName, Table.key, and_assoc]

end Spelling

/-- Where each thing has its own text, keeping the first of equal texts keeps the first of
equal things. -/
theorem firsts_map {α β : Type} {text : α → String} {identity : α → β}
    (htext : ∀ a b, text a = text b ↔ identity a = identity b) (xs : List α) :
    ∃ kept : List α, kept.Sublist xs ∧ firsts (xs.map text) = kept.map text
      ∧ (kept.map identity).Nodup ∧ ∀ x ∈ xs, identity x ∈ kept.map identity := by
  obtain ⟨kept, hkept, hfirsts⟩ := List.sublist_map_iff.mp (firsts_sublist (xs.map text))
  refine ⟨kept, hkept, hfirsts, ?distinct, ?covered⟩
  case distinct =>
      have hnodup : (kept.map text).Nodup := hfirsts ▸ firsts_nodup _
      rw [List.Nodup, List.pairwise_map] at hnodup ⊢
      exact hnodup.imp fun hne hsame => hne ((htext _ _).mpr hsame)
  case covered =>
      intro x hx
      have hmem : text x ∈ kept.map text :=
        hfirsts ▸ mem_firsts.mpr (List.mem_map_of_mem hx)
      obtain ⟨y, hy, hsame⟩ := List.mem_map.mp hmem
      exact List.mem_map.mpr ⟨y, hy, (htext _ _).mp hsame⟩

/-- Names stay what they are in everything that is written of them. -/
structure TellsNames (d : Dialect) (o : Options) : Prop where
  /-- A quoted name is read back, and what follows it is left. -/
  quoted : ∀ (name : String) (rest : List Char), rest.head? ≠ some d.closingQuote →
    Text.enclosed? d.openingQuote d.closingQuote ((d.quote name).toList ++ rest)
      = some (name.toList, rest)
  /-- With schemas written, no two objects have one qualified name, not even where one of
  them has no schema. -/
  qualified : Function.Injective fun k : Key => d.qualify k.schema k.name true
  /-- Drops are the same text just if all that they name is the same. -/
  drops : ∀ t fk t' fk',
    (Spelling.of d o).dropForeignKey t fk = (Spelling.of d o).dropForeignKey t' fk'
      ↔ (o.useSchemaName = true → t.schema = t'.schema) ∧ t.name = t'.name
        ∧ fk.name = fk'.name
  /-- With schemas written, the first of equal drops is the only drop of its key, and no key
  is left without. -/
  deduplicated : o.useSchemaName = true → ∀ keys : List (Table × ForeignKey),
    ∃ kept : List (Table × ForeignKey), kept.Sublist keys
      ∧ firsts (keys.map fun k => (Spelling.of d o).dropForeignKey k.1 k.2)
        = kept.map (fun k => (Spelling.of d o).dropForeignKey k.1 k.2)
      ∧ (kept.map keyName).Nodup ∧ ∀ k ∈ keys, keyName k ∈ kept.map keyName

theorem tells_names (d : Dialect) (o : Options) : TellsNames d o where
  quoted := fun name _ hrest => Dialect.enclosed?_quote name hrest
  qualified := Dialect.qualify_injective d
  drops := fun _ _ _ _ => Spelling.dropForeignKey_eq_iff
  deduplicated := fun huse keys => firsts_map (Spelling.dropForeignKey_eq_iff_keyName huse) keys

end Reconcile
