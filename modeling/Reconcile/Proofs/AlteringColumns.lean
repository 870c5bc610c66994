import Reconcile.Proofs.ColumnShapes
import Reconcile.Proofs.Convergence

/-!
# Altering a column of PostgreSQL

PostgreSQL refuses some changes of a column as it stands: an identity is added only to a
column that is NOT NULL and has no default, and while a column is an identity it can
neither become nullable nor have its default touched (`ColumnChange.Accepted`).  Whether
all changes of a column are accepted therefore depends on their order.

The identity is changed before nullability and default.  That is right where an identity
goes, since what follows is refused while it is there.  Where one comes it is right only if
the column is ready for it, and else the identity is refused although the changes behind it
would have made the column ready (`Unready`, `alterColumn_reaches_iff`).  The same changes
always reach the desired column when an identity that comes is added after them.
-/

namespace Reconcile.PostgreSql

/-! ## What PostgreSQL accepts -/

/-- An identity column is NOT NULL and has no default. -/
structure Legal (c : Column) : Prop where
  nullable : c.identity.isSome → c.nullable = false
  default : c.identity.isSome → c.default = none

theorem Legal.identity_of_nullable {c : Column} (h : Legal c) (hnullable : c.nullable = true) :
    c.identity = none := by
  refine Option.not_isSome_iff_eq_none.mp fun hidentity => ?_
  exact Bool.false_ne_true ((h.nullable hidentity).symm.trans hnullable)

theorem Legal.identity_of_default {c : Column} (h : Legal c) (hdefault : c.default ≠ none) :
    c.identity = none :=
  Option.not_isSome_iff_eq_none.mp fun hidentity => hdefault (h.default hidentity)

instance (c : Column) : Decidable (Legal c) :=
  decidable_of_iff ((c.identity.isSome → c.nullable = false)
      ∧ (c.identity.isSome → c.default = none))
    ⟨fun h => ⟨h.1, h.2⟩, fun h => ⟨h.nullable, h.default⟩⟩

namespace ColumnChange

/-- PostgreSQL makes the change on a column as it stands. -/
def Accepted (c : Column) : ColumnChange → Prop
  | .addIdentity _ => c.nullable = false ∧ c.default = none ∧ c.identity = none
  | .dropIdentity => c.identity.isSome
  | .setIdentity _ => c.identity.isSome
  | .setNullable nullable => nullable = true → c.identity = none
  | .setDefault _ => c.identity = none
  | .dropDefault => c.identity = none
  | .retype _ _ => True
  | .comment _ => True

instance (c : Column) (change : ColumnChange) : Decidable (change.Accepted c) := by
  cases change <;> unfold Accepted <;> infer_instance

/-- The column with the change made. -/
def onto (c : Column) : ColumnChange → Column
  | .retype dataType collation => { c with dataType, collation }
  | .addIdentity i => { c with identity := some i }
  | .dropIdentity => { c with identity := none }
  | .setIdentity i => { c with identity := some i }
  | .setNullable nullable => { c with nullable }
  | .setDefault expression => { c with default := some expression }
  | .dropDefault => { c with default := none }
  | .comment text => { c with comment := text }

/-- The column once the change has run, unless it is refused. -/
def run? (c : Column) (change : ColumnChange) : Option Column :=
  if change.Accepted c then some (change.onto c) else none

theorem foldlM_append {changes changes' : List ColumnChange} {c c' c'' : Column}
    (h : changes.foldlM run? c = some c') (h' : changes'.foldlM run? c' = some c'') :
    (changes ++ changes').foldlM run? c = some c'' := by
  rw [List.foldlM_append, h]
  exact h'

/-- A change that is made where it is called for. -/
theorem foldlM_ite {b : Bool} {change : ColumnChange} {c c' : Column}
    (hmade : b = true → change.Accepted c ∧ change.onto c = c') (hleft : b = false → c = c') :
    (if b then [change] else []).foldlM run? c = some c' := by
  cases b with
  | false => exact congrArg some (hleft rfl)
  | true =>
      obtain ⟨haccepted, rfl⟩ := hmade rfl
      simp [run?, haccepted]

end ColumnChange

open ColumnChange

/-- Run in order on `current` the changes are all accepted, and they lead to a column that
equals `desired`. -/
def Reaches (o : Options) (changes : List ColumnChange) (desired current : Column) : Prop :=
  ∃ result, changes.foldlM run? current = some result ∧ columnsEqual o desired result = true

/-! ## Aspect by aspect -/

section Aspects

variable {c : Column}

/-- The changes of `columnChanges` by what they change. -/
def retypes (o : Options) (desired current : Column) : List ColumnChange :=
  if !Text.sameFolded desired.dataType current.dataType
      || desired.scriptedCollation o != current.scriptedCollation o then
    [.retype desired.dataType (desired.scriptedCollation o)] else []

def identities (desired current : Column) : List ColumnChange :=
  if desired.identity != current.identity then
    identityChange desired.identity current.identity else []

def nullabilities (desired current : Column) : List ColumnChange :=
  if desired.nullable != current.nullable then [.setNullable desired.nullable] else []

def defaults (desired current : Column) : List ColumnChange :=
  if desired.default != current.default then [defaultChange desired.default] else []

def comments (desired current : Column) : List ColumnChange :=
  if desired.comment != current.comment then [.comment desired.comment] else []

theorem columnChanges_eq (o : Options) (desired current : Column) :
    columnChanges o desired current
      = retypes o desired current ++ identities desired current
        ++ nullabilities desired current ++ defaults desired current
        ++ comments desired current := rfl

/-- The type and the collation once they are changed, if they are. -/
theorem foldlM_retypes (o : Options) (desired current : Column) :
    ∃ dataType collation,
      (retypes o desired current).foldlM run? current
        = some { current with dataType, collation }
      ∧ Text.sameFolded desired.dataType dataType = true
      ∧ (o.ignoreCollate = true ∨ desired.collation = collation) := by
  unfold retypes
  split
  · refine ⟨desired.dataType, desired.scriptedCollation o, rfl, sameFolded_self _, ?_⟩
    cases hignore : o.ignoreCollate <;> simp [Column.scriptedCollation, hignore]
  · next hsame =>
      simp only [Bool.or_eq_true, Bool.not_eq_true', bne_iff_ne, ne_eq, not_or,
        Bool.not_eq_false, not_not] at hsame
      obtain ⟨htype, hcollation⟩ := hsame
      exact ⟨current.dataType, current.collation, rfl, htype,
        Column.scriptedCollation_eq_iff.mp hcollation⟩

theorem foldlM_identities (desired current : Column) (hc : c.identity = current.identity)
    (hready : desired.identity.isSome → c.identity = none →
      c.nullable = false ∧ c.default = none) :
    (identities desired current).foldlM run? c
      = some { c with identity := desired.identity } := by
  unfold identities
  rw [← hc]
  cases hdesired : desired.identity with
  | none =>
      cases hidentity : c.identity with
      | none => simp [← hidentity]
      | some i => simp [identityChange, run?, Accepted, onto, hidentity]
  | some i =>
      cases hidentity : c.identity with
      | none =>
          obtain ⟨hnullable, hdefault⟩ := hready (by simp [hdesired]) hidentity
          simp [identityChange, run?, Accepted, onto, hidentity, hnullable, hdefault]
      | some j =>
          by_cases hsame : i = j
          · simp [hsame, ← hidentity]
          · simp [hsame, identityChange, run?, Accepted, onto, hidentity]

theorem foldlM_nullabilities (desired current : Column) (hc : c.nullable = current.nullable)
    (hready : desired.nullable = true → c.identity = none) :
    (nullabilities desired current).foldlM run? c
      = some { c with nullable := desired.nullable } := by
  refine foldlM_ite (fun _ => ⟨hready, rfl⟩) fun hsame => ?_
  have hnullable : desired.nullable = c.nullable := by simpa [hc] using hsame
  rw [hnullable]

theorem foldlM_defaults (desired current : Column) (hc : c.default = current.default)
    (hready : desired.default ≠ current.default → c.identity = none) :
    (defaults desired current).foldlM run? c = some { c with default := desired.default } := by
  refine foldlM_ite (fun hdiffers => ?_) fun hsame => ?_
  · have hidentity := hready (by simpa using hdiffers)
    cases desired.default with
    | none => exact ⟨hidentity, rfl⟩
    | some expression => exact ⟨hidentity, rfl⟩
  · have hdefault : desired.default = c.default := by simpa [hc] using hsame
    rw [hdefault]

theorem foldlM_comments (desired current : Column) (hc : c.comment = current.comment) :
    (comments desired current).foldlM run? c = some { c with comment := desired.comment } := by
  refine foldlM_ite (fun _ => ⟨trivial, rfl⟩) fun hsame => ?_
  have hcomment : desired.comment = c.comment := by simpa [hc] using hsame
  rw [hcomment]

end Aspects

/-! ## All aspects in order -/

/-- The identity is to be added to a column that is not ready for it. -/
structure Unready (desired current : Column) : Prop where
  wanted : desired.identity.isSome
  lacking : current.identity = none
  hindered : current.nullable = true ∨ current.default ≠ none

instance (desired current : Column) : Decidable (Unready desired current) :=
  decidable_of_iff (desired.identity.isSome ∧ current.identity = none
      ∧ (current.nullable = true ∨ current.default ≠ none))
    ⟨fun h => ⟨h.1, h.2.1, h.2.2⟩, fun h => ⟨h.wanted, h.lacking, h.hindered⟩⟩

section Order

variable {o : Options} {desired current : Column}

/-- The changes with the identity after nullability and default. -/
def identityLast (o : Options) (desired current : Column) : List ColumnChange :=
  retypes o desired current ++ nullabilities desired current ++ defaults desired current
    ++ identities desired current ++ comments desired current

theorem identityLast_perm (o : Options) (desired current : Column) :
    (identityLast o desired current).Perm (columnChanges o desired current) := by
  have hswap : (nullabilities desired current ++ defaults desired current
      ++ identities desired current).Perm (identities desired current
        ++ (nullabilities desired current ++ defaults desired current)) :=
    List.perm_append_comm
  rw [columnChanges_eq]
  unfold identityLast
  simpa only [List.append_assoc] using
    (hswap.append_right (comments desired current)).append_left (retypes o desired current)

theorem columnsEqual_of_aspects {dataType : String} {collation : Option String}
    (htype : Text.sameFolded desired.dataType dataType = true)
    (hcollation : o.ignoreCollate = true ∨ desired.collation = collation)
    (hset : desired.characterSet = current.characterSet) :
    columnsEqual o desired { current with
      dataType, collation, nullable := desired.nullable, default := desired.default
      identity := desired.identity, comment := desired.comment } = true := by
  simp [columnsEqual, htype, hcollation, hset]

theorem reaches_of_ready (hd : Legal desired) (hc : Legal current)
    (hset : desired.characterSet = current.characterSet) (hready : ¬ Unready desired current) :
    Reaches o (columnChanges o desired current) desired current := by
  obtain ⟨dataType, collation, hretypes, htype, hcollation⟩ :=
    foldlM_retypes o desired current
  have hidentity : desired.identity.isSome → current.identity = none →
      current.nullable = false ∧ current.default = none := by
    intro hwanted hlacking
    constructor
    · by_contra hnullable
      exact hready ⟨hwanted, hlacking, Or.inl (by simpa using hnullable)⟩
    · by_contra hdefault
      exact hready ⟨hwanted, hlacking, Or.inr hdefault⟩
  -- An identity column has no default, so if `desired` is to be one and the defaults differ
  -- the default is the current column's, and that column is not ready.
  have hdefault : desired.default ≠ current.default → desired.identity = none := by
    intro hdiffers
    refine Option.not_isSome_iff_eq_none.mp fun hwanted => ?_
    have hstanding : current.default ≠ none := by
      rw [hd.default hwanted] at hdiffers
      exact hdiffers.symm
    exact hstanding (hidentity hwanted (hc.identity_of_default hstanding)).2
  have hnumbered := foldlM_append hretypes (foldlM_identities desired current rfl hidentity)
  have hfilled := foldlM_append hnumbered
    (foldlM_nullabilities desired current rfl hd.identity_of_nullable)
  have hdefaulted := foldlM_append hfilled (foldlM_defaults desired current rfl hdefault)
  exact ⟨_, foldlM_append hdefaulted (foldlM_comments desired current rfl),
    columnsEqual_of_aspects htype hcollation hset⟩

/-- An identity that comes last finds its column ready. -/
theorem reaches_identityLast (hd : Legal desired)
    (hset : desired.characterSet = current.characterSet) (hlacking : current.identity = none) :
    Reaches o (identityLast o desired current) desired current := by
  obtain ⟨dataType, collation, hretypes, htype, hcollation⟩ :=
    foldlM_retypes o desired current
  have hfilled := foldlM_append hretypes
    (foldlM_nullabilities desired current rfl fun _ => hlacking)
  have hdefaulted := foldlM_append hfilled
    (foldlM_defaults desired current rfl fun _ => hlacking)
  have hnumbered := foldlM_append hdefaulted (foldlM_identities desired current rfl
    fun hwanted _ => ⟨hd.nullable hwanted, hd.default hwanted⟩)
  exact ⟨_, foldlM_append hnumbered (foldlM_comments desired current rfl),
    columnsEqual_of_aspects htype hcollation hset⟩

/-- An identity that is added too early is refused, and the changes behind it are not
reached. -/
theorem refused_of_unready (o : Options) (h : Unready desired current) :
    ∃ before i after standing,
      columnChanges o desired current = before ++ .addIdentity i :: after
      ∧ before.foldlM run? current = some standing
      ∧ ¬ (ColumnChange.addIdentity i).Accepted standing := by
  -- What comes before the identity changes neither nullability nor default.
  obtain ⟨dataType, collation, hretypes, -, -⟩ := foldlM_retypes o desired current
  obtain ⟨i, hidentity⟩ := Option.isSome_iff_exists.mp h.wanted
  have hadds : identities desired current = [.addIdentity i] := by
    simp [identities, hidentity, h.lacking, identityChange]
  refine ⟨retypes o desired current, i, nullabilities desired current
    ++ defaults desired current ++ comments desired current, _, ?_, hretypes, ?_⟩
  · rw [columnChanges_eq, hadds]
    simp
  · rintro ⟨hnullable, hdefault, -⟩
    rcases h.hindered with hhindered | hhindered
    · exact Bool.false_ne_true (hnullable.symm.trans hhindered)
    · exact hhindered hdefault

theorem not_reaches_of_refused {changes before after : List ColumnChange}
    {change : ColumnChange} {standing : Column} (hchanges : changes = before ++ change :: after)
    (hbefore : before.foldlM run? current = some standing)
    (hrefused : ¬ change.Accepted standing) : ¬ Reaches o changes desired current := by
  rintro ⟨result, hrun, -⟩
  rw [hchanges, List.foldlM_append, hbefore] at hrun
  simp [run?, hrefused] at hrun

/-- The statements that alter a column are those of its changes.  Between two legal columns
without character sets they all run and lead to the desired column, unless an identity is
added to a column that is not ready for it.  Then that is what is refused, and the same
changes in another order run and lead to the desired column. -/
theorem alterColumn_reaches_iff (o : Options) (t : Table) (hd : Legal desired)
    (hc : Legal current) (hset : desired.characterSet = none)
    (hset' : current.characterSet = none) :
    alterColumn o t desired current
      = (columnChanges o desired current).map (ColumnChange.statement o t desired.name)
    ∧ (Reaches o (columnChanges o desired current) desired current
      ↔ ¬ Unready desired current)
    ∧ (Unready desired current →
      (∃ before i after standing,
        columnChanges o desired current = before ++ .addIdentity i :: after
        ∧ before.foldlM run? current = some standing
        ∧ ¬ (ColumnChange.addIdentity i).Accepted standing)
      ∧ ∃ changes, changes.Perm (columnChanges o desired current)
        ∧ Reaches o changes desired current) := by
  have hsets : desired.characterSet = current.characterSet := hset.trans hset'.symm
  refine ⟨rfl, ⟨?ready, reaches_of_ready hd hc hsets⟩, fun h => ⟨refused_of_unready o h, ?last⟩⟩
  case ready =>
      intro hreaches h
      obtain ⟨before, i, after, standing, hchanges, hbefore, hrefused⟩ :=
        refused_of_unready o h
      exact not_reaches_of_refused hchanges hbefore hrefused hreaches
  case last =>
      exact ⟨_, identityLast_perm o desired current, reaches_identityLast hd hsets h.lacking⟩

/-- A column that numbers itself becomes an optional one with a default and a comment. -/
theorem alterColumn_reaches_iff_total :
    let current : Column := { name := "total", dataType := "integer", identity := some ⟨1, 1⟩ }
    let desired : Column :=
      { name := "total", dataType := "bigint", nullable := true, default := some "0"
        comment := some "in cents" }
    Legal desired ∧ Legal current ∧ desired.characterSet = none ∧ current.characterSet = none
    ∧ Reaches {} (columnChanges {} desired current) desired current := by
  intro current desired
  have hdesired : Legal desired := by decide
  have hcurrent : Legal current := by decide
  have hreaches := (alterColumn_reaches_iff {} { schema := "shop", name := "orders" } hdesired
    hcurrent rfl rfl).2.1.mpr (by decide)
  exact ⟨hdesired, hcurrent, rfl, rfl, hreaches⟩

/-- The identity of a column that is still nullable is refused. -/
theorem alterColumn_refused_id :
    let orders : Table := { schema := "shop", name := "orders" }
    let current : Column := { name := "id", dataType := "integer", nullable := true }
    let desired : Column := { name := "id", dataType := "integer", identity := some ⟨1, 1⟩ }
    Legal desired ∧ Legal current ∧ desired.characterSet = none ∧ current.characterSet = none
    ∧ alterColumn {} orders desired current
        = ["ALTER TABLE \"orders\" ALTER COLUMN \"id\" ADD GENERATED BY DEFAULT AS IDENTITY (START WITH 1 INCREMENT BY 1)",
          "ALTER TABLE \"orders\" ALTER COLUMN \"id\" SET NOT NULL"]
    ∧ columnChanges {} desired current = [.addIdentity ⟨1, 1⟩, .setNullable false]
    ∧ ¬ (ColumnChange.addIdentity ⟨1, 1⟩).Accepted current
    ∧ ¬ Reaches {} (columnChanges {} desired current) desired current := by
  refine ⟨by decide, by decide, rfl, rfl, rfl, rfl, by decide, ?_⟩
  rintro ⟨result, hrun, -⟩
  cases hrun

end Order

end Reconcile.PostgreSql
