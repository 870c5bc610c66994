import Reconcile.Proofs.ColumnStatements
import Reconcile.Proofs.Convergence

/-!
# Defaults as constraints

SQL Server keeps the default of a column as a constraint that is bound to it.  A constraint
can be dropped only while it is bound, a default can be added only while none is, and no
default that is to change may be bound while the column is restated
(`ColumnChange.Accepted`).  The three steps of an alteration look at different attributes of
the two columns, but they meet in what is bound between them: a default that changes is gone
after the first step and one that stays is there throughout (`kept`).  So every statement is
accepted, and the last one leaves the desired column (`alterColumn_rebinds`).
-/

namespace Reconcile.SqlServer

/-! ## What is bound -/

/-- A default as SQL Server keeps it. -/
structure Bound where
  constraint : String
  expression : String
deriving DecidableEq, Repr

/-- A column as far as it can be altered. -/
structure Standing where
  dataType : String
  collation : Option String
  nullable : Bool
  bound : Option Bound
deriving DecidableEq, Repr

def boundDefault (c : Column) : Option Bound :=
  c.default.bind fun expression => c.defaultConstraint.map fun name => ⟨name, expression⟩

def standing (c : Column) : Standing :=
  ⟨c.dataType, c.collation, c.nullable, boundDefault c⟩

theorem expression_boundDefault {c : Column} (h : Named c) :
    (boundDefault c).map Bound.expression = c.default := by
  unfold boundDefault
  cases hdefault : c.default with
  | none => rfl
  | some expression =>
      obtain ⟨name, hname⟩ := Option.isSome_iff_exists.mp (h (by simp [hdefault]))
      rw [hname]
      rfl

/-! ## Running the changes -/

namespace ColumnChange

/-- SQL Server makes the change on a column that stands so, on the way to `desired`. -/
def Accepted (desired : Column) (s : Standing) : ColumnChange → Prop
  | .dropDefault constraint => s.bound.map Bound.constraint = some constraint
  | .restate _ _ _ => ∀ b ∈ s.bound, desired.default = some b.expression
  | .addDefault _ _ => s.bound = none

instance (desired : Column) (s : Standing) (change : ColumnChange) :
    Decidable (change.Accepted desired s) := by
  cases change <;> unfold Accepted <;> infer_instance

/-- The column with the change made.  A default that is added without a name gets one from
the engine, which is `fresh`. -/
def onto (fresh : String) (s : Standing) : ColumnChange → Standing
  | .dropDefault _ => { s with bound := none }
  | .restate dataType collation nullable => { s with dataType, collation, nullable }
  | .addDefault constraint expression =>
      { s with bound := some ⟨constraint.getD fresh, expression⟩ }

/-- The column once the change has run, unless it is refused. -/
def run? (desired : Column) (fresh : String) (s : Standing) (change : ColumnChange) :
    Option Standing :=
  if change.Accepted desired s then some (change.onto fresh s) else none

theorem run?_of_accepted {desired : Column} {fresh : String} {s : Standing}
    {change : ColumnChange} (h : change.Accepted desired s) :
    [change].foldlM (run? desired fresh) s = some (change.onto fresh s) := by
  simp [run?, h]

end ColumnChange

open ColumnChange

/-- The column stands as desired.  Types are the same in either letter case, and collations
count unless they are ignored. -/
structure Settled (o : Options) (desired : Column) (s : Standing) : Prop where
  dataType : Text.sameFolded desired.dataType s.dataType = true
  collation : o.ignoreCollate = false → s.collation = desired.collation
  nullable : s.nullable = desired.nullable
  default : s.bound.map Bound.expression = desired.default

/-! ## Step by step -/

variable {o : Options} {t : Table} {desired current : Column} {fresh : String}

/-- What is bound between the steps: the default that stays, if it stays. -/
def kept (desired current : Column) : Option Bound :=
  if desired.default = current.default then boundDefault current else none

theorem expression_kept (h : Named current) :
    ∀ b ∈ kept desired current, desired.default = some b.expression := by
  intro b hb
  unfold kept at hb
  split at hb
  · next hsame =>
      rw [hsame, ← expression_boundDefault h, Option.mem_def.mp hb]
      rfl
  · cases hb

theorem releases_run (t : Table) (fresh : String) (h : Named current) :
    ∃ drops, releases t desired current = .ok drops
      ∧ drops.foldlM (run? desired fresh) (standing current)
        = some ⟨current.dataType, current.collation, current.nullable,
            kept desired current⟩ := by
  by_cases hsame : desired.default = current.default
  · refine ⟨[], releases_of_same hsame, ?_⟩
    simp [kept, hsame, standing]
  · rw [releases_of_changed hsame, kept, if_neg hsame]
    cases hdefault : current.default with
    | none =>
        refine ⟨[], by simp [dropDefault, hdefault], ?_⟩
        simp [standing, boundDefault, hdefault]
    | some expression =>
        obtain ⟨name, hname⟩ := Option.isSome_iff_exists.mp (h (by simp [hdefault]))
        have hbound : (standing current).bound = some ⟨name, expression⟩ := by
          simp [standing, boundDefault, hdefault, hname]
        have haccepted :
            (ColumnChange.dropDefault name).Accepted desired (standing current) := by
          show (standing current).bound.map Bound.constraint = some name
          rw [hbound]
          rfl
        refine ⟨[.dropDefault name], by simp [SqlServer.dropDefault, hdefault, hname], ?_⟩
        rw [run?_of_accepted haccepted]
        rfl

theorem restatements_run (o : Options) (fresh : String) (hd : desired.Unspaced)
    (hc : current.Unspaced) {bound : Option Bound}
    (hbound : ∀ b ∈ bound, desired.default = some b.expression) :
    ∃ collation, (o.ignoreCollate = false → collation = desired.collation)
      ∧ (restatements o desired current).foldlM (run? desired fresh)
          ⟨current.dataType, current.collation, current.nullable, bound⟩
        = some ⟨desired.dataType, collation, desired.nullable, bound⟩ := by
  by_cases hshape : columnShape o desired = columnShape o current
  · obtain ⟨htype, hcollation, hnullable⟩ := (columnShape_eq_iff hd hc).mp hshape
    refine ⟨current.collation, ?_, by simp [restatements, hshape, htype, hnullable]⟩
    intro hcounts
    rcases Column.scriptedCollation_eq_iff.mp hcollation with hignored | hsame
    · rw [hcounts] at hignored
      cases hignored
    · exact hsame.symm
  · have hrestated : restatements o desired current
        = [.restate desired.dataType (desired.scriptedCollation o) desired.nullable] := by
      simp [restatements, hshape]
    have haccepted : (restate desired.dataType (desired.scriptedCollation o)
        desired.nullable).Accepted desired
          ⟨current.dataType, current.collation, current.nullable, bound⟩ := hbound
    refine ⟨desired.scriptedCollation o, ?_, ?_⟩
    · intro hcounts
      simp [Column.scriptedCollation, hcounts]
    · rw [hrestated, run?_of_accepted haccepted]
      rfl

theorem additions_run (fresh : String) (h : Named current) {s : Standing}
    (hs : s.bound = kept desired current) :
    ∃ bound, bound.map Bound.expression = desired.default
      ∧ (additions desired current).foldlM (run? desired fresh) s
        = some ⟨s.dataType, s.collation, s.nullable, bound⟩ := by
  by_cases hsame : desired.default = current.default
  · refine ⟨s.bound, ?_, by simp [additions, hsame]⟩
    rw [hs, kept, if_pos hsame, expression_boundDefault h, hsame]
  · have hfree : s.bound = none := by
      rw [hs, kept, if_neg hsame]
    cases hdefault : desired.default with
    | none => exact ⟨none, rfl, by simp [additions, hdefault, ← hfree]⟩
    | some expression =>
        have hadded : additions desired current
            = [.addDefault desired.defaultConstraint expression] := by
          rw [hdefault] at hsame
          simp [additions, hdefault, hsame]
        have haccepted : (addDefault desired.defaultConstraint expression).Accepted desired s :=
          hfree
        refine ⟨some ⟨desired.defaultConstraint.getD fresh, expression⟩, rfl, ?_⟩
        rw [hadded, run?_of_accepted haccepted]
        rfl

/-! ## All steps -/

/-- A column whose identity stays is altered by statements that each find their constraint
as they need it, and stands as desired behind the last. -/
theorem alterColumn_rebinds (o : Options) (t : Table) (fresh : String)
    (hname : desired.name = current.name) (hidentity : desired.identity = current.identity)
    (hd : desired.Unspaced) (hc : current.Unspaced) (hnamed : Named current) :
    ∃ statements changes result,
      alterColumn o t desired current = .ok statements
      ∧ Says o t current.name statements changes
      ∧ changes.foldlM (run? desired fresh) (standing current) = some result
      ∧ Settled o desired result := by
  obtain ⟨drops, hdrops, hreleased⟩ := releases_run t fresh hnamed
  obtain ⟨collation, hcollation, hrestated⟩ :=
    restatements_run o fresh hd hc (expression_kept hnamed)
  obtain ⟨bound, hbound, hadded⟩ := additions_run fresh
    (s := ⟨desired.dataType, collation, desired.nullable, kept desired current⟩) hnamed rfl
  refine ⟨_, drops ++ restatements o desired current ++ additions desired current,
    ⟨desired.dataType, collation, desired.nullable, bound⟩, ?written,
    says_of_unspaced (unspaced_steps hd hdrops), ?run, ?settled⟩
  case written => exact (alterColumn_eq_ok_iff hidentity).mpr ⟨drops, hdrops, by rw [hname]⟩
  case run =>
      rw [List.foldlM_append, List.foldlM_append, hreleased]
      show ((restatements o desired current).foldlM (run? desired fresh) _).bind _ = _
      rw [hrestated]
      exact hadded
  case settled => exact ⟨sameFolded_self _, hcollation, rfl, hbound⟩

/-- Type, nullability, collation and default change at once, and the default that comes has
no name of its own. -/
theorem alterColumn_rebinds_note :
    let orders : Table := { schema := "dbo", name := "orders" }
    let current : Column :=
      { name := "note", dataType := "varchar(20)", nullable := true, default := some "('')"
        collation := some "Latin1_General_CI_AS", defaultConstraint := some "df_note" }
    let desired : Column :=
      { name := "note", dataType := "nvarchar(40)", default := some "(N'-')"
        collation := some "Finnish_Swedish_CI_AS" }
    desired.Unspaced ∧ current.Unspaced ∧ Named current
    ∧ alterColumn {} orders desired current
      = .ok ["ALTER TABLE [orders] DROP CONSTRAINT [df_note]",
          "ALTER TABLE [orders] ALTER COLUMN [note] nvarchar(40) COLLATE Finnish_Swedish_CI_AS NOT NULL",
          "ALTER TABLE [orders] ADD DEFAULT (N'-') FOR [note]"]
    ∧ ∃ statements changes result,
      alterColumn {} orders desired current = .ok statements
      ∧ Says {} orders "note" statements changes
      ∧ changes.foldlM (run? desired "DF__orders__note") (standing current) = some result
      ∧ Settled {} desired result := by
  refine ⟨by decide, by decide, by decide, by decide, ?_⟩
  exact alterColumn_rebinds {} _ "DF__orders__note" rfl rfl (by decide) (by decide) (by decide)

end Reconcile.SqlServer
