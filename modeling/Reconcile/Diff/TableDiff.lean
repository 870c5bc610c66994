import Reconcile.Diff.Equality
import Reconcile.Diff.State
/-!
# Differences inside a table

Columns, indexes and foreign keys are paired by name.  The list of their
differences holds the source's members in the source's order and then those that
only the target has, in the target's order.  Of several members of one name on the
other side the last one is taken.
-/

namespace Reconcile

structure MemberDiff (α : Type) where
  name : String
  state : DiffState
  source : Option α
  target : Option α
deriving DecidableEq, Repr, Inhabited

namespace MemberDiff

variable {α : Type}

/-- The last member of that name. -/
def lastNamed (nameOf : α → String) (name : String) (members : List α) : Option α :=
  members.reverse.find? (nameOf · == name)

def ofSource (nameOf : α → String) (equal : α → α → Bool) (target : List α) (m : α) :
    MemberDiff α :=
  let other := lastNamed nameOf (nameOf m) target
  { name := nameOf m
    state := DiffState.classify equal (some m) other
    source := some m
    target := other }

def ofTarget (nameOf : α → String) (m : α) : MemberDiff α :=
  { name := nameOf m, state := .deleted, source := none, target := some m }

/-- The differences of two lists of named members. -/
def between (nameOf : α → String) (equal : α → α → Bool) (source target : List α) :
    List (MemberDiff α) :=
  source.map (ofSource nameOf equal target)
    ++ (target.filter fun m => !source.any (nameOf · == nameOf m)).map (ofTarget nameOf)

end MemberDiff

structure TableDiff where
  columns : List (MemberDiff Column) := []
  indexes : List (MemberDiff Index) := []
  foreignKeys : List (MemberDiff ForeignKey) := []
  /-- What the table says beside its members, such as its engine, differs. -/
  optionsChanged : Bool := false
deriving DecidableEq, Repr, Inhabited

namespace TableDiff

def between (o : Options) (source target : Table) : TableDiff :=
  { columns := MemberDiff.between Column.name (columnsEqual o) source.columns target.columns
    indexes := MemberDiff.between Index.name indexesEqual source.indexes target.indexes
    foreignKeys :=
      MemberDiff.between ForeignKey.name (foreignKeysEqual o) source.foreignKeys
        target.foreignKeys
    optionsChanged := !extensionsEqual o source.extension target.extension }

def isUnchanged (d : TableDiff) : Bool :=
  !d.optionsChanged
    && d.columns.all (·.state == .unchanged)
    && d.indexes.all (·.state == .unchanged)
    && d.foreignKeys.all (·.state == .unchanged)

end TableDiff

end Reconcile
