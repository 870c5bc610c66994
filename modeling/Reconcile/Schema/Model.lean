import Reconcile.Dialect
import Reconcile.Schema.Table
/-!
# Models

A model is what one reading of a database found: for each of five categories its
objects, filed under their keys.  The categories stand in dependency order, each
depending only on those before it, and `Category.Object` is the type of a
category's objects, so that what holds of every category is stated once.
-/

namespace Reconcile

structure View where
  schema : String
  name : String
  /-- The query alone, or for SQL Server the whole creation statement. -/
  definition : String
deriving DecidableEq, Repr, Inhabited

def View.key (v : View) : Key :=
  ⟨v.schema, v.name⟩

inductive RoutineKind where
  | function
  | procedure
deriving DecidableEq, Repr, Inhabited

namespace RoutineKind

def keyword : RoutineKind → String
  | .function => "FUNCTION"
  | .procedure => "PROCEDURE"

def noun : RoutineKind → String
  | .function => "function"
  | .procedure => "procedure"

end RoutineKind

structure Routine where
  schema : String
  name : String
  kind : RoutineKind
  /-- The whole creation statement. -/
  definition : String
  /-- Argument list that tells overloads apart, where the engine has them. -/
  arguments : Option String := none
  returnType : Option String := none
deriving DecidableEq, Repr, Inhabited

namespace Routine

/-- The name, with the argument list of an engine that has overloads. -/
def signature (r : Routine) : String :=
  match r.arguments with
  | some args => s!"{r.name}({args})"
  | none => r.name

def key (r : Routine) : Key :=
  ⟨r.schema, r.signature⟩

end Routine

structure Sequence where
  schema : String
  name : String
  dataType : String
  startValue : Int64 := 1
  increment : Int64 := 1
  minValue : Int64 := 1
  maxValue : Int64 := 9223372036854775807
  cycle : Bool := false
deriving DecidableEq, Repr, Inhabited

def Sequence.key (s : Sequence) : Key :=
  ⟨s.schema, s.name⟩

/-! ## Categories -/

inductive Category where
  | sequence
  | table
  | view
  | function
  | procedure
deriving DecidableEq, Repr, Inhabited

namespace Category

/-- The categories in dependency order. -/
def all : List Category :=
  [.sequence, .table, .view, .function, .procedure]

def label : Category → String
  | .sequence => "sequences"
  | .table => "tables"
  | .view => "views"
  | .function => "functions"
  | .procedure => "procedures"

/-- The type of a category's objects. -/
abbrev Object : Category → Type
  | .sequence => Sequence
  | .table => Table
  | .view => View
  | .function => Routine
  | .procedure => Routine

def keyOf : (c : Category) → c.Object → Key
  | .sequence, s => s.key
  | .table, t => t.key
  | .view, v => v.key
  | .function, r => r.key
  | .procedure, r => r.key

end Category

def RoutineKind.category : RoutineKind → Category
  | .function => .function
  | .procedure => .procedure

/-! ## Models -/

structure Model where
  dialect : Dialect
  database : String
  sequences : Keyed Sequence := []
  tables : Keyed Table := []
  views : Keyed View := []
  functions : Keyed Routine := []
  procedures : Keyed Routine := []
deriving DecidableEq, Repr, Inhabited

namespace Model

/-- The objects of one category. -/
def objects (m : Model) : (c : Category) → Keyed c.Object
  | .sequence => m.sequences
  | .table => m.tables
  | .view => m.views
  | .function => m.functions
  | .procedure => m.procedures

def addSequence (m : Model) (s : Sequence) : Model :=
  { m with sequences := m.sequences.insert s.key s }

def addTable (m : Model) (t : Table) : Model :=
  { m with tables := m.tables.insert t.key t }

def addView (m : Model) (v : View) : Model :=
  { m with views := m.views.insert v.key v }

/-- Files a routine in the category of its own kind. -/
def addRoutine (m : Model) (r : Routine) : Model :=
  match r.kind with
  | .function => { m with functions := m.functions.insert r.key r }
  | .procedure => { m with procedures := m.procedures.insert r.key r }

/-- Files what was found in category `c`. -/
def add (m : Model) : (c : Category) → c.Object → Model
  | .sequence, s => m.addSequence s
  | .table, t => m.addTable t
  | .view, v => m.addView v
  | .function, r => m.addRoutine r
  | .procedure, r => m.addRoutine r

def table? (m : Model) (schema name : String) : Option Table :=
  m.tables.find? ⟨schema, name⟩

/-- Number of objects in all categories. -/
def objectCount (m : Model) : Nat :=
  (Category.all.map fun c => (m.objects c).length).foldr (· + ·) 0

end Model

end Reconcile
