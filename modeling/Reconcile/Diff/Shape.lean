import Reconcile.Diff.Comparison
import Reconcile.Schema.Shape
/-!
# Shapes of a comparison

How differences and comparisons are written as data, which is also what a summary
of a comparison holds.
-/

namespace Reconcile

def MemberDiff.encode {α : Type} (encode : α → Datum) (m : MemberDiff α) : Datum :=
  .record
    [("name", .text m.name),
     ("state", m.state.encode),
     ("source", .ofOption encode m.source),
     ("target", .ofOption encode m.target)]

def TableDiff.encode (d : TableDiff) : Datum :=
  .record
    [("columns", .ofList (MemberDiff.encode Column.encode) d.columns),
     ("indexes", .ofList (MemberDiff.encode Index.encode) d.indexes),
     ("foreign_keys", .ofList (MemberDiff.encode ForeignKey.encode) d.foreignKeys),
     ("options_changed", .bool d.optionsChanged)]

def Category.encodeDetail : (c : Category) → c.Detail → Datum
  | .table, d => d.encode
  | .sequence, _ => .null
  | .view, _ => .null
  | .function, _ => .null
  | .procedure, _ => .null

def Item.encode {c : Category} (i : Item c) : Datum :=
  .record
    [("key", i.key.encode),
     ("category", c.encode),
     ("state", i.state.encode),
     ("source", .ofOption c.encodeObject i.source),
     ("target", .ofOption c.encodeObject i.target),
     ("detail", c.encodeDetail i.detail),
     ("source_create_script", .text i.sourceCreate),
     ("target_create_script", .text i.targetCreate),
     ("alter_script", .text i.alter),
     ("scripting_error", .ofText? i.fault)]

def Comparison.encode (r : Comparison) : Datum :=
  .record
    [("dialect", r.dialect.encode),
     ("options", r.options.encode),
     ("sequences", .ofList Item.encode r.sequences),
     ("tables", .ofList Item.encode r.tables),
     ("views", .ofList Item.encode r.views),
     ("functions", .ofList Item.encode r.functions),
     ("procedures", .ofList Item.encode r.procedures),
     ("full_script_source_to_target", .ofText? r.forward),
     ("full_script_target_to_source", .ofText? r.backward)]

end Reconcile
