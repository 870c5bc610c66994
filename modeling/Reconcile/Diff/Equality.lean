import Reconcile.Schema.Model
import Reconcile.Text.Definition
/-!
# Equality of objects

What makes two objects of one name the same.  Positions of columns, the version of
a stored table format and the names of default constraints never count; types,
engines and collations are compared as the catalogs spell them, the first two in
either letter case.
-/

namespace Reconcile

/-- Equal up to collation and character set if `o` ignores those. -/
def columnsEqual (o : Options) (a b : Column) : Bool :=
  Text.sameFolded a.dataType b.dataType
    && a.nullable == b.nullable
    && a.default == b.default
    && a.identity == b.identity
    && a.comment == b.comment
    && (o.ignoreCollate || (a.collation == b.collation && a.characterSet == b.characterSet))

/-- What an index says of its columns, in their order. -/
def Index.shape (i : Index) : List (String × Bool × Option UInt32) :=
  i.orderedColumns.map fun c => (c.name, c.descending, c.prefixLength)

def indexesEqual (a b : Index) : Bool :=
  a.kind == b.kind && a.extension == b.extension && a.shape == b.shape

/-- Pairs of texts by the first and then by the second. -/
def pairAtMost (a b : String × String) : Bool :=
  decide (a.1 < b.1) || (a.1 == b.1 && !decide (b.2 < a.2))

/-- The column pairs in their order, or sorted where the order is ignored. -/
def ForeignKey.pairs (o : Options) (fk : ForeignKey) : List (String × String) :=
  let pairs := fk.orderedColumns.map fun c => (c.column, c.referencedColumn)
  if o.ignoreReferenceTableColumnOrder then pairs.mergeSort pairAtMost else pairs

def foreignKeysEqual (o : Options) (a b : ForeignKey) : Bool :=
  a.referencedKey == b.referencedKey
    && a.onUpdate == b.onUpdate
    && a.onDelete == b.onDelete
    && a.pairs o == b.pairs o

def extensionsEqual (o : Options) : TableExtension → TableExtension → Bool
  | .mySql engine _ characterSet collation, .mySql engine' _ characterSet' collation' =>
      Text.sameFolded engine engine'
        && (o.ignoreCollate || (characterSet == characterSet' && collation == collation'))
  | a, b => a == b

def sequencesEqual (a b : Sequence) : Bool :=
  Text.sameFolded a.dataType b.dataType
    && a.startValue == b.startValue
    && a.increment == b.increment
    && a.minValue == b.minValue
    && a.maxValue == b.maxValue
    && a.cycle == b.cycle

def viewsEqual (a b : View) : Bool :=
  Text.sameDefinition a.definition b.definition

def routinesEqual (a b : Routine) : Bool :=
  a.arguments == b.arguments
    && a.returnType == b.returnType
    && Text.sameDefinition a.definition b.definition

end Reconcile
