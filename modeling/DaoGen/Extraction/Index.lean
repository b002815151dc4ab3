import DaoGen.Entity
import DaoGen.Extraction.Fault

/-!
# Indices of entities

Indices in declared order. Columns are listed by the name of a field or of its column.
-/
namespace DaoGen.Index

/-- The name of an index that was declared without one. -/
def defaultName (table : String) (columns : List String) : String :=
  "index_" ++ table ++ "_" ++ "_".intercalate columns

/-- Checks the columns of an index that come after those in `seen`. -/
def checkColumns (fields : List Field) (seen : List String) :
    List String → Except Fault Unit
  | [] => .ok ()
  | column :: rest =>
    if !fields.any (·.isCalled column) then .error (.unknownIndexColumn column)
    else if seen.contains column then .error (.repeatedIndexColumn column)
    else checkColumns fields (column :: seen) rest

/-- The index that a specification asks for. -/
def ofSpec (table : String) (fields : List Field) (spec : IndexSpec) : Except Fault Index := do
  if spec.columns.isEmpty then .error .indexWithoutColumns
  else
    checkColumns fields [] spec.columns
    let name := if spec.name = "" then defaultName table spec.columns else spec.name
    return { name, columns := spec.columns, unique := spec.unique }

/-- The indices for a list of specifications, after indices of the names in `taken`. -/
def ofSpecsAfter (table : String) (fields : List Field) (taken : List String) :
    List IndexSpec → Except Fault (List Index)
  | [] => .ok []
  | spec :: rest => do
    let index ← ofSpec table fields spec
    if taken.contains index.name then .error (.repeatedIndexName index.name)
    else return index :: (← ofSpecsAfter table fields (index.name :: taken) rest)

/-- The indices for a list of specifications. -/
def ofSpecs (table : String) (fields : List Field) (specs : List IndexSpec) :
    Except Fault (List Index) :=
  ofSpecsAfter table fields [] specs

end DaoGen.Index
