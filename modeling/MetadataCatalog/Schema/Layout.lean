import MetadataCatalog.Schema.CleanSheet

/-!
# Layouts

A layout says which column of a clean sheet becomes which attribute of a descriptor. Attributes come
from the leading columns only, except for the key column and the values column; a name that is taken
already, by the key or by a column further left, is passed over. The values column begins the region
of permitted values.
-/

namespace MetadataCatalog

/-- Which columns become which attributes. -/
structure Layout where
  keyField : String
  attributes : List (Nat × String)
  valuesColumn : Nat
  valuesField : String
  deriving DecidableEq, Repr

namespace Layout

/-- The number of leading columns that can hold attributes. -/
def descriptorColumns : Nat := 8

/-- The attribute name of a header: its canonical name, or the header itself. -/
def attributeName (d : Dictionary) (header : String) : String :=
  (d.canonicalFor? header).getD header

/-- The columns that are neither the key nor the values column, with their attribute names, up to
the last leading column. -/
def candidates (s : CleanSheet) (d : Dictionary) (valuesColumn : Nat) : List (Nat × String) :=
  (s.headers.take descriptorColumns).zipIdx.filterMap fun (header, j) =>
    if j = s.keyColumn ∨ j = valuesColumn then none else some (j, attributeName d header)

/-- The candidates whose name is not taken yet. -/
def distinct (taken : List String) : List (Nat × String) → List (Nat × String)
  | [] => []
  | (j, name) :: rest =>
    if name ∈ taken then distinct taken rest else (j, name) :: distinct (name :: taken) rest

/-- The layout of a clean sheet. -/
def resolve (s : CleanSheet) (d : Dictionary) : Except Fault Layout := do
  let values ← d.entry Dictionary.valuesRow
  match s.headers.findIdx? (· = values.column) with
  | none => .error (.refused (.valuesColumnNotFound values.column s.headers))
  | some valuesColumn =>
    let keyField := s.headers.getD s.keyColumn ""
    .ok { keyField
          attributes := distinct [keyField] (candidates s d valuesColumn)
          valuesColumn
          valuesField := values.canonical }

end Layout

end MetadataCatalog
