import MetadataCatalog.Text.Pieces
import MetadataCatalog.Decimal.Digits

/-!
# Faults

Everything that can go wrong is a `Fault`, named for its cause and carrying what the report about it
shows. A fault has a `Kind`; the wording of a report is `Fault.message`. Faults of a kind that comes
from reading foreign formats or from the operating system carry no more than a fixed wording.

What is done in a state and can go wrong is `Work`: when it fails, what it has done before remains.
-/

namespace MetadataCatalog

/-! ## §1 Causes -/

/-- The three parts of the name of a dataset. -/
inductive DatasetPart where
  | experiment
  | processing
  | tier
  deriving DecidableEq, Repr

/-- The reasons for refusing what a user has given. -/
inductive Refusal where
  | workbookNotFound (path : String)
  | keyColumnNotFound (column : String) (headers : List String)
  | valuesColumnNotFound (column : String) (headers : List String)
  | datasetPart (part : DatasetPart) (text : String)
  | datasetShape (text : String)
  | collectionForm (name : String)
  | collectionClash (name : String)
  | emptyQuery
  | noSearchTerms (query : String)
  | unknownTable (name : String)
  | notAFolder (path : String)
  | keyRequired (name : String) (given : String)
  | keyMissing (name : String)
  | storeAddress (address : String)
  deriving DecidableEq, Repr

/-- What can be wrong with one row of a schema sheet. -/
inductive RowDefect where
  | duplicateKey (key : String)
  | noKey
  | unknownKey (key : String)
  deriving DecidableEq, Repr

/-- Everything that can go wrong. -/
inductive Fault where
  | refused (why : Refusal)
  | missingSheet (name : String) (available : List String)
  | missingMapping (index : Nat) (available : Nat)
  | malformedRow (row : Nat) (why : RowDefect)
  | inaccessible (path : String)
  | storeUnavailable
  | workbook
  | document
  | json
  | yaml
  | database
  deriving DecidableEq, Repr

/-- The kinds of faults, one for each way of reporting. -/
inductive Fault.Kind where
  | invalidInput
  | missingSheet
  | missingMapping
  | malformedRow
  | inaccessible
  | storeUnavailable
  | workbook
  | document
  | json
  | yaml
  | database
  deriving DecidableEq, Repr

/-- The kind of a fault. -/
def Fault.kind : Fault → Fault.Kind
  | .refused _ => .invalidInput
  | .missingSheet .. => .missingSheet
  | .missingMapping .. => .missingMapping
  | .malformedRow .. => .malformedRow
  | .inaccessible _ => .inaccessible
  | .storeUnavailable => .storeUnavailable
  | .workbook => .workbook
  | .document => .document
  | .json => .json
  | .yaml => .yaml
  | .database => .database

/-! ## §2 Wording -/

/-- The word for a part of a dataset name. -/
def DatasetPart.label : DatasetPart → String
  | .experiment => "experiment"
  | .processing => "processing"
  | .tier => "tier"

/-- The headers of a sheet as a report lists them. -/
private def columnList (headers : List String) : String :=
  " not found in schema sheet (columns: " ++ Text.join ", " headers ++ ")"

/-- The wording of a refusal. -/
def Refusal.message : Refusal → String
  | .workbookNotFound path => "workbook not found: " ++ path
  | .keyColumnNotFound column headers => "key column '" ++ column ++ "'" ++ columnList headers
  | .valuesColumnNotFound column headers =>
    "values column '" ++ column ++ "'" ++ columnList headers
  | .datasetPart part text =>
    "invalid " ++ part.label ++ " '" ++ text ++ "': must be non-empty and contain no '/'"
  | .datasetShape text =>
    "unable to parse dataset '" ++ text ++ "', expected /experiment/processing/tier"
  | .collectionForm name => "collection name '" ++ name ++ "' must be alphanumeric or '_'"
  | .collectionClash name =>
    "collection name '" ++ name ++ "' clashes with a metadata column, pick another"
  | .emptyQuery => "empty query"
  | .noSearchTerms query => "query '" ++ query ++ "' has no search terms"
  | .unknownTable name => "unknown catalog table '" ++ name ++ "'"
  | .notAFolder path => "dataset directory not found: " ++ path
  | .keyRequired name given => "key " ++ name ++ " not in " ++ given
  | .keyMissing name => "missing parameter '" ++ name ++ "'"
  | .storeAddress address =>
    "unsupported dburi '" ++ address ++ "', expected mongodb://... or sqlite://PATH"

/-- The wording of a row defect. -/
def RowDefect.message : RowDefect → String
  | .duplicateKey key => "duplicate key '" ++ key ++ "'"
  | .noKey => "record has no key"
  | .unknownKey key => "no schema row for key '" ++ key ++ "'"

/-- The wording of a fault. -/
def Fault.message : Fault → String
  | .refused why => "invalid input: " ++ why.message
  | .missingSheet name available =>
    "sheet '" ++ name ++ "' not found in workbook (available: " ++ Text.join ", " available ++ ")"
  | .missingMapping index available =>
    "dictionary mapping missing at row " ++ Decimal.natText index ++ " (mapping sheet has " ++
      Decimal.natText available ++ " row(s))"
  | .malformedRow row why =>
    "malformed schema row " ++ Decimal.natText row ++ ": " ++ why.message
  | .inaccessible path => "i/o error on '" ++ path ++ "'"
  | .storeUnavailable => "store unavailable"
  | .workbook => "failed to read workbook"
  | .document => "failed to read document"
  | .json => "malformed JSON"
  | .yaml => "malformed YAML"
  | .database => "database error"

/-- What succeeds in steps succeeds in each of them. -/
theorem exists_of_bind_eq_ok {α β : Type} {x : Except Fault α} {f : α → Except Fault β} {b : β}
    (h : x.bind f = .ok b) : ∃ a, x = .ok a ∧ f a = .ok b := by
  cases x with
  | ok a => exact ⟨a, rfl, h⟩
  | error fault => cases h

/-! ## §3 Work that can fail -/

/-- What is done in a state and can fail. -/
abbrev Work (σ : Type) := ExceptT Fault (StateM σ)

/-- The work that changes nothing and has the given outcome. -/
def Work.ofExcept {σ α : Type} (outcome : Except Fault α) : Work σ α :=
  ExceptT.mk (pure outcome)

namespace Work

variable {σ α β : Type}

theorem run_ofExcept (outcome : Except Fault α) (s : σ) :
    (ofExcept outcome : Work σ α).run s = (outcome, s) := rfl

theorem run_get (s : σ) : (get : Work σ σ).run s = (.ok s, s) := rfl

theorem run_set (s s' : σ) : (set s' : Work σ PUnit).run s = (.ok ⟨⟩, s') := rfl

/-- Work that succeeds is followed by what comes next, in the state that it leaves. -/
theorem run_bind_ok {m : Work σ α} {s s' : σ} {a : α} (h : m.run s = (.ok a, s'))
    (f : α → Work σ β) : (m >>= f).run s = (f a).run s' := by
  show ExceptT.bindCont f (m.run s).1 (m.run s).2 = (f a).run s'
  rw [h]
  rfl

/-- Nothing follows work that fails. -/
theorem run_bind_error {m : Work σ α} {s s' : σ} {fault : Fault}
    (h : m.run s = (.error fault, s')) (f : α → Work σ β) :
    (m >>= f).run s = (.error fault, s') := by
  show ExceptT.bindCont f (m.run s).1 (m.run s).2 = (.error fault, s')
  rw [h]
  rfl

/-- Work that succeeds in steps succeeds in each of them. -/
theorem exists_of_run_bind {m : Work σ α} {f : α → Work σ β} {s s' : σ} {b : β}
    (h : (m >>= f).run s = (.ok b, s')) :
    ∃ a s₁, m.run s = (.ok a, s₁) ∧ (f a).run s₁ = (.ok b, s') := by
  rcases hm : m.run s with ⟨outcome, s₁⟩
  cases outcome with
  | ok a =>
    rw [run_bind_ok hm] at h
    exact ⟨a, s₁, rfl, h⟩
  | error fault =>
    rw [run_bind_error hm] at h
    cases h

theorem run_map_ok {m : Work σ α} {s s' : σ} {a : α} (h : m.run s = (.ok a, s')) (f : α → β) :
    (f <$> m).run s = (.ok (f a), s') := by
  rw [map_eq_pure_bind]
  exact run_bind_ok h _

theorem exists_of_run_map {m : Work σ α} {f : α → β} {s s' : σ} {b : β}
    (h : (f <$> m).run s = (.ok b, s')) : ∃ a, m.run s = (.ok a, s') ∧ b = f a := by
  rw [map_eq_pure_bind] at h
  obtain ⟨a, s₁, hm, hpure⟩ := exists_of_run_bind h
  cases hpure
  exact ⟨a, hm, rfl⟩

/-- Work that only asks leaves the state as it is for what comes next. -/
theorem exists_of_run_bind_same {m : Work σ α} {outcome : Except Fault α} {f : α → Work σ β}
    {s s' : σ} {b : β} (hm : m.run s = (outcome, s)) (h : (m >>= f).run s = (.ok b, s')) :
    ∃ a, outcome = .ok a ∧ (f a).run s = (.ok b, s') := by
  obtain ⟨a, s₁, hfirst, hrest⟩ := exists_of_run_bind h
  obtain ⟨houtcome, rfl⟩ := Prod.mk.inj (hm.symm.trans hfirst)
  exact ⟨a, houtcome, hrest⟩

end Work

end MetadataCatalog
