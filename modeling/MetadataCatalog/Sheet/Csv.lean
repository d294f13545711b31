/-!
# Comma-separated sheets

A sheet is a row of records, which end at line breaks, of fields with commas between them. A field
that begins with a quote runs to the next quote; a quote written twice stands for one, and what
follows the closing quote up to the next comma or line break still belongs to the field. A quote
further on in a field is plain. Empty lines are no records, and the end of the text closes whatever
is open.

The reader is a machine that is fed symbol by symbol. It knows of the symbols only the four that an
`Alphabet` names, so it reads characters and octets alike.
-/

namespace MetadataCatalog.Csv

/-! ## §1 The machine -/

/-- The symbols that mean something. -/
structure Alphabet (α : Type) where
  comma : α
  quote : α
  feed : α
  carriage : α

/-- The symbols of texts. -/
def Alphabet.chars : Alphabet Char := ⟨',', '"', '\n', '\r'⟩

/-- The symbols of octets. -/
def Alphabet.octets : Alphabet UInt8 := ⟨44, 34, 10, 13⟩

/-- Where the machine stands: before a record, before a field, in a plain field, between quotes, or
behind a quote that may have closed the field. -/
inductive Mode where
  | beforeRecord
  | beforeField
  | plain
  | quoted
  | behindQuote
  deriving DecidableEq, Repr

/-- The machine: the field, the record and the records so far, each in reverse. -/
structure State (α : Type) where
  mode : Mode
  field : List α
  fields : List (List α)
  records : List (List (List α))

variable {α : Type}

/-- Before the first symbol. -/
def State.start : State α := ⟨.beforeRecord, [], [], []⟩

/-- One more symbol in the field. -/
def State.keep (s : State α) (mode : Mode) (a : α) : State α :=
  { s with mode, field := a :: s.field }

/-- The end of the field. -/
def State.endField (s : State α) : State α :=
  { s with mode := .beforeField, field := [], fields := s.field.reverse :: s.fields }

/-- The end of the record. -/
def State.endRecord (s : State α) : State α :=
  ⟨.beforeRecord, [], [], (s.field.reverse :: s.fields).reverse :: s.records⟩

variable [DecidableEq α]

/-- A symbol outside quotes. -/
def outside (k : Alphabet α) (s : State α) (a : α) : State α :=
  if a = k.comma then s.endField
  else if a = k.feed ∨ a = k.carriage then s.endRecord
  else s.keep .plain a

/-- A symbol at the beginning of a field. -/
def opening (k : Alphabet α) (s : State α) (a : α) : State α :=
  if a = k.quote then { s with mode := .quoted } else outside k s a

/-- One transition. -/
def step (k : Alphabet α) (s : State α) (a : α) : State α :=
  match s.mode with
  | .beforeRecord => if a = k.feed ∨ a = k.carriage then s else opening k s a
  | .beforeField => opening k s a
  | .plain => outside k s a
  | .quoted => if a = k.quote then { s with mode := .behindQuote } else s.keep .quoted a
  | .behindQuote => if a = k.quote then s.keep .quoted a else outside k s a

/-! ## §2 Whole sheets -/

/-- The records when the sheet ends here. -/
def finish (s : State α) : List (List (List α)) :=
  match s.mode with
  | .beforeRecord => s.records.reverse
  | _ => s.endRecord.records.reverse

/-- The records of a sheet. -/
def records (k : Alphabet α) (symbols : List α) : List (List (List α)) :=
  finish (symbols.foldl (step k) .start)

/-- A sequence of symbols without the given mark in front. -/
def withoutMark (mark symbols : List α) : List α :=
  (mark.isPrefixOf? symbols).getD symbols

/-- The records of a text; a byte order mark in front does not count. -/
def ofText (s : String) : List (List String) :=
  (records .chars (withoutMark [Char.ofNat 0xFEFF] s.toList)).map (·.map String.ofList)

/-- The text that octets encode. -/
def decode? (octets : List UInt8) : Option String :=
  String.fromUTF8? ⟨octets.toArray⟩

/-- The records of octets, if every field is text; a byte order mark in front does not count. -/
def ofOctets? (octets : List UInt8) : Option (List (List String)) :=
  (records .octets (withoutMark [0xEF, 0xBB, 0xBF] octets)).mapM (·.mapM decode?)

end MetadataCatalog.Csv
