import MetadataCatalog.Fault
import MetadataCatalog.Text.Blank

/-!
# Datasets

A dataset is named by its experiment, its processing and its tier, written
`/experiment/processing/tier`. No part is blank or contains a slash, and blanks around a part do not
belong to it.
-/

namespace MetadataCatalog

/-- The name of a dataset. -/
structure Dataset where
  experiment : String
  processing : String
  tier : String
  deriving DecidableEq, Repr

namespace Dataset

/-- Whether a text can be a part of a dataset name. -/
def isPart (s : String) : Bool :=
  !Text.isBlankText s && !s.toList.contains '/'

/-- The part that a text gives, or the refusal of the text. -/
def part (which : DatasetPart) (s : String) : Except Fault String :=
  if isPart s then .ok (Text.trim s) else .error (.refused (.datasetPart which s))

/-- The dataset with the given parts. -/
def ofParts (experiment processing tier : String) : Except Fault Dataset := do
  let experiment ← part .experiment experiment
  let processing ← part .processing processing
  let tier ← part .tier tier
  .ok { experiment, processing, tier }

/-- The dataset that a text names. -/
def ofText (s : String) : Except Fault Dataset :=
  match Text.cut '/' (Text.trim s) with
  | ["", experiment, processing, tier] => ofParts experiment processing tier
  | _ => .error (.refused (.datasetShape s))

/-- The written name of a dataset. -/
def text (d : Dataset) : String :=
  "/" ++ d.experiment ++ "/" ++ d.processing ++ "/" ++ d.tier

end Dataset

end MetadataCatalog
