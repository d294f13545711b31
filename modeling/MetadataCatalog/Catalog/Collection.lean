import MetadataCatalog.Catalog.Expression
import MetadataCatalog.Catalog.Tokens

/-!
# Collections

A collection keeps records in the order in which they came; the record at position `i` has the
number `i + 1`. A search answers the records that match an expression, the best first. How well a
record matches is measured by how often the required phrases occur in it, weighed by how rare they
are in the collection and by how long the record is.
-/

namespace MetadataCatalog

/-- A record: the text that is searched, the name of a dataset and its number. -/
structure CatalogRecord where
  text : String
  dataset : String
  datasetId : Int
  deriving DecidableEq, Repr

/-- The tokens of the text of a record. -/
def CatalogRecord.tokens (r : CatalogRecord) : List String :=
  Tokens.ofText r.text

/-- The records of a collection in order. -/
abbrev Collection := List CatalogRecord

/-! ## §1 Matching -/

namespace Expression

/-- Whether a phrase occurs among tokens. -/
def occursIn (tokens : List String) (phrase : String) : Bool :=
  Tokens.holds (Tokens.ofText phrase) tokens

/-- Whether a text with the given tokens matches. -/
def holds (e : Expression) (tokens : List String) : Bool :=
  (match e.junction with
    | .any => e.required.any (occursIn tokens)
    | .all => e.required.all (occursIn tokens)) &&
  !e.excluded.any (occursIn tokens)

/-- The deepest nesting of operators that a search accepts. -/
def depthLimit : Nat := 256

end Expression

/-! ## §2 Ranking -/

namespace Ranking

/-- The weight of a phrase that `holding` of `size` records hold: the rarer, the heavier, and never
below a small positive number. -/
def rarity (size holding : Nat) : Float :=
  let weight := Float.log ((size.toFloat - holding.toFloat + 0.5) / (holding.toFloat + 0.5))
  if weight ≤ 0 then 1e-6 else weight

/-- What `count` occurrences of a phrase in a text of `length` tokens say about it, when the texts
have `mean` tokens on average: more occurrences say more, but less than in proportion. -/
def saturation (count length : Nat) (mean : Float) : Float :=
  count.toFloat * 2.2 / (count.toFloat + 1.2 * (0.25 + 0.75 * length.toFloat / mean))

/-- The mean number of tokens. -/
def meanLength (texts : List (List String)) : Float :=
  ((texts.map List.length).foldr (· + ·) 0).toFloat / texts.length.toFloat

/-- The phrases with their rarities among the texts. -/
def weighed (phrases texts : List (List String)) : List (List String × Float) :=
  phrases.map fun phrase => (phrase, rarity texts.length (texts.countP (Tokens.holds phrase)))

/-- The score of a text: the lower, the better. -/
def score (weighed : List (List String × Float)) (mean : Float) (tokens : List String) : Float :=
  Float.neg (weighed.foldl
    (fun sum (phrase, rarity) =>
      sum + rarity * saturation (Tokens.occurrences phrase tokens) tokens.length mean)
    0)

/-- The items by ascending score; items of one score keep their order. -/
def sorted {α : Type} (score : α → Float) (items : List α) : List α :=
  ((items.map fun a => (score a, a)).mergeSort fun a b => decide (a.1 ≤ b.1)).map Prod.snd

end Ranking

namespace Collection

/-- The collection with a further record, and the number of that record. -/
def insert (c : Collection) (r : CatalogRecord) : Collection × Nat :=
  (c ++ [r], c.length + 1)

/-- The records that match an expression, the best first. -/
def select (c : Collection) (e : Expression) : List CatalogRecord :=
  let texts := c.map CatalogRecord.tokens
  let weighed := Ranking.weighed (e.required.map Tokens.ofText) texts
  let mean := Ranking.meanLength texts
  Ranking.sorted (fun n => Ranking.score weighed mean n.tokens)
    (c.filter fun n => e.holds n.tokens)

/-- The expression that is evaluated for a query: what the written form of its expression reads as,
if it reads at all and is not nested too deep. -/
def expressionOf (query : String) : Except Fault Expression := do
  let written ← Expression.ofQuery query
  match Expression.read? written.text with
  | none => .error .database
  | some e => if e.depth ≤ Expression.depthLimit then .ok e else .error .database

/-- The records that match a query, the best first. -/
def search (c : Collection) (query : String) : Except Fault (List CatalogRecord) :=
  (expressionOf query).map c.select

end Collection

end MetadataCatalog
