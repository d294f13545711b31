import MetadataCatalog.Catalog.Collection
import MetadataCatalog.Catalog.Dataset

/-!
# Keepers

Documents are ingested and found by the same steps whatever keeps them. A keeper of records takes in
texts and answers searches; a keeper of datasets takes in the files of datasets and lists them
again. What a keeper does is work in some state, and it can fail.
-/

namespace MetadataCatalog

/-- Who takes in records, and finds those that match a query, the best first. -/
structure RecordKeeper (σ : Type) where
  insert : CatalogRecord → Work σ Nat
  search : String → Work σ (List CatalogRecord)

/-- Who registers datasets with their files, and lists the files of those that are registered. -/
structure DatasetKeeper (σ : Type) where
  insertDataset : Dataset → List String → Work σ Nat
  findFiles : Dataset → Work σ (Option (List String))

end MetadataCatalog
