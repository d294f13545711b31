import MetadataCatalog.Main
import MetadataCatalog.Proofs.Schema.Obstacles
import MetadataCatalog.Proofs.Schema.Regions
import MetadataCatalog.Proofs.Catalog.Numbering
import MetadataCatalog.Proofs.Catalog.Transactions
import MetadataCatalog.Proofs.Catalog.Register
import MetadataCatalog.Proofs.Catalog.Connections
import MetadataCatalog.Proofs.Catalog.RegisterRuns
import MetadataCatalog.Proofs.Catalog.DatasetNames
import MetadataCatalog.Proofs.Catalog.Quoting
import MetadataCatalog.Proofs.Catalog.ReadBack
import MetadataCatalog.Proofs.Catalog.Searching
import MetadataCatalog.Proofs.Catalog.StoreRuns
import MetadataCatalog.Proofs.Catalog.Shelves
import MetadataCatalog.Proofs.Catalog.Mirroring
import MetadataCatalog.Proofs.Catalog.ServedShelves
import MetadataCatalog.Proofs.Outcomes
import MetadataCatalog.Proofs.Catalog.Parameters
import MetadataCatalog.Proofs.Storage.Entries
import MetadataCatalog.Proofs.Sheet.Folders
import MetadataCatalog.Proofs.Sheet.Lines
import MetadataCatalog.Proofs.Sheet.Writing
import MetadataCatalog.Proofs.Sheet.RowNumbers
import MetadataCatalog.Proofs.Schema.Widening
import MetadataCatalog.Proofs.Sheet.Rectangles
import MetadataCatalog.Proofs.Sheet.Readings
import MetadataCatalog.Proofs.Sheet.RawRows
import MetadataCatalog.Proofs.Sheet.WrittenHeaders
import MetadataCatalog.Proofs.Schema.Mappings
import MetadataCatalog.Proofs.Schema.KeyTemplates
import MetadataCatalog.Proofs.Json.ReadingBack
import MetadataCatalog.Proofs.Storage.Saving
import MetadataCatalog.Proofs.Schema.Documents
import MetadataCatalog.Proofs.Sheet.NeatTables
import MetadataCatalog.Proofs.Schema.NeatDocuments
import MetadataCatalog.Proofs.Catalog.Rollbacks
import MetadataCatalog.Proofs.Command.SchemaRuns
import MetadataCatalog.Proofs.Storage.Erasing
import MetadataCatalog.Proofs.Catalog.Settling
import MetadataCatalog.Proofs.Catalog.Changes
import MetadataCatalog.Proofs.Catalog.Openings
import MetadataCatalog.Proofs.Catalog.SingleWords
import MetadataCatalog.Proofs.Catalog.Registrations
import MetadataCatalog.Proofs.Catalog.Ingesting
import MetadataCatalog.Proofs.Catalog.Finding
import MetadataCatalog.Proofs.Catalog.NewFiles
import MetadataCatalog.Proofs.Catalog.LeadingBack
import MetadataCatalog.Proofs.Catalog.FoundAgain
import MetadataCatalog.Proofs.Catalog.Intakes
import MetadataCatalog.Proofs.Catalog.Cabinets
import MetadataCatalog.Proofs.Catalog.Placements
import MetadataCatalog.Proofs.Catalog.CatalogRuns
import MetadataCatalog.Proofs.Catalog.OneFile
import MetadataCatalog.Proofs.Schema.CleanRows
import MetadataCatalog.Proofs.Schema.Layouts
import MetadataCatalog.Proofs.Schema.Attaching
import MetadataCatalog.Proofs.Json.Pruning
import MetadataCatalog.Proofs.Catalog.Negations
import MetadataCatalog.Proofs.Catalog.NameServices
import MetadataCatalog.Proofs.Markup.Reading
import MetadataCatalog.Proofs.Markup.Tags
import MetadataCatalog.Proofs.Catalog.Listings
import MetadataCatalog.Proofs.Markup.EmptyElements
import MetadataCatalog.Proofs.Markup.Formatting
