import ModCatalog.Aggregate
import ModCatalog.Archive.Crc32
import ModCatalog.Archive.Inflate
import ModCatalog.Archive.Zip
import ModCatalog.Artifact.Basic
import ModCatalog.Artifact.Description
import ModCatalog.Artifact.Jar
import ModCatalog.ClassFile.Annot
import ModCatalog.ClassFile.Constant
import ModCatalog.ClassFile.Cursor
import ModCatalog.ClassFile.Defect
import ModCatalog.ClassFile.Descriptor
import ModCatalog.ClassFile.Draft
import ModCatalog.ClassFile.Element
import ModCatalog.ClassFile.Index
import ModCatalog.ClassFile.Instruction
import ModCatalog.ClassFile.ModifiedUtf8
import ModCatalog.ClassFile.Pool
import ModCatalog.ClassFile.Record
import ModCatalog.Collection.Sorted
import ModCatalog.Collection.Table
import ModCatalog.CommandLine.Argument
import ModCatalog.CommandLine.Program
import ModCatalog.CommandLine.Reading
import ModCatalog.CommandLine.Settings
import ModCatalog.Decimal.Binary
import ModCatalog.Decimal.Layout
import ModCatalog.Decimal.Shortest
import ModCatalog.Digest.Hex
import ModCatalog.Digest.Sha256
import ModCatalog.Document.Json.Number
import ModCatalog.Document.Json.Printer
import ModCatalog.Document.Json.Reading
import ModCatalog.Document.Json.Value
import ModCatalog.Document.Json.Written
import ModCatalog.Document.Manifest
import ModCatalog.Document.Toml.Document
import ModCatalog.Document.Toml.Phrase
import ModCatalog.Document.Toml.Value
import ModCatalog.Download
import ModCatalog.Encoding.Artifact
import ModCatalog.Encoding.Catalog
import ModCatalog.Encoding.ClassFile
import ModCatalog.Encoding.CommandLine
import ModCatalog.Encoding.Platform
import ModCatalog.Encoding.Report
import ModCatalog.Encoding.Store
import ModCatalog.EnumExtension
import ModCatalog.Expansion
import ModCatalog.Fault
import ModCatalog.Files.Ignore
import ModCatalog.Files.Path
import ModCatalog.Files.Pattern
import ModCatalog.Files.Tree
import ModCatalog.Files.Wildcard
import ModCatalog.Identity
import ModCatalog.Indexing.Batch
import ModCatalog.Indexing.Run
import ModCatalog.Limiter
import ModCatalog.Main
import ModCatalog.Platform.Basic
import ModCatalog.Platform.Local
import ModCatalog.Progress
import ModCatalog.Proofs.Aggregation
import ModCatalog.Proofs.Artifact.Damage
import ModCatalog.Proofs.Artifact.Labels
import ModCatalog.Proofs.Artifact.Nesting
import ModCatalog.Proofs.ClassFile.AnnotTexts
import ModCatalog.Proofs.ClassFile.ClassLiterals
import ModCatalog.Proofs.ClassFile.Declarations
import ModCatalog.Proofs.ClassFile.Descriptors
import ModCatalog.Proofs.ClassFile.ModifiedUtf8
import ModCatalog.Proofs.ClassFile.Reordering
import ModCatalog.Proofs.ClassFile.Signatures
import ModCatalog.Proofs.ClassFile.Unread
import ModCatalog.Proofs.ClassFile.Walk
import ModCatalog.Proofs.Document.Folding
import ModCatalog.Proofs.Expansion.Flattening
import ModCatalog.Proofs.Expansion.Listings
import ModCatalog.Proofs.Files.Contents
import ModCatalog.Proofs.Files.Paths
import ModCatalog.Proofs.Indexing.Accounts
import ModCatalog.Proofs.Indexing.Cleanup
import ModCatalog.Proofs.Indexing.Commits
import ModCatalog.Proofs.Indexing.Conclusion
import ModCatalog.Proofs.Indexing.Failures
import ModCatalog.Proofs.Indexing.Idempotence
import ModCatalog.Proofs.Indexing.Learning
import ModCatalog.Proofs.Indexing.Outcomes
import ModCatalog.Proofs.Indexing.Paging
import ModCatalog.Proofs.Indexing.Passes
import ModCatalog.Proofs.Indexing.PassingOver
import ModCatalog.Proofs.Indexing.Placing
import ModCatalog.Proofs.Indexing.Process
import ModCatalog.Proofs.Indexing.Restoration
import ModCatalog.Proofs.Indexing.Skipping
import ModCatalog.Proofs.Indexing.Stages
import ModCatalog.Proofs.Indexing.Survey
import ModCatalog.Proofs.Indexing.Waves
import ModCatalog.Proofs.Limiter.Fairness
import ModCatalog.Proofs.Platform.Caching
import ModCatalog.Proofs.Platform.Downloads
import ModCatalog.Proofs.Platform.Leftovers
import ModCatalog.Proofs.Resolution.Bijection
import ModCatalog.Proofs.Resolution.Entries
import ModCatalog.Proofs.Resolution.Forgetting
import ModCatalog.Proofs.Resolution.Noting
import ModCatalog.Proofs.Resolution.Repetition
import ModCatalog.Proofs.Sanitizer
import ModCatalog.Proofs.Store.Absorption
import ModCatalog.Proofs.Store.Coordinates
import ModCatalog.Proofs.Store.Integrity
import ModCatalog.Proofs.Store.Ledger
import ModCatalog.Proofs.Store.Tidiness
import ModCatalog.Proofs.Store.Tracking
import ModCatalog.Proofs.Text.Utf16
import ModCatalog.Proofs.Version.Numbered
import ModCatalog.Proofs.Version.Order
import ModCatalog.Resolution
import ModCatalog.Sanitizer
import ModCatalog.Schema
import ModCatalog.Store.Basic
import ModCatalog.Store.Change
import ModCatalog.Store.Record
import ModCatalog.Tag
import ModCatalog.Text.Base64
import ModCatalog.Text.Blank
import ModCatalog.Text.Numeral
import ModCatalog.Text.Printable
import ModCatalog.Text.Quoted
import ModCatalog.Text.Split
import ModCatalog.Text.Utf16
import ModCatalog.Text.Utf8
import ModCatalog.Version
