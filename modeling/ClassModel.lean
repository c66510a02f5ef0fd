import ClassModel.Analysis
import ClassModel.Analysis.Endpoints
import ClassModel.Analysis.Layout
import ClassModel.Analysis.Matching
import ClassModel.Analysis.Merged
import ClassModel.Analysis.Ordinals
import ClassModel.Analysis.Partition
import ClassModel.Analysis.References
import ClassModel.Analysis.StateTables
import ClassModel.Analysis.TypeSets
import ClassModel.Analysis.TypeSlots
import ClassModel.Analysis.Types
import ClassModel.AnalysisError
import ClassModel.Declaration.Attribute
import ClassModel.Declaration.Relationship
import ClassModel.Declaration.StateModel
import ClassModel.Declaration.Subsystem
import ClassModel.Diagnostic
import ClassModel.Document.Declarations
import ClassModel.Document.Format
import ClassModel.Document.Json.Printer
import ClassModel.Document.Json.Reader
import ClassModel.Document.Resolved
import ClassModel.Document.Scalar
import ClassModel.Document.Tree
import ClassModel.Document.Value
import ClassModel.Document.Yaml.Printer
import ClassModel.Document.Yaml.Reader
import ClassModel.Document.Yaml.ScalarReader
import ClassModel.Document.Yaml.Spot
import ClassModel.Document.Yaml.Style
import ClassModel.Identifier
import ClassModel.NameSet
import ClassModel.Project.FileTree
import ClassModel.Project.Loader
import ClassModel.Project.Manifest
import ClassModel.Project.Path
import ClassModel.Proofs.Candidates
import ClassModel.Proofs.Commuting
import ClassModel.Proofs.Consistency
import ClassModel.Proofs.DeclaredTypes
import ClassModel.Proofs.DisjointSets
import ClassModel.Proofs.Lasting
import ClassModel.Proofs.Layouts
import ClassModel.Proofs.Matches
import ClassModel.Proofs.Merging
import ClassModel.Proofs.NameSets
import ClassModel.Proofs.Navigating
import ClassModel.Proofs.OrderIndependence
import ClassModel.Proofs.Ordinals
import ClassModel.Proofs.Pairings
import ClassModel.Proofs.Partitions
import ClassModel.Proofs.Postings
import ClassModel.Proofs.Recording
import ClassModel.Proofs.Records
import ClassModel.Proofs.Renames
import ClassModel.Proofs.Renumbering
import ClassModel.Proofs.Reordering
import ClassModel.Proofs.Sequencing
import ClassModel.Proofs.Slots
import ClassModel.Proofs.Tables
import ClassModel.Proofs.TypeAssignments
import ClassModel.Proofs.TypeClosure
import ClassModel.Proofs.TypeTables
import ClassModel.Proofs.Typings
import ClassModel.Proofs.WholeIdentifiers
import ClassModel.Resolved.Class
import ClassModel.Resolved.Model
import ClassModel.Resolved.Reference
import ClassModel.Resolved.Relationship
import ClassModel.Resolved.StateModel
import ClassModel.Resolved.TypeTable
import ClassModel.Rnum
import ClassModel.Table
import ClassModel.Text.LetterCase
import ClassModel.Text.Lowercase
import ClassModel.Text.Numeral
import ClassModel.UnionFind
import ClassModel.Proofs.StateTables
import ClassModel.Proofs.Courses
import ClassModel.Proofs.Registration
import ClassModel.Proofs.ClassTables
import ClassModel.Proofs.Faults
import ClassModel.Proofs.Policies
import ClassModel.Proofs.Participation
import ClassModel.Proofs.Numerals
import ClassModel.Proofs.DocumentTrees
import ClassModel.Proofs.RecordFields
import ClassModel.Proofs.DeclarationDocuments
import ClassModel.Proofs.SortedTables
import ClassModel.Proofs.ModelDocuments
import ClassModel.Proofs.Settled
import ClassModel.Proofs.JsonText
import ClassModel.Proofs.YamlLines
import ClassModel.Proofs.YamlPlain
import ClassModel.Proofs.YamlQuotes
import ClassModel.Proofs.YamlLiterals
import ClassModel.Proofs.YamlStyles
import ClassModel.Proofs.YamlNodes
import ClassModel.Proofs.YamlBlocks
import ClassModel.Proofs.YamlText
import ClassModel.Proofs.RoundTrips
import ClassModel.Proofs.Lookups
import ClassModel.Proofs.SoughtNames
import ClassModel.Proofs.NamedGroups
import ClassModel.Proofs.ExactMatches
import ClassModel.Proofs.Unreached
import ClassModel.Proofs.UnseenChanges
import ClassModel.Proofs.AddedRenames
import ClassModel.Proofs.TypeAgreement
import ClassModel.Proofs.ExplicitMatches
import ClassModel.Proofs.RenamedLayouts
import ClassModel.Proofs.ExplicitClasses
import ClassModel.Proofs.SortedRecords
import ClassModel.Proofs.ExplicitReferences
import ClassModel.Proofs.Standings
import ClassModel.Proofs.LeastChoices
import ClassModel.Proofs.RenameReasons
import ClassModel.Proofs.TypeSearches
import ClassModel.Proofs.ErrorParts
import ClassModel.Proofs.UntypedAttributes
import ClassModel.Proofs.PinnedHints
import ClassModel.Proofs.FarEnds
import ClassModel.Proofs.NavigableEnds
import ClassModel.Proofs.Rankings
import ClassModel.Proofs.DisjointSetCalls
import ClassModel.Proofs.Singletons
import ClassModel.Proofs.TypesInUse
import ClassModel.Proofs.EmptyLists
import ClassModel.Proofs.NaturalOrder
import ClassModel.Proofs.TreeDepths
import ClassModel.Proofs.FileExtensions
import ClassModel.Proofs.Loading
