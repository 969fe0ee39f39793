import GraphProfile.Files.Tree
import GraphProfile.Main
import GraphProfile.Run.Workers
import GraphProfile.Proofs.Maps
import GraphProfile.Proofs.Ranked
import GraphProfile.Proofs.Sections
import GraphProfile.Proofs.Shelves
import GraphProfile.Proofs.MergeOrder
import GraphProfile.Proofs.Partitions
import GraphProfile.Proofs.SourceOrder
import GraphProfile.Proofs.Workers
import GraphProfile.Proofs.Runs
import GraphProfile.Proofs.Stacks
import GraphProfile.Proofs.Pools
import GraphProfile.Proofs.Measured
import GraphProfile.Proofs.AttributeNames
import GraphProfile.Proofs.Views
import GraphProfile.Proofs.DataColumns
import GraphProfile.Proofs.FileTables
import GraphProfile.Proofs.Cuts
import GraphProfile.Proofs.Rounding
import GraphProfile.Proofs.Packing
import GraphProfile.Proofs.FloatOrder
import GraphProfile.Proofs.RoundedPlaces
import GraphProfile.Proofs.Rearranged
import GraphProfile.Proofs.RowOrder
import GraphProfile.Proofs.Nearest
import GraphProfile.Proofs.FloatArithmetic
import GraphProfile.Proofs.FloatMonotone
import GraphProfile.Proofs.Interpolation
import GraphProfile.Proofs.Spellings
import GraphProfile.Proofs.Layouts
import GraphProfile.Proofs.Scanning
import GraphProfile.Proofs.Grammar
import GraphProfile.Proofs.Reading
import GraphProfile.Proofs.Parsing
import GraphProfile.Proofs.Characters
import GraphProfile.Proofs.Storable
import GraphProfile.Proofs.Slots
import GraphProfile.Proofs.Readers
import GraphProfile.Proofs.Decoding
import GraphProfile.Proofs.Documents
import GraphProfile.Proofs.Binning
import GraphProfile.Proofs.RangeMaps
import GraphProfile.Proofs.EdgeEstimates
import GraphProfile.Proofs.TextShares
import GraphProfile.Proofs.AttributeKeys
import GraphProfile.Proofs.Literals
import GraphProfile.Proofs.EndEstimates
import GraphProfile.Proofs.RecordShape
import GraphProfile.Proofs.Answers
import GraphProfile.Proofs.RowGroups
import GraphProfile.Proofs.StackedRows
import GraphProfile.Proofs.HeaderShapes
import GraphProfile.Proofs.Classification
import GraphProfile.Proofs.BuiltTables
import GraphProfile.Proofs.LoadedTables
import GraphProfile.Proofs.Entries
import GraphProfile.Proofs.Refills
import GraphProfile.Proofs.IntegerLiterals
import GraphProfile.Proofs.DocumentEdits
