import ObsExport.Batch.Assembly
import ObsExport.Logging
import ObsExport.Pipeline
import ObsExport.Proofs.Batch.Held
import ObsExport.Proofs.Batch.Placement
import ObsExport.Proofs.Batch.Grouping
import ObsExport.Proofs.Export.Categories
import ObsExport.Proofs.Export.Partitions
import ObsExport.Proofs.Number.NotNaN
import ObsExport.Proofs.Store.RoundTrip
import ObsExport.Proofs.Export.Retained
import ObsExport.Proofs.Selection
import ObsExport.Proofs.Config.FillValues
import ObsExport.Proofs.Encoding.Contents
import ObsExport.Proofs.Store.Regular
import ObsExport.Proofs.Store.Writing
import ObsExport.Proofs.Store.Offers
import ObsExport.Proofs.Encoding.Written
import ObsExport.Proofs.Encoding.Footprint
import ObsExport.Proofs.Export.Artifacts
import ObsExport.Proofs.Encoding.Conservation
import ObsExport.Proofs.Export.Failures
import ObsExport.Proofs.Encoding.Failures
import ObsExport.Proofs.Number.Packing
import ObsExport.Proofs.Number.Difference
import ObsExport.Proofs.Batch.Filtering
import ObsExport.Proofs.Transform.Chain
import ObsExport.Proofs.Config.Spelling
import ObsExport.Proofs.Config.Rereading
import ObsExport.Proofs.Export.Restriction
import ObsExport.Proofs.Export.Stages
import ObsExport.Proofs.Store.Order
import ObsExport.Proofs.Export.Saturation
import ObsExport.Proofs.Calendar.Days
import ObsExport.Proofs.Calendar.Instants
import ObsExport.Proofs.Timestamp.Records
import ObsExport.Proofs.Timestamp.Stamps
import ObsExport.Proofs.Number.Integers
import ObsExport.Proofs.Timestamp.Resolved
import ObsExport.Proofs.Timestamp.Spelled
import ObsExport.Proofs.Config.Readers
import ObsExport.Proofs.Config.CategoryNames
import ObsExport.Proofs.Timestamp.Grammar
import ObsExport.Proofs.Config.Nulls
import ObsExport.Proofs.Config.Blocks
import ObsExport.Proofs.Config.OutputGrammar
import ObsExport.Proofs.Config.Sources
import ObsExport.Proofs.Variable.FirstUsable
import ObsExport.Proofs.Timestamp.Epochs
import ObsExport.Proofs.Timestamp.Documented
import ObsExport.Proofs.Store.Fitting
import ObsExport.Proofs.Repeats.Order
import ObsExport.Proofs.Sheet
import ObsExport.Proofs.Batch.Conversion
import ObsExport.Proofs.Config.Usable
