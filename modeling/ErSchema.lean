import ErSchema.CommandLine.FileTree
import ErSchema.Main
import ErSchema.Proofs.Columns
import ErSchema.Proofs.Revision
import ErSchema.Proofs.KeyImport
import ErSchema.Proofs.KeyFlow
import ErSchema.Proofs.Convergence
import ErSchema.Proofs.Entities
import ErSchema.Proofs.Folding
import ErSchema.Proofs.Propagation
import ErSchema.Proofs.KeyPath
import ErSchema.Proofs.Attachment
import ErSchema.Proofs.References
import ErSchema.Proofs.Dependents
import ErSchema.Proofs.FinalTables
import ErSchema.Proofs.Levels
import ErSchema.Proofs.Inert
import ErSchema.Proofs.Components
import ErSchema.Proofs.Embedded
import ErSchema.Proofs.Resaved
import ErSchema.Proofs.Subclasses
import ErSchema.Proofs.Sql.Declared
import ErSchema.Proofs.Owners
import ErSchema.Proofs.Worded
import ErSchema.Proofs.Outline
import ErSchema.Proofs.Lone
import ErSchema.Proofs.Truncation
import ErSchema.Proofs.Redrawing.Graph
import ErSchema.Proofs.Redrawing.Tables
import ErSchema.Proofs.Redrawing.Renamed
import ErSchema.Proofs.Redrawing.Turned
import ErSchema.Proofs.Redrawing.Details
import ErSchema.Proofs.Widths
import ErSchema.Proofs.Reordered
import ErSchema.Proofs.Html.Markup
import ErSchema.Proofs.Attributes.Distance
import ErSchema.Proofs.Attributes.OwnColumns
import ErSchema.Proofs.TableNames
import ErSchema.Proofs.NamesInTurn
import ErSchema.Proofs.Junctions
import ErSchema.Proofs.BinaryFolds
import ErSchema.Proofs.Attributes.Leaves
import ErSchema.Proofs.Attributes.Unfolding
import ErSchema.Proofs.Connections
import ErSchema.Proofs.Attributes.Cycles
import ErSchema.Proofs.OwnerLinks
import ErSchema.Proofs.Text.Measure
import ErSchema.Proofs.Boxed
import ErSchema.Proofs.Sql.Constraints
import ErSchema.Proofs.Labels
import ErSchema.Proofs.Hierarchies
import ErSchema.Proofs.Passes
import ErSchema.Proofs.FreshNames
import ErSchema.Proofs.Attributes.LevelMap
import ErSchema.Proofs.InsertionOrder
