import SlotArray.Session
import SlotArray.Container.Cursor
import SlotArray.Expansion
import SlotArray.Main
import SlotArray.Proofs.Rows
import SlotArray.Proofs.Layout
import SlotArray.Proofs.TreeRendering
import SlotArray.Proofs.Accepted
import SlotArray.Proofs.DefinitionOutline
import SlotArray.Proofs.ReadBack
import SlotArray.Proofs.DistinctTypes
import SlotArray.Proofs.Scopes
import SlotArray.Pool.Schedule
import SlotArray.Proofs.Schedules
import SlotArray.Proofs.Failures
import SlotArray.Proofs.TaggedStructs
import SlotArray.Proofs.Tokens.Rereading
import SlotArray.Proofs.Feeds
import SlotArray.Proofs.Rearrangements
import SlotArray.Proofs.PrimitiveNames
import SlotArray.Proofs.Walks
import SlotArray.Proofs.SlotOperations
import SlotArray.Proofs.FrontEnds
import SlotArray.Proofs.Tokens.Shapes
import SlotArray.Proofs.Sessions
import SlotArray.Proofs.OutputModes
import SlotArray.Proofs.Regeneration
import SlotArray.Proofs.Verdicts
import SlotArray.Proofs.ModulePaths
import SlotArray.Proofs.SnakeCases
import SlotArray.Proofs.Written.Quoted
import SlotArray.Proofs.Written.Literals
import SlotArray.Proofs.Written.Settled
import SlotArray.Proofs.Written.Quoting
import SlotArray.Proofs.Written.Sources
import SlotArray.Proofs.Written.Careful
import SlotArray.Proofs.Written.Types
import SlotArray.Proofs.Written.Expressions
import SlotArray.Proofs.Written.Declarations
import SlotArray.Proofs.Written.Joints
import SlotArray.Proofs.Written.Items
import SlotArray.Proofs.Derives
import SlotArray.Proofs.Written.Containers
import SlotArray.Proofs.TaggedOutcomes
import SlotArray.Proofs.TaggedContainers
import SlotArray.Proofs.AddedDerives
import SlotArray.Proofs.SlotTexts
import SlotArray.Proofs.Written.Numerals
import SlotArray.Proofs.InlineSizes
import SlotArray.Proofs.Indentation
import SlotArray.Proofs.ManifestEntries
import SlotArray.Proofs.Destinations
import SlotArray.Proofs.Deliveries
