import Tether.Access
import Tether.Arithmetic
import Tether.Build
import Tether.Builder.Custom
import Tether.Builder.Standard
import Tether.Builtin.Sequence
import Tether.Builtin.Text
import Tether.Code
import Tether.Compiled
import Tether.Convert
import Tether.Decimal.Shortest
import Tether.Digest
import Tether.Directory
import Tether.Double
import Tether.Engine
import Tether.Error
import Tether.Expr.Basic
import Tether.Expr.Text
import Tether.Expr.Traversal
import Tether.Metadata
import Tether.Numbering
import Tether.Operator
import Tether.Path
import Tether.Placeholder
import Tether.Resolve
import Tether.Shape
import Tether.Strategy
import Tether.Table
import Tether.Text.Blank
import Tether.Text.Case
import Tether.Text.CaseTable
import Tether.Text.Cased
import Tether.Text.Hex
import Tether.Text.Invisible
import Tether.Text.Quoted
import Tether.Text.Ranges
import Tether.TypeTag
import Tether.Value
import Tether.World
import Tether.Proofs.Meaning
import Tether.Proofs.Agreement
import Tether.Proofs.StandardBuild
import Tether.Proofs.StaticTypes
import Tether.Proofs.CodeMeaning
import Tether.Proofs.SlotTable
import Tether.Proofs.CompiledMeaning
import Tether.Proofs.PathText
import Tether.Proofs.PathReading
import Tether.Proofs.Resolution
import Tether.Proofs.ResolutionWalk
import Tether.Proofs.ChainMeaning
import Tether.Proofs.ResolvedMeaning
import Tether.Proofs.KeySlots
import Tether.Proofs.Preparation
import Tether.Proofs.PreparedSafety
import Tether.Proofs.CachedCalls
import Tether.Proofs.ResultTypes
import Tether.Proofs.SharedPlaceholders
import Tether.Proofs.StaticFolding
import Tether.Proofs.LooserTypes
import Tether.Proofs.Sessions
import Tether.Proofs.UnchangedBodies
import Tether.Proofs.SinglePass
import Tether.Proofs.ExplicitRoots
import Tether.Proofs.HostReads
import Tether.Proofs.RefusedRoots
import Tether.Proofs.Places
import Tether.Proofs.ExactTraversal
import Tether.Proofs.SettledTrees
import Tether.Proofs.GrowingNumberings
import Tether.Proofs.MergedPaths
import Tether.Proofs.BuildChains
import Tether.Proofs.SlotIndices
import Tether.Proofs.ListFunctions
import Tether.Proofs.TextSlices
import Tether.Proofs.IntegerOperators
import Tether.Proofs.ShapeHashes
