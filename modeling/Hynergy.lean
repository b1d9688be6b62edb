import Hynergy.Lib.SwapRemove
import Hynergy.Lib.Edges
import Hynergy.Lib.Returns
import Hynergy.Lib.Word
import Hynergy.Lib.Strided
import Hynergy.Lib.ChunkTable
import Hynergy.Lib.Directory
import Hynergy.Lib.Labelling
import Hynergy.Lib.Walk
import Hynergy.Lib.ClassCount
import Hynergy.Model.Ids
import Hynergy.Model.Float
import Hynergy.Model.Parameter
import Hynergy.Model.Definition
import Hynergy.Model.Registry
import Hynergy.Model.Outcome
import Hynergy.Model.Builder
import Hynergy.Model.Building
import Hynergy.Model.CallInversion
import Hynergy.Model.ParameterSubset
import Hynergy.Model.Instances
import Hynergy.Model.ForwardedParameters
import Hynergy.Model.ParameterRelations
import Hynergy.Model.BuilderReturns
import Hynergy.Network.Connection
import Hynergy.Network.DeviceChunk
import Hynergy.Network.DeviceArena
import Hynergy.Network.ArenaInvariant
import Hynergy.Network.ArenaRemove
import Hynergy.Network.ArenaEdit
import Hynergy.Network.ArenaRun
import Hynergy.Network.Network
import Hynergy.Network.Links
import Hynergy.Network.Operations
import Hynergy.Network.DeviceOperations
import Hynergy.Network.NetworkRun
import Hynergy.Network.Sidecar
import Hynergy.Network.Reads
import Hynergy.State.StateChunk
import Hynergy.State.PhysicalState
import Hynergy.Topology.Store
import Hynergy.Topology.StoreRuns
import Hynergy.Topology.DeviceTopology
import Hynergy.Topology.DerivedTopology
import Hynergy.Topology.Traversal
import Hynergy.Topology.Operations
import Hynergy.Topology.Marks
import Hynergy.Topology.MarkReuse
import Hynergy.Topology.Incidence
import Hynergy.Topology.Maps
import Hynergy.Topology.Invariant
import Hynergy.Topology.NetRepair
import Hynergy.Topology.IslandMerge
import Hynergy.Topology.IslandRepair
import Hynergy.Topology.Invalidation
import Hynergy.Topology.Attachments
import Hynergy.Topology.Maintained
import Hynergy.Topology.NetMerge
import Hynergy.Topology.WireRemoval
import Hynergy.Topology.TerminalEdits
import Hynergy.Topology.DeviceMarks
import Hynergy.Topology.DeviceAddition
import Hynergy.Topology.DeviceRemoval
import Hynergy.World.Subscription
import Hynergy.World.Commands
import Hynergy.World.Follow
import Hynergy.World.DeviceCommands
import Hynergy.World.CommandRun
import Hynergy.Lib.StraightLine
import Hynergy.Lib.Buckets
import Hynergy.Ir.Value
import Hynergy.Ir.Denotation
import Hynergy.Ir.Stages
import Hynergy.Ir.Incremental
import Hynergy.Lib.LittleEndian
import Hynergy.Protocol.Decoder
import Hynergy.Protocol.World
import Hynergy.Protocol.WorldFormat
import Hynergy.Protocol.WorldBuffer
import Hynergy.Lib.Segment
import Hynergy.Client.WorldCommandBuffer
import Hynergy.Client.CommandAgreement
import Hynergy.Client.CommandSession
import Hynergy.World.Tick
import Hynergy.World.WorldRun
import Hynergy.Protocol.WorldApply
import Hynergy.Client.WorldIdAllocator
import Hynergy.Lib.IdPool
import Hynergy.Client.IdTracking
import Hynergy.Client.IdOperations
import Hynergy.Client.IdViews
import Hynergy.Client.HandleSafety
import Hynergy.World.Observers
import Hynergy.World.Residents
import Hynergy.Client.ElectricalWorld
import Hynergy.Client.WorldSession
import Hynergy.Client.WorldBatches
import Hynergy.Client.WorldIds
import Hynergy.Client.TickAttempts
import Hynergy.Lib.Forest
import Hynergy.Model.UnionFind
import Hynergy.Model.Flattening
import Hynergy.Model.PartitionLayout
import Hynergy.Protocol.Definition
import Hynergy.Model.BuilderGrowth
import Hynergy.Protocol.DefinitionGrowth
import Hynergy.World.DefinitionStore
import Hynergy.Client.WireHandles
import Hynergy.Core.WireSystem
import Hynergy.Core.BlockPorts
import Hynergy.Core.WireBlockRuns
import Hynergy.Client.LiveSubscriptions
import Hynergy.Client.ElectricalSystem
import Hynergy.Client.SubscriptionRegistry
import Hynergy.Client.Publication
import Hynergy.Compile.IslandIr
import Hynergy.Compile.Discrete
import Hynergy.Compile.SolutionInputs
import Hynergy.Compile.DriverDependencies
import Hynergy.Runtime.Discrete
import Hynergy.Runtime.DiscreteClosure
import Hynergy.Compile.FrontierDependencies
import Hynergy.Compile.MatrixTerms
import Hynergy.Runtime.System
import Hynergy.Runtime.SeededClosure
import Hynergy.Runtime.SeededFrontier
import Hynergy.Runtime.IslandRuntimeStore
import Hynergy.Compile.CanonicalTerms
import Hynergy.Compile.Pattern
import Hynergy.Core.PortDiscovery
import Hynergy.World.DeviceValues
import Hynergy.World.Traversals
import Hynergy.Protocol.Parsing
import Hynergy.Protocol.DefinitionDecoding
import Hynergy.Compile.PrimitiveLaws
import Hynergy.Compile.Composition
import Hynergy.Compile.BuilderSteps
import Hynergy.Compile.Instantiation
import Hynergy.Compile.Assembly
import Hynergy.Compile.Definitions
import Hynergy.Compile.DefinitionLaw
import Hynergy.Compile.CompositionLaw
import Hynergy.Compile.CompositionSteps
import Hynergy.Compile.CompositionRun
import Hynergy.Compile.CompositionSlots
import Hynergy.Compile.CompositionChildren
import Hynergy.Compile.CompositionRounds
import Hynergy.Compile.CompositionEnds
import Hynergy.Compile.CompositePartitions
import Hynergy.Compile.StateWriters
import Hynergy.Compile.PrimitivePartitions
import Hynergy.Compile.CompiledComposites
import Hynergy.Compile.RegisteredComposites
import Hynergy.Compile.CompiledRuns
import Hynergy.Compile.FlattenedComposites
