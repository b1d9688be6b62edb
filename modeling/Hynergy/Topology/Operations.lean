import Hynergy.Topology.Traversal

/-!
# Maintaining the derived topology

The edits that follow each edit of the network. `none` is a panic.
-/

namespace Hynergy

open Lib

variable {F : Type}

/-- `max_by_key` over the indices: the last index of a largest key. -/
def maxIndexByKey {α : Type} (key : α → Nat) : List α → Option Nat
  | [] => none
  | x :: xs =>
    match maxIndexByKey key xs with
    | none => some 0
    | some i => if xs[i]?.any fun y => key x ≤ key y then some (i + 1) else some 0

/-- `ensure_slot`. -/
def ensureSlot {α : Type} (map : List (Option α)) (index : Nat) : List (Option α) :=
  if map.length ≤ index then map ++ List.replicate (index + 1 - map.length) none else map

namespace DerivedTopology

def addWire (self : DerivedTopology) (wire : WireId) : Option DerivedTopology := do
  let wireNetMap := ensureSlot self.wireNetMap wire.index
  let (netId, nets) ← self.nets.insert { wires := [wire], terminalComponents := [] }
  let self := { self with wireNetMap, nets, netIslandMap := self.netIslandMap ++ [none] }
  self.setWireNet wire (some netId)

/-! ### Islands -/

/-- The nets of `component`'s wires that still belong to `src` are moved to `dst`. -/
def retagNet (self : DerivedTopology) (component : DeviceComponent) (src dst : IslandId)
    (terminalPartitions : List DevicePartitionId) :
    Option ConnectionRef × Nat → Option DerivedTopology
  | (connection, terminalIndex) => do
    let partition ← terminalPartitions[terminalIndex]?
    if partition ≠ component.partition then some self
    else
      match connection with
      | some (.wire wire) => do
        let netId ← self.wireNet wire
        let island ← self.netIsland netId
        if island = some src then self.setNetIsland netId (some dst) else some self
      | _ => some self

def retagComponent [F64 F] (definitions : DefinitionRegistry F) (network : Network F)
    (src dst : IslandId) (self : DerivedTopology) (component : DeviceComponent) :
    Option DerivedTopology := do
  let self ← self.setComponentIsland network component dst
  let view ← network.deviceOf component.device
  let definition ← definitions.get view.definitionId
  view.terminals.zipIdx.foldlM
    (fun self terminal => self.retagNet component src dst definition.terminalPartitions terminal) self

def mergeIslands [F64 F] (self : DerivedTopology) (definitions : DefinitionRegistry F)
    (network : Network F) (islandA islandB : IslandId) : Option (IslandId × DerivedTopology) := do
  if islandA = islandB then some (islandA, self)
  else
    let a ← self.islands.get islandA
    let b ← self.islands.get islandB
    let (dstId, srcId) :=
      if a.components.length ≥ b.components.length then (islandA, islandB) else (islandB, islandA)
    let (src, islands) ← self.islands.remove srcId
    let self := { self with islands }
    let self ← src.components.foldlM (retagComponent definitions network srcId dstId) self
    let self ← self.modifyIsland dstId fun dst =>
      { dst with components := dst.components ++ src.components }.bumpRevision
    some (dstId, (self.markRetired srcId).markTopologyDirty dstId)

/-- The nets of a piece without components lose their island. -/
def dropPieces (islandId : IslandId) (self : DerivedTopology) (pieces : List IslandComponent) :
    Option (List IslandComponent × DerivedTopology) :=
  go pieces.length 0 self pieces
where
  /-- The `while` loop from `index` on; each turn passes a piece or removes one. -/
  go : Nat → Nat → DerivedTopology → List IslandComponent →
      Option (List IslandComponent × DerivedTopology)
    | 0, index, self, pieces => if index < pieces.length then none else some (pieces, self)
    | fuel + 1, index, self, pieces =>
      match pieces[index]? with
      | none => some (pieces, self)
      | some piece =>
        if piece.components ≠ [] then go fuel (index + 1) self pieces
        else do
          let self ← piece.nets.foldlM (fun self netId => self.setNetIsland netId none) self
          go fuel index self (swapRemove pieces index)

/-- A piece split off gets an island of its own. -/
def splitPiece (network : Network F) (self : DerivedTopology) (piece : IslandComponent) :
    Option DerivedTopology := do
  let (newIslandId, islands) ← self.islands.insert { components := piece.components, revision := 0 }
  let self := { self with islands }
  let self ← piece.nets.foldlM (fun self netId => self.setNetIsland netId (some newIslandId)) self
  let self ← piece.components.foldlM
    (fun self component => self.setComponentIsland network component newIslandId) self
  some (self.markTopologyDirty newIslandId)

def repairIsland [F64 F] (self : DerivedTopology) (definitions : DefinitionRegistry F)
    (network : Network F) (scratch : TraversalScratch) (islandId : IslandId)
    (affectedNets : List NetId) : Option (DerivedTopology × TraversalScratch) :=
  match self.islands.get islandId with
  | none => some (self, scratch)
  | some island => do
    let oldRevision := island.revision
    let (pieces, scratch) ←
      islandComponents self definitions network scratch islandId affectedNets
    let (pieces, self) ← dropPieces islandId self pieces
    if pieces = [] then do
      let (_, islands) ← self.islands.remove islandId
      some ({ self with islands }.markRetired islandId, scratch)
    else do
      let keepIndex ← maxIndexByKey IslandComponent.rewriteCost pieces
      let kept ← pieces[keepIndex]?
      let pieces := swapRemove pieces keepIndex
      -- `checked_add(1)`
      let nextRevision ← if oldRevision + 1 < 2 ^ 64 then some (oldRevision + 1) else none
      let self ← self.modifyIsland islandId fun _ =>
        { components := kept.components, revision := nextRevision }
      let self := self.markTopologyDirty islandId
      let self ← pieces.foldlM (splitPiece network) self
      some (self, scratch)

/-! ### Wires -/

/-- The net that is kept and the one that is merged into it: one with an island before one
without, else the one with more wires, else the first. -/
def mergeDirection (self : DerivedTopology) (netA netB : NetId) : Option (NetId × NetId) := do
  let islandA ← self.netIsland netA
  let islandB ← self.netIsland netB
  match islandA, islandB with
  | some _, none => some (netA, netB)
  | none, some _ => some (netB, netA)
  | _, _ => do
    let a ← self.nets.get netA
    let b ← self.nets.get netB
    some (if a.wires.length ≥ b.wires.length then (netA, netB) else (netB, netA))

/-- The island of the merged net, and whether its revision still has to be bumped. -/
def joinNetIslands [F64 F] (self : DerivedTopology) (definitions : DefinitionRegistry F)
    (network : Network F) (dstNetId srcNetId : NetId) :
    Option (Option IslandId × Bool × DerivedTopology) := do
  let dstIsland ← self.netIsland dstNetId
  let srcIsland ← self.netIsland srcNetId
  match dstIsland, srcIsland with
  | none, none => some (none, false, self)
  | some island, none => some (some island, false, self)
  | none, some island => some (some island, false, self)
  | some a, some b =>
    if a = b then some (some a, true, self)
    else do
      let (merged, self) ← self.mergeIslands definitions network a b
      some (some merged, false, self)

/-- The wires and terminals of `src` go to `dst`. -/
def mergeNets (self : DerivedTopology) (dstNetId srcNetId : NetId) (finalIsland : Option IslandId) :
    Option DerivedTopology := do
  let (srcNet, nets) ← self.nets.remove srcNetId
  let self := { self with nets }
  let self ← self.setNetIsland srcNetId none
  let self ← self.setNetIsland dstNetId finalIsland
  let self ← srcNet.wires.foldlM (fun self wire => self.setWireNet wire (some dstNetId)) self
  self.modifyNet dstNetId fun dstNet =>
    { wires := dstNet.wires ++ srcNet.wires
      terminalComponents := dstNet.terminalComponents ++ srcNet.terminalComponents }

def connectWires [F64 F] (self : DerivedTopology) (definitions : DefinitionRegistry F)
    (network : Network F) (wireA wireB : WireId) : Option DerivedTopology := do
  let netA ← self.wireNet wireA
  let netB ← self.wireNet wireB
  if netA = netB then some self
  else
    let (dstNetId, srcNetId) ← self.mergeDirection netA netB
    let (finalIsland, bumpFinalIsland, self) ←
      self.joinNetIslands definitions network dstNetId srcNetId
    let self ← self.mergeNets dstNetId srcNetId finalIsland
    if bumpFinalIsland then do
      let island ← finalIsland
      let self ← self.modifyIsland island IslandTopology.bumpRevision
      some (self.markTopologyDirty island)
    else some self

/-- A piece split off its net becomes a net of its own, in the old one's island. -/
def splitNet (oldIsland : Option IslandId) (result : List NetId × DerivedTopology)
    (component : WireComponent) : Option (List NetId × DerivedTopology) := do
  let (resultingNets, self) := result
  let (newId, nets) ← self.nets.insert
    { wires := component.wires, terminalComponents := component.terminalComponents }
  let self := { self with nets, netIslandMap := self.netIslandMap ++ [oldIsland] }
  let self ← component.wires.foldlM (fun self wire => self.setWireNet wire (some newId)) self
  some (resultingNets ++ [newId], self)

def repairNet [F64 F] (self : DerivedTopology) (definitions : DefinitionRegistry F)
    (network : Network F) (scratch : TraversalScratch) (netId : NetId) :
    Option (List NetId × DerivedTopology × TraversalScratch) := do
  let oldIsland ← self.netIsland netId
  let (components, scratch) ← wireComponents self definitions network netId scratch
  if components.isEmpty then do
    let (_, nets) ← self.nets.remove netId
    let self ← { self with nets }.setNetIsland netId none
    some ([], self, scratch)
  else do
    let keepIndex ← maxIndexByKey (fun component => component.wires.length) components
    let kept ← components[keepIndex]?
    let components := swapRemove components keepIndex
    let self ← kept.wires.foldlM (fun self wire => self.setWireNet wire (some netId)) self
    let self ← self.modifyNet netId fun _ =>
      { wires := kept.wires, terminalComponents := kept.terminalComponents }
    let (resultingNets, self) ← components.foldlM (splitNet oldIsland) ([netId], self)
    some (resultingNets, self, scratch)

def disconnectWires [F64 F] (self : DerivedTopology) (definitions : DefinitionRegistry F)
    (network : Network F) (scratch : TraversalScratch) (wireA wireB : WireId) :
    Option (DerivedTopology × TraversalScratch) := do
  let netA ← self.wireNet wireA
  let netB ← self.wireNet wireB
  if netA ≠ netB then some (self, scratch)
  else
    let islandId ← self.netIsland netA
    let (affectedNets, self, scratch) ← self.repairNet definitions network scratch netA
    match islandId with
    | some islandId =>
      if affectedNets.length > 1 ∧ (self.islands.get islandId).isSome = true then
        self.repairIsland definitions network scratch islandId affectedNets
      else some (self, scratch)
    | none => some (self, scratch)

def removeWire [F64 F] (self : DerivedTopology) (definitions : DefinitionRegistry F)
    (network : Network F) (scratch : TraversalScratch) (wire : WireId) :
    Option (DerivedTopology × TraversalScratch) := do
  let netId ← self.wireNet wire
  let self ← self.setWireNet wire none
  let islandId ← self.netIsland netId
  let (affectedNets, self, scratch) ← self.repairNet definitions network scratch netId
  match islandId with
  | some islandId =>
    if (self.islands.get islandId).isSome = true then
      self.repairIsland definitions network scratch islandId affectedNets
    else some (self, scratch)
  | none => some (self, scratch)

/-! ### Terminals -/

def attachTerminal [F64 F] (self : DerivedTopology) (definitions : DefinitionRegistry F)
    (network : Network F) (wire : WireId) (device : DeviceId) (terminal : TerminalId) :
    Option DerivedTopology := do
  let netId ← self.wireNet wire
  let component ← terminalComponent definitions network device terminal
  let componentIsland ← self.componentIsland network component
  let self ← self.modifyNet netId fun net =>
    { net with terminalComponents := net.terminalComponents ++ [component] }
  match ← self.netIsland netId with
  | none => do
    let self ← self.setNetIsland netId (some componentIsland)
    let self ← self.modifyIsland componentIsland IslandTopology.bumpRevision
    some (self.markTopologyDirty componentIsland)
  | some island =>
    if island = componentIsland then do
      let self ← self.modifyIsland island IslandTopology.bumpRevision
      some (self.markTopologyDirty island)
    else do
      let (_, self) ← self.mergeIslands definitions network island componentIsland
      some self

/-- `position(..).expect(..)` and `swap_remove` of one incidence. -/
def removeIncidence (self : DerivedTopology) (netId : NetId) (matches' : DeviceComponent → Bool) :
    Option DerivedTopology := do
  let net ← self.nets.get netId
  let position ← net.terminalComponents.findIdx? matches'
  self.modifyNet netId fun net =>
    { net with terminalComponents := swapRemove net.terminalComponents position }

def detachTerminal [F64 F] (self : DerivedTopology) (definitions : DefinitionRegistry F)
    (network : Network F) (scratch : TraversalScratch) (wire : WireId) (device : DeviceId)
    (terminal : TerminalId) : Option (DerivedTopology × TraversalScratch) := do
  let netId ← self.wireNet wire
  let deviceComponent ← terminalComponent definitions network device terminal
  let islandId ← self.componentIsland network deviceComponent
  let self ← self.removeIncidence netId fun member => decide (member = deviceComponent)
  self.repairIsland definitions network scratch islandId [netId]

/-! ### Devices -/

def prepareAddDevice (self : DerivedTopology) (definition : DeviceDefinition F)
    (model : PreparedDeviceInsert F) : Option PreparedDeviceTopologyInsert := do
  let location := model.location
  let chunkIndex := location.chunkIndex
  let row := location.row
  let partitionCount := definition.partitionCount
  self.islands.reserve partitionCount
  if model.createdChunk then
    if chunkIndex = self.deviceChunks.length ∧ row = 0 then
      some { location, newChunk := some (.new partitionCount) }
    else none
  else do
    let chunk ← self.deviceChunks[chunkIndex]?
    if chunk.partitionCount = partitionCount ∧ chunk.rowCount = row then
      some { location, newChunk := none }
    else none

/-- One partition of a pushed row: a component in an island of its own. -/
def pushComponent (device : DeviceId)
    (state : DenseIdStore .island IslandTopology × WorldInvalidation × List IslandId)
    (partitionIndex : Nat) :
    Option (DenseIdStore .island IslandTopology × WorldInvalidation × List IslandId) := do
  let (islands, invalidation, row) := state
  let partition ← (Id.ofIndex? partitionIndex : Option DevicePartitionId)
  let (island, islands) ← islands.insert { components := [{ device, partition }], revision := 0 }
  some (islands, invalidation.markTopologyDirty island, row ++ [island])

def pushDeviceRow (self : DerivedTopology) (device : DeviceId) (location : DeviceLocation) :
    Option DerivedTopology := do
  let chunkIndex := location.chunkIndex
  let chunk ← self.deviceChunks[chunkIndex]?
  let (islands, invalidation, row) ← (List.range chunk.partitionCount).foldlM (pushComponent device)
    (self.islands, self.invalidation, [])
  let chunk ← chunk.pushRowIter row
  some { self with islands, invalidation, deviceChunks := self.deviceChunks.set chunkIndex chunk }

def commitAddDevice (self : DerivedTopology) (device : DeviceId)
    (prepared : PreparedDeviceTopologyInsert) (insert : DeviceInsertResult) :
    Option DerivedTopology := do
  let deviceChunks ←
    if insert.createdChunk then prepared.newChunk.map fun chunk => self.deviceChunks ++ [chunk]
    else some self.deviceChunks
  { self with deviceChunks }.pushDeviceRow device insert.location

/-- The nets of a device's attached wires, one for each terminal. -/
def deviceNets [F64 F] (self : DerivedTopology) (network : Network F) (device : DeviceId) :
    List NetId :=
  match network.deviceOf device with
  | none => []
  | some view =>
    (view.terminals.reduceOption.filterMap ConnectionRef.asWire).filterMap self.wireNet

def prepareDeviceRemoval [F64 F] (self : DerivedTopology) (network : Network F) (device : DeviceId) :
    Option PreparedDeviceTopologyRemoval := do
  let affectedNets := self.deviceNets network device
  let location ← network.locationOf device
  let chunk ← self.deviceChunks[location.chunkIndex]?
  let islands ← chunk.rowIslands location.row
  some { affectedNets, affectedIslands := islands.foldl WorldInvalidation.pushNew [] }

def removeDeviceRow (self : DerivedTopology) (removal : DeviceRemoveResult) :
    Option DerivedTopology := do
  let deviceChunks ← Sidecar.removeRow self.deviceChunks removal
  some { self with deviceChunks }

/-- The affected nets of an island, each once. -/
def netsOfIsland (self : DerivedTopology) (affectedNets : List NetId) (islandId : IslandId) :
    Option (List NetId) :=
  affectedNets.foldlM (fun islandNets netId => do
    let island ← self.netIsland netId
    if island = some islandId ∧ netId ∉ islandNets then some (islandNets ++ [netId])
    else some islandNets) []

def removeDevice [F64 F] (self : DerivedTopology) (definitions : DefinitionRegistry F)
    (network : Network F) (scratch : TraversalScratch) (device : DeviceId)
    (prepared : PreparedDeviceTopologyRemoval) (removal : DeviceRemoveResult) :
    Option (DerivedTopology × TraversalScratch) := do
  let self ← prepared.affectedNets.foldlM
    (fun self netId => self.removeIncidence netId fun member => decide (member.device = device)) self
  let self ← prepared.affectedIslands.foldlM (fun self islandId =>
    self.modifyIsland islandId fun island =>
      { island with components := island.components.filter fun c => c.device ≠ device }) self
  let self ← self.removeDeviceRow removal
  prepared.affectedIslands.foldlM (fun (self, scratch) islandId => do
    let islandNets ← self.netsOfIsland prepared.affectedNets islandId
    self.repairIsland definitions network scratch islandId islandNets) (self, scratch)

end DerivedTopology

end Hynergy
