import Hynergy.Lib.Walk
import Hynergy.Lib.Word
import Hynergy.Topology.DerivedTopology

/-!
# Traversals

Reusable marks with lists of what was marked, and the two walks that repair a net and an
island: over the wires of a net, and over the nets and components of an island.
-/

namespace Hynergy

open Lib

variable {F : Type}

/-- The marks; the stacks are the walk's own and are empty between two traversals. -/
structure TraversalScratch where
  wireSeen : List Bool := []
  netSeen : List Bool := []
  componentSeen : List (List (BitVec 64)) := []
  touchedWires : List Nat := []
  touchedNets : List Nat := []
  touchedComponentWords : List (Nat × Nat) := []

namespace TraversalScratch

/-- `resize_with`, only ever growing. -/
def grow {α : Type} (l : List α) (length : Nat) (x : α) : List α :=
  if l.length < length then l ++ List.replicate (length - l.length) x else l

def resetMarks (seen : List Bool) (touched : List Nat) (requiredLen : Nat) : Option (List Bool) := do
  let seen ← touched.foldlM (fun seen index => assign seen index false) seen
  some (grow seen requiredLen false)

def beginWireTraversal (self : TraversalScratch) (wireSlots : Nat) : Option TraversalScratch := do
  let wireSeen ← resetMarks self.wireSeen self.touchedWires wireSlots
  some { self with wireSeen, touchedWires := [] }

def clearWord (seen : List (List (BitVec 64))) (place : Nat × Nat) :
    Option (List (List (BitVec 64))) := do
  let words ← seen[place.1]?
  let words ← assign words place.2 0
  some (seen.set place.1 words)

/-- Room for the component slots of the chunks from `chunkIndex` on. -/
def growWords : Nat → List Nat → List (List (BitVec 64)) → List (List (BitVec 64))
  | _, [], seen => seen
  | chunkIndex, slotCount :: rest, seen =>
    let seen := grow seen (chunkIndex + 1) []
    let requiredWords := (slotCount + 63) / 64
    growWords (chunkIndex + 1) rest (seen.modify chunkIndex (grow · requiredWords 0))

def beginIslandTraversal (self : TraversalScratch) (netSlots : Nat) (componentSlots : List Nat) :
    Option TraversalScratch := do
  let netSeen ← resetMarks self.netSeen self.touchedNets netSlots
  let componentSeen ← self.touchedComponentWords.foldlM clearWord self.componentSeen
  some { self with
    netSeen, touchedNets := []
    componentSeen := growWords 0 componentSlots componentSeen, touchedComponentWords := [] }

def visitComponent (self : TraversalScratch) (chunkIndex index : Nat) :
    Option (Bool × TraversalScratch) := do
  let wordIndex := index / 64
  let mask := bit (index % 64)
  let words ← self.componentSeen[chunkIndex]?
  let word ← words[wordIndex]?
  if word &&& mask ≠ 0 then some (false, self)
  else
    let touchedComponentWords :=
      if word = 0 then self.touchedComponentWords ++ [(chunkIndex, wordIndex)]
      else self.touchedComponentWords
    some (true, { self with
      touchedComponentWords
      componentSeen := self.componentSeen.set chunkIndex (words.set wordIndex (word ||| mask)) })

/-- One mark of `visit_wire` and `visit_net`, with the two lists afterwards. -/
def visitMark (seen : List Bool) (touched : List Nat) (index : Nat) :
    Option (Bool × List Bool × List Nat) := do
  let marked ← seen[index]?
  if marked then some (false, seen, touched) else some (true, seen.set index true, touched ++ [index])

def visitWire (self : TraversalScratch) (index : Nat) : Option (Bool × TraversalScratch) := do
  let (isNew, wireSeen, touchedWires) ← visitMark self.wireSeen self.touchedWires index
  some (isNew, { self with wireSeen, touchedWires })

def visitNet (self : TraversalScratch) (index : Nat) : Option (Bool × TraversalScratch) := do
  let (isNew, netSeen, touchedNets) ← visitMark self.netSeen self.touchedNets index
  some (isNew, { self with netSeen, touchedNets })

end TraversalScratch

/-! ### The wires of a net -/

structure WireComponent where
  wires : List WireId
  terminalComponents : List DeviceComponent

def wireNeighbors (network : Network F) (wire : WireId) : Option (List WireId) := do
  let connections ← network.connectionsOf wire
  some (connections.filterMap ConnectionRef.asWire)

/-- The components of the terminals attached to a wire, in the order of its connections. -/
def wireTerminals [F64 F] (definitions : DefinitionRegistry F) (network : Network F) (wire : WireId) :
    Option (List DeviceComponent) := do
  let connections ← network.connectionsOf wire
  (connections.filterMap ConnectionRef.asTerminal).mapM fun (device, terminal) =>
    terminalComponent definitions network device terminal

/-- `wire_components`. A wire's terminals are collected when it is popped, so in the order of
the popped wires. -/
def wireComponents [F64 F] (topology : DerivedTopology) (definitions : DefinitionRegistry F)
    (network : Network F) (netId : NetId) (scratch : TraversalScratch) :
    Option (List WireComponent × TraversalScratch) := do
  let scratch ← scratch.beginWireTraversal network.wires.length
  let net ← topology.nets.get netId
  let candidates := net.wires
  let starts ← candidates.filterM fun start => do
    let entry ← topology.wireNetMap[start.index]?
    some (entry = some netId)
  let (scratch, pieces) ← components (fun scratch wire => scratch.visitWire wire.index)
    (wireNeighbors network) candidates.length scratch starts
  let found ← pieces.mapM fun wires => do
    let terminals ← wires.mapM (wireTerminals definitions network)
    some { wires, terminalComponents := terminals.flatten : WireComponent }
  some (found, scratch)

/-! ### The nets and components of an island -/

structure IslandComponent where
  nets : List NetId
  components : List DeviceComponent

def IslandComponent.rewriteCost (self : IslandComponent) : Nat :=
  self.nets.length + self.components.length

inductive IslandVertex where
  | net (net : NetId)
  | component (component : DeviceComponent)
  deriving DecidableEq

namespace IslandVertex

def asNet : IslandVertex → Option NetId
  | .net id => some id
  | .component _ => none

def asComponent : IslandVertex → Option DeviceComponent
  | .net _ => none
  | .component c => some c

end IslandVertex

def visitVertex (topology : DerivedTopology) (network : Network F) (scratch : TraversalScratch) :
    IslandVertex → Option (Bool × TraversalScratch)
  | .net net => scratch.visitNet net.index
  | .component component => do
    let (chunkIndex, componentIndex) ← topology.componentStorageIndex network component
    scratch.visitComponent chunkIndex componentIndex

/-- What a terminal of `component`'s device leads to; `some none` where it is skipped. -/
def terminalVertex [F64 F] (topology : DerivedTopology) (definitions : DefinitionRegistry F)
    (network : Network F) (component : DeviceComponent) (terminalPartitions : List DevicePartitionId) :
    Option ConnectionRef × Nat → Option (Option IslandVertex)
  | (connection, terminalIndex) => do
    let partition ← terminalPartitions[terminalIndex]?
    if partition ≠ component.partition then some none
    else
      match connection with
      | none => some none
      | some (.wire wire) => do
        let net ← topology.wireNet wire
        some (some (.net net))
      | some (.terminal device terminal _) => do
        let neighbor ← terminalComponent definitions network device terminal
        some (some (.component neighbor))

def vertexNeighbors [F64 F] (topology : DerivedTopology) (definitions : DefinitionRegistry F)
    (network : Network F) : IslandVertex → Option (List IslandVertex)
  | .net netId => do
    let net ← topology.nets.get netId
    some (net.terminalComponents.map .component)
  | .component component => do
    let view ← network.deviceOf component.device
    let definition ← definitions.get view.definitionId
    let found ← view.terminals.zipIdx.mapM
      (terminalVertex topology definitions network component definition.terminalPartitions)
    some found.reduceOption

/-- `island_components`: one piece from each component of the island, then from each affected
net, that no earlier piece reached. -/
def islandComponents [F64 F] (topology : DerivedTopology) (definitions : DefinitionRegistry F)
    (network : Network F) (scratch : TraversalScratch) (islandId : IslandId)
    (affectedNets : List NetId) : Option (List IslandComponent × TraversalScratch) := do
  let scratch ← scratch.beginIslandTraversal topology.nets.slotCount
    (topology.deviceChunks.map fun chunk => chunk.rowCount * chunk.partitionCount)
  let island ← topology.islands.get islandId
  let (scratch, pieces) ← components (visitVertex topology network)
    (vertexNeighbors topology definitions network)
    (island.components.length + topology.nets.slotCount) scratch
    (island.components.map .component ++ affectedNets.map .net)
  some (pieces.map fun piece =>
    { nets := piece.filterMap IslandVertex.asNet
      components := piece.filterMap IslandVertex.asComponent }, scratch)

end Hynergy
