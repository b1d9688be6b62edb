import Hynergy.Compile.TemplateSound

/-!
# Templates made of templates

The templates placed in another share its nodes and keep unknowns and latches of their own. The other then relates
what happens at its ports as its parts do with the currents of every node in balance.
-/

namespace Hynergy

open Lib

variable {F : Type}

/-! ### Placements -/

/-- What of another template stands for the terminals, the parameters, the states, the unknowns and the values. -/
structure Placement where
  terminals : List LocalUnknownId
  parameters : List LocalValueId
  states : List LocalStateId
  unknowns : List LocalUnknownId
  values : List LocalValueId

namespace Placement

def terminal (self : Placement) (t : Nat) : Nat := (self.terminals[t]?.map UnknownIndex.index).getD 0

def parameter (self : Placement) (p : Nat) : Nat := (self.parameters[p]?.map ValueSlot.index).getD 0

def state (self : Placement) (s : Nat) : Nat := (self.states[s]?.map StateSlot.index).getD 0

def unknown (self : Placement) (u : Nat) : Nat := (self.unknowns[u]?.map UnknownIndex.index).getD 0

def value (self : Placement) (i : Nat) : Nat := (self.values[i]?.map ValueSlot.index).getD 0

/-- What is read of the other template. -/
def reading (self : Placement) (reading : Reading F) (values : Nat → F) : Reading F where
  parameter p := values (self.parameter p)
  timestep := reading.timestep
  state s := reading.state (self.state s)
  unknown u := reading.unknown (self.unknown u)

def matrixTerm (self : Placement) (term : PendingMatrixTerm F) : PendingMatrixTerm F :=
  ⟨⟨self.unknown term.row.index⟩, ⟨self.unknown term.column.index⟩, ⟨self.value term.source.index⟩, term.scale⟩

def rhsTerm (self : Placement) (term : LocalRhsTerm F) : LocalRhsTerm F :=
  ⟨⟨self.unknown term.destination.index⟩, ⟨self.value term.source.index⟩, term.scale⟩

end Placement

/-- Where the unknowns are that are bound to no terminal. -/
def ownPlaces (unknowns : List LocalUnknownInfo) : List Nat := places (fun info => info.terminal?.isNone) unknowns

theorem mem_ownPlaces {unknowns : List LocalUnknownInfo} {i : Nat} :
    i ∈ ownPlaces unknowns ↔ ∃ info, unknowns[i]? = some info ∧ info.terminal? = none := by
  simp [ownPlaces, mem_places]

theorem mem_latchPlaces {nodes : List (LocalValueNode F)} {i : Nat} :
    i ∈ latchPlaces nodes ↔ ∃ node, nodes[i]? = some node ∧ node.isLatch = true := mem_places

/-- A template and its place. -/
structure Part (F : Type) where
  stamps : Stamps F
  placement : Placement

namespace Part

def own (self : Part F) : List Nat := (ownPlaces self.stamps.unknowns).map self.placement.unknown

def latchPlaces (self : Part F) : List Nat := (Hynergy.latchPlaces self.stamps.nodes).map self.placement.value

def latches (self : Part F) : List (LocalValueId × LocalValueId) :=
  self.stamps.latches.map fun entry => (⟨self.placement.value entry.1.index⟩, ⟨self.placement.value entry.2.index⟩)

def writes (self : Part F) : List (LocalStateId × LocalValueId) :=
  self.stamps.writes.map fun entry => (⟨self.placement.state entry.1.index⟩, ⟨self.placement.value entry.2.index⟩)

/-- The part is sound at its place. -/
structure Sound (part : Part F) : Prop where
  stamps : part.stamps.Sound part.placement.parameters.length part.placement.states.length part.placement.terminals.length
  latched : part.stamps.latches.map (·.1.index) = Hynergy.latchPlaces part.stamps.nodes
  unknowns : part.placement.unknowns.length = part.stamps.unknowns.length
  terminals : ∀ (i : Nat) info t, part.stamps.unknowns[i]? = some info → info.terminal? = some t →
    part.placement.unknown i = part.placement.terminal t

variable [F64 F]

def matrix (self : Part F) : List (PendingMatrixTerm F) :=
  self.stamps.matrix.flatMap fun term =>
    DefinitionTemplateBuilder.unlessZero term.scale (self.placement.matrixTerm term)

def rhs (self : Part F) : List (LocalRhsTerm F) :=
  self.stamps.rhs.flatMap fun term => DefinitionTemplateBuilder.unlessZero term.scale (self.placement.rhsTerm term)

end Part

/-- What an output shows: an output of a part, or the voltage between two nodes. -/
inductive OutputSource where
  | part (k output : Nat)
  | difference (positive negative : Nat)

/-- The values of a part are computed in the other template. -/
structure Stamps.Holds [F64 F] (whole : Stamps F) (part : Part F) : Prop where
  evaluates : ∀ reading values, Evaluates whole.nodes reading values →
    Evaluates part.stamps.nodes (part.placement.reading reading values) fun i => values (part.placement.value i)
  latch : ∀ (i : Nat) initial, part.stamps.nodes[i]? = some (.iterationLatch initial) →
    whole.nodes[part.placement.value i]? = some (.iterationLatch ⟨part.placement.value initial.index⟩)
  arguments : ∀ id ∈ part.placement.parameters, (∃ c, whole.nodes[id.index]? = some (.constant c)) ∨
    ∃ p, whole.nodes[id.index]? = some (.parameter p)

/-- Where an output is. -/
def Stamps.Shows (whole : Stamps F) (parts : List (Part F)) (nodes : List Nat) (value : LocalValueId) :
    OutputSource → Prop
  | .part k output => ∃ part id, parts[k]? = some part ∧ part.stamps.outputs[output]? = some id ∧
      value.index = part.placement.value id.index
  | .difference positive negative => positive ∈ nodes ∧ negative ∈ nodes ∧ ∃ left right : LocalValueId,
      whole.nodes[value.index]? = some (.binary .sub left right) ∧
        whole.nodes[left.index]? = some (.unknown ⟨positive⟩) ∧ whole.nodes[right.index]? = some (.unknown ⟨negative⟩)

/-- A template is made of parts on nodes that they share. -/
structure Stamps.MadeOf [F64 F] (whole : Stamps F) (parts : List (Part F)) (nodes : List Nat)
    (sources : List OutputSource) : Prop where
  sound : ∀ part ∈ parts, part.Sound
  holds : ∀ part ∈ parts, whole.Holds part
  matrix : whole.matrix = parts.flatMap Part.matrix
  rhs : whole.rhs = parts.flatMap Part.rhs
  latches : whole.latches = parts.flatMap Part.latches
  latched : latchPlaces whole.nodes = parts.flatMap Part.latchPlaces
  writes : ∀ entry, entry ∈ whole.writes ↔ ∃ part ∈ parts, entry ∈ part.writes
  unknowns : (nodes ++ parts.flatMap Part.own).Perm (List.range whole.unknowns.length)
  terminals : ∀ part ∈ parts, ∀ unknown ∈ part.placement.terminals, unknown.index ∈ nodes
  own : ∀ part ∈ parts, ∀ u ∈ part.own, ∃ info, whole.unknowns[u]? = some info ∧ info.terminal? = none
  counted : whole.outputs.length = sources.length
  outputs : ∀ (j : Nat) value source, whole.outputs[j]? = some value → sources[j]? = some source →
    whole.Shows parts nodes value source

/-! ### The parts together -/

/-- The value of an argument: a constant, or a parameter of the template. -/
def argument [Zero F] (nodes : List (LocalValueNode F)) (ports : Ports F) (i : Nat) : F :=
  match nodes[i]? with
  | some (.constant value) => value
  | some (.parameter id) => ports.parameter id.index
  | _ => 0

variable [Field F]

/-- The current into a part at a node. -/
def Part.inflow (self : Part F) (ports : Ports F) (u : Nat) : F :=
  total self.placement.terminals.zipIdx (fun entry => entry.1.index) (fun entry => ports.current entry.2)
    fun place => decide (place = u)

def inflow (parts : List (Part F)) (inner : Nat → Ports F) (u : Nat) : F :=
  (parts.zipIdx.map fun entry => entry.1.inflow (inner entry.2) u).sum

/-- What a part sees of the template. -/
structure Part.Sees (part : Part F) (nodes : List (LocalValueNode F)) (ports : Ports F) (voltage : Nat → F)
    (inner : Ports F) : Prop where
  timestep : inner.timestep = ports.timestep
  parameters : ∀ p < part.placement.parameters.length, inner.parameter p = argument nodes ports (part.placement.parameter p)
  states : ∀ s < part.placement.states.length, inner.state s = ports.state (part.placement.state s) ∧
    inner.next s = ports.next (part.placement.state s)
  terminals : ∀ t < part.placement.terminals.length, inner.voltage t = voltage (part.placement.terminal t)

variable [F64 F]

/-- Every part sees the ports and the voltages of the nodes, and the currents of every node are in balance. -/
structure Stamps.Linked (whole : Stamps F) (parts : List (Part F)) (nodes : List Nat) (sources : List OutputSource)
    (ports : Ports F) (voltage : Nat → F) (inner : Nat → Ports F) : Prop where
  sees : ∀ (k : Nat) part, parts[k]? = some part → part.Sees whole.nodes ports voltage (inner k)
  balance : ∀ u ∈ nodes, ∀ info, whole.unknowns[u]? = some info →
    match info.terminal? with
    | some t => voltage u = ports.voltage t ∧ inflow parts inner u = ports.current t
    | none => inflow parts inner u = 0
  shows : ∀ (j : Nat) source, sources[j]? = some source →
    ports.observed j =
      match source with
      | .part k output => (inner k).observed output
      | .difference positive negative => F64.sub (voltage positive) (voltage negative)

/-! ### Residuals -/

section Residuals

variable {stamps : Stamps F} {values unknown : Nat → F}

omit [F64 F] in
/-- The rows of a set, one by one. -/
theorem Stamps.Sound.residual_places {parameters states terminals : Nat} (sound : stamps.Sound parameters states terminals)
    (rows : Nat → Bool) : stamps.residual values unknown rows =
      ((List.range stamps.unknowns.length).map fun row =>
        if rows row = true then stamps.residual values unknown (fun place => decide (place = row)) else 0).sum := by
  have matrix : total stamps.matrix (fun term => term.row.index)
      (fun term => values term.source.index * term.scale * unknown term.column.index) rows = _ :=
    total_places (List.range stamps.unknowns.length) List.nodup_range
      fun term member => List.mem_range.mpr (sound.matrix term member).1
  have rhs : total stamps.rhs (fun term => term.destination.index) (fun term => values term.source.index * term.scale)
      rows = _ :=
    total_places (List.range stamps.unknowns.length) List.nodup_range
      fun term member => List.mem_range.mpr (sound.rhs term member).1
  rw [Stamps.residual, Stamps.matrixTotal, Stamps.rhsTotal, matrix, rhs, ← sum_map_sub]
  congr 1
  refine List.map_congr_left fun row _ => ?_
  split
  · rfl
  · exact sub_zero 0

omit [Field F] [F64 F] in
/-- No two unknowns are bound to one terminal. -/
theorem Stamps.Sound.terminal_unique {parameters states terminals : Nat} (sound : stamps.Sound parameters states terminals)
    {i j t : Nat} {info info' : LocalUnknownInfo} (atI : stamps.unknowns[i]? = some info) (boundI : info.terminal? = some t)
    (atJ : stamps.unknowns[j]? = some info') (boundJ : info'.terminal? = some t) : i = j :=
  place_unique (sound.terminals ▸ List.nodup_range) atI boundI atJ boundJ

omit [F64 F] in
/-- What reaches a part's terminals at a node of the template. -/
theorem Part.residual_node {part : Part F} (sound : part.Sound) {ports : Ports F} {u : Nat} {values unknown : Nat → F}
    (apart : u ∉ part.own) (currents : ∀ (i : Nat) info t, part.stamps.unknowns[i]? = some info →
      info.terminal? = some t → part.stamps.residual values unknown (fun place => decide (place = i)) = ports.current t) :
    part.stamps.residual values unknown (fun row => decide (part.placement.unknown row = u)) = part.inflow ports u := by
  rw [sound.stamps.residual_places]
  have rows : ∀ i ∈ List.range part.stamps.unknowns.length,
      (if decide (part.placement.unknown i = u) = true then
        part.stamps.residual values unknown (fun place => decide (place = i)) else 0) =
      ((part.stamps.unknowns[i]?.bind LocalUnknownInfo.terminal?).map fun t =>
        if part.placement.terminal t = u then ports.current t else 0).getD 0 := by
    intro i inside
    have below := List.mem_range.mp inside
    have read := List.getElem?_eq_getElem below
    cases bound : part.stamps.unknowns[i].terminal? with
    | some t =>
      simp [read, bound, sound.terminals i _ t read bound, currents i _ t read bound]
    | none =>
      have own : part.placement.unknown i ∈ part.own := List.mem_map_of_mem (mem_ownPlaces.mpr ⟨_, read, bound⟩)
      have other : part.placement.unknown i ≠ u := fun same => apart (same ▸ own)
      simp [read, bound, other]
  have listed : part.placement.terminals.zipIdx.map (fun entry =>
      if decide (entry.1.index = u) = true then ports.current entry.2 else 0) =
      (List.range part.placement.terminals.length).map fun t =>
        if part.placement.terminal t = u then ports.current t else 0 := by
    refine List.ext_getElem (by simp) fun t left right => ?_
    have below : t < part.placement.terminals.length := by simpa using left
    simp [Placement.terminal, below]
  rw [List.map_congr_left rows, sum_range_filterMap, sound.stamps.terminals, Part.inflow, total, listed]

omit [F64 F] in
/-- Only the rows of the template count. -/
theorem Stamps.Sound.residual_congr {parameters states terminals : Nat} (sound : stamps.Sound parameters states terminals)
    {rows rows' : Nat → Bool} (same : ∀ row < stamps.unknowns.length, rows row = rows' row) :
    stamps.residual values unknown rows = stamps.residual values unknown rows' := by
  rw [sound.residual_places, sound.residual_places]
  congr 1
  refine List.map_congr_left fun row inside => ?_
  rw [same row (List.mem_range.mp inside)]

omit [F64 F] in
theorem Stamps.Sound.residual_outside {parameters states terminals : Nat} (sound : stamps.Sound parameters states terminals)
    {rows : Nat → Bool} (none : ∀ row < stamps.unknowns.length, rows row = false) :
    stamps.residual values unknown rows = 0 := by
  rw [sound.residual_places]
  apply List.sum_eq_zero
  intro amount member
  obtain ⟨row, inside, rfl⟩ := List.mem_map.mp member
  rw [none row (List.mem_range.mp inside)]
  rfl

variable (exact : F64.ExactField F) {part : Part F} {whole : Stamps F} {parts : List (Part F)} {nodes : List Nat}
  {sources : List OutputSource}

include exact

/-- Placing a part renames the rows. -/
theorem Part.residual_eq (part : Part F) (values unknown : Nat → F) (rows : Nat → Bool) :
    total part.matrix (fun term => term.row.index)
        (fun term => values term.source.index * term.scale * unknown term.column.index) rows -
      total part.rhs (fun term => term.destination.index) (fun term => values term.source.index * term.scale) rows =
    part.stamps.residual (fun i => values (part.placement.value i)) (fun u => unknown (part.placement.unknown u))
      fun row => rows (part.placement.unknown row) := by
  have matrix : total part.matrix (fun term => term.row.index)
      (fun term => values term.source.index * term.scale * unknown term.column.index) rows =
      total (part.stamps.matrix.map part.placement.matrixTerm) (fun term => term.row.index)
        (fun term => values term.source.index * term.scale * unknown term.column.index) rows := by
    unfold Part.matrix
    induction part.stamps.matrix with
    | nil => rfl
    | cons term terms ih =>
      rw [List.flatMap_cons, total_append, ih, DefinitionTemplateBuilder.total_unlessZero exact]
      · simp
      · intro zero
        simp [Placement.matrixTerm, zero]
  have rhs : total part.rhs (fun term => term.destination.index) (fun term => values term.source.index * term.scale) rows =
      total (part.stamps.rhs.map part.placement.rhsTerm) (fun term => term.destination.index)
        (fun term => values term.source.index * term.scale) rows := by
    unfold Part.rhs
    induction part.stamps.rhs with
    | nil => rfl
    | cons term terms ih =>
      rw [List.flatMap_cons, total_append, ih, DefinitionTemplateBuilder.total_unlessZero exact]
      · simp
      · intro zero
        simp [Placement.rhsTerm, zero]
  rw [matrix, rhs, total_map, total_map]
  rfl

/-- The parts' currents add up. -/
theorem Stamps.MadeOf.residual_parts (made : whole.MadeOf parts nodes sources) (values unknown : Nat → F)
    (rows : Nat → Bool) : whole.residual values unknown rows =
      (parts.map fun part => part.stamps.residual (fun i => values (part.placement.value i))
        (fun u => unknown (part.placement.unknown u)) fun row => rows (part.placement.unknown row)).sum := by
  rw [Stamps.residual, Stamps.matrixTotal, Stamps.rhsTotal, made.matrix, made.rhs, total_flatMap, total_flatMap,
    ← sum_map_sub]
  congr 1
  exact List.map_congr_left fun part _ => part.residual_eq exact values unknown rows

omit exact

omit [Field F] [F64 F] in
/-- A row of a part is bound to a node, or is the part's own. -/
theorem Part.Sound.row_cases (sound : part.Sound) {row : Nat} (inside : row < part.stamps.unknowns.length) :
    (∃ info t, part.stamps.unknowns[row]? = some info ∧ info.terminal? = some t ∧
      t < part.placement.terminals.length ∧ part.placement.unknown row = part.placement.terminal t) ∨
      row ∈ ownPlaces part.stamps.unknowns := by
  have read := List.getElem?_eq_getElem inside
  cases bound : part.stamps.unknowns[row].terminal? with
  | none => exact Or.inr (mem_ownPlaces.mpr ⟨_, read, bound⟩)
  | some t =>
    have listed : t ∈ List.range part.placement.terminals.length := by
      rw [← sound.stamps.terminals]
      exact List.mem_filterMap.mpr ⟨_, List.getElem_mem inside, bound⟩
    exact Or.inl ⟨_, t, read, bound, List.mem_range.mp listed, sound.terminals row _ t read bound⟩

omit [Field F] in
theorem Stamps.MadeOf.terminal_mem (made : whole.MadeOf parts nodes sources) (member : part ∈ parts) {t : Nat}
    (inside : t < part.placement.terminals.length) : part.placement.terminal t ∈ nodes := by
  have := made.terminals part member _ (List.getElem_mem inside)
  simpa [Placement.terminal, inside] using this

omit [Field F] in
theorem Stamps.MadeOf.distinct (made : whole.MadeOf parts nodes sources) :
    nodes.Nodup ∧ (parts.flatMap Part.own).Nodup ∧ ∀ u ∈ nodes, u ∉ parts.flatMap Part.own := by
  have nodup : (nodes ++ parts.flatMap Part.own).Nodup := made.unknowns.nodup_iff.mpr List.nodup_range
  obtain ⟨shared, own, apart⟩ := List.nodup_append.mp nodup
  exact ⟨shared, own, fun u member there => apart u member u there rfl⟩

omit [Field F] in
theorem Stamps.MadeOf.not_own (made : whole.MadeOf parts nodes sources) {u : Nat} (node : u ∈ nodes) (member : part ∈ parts) :
    u ∉ part.own := fun own => made.distinct.2.2 u node (List.mem_flatMap.mpr ⟨part, member, own⟩)

omit [Field F] in
/-- No other row of any part has a place of a part's own. -/
theorem Stamps.MadeOf.own_unique (made : whole.MadeOf parts nodes sources) {other : Part F} {k j i row : Nat}
    (atK : parts[k]? = some part) (atJ : parts[j]? = some other) (own : i ∈ ownPlaces part.stamps.unknowns)
    (inside : row < other.stamps.unknowns.length) (same : other.placement.unknown row = part.placement.unknown i) :
    j = k ∧ row = i := by
  have member := List.mem_of_getElem? atK
  have member' := List.mem_of_getElem? atJ
  have here : part.placement.unknown i ∈ part.own := List.mem_map_of_mem own
  rcases (made.sound other member').row_cases inside with ⟨info, t, read, bound, below, isTerminal⟩ | ownRow
  · have node := made.terminal_mem member' below
    rw [← isTerminal, same] at node
    exact absurd here (made.not_own node member)
  · have there : part.placement.unknown i ∈ other.own := same ▸ List.mem_map_of_mem ownRow
    obtain ⟨each, apart⟩ := List.nodup_flatMap.mp made.distinct.2.1
    have sameIndex : j = k := by
      by_contra different
      obtain ⟨insideK, rfl⟩ := List.getElem?_eq_some_iff.mp atK
      obtain ⟨insideJ, rfl⟩ := List.getElem?_eq_some_iff.mp atJ
      rw [List.pairwise_iff_getElem] at apart
      rcases Nat.lt_or_gt_of_ne different with below | above
      · exact apart j k insideJ insideK below there here
      · exact apart k j insideK insideJ above here there
    subst sameIndex
    obtain rfl := Option.some.inj (atK.symm.trans atJ)
    exact ⟨rfl, List.inj_on_of_nodup_map (each part member) ownRow own same⟩

include exact

/-- The equation of an unknown that is a part's own is the part's. -/
theorem Stamps.MadeOf.residual_own (made : whole.MadeOf parts nodes sources) {k i : Nat} (read : parts[k]? = some part)
    (own : i ∈ ownPlaces part.stamps.unknowns) (values unknown : Nat → F) :
    whole.residual values unknown (fun row => decide (row = part.placement.unknown i)) =
      part.stamps.residual (fun i => values (part.placement.value i)) (fun u => unknown (part.placement.unknown u))
        fun row => decide (row = i) := by
  rw [made.residual_parts exact, sum_map_single read]
  · refine (made.sound part (List.mem_of_getElem? read)).stamps.residual_congr fun row inside => ?_
    rw [decide_eq_decide]
    constructor
    · exact fun same => (made.own_unique read read own inside same).2
    · exact fun same => congrArg part.placement.unknown same
  · intro j other there different
    refine (made.sound other (List.mem_of_getElem? there)).stamps.residual_outside fun row inside => ?_
    rw [decide_eq_false_iff_not]
    exact fun same => different (made.own_unique read there own inside same).1

/-- The equation of a node is the balance of the currents into the parts. -/
theorem Stamps.MadeOf.residual_node (made : whole.MadeOf parts nodes sources) {u : Nat} (node : u ∈ nodes)
    {values unknown : Nat → F} {inner : Nat → Ports F}
    (currents : ∀ (k : Nat) part, parts[k]? = some part → ∀ (i : Nat) info t, part.stamps.unknowns[i]? = some info →
      info.terminal? = some t → part.stamps.residual (fun i => values (part.placement.value i))
        (fun u => unknown (part.placement.unknown u)) (fun row => decide (row = i)) = (inner k).current t) :
    whole.residual values unknown (fun row => decide (row = u)) = inflow parts inner u := by
  rw [made.residual_parts exact, inflow]
  congr 1
  refine List.ext_getElem (by simp) fun k left right => ?_
  have below : k < parts.length := by simpa using left
  have read := List.getElem?_eq_getElem below
  have member := List.getElem_mem below
  simp only [List.getElem_map, List.getElem_zipIdx, Nat.zero_add]
  exact parts[k].residual_node (made.sound _ member) (made.not_own node member) (currents k _ read)

end Residuals

/-! ### The meaning of the whole -/

omit [F64 F] in
theorem Stamps.rowHolds_iff {stamps : Stamps F} {ports : Ports F} {values unknown : Nat → F} {info : LocalUnknownInfo}
    {place : Nat} : stamps.RowHolds ports values unknown (info, place) ↔
      match info.terminal? with
      | some t => unknown place = ports.voltage t ∧
          stamps.residual values unknown (fun row => decide (row = place)) = ports.current t
      | none => stamps.residual values unknown (fun row => decide (row = place)) = 0 := by
  unfold Stamps.RowHolds LocalUnknownInfo.terminal?
  cases info.binding <;> rfl

/-- What happens at a part's ports. -/
def Part.seen (self : Part F) (ports : Ports F) (unknown values : Nat → F) : Ports F where
  parameter p := values (self.placement.parameter p)
  timestep := ports.timestep
  state s := ports.state (self.placement.state s)
  next s := ports.next (self.placement.state s)
  voltage t := unknown (self.placement.terminal t)
  current t := self.stamps.residual (fun i => values (self.placement.value i)) (fun u => unknown (self.placement.unknown u))
    fun row => decide (self.stamps.unknowns[row]?.bind LocalUnknownInfo.terminal? = some t)
  observed o := values (self.placement.value ((self.stamps.outputs[o]?.map ValueSlot.index).getD 0))

section Meaning

variable (exact : F64.ExactField F) {latch : F → F → F → Prop} {ports : Ports F} {whole : Stamps F} {part : Part F}
  {parts : List (Part F)} {nodes : List Nat} {sources : List OutputSource} {unknown values : Nat → F}

include exact

/-- A solution of the whole solves every part. -/
theorem Stamps.MadeOf.solved_part (made : whole.MadeOf parts nodes sources)
    (solved : whole.Solved latch ports unknown values) {k : Nat} (read : parts[k]? = some part) :
    part.stamps.Solved latch (part.seen ports unknown values) (fun u => unknown (part.placement.unknown u))
      fun i => values (part.placement.value i) := by
  have member := List.mem_of_getElem? read
  have sound := made.sound part member
  have holds := made.holds part member
  refine ⟨holds.evaluates _ _ solved.evaluates, ?_, ?_, ?_, ?_⟩
  · rintro ⟨info, i⟩ listed
    have there := List.mem_zipIdx_iff_getElem?.mp listed
    rw [Stamps.rowHolds_iff]
    split
    · rename_i t bound
      refine ⟨congrArg unknown (sound.terminals i info t there bound), ?_⟩
      refine sound.stamps.residual_congr fun row inside => ?_
      rw [decide_eq_decide]
      constructor
      · rintro rfl
        rw [there]
        exact bound
      · intro same
        obtain ⟨other, atRow, boundRow⟩ := Option.bind_eq_some_iff.mp same
        exact sound.stamps.terminal_unique atRow boundRow there bound
    · rename_i free
      have own := mem_ownPlaces.mpr ⟨info, there, free⟩
      rw [← made.residual_own exact read own]
      obtain ⟨info', at', free'⟩ := made.own part member _ (List.mem_map_of_mem own)
      have row := solved.rows (info', part.placement.unknown i) (List.mem_zipIdx_iff_getElem?.mpr at')
      rw [Stamps.rowHolds_iff, free'] at row
      exact row
  · rintro ⟨latched, update⟩ listed initial isLatch
    have there : ((⟨part.placement.value latched.index⟩, ⟨part.placement.value update.index⟩) :
        LocalValueId × LocalValueId) ∈ whole.latches := by
      rw [made.latches]
      exact List.mem_flatMap.mpr ⟨part, member, List.mem_map.mpr ⟨_, listed, rfl⟩⟩
    exact solved.latches _ there _ (holds.latch _ _ isLatch)
  · rintro ⟨state, source⟩ listed
    have there := (made.writes _).mpr ⟨part, member, List.mem_map.mpr ⟨_, listed, rfl⟩⟩
    exact solved.writes _ there
  · rintro ⟨output, o⟩ listed
    have there := List.mem_zipIdx_iff_getElem?.mp listed
    simp [Part.seen, there]

omit exact in
theorem Stamps.Holds.parameter_eq (holds : whole.Holds part) (evaluates : Evaluates whole.nodes (ports.reading unknown) values)
    {p : Nat} (inside : p < part.placement.parameters.length) :
    values (part.placement.parameter p) = argument whole.nodes ports (part.placement.parameter p) := by
  have place : part.placement.parameter p = part.placement.parameters[p].index := by simp [Placement.parameter, inside]
  rw [place, argument]
  rcases holds.arguments _ (List.getElem_mem inside) with ⟨c, isConstant⟩ | ⟨id, isParameter⟩
  · rw [evaluates.read isConstant, isConstant]
    rfl
  · rw [evaluates.read isParameter, isParameter]
    rfl

/-- The parts of a solution are linked. -/
theorem Stamps.MadeOf.linked (made : whole.MadeOf parts nodes sources) (solved : whole.Solved latch ports unknown values) :
    whole.Linked parts nodes sources ports unknown fun k =>
      (parts[k]?.map fun part => part.seen ports unknown values).getD ports := by
  refine ⟨fun k part read => ?_, fun u node info at' => ?_, fun j source read => ?_⟩
  · have holds := made.holds part (List.mem_of_getElem? read)
    simp only [read, Option.map_some, Option.getD_some]
    exact ⟨rfl, fun p inside => holds.parameter_eq solved.evaluates inside, fun s _ => ⟨rfl, rfl⟩, fun t _ => rfl⟩
  · have row := solved.rows (info, u) (List.mem_zipIdx_iff_getElem?.mpr at')
    rw [Stamps.rowHolds_iff, made.residual_node exact node] at row
    · exact row
    · intro k part read i info t there bound
      have := (made.solved_part exact solved read).rows (info, i) (List.mem_zipIdx_iff_getElem?.mpr there)
      rw [Stamps.rowHolds_iff, bound] at this
      simpa [read] using this.2
  · have inside : j < whole.outputs.length := made.counted ▸ (List.getElem?_eq_some_iff.mp read).1
    have atValue := List.getElem?_eq_getElem inside
    rw [solved.outputs (whole.outputs[j], j) (List.mem_zipIdx_iff_getElem?.mpr atValue)]
    cases source with
    | part k output =>
      obtain ⟨part, id, atPart, atOutput, same⟩ := made.outputs j _ _ atValue read
      simp [atPart, Part.seen, atOutput, same]
    | difference positive negative =>
      obtain ⟨-, -, left, right, isDifference, isLeft, isRight⟩ := made.outputs j _ _ atValue read
      rw [solved.evaluates.read isDifference]
      show F64.sub (values left.index) (values right.index) = _
      rw [solved.evaluates.read isLeft, solved.evaluates.read isRight]
      rfl

omit [Field F] exact in
/-- Only what the nodes read counts. -/
theorem Stamps.Sound.evaluates_congr {stamps : Stamps F} {parameters states terminals : Nat}
    (sound : stamps.Sound parameters states terminals) {reading reading' : Reading F}
    (h : Evaluates stamps.nodes reading values) (parameter : ∀ p < parameters, reading.parameter p = reading'.parameter p)
    (timestep : reading.timestep = reading'.timestep) (state : ∀ s < states, reading.state s = reading'.state s)
    (unknown : ∀ u < stamps.unknowns.length, reading.unknown u = reading'.unknown u) :
    Evaluates stamps.nodes reading' values := by
  rw [evaluates_iff] at h ⊢
  intro i node read
  have inside := sound.nodes i node read
  have here := h i node read
  cases node with
  | parameter id => exact here.trans (parameter id.index (inside.parameter id rfl))
  | timestep => exact here.trans timestep
  | state id => exact here.trans (state id.index (inside.state id rfl))
  | unknown id => exact here.trans (unknown id.index (inside.unknown id rfl))
  | constant _ | binary _ _ _ | neg _ | iterationLatch _ => exact here

omit [F64 F] exact in
theorem Stamps.Sound.residual_values {stamps : Stamps F} {parameters states terminals : Nat}
    (sound : stamps.Sound parameters states terminals) {values values' unknown unknown' : Nat → F} (rows : Nat → Bool)
    (sameValues : ∀ i < stamps.nodes.length, values i = values' i)
    (sameUnknowns : ∀ u < stamps.unknowns.length, unknown u = unknown' u) :
    stamps.residual values unknown rows = stamps.residual values' unknown' rows := by
  unfold Stamps.residual Stamps.matrixTotal Stamps.rhsTotal
  congr 1
  · refine total_congr fun term member => ⟨rfl, ?_⟩
    obtain ⟨-, column, source⟩ := sound.matrix term member
    rw [sameValues _ source, sameUnknowns _ column]
  · refine total_congr fun term member => ⟨rfl, ?_⟩
    rw [sameValues _ (sound.rhs term member).2]

/-- Linked solutions of the parts solve the whole. -/
theorem Stamps.MadeOf.behaves_of_parts (made : whole.MadeOf parts nodes sources)
    (earlier : Earlier whole.nodes) {voltage : Nat → F} {inner : Nat → Ports F}
    (linked : whole.Linked parts nodes sources ports voltage inner)
    (behaves : ∀ (k : Nat) part, parts[k]? = some part → part.stamps.Behaves latch (inner k)) :
    whole.Behaves latch ports := by
  have each : ∀ k, ∃ unknown values, ∀ part : Part F, parts[k]? = some part →
      part.stamps.Solved latch (inner k) unknown values := by
    intro k
    cases read : parts[k]? with
    | none => exact ⟨fun _ => 0, fun _ => 0, nofun⟩
    | some part =>
      obtain ⟨unknown, values, solved⟩ := behaves k part read
      exact ⟨unknown, values, fun other same => Option.some.inj same ▸ solved⟩
  choose X V solved using each
  let : Inhabited F := ⟨0⟩
  obtain ⟨x, onNodes, onOwn⟩ := exists_gluing parts (fun part => ownPlaces part.stamps.unknowns)
    (fun part => part.placement.unknown) X nodes voltage (made.unknowns.nodup_iff.mpr List.nodup_range)
  obtain ⟨held, -, onLatches⟩ := exists_gluing parts (fun part => latchPlaces part.stamps.nodes)
    (fun part => part.placement.value) V [] voltage (made.latched ▸ places_nodup _ whole.nodes)
  obtain ⟨v, evaluates, latched⟩ := exists_evaluates earlier (ports.reading x) held
  -- every part computes what its own solution computes
  have sameUnknowns : ∀ (k : Nat) part, parts[k]? = some part → ∀ u < part.stamps.unknowns.length,
      x (part.placement.unknown u) = X k u := by
    intro k part read u inside
    have member := List.mem_of_getElem? read
    rcases (made.sound part member).row_cases inside with ⟨info, t, at', bound, below, isTerminal⟩ | own
    · have row := (solved k part read).rows (info, u) (List.mem_zipIdx_iff_getElem?.mpr at')
      rw [Stamps.rowHolds_iff, bound] at row
      rw [isTerminal, onNodes _ (made.terminal_mem member below), row.1, (linked.sees k part read).terminals t below]
    · exact onOwn k part read u own
  have sameValues : ∀ (k : Nat) part, parts[k]? = some part → ∀ i < part.stamps.nodes.length,
      v (part.placement.value i) = V k i := by
    intro k part read
    have member := List.mem_of_getElem? read
    have sound := (made.sound part member).stamps
    have holds := made.holds part member
    have sees := linked.sees k part read
    have computed : Evaluates part.stamps.nodes ((inner k).reading (X k)) fun i => v (part.placement.value i) :=
      sound.evaluates_congr (holds.evaluates _ _ evaluates)
        (fun p inside => (holds.parameter_eq evaluates inside).trans (sees.parameters p inside).symm) sees.timestep.symm
        (fun s inside => (sees.states s inside).1.symm) fun u inside => sameUnknowns k part read u inside
    refine evaluates_unique sound.earlier computed (solved k part read).evaluates fun i node isNode isLatch => ?_
    have place := mem_latchPlaces.mpr ⟨node, isNode, isLatch⟩
    cases node with
    | iterationLatch initial => rw [latched _ _ (holds.latch i initial isNode) rfl, onLatches k part read i place]
    | _ => cases isLatch
  have residuals : ∀ (k : Nat) part, parts[k]? = some part → ∀ rows : Nat → Bool,
      part.stamps.residual (fun i => v (part.placement.value i)) (fun u => x (part.placement.unknown u)) rows =
        part.stamps.residual (V k) (X k) rows := by
    intro k part read rows
    exact (made.sound part (List.mem_of_getElem? read)).stamps.residual_values rows (sameValues k part read)
      (sameUnknowns k part read)
  refine ⟨x, v, evaluates, ?_, ?_, ?_, ?_⟩
  · rintro ⟨info, u⟩ listed
    have at' := List.mem_zipIdx_iff_getElem?.mp listed
    have inside : u ∈ List.range whole.unknowns.length := List.mem_range.mpr (List.getElem?_eq_some_iff.mp at').1
    rw [Stamps.rowHolds_iff]
    rcases List.mem_append.mp (made.unknowns.mem_iff.mpr inside) with node | own
    · rw [made.residual_node exact node, onNodes u node]
      · exact linked.balance u node info at'
      · intro k part read i info t there bound
        have row := (solved k part read).rows (info, i) (List.mem_zipIdx_iff_getElem?.mpr there)
        rw [Stamps.rowHolds_iff, bound] at row
        rw [residuals k part read, row.2]
    · obtain ⟨part, member, own⟩ := List.mem_flatMap.mp own
      obtain ⟨k, read⟩ := List.mem_iff_getElem?.mp member
      obtain ⟨info', at'', free⟩ := made.own part member u own
      obtain rfl := Option.some.inj (at'.symm.trans at'')
      obtain ⟨i, ownPlace, rfl⟩ := List.mem_map.mp own
      obtain ⟨info', there, free'⟩ := mem_ownPlaces.mp ownPlace
      have row := (solved k part read).rows (info', i) (List.mem_zipIdx_iff_getElem?.mpr there)
      rw [Stamps.rowHolds_iff, free'] at row
      rw [free, made.residual_own exact read ownPlace, residuals k part read]
      exact row
  · intro entry listed initial isLatch
    rw [made.latches] at listed
    obtain ⟨part, member, listed⟩ := List.mem_flatMap.mp listed
    obtain ⟨⟨latched', update⟩, own, rfl⟩ := List.mem_map.mp listed
    obtain ⟨k, read⟩ := List.mem_iff_getElem?.mp member
    have sound := made.sound part member
    have place : latched'.index ∈ latchPlaces part.stamps.nodes :=
      sound.latched ▸ List.mem_map_of_mem (f := fun entry : LocalValueId × LocalValueId => entry.1.index) own
    obtain ⟨node, isNode, nodeLatches⟩ := mem_latchPlaces.mp place
    cases node with
    | iterationLatch first =>
      have whole' := (made.holds part member).latch _ first isNode
      obtain rfl := LocalValueNode.iterationLatch.inj (Option.some.inj (isLatch.symm.trans whole'))
      have inside := (List.getElem?_eq_some_iff.mp isNode).1
      have below := (sound.stamps.nodes _ _ isNode).operands first.index (by simp [LocalValueNode.operands])
      have := (solved k part read).latches _ own first isNode
      rwa [← sameValues k part read _ (below.trans inside), ← sameValues k part read _ inside,
        ← sameValues k part read _ (sound.stamps.latches _ own)] at this
    | _ => cases nodeLatches
  · intro entry listed
    obtain ⟨part, member, listed⟩ := (made.writes entry).mp listed
    obtain ⟨⟨state, source⟩, own, rfl⟩ := List.mem_map.mp listed
    obtain ⟨k, read⟩ := List.mem_iff_getElem?.mp member
    obtain ⟨stateInside, sourceInside⟩ := (made.sound part member).stamps.writes _ own
    have written := (solved k part read).writes _ own
    rw [← ((linked.sees k part read).states _ stateInside).2, written, sameValues k part read _ sourceInside]
  · rintro ⟨value, j⟩ listed
    have at' := List.mem_zipIdx_iff_getElem?.mp listed
    have inside : j < sources.length := made.counted ▸ (List.getElem?_eq_some_iff.mp at').1
    have atSource := List.getElem?_eq_getElem inside
    have shown := linked.shows j _ atSource
    have shows' := made.outputs j value _ at' atSource
    rw [shown]
    cases source : sources[j] with
    | part k output =>
      rw [source] at shows'
      obtain ⟨part, id, atPart, atOutput, same⟩ := shows'
      have listed' : (id, output) ∈ part.stamps.outputs.zipIdx := List.mem_zipIdx_iff_getElem?.mpr atOutput
      have there := (made.sound part (List.mem_of_getElem? atPart)).stamps.outputs id (List.mem_of_getElem? atOutput)
      dsimp only
      rw [(solved k part atPart).outputs _ listed', same, sameValues k part atPart _ there]
    | difference positive negative =>
      rw [source] at shows'
      obtain ⟨isPositive, isNegative, left, right, isDifference, isLeft, isRight⟩ := shows'
      rw [evaluates.read isDifference]
      show _ = F64.sub (v left.index) (v right.index)
      rw [evaluates.read isLeft, evaluates.read isRight]
      show _ = F64.sub (x positive) (x negative)
      rw [onNodes positive isPositive, onNodes negative isNegative]

/-- A template made of parts relates what its linked parts relate. -/
theorem Stamps.MadeOf.behaves_iff (made : whole.MadeOf parts nodes sources) (earlier : Earlier whole.nodes) :
    whole.Behaves latch ports ↔ ∃ voltage inner, whole.Linked parts nodes sources ports voltage inner ∧
      ∀ (k : Nat) part, parts[k]? = some part → part.stamps.Behaves latch (inner k) := by
  constructor
  · rintro ⟨unknown, values, solved⟩
    refine ⟨unknown, _, made.linked exact solved, fun k part read => ?_⟩
    simp only [read, Option.map_some, Option.getD_some]
    exact ⟨_, _, made.solved_part exact solved read⟩
  · rintro ⟨voltage, inner, linked, behaves⟩
    exact made.behaves_of_parts exact earlier linked behaves

end Meaning

end Hynergy
