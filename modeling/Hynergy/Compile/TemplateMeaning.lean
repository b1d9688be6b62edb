import Hynergy.Compile.Template
import Hynergy.Lib.StraightLine
import Hynergy.Lib.Totals

/-!
# What a template means

A template relates what happens at its ports: the voltages of its terminals, the currents into them, its parameters
and its states. The values are computed from the ports and the unknowns; the stamps give the current into every
unknown's row, which is that of the terminal, or nothing where the unknown is the template's own.
-/

namespace Hynergy

open Lib

variable {F : Type}

/-! ### Ports -/

/-- What is seen of a device in one solved tick. A current flows into the device. -/
structure Ports (F : Type) where
  parameter : Nat → F
  timestep : F
  state : Nat → F
  next : Nat → F
  voltage : Nat → F
  current : Nat → F
  observed : Nat → F

/-- What the values are computed from. -/
structure Reading (F : Type) where
  parameter : Nat → F
  timestep : F
  state : Nat → F
  unknown : Nat → F

def Ports.reading (ports : Ports F) (unknown : Nat → F) : Reading F :=
  ⟨ports.parameter, ports.timestep, ports.state, unknown⟩

/-! ### Values -/

namespace LocalValueNode

def operands : LocalValueNode F → List Nat
  | .binary _ lhs rhs => [lhs.index, rhs.index]
  | .neg operand => [operand.index]
  | .iterationLatch initial => [initial.index]
  | _ => []

def isLatch : LocalValueNode F → Bool
  | .iterationLatch _ => true
  | _ => false

/-- The value of a node; a latch holds what it was given. -/
def eval [F64 F] (reading : Reading F) (values : Nat → F) (held : F) : LocalValueNode F → F
  | .parameter id => reading.parameter id.index
  | .constant value => value
  | .timestep => reading.timestep
  | .state id => reading.state id.index
  | .unknown id => reading.unknown id.index
  | .binary op lhs rhs => op.apply (values lhs.index) (values rhs.index)
  | .neg operand => F64.neg (values operand.index)
  | .iterationLatch _ => held

theorem eval_congr [F64 F] {reading : Reading F} {values values' : Nat → F} {held : F} {node : LocalValueNode F}
    (same : ∀ i ∈ node.operands, values i = values' i) :
    node.eval reading values held = node.eval reading values' held := by
  cases node <;> simp_all [eval, operands]

/-- A node that is no latch does not use what a latch would hold. -/
theorem eval_held [F64 F] {reading : Reading F} {values : Nat → F} {held held' : F} {node : LocalValueNode F}
    (noLatch : node.isLatch = false) : node.eval reading values held = node.eval reading values held' := by
  cases node <;> simp_all [eval, isLatch]

end LocalValueNode

section Values

variable [F64 F]

/-- Every value is what its node says; the nodes are numbered from `start`. -/
def EvaluatesFrom (reading : Reading F) (values : Nat → F) : Nat → List (LocalValueNode F) → Prop
  | _, [] => True
  | start, node :: nodes => values start = node.eval reading values (values start) ∧
      EvaluatesFrom reading values (start + 1) nodes

def Evaluates (nodes : List (LocalValueNode F)) (reading : Reading F) (values : Nat → F) : Prop :=
  EvaluatesFrom reading values 0 nodes

variable {reading : Reading F} {values values' held : Nat → F} {nodes more : List (LocalValueNode F)}

theorem evaluatesFrom_iff {start : Nat} : EvaluatesFrom reading values start nodes ↔
    ∀ i node, nodes[i]? = some node → values (start + i) = node.eval reading values (values (start + i)) := by
  induction nodes generalizing start with
  | nil => simp [EvaluatesFrom]
  | cons node nodes ih =>
    rw [EvaluatesFrom, ih]
    constructor
    · rintro ⟨first, rest⟩ i node' read
      cases i with
      | zero =>
        obtain rfl := Option.some.inj read
        exact first
      | succ i =>
        have := rest i node' read
        rwa [Nat.add_right_comm, Nat.add_assoc] at this
    · intro all
      refine ⟨all 0 node rfl, fun i node' read => ?_⟩
      have := all (i + 1) node' read
      rwa [← Nat.add_assoc, Nat.add_right_comm] at this

theorem evaluates_iff : Evaluates nodes reading values ↔
    ∀ i node, nodes[i]? = some node → values i = node.eval reading values (values i) := by
  simp [Evaluates, evaluatesFrom_iff]

theorem Evaluates.read (h : Evaluates nodes reading values) {i : Nat} {node : LocalValueNode F}
    (read : nodes[i]? = some node) : values i = node.eval reading values (values i) := evaluates_iff.mp h i node read

/-- The values of the nodes that were there before. -/
theorem Evaluates.of_append (h : Evaluates (nodes ++ more) reading values) : Evaluates nodes reading values :=
  evaluates_iff.mpr fun _ _ read => h.read (by rw [List.getElem?_append_left (List.getElem?_eq_some_iff.mp read).1, read])

/-- Every node is computed from earlier ones. -/
def Earlier (nodes : List (LocalValueNode F)) : Prop :=
  ∀ i node, nodes[i]? = some node → ∀ operand ∈ LocalValueNode.operands node, operand < i

/-- The nodes as a straight-line program: a node writes the place of its number. -/
def nodeMachine (reading : Reading F) : Machine (LocalValueNode F × Nat) Nat F where
  dest := Prod.snd
  reads o := o.1.operands
  eval o values := o.1.eval reading values F64.zero
  eval_congr _ _ _ same := LocalValueNode.eval_congr same

/-- The instructions; latches are given. -/
def nodeProgram (nodes : List (LocalValueNode F)) : List (LocalValueNode F × Nat) :=
  nodes.zipIdx.filter fun entry => !entry.1.isLatch

omit [F64 F] in
theorem mem_nodeProgram {entry : LocalValueNode F × Nat} :
    entry ∈ nodeProgram nodes ↔ nodes[entry.2]? = some entry.1 ∧ entry.1.isLatch = false := by
  simp [nodeProgram, List.mem_zipIdx_iff_getElem?]

theorem nodeProgram_ordered (earlier : Earlier nodes) : (nodeMachine reading).Ordered (nodeProgram nodes) := by
  have ascending : (nodeProgram nodes).Pairwise fun a b => a.2 < b.2 := by
    refine List.Pairwise.filter _ ?_
    rw [← List.pairwise_map (f := Prod.snd), List.zipIdx_map_snd]
    exact List.pairwise_lt_range'
  refine ⟨fun entry member own => ?_, ascending.imp_of_mem fun {a b} first _ below => ⟨fun reads => ?_, ?_⟩⟩
  · exact Nat.lt_irrefl _ (earlier _ _ (mem_nodeProgram.mp member).1 _ own)
  · have := earlier _ _ (mem_nodeProgram.mp first).1 _ reads
    exact Nat.lt_asymm below this
  · exact Nat.ne_of_gt below

theorem evaluates_iff_settled :
    Evaluates nodes reading values ↔ ∀ o ∈ nodeProgram nodes, (nodeMachine reading).Settled values o := by
  rw [evaluates_iff]
  constructor
  · intro all o member
    obtain ⟨read, noLatch⟩ := mem_nodeProgram.mp member
    exact (all o.2 o.1 read).trans (LocalValueNode.eval_held noLatch)
  · intro all i node read
    cases latch : node.isLatch with
    | true => cases node <;> simp_all [LocalValueNode.isLatch, LocalValueNode.eval]
    | false =>
      exact Eq.trans (all (node, i) (mem_nodeProgram.mpr ⟨read, latch⟩)) (LocalValueNode.eval_held latch)

/-- Latches can be given any values. -/
theorem exists_evaluates (earlier : Earlier nodes) (reading : Reading F) (held : Nat → F) :
    ∃ values, Evaluates nodes reading values ∧
      ∀ i node, nodes[i]? = some node → LocalValueNode.isLatch node = true → values i = held i := by
  refine ⟨(nodeMachine reading).run (nodeProgram nodes) held,
    evaluates_iff_settled.mpr (Machine.run_settled (nodeProgram_ordered earlier)), fun i node read latch => ?_⟩
  refine Machine.run_off fun o member same => ?_
  obtain ⟨read', noLatch⟩ := mem_nodeProgram.mp member
  rw [show o.2 = i from same, read] at read'
  obtain rfl := Option.some.inj read'
  rw [latch] at noLatch
  cases noLatch

/-- The ports, the unknowns and the latches determine the values. -/
theorem evaluates_unique (earlier : Earlier nodes) (h : Evaluates nodes reading values)
    (h' : Evaluates nodes reading values')
    (latches : ∀ i node, nodes[i]? = some node → LocalValueNode.isLatch node = true → values i = values' i) :
    ∀ i < nodes.length, values i = values' i := by
  refine Machine.settled_agree (nodeProgram_ordered earlier) (evaluates_iff_settled.mp h) (evaluates_iff_settled.mp h')
    (C := fun i => i < nodes.length) ?_ ?_
  · intro o member inside
    refine Or.inr fun i reads => ?_
    exact Nat.lt_trans (earlier _ _ (mem_nodeProgram.mp member).1 i reads) inside
  · intro i inside off
    refine latches i nodes[i] (List.getElem?_eq_getElem inside) ?_
    cases latch : nodes[i].isLatch with
    | true => rfl
    | false => exact absurd rfl (off (nodes[i], i) (mem_nodeProgram.mpr ⟨List.getElem?_eq_getElem inside, latch⟩))

end Values

/-! ### Stamps -/

/-- What a template says, whether it is still built or finished. -/
structure Stamps (F : Type) where
  unknowns : List LocalUnknownInfo
  nodes : List (LocalValueNode F)
  matrix : List (PendingMatrixTerm F)
  rhs : List (LocalRhsTerm F)
  writes : List (LocalStateId × LocalValueId)
  latches : List (LocalValueId × LocalValueId)
  outputs : List LocalValueId

def DefinitionTemplateBuilder.stamps (self : DefinitionTemplateBuilder F) : Stamps F where
  unknowns := self.unknowns
  nodes := self.values.map LocalValueInfo.node
  matrix := self.matrixTerms
  rhs := self.rhsTerms
  writes := self.stateWrites.zipIdx.filterMap fun entry => entry.1.map fun source => (⟨entry.2⟩, source)
  latches := self.iterationLatches.filterMap DefinitionTemplateBuilder.finishLatch
  outputs := self.outputs

/-- A finished term with the row and the column of its destination. -/
def LocalMatrixTerm.pending (entries : List LocalMatrixEntry) (term : LocalMatrixTerm F) : Option (PendingMatrixTerm F) :=
  entries[term.destination.index]?.map fun entry => ⟨entry.row, entry.column, term.source, term.scale⟩

def CompiledDefinitionTemplate.stamps (self : CompiledDefinitionTemplate F) : Stamps F where
  unknowns := self.unknowns
  nodes := self.values.map LocalValueInfo.node
  matrix := self.matrixTerms.filterMap (LocalMatrixTerm.pending self.matrixEntries)
  rhs := self.rhsTerms
  writes := self.stateWrites
  latches := self.iterationLatches
  outputs := self.outputs

namespace Stamps

section Meaning

variable [Field F]

/-- What the matrix makes of the unknowns in a set of rows. -/
def matrixTotal (stamps : Stamps F) (values unknown : Nat → F) (rows : Nat → Bool) : F :=
  total stamps.matrix (fun term => term.row.index)
    (fun term => values term.source.index * term.scale * unknown term.column.index) rows

def rhsTotal (stamps : Stamps F) (values : Nat → F) (rows : Nat → Bool) : F :=
  total stamps.rhs (fun term => term.destination.index) (fun term => values term.source.index * term.scale) rows

/-- The current into the device at a row; for the row of a branch, what is left of its equation. -/
def residual (stamps : Stamps F) (values unknown : Nat → F) (rows : Nat → Bool) : F :=
  stamps.matrixTotal values unknown rows - stamps.rhsTotal values rows

variable [F64 F]

/-- The equation of an unknown. -/
def RowHolds (stamps : Stamps F) (ports : Ports F) (values unknown : Nat → F) (entry : LocalUnknownInfo × Nat) : Prop :=
  match entry.1.binding with
  | .terminal t => unknown entry.2 = ports.voltage t ∧
      stamps.residual values unknown (fun row => decide (row = entry.2)) = ports.current t
  | .allocated _ => stamps.residual values unknown (fun row => decide (row = entry.2)) = 0

/-- The unknowns and values solve the template at the ports. Every latch is in the relation of its initial value,
what it holds and its update. -/
structure Solved (stamps : Stamps F) (latch : F → F → F → Prop) (ports : Ports F) (unknown values : Nat → F) : Prop where
  evaluates : Evaluates stamps.nodes (ports.reading unknown) values
  rows : ∀ entry ∈ stamps.unknowns.zipIdx, stamps.RowHolds ports values unknown entry
  latches : ∀ entry ∈ stamps.latches, ∀ initial, stamps.nodes[entry.1.index]? = some (.iterationLatch initial) →
    latch (values initial.index) (values entry.1.index) (values entry.2.index)
  writes : ∀ entry ∈ stamps.writes, ports.next entry.1.index = values entry.2.index
  outputs : ∀ entry ∈ stamps.outputs.zipIdx, ports.observed entry.2 = values entry.1.index

def Behaves (stamps : Stamps F) (latch : F → F → F → Prop) (ports : Ports F) : Prop :=
  ∃ unknown values, stamps.Solved latch ports unknown values

end Meaning

/-- The same but for the order of the terms and for terms added up. -/
structure Same [Field F] (stamps other : Stamps F) : Prop where
  unknowns : stamps.unknowns = other.unknowns
  nodes : stamps.nodes = other.nodes
  matrix : ∀ values unknown rows, stamps.matrixTotal values unknown rows = other.matrixTotal values unknown rows
  rhs : ∀ values rows, stamps.rhsTotal values rows = other.rhsTotal values rows
  writes : stamps.writes = other.writes
  latches : stamps.latches = other.latches
  outputs : stamps.outputs = other.outputs

namespace Same

variable [Field F] {stamps other : Stamps F}

theorem symm (h : Same stamps other) : Same other stamps :=
  ⟨h.unknowns.symm, h.nodes.symm, fun values unknown rows => (h.matrix values unknown rows).symm,
    fun values rows => (h.rhs values rows).symm, h.writes.symm, h.latches.symm, h.outputs.symm⟩

theorem residual (h : Same stamps other) (values unknown : Nat → F) (rows : Nat → Bool) :
    stamps.residual values unknown rows = other.residual values unknown rows := by
  rw [Stamps.residual, Stamps.residual, h.matrix, h.rhs]

variable [F64 F]

theorem solved (h : Same stamps other) {latch : F → F → F → Prop} {ports : Ports F} {unknown values : Nat → F}
    (solved : stamps.Solved latch ports unknown values) : other.Solved latch ports unknown values where
  evaluates := h.nodes ▸ solved.evaluates
  rows entry member := by
    have row := solved.rows entry (h.unknowns ▸ member)
    simp only [RowHolds] at row ⊢
    simpa only [h.residual] using row
  latches := h.latches ▸ h.nodes ▸ solved.latches
  writes := h.writes ▸ solved.writes
  outputs := h.outputs ▸ solved.outputs

theorem behaves (h : Same stamps other) {latch : F → F → F → Prop} {ports : Ports F} :
    stamps.Behaves latch ports ↔ other.Behaves latch ports := by
  constructor
  · exact fun ⟨unknown, values, solved⟩ => ⟨unknown, values, h.solved solved⟩
  · exact fun ⟨unknown, values, solved⟩ => ⟨unknown, values, h.symm.solved solved⟩

end Same

end Stamps

/-! ### Finishing -/

namespace DefinitionTemplateBuilder

theorem finishStateWrites_ok {requiresWrite : List (BitVec 64)} {entries : List (Option LocalValueId × Nat)}
    {written result : List (LocalStateId × LocalValueId)}
    (run : entries.foldlM (finishStateWrite requiresWrite) written = .ok result) :
    result = written ++ entries.filterMap fun entry => entry.1.map fun source => (⟨entry.2⟩, source) := by
  induction entries generalizing written with
  | nil =>
    obtain rfl := Except.ok.inj run
    simp
  | cons entry entries ih =>
    rw [List.foldlM_cons] at run
    obtain ⟨source, state⟩ := entry
    cases source with
    | some source =>
      have := ih run
      simpa using this
    | none =>
      unfold finishStateWrite at run
      dsimp only at run
      split at run
      · cases run
      · have := ih run
        simpa using this

theorem matrixCoordinates_mem {terms : List (PendingMatrixTerm F)} {term : PendingMatrixTerm F} (member : term ∈ terms) :
    matrixCoordinate term ∈ matrixCoordinates terms := by
  rw [matrixCoordinates, PatternBuilder.mem_dedup]
  exact ((terms.map matrixCoordinate).mergeSort_perm _).mem_iff.mpr (List.mem_map_of_mem member)

theorem localMatrixTerm_ok {coordinates : List (Nat × Nat)} {term : PendingMatrixTerm F} {value : LocalMatrixTerm F}
    {state after : DefinitionTemplateBuilder F} (run : localMatrixTerm coordinates term state = .ok value after) :
    after = state ∧ value.pending (coordinates.map matrixEntry) = some term := by
  obtain ⟨index, mid, found, run⟩ := Call.bind_eq_ok run
  obtain ⟨place, same⟩ := Call.expect_eq_ok found
  subst mid
  obtain ⟨_, mid, small, run⟩ := Call.bind_eq_ok run
  obtain ⟨-, same⟩ := Call.rejectIf_eq_ok small
  subst mid
  obtain ⟨rfl, rfl⟩ := Outcome.ok.inj run
  obtain ⟨inside, here, -⟩ := List.findIdx?_eq_some_iff_getElem.mp place
  have coordinate := of_decide_eq_true here
  refine ⟨rfl, ?_⟩
  simp [LocalMatrixTerm.pending, matrixEntry, inside, coordinate, matrixCoordinate]

/-- What the entries say of the destinations of the finished terms is what the terms said. -/
theorem localMatrixTerms_ok {coordinates : List (Nat × Nat)} {terms : List (PendingMatrixTerm F)}
    {localTerms : List (LocalMatrixTerm F)} {before after : DefinitionTemplateBuilder F}
    (run : Call.pushEach (fun _ term => localMatrixTerm coordinates term) [] terms before = .ok localTerms after) :
    localTerms.filterMap (LocalMatrixTerm.pending (coordinates.map matrixEntry)) = terms := by
  refine Call.pushEach_ok (fun seen done _ =>
    done.filterMap (LocalMatrixTerm.pending (coordinates.map matrixEntry)) = seen) ?_ rfl run
  intro seen term rest done value state after split kept step
  rw [List.filterMap_append, kept, List.filterMap_cons_some (localMatrixTerm_ok step).2, List.filterMap_nil]

theorem finishLatches_ok {entries : List (LocalValueId × Option LocalValueId)}
    {latches : List (LocalValueId × LocalValueId)} (run : entries.mapM finishLatch = some latches) :
    latches = entries.filterMap finishLatch := by
  induction entries generalizing latches with
  | nil =>
    obtain rfl := Option.some.inj run
    rfl
  | cons entry entries ih =>
    rw [List.mapM_cons] at run
    obtain ⟨first, isFirst, run⟩ := Option.bind_eq_some_iff.mp run
    obtain ⟨rest, isRest, run⟩ := Option.bind_eq_some_iff.mp run
    obtain rfl := Option.some.inj run
    rw [List.filterMap_cons_some isFirst, ih isRest]

variable [Field F] [F64 F]

/-- A scale of zero adds nothing. -/
theorem total_unlessZero (exact : F64.ExactField F) {α : Type} {scale : F} {item : α} {place : α → Nat}
    {amount : α → F} {rows : Nat → Bool} (scaled : scale = 0 → amount item = 0) :
    total (unlessZero scale item) place amount rows = total [item] place amount rows := by
  unfold unlessZero
  split
  · rename_i zero
    rw [exact.beq_iff, exact.zero] at zero
    simp [scaled zero]
  · rfl

/-- A finished template says what the builder said. -/
theorem finish_ok (exact : F64.ExactField F) {self after : DefinitionTemplateBuilder F}
    {template : CompiledDefinitionTemplate F} (run : finish self = .ok template after) :
    template.stamps.Same self.stamps ∧ template.stateCount = self.stateWrites.length ∧
      template.parameterCount = self.parameterCount ∧ template.terminalCount = self.terminalCount ∧
      template.allocatedUnknownCount = self.allocatedUnknownCount ∧ template.values = self.values := by
  unfold finish at run
  rw [Call.get_bind] at run
  obtain ⟨matrixTerms, s₁, isMatrix, run⟩ := Call.bind_eq_ok run
  obtain ⟨rhsTerms, s₂, isRhs, run⟩ := Call.bind_eq_ok run
  obtain ⟨dependencies, s₃, -, run⟩ := Call.bind_eq_ok run
  obtain ⟨writes, s₄, isWrites, run⟩ := Call.bind_eq_ok run
  obtain ⟨localTerms, s₅, isTerms, run⟩ := Call.bind_eq_ok run
  obtain ⟨latches, s₆, isLatches, run⟩ := Call.bind_eq_ok run
  obtain ⟨rfl, -⟩ := Outcome.ok.inj run
  rw [canonicalizePendingMatrixTerms, canonicalizeInPlace_eq] at isMatrix
  rw [canonicalizeRhsTerms, canonicalizeInPlace_eq] at isRhs
  obtain ⟨rfl, -⟩ := Outcome.ok.inj isMatrix
  obtain ⟨rfl, -⟩ := Outcome.ok.inj isRhs
  obtain ⟨writes', -⟩ := Call.ofExcept_eq_ok isWrites
  have updated := finishLatches_ok (Call.expect_eq_ok isLatches).1
  have zero : ∀ x : F, F64.beq x F64.zero = true → x = 0 := by
    intro x
    rw [exact.beq_iff, exact.zero]
    exact id
  refine ⟨⟨rfl, rfl, fun values unknown rows => ?_, fun values rows => ?_, ?_, updated, rfl⟩, rfl, rfl, rfl, rfl, rfl⟩
  · simp only [Stamps.matrixTotal, CompiledDefinitionTemplate.stamps, DefinitionTemplateBuilder.stamps,
      localMatrixTerms_ok isTerms]
    refine sum_canonicalize (fun term isZero => ?_) (fun a b same => ?_) _
    · simp [zero _ isZero]
    · simp only [List.cons.injEq, and_true] at same
      obtain ⟨column, row, source⟩ := same
      simp only [row, column, source, exact.add]
      split
      · ring
      · simp
  · simp only [Stamps.rhsTotal, CompiledDefinitionTemplate.stamps, DefinitionTemplateBuilder.stamps]
    refine sum_canonicalize (fun term isZero => ?_) (fun a b same => ?_) _
    · simp [zero _ isZero]
    · simp only [List.cons.injEq, and_true] at same
      obtain ⟨destination, source⟩ := same
      simp only [destination, source, exact.add]
      split
      · ring
      · simp
  · simpa [CompiledDefinitionTemplate.stamps, DefinitionTemplateBuilder.stamps] using finishStateWrites_ok writes'

end DefinitionTemplateBuilder

end Hynergy
