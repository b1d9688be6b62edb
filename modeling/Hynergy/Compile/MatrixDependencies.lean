import Hynergy.Compile.TemplateMeaning
import Hynergy.Lib.Exploration

/-!
# What the matrix of a template depends on

The parameters and the timestep that the compiler marks are those that a source of the matrix is computed from, so
what is not marked leaves the matrix as it is.
-/

namespace Hynergy

open Lib

variable {F : Type}

theorem hasBit_eq_marked (words : List (BitVec 64)) (i : Nat) : hasBit words i = marked words i := by
  unfold hasBit marked
  cases words[i / 64]? with
  | none => rfl
  | some word =>
    dsimp only
    rw [Bool.eq_iff_iff, decide_eq_true_eq]
    exact and_bit_ne_zero (Nat.mod_lt _ (by decide)) word

/-- What the value of a number is computed from. -/
def operandsAt (nodes : List (LocalValueNode F)) (i : Nat) : List Nat :=
  (nodes[i]?.map LocalValueNode.operands).getD []

/-- A source depends on a node. -/
def DependsOn (nodes : List (LocalValueNode F)) (sources : List Nat) (node : LocalValueNode F) : Prop :=
  ∃ i, Reaches (operandsAt nodes) sources i ∧ nodes[i]? = some node

/-- The nodes compute from nodes that are there, and their parameters are counted. -/
structure Bounded (nodes : List (LocalValueNode F)) (parameterCount : Nat) : Prop where
  operands : ∀ node ∈ nodes, ∀ operand ∈ node.operands, operand < nodes.length
  parameters : ∀ id, LocalValueNode.parameter id ∈ nodes → id.index < parameterCount

/-- What the rounds have visited and marked so far. -/
structure Scanned (nodes : List (LocalValueNode F)) (sources pending : List Nat) (visited : List Bool)
    (parameters : List (BitVec 64)) (timestep : Bool) : Prop where
  explored : Explored (operandsAt nodes) sources pending fun i => visited[i]? = some true
  length : visited.length = nodes.length
  inside : ∀ i ∈ pending, i < nodes.length
  marks : ∀ p : Nat, marked parameters p = true ↔
    ∃ i : Nat, visited[i]? = some true ∧ nodes[i]? = some (LocalValueNode.parameter ⟨p⟩)
  ticks : timestep = true ↔ ∃ i : Nat, visited[i]? = some true ∧ nodes[i]? = some LocalValueNode.timestep

namespace Scanned

variable {nodes : List (LocalValueNode F)} {sources pending pending' : List Nat} {visited : List Bool}
  {parameters parameters' : List (BitVec 64)} {timestep timestep' : Bool} {i : Nat} {node : LocalValueNode F}

theorem visited_set (inside : i < visited.length) (j : Nat) :
    (visited.set i true)[j]? = some true ↔ visited[j]? = some true ∨ j = i := by
  rw [List.getElem?_set]
  split
  · rename_i same
    simp [same, same ▸ inside]
  · rename_i other
    simp [Ne.symm other]

/-- A node is visited: its operands wait, and it is marked if it is a parameter or the timestep. -/
theorem visit (h : Scanned nodes sources (i :: pending) visited parameters timestep) (read : nodes[i]? = some node)
    (joined : ∀ j, j ∈ pending' ↔ j ∈ node.operands ∨ j ∈ pending) (inside : ∀ j ∈ node.operands, j < nodes.length)
    (marks : ∀ p, marked parameters' p = true ↔ marked parameters p = true ∨ node = .parameter ⟨p⟩)
    (ticks : timestep' = true ↔ timestep = true ∨ node = .timestep) :
    Scanned nodes sources pending' (visited.set i true) parameters' timestep' := by
  have here : i < visited.length := h.length ▸ (List.getElem?_eq_some_iff.mp read).1
  have each : ∀ (kind : LocalValueNode F), (∃ j : Nat, (visited.set i true)[j]? = some true ∧ nodes[j]? = some kind) ↔
      (∃ j : Nat, visited[j]? = some true ∧ nodes[j]? = some kind) ∨ node = kind := by
    intro kind
    simp only [visited_set here, or_and_right, exists_or, exists_eq_left, read, Option.some.injEq]
  refine ⟨h.explored.visit (visited_set here) fun j => ?_, by rw [List.length_set, h.length], fun j member => ?_,
    fun p => ?_, ?_⟩
  · rw [joined, operandsAt, read]
    rfl
  · rcases (joined j).mp member with operand | waits
    · exact inside j operand
    · exact h.inside j (List.mem_cons_of_mem _ waits)
  · rw [marks, h.marks, each]
  · rw [ticks, h.ticks, each]

end Scanned

/-- The rounds end, with what the sources depend on marked. -/
theorem staticDependencies_scans {values : List (LocalValueInfo F)} {sources : List Nat} {wordCount : Nat}
    (bounded : Bounded (values.map LocalValueInfo.node) (wordCount * 64)) (fuel : Nat) (pending : List LocalValueId)
    (visited : List Bool) (parameters : List (BitVec 64)) (timestep : Bool)
    (scanned : Scanned (values.map LocalValueInfo.node) sources (pending.map ValueSlot.index) visited parameters timestep)
    (words : parameters.length = wordCount) (enough : pending.length + 2 * visited.count false < fuel) :
    ∃ words ticks, staticDependencies values fuel pending visited parameters timestep = some (words, ticks) ∧
      (∀ p, hasBit words p = true ↔ DependsOn (values.map LocalValueInfo.node) sources (.parameter ⟨p⟩)) ∧
      (ticks = true ↔ DependsOn (values.map LocalValueInfo.node) sources .timestep) := by
  induction fuel generalizing pending visited parameters timestep with
  | zero => omega
  | succ fuel ih =>
    cases pending with
    | nil =>
      refine ⟨parameters, timestep, rfl, fun p => ?_, ?_⟩
      · rw [hasBit_eq_marked, scanned.marks]
        exact exists_congr fun i => and_congr_left fun _ => scanned.explored.done
      · rw [scanned.ticks]
        exact exists_congr fun i => and_congr_left fun _ => scanned.explored.done
    | cons value pending =>
      have inside : value.index < values.length := by
        simpa using scanned.inside value.index (by simp)
      have within : value.index < visited.length := by
        rw [scanned.length, List.length_map]
        exact inside
      rw [List.length_cons] at enough
      unfold staticDependencies
      simp only [List.getElem?_eq_getElem within, List.getElem?_eq_getElem inside, Option.bind_eq_bind, Option.bind_some]
      split
      · rename_i seen
        have known : visited[value.index]? = some true := by rw [List.getElem?_eq_getElem within, seen]
        refine ih pending visited parameters timestep ⟨scanned.explored.skip known, scanned.length,
          fun i member => scanned.inside i (List.mem_cons_of_mem _ member), scanned.marks, scanned.ticks⟩ words ?_
        omega
      · rename_i unseen
        have fewer : (visited.set value.index true).count false + 1 = visited.count false := by
          have counted := List.count_set (a := true) (b := false) within
          have positive : 0 < visited.count false := by
            refine List.count_pos_iff.mpr (List.mem_iff_getElem.mpr ⟨value.index, within, ?_⟩)
            simpa using unseen
          simp only [Bool.not_eq_true] at unseen
          simp [unseen] at counted
          omega
        have read : (values.map LocalValueInfo.node)[value.index]? = some values[value.index].node := by
          simp [List.getElem?_eq_getElem inside]
        have member := List.mem_of_getElem? read
        have operands := bounded.operands _ member
        -- a node that is no mark only makes its operands wait
        have plain : ∀ pending' : List LocalValueId,
            (∀ j, j ∈ pending'.map ValueSlot.index ↔ j ∈ values[value.index].node.operands ∨ j ∈ pending.map ValueSlot.index) →
            pending'.length ≤ pending.length + 2 → (∀ id, values[value.index].node ≠ .parameter id) →
            values[value.index].node ≠ .timestep →
            ∃ words ticks,
              staticDependencies values fuel pending' (visited.set value.index true) parameters timestep = some (words, ticks) ∧
                (∀ p, hasBit words p = true ↔ DependsOn (values.map LocalValueInfo.node) sources (.parameter ⟨p⟩)) ∧
                (ticks = true ↔ DependsOn (values.map LocalValueInfo.node) sources .timestep) := by
          intro pending' joined short noParameter noTimestep
          refine ih pending' _ parameters timestep (scanned.visit read joined operands (fun p => ?_) ?_) words (by omega)
          · exact (or_iff_left (noParameter _)).symm
          · exact (or_iff_left noTimestep).symm
        cases isNode : values[value.index].node with
        | parameter id =>
          have counted : id.index < wordCount * 64 := bounded.parameters id (isNode ▸ member)
          have word : id.index / 64 < parameters.length := by omega
          simp only [List.getElem?_eq_getElem word, Option.bind_some]
          refine ih pending _ _ timestep (scanned.visit read (fun j => ?_) operands (fun p => ?_) ?_) (by simp [words]) (by omega)
          · simp [isNode, LocalValueNode.operands]
          · rw [marked_or (List.getElem?_eq_getElem word)]
            rw [Bool.or_eq_true, decide_eq_true_eq, isNode, LocalValueNode.parameter.injEq]
            exact or_congr_right ⟨fun same => same ▸ rfl, fun same => congrArg LocalParameterId.index same.symm⟩
          · simp [isNode]
        | timestep =>
          refine ih pending _ parameters true (scanned.visit read (fun j => ?_) operands (fun p => ?_) ?_) words (by omega)
          · simp [isNode, LocalValueNode.operands]
          · simp [isNode]
          · simp [isNode]
        | binary op lhs rhs =>
          refine plain (rhs :: lhs :: pending) (fun j => ?_) (by simp) (by simp [isNode]) (by simp [isNode])
          simp [isNode, LocalValueNode.operands]
          tauto
        | iterationLatch initial =>
          exact plain (initial :: pending) (by simp [isNode, LocalValueNode.operands]) (by simp) (by simp [isNode]) (by simp [isNode])
        | neg operand =>
          exact plain (operand :: pending) (by simp [isNode, LocalValueNode.operands]) (by simp) (by simp [isNode]) (by simp [isNode])
        | constant _ | state _ | unknown _ =>
          exact plain pending (by simp [isNode, LocalValueNode.operands]) (by simp) (by simp [isNode]) (by simp [isNode])

/-- The compiler marks the parameters and the timestep that the sources of the matrix depend on. -/
theorem matrixStaticDependencies_spec {values : List (LocalValueInfo F)} {terms : List (PendingMatrixTerm F)}
    {parameterCount : Nat} (bounded : Bounded (values.map LocalValueInfo.node) parameterCount)
    (inside : ∀ term ∈ terms, term.source.index < values.length) :
    ∃ words ticks, matrixStaticDependencies values terms parameterCount = some (words, ticks) ∧
      (∀ p, hasBit words p = true ↔
        DependsOn (values.map LocalValueInfo.node) (terms.map (·.source.index)) (.parameter ⟨p⟩)) ∧
      (ticks = true ↔ DependsOn (values.map LocalValueInfo.node) (terms.map (·.source.index)) .timestep) := by
  have unvisited : ∀ i : Nat, (List.replicate values.length false)[i]? ≠ some true := by
    intro i
    rw [List.getElem?_replicate]
    split <;> simp
  have waiting : ∀ i, i ∈ (terms.map PendingMatrixTerm.source).reverse.map ValueSlot.index ↔
      i ∈ terms.map (·.source.index) := by
    simp
  have nothing : (fun i : Nat => (List.replicate values.length false)[i]? = some true) = fun _ => False :=
    funext fun i => eq_false (unvisited i)
  have counted : Bounded (values.map LocalValueInfo.node)
      ((parameterCount / 64 + if parameterCount % 64 = 0 then 0 else 1) * 64) := by
    refine ⟨bounded.operands, fun id member => ?_⟩
    have := bounded.parameters id member
    split <;> omega
  refine staticDependencies_scans counted _ _ _ _ _ ⟨nothing ▸ Explored.start waiting, by simp, ?_, fun p => ?_, ?_⟩
    List.length_replicate ?_
  · intro i member
    obtain ⟨term, listed, rfl⟩ := List.mem_map.mp ((waiting i).mp member)
    simpa using inside term listed
  · rw [marked_replicate]
    simp [unvisited]
  · simp [unvisited]
  · simp

section Unchanged

variable [F64 F] {nodes : List (LocalValueNode F)} {sources : List Nat} {reading reading' : Reading F}
  {values values' : Nat → F}

/-- Inputs that agree on all that the sources depend on. -/
structure SameInputs (nodes : List (LocalValueNode F)) (sources : List Nat) (reading reading' : Reading F) : Prop where
  parameter : ∀ p, DependsOn nodes sources (.parameter ⟨p⟩) → reading.parameter p = reading'.parameter p
  timestep : DependsOn nodes sources .timestep → reading.timestep = reading'.timestep
  state : ∀ s, reading.state s = reading'.state s
  unknown : ∀ u, reading.unknown u = reading'.unknown u

/-- What the sources do not depend on can change without changing them. -/
theorem sources_unchanged (earlier : Earlier nodes) (h : Evaluates nodes reading values)
    (h' : Evaluates nodes reading' values') (same : SameInputs nodes sources reading reading')
    (latches : ∀ i node, nodes[i]? = some node → LocalValueNode.isLatch node = true → values i = values' i)
    (inside : ∀ i ∈ sources, i < nodes.length) : ∀ i ∈ sources, values i = values' i := by
  have reached : ∀ i, i < nodes.length → Reaches (operandsAt nodes) sources i → values i = values' i := by
    intro i
    induction i using Nat.strong_induction_on with
    | _ i ih =>
      intro below reaches
      have read := List.getElem?_eq_getElem below
      have operands : ∀ operand ∈ nodes[i].operands, values operand = values' operand := by
        intro operand member
        have lower := earlier i _ read operand member
        exact ih operand lower (lower.trans below) (reaches.step (by simpa [operandsAt, read] using member))
      have depends : DependsOn nodes sources nodes[i] := ⟨i, reaches, read⟩
      cases latch : nodes[i].isLatch with
      | true => exact latches i _ read latch
      | false =>
        rw [h.read read, h'.read read, LocalValueNode.eval_congr operands, LocalValueNode.eval_held latch]
        cases isNode : nodes[i] with
        | parameter id => exact same.parameter id.index (isNode ▸ depends)
        | timestep => exact same.timestep (isNode ▸ depends)
        | state id => exact same.state id.index
        | unknown id => exact same.unknown id.index
        | constant _ | binary _ _ _ | neg _ | iterationLatch _ => rfl
  exact fun i member => reached i (inside i member) (.start member)

end Unchanged

end Hynergy
