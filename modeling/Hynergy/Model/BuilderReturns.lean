import Hynergy.Model.Instances
import Hynergy.Model.UnionFind

/-!
# A builder does not panic

What a builder was given fits its nodes and parameters, and what its children observe is in their
partitions. So no call on a builder panics, and neither does building the definition.
-/

namespace Hynergy

open Lib Relation

variable {F : Type}

namespace DeviceDefinitionBuilder

/-! ### Loops that return -/

section Derive

variable {α β : Type}

theorem Derive.bind_returns {step : Derive α} {next : α → Derive β} (h : step ≠ none)
    (rest : ∀ a, step = some (.ok a) → next a ≠ none) : Derive.bind step next ≠ none := by
  cases step with
  | none => exact absurd rfl h
  | some result =>
    cases result with
    | error error => exact Option.some_ne_none _
    | ok a => exact rest a rfl

theorem Derive.fold_returns {f : β → α → Derive β} (inv : List α → β → Prop) {list : List α} {s : β} (start : inv [] s)
    (step : ∀ done a rest s, list = done ++ a :: rest → inv done s →
      f s a ≠ none ∧ ∀ t, f s a = some (.ok t) → inv (done ++ [a]) t) : Derive.fold f s list ≠ none := by
  suffices ∀ rest done s, list = done ++ rest → inv done s → Derive.fold f s rest ≠ none from this list [] s rfl start
  intro rest
  induction rest with
  | nil => exact fun _ _ _ _ => Option.some_ne_none _
  | cons a rest ih =>
    intro done s split holds
    obtain ⟨returns, kept⟩ := step done a rest s split holds
    refine Derive.bind_returns returns fun t taken => ih (done ++ [a]) t ?_ (kept t taken)
    rw [split, List.append_assoc, List.singleton_append]

end Derive

/-! ### What a builder holds -/

/-- An element that is placed on nodes below the count, one for each terminal of its definition. -/
structure Placed (registry : DefinitionRegistry F) (nodeCount : Nat) (element : Element F) : Prop where
  terminals : ∃ child, registry.get element.definition = some child ∧ element.terminals.length = child.terminals.length
  nodes : ∀ node ∈ element.terminals, node.index < nodeCount

/-- What an observer reads is there. -/
def Observable (builder : DeviceDefinitionBuilder F) : DefinitionObserverSource → Prop
  | .voltage positive negative => positive.index < builder.nodeCount ∧ negative.index < builder.nodeCount
  | .current _ _ => False
  | .child element observer => ∃ inner child observed, builder.elements[element.index]? = some inner ∧
      builder.registry.get inner.definition = some child ∧ child.observer observer = some observed

structure Fits (builder : DeviceDefinitionBuilder F) : Prop where
  nodes : builder.nodeCount < 2 ^ 32
  parameters : builder.paramConstraints.length ≤ 2 ^ 32
  terminals : ∀ terminal ∈ builder.terminals, terminal.index < builder.nodeCount
  elements : ∀ element ∈ builder.elements, Placed builder.registry builder.nodeCount element
  observers : ∀ pending ∈ builder.observers, builder.Observable pending.source

theorem Observable.congr {self next : DeviceDefinitionBuilder F} (registry : next.registry = self.registry)
    (nodes : self.nodeCount ≤ next.nodeCount) (elements : ∃ more, next.elements = self.elements ++ more)
    {source : DefinitionObserverSource} (h : self.Observable source) : next.Observable source := by
  cases source with
  | voltage positive negative => exact ⟨h.1.trans_le nodes, h.2.trans_le nodes⟩
  | current positive negative => exact h
  | child element observer =>
    obtain ⟨inner, child, observed, read, known, found⟩ := h
    obtain ⟨more, grown⟩ := elements
    refine ⟨inner, child, observed, ?_, registry ▸ known, found⟩
    rw [grown, List.getElem?_append_left (List.getElem?_eq_some_iff.mp read).1, read]

theorem Fits.withNode {self : DeviceDefinitionBuilder F} (h : self.Fits) (small : self.nodeCount + 1 < 2 ^ 32) :
    ({ self with nodeCount := self.nodeCount + 1 } : DeviceDefinitionBuilder F).Fits := by
  refine ⟨small, h.parameters, fun terminal member => (h.terminals terminal member).trans (Nat.lt_succ_self _),
    fun element member => ?_, fun pending member => ?_⟩
  · obtain ⟨terminals, nodes⟩ := h.elements element member
    exact ⟨terminals, fun node inside => (nodes node inside).trans (Nat.lt_succ_self _)⟩
  · refine Observable.congr ?_ ?_ ⟨[], ?_⟩ (h.observers pending member)
    · rfl
    · exact Nat.le_succ _
    · exact (List.append_nil _).symm

open Call (Preserves Total)

theorem allocateNode_keepsFits : ∀ self : DeviceDefinitionBuilder F, self.Fits →
    (allocateNode self).Meets True (fun node after => after.Fits ∧ node.index < after.nodeCount)
      fun _ after => after.Fits := by
  intro self fits
  unfold allocateNode
  rw [Call.get_bind]
  cases found : (Id.ofIndex? self.nodeCount : Option NodeId) with
  | none => exact fits
  | some node =>
    dsimp only
    by_cases full : 2 ^ 32 ≤ self.nodeCount + 1
    · rw [Call.rejectIf_bind_pos full]
      exact fits
    · rw [Call.rejectIf_bind_neg full, Call.set_bind]
      refine ⟨fits.withNode (by omega), ?_⟩
      have here : node.index = self.nodeCount := Id.ofIndex?_eq_some.mp found
      exact here ▸ Nat.lt_succ_self _

theorem allocateNode_total : Total (allocateNode : Build F NodeId) := by
  refine .get_bind fun self => ?_
  split
  · exact .throw _
  · exact (Total.rejectIf _ _).bind fun _ => (Total.set _).bind fun _ => .pure _

theorem pushObserver_keepsFits {pending : PendingDefinitionObserver} {self : DeviceDefinitionBuilder F} (fits : self.Fits)
    (observable : self.Observable pending.source) :
    (pushObserver pending self).Meets True (fun _ after => after.Fits) fun _ after => after.Fits := by
  unfold pushObserver
  rw [Call.get_bind]
  cases (Id.ofIndex? self.observers.length : Option DefinitionObserverId) with
  | none => exact fits
  | some id =>
    rw [Call.okOr_some_bind, Call.set_bind]
    refine ⟨fits.nodes, fits.parameters, fits.terminals, fits.elements, fun other member => ?_⟩
    have kept : ∀ {source : DefinitionObserverSource}, self.Observable source →
        ({ self with observers := self.observers ++ [pending] } : DeviceDefinitionBuilder F).Observable source :=
      fun here => Observable.congr rfl (Nat.le_refl self.nodeCount) ⟨[], (List.append_nil self.elements).symm⟩ here
    rcases List.mem_append.mp member with earlier | last
    · exact kept (fits.observers other earlier)
    · obtain rfl := List.mem_singleton.mp last
      exact kept observable

theorem pushObserver_total (pending : PendingDefinitionObserver) :
    Total (pushObserver pending : Build F DefinitionObserverId) :=
  .get_bind fun _ => (Total.okOr _ _).bind fun _ => (Total.set _).bind fun _ => .pure _

section Operations

variable [F64 F]

theorem validateElement_total (element : Element F) : Total (validateElement element) := by
  refine .get_bind fun self => (Total.okOr _ _).bind fun definition => (Total.rejectIf _ _).bind fun _ =>
    (Total.rejectIf _ _).bind fun _ => (Total.forM fun _ => .rejectIf _ _).bind fun _ =>
    (Total.forM fun _ => .get_bind fun _ => ?_).bind fun _ => ?_
  · split
    · exact .ofExcept _ _
    · exact (Total.okOr _ _).bind fun _ => .rejectIf _ _
  · split
    · exact .pure _
    · split
      · exact .pure _
      · exact .ofExcept _ _

theorem validateElement_placed {element : Element F} {self after : DeviceDefinitionBuilder F} {value : Unit}
    (run : validateElement element self = .ok value after) : Placed self.registry self.nodeCount element := by
  unfold validateElement at run
  rw [Call.get_bind] at run
  obtain ⟨child, s₁, found, run⟩ := Call.bind_eq_ok run
  obtain ⟨known, same⟩ := Call.okOr_eq_ok found
  subst s₁
  obtain ⟨_, s₂, terminals, run⟩ := Call.bind_eq_ok run
  obtain ⟨length, same⟩ := Call.rejectIf_eq_ok terminals
  subst s₂
  obtain ⟨_, s₃, counted, run⟩ := Call.bind_eq_ok run
  obtain ⟨-, same⟩ := Call.rejectIf_eq_ok counted
  subst s₃
  obtain ⟨_, s₄, nodes, run⟩ := Call.bind_eq_ok run
  obtain ⟨-, below⟩ := Call.forM_eq_ok (P := fun item : NodeId × Nat => item.1.index < self.nodeCount)
    (fun item v after ok => ⟨(Call.rejectIf_eq_ok ok).2, Nat.not_le.mp (Call.rejectIf_eq_ok ok).1⟩) nodes
  refine ⟨⟨child, known, by simpa using length⟩, fun node member => ?_⟩
  obtain ⟨index, read⟩ := List.mem_iff_getElem?.mp member
  exact below (node, index) (List.mem_zipIdx_iff_getElem?.mpr read)

theorem addElement_keepsFits (element : Element F) : Preserves Fits (addElement element) := by
  intro self fits
  refine Call.meets_bind ?_
  have keeps := @validateElement_keeps F _ (fun after => after = self) element self rfl
  cases run : validateElement element self with
  | ok value after =>
    have placed := validateElement_placed run
    rw [run] at keeps
    obtain rfl : after = self := keeps
    show ((Call.get >>= _) after).Meets True _ _
    rw [Call.get_bind]
    cases (Id.ofIndex? after.elements.length : Option (Id .element)) with
    | none => exact fits
    | some id =>
      rw [Call.okOr_some_bind, Call.set_bind]
      refine ⟨fits.nodes, fits.parameters, fits.terminals, fun other member => ?_, fun pending member => ?_⟩
      · rcases List.mem_append.mp member with earlier | last
        · exact fits.elements other earlier
        · obtain rfl := List.mem_singleton.mp last
          exact placed
      · exact Observable.congr (by rfl) (by exact Nat.le_refl _) ⟨[element], by rfl⟩ (fits.observers pending member)
  | err error after =>
    rw [run] at keeps
    obtain rfl : after = self := keeps
    exact fits
  | panic => exact trivial

theorem Operation.apply_keepsFits (operation : Operation F) : Preserves Fits operation.apply := by
  have allocates : Preserves Fits (allocateNode : Build F NodeId) := fun self fits =>
    (allocateNode_keepsFits self fits).mono id (fun _ _ h => h.1) fun _ _ h => h
  cases operation with
  | addNode => exact allocates.bind fun _ => .pure _
  | addTerminal =>
    refine .bind ?_ fun _ => .pure _
    intro self fits
    refine Call.meets_bind ((allocateNode_keepsFits self fits).mono id ?_ fun _ _ h => h)
    rintro node after ⟨fits, below⟩
    refine ⟨fits.nodes, fits.parameters, fun terminal member => ?_, fits.elements, fun pending member => ?_⟩
    · rcases List.mem_append.mp member with earlier | last
      · exact fits.terminals terminal earlier
      · exact List.mem_singleton.mp last ▸ below
    · exact Observable.congr rfl (Nat.le_refl after.nodeCount) ⟨[], (List.append_nil after.elements).symm⟩
        (fits.observers pending member)
  | addParameter parameter =>
    refine .bind ?_ fun _ => .pure _
    refine .get_bind fun self fits => Preserves.okOr_bind fun id found => .bind (.set ?_) fun _ => .pure _
    refine ⟨fits.nodes, ?_, fits.terminals, fits.elements, fun pending member => ?_⟩
    · have small : id.id < 2 ^ 32 := id.fits
      have here : id.index = self.paramConstraints.length := Id.ofIndex?_eq_some.mp found
      have same : id.id = id.index := rfl
      rw [List.length_append, List.length_singleton]
      omega
    · exact Observable.congr rfl (Nat.le_refl self.nodeCount) ⟨[], (List.append_nil self.elements).symm⟩
        (fits.observers pending member)
  | addElement element => exact (addElement_keepsFits element).bind fun _ => .pure _
  | addVoltageObserver positive negative =>
    refine .bind ?_ fun _ => .pure _
    intro self fits
    have validates : ∀ node : NodeId, (validateObserverNode node self).Meets True
        (fun _ after => after = self ∧ node.index < self.nodeCount) fun _ after => after = self := by
      intro node
      show ((Call.rejectIf (node.id ≥ self.nodeCount) _ : Build F Unit) self).Meets True _ _
      unfold Call.rejectIf
      split
      · exact rfl
      · exact ⟨rfl, Nat.not_le.mp ‹_›⟩
    refine Call.meets_bind ((validates positive).mono id ?_ fun _ _ same => same ▸ fits)
    rintro _ _ ⟨rfl, first⟩
    refine Call.meets_bind ((validates negative).mono id ?_ fun _ _ same => same ▸ fits)
    rintro _ _ ⟨rfl, second⟩
    exact pushObserver_keepsFits fits ⟨first, second⟩
  | addChildObserver element observer =>
    refine .bind ?_ fun _ => .pure _
    intro self fits
    unfold DeviceDefinitionBuilder.addChildObserver
    rw [Call.get_bind]
    cases read : self.elements[element.index]? with
    | none => exact fits
    | some inner =>
      rw [Call.okOr_some_bind]
      cases known : self.registry.get inner.definition with
      | none => exact trivial
      | some child =>
        rw [Call.expect_some_bind]
        cases found : child.observer observer with
        | none => exact fits
        | some observed =>
          rw [Call.okOr_some_bind]
          exact pushObserver_keepsFits fits ⟨inner, child, observed, read, known, found⟩

theorem Reached.fits {base : DefinitionRegistry F} {builder : DeviceDefinitionBuilder F} (reached : Reached base builder) :
    builder.Fits := by
  induction reached with
  | new =>
    exact ⟨Nat.two_pow_pos 32, Nat.zero_le _, fun _ member => absurd member List.not_mem_nil,
      fun _ member => absurd member List.not_mem_nil, fun _ member => absurd member List.not_mem_nil⟩
  | call _ operation leaves ih => exact operation.apply_keepsFits.leaves ih leaves

/-- No call on a builder panics. -/
theorem Fits.apply_returns {self : DeviceDefinitionBuilder F} (fits : self.Fits) (operation : Operation F) :
    operation.apply self ≠ .panic := by
  have addsNode : Total (allocateNode : Build F NodeId) := allocateNode_total
  cases operation with
  | addNode => exact (addsNode.bind fun _ => .pure _).ne_panic self
  | addTerminal =>
    exact ((addsNode.bind fun _ => (Total.modify _).bind fun _ => .pure _).bind fun _ => .pure _).ne_panic self
  | addParameter parameter =>
    refine (Total.bind ?_ fun _ => .pure _).ne_panic self
    exact .get_bind fun _ => (Total.okOr _ _).bind fun _ => (Total.set _).bind fun _ => .pure _
  | addElement element =>
    refine (Total.bind ?_ fun _ => .pure _).ne_panic self
    exact (validateElement_total element).bind fun _ => .get_bind fun _ =>
      (Total.okOr _ _).bind fun _ => (Total.set _).bind fun _ => .pure _
  | addVoltageObserver positive negative =>
    refine (Total.bind ?_ fun _ => .pure _).ne_panic self
    exact (Total.get_bind fun _ => .rejectIf _ _).bind fun _ => (Total.get_bind fun _ => .rejectIf _ _).bind fun _ =>
      pushObserver_total _
  | addChildObserver element observer =>
    intro run
    have run : Call.bind (addChildObserver element observer) (fun _ => pure ()) self = .panic := run
    have child : addChildObserver element observer self ≠ .panic := by
      unfold addChildObserver
      rw [Call.get_bind]
      cases read : self.elements[element.index]? with
      | none => exact (Total.throw _).ne_panic self
      | some inner =>
        -- the builder validated the element
        obtain ⟨⟨child, known, -⟩, -⟩ := fits.elements inner (List.mem_of_getElem? read)
        rw [Call.okOr_some_bind, known, Call.expect_some_bind]
        exact ((Total.okOr _ _).bind fun _ => pushObserver_total _).ne_panic self
    unfold Call.bind at run
    split at run
    · cases run
    · cases run
    · exact child ‹_›

end Operations

/-! ### The layout -/

variable {self : DeviceDefinitionBuilder F}

/-- Every exposed partition of a definition has a terminal. -/
def Exposes (definition : DeviceDefinition F) : Prop :=
  ∀ index < definition.exposedPartitionCount, ∃ partition ∈ definition.terminalPartitions, partition.index = index

theorem joinTerminal_returns {n : Nat} {R : Nat → Nat → Prop} {seen : Nat → Prop}
    {done : List (NodeId × DevicePartitionId)} {state : UnionFind × List Bool × List (Option Nat)}
    {terminal : NodeId × DevicePartitionId} (bounded : ∀ i j, R i j → i < n ∧ j < n)
    (h : Joining n R seen done state) (inside : terminal.1.index < n) (anchored : terminal.2.index < state.2.2.length) :
    ∃ after, joinTerminal state terminal = some after ∧ after.2.2.length = state.2.2.length := by
  obtain ⟨unionFind, referenced, anchors⟩ := state
  have within : terminal.1.index < referenced.length := by
    have length : referenced.length = n := h.length
    omega
  unfold joinTerminal
  dsimp only
  dsimp only at anchored
  rw [bind_of_eq_some (assign_of_lt within true), bind_of_eq_some (List.getElem?_eq_getElem anchored)]
  cases here : anchors[terminal.2.index] with
  | none => exact ⟨_, rfl, List.length_set⟩
  | some anchor =>
    have read : anchors[terminal.2.index]? = some (some anchor) := by
      rw [List.getElem?_eq_getElem anchored, here]
    obtain ⟨earlier, member, rfl, -⟩ := h.anchored _ _ read
    have bounded' : ∀ i j, (R i j ∨ JoinedIn done i j) → i < n ∧ j < n := by
      rintro i j (related | ⟨first, member, second, member', -, rfl, rfl⟩)
      · exact bounded i j related
      · exact ⟨h.inside _ member, h.inside _ member'⟩
    obtain ⟨joined, united, -⟩ := UnionFind.union_spec h.sound inside (h.inside _ member) bounded' h.classes
    dsimp only
    rw [bind_of_eq_some united]
    exact ⟨_, rfl, rfl⟩

/-- The terminals of an element lie on nodes and in exposed partitions. -/
theorem zip_inside {element : Element F} {c : DeviceDefinition F} {nodeCount : Nat}
    (nodes : ∀ node ∈ element.terminals, node.index < nodeCount) :
    ∀ terminal ∈ element.terminals.zip c.terminalPartitions,
      terminal.1.index < nodeCount ∧ terminal.2.index < c.exposedPartitionCount := by
  intro terminal member
  obtain ⟨isNode, isPartition⟩ := List.of_mem_zip member
  exact ⟨nodes _ isNode, le_foldr_max (List.mem_map.mpr ⟨_, isPartition, rfl⟩)⟩

theorem Fits.joinElement_returns (fits : self.Fits) {done : List (Element F)} {state : UnionFind × List Bool}
    {element : Element F} (h : self.Joined done state) (member : element ∈ self.elements) :
    ∃ after, self.joinElement state element = some after := by
  obtain ⟨⟨child, known, -⟩, nodes⟩ := fits.elements element member
  obtain ⟨unionFind, referenced⟩ := state
  have inside := zip_inside (c := child) nodes
  have loop : Returns False ((element.terminals.zip child.terminalPartitions).foldlM joinTerminal
      (unionFind, referenced, List.replicate child.exposedPartitionCount none)) fun _ => True := by
    refine (Returns.foldlM (fun (before : List (NodeId × DevicePartitionId)) inner =>
      Joining self.nodeCount (self.ElementsJoin done) (self.ElementsUse done) before inner ∧
        inner.2.2.length = child.exposedPartitionCount) ⟨h.joining _, List.length_replicate⟩ ?_).mono id fun _ _ => trivial
    rintro before terminal rest inner split ⟨joining, length⟩
    obtain ⟨below, exposed⟩ := inside terminal (split ▸ List.mem_append_right _ List.mem_cons_self)
    obtain ⟨after, run, same⟩ := joinTerminal_returns h.bounded joining below (length ▸ exposed)
    exact .of_eq_some run ⟨joinTerminal_step h.bounded joining run, same.trans length⟩
  obtain ⟨after, folded, -⟩ := loop.returned not_false
  refine ⟨(after.1, after.2.1), ?_⟩
  unfold joinElement
  dsimp only
  rw [bind_of_eq_some (show self.definitionOf element = some child from known), bind_of_eq_some folded]

theorem partitionOf_returns {n : Nat} {R : Nat → Nat → Prop} {sequence : List DevicePartitionId}
    {state : UnionFind × List (Option DevicePartitionId) × Nat} {node : Nat} (h : Numbering n R sequence state)
    (inside : node < n) : partitionOf state node ≠ none := by
  obtain ⟨unionFind, roots, next⟩ := state
  obtain ⟨root, found, finds, here, -, -⟩ := UnionFind.find_spec h.sound inside
  have within : root < roots.length := by
    have := (List.getElem?_eq_some_iff.mp here.isRoot).1
    rwa [h.sound.parents, ← h.length] at this
  unfold partitionOf
  dsimp only
  rw [finds]
  dsimp only
  rw [List.getElem?_eq_getElem within]
  cases roots[root] with
  | some partition => exact Option.some_ne_none _
  | none =>
    dsimp only
    cases allocatePartition next with
    | error error => exact Option.some_ne_none _
    | ok allocated => exact Option.some_ne_none _

theorem deriveTerminalPartitions_returns {n : Nat} {R : Nat → Nat → Prop} {terminals : List NodeId}
    {state : UnionFind × List (Option DevicePartitionId) × Nat} (h : Numbering n R [] state)
    (inside : ∀ terminal ∈ terminals, terminal.index < n) : deriveTerminalPartitions terminals state ≠ none := by
  refine Derive.fold_returns (fun _ (loop : List DevicePartitionId × UnionFind × List (Option DevicePartitionId) × Nat) =>
    Numbering n R loop.1 loop.2) h ?_
  rintro done terminal rest ⟨partitions, loop⟩ split numbered
  have below := inside terminal (split ▸ List.mem_append_right _ List.mem_cons_self)
  refine ⟨Derive.bind_returns (partitionOf_returns numbered below) fun _ _ => Option.some_ne_none _, fun next taken => ?_⟩
  obtain ⟨⟨partition, after⟩, found, taken⟩ := Derive.bind_ok.mp taken
  obtain rfl := Except.ok.inj (Option.some.inj taken)
  exact (partitionOf_numbers numbered below found).1

theorem deriveInternalPartitions_returns {n : Nat} {R : Nat → Nat → Prop} {referenced : List Bool}
    {sequence : List DevicePartitionId} {state : UnionFind × List (Option DevicePartitionId) × Nat}
    (h : Numbering n R sequence state) (length : referenced.length = n) :
    deriveInternalPartitions referenced state ≠ none := by
  refine Derive.fold_returns (fun _ (loop : UnionFind × List (Option DevicePartitionId) × Nat) =>
    ∃ sequence, Numbering n R sequence loop) ⟨sequence, h⟩ ?_
  rintro done ⟨isReferenced, nodeIndex⟩ rest loop split ⟨sequence, numbered⟩
  have below : nodeIndex < n := by
    have member : (isReferenced, nodeIndex) ∈ referenced.zipIdx := split ▸ List.mem_append_right _ List.mem_cons_self
    exact length ▸ (List.getElem?_eq_some_iff.mp (List.mem_zipIdx_iff_getElem?.mp member)).1
  dsimp only
  by_cases yes : isReferenced = true
  · rw [if_pos yes]
    refine ⟨Derive.bind_returns (partitionOf_returns numbered below) fun _ _ => Option.some_ne_none _, fun next taken => ?_⟩
    obtain ⟨⟨partition, after⟩, found, taken⟩ := Derive.bind_ok.mp taken
    obtain rfl := Except.ok.inj (Option.some.inj taken)
    exact ⟨_, (partitionOf_numbers numbered below found).1⟩
  · rw [if_neg yes]
    refine ⟨Option.some_ne_none _, fun next taken => ?_⟩
    obtain rfl := Except.ok.inj (Option.some.inj taken)
    exact ⟨_, numbered⟩

/-- Every exposed partition of a child gets its anchor. -/
theorem partitionAnchors_returns {element : Element F} {child : DeviceDefinition F}
    (length : element.terminals.length = child.terminalPartitions.length) (exposes : Exposes child) :
    ∃ anchors, partitionAnchors element child = some anchors ∧
      ∀ c < child.exposedPartitionCount, ∃ node, anchors[c]? = some (some node) := by
  have loop : Returns False (partitionAnchors element child) fun anchors =>
      anchors.length = child.exposedPartitionCount ∧
      ∀ terminal ∈ element.terminals.zip child.terminalPartitions, ∃ node, anchors[terminal.2.index]? = some (some node) := by
    unfold partitionAnchors
    refine Returns.foldlM (fun (done : List (NodeId × DevicePartitionId)) (anchors : List (Option Nat)) =>
      anchors.length = child.exposedPartitionCount ∧
        ∀ terminal ∈ done, ∃ node, anchors[terminal.2.index]? = some (some node))
      ⟨List.length_replicate, fun _ member => absurd member List.not_mem_nil⟩ ?_
    rintro done terminal rest anchors split ⟨size, anchored⟩
    have isPartition : terminal.2 ∈ child.terminalPartitions :=
      (List.of_mem_zip (split ▸ List.mem_append_right _ List.mem_cons_self)).2
    have below : terminal.2.index < anchors.length := by
      rw [size]
      exact le_foldr_max (List.mem_map.mpr ⟨_, isPartition, rfl⟩)
    refine Returns.bind_some (List.getElem?_eq_getElem below) ?_
    cases here : anchors[terminal.2.index] with
    | some node =>
      refine ⟨size, fun other member => ?_⟩
      rcases List.mem_append.mp member with earlier | last
      · exact anchored other earlier
      · obtain rfl := List.mem_singleton.mp last
        exact ⟨node, by rw [List.getElem?_eq_getElem below, here]⟩
    | none =>
      refine ⟨List.length_set.trans size, fun other member => ?_⟩
      by_cases same : terminal.2.index = other.2.index
      · exact ⟨terminal.1.index, by rw [← same, List.getElem?_set_self below]⟩
      · rw [List.getElem?_set_ne same]
        rcases List.mem_append.mp member with earlier | last
        · exact anchored other earlier
        · exact absurd (congrArg (·.2.index) (List.mem_singleton.mp last)).symm same
  obtain ⟨anchors, run, -, anchored⟩ := loop.returned not_false
  refine ⟨anchors, run, fun c below => ?_⟩
  obtain ⟨partition, member, rfl⟩ := exposes c below
  obtain ⟨i, read⟩ := List.mem_iff_getElem?.mp member
  have inside : i < element.terminals.length := length ▸ (List.getElem?_eq_some_iff.mp read).1
  exact anchored (element.terminals[i], partition)
    (List.mem_iff_getElem?.mpr ⟨i, List.getElem?_zip_eq_some.mpr ⟨List.getElem?_eq_getElem inside, read⟩⟩)

theorem find_returns {n : Nat} {first unionFind : UnionFind} {roots : List (Option DevicePartitionId)} {node : Nat}
    {partition : DevicePartitionId} (sound : UnionFind.Sound n unionFind) (same : UnionFind.SameRoots first unionFind)
    (inside : node < n) (at' : PartitionAt first roots node partition) :
    ∃ root after, unionFind.find node = some (root, after) ∧ roots[root]?.join = some partition ∧
      UnionFind.Sound n after ∧ UnionFind.SameRoots first after := by
  obtain ⟨root, after, finds, here, sound', same'⟩ := UnionFind.find_spec sound inside
  obtain ⟨root', there, read⟩ := at'
  obtain rfl := ((same.roots _ _).mp here).unique there
  exact ⟨root, after, finds, Option.join_eq_some_iff.mpr read, sound', same.trans same'⟩

section Children

variable {n : Nat} {R : Nat → Nat → Prop} {base : List DevicePartitionId}
  {state : UnionFind × List (Option DevicePartitionId) × Nat}

theorem elementPartitionsOf_returns (h : Numbering n R base state)
    (placed : ∀ x < n, ∃ partition, PartitionAt state.1 state.2.1 x partition)
    {loop : List DevicePartitionId × UnionFind × Nat} (mapping : Mapping base state loop) {element : Element F}
    {child : DeviceDefinition F} (known : self.definitionOf element = some child)
    (length : element.terminals.length = child.terminalPartitions.length) (exposes : Exposes child)
    (nodes : ∀ node ∈ element.terminals, node.index < n) : self.elementPartitionsOf state.2.1 loop element ≠ none := by
  obtain ⟨anchors, anchored, complete⟩ := partitionAnchors_returns length exposes
  unfold elementPartitionsOf
  rw [known]
  dsimp only
  rw [anchored]
  dsimp only
  refine Derive.fold_returns (fun _ inner => Mapping base state inner) mapping ?_
  rintro done c rest ⟨partitions, unionFind, next⟩ - mapping
  refine ⟨?_, fun after taken => (childPartition_maps h mapping taken).1⟩
  unfold childPartition
  dsimp only
  by_cases exposed : c < child.exposedPartitionCount
  · rw [if_pos exposed]
    obtain ⟨node, read⟩ := complete c exposed
    obtain ⟨terminal, member, rfl, -⟩ := partitionAnchors_sound anchored c node read
    have inside := nodes _ (List.of_mem_zip member).1
    obtain ⟨partition, at'⟩ := placed _ inside
    obtain ⟨m, sound⟩ := mapping.sound
    have sizes : m = n := by
      rw [← sound.parents, ← h.sound.parents]
      exact mapping.same.length
    subst sizes
    obtain ⟨root, after, finds, there, -⟩ := find_returns sound mapping.same inside at'
    rw [read]
    show Option.map _ ((unionFind.find terminal.1.index).bind _) ≠ none
    rw [finds]
    show Option.map _ ((state.2.1[root]?.join).bind _) ≠ none
    rw [there]
    exact Option.some_ne_none _
  · rw [if_neg exposed]
    cases allocatePartition next with
    | error error => exact Option.some_ne_none _
    | ok allocated => exact Option.some_ne_none _

theorem nodePartitions_returns {roots : List (Option DevicePartitionId)} {first : UnionFind}
    (sound : UnionFind.Sound n first) (placed : ∀ x < n, ∃ partition, PartitionAt first roots x partition) :
    ∃ result, (List.range n).foldlM (fun (nodePartitions, (unionFind : UnionFind)) node => do
      let (root, unionFind) ← unionFind.find node
      let partition ← roots[root]?.join
      some (nodePartitions ++ [partition], unionFind)) (([] : List DevicePartitionId), first) = some result := by
  have loop : Returns False ((List.range n).foldlM (fun (nodePartitions, (unionFind : UnionFind)) node => do
      let (root, unionFind) ← unionFind.find node
      let partition ← roots[root]?.join
      some (nodePartitions ++ [partition], unionFind)) (([] : List DevicePartitionId), first))
      fun (result : List DevicePartitionId × UnionFind) =>
        UnionFind.Sound n result.2 ∧ UnionFind.SameRoots first result.2 := by
    refine Returns.foldlM (fun (_ : List Nat) (loop : List DevicePartitionId × UnionFind) =>
      UnionFind.Sound n loop.2 ∧ UnionFind.SameRoots first loop.2) ⟨sound, .refl _⟩ ?_
    rintro done node rest ⟨partitions, unionFind⟩ split ⟨sound, same⟩
    have inside : node < n := List.mem_range.mp (split ▸ List.mem_append_right _ List.mem_cons_self)
    obtain ⟨partition, at'⟩ := placed node inside
    obtain ⟨root, after, finds, there, sound', same'⟩ := find_returns sound same inside at'
    exact Returns.bind_some finds (Returns.bind_some there ⟨sound', same'⟩)
  obtain ⟨result, run, -⟩ := loop.returned not_false
  exact ⟨result, run⟩

end Children

theorem sumChildren_returns (known : ∀ element ∈ self.elements, ∃ child, self.definitionOf element = some child)
    (count : DeviceDefinition F → Nat) (exhausted : DeviceDefinitionBuilderError) :
    self.sumChildren count exhausted ≠ none := by
  refine Derive.fold_returns (fun _ _ => True) trivial fun done element rest total split _ => ⟨?_, fun _ _ => trivial⟩
  obtain ⟨child, known⟩ := known element (split ▸ List.mem_append_right _ List.mem_cons_self)
  rw [known]
  dsimp only
  split <;> exact Option.some_ne_none _

theorem Fits.known (fits : self.Fits) : ∀ element ∈ self.elements, ∃ child, self.definitionOf element = some child := by
  intro element member
  obtain ⟨⟨child, known, -⟩, -⟩ := fits.elements element member
  exact ⟨child, known⟩

/-- Nothing is numbered before the terminals. -/
theorem Joined.numbering {state : UnionFind × List Bool} (joined : self.Joined self.elements state) :
    Numbering self.nodeCount (self.ElementsJoin self.elements) [] (state.1, List.replicate self.nodeCount none, 0) := by
  have nothing : ∀ (r : Nat) (p : DevicePartitionId),
      (List.replicate self.nodeCount (none : Option DevicePartitionId))[r]? ≠ some (some p) := by
    intro r p read
    rw [List.getElem?_replicate] at read
    split at read <;> cases read
  exact ⟨joined.sound, joined.classes, List.length_replicate, fun r s p read => (nothing r p read).elim,
    fun r p read => (nothing r p read).elim, rfl⟩

theorem Fits.derivePartitionLayout_returns (fits : self.Fits) (partitioned : self.registry.Partitioned)
    (exposes : ∀ id child, self.registry.get id = some child → Exposes child) : self.derivePartitionLayout ≠ none := by
  have joins : ∃ state, self.elements.foldlM self.joinElement
      (.new self.nodeCount, List.replicate self.nodeCount false) = some state := by
    have loop : Returns False (self.elements.foldlM self.joinElement
        (.new self.nodeCount, List.replicate self.nodeCount false)) (self.Joined self.elements) := by
      refine Returns.foldlM self.Joined joined_new fun done element rest state split joined => ?_
      obtain ⟨after, run⟩ := fits.joinElement_returns joined (split ▸ List.mem_append_right _ List.mem_cons_self)
      exact .of_eq_some run (joinElement_step joined run)
    obtain ⟨state, run, -⟩ := loop.returned not_false
    exact ⟨state, run⟩
  obtain ⟨⟨unionFind, referenced⟩, folded⟩ := joins
  have joined := joinElements folded
  unfold derivePartitionLayout
  dsimp only
  rw [folded]
  dsimp only
  rw [if_neg (not_not.mpr fits.terminals)]
  cases unused : self.unusedNode referenced with
  | some node =>
    have below := List.mem_range.mp (List.mem_of_find?_eq_some unused)
    have small : node < IdKind.node.bound := below.trans fits.nodes
    dsimp only
    rw [Id.ofIndex?, dif_pos small]
    exact Option.some_ne_none _
  | none =>
    dsimp only
    refine Derive.bind_returns (deriveTerminalPartitions_returns joined.numbering fits.terminals) ?_
    rintro ⟨partitions, first⟩ terminals
    obtain ⟨numbered, length, placed⟩ := deriveTerminalPartitions_numbers joined.numbering fits.terminals terminals
    refine Derive.bind_returns (deriveInternalPartitions_returns numbered joined.length) ?_
    rintro ⟨secondFind, secondRoots, secondNext⟩ internal
    have used : ∀ x < self.nodeCount, referenced[x]? = some true ∨
        ∃ partition, PartitionAt first.1 first.2.1 x partition := by
      intro x inside
      rcases unusedNode_none unused inside with ⟨terminal, member, rfl⟩ | yes
      · obtain ⟨i, read⟩ := List.mem_iff_getElem?.mp member
        obtain ⟨partition, -, at'⟩ := placed i terminal read
        exact Or.inr ⟨partition, at'⟩
      · exact Or.inl yes
    obtain ⟨nodes, -, numbered', -, nodeAt⟩ := deriveInternalPartitions_numbers numbered joined.length used internal
    have everywhere : ∀ x < self.nodeCount, ∃ partition, PartitionAt secondFind secondRoots x partition := by
      intro x inside
      obtain ⟨partition, -, at'⟩ := nodeAt x inside
      exact ⟨partition, at'⟩
    refine Derive.bind_returns (sumChildren_returns fits.known _ _) fun _ _ => ?_
    have start : Mapping (partitions ++ nodes) (secondFind, secondRoots, secondNext) ([], secondFind, secondNext) :=
      ⟨⟨_, numbered'.sound⟩, .refl _, Nat.le_refl _, by rw [List.append_nil]; exact numbered'.counted⟩
    refine Derive.bind_returns ?_ ?_
    · refine Derive.fold_returns (fun _ loop => Mapping (partitions ++ nodes) (secondFind, secondRoots, secondNext) loop)
        start fun done element rest loop split mapping => ?_
      obtain ⟨⟨child, known, sameLength⟩, below⟩ := fits.elements element (split ▸ List.mem_append_right _ List.mem_cons_self)
      exact ⟨elementPartitionsOf_returns numbered' everywhere mapping known
        (sameLength.trans (partitioned _ _ known).length.symm) (exposes _ _ known) below,
        fun next taken => (elementPartitionsOf_maps numbered' mapping taken).1⟩
    · rintro ⟨elements, third, next⟩ children
      have mapping := (elementPartitions_map numbered' joined.inside (fun _ _ found => partitioned _ _ found) children).1
      obtain ⟨m, sound⟩ := mapping.sound
      have sizes : m = self.nodeCount := by
        rw [← sound.parents, ← numbered'.sound.parents]
        exact mapping.same.length
      subst sizes
      obtain ⟨⟨read, last⟩, run⟩ := nodePartitions_returns sound fun x inside =>
        (everywhere x inside).imp fun _ at' => (PartitionAt.roots mapping.same).mpr at'
      dsimp only
      rw [run]
      exact Option.some_ne_none _

/-! ### Parameters and observers -/

section Checked

variable [F64 F]

/-- A parameter that an element forwards is one of the definition's. -/
theorem forwarded_inside {registry : DefinitionRegistry F} {own : List (ParameterConstraints F)}
    {element : Element F} {child : DeviceDefinition F} (h : ElementChecked registry own element child)
    {id : ParameterId} (member : ValueRef.parameter id ∈ element.parameters) : id.index < own.length := by
  obtain ⟨i, read⟩ := List.mem_iff_getElem?.mp member
  have inside : i < child.parameters.length := h.count ▸ (List.getElem?_eq_some_iff.mp read).1
  obtain ⟨provided, found, -⟩ := h.passes (.parameter id, child.parameters[i]) (List.mem_iff_getElem?.mpr
    ⟨i, List.getElem?_zip_eq_some.mpr ⟨read, List.getElem?_eq_getElem inside⟩⟩)
  exact (List.getElem?_eq_some_iff.mp found).1

theorem Fits.validateParameterUsage_returns (fits : self.Fits) (checked : self.Checked) :
    self.validateParameterUsage ≠ none := by
  unfold validateParameterUsage
  dsimp only
  rw [if_neg]
  swap
  · refine fun outside => outside.2 fun index member => ?_
    obtain ⟨element, isElement, member⟩ := List.mem_flatMap.mp member
    obtain ⟨value, isValue, is⟩ := List.mem_filterMap.mp member
    obtain ⟨child, here⟩ := checked element isElement
    cases value with
    | literal value => cases is
    | parameter id =>
      obtain rfl := Option.some.inj is
      exact forwarded_inside here isValue
  split
  · exact Option.some_ne_none _
  · rename_i index unused
    have below := List.mem_range.mp (List.mem_of_find?_eq_some unused)
    have small : index < IdKind.parameter.bound := below.trans_le fits.parameters
    rw [Id.ofIndex?, dif_pos small]
    exact Option.some_ne_none _

end Checked

theorem sumChildren_ok {total : Nat} {exhausted : DeviceDefinitionBuilderError}
    (run : self.sumChildren DeviceDefinition.partitionCount exhausted = some (.ok total)) :
    total = self.registry.partitionOffset self.elements ∧ total < 2 ^ 64 := by
  refine Derive.fold_ok (fun done total => total = self.registry.partitionOffset done ∧ total < 2 ^ 64)
    ⟨rfl, Nat.two_pow_pos 64⟩ ?_ run
  rintro done element total next ⟨rfl, -⟩ taken
  cases known : self.definitionOf element with
  | none =>
    rw [known] at taken
    cases taken
  | some child =>
    rw [known] at taken
    dsimp only at taken
    split at taken
    · obtain rfl := Except.ok.inj (Option.some.inj taken)
      exact ⟨(DefinitionRegistry.partitionOffset_append known).symm, ‹_›⟩
    · cases taken

theorem derivePartitionLayout_small {layout : DevicePartitionLayout} {nodePartitions : List DevicePartitionId}
    (run : self.derivePartitionLayout = some (.ok (layout, nodePartitions))) :
    self.registry.partitionOffset self.elements < 2 ^ 64 := by
  unfold derivePartitionLayout at run
  dsimp only at run
  split at run
  · cases run
  split at run
  · cases run
  split at run
  · split at run <;> cases run
  obtain ⟨_, -, run⟩ := Derive.bind_ok.mp run
  obtain ⟨_, -, run⟩ := Derive.bind_ok.mp run
  obtain ⟨total, counted, -⟩ := Derive.bind_ok.mp run
  obtain ⟨rfl, small⟩ := sumChildren_ok counted
  exact small

theorem partitionOffset_le (registry : DefinitionRegistry F) (first second : List (Element F)) :
    registry.partitionOffset first ≤ registry.partitionOffset (first ++ second) := by
  have grows : ∀ (elements : List (Element F)) start, start ≤ elements.foldl (fun offset element =>
      offset + ((registry.get element.definition).map (·.partitionCount)).getD 0) start := by
    intro elements
    induction elements with
    | nil => exact Nat.le_refl
    | cons element elements ih => exact fun start => (Nat.le_add_right _ _).trans (ih _)
  unfold DefinitionRegistry.partitionOffset
  rw [List.foldl_append]
  exact grows _ _

theorem elementPartitionOffsets_returns (known : ∀ element ∈ self.elements, ∃ child, self.definitionOf element = some child)
    (small : self.registry.partitionOffset self.elements < 2 ^ 64) :
    ∃ offsets total, self.elementPartitionOffsets = some (offsets, total) ∧
      ∀ k < self.elements.length, offsets[k]? = some (self.registry.partitionOffset (self.elements.take k)) := by
  have loop : Returns False self.elementPartitionOffsets fun result : List Nat × Nat =>
      result.2 = self.registry.partitionOffset self.elements ∧ result.1.length = self.elements.length ∧
        ∀ k < self.elements.length, result.1[k]? = some (self.registry.partitionOffset (self.elements.take k)) := by
    unfold elementPartitionOffsets
    refine Returns.foldlM (fun (done : List (Element F)) (loop : List Nat × Nat) =>
      loop.2 = self.registry.partitionOffset done ∧ loop.1.length = done.length ∧
        ∀ k < done.length, loop.1[k]? = some (self.registry.partitionOffset (done.take k)))
      ⟨rfl, rfl, fun k impossible => absurd impossible (Nat.not_lt_zero k)⟩ ?_
    rintro done element rest ⟨offsets, offset⟩ split ⟨same, length, read⟩
    obtain rfl : offset = self.registry.partitionOffset done := same
    obtain ⟨child, found⟩ := known element (split ▸ List.mem_append_right _ List.mem_cons_self)
    have grown : self.registry.partitionOffset (done ++ [element]) =
        self.registry.partitionOffset done + child.partitionCount := DefinitionRegistry.partitionOffset_append found
    have below : self.registry.partitionOffset done + child.partitionCount < 2 ^ 64 := by
      have le := partitionOffset_le self.registry (done ++ [element]) rest
      rw [List.append_assoc, List.singleton_append, ← split, grown] at le
      omega
    refine Returns.bind_some found ?_
    rw [if_pos below]
    refine ⟨grown.symm, by simp [length], fun k inside => ?_⟩
    dsimp only at length ⊢
    by_cases earlier : k < done.length
    · rw [List.getElem?_append_left (length ▸ earlier), read k earlier, List.take_append_of_le_length earlier.le]
    · rw [List.length_append, List.length_singleton] at inside
      obtain rfl : k = done.length := by omega
      rw [← length, List.getElem?_concat_length, length, List.take_left' rfl]
  obtain ⟨⟨offsets, total⟩, run, -, -, read⟩ := loop.returned not_false
  exact ⟨offsets, total, run, read⟩

/-- What a definition's observers read is in its partitions. -/
def Observes (definition : DeviceDefinition F) : Prop :=
  ∀ observer ∈ definition.observers, observer.partition.index < definition.partitionCount

theorem Fits.deriveObservers_returns (fits : self.Fits) (small : self.registry.partitionOffset self.elements < 2 ^ 64)
    {layout : DevicePartitionLayout} {nodePartitions : List DevicePartitionId} (laidOut : self.LaidOut layout nodePartitions)
    (observes : ∀ id child, self.registry.get id = some child → Observes child) :
    self.deriveObservers layout nodePartitions ≠ none := by
  obtain ⟨offsets, total, run, read⟩ := elementPartitionOffsets_returns fits.known small
  unfold deriveObservers
  rw [run]
  dsimp only
  refine Derive.fold_returns (fun _ _ => True) trivial fun done pending rest observers split _ => ⟨?_, fun _ _ => trivial⟩
  refine Derive.bind_returns ?_ fun _ _ => Option.some_ne_none _
  have observable := fits.observers pending (split ▸ List.mem_append_right _ List.mem_cons_self)
  unfold observerPartition
  cases source : pending.source with
  | current positive negative =>
    rw [source] at observable
    exact observable.elim
  | voltage positive negative =>
    rw [source] at observable
    obtain ⟨first, second⟩ := observable
    rw [← laidOut.length] at first second
    dsimp only
    rw [List.getElem?_eq_getElem first, List.getElem?_eq_getElem second]
    dsimp only
    split <;> exact Option.some_ne_none _
  | child element observer =>
    rw [source] at observable
    obtain ⟨inner, child, observed, at', known, found⟩ := observable
    have inside := (List.getElem?_eq_some_iff.mp at').1
    have isObserver : observed ∈ child.observers := List.mem_of_getElem? found
    have bound := observes _ _ known observed isObserver
    have flat : self.registry.partitionOffset (self.elements.take element.index) + observed.partition.index <
        self.registry.partitionOffset self.elements := by
      have le := partitionOffset_le self.registry (self.elements.take element.index ++ [inner])
        (self.elements.drop (element.index + 1))
      rw [DefinitionRegistry.partitionOffset_append known, List.append_assoc, List.singleton_append,
        ← (List.getElem?_eq_some_iff.mp at').2, ← List.drop_eq_getElem_cons inside, List.take_append_drop] at le
      omega
    dsimp only
    rw [bind_of_eq_some at', bind_of_eq_some (show self.definitionOf inner = some child from known), bind_of_eq_some found,
      bind_of_eq_some (read _ inside), if_pos (flat.trans small),
      List.getElem?_eq_getElem (laidOut.elementsLength ▸ flat)]
    exact Option.some_ne_none _

theorem deriveObservers_observes {layout : DevicePartitionLayout} {nodePartitions : List DevicePartitionId}
    (laidOut : self.LaidOut layout nodePartitions) {observers : List DefinitionObserver}
    (run : self.deriveObservers layout nodePartitions = some (.ok observers)) :
    ∀ observer ∈ observers, observer.partition.index < layout.partitionCount := by
  have counted := DevicePartitionLayout.canonical_mem laidOut.numbered
  have ofNode : ∀ partition ∈ nodePartitions, partition.index < layout.partitionCount := fun partition member =>
    (counted _).mpr ⟨partition, List.mem_append_left _ (List.mem_append_right _ member), rfl⟩
  have ofElement : ∀ partition ∈ layout.elementPartitions, partition.index < layout.partitionCount :=
    fun partition member => (counted _).mpr ⟨partition, List.mem_append_right _ member, rfl⟩
  unfold deriveObservers at run
  split at run
  · cases run
  rename_i offsets total read
  refine Derive.fold_ok (fun _ (observers : List DefinitionObserver) =>
    ∀ observer ∈ observers, observer.partition.index < layout.partitionCount)
    (fun _ member => absurd member List.not_mem_nil) ?_ run
  intro done pending observers next holds taken
  obtain ⟨partition, derived, taken⟩ := Derive.bind_ok.mp taken
  obtain rfl := Except.ok.inj (Option.some.inj taken)
  intro observer member
  rcases List.mem_append.mp member with earlier | last
  · exact holds observer earlier
  obtain rfl := List.mem_singleton.mp last
  unfold observerPartition at derived
  split at derived
  · split at derived
    · rename_i first second readFirst readSecond
      split at derived
      · cases derived
      · obtain rfl := Except.ok.inj (Option.some.inj derived)
        exact ofNode _ (List.mem_of_getElem? readFirst)
    · cases derived
  · cases derived
  · obtain ⟨found, there, same⟩ := Option.map_eq_some_iff.mp derived
    obtain rfl := Except.ok.inj same
    obtain ⟨_, -, there⟩ := Option.bind_eq_some_iff.mp there
    obtain ⟨_, -, there⟩ := Option.bind_eq_some_iff.mp there
    obtain ⟨_, -, there⟩ := Option.bind_eq_some_iff.mp there
    obtain ⟨_, -, there⟩ := Option.bind_eq_some_iff.mp there
    dsimp only at there
    split at there
    · exact ofElement _ (List.mem_of_getElem? there)
    · cases there

/-! ### Building -/

theorem exposes_of_canonical {definition : DeviceDefinition F} {more : List DevicePartitionId} {count : Nat}
    (counted : DevicePartitionLayout.canonicalExposedPartitionCount (definition.terminalPartitions ++ more) = some count) :
    Exposes definition := by
  have prefixed : ∃ next, DevicePartitionLayout.canonicalExposedPartitionCount definition.terminalPartitions = some next := by
    unfold DevicePartitionLayout.canonicalExposedPartitionCount at counted ⊢
    rw [List.foldlM_append] at counted
    obtain ⟨next, first, -⟩ := Option.bind_eq_some_iff.mp counted
    exact ⟨next, first⟩
  obtain ⟨next, first⟩ := prefixed
  have known := DevicePartitionLayout.canonical_mem first
  have bounded : ∀ partitions : List DevicePartitionId, (∀ partition ∈ partitions, partition.index < next) →
      (partitions.map (·.index + 1)).foldr max 0 ≤ next := by
    intro partitions
    induction partitions with
    | nil => exact fun _ => Nat.zero_le _
    | cons partition partitions ih =>
      intro below
      rw [List.map_cons, List.foldr_cons]
      exact Nat.max_le.mpr ⟨below partition List.mem_cons_self, ih fun other member => below other (List.mem_cons_of_mem _ member)⟩
  intro index below
  refine (known index).mp (below.trans_le (bounded _ fun partition member => ?_))
  exact (known _).mpr ⟨partition, member, rfl⟩

theorem Fits.buildDefinition_returns [F64 F] (fits : self.Fits) (checked : self.Checked) (partitioned : self.registry.Partitioned)
    (presented : ∀ id child, self.registry.get id = some child → Exposes child ∧ Observes child) :
    self.buildDefinition ≠ none := by
  unfold buildDefinition
  refine Derive.bind_returns (fits.validateParameterUsage_returns checked) fun _ _ => ?_
  refine Derive.bind_returns (sumChildren_returns fits.known _ _) fun _ _ => ?_
  refine Derive.bind_returns (fits.derivePartitionLayout_returns partitioned fun id child found =>
    (presented id child found).1) ?_
  rintro ⟨layout, nodePartitions⟩ run
  have laidOut := derivePartitionLayout_laidOut (fun _ _ found => partitioned _ _ found) run
  exact Derive.bind_returns (fits.deriveObservers_returns (derivePartitionLayout_small run) laidOut fun id child found =>
    (presented id child found).2) fun _ _ => Option.some_ne_none _

end DeviceDefinitionBuilder

/-! ### Registered definitions -/

section Registered

variable [F64 F]

open DeviceDefinitionBuilder

theorem DefinitionRegistry.Reached.presented {registry : DefinitionRegistry F} (reached : registry.Reached) :
    ∀ id definition, registry.get id = some definition → Exposes definition ∧ Observes definition := by
  induction reached with
  | new =>
    intro id definition found
    obtain ⟨kind, rfl⟩ := get_new found
    constructor
    · intro index below
      have occupied := kind.terminalLayout_occupied index
      have few : kind.partitionLayout.2.exposedPartitionCount ≤ kind.partitionLayout.2.partitionCount := by
        cases kind <;> decide
      exact occupied (below.trans_le few)
    · intro observer member
      have all : ∀ observer ∈ kind.observers, observer.partition.index < kind.partitionLayout.2.partitionCount := by
        cases kind <;> decide
      exact all observer member
  | @register self base next builder definition id reached built extends' calls build registered ih ih' =>
    intro other found there
    rcases get_registered registered there with earlier | ⟨-, rfl⟩
    · exact ih other found earlier
    · obtain ⟨nodePartitions, -, laidOut, observed, -⟩ := buildDefinition_ok build
      obtain rfl := calls.registry_eq
      have laidOut := derivePartitionLayout_laidOut (fun element child found => built.partitioned _ _ found) laidOut
      have numbered := laidOut.numbered
      rw [List.append_assoc] at numbered
      exact ⟨exposes_of_canonical numbered, deriveObservers_observes laidOut observed⟩

/-- Building what calls on a builder have left does not panic. -/
theorem DeviceDefinitionBuilder.Reached.buildDefinition_returns {base : DefinitionRegistry F}
    {builder : DeviceDefinitionBuilder F} (reached : Reached base builder) (built : base.Reached) :
    builder.buildDefinition ≠ none := by
  obtain rfl := reached.registry_eq
  exact reached.fits.buildDefinition_returns reached.checked built.partitioned built.presented

end Registered

end Hynergy
