import Hynergy.Topology.Maintained

/-!
# Attaching and detaching terminals

One component gains or loses an edge to one net.
-/

namespace Hynergy

open Lib Relation

variable {F : Type}

namespace DerivedTopology

variable {registry : DefinitionRegistry F} {network network' : Network F} {self next : DerivedTopology}

/-- Only one component's terminals were touched, and its island is marked. -/
theorem Maintains.of_component (h : Maintained registry network self) {c : DeviceComponent} {i : IslandId}
    (on : self.islandOf network c = some i) (maintained : Maintained registry network' next)
    (dirtied : Dirtied self next) (wires : next.wireNetMap = self.wireNetMap)
    (definitions : ∀ device, network'.definitionIdAt device = network.definitionIdAt device)
    (attached : ∀ other, other ≠ c → ∀ definition t, network.definitionOf registry other.device = some definition →
      definition.terminalPartitions[t]? = some other.partition →
        network'.attachedWire other.device t = network.attachedWire other.device t)
    (marked : i ∈ next.invalidation.topologyDirty ∨ next.islands.get i = none) :
    Maintains registry network network' self next := by
  refine ⟨maintained, dirtied, fun j island held off other member => ?_⟩
  obtain ⟨-, old, before, components⟩ := dirtied.clean j island held off
  have label := h.islands.members j old before other (components ▸ member)
  refine ⟨definitions _, fun definition t known read => ?_⟩
  rw [netAt, netAt, attached other (fun same => ?_) definition t known read]
  · congr 1
    funext wire
    rw [wireNet, wireNet, wires]
  · rw [same, on] at label
    obtain rfl := Option.some.inj label
    rcases marked with dirty | gone
    · exact off dirty
    · rw [gone] at held
      simp at held

/-- Apart from the component of the terminal nothing is attached differently. -/
theorem attached_others {wire : WireId} {device : DeviceId} {t : Nat}
    (edit : Network.AttachedAt network network' wire device t) {definition : DeviceDefinition F}
    {partition : DevicePartitionId} (known : network.definitionOf registry device = some definition)
    (read : definition.terminalPartitions[t]? = some partition) {other : DeviceComponent}
    (different : other ≠ ⟨device, partition⟩) {definition' : DeviceDefinition F} {i : Nat}
    (known' : network.definitionOf registry other.device = some definition')
    (read' : definition'.terminalPartitions[i]? = some other.partition) :
    network'.attachedWire other.device i = network.attachedWire other.device i := by
  refine edit.others _ _ fun both => different ?_
  obtain ⟨same, rfl⟩ := both
  rw [same] at known'
  obtain rfl := Option.some.inj (known.symm.trans known')
  obtain rfl := Option.some.inj (read.symm.trans read')
  cases other
  cases same
  rfl

/-! ### Attaching -/

/-- The net lists one more component. -/
structure NetJoined (id : NetId) (c : DeviceComponent) (before after : DerivedTopology) : Prop where
  changed : ∃ net, before.nets.get id = some net ∧ DenseIdStore.Changed before.nets after.nets id
    { net with terminalComponents := net.terminalComponents ++ [c] }
  wires : after.wireNetMap = before.wireNetMap

namespace NetJoined

variable {id : NetId} {c : DeviceComponent}

theorem get (j : NetJoined id c self next) (m : NetId) :
    next.nets.get m = (self.nets.get m).map fun net =>
      if m = id then { net with terminalComponents := net.terminalComponents ++ [c] } else net := by
  obtain ⟨net, held, changed⟩ := j.changed
  rw [changed.get]
  by_cases same : m = id
  · rw [if_pos same, same, held, Option.map_some, if_pos rfl]
  · rw [if_neg same]
    cases self.nets.get m with
    | none => rfl
    | some value => rw [Option.map_some, if_neg same]

theorem touches (j : NetJoined id c self next) (m : NetId) (other : DeviceComponent) :
    next.Touches m other ↔ self.Touches m other ∨ m = id ∧ other = c := by
  rw [Touches, j.get, Touches]
  constructor
  · intro there
    obtain ⟨net, held, member⟩ := there
    obtain ⟨old, there, rfl⟩ := Option.map_eq_some_iff.mp held
    split at member
    · rename_i same
      rcases List.mem_append.mp member with before | new
      · exact Or.inl ⟨old, there, before⟩
      · exact Or.inr ⟨same, List.mem_singleton.mp new⟩
    · exact Or.inl ⟨old, there, member⟩
  · intro there
    rcases there with ⟨old, held, member⟩ | ⟨rfl, rfl⟩
    · rw [held]
      refine ⟨_, rfl, ?_⟩
      split
      · exact List.mem_append_left _ member
      · exact member
    · obtain ⟨net, held, -⟩ := j.changed
      rw [held]
      refine ⟨_, rfl, ?_⟩
      dsimp only
      rw [if_pos rfl]
      exact List.mem_append_right _ (List.mem_singleton.mpr rfl)

theorem attached (j : NetJoined id c self next) (u v : IslandVertex) :
    next.Attached u v ↔ Link self.Attached (.net id) (.component c) u v := by
  cases u <;> cases v <;> simp [Attached, Link, j.touches, and_comm]

/-- The nets once a terminal of the component is attached to a wire of the net. -/
theorem nets_ok (j : NetJoined id c self next) (h : NetsSound registry network self)
    (live : ∀ wire, (network'.wireSlot wire).isSome = (network.wireSlot wire).isSome)
    (edges : ∀ u v, network'.WireEdge u v ↔ network.WireEdge u v) {wire : WireId} {t : Nat}
    (edit : Network.AttachedAt network network' wire c.device t) {definition : DeviceDefinition F}
    (known : network.definitionOf registry c.device = some definition)
    (read : definition.terminalPartitions[t]? = some c.partition) (on : self.wireNet wire = some id) :
    NetsSound registry network' next := by
  obtain ⟨value, heldId, changed⟩ := j.changed
  refine h.relisted live edges changed.sound j.wires (fun m net held => ?_) (fun m old held => ?_)
    fun m net held device => ?_
  · rw [j.get] at held
    obtain ⟨old, before, rfl⟩ := Option.map_eq_some_iff.mp held
    refine ⟨old, before, ?_⟩
    split <;> rfl
  · rw [j.get, held]
    refine ⟨_, rfl, ?_⟩
    split <;> rfl
  · rw [j.get] at held
    obtain ⟨old, there, rfl⟩ := Option.map_eq_some_iff.mp held
    refine List.Perm.trans ?_ (edit.incidences known read _ device).symm
    have before := h.terminals m old not_false there device
    rw [on]
    by_cases same : m = id
    · subst same
      rw [if_pos rfl, List.filter_append]
      by_cases here : device = c.device
      · subst here
        simp only [decide_true, and_self, if_true, List.filter_cons_of_pos, List.filter_nil]
        exact (List.perm_append_singleton _ _).trans (before.cons _)
      · rw [if_neg fun both => here both.2, List.filter_cons_of_neg (by simpa using Ne.symm here),
          List.filter_nil, List.append_nil]
        exact before
    · rw [if_neg same, if_neg fun both => same (Option.some.inj (of_decide_eq_true both.1)).symm]
      exact before

/-- The islands keep their labels while the net's island is not that of the component; the edge
between the two is only in the net's list yet. -/
theorem labelled (j : NetJoined id c self next) (h : IslandsSound registry network self)
    (consistent : network'.Consistent registry)
    (directory : network'.deviceArena.directory = network.deviceArena.directory)
    (heads : network'.deviceArena.heads = network.deviceArena.heads)
    (islands : next.islands = self.islands) (chunks : next.deviceChunks = self.deviceChunks)
    (map : next.netIslandMap = self.netIslandMap) {i : IslandId} (some' : self.islandOfNet id = some i) :
    IslandsLabelled self.Attached (fun _ => False) registry network' next := by
  have slots : next.nets.slotCount = self.nets.slotCount := by
    obtain ⟨net, -, changed⟩ := j.changed
    exact changed.slots
  have components : ∀ d, next.islandOf network' d = self.islandOf network d := islandOf_congr chunks directory
  have labels : ∀ m, next.islandOfNet m = self.islandOfNet m := by
    intro m
    rw [islandOfNet, islandOfNet, netIsland, netIsland, map]
  have label : next.islandLabel network' = self.islandLabel network := by
    funext v
    cases v with
    | net m => exact labels m
    | component d => exact components d
  have inIsland : next.InIsland network' = self.InIsland network := by
    funext v
    simp only [InIsland, label]
  refine ⟨islands ▸ h.sound, h.beside.relink consistent directory heads chunks, by rw [map, slots]; exact h.map,
    fun m gone => ?_, fun m k on => ?_, fun d k on => ?_, ?_, fun k island held d member => ?_, ?_,
    fun m k fine on => ?_, fun m d touching => ?_, ?_, fun k fine => ?_⟩
  · rw [j.get, Option.map_eq_none_iff] at gone
    exact (labels m).trans (h.removed m gone)
  · rw [islands]
    exact h.alive m k ((labels m).symm.trans on)
  · rw [islands]
    exact h.named d k ((components d).symm.trans on)
  · rw [islands]
    exact h.nodup
  · rw [islands] at held
    exact (components d).trans (h.members k island held d member)
  · rw [islands]
    exact h.nonempty
  · obtain ⟨d, touching⟩ := h.anchored m k fine ((labels m).symm.trans on)
    exact ⟨d, (j.touches m d).mpr (Or.inl touching)⟩
  · rw [labels]
    rcases (j.touches m d).mp touching with old | ⟨rfl, -⟩
    · exact h.reached m d old
    · exact ⟨i, some'⟩
  · rw [label]
    exact h.coarse
  · rw [label, inIsland]
    exact h.exact k fine

end NetJoined

/-- The net had no island and gets that of its first component. -/
theorem NetJoined.adopted {id : NetId} {c : DeviceComponent} {mid : DerivedTopology} (j : NetJoined id c self mid)
    (h : IslandsSound registry network self) (consistent : network'.Consistent registry)
    (directory : network'.deviceArena.directory = network.deviceArena.directory)
    (heads : network'.deviceArena.heads = network.deviceArena.heads) (nets : next.nets = mid.nets)
    (islands : next.islands = self.islands) (chunks : next.deviceChunks = self.deviceChunks) {i : IslandId}
    (length : next.netIslandMap.length = self.netIslandMap.length)
    (entries : ∀ m, next.islandOfNet m = if m = id then some i else self.islandOfNet m)
    (none' : self.islandOfNet id = none) (on : self.islandOf network c = some i) :
    IslandsSound registry network' next := by
  obtain ⟨value, held, changed⟩ := j.changed
  have get : ∀ m, next.nets.get m = (self.nets.get m).map fun net =>
      if m = id then { net with terminalComponents := net.terminalComponents ++ [c] } else net := by
    rw [nets]
    exact j.get
  have touches : ∀ m d, next.Touches m d ↔ self.Touches m d ∨ m = id ∧ d = c := by
    intro m d
    rw [Touches, nets]
    exact j.touches m d
  have components : ∀ d, next.islandOf network' d = self.islandOf network d := islandOf_congr chunks directory
  have untouched : ∀ d, ¬ self.Touches id d := by
    intro d there
    obtain ⟨k, at'⟩ := h.reached id d there
    rw [none'] at at'
    simp at at'
  have labels : Labels (next.InIsland network') next.Attached (next.islandLabel network') := by
    refine Labels.attach (IslandsOk.labels h) h.undirected (w := .net id) (x := .component c) (fun u => ?_) ?_ ?_
      (fun u v => ?_) (fun u there => ?_) ?_
    · cases u with
      | net m =>
        rw [InIsland, islandLabel, entries, InIsland, islandLabel]
        by_cases same : m = id
        · simp [same]
        · simp [same]
      | component d =>
        rw [InIsland, islandLabel, components, InIsland, islandLabel]
        simp
    · exact fun there => there none'
    · rw [InIsland, islandLabel, on]
      simp
    · cases u <;> cases v <;> simp [Attached, Link, touches, and_comm]
    · cases u with
      | net m =>
        refine (entries m).trans (if_neg fun same => there ?_)
        rw [same]
        exact none'
      | component d => exact components d
    · exact (entries id).trans ((if_pos rfl).trans on.symm)
  refine ⟨islands ▸ h.sound, h.beside.relink consistent directory heads chunks, ?_, fun m gone => ?_,
    fun m k at' => ?_, fun d k at' => ?_, ?_, fun k island here d member => ?_, ?_, fun m k _ at' => ?_,
    fun m d touching => ?_, labels.coarse, fun k _ => labels.exact (some k)⟩
  · rw [length, nets, changed.slots]
    exact h.map
  · rw [get, Option.map_eq_none_iff] at gone
    rw [entries, if_neg, h.removed m gone]
    intro same
    rw [same, held] at gone
    simp at gone
  · rw [islands]
    rw [entries] at at'
    split at at'
    · obtain rfl := Option.some.inj at'
      obtain ⟨island, here, -⟩ := h.named c i on
      exact ⟨island, here⟩
    · exact h.alive m k at'
  · rw [islands]
    exact h.named d k ((components d).symm.trans at')
  · rw [islands]
    exact h.nodup
  · rw [islands] at here
    exact (components d).trans (h.members k island here d member)
  · rw [islands]
    exact h.nonempty
  · by_cases same : m = id
    · exact ⟨c, (touches m c).mpr (Or.inr ⟨same, rfl⟩)⟩
    · rw [entries, if_neg same] at at'
      obtain ⟨d, touching⟩ := h.anchored m k not_false at'
      exact ⟨d, (touches m d).mpr (Or.inl touching)⟩
  · rw [entries]
    rcases (touches m d).mp touching with old | ⟨rfl, -⟩
    · rw [if_neg fun same : m = id => untouched d (same ▸ old)]
      exact h.reached m d old
    · exact ⟨i, if_pos rfl⟩

variable [F64 F]

theorem attachTerminal_maintains (partitioned : registry.Partitioned) (h : Maintained registry network self)
    {wire : WireId} {device : DeviceId} {terminal : TerminalId} {fits : terminal.id < 2 ^ 31}
    (live : network.LiveWire wire) (free : ∀ c, ¬ network.Lists (.terminal device terminal fits) c)
    (linked : Network.Relinked registry network network'
      (Link network.Lists (.wire wire) (.terminal device terminal fits))) :
    ∃ next, self.attachTerminal registry network' wire device terminal = some next ∧
      Maintains registry network network' self next := by
  have consistent := linked.consistent
  have edit : Network.AttachedAt network network' wire device terminal.index := .of_link h.consistent free linked
  have lives := linked.same.wires.live
  have edges : ∀ u v, network'.WireEdge u v ↔ network.WireEdge u v := by
    intro u v
    simp [Network.WireEdge, linked.lists, Link]
  obtain ⟨id, onNet⟩ := h.nets.isSome live
  obtain ⟨net, held, -⟩ := h.nets.named wire id onNet
  obtain ⟨definition, partition, known', read, component⟩ :=
    Network.component_of_attached consistent.toStored partitioned edit.attached
  have known : network.definitionOf registry device = some definition := by
    rw [Network.definitionOf_eq, ← edit.places.definitions, ← Network.definitionOf_eq, known']
  obtain ⟨definitionId, -, registered⟩ := Option.bind_eq_some_iff.mp ((Network.definitionOf_eq device).symm.trans known)
  have inRange := (partitioned _ _ registered).inRange partition (List.mem_of_getElem? read)
  let c : DeviceComponent := ⟨device, partition⟩
  obtain ⟨i, on⟩ := @Beside.islandOf_isSome F registry network self h.islands.beside c definition known inRange
  obtain ⟨value, heldI, member⟩ := h.islands.named c i on
  have beside : Beside registry network' self :=
    h.islands.beside.relink consistent edit.places.directory edit.places.heads rfl
  have on' : self.islandOf network' c = some i := (islandOf_congr rfl edit.places.directory c).trans on
  obtain ⟨nets, modified, changed⟩ := DenseIdStore.modify_spec h.nets.sound held
    fun net : Net => { net with terminalComponents := net.terminalComponents ++ [c] }
  let mid : DerivedTopology := { self with nets }
  have joined : NetJoined id c self mid := ⟨⟨net, held, changed⟩, rfl⟩
  have netsOk : NetsSound registry network' mid := joined.nets_ok h.nets lives edges edit known read onNet
  have finish : ∀ next : DerivedTopology, next.nets = mid.nets → next.wireNetMap = self.wireNetMap →
      IslandsSound registry network' next → Dirtied self next → InvalidationOk next →
      (i ∈ next.invalidation.topologyDirty ∨ next.islands.get i = none) →
        Maintains registry network network' self next := by
    intro next sameNets sameWires islands dirtied invalidation marked
    refine .of_component h on ⟨consistent, netsOk.of_nets sameNets sameWires, islands, invalidation⟩ dirtied
      sameWires edit.places.definitions (fun other different definition' t known'' read' => ?_) marked
    exact attached_others edit known read different known'' read'
  unfold attachTerminal
  rw [bind_of_eq_some onNet, bind_of_eq_some component, bind_of_eq_some (beside.componentIsland_eq on'),
    modifyNet, bind_of_eq_some modified, bind_of_eq_some rfl]
  rw [bind_of_eq_some (show mid.netIsland id = some (self.islandOfNet id) from
    h.islands.netIsland_eq h.nets.sound held)]
  obtain ⟨bumped, bump, bumpChanged⟩ := DenseIdStore.modify_spec h.islands.sound heldI IslandTopology.bumpRevision
  cases label : self.islandOfNet id with
  | none =>
    obtain ⟨map, set, length, entries⟩ := @setNetIsland_spec mid id
      (show id.index < self.netIslandMap.length from h.islands.map ▸ h.nets.sound.index_lt held) (some i)
    let adopted : DerivedTopology := { mid with netIslandMap := map }
    have islands : IslandsSound registry network' adopted := joined.adopted h.islands consistent
      edit.places.directory edit.places.heads rfl rfl rfl length entries label on
    have invalidation : InvalidationOk adopted := h.invalidation.of_same rfl rfl
    obtain ⟨dirtied, invalidation', dirty⟩ := @dirtied_of_modified adopted
      ({ adopted with islands := bumped }.markTopologyDirty i) invalidation i value _ heldI bumpChanged rfl
    refine ⟨{ adopted with islands := bumped }.markTopologyDirty i, ?_, finish _ rfl rfl ?_ ?_ invalidation'
      (Or.inl dirty)⟩
    · dsimp only
      rw [bind_of_eq_some set, modifyIsland, bind_of_eq_some bump, bind_of_eq_some rfl]
    · exact (islands.modified heldI bumpChanged rfl).marked _
    · exact (show Dirtied self adopted from .of_same rfl rfl).trans h.islands.sound h.invalidation dirtied
  | some k =>
    have labelled := joined.labelled h.islands consistent edit.places.directory edit.places.heads rfl rfl rfl label
    dsimp only
    by_cases same : k = i
    · -- the net and the component already share an island
      subst same
      rw [if_pos rfl, modifyIsland, bind_of_eq_some bump]
      obtain ⟨dirtied, invalidation, dirty⟩ := @dirtied_of_modified mid
        ({ mid with islands := bumped }.markTopologyDirty k) (h.invalidation.of_same rfl rfl) k value _ heldI
        bumpChanged rfl
      have islands : IslandsSound registry network' mid := by
        have coarse : Coarse mid.Attached (mid.islandLabel network') := by
          intro u v step
          rcases (joined.attached u v).mp step with old | ⟨rfl, rfl⟩ | ⟨rfl, rfl⟩
          · exact labelled.coarse u v old
          · exact label.trans on'.symm
          · exact on'.trans label.symm
        refine ⟨labelled.sound, labelled.beside, labelled.map, labelled.removed, labelled.alive, labelled.named,
          labelled.nodup, labelled.members, labelled.nonempty, labelled.anchored, labelled.reached, coarse,
          fun j fine u v hu hv hui hvi => ?_⟩
        exact ReflTransGen.mono (fun u v old => (joined.attached u v).mpr (Or.inl old)) _ _
          (labelled.exact j fine u v hu hv hui hvi)
      refine ⟨{ mid with islands := bumped }.markTopologyDirty k, by rw [bind_of_eq_some rfl], finish _ rfl rfl ?_ ?_
        invalidation (Or.inl dirty)⟩
      · exact (islands.modified heldI bumpChanged rfl).marked _
      · exact (show Dirtied self mid from .of_same rfl rfl).trans h.islands.sound h.invalidation dirtied
    · -- the edge joins two islands
      rw [if_neg same]
      obtain ⟨other, heldK⟩ := h.islands.alive id k label
      obtain ⟨src, dst, lost, kept, next, run, which, heldSrc, heldDst, merged⟩ :=
        @mergeIslands_spec F registry network' mid _ consistent partitioned labelled.beside (fun wire live' => by
          obtain ⟨m, onM⟩ := netsOk.isSome live'
          obtain ⟨net', held', -⟩ := netsOk.named wire m onM
          exact ⟨m, onM, labelled.map ▸ netsOk.sound.index_lt held'⟩) labelled.sound labelled.members k i same
          other value heldK heldI
      have apart : src ≠ dst := by
        rcases which with ⟨rfl, rfl⟩ | ⟨rfl, rfl⟩
        · exact same
        · exact Ne.symm same
      have anchored : ∀ m, mid.islandOfNet m = some src →
          ∃ d ∈ lost.components, LeadsTo registry network' mid d m := by
        intro m atM
        obtain ⟨d, old⟩ := h.islands.anchored m src not_false atM
        have touching : mid.Touches m d := (joined.touches m d).mpr (Or.inl old)
        have atD : self.islandOf network d = some src := (h.islands.coarse (.component d) (.net m) old).trans atM
        obtain ⟨island, here, memberD⟩ := h.islands.named d src atD
        obtain rfl := Option.some.inj (heldSrc.symm.trans here)
        obtain ⟨net', held', listed⟩ := touching
        exact ⟨d, memberD, (touches_iff netsOk not_false held' d).mp ⟨net', held', listed⟩⟩
      obtain ⟨dirtied, invalidation, dirty⟩ :=
        merged.dirtied (h.invalidation.of_same rfl rfl) labelled.sound apart heldSrc heldDst
      have labelNet : mid.islandLabel network' (.net id) = some k := label
      have labelC : mid.islandLabel network' (.component c) = some i := on'
      have undirected : Undirected (mid.InIsland network') mid.Attached := by
        refine ⟨fun step => step.symm, fun {u v} step => ?_⟩
        rcases (joined.attached u v).mp step with old | ⟨rfl, -⟩ | ⟨rfl, -⟩
        · have there := h.islands.undirected.left old
          cases u with
          | net m => exact there
          | component d => exact fun gone => there ((islandOf_congr rfl edit.places.directory d).symm.trans gone)
        · rw [InIsland, labelNet]
          simp
        · rw [InIsland, labelC]
          simp
      have islands : IslandsSound registry network' next := by
        have nextAttached : next.Attached = mid.Attached := by
          have : ∀ m d, next.Touches m d ↔ mid.Touches m d := by
            intro m d
            rw [Touches, Touches, merged.nets]
          funext u v
          cases u <;> cases v <;> simp only [Attached, this]
        have ends : ∀ u v, mid.Attached u v → mid.islandLabel network' u = mid.islandLabel network' v ∨
            ((mid.islandLabel network' u = some dst ∨ mid.islandLabel network' u = some src) ∧
              (mid.islandLabel network' v = some dst ∨ mid.islandLabel network' v = some src)) := by
          intro u v step
          rcases (joined.attached u v).mp step with old | ⟨rfl, rfl⟩ | ⟨rfl, rfl⟩
          · exact Or.inl (labelled.coarse u v old)
          · rw [labelNet, labelC]
            rcases which with ⟨rfl, rfl⟩ | ⟨rfl, rfl⟩ <;> simp
          · rw [labelNet, labelC]
            rcases which with ⟨rfl, rfl⟩ | ⟨rfl, rfl⟩ <;> simp
        have sub : ∀ u v, self.Attached u v → mid.Attached u v := fun u v old =>
          (joined.attached u v).mpr (Or.inl old)
        show IslandsLabelled next.Attached _ registry network' next
        rw [nextAttached]
        rcases which with ⟨rfl, rfl⟩ | ⟨rfl, rfl⟩
        · exact merged.labelled labelled apart heldSrc heldDst anchored undirected sub ends
            ((joined.attached _ _).mpr (Or.inr (Or.inr ⟨rfl, rfl⟩))) labelC labelNet
        · exact merged.labelled labelled apart heldSrc heldDst anchored undirected sub ends
            ((joined.attached _ _).mpr (Or.inr (Or.inl ⟨rfl, rfl⟩))) labelNet labelC
      refine ⟨next, by rw [bind_of_eq_some run], finish next merged.nets merged.wireNetMap islands ?_ invalidation ?_⟩
      · exact (show Dirtied self mid from .of_same rfl rfl).trans h.islands.sound h.invalidation dirtied
      · rcases which with ⟨rfl, rfl⟩ | ⟨rfl, rfl⟩
        · exact Or.inl dirty
        · exact Or.inr ((merged.get apart src).trans (if_pos rfl))

/-! ### Detaching -/

omit [F64 F] in
/-- Components are gone and attachments lost; only of the `bad` islands. -/
theorem IslandsOk.lessened {bad : IslandId → Prop} (gone : DeviceComponent → Prop)
    (h : IslandsSound registry network self) (sound : next.islands.Sound)
    (beside : Beside registry network' next) (map : next.netIslandMap.length = next.nets.slotCount)
    (removed : ∀ m, next.nets.get m = none → self.nets.get m = none)
    (labels : ∀ m, next.islandOfNet m = self.islandOfNet m)
    (components : ∀ d, ¬ gone d → next.islandOf network' d = self.islandOf network d)
    (lost : ∀ d, gone d → next.islandOf network' d = none)
    (back : ∀ k island, next.islands.get k = some island → ∃ old, self.islands.get k = some old ∧
      island.components.Sublist old.components ∧ ∀ d, d ∈ island.components ↔ d ∈ old.components ∧ ¬ gone d)
    (forth : ∀ k old, self.islands.get k = some old → ∃ island, next.islands.get k = some island)
    (touches : ∀ m d, next.Touches m d → self.Touches m d ∧ ¬ gone d)
    (kept : ∀ m d, self.Touches m d → ¬ gone d → (∀ k, self.islandOfNet m = some k → ¬ bad k) → next.Touches m d)
    (ofBad : ∀ d k, gone d → self.islandOf network d = some k → bad k) :
    IslandsOk bad registry network' next := by
  have label : ∀ v, next.islandLabel network' v = none ∨
      next.islandLabel network' v = self.islandLabel network v := by
    intro v
    cases v with
    | net m => exact Or.inr (labels m)
    | component d =>
      by_cases isGone : gone d
      · exact Or.inl (lost d isGone)
      · exact Or.inr (components d isGone)
  have before : ∀ v k, next.islandLabel network' v = some k → self.islandLabel network v = some k := by
    intro v k on
    rcases label v with none' | same
    · rw [none'] at on
      simp at on
    · exact same.symm.trans on
  have present : ∀ d k, next.islandOf network' d = some k → ¬ gone d := by
    intro d k on isGone
    rw [lost d isGone] at on
    simp at on
  have edge : ∀ m d, next.Touches m d → next.islandOfNet m = next.islandOf network' d := by
    intro m d there
    obtain ⟨old, stays⟩ := touches m d there
    rw [labels, components d stays]
    exact h.coarse (.net m) (.component d) old
  refine ⟨sound, beside, map, fun m none' => (labels m).trans (h.removed m (removed m none')),
    fun m k on => ?_, fun d k on => ?_, fun k island held => ?_, fun k island held d member => ?_,
    fun k island fine held => ?_, fun m k fine on => ?_, fun m d there => ?_, fun u v step => ?_,
    fun k fine u v hu hv hui hvi => ?_⟩
  · obtain ⟨old, held⟩ := h.alive m k ((labels m).symm.trans on)
    exact forth k old held
  · obtain ⟨old, held, member⟩ := h.named d k (before (.component d) k on)
    obtain ⟨island, held'⟩ := forth k old held
    obtain ⟨old', held'', -, members⟩ := back k island held'
    obtain rfl := Option.some.inj (held.symm.trans held'')
    exact ⟨island, held', (members d).mpr ⟨member, present d k on⟩⟩
  · obtain ⟨old, held', sub, -⟩ := back k island held
    exact sub.nodup (h.nodup k old held')
  · obtain ⟨old, held', -, members⟩ := back k island held
    obtain ⟨member', stays⟩ := (members d).mp member
    exact (components d stays).trans (h.members k old held' d member')
  · obtain ⟨old, held', -, members⟩ := back k island held
    obtain ⟨d, member⟩ := List.exists_mem_of_ne_nil _ (h.nonempty k old not_false held')
    have stays : ¬ gone d := fun isGone => fine (ofBad d k isGone (h.members k old held' d member))
    exact List.ne_nil_of_mem ((members d).mpr ⟨member, stays⟩)
  · have on' := (labels m).symm.trans on
    obtain ⟨d, there⟩ := h.anchored m k not_false on'
    have label' : self.islandOf network d = some k := (h.coarse (.component d) (.net m) there).trans on'
    refine ⟨d, kept m d there (fun isGone => fine (ofBad d k isGone label')) fun j at' => ?_⟩
    obtain rfl := Option.some.inj (on'.symm.trans at')
    exact fine
  · obtain ⟨k, on⟩ := h.reached m d (touches m d there).1
    exact ⟨k, (labels m).trans on⟩
  · cases u with
    | net m =>
      cases v with
      | net other => exact step.elim
      | component d => exact edge m d step
    | component d =>
      cases v with
      | component other => exact step.elim
      | net m => exact (edge m d step).symm
  · have hui' := before u k hui
    have path := h.exact k not_false u v (by rw [InIsland, hui']; simp)
      (by rw [InIsland, before v k hvi]; simp) hui' (before v k hvi)
    clear hu hv hui hvi
    induction path with
    | refl => exact .refl
    | @tail x y earlier step ih =>
      refine ih.tail ?_
      have atX := (h.coarse.reach earlier).symm.trans hui'
      have atY := (h.coarse x y step).symm.trans atX
      have stays : ∀ m d, self.Touches m d → self.islandOfNet m = some k → self.islandOf network d = some k →
          next.Touches m d := by
        intro m d there atM atD
        refine kept m d there (fun isGone => fine (ofBad d k isGone atD)) fun j at' => ?_
        obtain rfl := Option.some.inj (atM.symm.trans at')
        exact fine
      cases x with
      | net m =>
        cases y with
        | net other => exact step.elim
        | component d => exact stays m d step atX atY
      | component d =>
        cases y with
        | component other => exact step.elim
        | net m => exact stays m d step atY atX

omit [F64 F] in
/-- One matching member of the net's list goes. -/
theorem removeIncidence_spec (sound : self.nets.Sound) {id : NetId} {net : Net}
    (held : self.nets.get id = some net) {p : DeviceComponent → Bool} {c : DeviceComponent}
    (member : c ∈ net.terminalComponents) (holds : p c = true) :
    ∃ removed rest nets, self.removeIncidence id p = some { self with nets } ∧ p removed = true ∧
      net.terminalComponents.Perm (removed :: rest) ∧
      DenseIdStore.Changed self.nets nets id { net with terminalComponents := rest } := by
  obtain ⟨removed, read, holds'⟩ := getElem?_findIdx member holds
  have position : net.terminalComponents.findIdx? p = some (net.terminalComponents.findIdx p) :=
    List.findIdx?_eq_some_iff_findIdx_eq.mpr ⟨(List.getElem?_eq_some_iff.mp read).1, rfl⟩
  obtain ⟨nets, modified, changed⟩ := DenseIdStore.modify_spec sound held fun other : Net =>
    { other with terminalComponents := swapRemove other.terminalComponents (net.terminalComponents.findIdx p) }
  refine ⟨removed, _, nets, ?_, holds', swapRemove_perm read, changed⟩
  unfold removeIncidence
  rw [bind_of_eq_some held, bind_of_eq_some position, modifyNet, bind_of_eq_some modified]

/-- The island of the wire falls into more islands than there are ids for. -/
def DetachShort (wiring : Wiring) (topology : DerivedTopology) (wire : WireId) : Prop :=
  ∃ id i, topology.wireNet wire = some id ∧ topology.islandOfNet id = some i ∧ IslandsShort wiring topology [i]

theorem detachTerminal_maintains (partitioned : registry.Partitioned) (h : Maintained registry network self)
    {wire : WireId} {device : DeviceId} {terminal : TerminalId} {fits : terminal.id < 2 ^ 31}
    (listed : network.Lists (.wire wire) (.terminal device terminal fits))
    (unlinked : Network.Relinked registry network network'
      (Unlink network.Lists (.wire wire) (.terminal device terminal fits)))
    {scratch : TraversalScratch} (scratchSound : scratch.Sound) :
    Returns (DetachShort (network'.wiring registry) self wire) (self.detachTerminal registry network' scratch wire device terminal)
      fun result => ¬ DetachShort (network'.wiring registry) self wire ∧
        Maintains registry network network' self result.1 ∧ result.2.Sound := by
  have consistent := unlinked.consistent
  have edit : Network.AttachedAt network' network wire device terminal.index :=
    .of_unlink h.consistent listed unlinked
  have places := edit.places.symm
  have lives := unlinked.same.wires.live
  have edges : ∀ u v, network'.WireEdge u v ↔ network.WireEdge u v := by
    intro u v
    simp [Network.WireEdge, unlinked.lists, Unlink]
  obtain ⟨id, onNet⟩ := h.nets.isSome (Network.attachedWire_live h.consistent edit.attached)
  obtain ⟨net, held, -⟩ := h.nets.named wire id onNet
  obtain ⟨definition, partition, known, read, -⟩ :=
    Network.component_of_attached h.consistent.toStored partitioned edit.attached
  have known' : network'.definitionOf registry device = some definition := by
    rw [Network.definitionOf_eq, places.definitions, ← Network.definitionOf_eq, known]
  let c : DeviceComponent := ⟨device, partition⟩
  have component : terminalComponent registry network' device terminal = some c := by
    rw [Network.terminalComponent_eq consistent.toStored, known', Option.bind_some, read, Option.map_some]
  have touching : self.Touches id c := (touches_iff h.nets not_false held c).mpr
    ⟨terminal.index, wire, definition, edit.attached, onNet, known, read⟩
  obtain ⟨i, label⟩ := h.islands.reached id c touching
  have on : self.islandOf network c = some i := (h.islands.coarse (.component c) (.net id) touching).trans label
  obtain ⟨island, heldI, -⟩ := h.islands.named c i on
  have components : ∀ d, self.islandOf network' d = self.islandOf network d := islandOf_congr rfl places.directory
  have beside : Beside registry network' self := h.islands.beside.relink consistent places.directory places.heads rfl
  have member : c ∈ net.terminalComponents := by
    obtain ⟨net', held', member⟩ := touching
    obtain rfl := Option.some.inj (held.symm.trans held')
    exact member
  obtain ⟨removed, rest, nets, run, isC, perm, changed⟩ := removeIncidence_spec h.nets.sound held member
    (p := fun member => decide (member = c)) (decide_eq_true rfl)
  obtain rfl : removed = c := of_decide_eq_true isC
  let mid : DerivedTopology := { self with nets }
  have get : ∀ m, mid.nets.get m = if m = id then some { net with terminalComponents := rest } else self.nets.get m :=
    changed.get
  have netsOk : NetsSound registry network' mid := by
    refine h.nets.relisted lives edges changed.sound rfl (fun m value here => ?_) (fun m old here => ?_)
      fun m value here other => ?_
    · rw [get] at here
      split at here
      · rename_i same
        obtain rfl := Option.some.inj here
        exact ⟨net, same ▸ held, rfl⟩
      · exact ⟨value, here, rfl⟩
    · rw [get]
      split
      · rename_i same
        rw [same, held] at here
        obtain rfl := Option.some.inj here
        exact ⟨_, rfl, rfl⟩
      · exact ⟨old, here, rfl⟩
    · have change := edit.incidences known' read (fun wire => decide (self.wireNet wire = some m)) other
      rw [get] at here
      rw [onNet] at change
      split at here
      · rename_i same
        subst same
        obtain rfl := Option.some.inj here
        have before := (perm.filter fun d => d.device = other).symm.trans (h.nets.terminals m net not_false held other)
        by_cases isDevice : other = device
        · subst isDevice
          rw [List.filter_cons, if_pos (decide_eq_true (show c.device = other from rfl))] at before
          rw [if_pos ⟨decide_eq_true rfl, rfl⟩] at change
          exact List.Perm.cons_inv (before.trans change)
        · rw [List.filter_cons_of_neg (by simpa using Ne.symm isDevice)] at before
          rw [if_neg fun both => isDevice both.2] at change
          exact before.trans change
      · rename_i different
        rw [if_neg fun both => different (Option.some.inj (of_decide_eq_true both.1)).symm] at change
        exact (h.nets.terminals m value not_false here other).trans change
  have touches : ∀ m d, mid.Touches m d → self.Touches m d := by
    intro m d there
    obtain ⟨value, here, listed'⟩ := there
    rw [get] at here
    split at here
    · rename_i same
      obtain rfl := Option.some.inj here
      exact ⟨net, same ▸ held, perm.mem_iff.mpr (List.mem_cons_of_mem _ listed')⟩
    · exact ⟨value, here, listed'⟩
  have kept : ∀ m d, self.Touches m d → m ≠ id → mid.Touches m d := by
    intro m d there different
    obtain ⟨value, here, listed'⟩ := there
    exact ⟨value, by rw [get, if_neg different, here], listed'⟩
  have islands : IslandsOk (· = i) registry network' mid := by
    refine IslandsOk.lessened (fun _ => False) h.islands h.islands.sound ⟨beside.arena, beside.aligned⟩
      (by rw [show mid.nets.slotCount = self.nets.slotCount from changed.slots]; exact h.islands.map)
      (fun m none' => ?_) (fun _ => rfl) (fun d _ => components d) (fun _ never => never.elim)
      (fun k value here => ⟨value, here, .refl _, fun d => by simp⟩) (fun k old here => ⟨old, here⟩)
      (fun m d there => ⟨touches m d there, not_false⟩) (fun m d there _ fine => kept m d there fun same => ?_)
      fun _ _ never => never.elim
    · rw [get] at none'
      split at none'
      · simp at none'
      · exact none'
    · subst same
      exact fine i label rfl
  unfold detachTerminal
  rw [bind_of_eq_some onNet, bind_of_eq_some component,
    bind_of_eq_some (beside.componentIsland_eq ((components c).trans on)), bind_of_eq_some run]
  have repair := @repairIsland_spec F registry network' mid _ _ consistent partitioned netsOk islands i island heldI
    [id] (fun m member => by rw [List.mem_singleton.mp member]; exact label) (fun m at' => by
      by_cases same : m = id
      · exact Or.inr (List.mem_singleton.mpr same)
      · obtain ⟨d, there⟩ := h.islands.anchored m i not_false at'
        exact Or.inl ⟨d, kept m d there same⟩) scratch scratchSound
  have short := @islandsShort_single self (network'.wiring registry) i island heldI fun d member => by
    show (network'.record d.device).isSome = true
    rw [places.resident]
    exact h.resident heldI member
  refine repair.mono (fun few => ⟨id, i, onNet, label, short.mpr few⟩) fun result post => ?_
  obtain ⟨enough, repaired, sound'⟩ := post
  refine ⟨?_, ?_⟩
  · rintro ⟨id', i', onNet', label', few⟩
    obtain rfl := Option.some.inj (onNet.symm.trans onNet')
    obtain rfl := Option.some.inj (label.symm.trans label')
    exact enough (short.mp few)
  obtain ⟨dirtied, invalidation, marked⟩ :=
    repaired.dirtied (h.invalidation.of_same rfl rfl) h.islands.sound heldI
  refine ⟨.of_component h on ⟨consistent, netsOk.of_nets repaired.nets repaired.wireNetMap,
    repaired.ok.mono fun j both => both.2 both.1, invalidation⟩
    ((show Dirtied self mid from .of_same rfl rfl).trans h.islands.sound h.invalidation dirtied)
    repaired.wireNetMap places.definitions (fun other different definition' t known'' read' => ?_) marked, sound'⟩
  refine (attached_others edit known' read different ?_ read').symm
  rw [Network.definitionOf_eq, places.definitions, ← Network.definitionOf_eq, known'']

end DerivedTopology

end Hynergy
