import Hynergy.Topology.Invariant

/-!
# Merging two islands

The components of the smaller island move to the larger one, and the nets they lead to with
them.
-/

namespace Hynergy

open Lib Relation

variable {F : Type}

namespace DerivedTopology

variable {registry : DefinitionRegistry F} {network : Network F} {self next : DerivedTopology}

/-- The nets of `src` that `moves` names are in `dst` now. -/
structure Retagged (src dst : IslandId) (moves : NetId → Prop) (before after : DerivedTopology) :
    Prop where
  nets : after.nets = before.nets
  wireNetMap : after.wireNetMap = before.wireNetMap
  islands : after.islands = before.islands
  invalidation : after.invalidation = before.invalidation
  length : after.netIslandMap.length = before.netIslandMap.length
  moved : ∀ id, before.islandOfNet id = some src → moves id → after.islandOfNet id = some dst
  stays : ∀ id, ¬ (before.islandOfNet id = some src ∧ moves id) →
    after.islandOfNet id = before.islandOfNet id

namespace Retagged

variable {src dst : IslandId} {moves moves' : NetId → Prop} {before mid after : DerivedTopology}

theorem refl (src dst : IslandId) (self : DerivedTopology) : Retagged src dst (fun _ => False) self self :=
  ⟨rfl, rfl, rfl, rfl, rfl, fun _ _ never => never.elim, fun _ _ => rfl⟩

theorem trans (apart : src ≠ dst) (h : Retagged src dst moves before mid)
    (h' : Retagged src dst moves' mid after) :
    Retagged src dst (fun id => moves id ∨ moves' id) before after := by
  refine ⟨h'.nets.trans h.nets, h'.wireNetMap.trans h.wireNetMap, h'.islands.trans h.islands,
    h'.invalidation.trans h.invalidation, h'.length.trans h.length, ?_, ?_⟩
  · intro id on either
    by_cases first : moves id
    · have there := h.moved id on first
      rw [h'.stays id, there]
      rw [there]
      exact fun both => apart (Option.some.inj both.1).symm
    · have there := (h.stays id fun both => first both.2).trans on
      exact h'.moved id there (either.resolve_left first)
  · intro id not'
    have here := h.stays id fun both => not' ⟨both.1, Or.inl both.2⟩
    rw [h'.stays id, here]
    rw [here]
    exact fun both => not' ⟨both.1, Or.inr both.2⟩

theorem congr (h : Retagged src dst moves before after) (same : ∀ id, moves' id ↔ moves id) :
    Retagged src dst moves' before after := by
  have : moves' = moves := by
    funext id
    exact propext (same id)
  rwa [this]

end Retagged

/-- A terminal of partition `c.partition` that is attached to a wire of the net. -/
def terminalLeads (topology : DerivedTopology) (c : DeviceComponent)
    (terminalPartitions : List DevicePartitionId) (terminal : Option ConnectionRef × Nat) (id : NetId) :
    Prop :=
  terminalPartitions[terminal.2]? = some c.partition ∧
    ∃ wire, terminal.1 = some (.wire wire) ∧ topology.wireNet wire = some id

theorem retagNet_spec {c : DeviceComponent} {src dst : IslandId}
    {terminalPartitions : List DevicePartitionId} {terminal : Option ConnectionRef × Nat}
    (narrow : terminal.2 < terminalPartitions.length)
    (linked : ∀ wire, terminal.1 = some (.wire wire) →
      ∃ id, self.wireNet wire = some id ∧ id.index < self.netIslandMap.length) :
    ∃ next, self.retagNet c src dst terminalPartitions terminal = some next ∧
      next.deviceChunks = self.deviceChunks ∧
      Retagged src dst (self.terminalLeads c terminalPartitions terminal) self next := by
  obtain ⟨connection, t⟩ := terminal
  unfold retagNet
  dsimp only at narrow linked ⊢
  rw [bind_of_eq_some (List.getElem?_eq_getElem narrow)]
  have unmoved : (∀ id, self.islandOfNet id = some src →
      ¬ self.terminalLeads c terminalPartitions (connection, t) id) →
      ∃ next, some self = some next ∧ next.deviceChunks = self.deviceChunks ∧
        Retagged src dst (self.terminalLeads c terminalPartitions (connection, t)) self next := fun none' =>
    ⟨self, rfl, rfl, rfl, rfl, rfl, rfl, rfl, fun id on leads => absurd leads (none' id on), fun _ _ => rfl⟩
  by_cases mine : terminalPartitions[t] = c.partition
  swap
  · rw [if_pos mine]
    apply unmoved
    intro id _ leads
    have := leads.1
    rw [List.getElem?_eq_getElem narrow] at this
    exact mine (Option.some.inj this)
  rw [if_neg (not_not_intro mine)]
  match connection with
  | none =>
    apply unmoved
    intro id _ leads
    obtain ⟨-, wire, attached, -⟩ := leads
    simp at attached
  | some (.terminal device port fits) =>
    apply unmoved
    intro id _ leads
    obtain ⟨-, wire, attached, -⟩ := leads
    simp at attached
  | some (.wire wire) =>
    obtain ⟨id, on, inside⟩ := linked wire rfl
    dsimp only
    rw [bind_of_eq_some on, bind_of_eq_some (netIsland_of_lt inside)]
    have only : ∀ other, self.terminalLeads c terminalPartitions (some (.wire wire), t) other → other = id := by
      intro other leads
      obtain ⟨-, wire', same, on'⟩ := leads
      cases same
      exact Option.some.inj (on'.symm.trans on)
    by_cases here : self.islandOfNet id = some src
    · rw [if_pos here]
      obtain ⟨map, set, length, entries⟩ := setNetIsland_spec inside (some dst)
      refine ⟨_, set, rfl, rfl, rfl, rfl, rfl, length, fun other _ leads => ?_, fun other not' => ?_⟩
      · rw [islandOfNet, netIsland, entries, if_pos (only other leads)]
      · rw [islandOfNet, netIsland, entries, if_neg]
        intro same
        subst same
        exact not' ⟨here, by rw [List.getElem?_eq_getElem narrow, mine], wire, rfl, on⟩
    · rw [if_neg here]
      apply unmoved
      intro other on' leads
      exact here (only other leads ▸ on')

theorem retagNets_spec {c : DeviceComponent} {src dst : IslandId} (apart : src ≠ dst)
    {terminalPartitions : List DevicePartitionId} (terminals : List (Option ConnectionRef × Nat))
    {self : DerivedTopology} (narrow : ∀ p ∈ terminals, p.2 < terminalPartitions.length)
    (linked : ∀ p ∈ terminals, ∀ wire, p.1 = some (.wire wire) →
      ∃ id, self.wireNet wire = some id ∧ id.index < self.netIslandMap.length) :
    ∃ next, terminals.foldlM
        (fun self terminal => self.retagNet c src dst terminalPartitions terminal) self = some next ∧
      next.deviceChunks = self.deviceChunks ∧
      Retagged src dst (fun id => ∃ p ∈ terminals, self.terminalLeads c terminalPartitions p id)
        self next := by
  induction terminals generalizing self with
  | nil => exact ⟨self, rfl, rfl, (Retagged.refl src dst self).congr (by simp)⟩
  | cons p terminals ih =>
    obtain ⟨mid, run, chunks, first⟩ := @retagNet_spec self c src dst terminalPartitions p
      (narrow p List.mem_cons_self) (linked p List.mem_cons_self)
    have wires : mid.wireNet = self.wireNet := by
      funext wire
      rw [wireNet, wireNet, first.wireNetMap]
    obtain ⟨next, runs, chunks', rest⟩ := @ih mid
      (fun q member => narrow q (List.mem_cons_of_mem _ member)) fun q member wire attached => by
        rw [wires, first.length]
        exact linked q (List.mem_cons_of_mem _ member) wire attached
    refine ⟨next, ?_, chunks'.trans chunks, (first.trans apart rest).congr fun id => ?_⟩
    · rw [List.foldlM_cons, bind_of_eq_some run]
      exact runs
    · simp only [List.mem_cons, exists_eq_or_imp, terminalLeads, wires]

variable [F64 F]

theorem retagComponent_spec (consistent : network.Consistent registry) (partitioned : registry.Partitioned)
    (beside : Beside registry network self)
    (linked : ∀ wire, network.LiveWire wire →
      ∃ id, self.wireNet wire = some id ∧ id.index < self.netIslandMap.length)
    {src dst : IslandId} (apart : src ≠ dst) {c : DeviceComponent} {old : IslandId}
    (live : self.islandOf network c = some old) :
    ∃ next, retagComponent registry network src dst self c = some next ∧
      Beside registry network next ∧
      (∀ other, next.islandOf network other = if other = c then some dst else self.islandOf network other) ∧
      Retagged src dst (LeadsTo registry network self c) self next := by
  obtain ⟨chunks, set, beside', islands⟩ := beside.setComponentIsland_spec live dst
  obtain ⟨row, found⟩ := beside.record_of_islandOf live
  obtain ⟨definition, known, defined, length, -⟩ := Network.definition_of_record consistent.toStored found
  have count := (partitioned _ _ known).length
  obtain ⟨next, run, same, retag⟩ := @retagNets_spec c src dst apart definition.terminalPartitions
    row.terminals.zipIdx { self with deviceChunks := chunks }
    (fun p member => by
      have read := List.mem_zipIdx_iff_getElem?.mp member
      rw [count, ← length]
      exact (List.getElem?_eq_some_iff.mp read).1)
    (fun p member wire attached => by
      have read := List.mem_zipIdx_iff_getElem?.mp member
      rw [attached] at read
      exact linked wire (Network.attachedWire_live consistent
        (Network.attachedWire_eq_some.mpr ⟨row, found, read⟩)))
  refine ⟨next, ?_, ?_, fun other => ?_, ?_⟩
  · unfold retagComponent
    rw [bind_of_eq_some set, Network.deviceOf_eq consistent.toStored, found, Option.map_some,
      bind_of_eq_some rfl]
    dsimp only [Network.viewOf]
    rw [bind_of_eq_some known]
    exact run
  · exact ⟨beside'.arena, by rw [same]; exact beside'.aligned⟩
  · rw [islandOf_congr same rfl, islands]
  · have retag' : Retagged src dst _ self next :=
      ⟨retag.nets, retag.wireNetMap, retag.islands, retag.invalidation, retag.length, retag.moved, retag.stays⟩
    refine retag'.congr fun id => ?_
    constructor
    · intro leads
      obtain ⟨t, wire, definition', attached, on, defined', mine⟩ := leads
      obtain rfl := Option.some.inj (defined.symm.trans defined')
      obtain ⟨row', found', read⟩ := Network.attachedWire_eq_some.mp attached
      obtain rfl := Option.some.inj (found.symm.trans found')
      exact ⟨(some (.wire wire), t), List.mem_zipIdx_iff_getElem?.mpr read, mine, wire, rfl, on⟩
    · intro there
      obtain ⟨⟨connection, t⟩, member, mine, wire, rfl, on⟩ := there
      exact ⟨t, wire, definition, Network.attachedWire_eq_some.mpr ⟨row, found,
        List.mem_zipIdx_iff_getElem?.mp member⟩, on, defined, mine⟩

theorem retagComponents_spec (consistent : network.Consistent registry) (partitioned : registry.Partitioned)
    {src dst : IslandId} (apart : src ≠ dst) (components : List DeviceComponent) {self : DerivedTopology}
    (beside : Beside registry network self)
    (linked : ∀ wire, network.LiveWire wire →
      ∃ id, self.wireNet wire = some id ∧ id.index < self.netIslandMap.length)
    (live : ∀ c ∈ components, ∃ old, self.islandOf network c = some old) :
    ∃ next, components.foldlM (retagComponent registry network src dst) self = some next ∧
      Beside registry network next ∧
      (∀ other, next.islandOf network other =
        if other ∈ components then some dst else self.islandOf network other) ∧
      Retagged src dst (fun id => ∃ c ∈ components, LeadsTo registry network self c id) self next := by
  induction components generalizing self with
  | nil =>
    refine ⟨self, rfl, beside, fun other => by rw [if_neg List.not_mem_nil], ?_⟩
    exact (Retagged.refl src dst self).congr (by simp)
  | cons c components ih =>
    obtain ⟨old, here⟩ := live c List.mem_cons_self
    obtain ⟨mid, run, beside', islands, first⟩ :=
      retagComponent_spec consistent partitioned beside linked apart here
    have wires : mid.wireNet = self.wireNet := by
      funext wire
      rw [wireNet, wireNet, first.wireNetMap]
    obtain ⟨next, runs, beside'', islands', rest⟩ := @ih mid beside'
      (fun wire live' => by
        rw [wires, first.length]
        exact linked wire live')
      fun d member => by
        rw [islands]
        split
        · exact ⟨dst, rfl⟩
        · exact live d (List.mem_cons_of_mem _ member)
    refine ⟨next, ?_, beside'', fun other => ?_, (first.trans apart rest).congr fun id => ?_⟩
    · rw [List.foldlM_cons, bind_of_eq_some run]
      exact runs
    · rw [islands', islands]
      by_cases same : other = c
      · simp [same]
      · simp [same]
    · simp only [List.mem_cons, exists_eq_or_imp, LeadsTo, wires]

/-- Island `src` was merged into `dst`. -/
structure Merged (registry : DefinitionRegistry F) (network : Network F) (src dst : IslandId)
    (lost kept : IslandTopology) (before after : DerivedTopology) : Prop where
  nets : after.nets = before.nets
  wireNetMap : after.wireNetMap = before.wireNetMap
  netMap : after.netIslandMap.length = before.netIslandMap.length
  beside : Beside registry network after
  islands : ∃ store, DenseIdStore.Shrunk before.islands store src ∧
    DenseIdStore.Changed store after.islands dst
      { kept with components := kept.components ++ lost.components }.bumpRevision
  islandOf : ∀ c, after.islandOf network c =
    if c ∈ lost.components then some dst else before.islandOf network c
  moved : ∀ id, before.islandOfNet id = some src →
    (∃ c ∈ lost.components, LeadsTo registry network before c id) → after.islandOfNet id = some dst
  stays : ∀ id, ¬ (before.islandOfNet id = some src ∧
    ∃ c ∈ lost.components, LeadsTo registry network before c id) →
      after.islandOfNet id = before.islandOfNet id
  invalidation : after.invalidation = (before.invalidation.markRetired src).markTopologyDirty dst

omit [F64 F] in
theorem Merged.get {src dst : IslandId} {lost kept : IslandTopology}
    (h : Merged registry network src dst lost kept self next) (different : src ≠ dst) (id : IslandId) :
    next.islands.get id = if id = src then none else if id = dst then
      some { kept with components := kept.components ++ lost.components }.bumpRevision
      else self.islands.get id := by
  obtain ⟨store, shrunk, changed⟩ := h.islands
  rw [changed.get]
  by_cases isDst : id = dst
  · rw [if_pos isDst, if_neg (isDst ▸ different.symm), if_pos isDst]
  · rw [if_neg isDst, if_neg isDst]
    exact shrunk.get id

theorem mergeIslands_spec (consistent : network.Consistent registry) (partitioned : registry.Partitioned)
    (beside : Beside registry network self)
    (linked : ∀ wire, network.LiveWire wire →
      ∃ id, self.wireNet wire = some id ∧ id.index < self.netIslandMap.length)
    (sound : self.islands.Sound)
    (members : ∀ id island, self.islands.get id = some island →
      ∀ c ∈ island.components, self.islandOf network c = some id)
    {a b : IslandId} (apart : a ≠ b) {islandA islandB : IslandTopology}
    (heldA : self.islands.get a = some islandA) (heldB : self.islands.get b = some islandB) :
    ∃ src dst lost kept next, self.mergeIslands registry network a b = some (dst, next) ∧
      (src = a ∧ dst = b ∨ src = b ∧ dst = a) ∧ self.islands.get src = some lost ∧
      self.islands.get dst = some kept ∧ Merged registry network src dst lost kept self next := by
  -- which of the two is kept
  have choice : ∃ src dst lost kept, (src = a ∧ dst = b ∨ src = b ∧ dst = a) ∧
      self.islands.get src = some lost ∧ self.islands.get dst = some kept ∧
      (if islandA.components.length ≥ islandB.components.length then (a, b) else (b, a)) = (dst, src) := by
    split
    · exact ⟨b, a, islandB, islandA, Or.inr ⟨rfl, rfl⟩, heldB, heldA, rfl⟩
    · exact ⟨a, b, islandA, islandB, Or.inl ⟨rfl, rfl⟩, heldA, heldB, rfl⟩
  obtain ⟨src, dst, lost, kept, which, heldSrc, heldDst, chosen⟩ := choice
  have different : src ≠ dst := by
    rcases which with ⟨rfl, rfl⟩ | ⟨rfl, rfl⟩
    · exact apart
    · exact apart.symm
  obtain ⟨removed, run, shrunk⟩ := DenseIdStore.remove_spec sound heldSrc
  obtain ⟨mid, runs, beside', islandOf', retag⟩ := @retagComponents_spec F registry network _ consistent
    partitioned src dst different lost.components { self with islands := removed }
    ⟨beside.arena, beside.aligned⟩ linked fun c member => ⟨src, members src lost heldSrc c member⟩
  have heldDst' : mid.islands.get dst = some kept := by
    rw [retag.islands]
    exact (shrunk.get dst).trans (by rw [if_neg different.symm, heldDst])
  obtain ⟨islands, modified, changed⟩ := DenseIdStore.modify_spec (by rw [retag.islands]; exact shrunk.sound)
    heldDst' fun island => { island with components := island.components ++ lost.components }.bumpRevision
  refine ⟨src, dst, lost, kept, (({ mid with islands }.markRetired src).markTopologyDirty dst), ?_, which,
    heldSrc, heldDst, ?_⟩
  · unfold mergeIslands
    rw [if_neg apart, bind_of_eq_some heldA, bind_of_eq_some heldB]
    dsimp only
    rw [chosen]
    dsimp only
    rw [bind_of_eq_some run]
    dsimp only
    rw [bind_of_eq_some runs, modifyIsland, bind_of_eq_some modified, bind_of_eq_some rfl]
  · refine ⟨retag.nets, retag.wireNetMap, retag.length, ⟨beside'.arena, beside'.aligned⟩,
      ⟨removed, shrunk, ?_⟩, islandOf', retag.moved, retag.stays, ?_⟩
    · rw [retag.islands] at changed
      exact changed
    · show ((mid.invalidation.markRetired src).markTopologyDirty dst) = _
      rw [retag.invalidation]

omit [F64 F] in
/-- The labels after a merge, when every net of the lost island leads to one of its components. -/
theorem Merged.label {src dst : IslandId} {lost kept : IslandTopology}
    (h : Merged registry network src dst lost kept self next)
    (named : ∀ c, self.islandOf network c = some src ↔ c ∈ lost.components)
    (anchored : ∀ id, self.islandOfNet id = some src →
      ∃ c ∈ lost.components, LeadsTo registry network self c id) (v : IslandVertex) :
    next.islandLabel network v =
      if self.islandLabel network v = some src then some dst else self.islandLabel network v := by
  cases v with
  | net id =>
    by_cases on : self.islandOfNet id = some src
    · exact (h.moved id on (anchored id on)).trans (if_pos on).symm
    · exact (h.stays id fun both => on both.1).trans (if_neg on).symm
  | component c =>
    refine (h.islandOf c).trans ?_
    simp only [islandLabel, named]

omit [F64 F] in
/-- Islands joined by a new edge are merged. -/
theorem Merged.labelled {R R' : IslandVertex → IslandVertex → Prop} {src dst : IslandId}
    {lost kept : IslandTopology} (h : IslandsLabelled R (fun _ => False) registry network self)
    (merged : Merged registry network src dst lost kept self next) (different : src ≠ dst)
    (heldSrc : self.islands.get src = some lost) (heldDst : self.islands.get dst = some kept)
    (anchored : ∀ id, self.islandOfNet id = some src →
      ∃ c ∈ lost.components, LeadsTo registry network self c id)
    (undirected : Undirected (self.InIsland network) R') (sub : ∀ u v, R u v → R' u v)
    (new : ∀ u v, R' u v → self.islandLabel network u = self.islandLabel network v ∨
      ((self.islandLabel network u = some dst ∨ self.islandLabel network u = some src) ∧
        (self.islandLabel network v = some dst ∨ self.islandLabel network v = some src)))
    {x y : IslandVertex} (edge : R' x y) (atX : self.islandLabel network x = some dst)
    (atY : self.islandLabel network y = some src) :
    IslandsLabelled R' (fun _ => False) registry network next := by
  have named : ∀ c, self.islandOf network c = some src ↔ c ∈ lost.components := by
    intro c
    constructor
    · intro on
      obtain ⟨island, held, member⟩ := h.named c src on
      obtain rfl := Option.some.inj (heldSrc.symm.trans held)
      exact member
    · exact h.members src lost heldSrc c
  have label := merged.label named anchored
  obtain ⟨store, shrunk, changed⟩ := merged.islands
  have get := merged.get different
  have sameNets : next.nets = self.nets := merged.nets
  have in' : ∀ v, next.InIsland network v ↔ self.InIsland network v := by
    intro v
    rw [InIsland, InIsland, label]
    split
    · rename_i on
      simp [on]
    · rfl
  have labels : Labels (self.InIsland network) R' (next.islandLabel network) := by
    refine Labels.merge (IslandsOk.labels h) undirected sub (some dst) (some src) new ?_ fun v _ => label v
    intro u v hu hv hui hvj
    have first := (IslandsOk.labels h).exact (some dst) u x hu (by rw [InIsland, atX]; simp) hui atX
    have second := (IslandsOk.labels h).exact (some src) y v (by rw [InIsland, atY]; simp) hv atY hvj
    exact (ReflTransGen.mono sub _ _ first).trans (.head edge (ReflTransGen.mono sub _ _ second))
  -- the islands that are live now, and what they were
  have live : ∀ j island, next.islands.get j = some island → j ≠ src ∧
      (j = dst ∧ island.components = kept.components ++ lost.components ∨
        j ≠ dst ∧ self.islands.get j = some island) := by
    intro j island held
    rw [get] at held
    split at held
    · simp at held
    · rename_i notSrc
      split at held
      · rename_i isDst
        obtain rfl := Option.some.inj held
        exact ⟨notSrc, Or.inl ⟨isDst, rfl⟩⟩
      · rename_i notDst
        exact ⟨notSrc, Or.inr ⟨notDst, held⟩⟩
  have heldNow : ∀ v j, next.islandLabel network v = some j → ∃ island, next.islands.get j = some island := by
    intro v j on
    rw [label] at on
    have alive : ∀ j', self.islandLabel network v = some j' → ∃ island, self.islands.get j' = some island := by
      intro j' on'
      cases v with
      | net id => exact h.alive id j' on'
      | component c =>
        obtain ⟨island, held, -⟩ := h.named c j' on'
        exact ⟨island, held⟩
    split at on
    · obtain rfl := Option.some.inj on
      exact ⟨_, (get dst).trans ((if_neg different.symm).trans (if_pos rfl))⟩
    · rename_i notSrc
      obtain ⟨island, held⟩ := alive j on
      by_cases isDst : j = dst
      · exact ⟨_, (get j).trans ((if_neg fun e : j = src => notSrc (e ▸ on)).trans (if_pos isDst))⟩
      · exact ⟨island, (get j).trans ((if_neg fun e : j = src => notSrc (e ▸ on)).trans ((if_neg isDst).trans held))⟩
  refine ⟨changed.sound, merged.beside, by rw [merged.netMap, sameNets]; exact h.map, fun id gone => ?_,
    fun id j on => heldNow (.net id) j on, fun c j on => ?_, fun j island held => ?_,
    fun j island held c member => ?_, fun j island _ held => ?_, fun id j _ on => ?_, fun id c touches => ?_,
    labels.coarse, fun j _ u v hu hv => labels.exact (some j) u v ((in' u).mp hu) ((in' v).mp hv)⟩
  · rw [sameNets] at gone
    have off := h.removed id gone
    refine (label (.net id)).trans ?_
    rw [islandLabel, off, if_neg (by simp)]
  · obtain ⟨island, held⟩ := heldNow (.component c) j on
    refine ⟨island, held, ?_⟩
    have before := (label (.component c)).symm.trans on
    rcases live j island held with ⟨notSrc, ⟨rfl, components⟩ | ⟨notDst, old⟩⟩
    · rw [components, List.mem_append]
      split at before
      · rename_i wasSrc
        exact Or.inr ((named c).mp wasSrc)
      · obtain ⟨island', held', member⟩ := h.named c j before
        obtain rfl := Option.some.inj (heldDst.symm.trans held')
        exact Or.inl member
    · split at before
      · exact absurd (Option.some.inj before).symm notDst
      · obtain ⟨island', held', member⟩ := h.named c j before
        obtain rfl := Option.some.inj (old.symm.trans held')
        exact member
  · rcases live j island held with ⟨notSrc, ⟨rfl, components⟩ | ⟨notDst, old⟩⟩
    · rw [components]
      refine List.nodup_append.mpr ⟨h.nodup j kept heldDst, h.nodup src lost heldSrc, fun a ha b hb same => ?_⟩
      have first := h.members j kept heldDst a ha
      rw [same, h.members src lost heldSrc b hb] at first
      exact different (Option.some.inj first)
    · exact h.nodup j island old
  · refine (label (.component c)).trans ?_
    rcases live j island held with ⟨notSrc, ⟨rfl, components⟩ | ⟨notDst, old⟩⟩
    · rw [components, List.mem_append] at member
      rcases member with member | member
      · have on : self.islandLabel network (.component c) = some j := h.members j kept heldDst c member
        rw [on, if_neg fun e => different (Option.some.inj e).symm]
      · exact if_pos ((named c).mpr member)
    · have on : self.islandLabel network (.component c) = some j := h.members j island old c member
      rw [on, if_neg fun e => notSrc (Option.some.inj e)]
  · rcases live j island held with ⟨notSrc, ⟨rfl, components⟩ | ⟨notDst, old⟩⟩
    · rw [components]
      have := h.nonempty j kept not_false heldDst
      simp [this]
    · exact h.nonempty j island not_false old
  · have before := (label (.net id)).symm.trans on
    have touches : ∃ c, self.Touches id c := by
      split at before
      · rename_i wasSrc
        exact h.anchored id src not_false wasSrc
      · exact h.anchored id j not_false before
    obtain ⟨c, net, held, member⟩ := touches
    exact ⟨c, net, by rw [sameNets]; exact held, member⟩
  · have before : self.Touches id c := by
      obtain ⟨net, held, member⟩ := touches
      exact ⟨net, by rw [← sameNets]; exact held, member⟩
    obtain ⟨j, on⟩ := h.reached id c before
    refine Option.ne_none_iff_exists'.mp ((in' (.net id)).mpr ?_)
    rw [InIsland, islandLabel, on]
    simp

end DerivedTopology

end Hynergy
