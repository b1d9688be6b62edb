import Hynergy.Topology.Maintained

/-!
# Connecting wires

Two nets become one, and their islands with them.
-/

namespace Hynergy

open Lib Relation

variable {F : Type}

namespace DerivedTopology

variable {registry : DefinitionRegistry F} {network network' : Network F} {self next : DerivedTopology}

/-! ### Connecting two wires -/

/-- Net `src` was merged into `dst`. -/
structure NetsMerged (src dst : NetId) (lost kept : Net) (before after : DerivedTopology) : Prop where
  nets : ∃ store, DenseIdStore.Shrunk before.nets store src ∧ DenseIdStore.Changed store after.nets dst
    ⟨kept.wires ++ lost.wires, kept.terminalComponents ++ lost.terminalComponents⟩
  wires : ∀ wire, after.wireNet wire = if wire ∈ lost.wires then some dst else before.wireNet wire
  wireMap : after.wireNetMap.length = before.wireNetMap.length

namespace NetsMerged

variable {src dst : NetId} {lost kept : Net}

theorem get (h : NetsMerged src dst lost kept self next) (different : src ≠ dst) (id : NetId) :
    next.nets.get id = if id = src then none else if id = dst then
      some ⟨kept.wires ++ lost.wires, kept.terminalComponents ++ lost.terminalComponents⟩
      else self.nets.get id := by
  obtain ⟨store, shrunk, changed⟩ := h.nets
  rw [changed.get]
  by_cases isDst : id = dst
  · rw [if_pos isDst, if_neg (isDst ▸ different.symm), if_pos isDst]
  · rw [if_neg isDst, if_neg isDst]
    exact shrunk.get id

theorem slots (h : NetsMerged src dst lost kept self next) : next.nets.slotCount = self.nets.slotCount := by
  obtain ⟨store, shrunk, changed⟩ := h.nets
  exact changed.slots.trans shrunk.slots

/-- The merged net touches what either touched. -/
theorem touches (h : NetsMerged src dst lost kept self next) (different : src ≠ dst)
    (heldSrc : self.nets.get src = some lost) (heldDst : self.nets.get dst = some kept) (id : NetId)
    (c : DeviceComponent) : next.Touches id c ↔ id ≠ src ∧
      (self.Touches id c ∨ id = dst ∧ self.Touches src c) := by
  constructor
  · intro there
    obtain ⟨net, held, member⟩ := there
    rw [h.get different] at held
    split at held
    · simp at held
    · rename_i notSrc
      refine ⟨notSrc, ?_⟩
      split at held
      · rename_i isDst
        obtain rfl := Option.some.inj held
        rcases List.mem_append.mp member with member | member
        · exact Or.inl ⟨kept, isDst ▸ heldDst, member⟩
        · exact Or.inr ⟨isDst, lost, heldSrc, member⟩
      · exact Or.inl ⟨net, held, member⟩
  · intro there
    obtain ⟨notSrc, either⟩ := there
    by_cases isDst : id = dst
    · refine ⟨_, (h.get different id).trans ((if_neg notSrc).trans (if_pos isDst)), ?_⟩
      rcases either with ⟨net, held, member⟩ | ⟨-, net, held, member⟩
      · rw [isDst, heldDst] at held
        obtain rfl := Option.some.inj held
        exact List.mem_append_left _ member
      · obtain rfl := Option.some.inj (heldSrc.symm.trans held)
        exact List.mem_append_right _ member
    · obtain ⟨net, held, member⟩ := either.resolve_right fun both => isDst both.1
      exact ⟨net, (h.get different id).trans ((if_neg notSrc).trans ((if_neg isDst).trans held)), member⟩

theorem ok (h : NetsSound registry network self) (consistent : network'.Consistent registry)
    (live : ∀ wire, (network'.wireSlot wire).isSome = (network.wireSlot wire).isSome)
    (same : Network.SameAttachments network network') (m : NetsMerged src dst lost kept self next)
    (different : src ≠ dst) (heldSrc : self.nets.get src = some lost)
    (heldDst : self.nets.get dst = some kept) {x y : WireId} (atX : self.wireNet x = some dst)
    (atY : self.wireNet y = some src)
    (edges : ∀ u v, network'.WireEdge u v ↔ Link network.WireEdge x y u v) :
    NetsSound registry network' next := by
  have get := m.get different
  have onLost : ∀ wire, wire ∈ lost.wires ↔ self.wireNet wire = some src := by
    intro wire
    constructor
    · exact (h.wires src lost not_false heldSrc).2 wire
    · intro on
      obtain ⟨net, held, member⟩ := h.named wire src on
      obtain rfl := Option.some.inj (heldSrc.symm.trans held)
      exact member
  have relabel : ∀ wire, next.wireNet wire =
      if self.wireNet wire = some src then some dst else self.wireNet wire := by
    intro wire
    rw [m.wires]
    simp only [onLost]
  have sameLive : network'.LiveWire = network.LiveWire := by
    funext wire
    rw [Network.LiveWire, Network.LiveWire, live]
  have labels : Labels network'.LiveWire network'.WireEdge next.wireNet := by
    rw [sameLive]
    refine h.labels.merge (sameLive ▸ consistent.undirected) (fun u v old => (edges u v).mpr (Or.inl old))
      (some dst) (some src) (fun u v edge => ?_) (fun u v hu hv hui hvj => ?_) fun u _ => relabel u
    · rcases (edges u v).mp edge with old | ⟨rfl, rfl⟩ | ⟨rfl, rfl⟩
      · exact Or.inl (h.coarse u v old)
      · exact Or.inr ⟨Or.inl atX, Or.inr atY⟩
      · exact Or.inr ⟨Or.inr atY, Or.inl atX⟩
    · have sub : ∀ u v, network.WireEdge u v → network'.WireEdge u v :=
        fun u v old => (edges u v).mpr (Or.inl old)
      have first := h.labels.exact (some dst) u x hu (h.live_of_wireNet atX) hui atX
      have second := h.labels.exact (some src) y v (h.live_of_wireNet atY) hv atY hvj
      exact (ReflTransGen.mono sub _ _ first).trans (.head ((edges x y).mpr (Or.inr (Or.inl ⟨rfl, rfl⟩)))
        (ReflTransGen.mono sub _ _ second))
  -- the nets that are live now, and what they were
  have held : ∀ id net, next.nets.get id = some net → id ≠ src ∧
      (id = dst ∧ net = ⟨kept.wires ++ lost.wires, kept.terminalComponents ++ lost.terminalComponents⟩ ∨
        id ≠ dst ∧ self.nets.get id = some net) := by
    intro id net here
    rw [get] at here
    split at here
    · simp at here
    · rename_i notSrc
      split at here
      · rename_i isDst
        exact ⟨notSrc, Or.inl ⟨isDst, (Option.some.inj here).symm⟩⟩
      · rename_i notDst
        exact ⟨notSrc, Or.inr ⟨notDst, here⟩⟩
  have notBoth : ∀ wire ∈ kept.wires, wire ∉ lost.wires := by
    intro wire member member'
    have first := (h.wires dst kept not_false heldDst).2 wire member
    rw [(onLost wire).mp member'] at first
    exact different (Option.some.inj first)
  obtain ⟨store, shrunk, changed⟩ := m.nets
  refine ⟨changed.sound, fun wire => ?_, fun wire id on => ?_, fun id net here => ?_,
    fun id net here wire member => ?_, fun id net _ here => ?_, fun id net _ here device => ?_, labels.coarse,
    fun id _ => labels.exact (some id)⟩
  · rw [relabel, live, ← h.live]
    split
    · rename_i on
      rw [on]
      rfl
    · rfl
  · rw [relabel] at on
    split at on
    · rename_i wasSrc
      obtain rfl := Option.some.inj on
      exact ⟨_, (get dst).trans ((if_neg different.symm).trans (if_pos rfl)),
        List.mem_append_right _ ((onLost wire).mpr wasSrc)⟩
    · rename_i notSrc
      obtain ⟨net, old, member⟩ := h.named wire id on
      have notId : id ≠ src := fun e => notSrc (e ▸ on)
      by_cases isDst : id = dst
      · rw [isDst, heldDst] at old
        obtain rfl := Option.some.inj old
        exact ⟨_, (get id).trans ((if_neg notId).trans (if_pos isDst)), List.mem_append_left _ member⟩
      · exact ⟨net, (get id).trans ((if_neg notId).trans ((if_neg isDst).trans old)), member⟩
  · rcases held id net here with ⟨-, ⟨-, rfl⟩ | ⟨-, old⟩⟩
    · exact List.nodup_append.mpr ⟨h.nodup dst kept heldDst, h.nodup src lost heldSrc, fun a ha b hb e =>
        notBoth a ha (e ▸ hb)⟩
    · exact h.nodup id net old
  · rw [m.wireMap]
    rcases held id net here with ⟨-, ⟨-, rfl⟩ | ⟨-, old⟩⟩
    · rcases List.mem_append.mp member with member | member
      · exact h.mapped dst kept heldDst wire member
      · exact h.mapped src lost heldSrc wire member
    · exact h.mapped id net old wire member
  · rcases held id net here with ⟨notSrc, ⟨rfl, rfl⟩ | ⟨-, old⟩⟩
    · refine ⟨by simp [(h.wires id kept not_false heldDst).1], fun wire member => ?_⟩
      rw [relabel]
      split
      · rfl
      · rename_i off
        rcases List.mem_append.mp member with member | member
        · exact (h.wires id kept not_false heldDst).2 wire member
        · exact absurd ((onLost wire).mp member) off
    · refine ⟨(h.wires id net not_false old).1, fun wire member => ?_⟩
      have on := (h.wires id net not_false old).2 wire member
      rw [relabel, on, if_neg fun e => notSrc (Option.some.inj e)]
  · rw [same.incidences]
    rcases held id net here with ⟨notSrc, ⟨rfl, rfl⟩ | ⟨notDst, old⟩⟩
    · rw [List.filter_append]
      refine ((h.terminals id kept not_false heldDst device).append
        (h.terminals src lost not_false heldSrc device)).trans
          (Network.incidences_union device (fun wire => ?_) fun wire both => ?_).symm
      · rw [relabel]
        by_cases on : self.wireNet wire = some src
        · simp [on]
        · simp [on]
      · have first : self.wireNet wire = some id := of_decide_eq_true both.1
        have second : self.wireNet wire = some src := of_decide_eq_true both.2
        rw [second] at first
        exact different (Option.some.inj first)
    · have wires : ∀ wire, next.wireNet wire = some id ↔ self.wireNet wire = some id := by
        intro wire
        rw [relabel]
        by_cases on : self.wireNet wire = some src
        · rw [if_pos on, on]
          constructor
          · exact fun e => absurd (Option.some.inj e).symm notDst
          · exact fun e => absurd (Option.some.inj e).symm notSrc
        · rw [if_neg on]
      simp only [wires]
      exact h.terminals id net not_false old device

end NetsMerged

/-- The attachments, and an edge between two nets with islands that are about to be one. -/
def Joined (topology : DerivedTopology) (src dst : NetId) (u v : IslandVertex) : Prop :=
  topology.Attached u v ∨ topology.islandOfNet src ≠ none ∧
    (u = .net dst ∧ v = .net src ∨ u = .net src ∧ v = .net dst)

/-- The islands after two joined nets became one. -/
theorem IslandsLabelled.merge_nets {src dst : NetId} {lost kept : Net} {mid : DerivedTopology}
    (h : IslandsLabelled (self.Joined src dst) (fun _ => False) registry network mid)
    (m : NetsMerged src dst lost kept self next) (different : src ≠ dst)
    (heldSrc : self.nets.get src = some lost) (heldDst : self.nets.get dst = some kept)
    (nets : mid.nets = self.nets)
    (reached : mid.islandOfNet src ≠ none → self.islandOfNet src ≠ none)
    (islands : next.islands = mid.islands) (chunks : next.deviceChunks = mid.deviceChunks)
    (map : next.netIslandMap.length = mid.netIslandMap.length)
    (labels : ∀ id, next.islandOfNet id = if id = src then none else mid.islandOfNet id) :
    IslandsSound registry network next := by
  have components : ∀ c, next.islandOf network c = mid.islandOf network c := islandOf_congr chunks rfl
  have label : ∀ v, v ≠ .net src → next.islandLabel network v = mid.islandLabel network v := by
    intro v off
    cases v with
    | net id => exact (labels id).trans (if_neg fun e => off (congrArg _ e))
    | component c => exact components c
  have labelSrc : next.islandLabel network (.net src) = none := (labels src).trans (if_pos rfl)
  have touches := m.touches different heldSrc heldDst
  have midTouches : ∀ id c, mid.Touches id c ↔ self.Touches id c := by
    intro id c
    rw [Touches, Touches, nets]
  -- the lost net touches nothing it does not share an island with
  have sameLabel : ∀ id c, next.Touches id c → id ≠ src ∧
      mid.islandLabel network (.net id) = mid.islandLabel network (.component c) := by
    intro id c there
    obtain ⟨notSrc, old | ⟨isDst, old⟩⟩ := (touches id c).mp there
    · exact ⟨notSrc, h.coarse (.net id) (.component c) (Or.inl old)⟩
    · refine ⟨notSrc, ?_⟩
      obtain ⟨j, on⟩ := h.reached src c ((midTouches src c).mpr old)
      have first := h.coarse (.net src) (.component c) (Or.inl old)
      have second := h.coarse (.net dst) (.net src)
        (Or.inr ⟨reached (by rw [on]; simp), Or.inl ⟨rfl, rfl⟩⟩)
      rw [isDst, second, first]
  have inLeft : ∀ u v, next.Attached u v → u ≠ .net src ∧ v ≠ .net src ∧
      mid.islandLabel network u = mid.islandLabel network v := by
    intro u v edge
    cases u with
    | net id =>
      cases v with
      | net other => exact edge.elim
      | component c =>
        obtain ⟨notSrc, same⟩ := sameLabel id c edge
        exact ⟨fun e => notSrc (IslandVertex.net.inj e), by simp, same⟩
    | component c =>
      cases v with
      | component other => exact edge.elim
      | net id =>
        obtain ⟨notSrc, same⟩ := sameLabel id c edge
        exact ⟨by simp, fun e => notSrc (IslandVertex.net.inj e), same.symm⟩
  let f : IslandVertex → IslandVertex := fun v => if v = .net src then .net dst else v
  have fixed : ∀ v, v ≠ .net src → f v = v := fun v off => if_neg off
  have atSrc : f (.net src) = .net dst := if_pos rfl
  have quotient : Labels (next.InIsland network) next.Attached (mid.islandLabel network) := by
    refine (IslandsOk.labels h).quotient (f := f) (fun u hu => ?_) (fun u v edge => (inLeft u v edge).2.2) ?_
    · have off : u ≠ .net src := by
        intro e
        rw [InIsland, e, labelSrc] at hu
        exact hu rfl
      rw [InIsland, label u off] at hu
      exact ⟨hu, fixed u off⟩
    · intro u v edge
      have component : ∀ id c, self.Touches id c → next.Attached (f (.net id)) (.component c) := by
        intro id c old
        by_cases isSrc : id = src
        · rw [isSrc, atSrc]
          exact (touches dst c).mpr ⟨different.symm, Or.inr ⟨rfl, isSrc ▸ old⟩⟩
        · rw [fixed _ fun e => isSrc (IslandVertex.net.inj e)]
          exact (touches id c).mpr ⟨isSrc, Or.inl old⟩
      rcases edge with old | ⟨-, ⟨rfl, rfl⟩ | ⟨rfl, rfl⟩⟩
      · cases u with
        | net id =>
          cases v with
          | net other => exact old.elim
          | component c =>
            rw [fixed (.component c) (by simp)]
            exact .single (component id c old)
        | component c =>
          cases v with
          | component other => exact old.elim
          | net id =>
            rw [fixed (.component c) (by simp)]
            exact .single (component id c old).symm
      · rw [atSrc, fixed _ fun e => different (IslandVertex.net.inj e).symm]
      · rw [atSrc, fixed _ fun e => different (IslandVertex.net.inj e).symm]
  have inBoth : ∀ u v, next.Attached u v → next.InIsland network u := by
    intro u v edge
    obtain ⟨offU, offV, same⟩ := inLeft u v edge
    rw [InIsland, label u offU]
    have reachedNet : ∀ id c, next.Touches id c → mid.islandLabel network (.net id) ≠ none := by
      intro id c there
      obtain ⟨-, old | ⟨isDst, old⟩⟩ := (touches id c).mp there
      · obtain ⟨j, on⟩ := h.reached id c ((midTouches id c).mpr old)
        rw [islandLabel, on]
        simp
      · obtain ⟨j, on⟩ := h.reached src c ((midTouches src c).mpr old)
        have second := h.coarse (.net dst) (.net src)
          (Or.inr ⟨reached (by rw [on]; simp), Or.inl ⟨rfl, rfl⟩⟩)
        rw [isDst, second, islandLabel, on]
        simp
    cases u with
    | net id =>
      cases v with
      | net other => exact edge.elim
      | component c => exact reachedNet id c edge
    | component c =>
      cases v with
      | component other => exact edge.elim
      | net id =>
        rw [same]
        exact reachedNet id c edge
  have final : Labels (next.InIsland network) next.Attached (next.islandLabel network) := by
    refine quotient.congr (fun _ _ => Iff.rfl) (fun _ => Iff.rfl)
      (fun u v edge => ⟨inBoth u v edge, inBoth v u edge.symm⟩) fun u hu => label u ?_
    intro e
    rw [InIsland, e, labelSrc] at hu
    exact hu rfl
  refine ⟨islands ▸ h.sound, ⟨h.beside.arena, chunks ▸ h.beside.aligned⟩, ?_, fun id gone => ?_,
    fun id j on => ?_, fun c j on => ?_, fun j island held => ?_, fun j island held c member => ?_,
    fun j island _ held => ?_, fun id j _ on => ?_, fun id c there => ?_, final.coarse,
    fun j _ => final.exact (some j)⟩
  · rw [map, h.map, nets, m.slots]
  · rw [labels]
    split
    · rfl
    · rename_i notSrc
      apply h.removed
      rw [nets]
      have gone' := (m.get different id).symm.trans gone
      rw [if_neg notSrc] at gone'
      split at gone'
      · simp at gone'
      · exact gone'
  · rw [labels] at on
    split at on
    · simp at on
    · rw [islands]
      exact h.alive id j on
  · rw [islands]
    exact h.named c j ((components c).symm.trans on)
  · rw [islands] at held
    exact h.nodup j island held
  · rw [islands] at held
    exact (components c).trans (h.members j island held c member)
  · rw [islands] at held
    exact h.nonempty j island not_false held
  · rw [labels] at on
    split at on
    · simp at on
    · rename_i notSrc
      obtain ⟨c, there⟩ := h.anchored id j not_false on
      exact ⟨c, (touches id c).mpr ⟨notSrc, Or.inl ((midTouches id c).mp there)⟩⟩
  · exact Option.ne_none_iff_exists'.mp (inBoth (.net id) (.component c) there)

theorem mergeDirection_spec (h : Maintained registry network self) {netA netB : NetId} {a b : Net}
    (heldA : self.nets.get netA = some a) (heldB : self.nets.get netB = some b) :
    ∃ dst src, self.mergeDirection netA netB = some (dst, src) ∧
      (dst = netA ∧ src = netB ∨ dst = netB ∧ src = netA) ∧
      (self.islandOfNet src ≠ none → self.islandOfNet dst ≠ none) := by
  unfold mergeDirection
  rw [bind_of_eq_some (h.islands.netIsland_eq h.nets.sound heldA),
    bind_of_eq_some (h.islands.netIsland_eq h.nets.sound heldB)]
  have bySize : ∃ dst src, (do
      let a ← self.nets.get netA
      let b ← self.nets.get netB
      some (if a.wires.length ≥ b.wires.length then (netA, netB) else (netB, netA))) = some (dst, src) ∧
      (dst = netA ∧ src = netB ∨ dst = netB ∧ src = netA) := by
    rw [bind_of_eq_some heldA, bind_of_eq_some heldB]
    split
    · exact ⟨netA, netB, rfl, Or.inl ⟨rfl, rfl⟩⟩
    · exact ⟨netB, netA, rfl, Or.inr ⟨rfl, rfl⟩⟩
  cases atA : self.islandOfNet netA with
  | none =>
    cases atB : self.islandOfNet netB with
    | none =>
      obtain ⟨dst, src, run, which⟩ := bySize
      refine ⟨dst, src, run, which, fun some' => ?_⟩
      rcases which with ⟨rfl, rfl⟩ | ⟨rfl, rfl⟩
      · exact absurd atB some'
      · exact absurd atA some'
    | some j => exact ⟨netB, netA, rfl, Or.inr ⟨rfl, rfl⟩, fun _ => by rw [atB]; simp⟩
  | some i =>
    cases atB : self.islandOfNet netB with
    | none => exact ⟨netA, netB, rfl, Or.inl ⟨rfl, rfl⟩, fun _ => by rw [atA]; simp⟩
    | some j =>
      obtain ⟨dst, src, run, which⟩ := bySize
      refine ⟨dst, src, run, which, fun _ => ?_⟩
      rcases which with ⟨rfl, rfl⟩ | ⟨rfl, rfl⟩
      · rw [atA]
        simp
      · rw [atB]
        simp

/-- The islands of two nets that are about to be one have been joined. -/
structure NetIslandsJoined (registry : DefinitionRegistry F) (network : Network F) (src dst : NetId)
    (final : Option IslandId) (bump : Bool) (before after : DerivedTopology) : Prop where
  labelled : IslandsLabelled (before.Joined src dst) (fun _ => False) registry network after
  nets : after.nets = before.nets
  wireNetMap : after.wireNetMap = before.wireNetMap
  atDst : after.islandOfNet dst = final
  reached : after.islandOfNet src ≠ none → before.islandOfNet src ≠ none
  dirtied : Dirtied before after
  invalidation : InvalidationOk after
  bumped : bump = true → ∃ island value, final = some island ∧ after.islands.get island = some value
  /-- The island of the lost net is dirty or gone, or still to be bumped. -/
  dirty : ∀ j, before.islandOfNet src = some j → bump = true ∧ final = some j ∨
    j ∈ after.invalidation.topologyDirty ∨ after.islands.get j = none

variable [F64 F]

theorem joinNetIslands_spec (partitioned : registry.Partitioned) (h : Maintained registry network self)
    (consistent : network'.Consistent registry)
    (live : ∀ wire, (network'.wireSlot wire).isSome = (network.wireSlot wire).isSome)
    (same : Network.SameAttachments network network') {src dst : NetId} {lost kept : Net}
    (heldSrc : self.nets.get src = some lost) (heldDst : self.nets.get dst = some kept)
    (order : self.islandOfNet src ≠ none → self.islandOfNet dst ≠ none) :
    ∃ final bump mid, self.joinNetIslands registry network' dst src = some (final, bump, mid) ∧
      NetIslandsJoined registry network' src dst final bump self mid := by
  have islands : IslandsSound registry network' self := h.islands.congr consistent same.places.directory
    same.places.heads rfl rfl h.islands.map (fun _ => rfl) (fun id gone => h.islands.removed id gone)
    fun _ _ => Iff.rfl
  -- as long as the nets share an island or the lost one has none, nothing is relabelled
  have unchanged : (self.islandOfNet src = none ∨ self.islandOfNet src = self.islandOfNet dst) →
      IslandsLabelled (self.Joined src dst) (fun _ => False) registry network' self := by
    intro either
    refine ⟨islands.sound, islands.beside, islands.map, islands.removed, islands.alive, islands.named,
      islands.nodup, islands.members, islands.nonempty, islands.anchored, islands.reached, fun u v edge => ?_,
      fun id fine u v hu hv hui hvi => ?_⟩
    · rcases edge with old | ⟨some', ends⟩
      · exact islands.coarse u v old
      · have shared : self.islandOfNet src = self.islandOfNet dst := either.resolve_left some'
        rcases ends with ⟨rfl, rfl⟩ | ⟨rfl, rfl⟩
        · exact shared.symm
        · exact shared
    · exact ReflTransGen.mono (fun _ _ old => Or.inl old) _ _ (islands.exact id fine u v hu hv hui hvi)
  unfold joinNetIslands
  rw [bind_of_eq_some (h.islands.netIsland_eq h.nets.sound heldDst),
    bind_of_eq_some (h.islands.netIsland_eq h.nets.sound heldSrc)]
  cases atSrc : self.islandOfNet src with
  | none =>
    have labelled := unchanged (Or.inl atSrc)
    cases atDst : self.islandOfNet dst with
    | none =>
      exact ⟨none, false, self, rfl, labelled, rfl, rfl, atDst, id, .of_same rfl rfl, h.invalidation, by simp,
        fun j on => by simp [atSrc] at on⟩
    | some i =>
      exact ⟨some i, false, self, rfl, labelled, rfl, rfl, atDst, id, .of_same rfl rfl, h.invalidation, by simp,
        fun j on => by simp [atSrc] at on⟩
  | some j =>
    cases atDst : self.islandOfNet dst with
    | none => exact absurd atDst (order (by rw [atSrc]; simp))
    | some i =>
      dsimp only
      by_cases shared : i = j
      · rw [if_pos shared]
        obtain ⟨value, held⟩ := islands.alive dst i atDst
        refine ⟨some i, true, self, rfl, unchanged (Or.inr (by rw [atSrc, atDst, shared])), rfl, rfl, atDst, id,
          .of_same rfl rfl, h.invalidation, fun _ => ⟨i, value, rfl, held⟩, fun k on => Or.inl ⟨rfl, ?_⟩⟩
        rw [atSrc] at on
        rw [shared, on]
      · rw [if_neg shared]
        obtain ⟨valueI, heldI⟩ := islands.alive dst i atDst
        obtain ⟨valueJ, heldJ⟩ := islands.alive src j atSrc
        obtain ⟨lostId, keptId, lostIsland, keptIsland, mid, run, which, heldLost, heldKept, merged⟩ :=
          mergeIslands_spec consistent partitioned islands.beside (fun wire liveWire => by
            rw [Network.LiveWire, live] at liveWire
            obtain ⟨id, on⟩ := h.nets.isSome liveWire
            obtain ⟨net, held, -⟩ := h.nets.named wire id on
            exact ⟨id, on, h.islands.map ▸ h.nets.sound.index_lt held⟩) islands.sound islands.members
            shared heldI heldJ
        have apart : lostId ≠ keptId := by
          rcases which with ⟨rfl, rfl⟩ | ⟨rfl, rfl⟩
          · exact shared
          · exact Ne.symm shared
        have anchored : ∀ id, self.islandOfNet id = some lostId →
            ∃ c ∈ lostIsland.components, LeadsTo registry network' self c id := by
          intro id on
          obtain ⟨c, touches⟩ := islands.anchored id lostId not_false on
          have label : self.islandOf network' c = some lostId :=
            (islands.coarse (.component c) (.net id) touches).trans on
          obtain ⟨island, held, member⟩ := islands.named c lostId label
          obtain rfl := Option.some.inj (heldLost.symm.trans held)
          obtain ⟨net, heldNet, memberNet⟩ := touches
          obtain ⟨t, wire, definition, attached, onNet, known, read⟩ :=
            (touches_iff h.nets not_false heldNet c).mp ⟨net, heldNet, memberNet⟩
          refine ⟨c, member, t, wire, definition, by rw [same.attached, attached], onNet, ?_, read⟩
          rw [Network.definitionOf_eq, same.places.definitions, ← Network.definitionOf_eq, known]
        have label := merged.label (fun c => ⟨fun on => by
            obtain ⟨island, held, member⟩ := islands.named c lostId on
            obtain rfl := Option.some.inj (heldLost.symm.trans held)
            exact member, islands.members lostId lostIsland heldLost c⟩) anchored
        obtain ⟨dirtied, invalidation, dirty⟩ :=
          merged.dirtied h.invalidation islands.sound apart heldLost heldKept
        refine ⟨some keptId, false, mid, by rw [bind_of_eq_some run], ?_, merged.nets, merged.wireNetMap, ?_,
          fun _ => by rw [atSrc]; simp, dirtied, invalidation, by simp, fun k on => Or.inr ?_⟩
        · -- the virtual edge joins the two islands
          have edge : self.Joined src dst (.net dst) (.net src) :=
            Or.inr ⟨by rw [atSrc]; simp, Or.inl ⟨rfl, rfl⟩⟩
          have edge' : self.Joined src dst (.net src) (.net dst) :=
            Or.inr ⟨by rw [atSrc]; simp, Or.inr ⟨rfl, rfl⟩⟩
          have undirected : Undirected (self.InIsland network') (self.Joined src dst) := by
            refine ⟨fun step => ?_, fun {u v} step => ?_⟩
            · rcases step with old | ⟨some', ends⟩
              · exact Or.inl old.symm
              · exact Or.inr ⟨some', ends.elim (fun e => Or.inr ⟨e.2, e.1⟩) fun e => Or.inl ⟨e.2, e.1⟩⟩
            · rcases step with old | ⟨-, ⟨rfl, rfl⟩ | ⟨rfl, rfl⟩⟩
              · exact islands.undirected.left old
              · rw [InIsland, islandLabel, atDst]
                simp
              · rw [InIsland, islandLabel, atSrc]
                simp
          have ends : ∀ u v, self.Joined src dst u v →
              self.islandLabel network' u = self.islandLabel network' v ∨
                ((self.islandLabel network' u = some keptId ∨ self.islandLabel network' u = some lostId) ∧
                  (self.islandLabel network' v = some keptId ∨ self.islandLabel network' v = some lostId)) := by
            intro u v step
            rcases step with old | ⟨-, ⟨rfl, rfl⟩ | ⟨rfl, rfl⟩⟩
            · exact Or.inl (islands.coarse u v old)
            · rcases which with ⟨rfl, rfl⟩ | ⟨rfl, rfl⟩
              · exact Or.inr ⟨Or.inr atDst, Or.inl atSrc⟩
              · exact Or.inr ⟨Or.inl atDst, Or.inr atSrc⟩
            · rcases which with ⟨rfl, rfl⟩ | ⟨rfl, rfl⟩
              · exact Or.inr ⟨Or.inl atSrc, Or.inr atDst⟩
              · exact Or.inr ⟨Or.inr atSrc, Or.inl atDst⟩
          rcases which with ⟨rfl, rfl⟩ | ⟨rfl, rfl⟩
          · exact merged.labelled islands apart heldLost heldKept anchored undirected (fun _ _ old => Or.inl old)
              ends edge' atSrc atDst
          · exact merged.labelled islands apart heldLost heldKept anchored undirected (fun _ _ old => Or.inl old)
              ends edge atDst atSrc
        · refine (label (.net dst)).trans ?_
          rw [islandLabel, atDst]
          rcases which with ⟨rfl, rfl⟩ | ⟨rfl, rfl⟩
          · exact if_pos rfl
          · exact if_neg fun e => shared (Option.some.inj e)
        · obtain rfl : j = k := Option.some.inj (atSrc.symm.trans on)
          rcases which with ⟨rfl, rfl⟩ | ⟨rfl, rfl⟩
          · exact Or.inl dirty
          · exact Or.inr ((merged.get apart lostId).trans (if_pos rfl))

omit [F64 F] in
theorem mergeNets_spec (sound : self.nets.Sound) (map : self.netIslandMap.length = self.nets.slotCount)
    {src dst : NetId} {lost kept : Net} (different : src ≠ dst) (heldSrc : self.nets.get src = some lost)
    (heldDst : self.nets.get dst = some kept)
    (mapped : ∀ wire ∈ lost.wires, wire.index < self.wireNetMap.length) (final : Option IslandId) :
    ∃ next, self.mergeNets dst src final = some next ∧ NetsMerged src dst lost kept self next ∧
      next.islands = self.islands ∧ next.deviceChunks = self.deviceChunks ∧
      next.invalidation = self.invalidation ∧ next.netIslandMap.length = self.netIslandMap.length ∧
      ∀ id, next.islandOfNet id = if id = dst then final else if id = src then none else self.islandOfNet id := by
  obtain ⟨removed, run, shrunk⟩ := DenseIdStore.remove_spec sound heldSrc
  obtain ⟨first, setSrc, lengthSrc, entriesSrc⟩ := @setNetIsland_spec { self with nets := removed } src
    (map ▸ sound.index_lt heldSrc) none
  obtain ⟨second, setDst, lengthDst, entriesDst⟩ := @setNetIsland_spec
    { self with nets := removed, netIslandMap := first } dst
    (show dst.index < first.length by rw [lengthSrc]; exact map ▸ sound.index_lt heldDst) final
  obtain ⟨wires, setWires, lengthWires, entriesWires⟩ := @setWireNets_spec lost.wires (some dst)
    { self with nets := removed, netIslandMap := second } mapped
  obtain ⟨nets, modified, changed⟩ := DenseIdStore.modify_spec shrunk.sound
    ((shrunk.get dst).trans ((if_neg different.symm).trans heldDst)) fun net : Net =>
      ⟨net.wires ++ lost.wires, net.terminalComponents ++ lost.terminalComponents⟩
  refine ⟨{ self with nets, netIslandMap := second, wireNetMap := wires }, ?_,
    ⟨⟨removed, shrunk, changed⟩, entriesWires, lengthWires⟩, rfl, rfl, rfl, lengthDst.trans lengthSrc, fun id => ?_⟩
  · unfold mergeNets
    rw [bind_of_eq_some run]
    dsimp only
    rw [bind_of_eq_some setSrc, bind_of_eq_some setDst, bind_of_eq_some setWires, modifyNet,
      bind_of_eq_some modified]
  · refine (entriesDst id).trans ?_
    split
    · rfl
    · exact entriesSrc id

theorem connectWires_maintains (partitioned : registry.Partitioned) (h : Maintained registry network self)
    {a b : WireId} (liveA : network.LiveWire a) (liveB : network.LiveWire b)
    (relinked : Network.Relinked registry network network' (Link network.Lists (.wire a) (.wire b))) :
    ∃ next, self.connectWires registry network' a b = some next ∧
      Maintains registry network network' self next := by
  have consistent := relinked.consistent
  have live := relinked.same.wires.live
  have same : Network.SameAttachments network network' := .of_lists h.consistent consistent
    relinked.same.devices.places fun device port fits wire => by simp [relinked.lists, Link]
  have edges : ∀ u v, network'.WireEdge u v ↔ Link network.WireEdge a b u v := by
    intro u v
    simp [Network.WireEdge, relinked.lists, Link]
  have sameLive : network'.LiveWire = network.LiveWire := by
    funext wire
    rw [Network.LiveWire, Network.LiveWire, live]
  obtain ⟨netA, onA⟩ := h.nets.isSome liveA
  obtain ⟨netB, onB⟩ := h.nets.isSome liveB
  unfold connectWires
  rw [bind_of_eq_some onA, bind_of_eq_some onB]
  by_cases shared : netA = netB
  · rw [if_pos shared]
    refine ⟨self, rfl, ⟨consistent, ?_, ?_, h.invalidation⟩, .of_same rfl rfl, fun j island _ _ c _ => ?_⟩
    · refine h.nets.relink (fun _ => id) live same (fun u v edge => ?_) fun id fine u v hu hv hui hvi => ?_
      · rcases (edges u v).mp edge with old | ⟨rfl, rfl⟩ | ⟨rfl, rfl⟩
        · exact h.nets.coarse u v old
        · rw [onA, onB, shared]
        · rw [onA, onB, shared]
      · rw [sameLive] at hu hv
        exact ReflTransGen.mono (fun _ _ old => (edges _ _).mpr (Or.inl old)) _ _
          (h.nets.exact id fine u v hu hv hui hvi)
    · exact h.islands.congr consistent same.places.directory same.places.heads rfl rfl h.islands.map
        (fun _ => rfl) (fun id gone => h.islands.removed id gone) fun _ _ => Iff.rfl
    · exact .of_elsewhere h (same.places.definitions _) (fun t free => by rw [same.attached, free])
        fun t wire id at' on _ => ⟨by rw [same.attached, at'], on⟩
  · rw [if_neg shared]
    obtain ⟨valueA, heldA, -⟩ := h.nets.named a netA onA
    obtain ⟨valueB, heldB, -⟩ := h.nets.named b netB onB
    obtain ⟨dst, src, direction, which, order⟩ := mergeDirection_spec h heldA heldB
    -- the wires on the two nets, in the order of the merge
    obtain ⟨x, y, kept, lost, atX, atY, heldDst, heldSrc, edges'⟩ : ∃ x y kept lost,
        self.wireNet x = some dst ∧ self.wireNet y = some src ∧ self.nets.get dst = some kept ∧
        self.nets.get src = some lost ∧ ∀ u v, network'.WireEdge u v ↔ Link network.WireEdge x y u v := by
      rcases which with ⟨rfl, rfl⟩ | ⟨rfl, rfl⟩
      · exact ⟨a, b, valueA, valueB, onA, onB, heldA, heldB, edges⟩
      · refine ⟨b, a, valueB, valueA, onB, onA, heldB, heldA, fun u v => (edges u v).trans ?_⟩
        unfold Link
        tauto
    have different : src ≠ dst := by
      rcases which with ⟨rfl, rfl⟩ | ⟨rfl, rfl⟩
      · exact Ne.symm shared
      · exact shared
    obtain ⟨final, bump, mid, join, joined⟩ :=
      joinNetIslands_spec partitioned h consistent live same heldSrc heldDst order
    have midNets : mid.nets = self.nets := joined.nets
    obtain ⟨merged, merge, nets, islands, chunks, invalidation, mapLength, labels⟩ :=
      mergeNets_spec (midNets ▸ h.nets.sound) joined.labelled.map different (midNets ▸ heldSrc)
        (midNets ▸ heldDst) (fun wire member => by
          rw [joined.wireNetMap]
          exact h.nets.mapped src lost heldSrc wire member) final
    rw [bind_of_eq_some direction]
    dsimp only
    rw [bind_of_eq_some join]
    dsimp only
    rw [bind_of_eq_some merge]
    have netsSelf : NetsMerged src dst lost kept self merged := by
      refine ⟨by rw [← midNets]; exact nets.nets, fun wire => ?_, by rw [← joined.wireNetMap]; exact nets.wireMap⟩
      rw [nets.wires, wireNet, joined.wireNetMap]
      rfl
    have netsOk := NetsMerged.ok h.nets consistent live same netsSelf different heldSrc heldDst atX atY edges'
    have labels' : ∀ id, merged.islandOfNet id = if id = src then none else mid.islandOfNet id := by
      intro id
      rw [labels]
      by_cases isDst : id = dst
      · rw [if_pos isDst, if_neg (isDst ▸ different.symm), isDst, joined.atDst]
      · rw [if_neg isDst]
    have islandsOk := joined.labelled.merge_nets netsSelf different heldSrc heldDst midNets joined.reached
      islands chunks mapLength labels'
    have dirtied : Dirtied self merged :=
      joined.dirtied.trans h.islands.sound h.invalidation (.of_same islands invalidation)
    have invalidationOk := joined.invalidation.of_same islands invalidation
    -- a component of a clean island has no terminal on the lost net
    have nodes : ∀ (after : DerivedTopology), after.wireNetMap = merged.wireNetMap →
        ∀ c j, self.islandOf network c = some j → self.islandOfNet src ≠ some j →
          SameNodes registry network network' self after c := by
      intro after wires c j at' off
      refine .of_elsewhere h (same.places.definitions _) (fun t free => by rw [same.attached, free])
        fun t wire id attached on label => ⟨by rw [same.attached, attached], ?_⟩
      rw [wireNet, wires]
      refine (netsSelf.wires wire).trans ?_
      rw [if_neg, on]
      intro member
      have onSrc := (h.nets.wires src lost not_false heldSrc).2 wire member
      rw [on] at onSrc
      rw [Option.some.inj onSrc, at'] at label
      exact off label
    have componentsOf : ∀ j island, merged.islands.get j = some island → j ∉ merged.invalidation.topologyDirty →
        ∀ c ∈ island.components, self.islandOf network c = some j := by
      intro j island held off c member
      obtain ⟨-, old, before, components⟩ := dirtied.clean j island held off
      exact h.islands.members j old before c (components ▸ member)
    cases bump with
    | false =>
      refine ⟨merged, rfl, ⟨consistent, netsOk, islandsOk, invalidationOk⟩, dirtied, fun j island held off c member => ?_⟩
      refine nodes merged rfl c j (componentsOf j island held off c member) fun onSrc => ?_
      rcases joined.dirty j onSrc with ⟨never, -⟩ | dirty | gone
      · simp at never
      · rw [invalidation] at off
        exact off dirty
      · rw [islands, gone] at held
        simp at held
    | true =>
      obtain ⟨i, value, isFinal, heldI⟩ := joined.bumped rfl
      rw [isFinal, if_pos rfl]
      obtain ⟨store, modified, changed⟩ := DenseIdStore.modify_spec islandsOk.sound
        (by rw [islands]; exact heldI) IslandTopology.bumpRevision
      obtain ⟨dirtied', invalidation', dirty⟩ := @dirtied_of_modified merged
        ({ merged with islands := store }.markTopologyDirty i) invalidationOk i value _
        (by rw [islands]; exact heldI) changed rfl
      refine ⟨({ merged with islands := store }.markTopologyDirty i), ?_, ⟨consistent, ?_, ?_, invalidation'⟩,
        dirtied.trans h.islands.sound h.invalidation dirtied', fun j island held off c member => ?_⟩
      · rw [bind_of_eq_some rfl, modifyIsland, bind_of_eq_some modified, bind_of_eq_some rfl]
      · exact netsOk.of_nets rfl rfl
      · exact (islandsOk.modified (by rw [islands]; exact heldI) changed
          (show value.bumpRevision.components = value.components from rfl)).marked _
      · have notI : j ≠ i := fun e => off (e ▸ dirty)
        obtain ⟨off', old, before, components⟩ := dirtied'.clean j island held off
        refine nodes (({ merged with islands := store } : DerivedTopology).markTopologyDirty i) rfl c j (componentsOf j old before off' c (components ▸ member)) fun onSrc => ?_
        rcases joined.dirty j onSrc with ⟨-, final'⟩ | dirty' | gone
        · rw [isFinal] at final'
          exact notI (Option.some.inj final').symm
        · rw [invalidation] at off'
          exact off' dirty'
        · rw [islands, gone] at before
          simp at before

end DerivedTopology

end Hynergy
