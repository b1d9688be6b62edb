import Mathlib.Logic.Basic
import Mathlib.Tactic.Ring
import Hynergy.Model.CallInversion

/-!
# Ports of wire blocks

Each block type whose component names a wire config has the port layout of that config. A rebuild
publishes the layouts one by one, and clears what the last rebuild published and it did not.
-/

namespace Hynergy.Core

/-! ### Published layouts -/

/-- `AtomicReferenceArray<BlockPortDefinition>`, by block type. -/
structure RuntimePortDefinitions (D : Type) where
  definitions : List (Option D) := List.replicate 16 none

inductive PortException where
  | illegalArgument
  | illegalState
  | arithmetic
  | layout
  deriving DecidableEq

namespace RuntimePortDefinitions

variable {D : Type}

abbrev PortCall (D α : Type) := Call (RuntimePortDefinitions D) PortException α

def get (self : RuntimePortDefinitions D) (blockTypeId : Int) : Option D :=
  if blockTypeId < 0 then none else self.definitions[blockTypeId.toNat]?.join

/-- The loop over `newLength`; `none` is an overflow of `Math.multiplyExact`. The length is never zero. -/
def grownLength (blockTypeId newLength : Nat) : Option Nat :=
  if newLength ≤ blockTypeId then
    if 0 < newLength ∧ newLength * 2 < 2 ^ 31 then grownLength blockTypeId (newLength * 2) else none
  else some newLength
termination_by 2 ^ 31 - newLength
decreasing_by omega

def set (blockTypeId : Int) (definition : D) : PortCall D Unit := do
  Call.rejectIf (blockTypeId < 0) .illegalArgument
  let self ← Call.get
  if self.definitions.length ≤ blockTypeId.toNat then do
    let newLength ← Call.okOr (grownLength blockTypeId.toNat self.definitions.length) .arithmetic
    let grown := self.definitions ++ List.replicate (newLength - self.definitions.length) none
    Call.set ⟨grown.set blockTypeId.toNat (some definition)⟩
  else Call.set ⟨self.definitions.set blockTypeId.toNat (some definition)⟩

def clear (blockTypeId : Int) : PortCall D Unit := do
  Call.rejectIf (blockTypeId < 0) .illegalArgument
  Call.modify fun self =>
    if blockTypeId.toNat < self.definitions.length then ⟨self.definitions.set blockTypeId.toNat none⟩ else self

theorem lt_grownLength {blockTypeId newLength grown : Nat} (h : grownLength blockTypeId newLength = some grown) :
    blockTypeId < grown := by
  fun_induction grownLength blockTypeId newLength with
  | case1 newLength small more ih => exact ih h
  | case2 newLength small overflow => cases h
  | case3 newLength large =>
    obtain rfl := Option.some.inj h
    omega

theorem get_set {before after : RuntimePortDefinitions D} {blockTypeId : Int} {definition : D} {value : Unit}
    (run : set blockTypeId definition before = .ok value after) (other : Int) :
    0 ≤ blockTypeId ∧ after.get other = if other = blockTypeId then some definition else before.get other := by
  obtain ⟨_, mid, accepted, run⟩ := Call.bind_eq_ok run
  obtain ⟨natural, same⟩ := Call.rejectIf_eq_ok accepted
  subst mid
  have run : (Call.get >>= _) before = .ok value after := run
  rw [Call.get_bind] at run
  refine ⟨by omega, ?_⟩
  -- the array, grown or not, with the definition in its place
  have written : ∀ (more : Nat), blockTypeId.toNat < before.definitions.length + more →
      (⟨(before.definitions ++ List.replicate more none).set blockTypeId.toNat (some definition)⟩ :
        RuntimePortDefinitions D).get other = if other = blockTypeId then some definition else before.get other := by
    intro more inside
    unfold get
    by_cases negative : other < 0
    · rw [if_pos negative, if_pos negative, if_neg (by omega)]
    · rw [if_neg negative, if_neg negative]
      dsimp only
      by_cases here : other = blockTypeId
      · rw [if_pos here, here, List.getElem?_set_self (by simpa using inside)]
        rfl
      · rw [if_neg here, List.getElem?_set_ne (by omega)]
        by_cases old : other.toNat < before.definitions.length
        · rw [List.getElem?_append_left old]
        · rw [List.getElem?_append_right (by omega), List.getElem?_replicate,
            List.getElem?_eq_none (show before.definitions.length ≤ other.toNat by omega)]
          split <;> rfl
  by_cases small : before.definitions.length ≤ blockTypeId.toNat
  · rw [if_pos small] at run
    obtain ⟨newLength, mid, grows, run⟩ := Call.bind_eq_ok run
    obtain ⟨grown, same⟩ := Call.okOr_eq_ok grows
    subst mid
    obtain ⟨-, rfl⟩ := Outcome.ok.inj run
    have := lt_grownLength grown
    exact written _ (by omega)
  · rw [if_neg small] at run
    obtain ⟨-, rfl⟩ := Outcome.ok.inj run
    have := written 0 (by omega)
    rwa [List.replicate_zero, List.append_nil] at this

theorem get_clear {before after : RuntimePortDefinitions D} {blockTypeId : Int} {value : Unit}
    (run : clear blockTypeId before = .ok value after) (other : Int) :
    after.get other = if other = blockTypeId then none else before.get other := by
  obtain ⟨_, mid, accepted, run⟩ := Call.bind_eq_ok run
  obtain ⟨natural, same⟩ := Call.rejectIf_eq_ok accepted
  subst mid
  obtain ⟨-, rfl⟩ := Outcome.ok.inj run
  unfold get
  by_cases negative : other < 0
  · rw [if_pos negative, if_pos negative, ite_self]
  · rw [if_neg negative, if_neg negative]
    dsimp only
    by_cases inside : blockTypeId.toNat < before.definitions.length
    · rw [if_pos inside]
      dsimp only
      by_cases here : other = blockTypeId
      · rw [if_pos here, here, List.getElem?_set_self inside]
        rfl
      · rw [if_neg here, List.getElem?_set_ne (by omega)]
    · rw [if_neg inside]
      by_cases here : other = blockTypeId
      · rw [if_pos here, here, List.getElem?_eq_none (by omega)]
        rfl
      · rw [if_neg here]

end RuntimePortDefinitions

/-! ### Assets -/

structure WireComponentAsset where
  configId : Option String

structure BlockEntity where
  wireComponent : Option WireComponentAsset

structure BlockType where
  id : String
  blockEntity : Option BlockEntity

/-- The asset maps at one time: the block types in the order of the map, the runtime index of each id, negative where
there is none, and the wire configs, objects of type `W`. Ids are keys, and indices number them. -/
structure Assets (W : Type) where
  blockTypes : List BlockType
  getIndex : String → Int
  getAsset : String → Option W
  distinct : blockTypes.Pairwise fun a b => a.id ≠ b.id
  numbered : ∀ id id', 0 ≤ getIndex id → getIndex id = getIndex id' → id = id'

/-- The loaded config that the component of a block type names. -/
def Assets.wireConfig {W : Type} (self : Assets W) (blockType : BlockType) : Option W := do
  let blockEntity ← blockType.blockEntity
  let wireComponent ← blockEntity.wireComponent
  let configId ← wireComponent.configId
  self.getAsset configId

/-! ### Rebuilding -/

/-- `WireBlockPortDefinitions`, with the layouts of its port module. -/
structure WireBlockPortDefinitions (W D : Type) where
  blockPorts : RuntimePortDefinitions D := {}
  compiledDefinitions : List (W × D) := []
  publishedBlockTypes : List Int := []
  rebuiltBlockTypes : List Int := []

namespace WireBlockPortDefinitions

variable {W D : Type} [DecidableEq W] (owns : D → Bool) (build : W → Except PortException D)

abbrev RebuildCall (W D α : Type) := Call (WireBlockPortDefinitions W D) PortException α

/-- A call on the layouts of the port module. -/
def onPorts {α : Type} (call : RuntimePortDefinitions.PortCall D α) : RebuildCall W D α :=
  Call.zoom blockPorts (fun self blockPorts => { self with blockPorts }) id call

/-- The definition of a config, from the map where it was built before. -/
def compiled (config : W) : RebuildCall W D D := do
  let self ← Call.get
  match self.compiledDefinitions.lookup config with
  | some definition => pure definition
  | none => do
    let definition ← Call.ofExcept id (build config)
    Call.modify fun self => { self with compiledDefinitions := (config, definition) :: self.compiledDefinitions }
    pure definition

/-- `PortModule::setBlockPorts`; the module must own each standard of the layout. -/
def setBlockPorts (blockTypeIndex : Int) (definition : D) : RebuildCall W D Unit := do
  Call.rejectIf (owns definition = false) .illegalArgument
  onPorts (RuntimePortDefinitions.set blockTypeIndex definition)

/-- One round of the loop over the block types. -/
def publish (assets : Assets W) (blockType : BlockType) : RebuildCall W D PUnit :=
  match assets.wireConfig blockType with
  | none => pure ()
  | some config => do
    let blockTypeIndex := assets.getIndex blockType.id
    Call.rejectIf (blockTypeIndex < 0) .illegalState
    let definition ← compiled build config
    setBlockPorts owns blockTypeIndex definition
    Call.modify fun self => { self with rebuiltBlockTypes := blockTypeIndex :: self.rebuiltBlockTypes }

/-- One round of the loop over the published block types. -/
def clearStale (blockTypeIndex : Int) : RebuildCall W D PUnit := do
  let self ← Call.get
  if blockTypeIndex ∈ self.rebuiltBlockTypes then pure ()
  else onPorts (RuntimePortDefinitions.clear blockTypeIndex)

def rebuild (assets : Assets W) : RebuildCall W D Unit := do
  Call.modify fun self => { self with compiledDefinitions := [], rebuiltBlockTypes := [] }
  assets.blockTypes.forM (publish owns build assets)
  let self ← Call.get
  self.publishedBlockTypes.forM clearStale
  Call.modify fun self => { self with publishedBlockTypes := self.rebuiltBlockTypes }

/-- The states after some rebuilds, whether they returned or threw, of whatever assets. -/
inductive Reached : WireBlockPortDefinitions W D → Prop
  | new : Reached {}
  | rebuild {self next : WireBlockPortDefinitions W D} (reached : Reached self) (assets : Assets W)
      (left : (rebuild owns build assets self).Leaves next) : Reached next

/-! ### What a rebuild publishes -/

/-- The block types that have a wire config, by index. -/
def Wires (assets : Assets W) (index : Int) (config : W) : Prop :=
  ∃ blockType ∈ assets.blockTypes, assets.wireConfig blockType = some config ∧ assets.getIndex blockType.id = index

/-- Just the block types with a wire config have a layout, that of their config. -/
def Publishes (assets : Assets W) (self : WireBlockPortDefinitions W D) : Prop :=
  (∀ index config, Wires assets index config →
    ∃ definition, build config = .ok definition ∧ self.blockPorts.get index = some definition) ∧
  ∀ index, (¬ ∃ config, Wires assets index config) → self.blockPorts.get index = none

/-- What is not recorded as published and still has a layout has a wire config again. -/
def Covers (assets : Assets W) (self : WireBlockPortDefinitions W D) : Prop :=
  ∀ index, self.blockPorts.get index ≠ none → index ∉ self.publishedBlockTypes → ∃ config, Wires assets index config

section Spec

variable {owns build} {self next : WireBlockPortDefinitions W D} {assets : Assets W} {value : Unit}

omit [DecidableEq W] in
theorem onPorts_eq_ok {α : Type} {call : RuntimePortDefinitions.PortCall D α} {value : α}
    (run : onPorts call self = .ok value next) :
    ∃ blockPorts, call self.blockPorts = .ok value blockPorts ∧ next = { self with blockPorts } := by
  unfold onPorts Call.zoom at run
  split at run
  · obtain ⟨rfl, rfl⟩ := Outcome.ok.inj run
    exact ⟨_, ‹_›, rfl⟩
  · cases run
  · cases run

/-- The definitions that were built in this rebuild are those of their configs. -/
def Built (build : W → Except PortException D) (self : WireBlockPortDefinitions W D) : Prop :=
  ∀ config definition, self.compiledDefinitions.lookup config = some definition → build config = .ok definition

theorem compiled_eq_ok (built : Built build self) {config : W} {definition : D}
    (run : compiled build config self = .ok definition next) :
    build config = .ok definition ∧ Built build next ∧ next.blockPorts = self.blockPorts ∧
      next.publishedBlockTypes = self.publishedBlockTypes ∧ next.rebuiltBlockTypes = self.rebuiltBlockTypes := by
  unfold compiled at run
  rw [Call.get_bind] at run
  cases found : self.compiledDefinitions.lookup config with
  | some known =>
    rw [found] at run
    obtain ⟨rfl, rfl⟩ := Outcome.ok.inj run
    exact ⟨built config known found, built, rfl, rfl, rfl⟩
  | none =>
    rw [found] at run
    obtain ⟨fresh, mid, builds, run⟩ := Call.bind_eq_ok run
    obtain ⟨isBuilt, same⟩ := Call.ofExcept_eq_ok builds
    subst mid
    obtain ⟨rfl, rfl⟩ := Outcome.ok.inj run
    refine ⟨isBuilt, fun other definition known => ?_, rfl, rfl, rfl⟩
    rw [List.lookup_cons] at known
    split at known
    · rename_i same
      obtain rfl := Option.some.inj known
      rw [eq_of_beq same]
      exact isBuilt
    · exact built other definition known

/-- What one round publishes. -/
theorem publish_eq_ok (built : Built build self) {blockType : BlockType}
    (run : publish owns build assets blockType self = .ok value next) :
    Built build next ∧ next.publishedBlockTypes = self.publishedBlockTypes ∧
      match assets.wireConfig blockType with
      | none => next.blockPorts = self.blockPorts ∧ next.rebuiltBlockTypes = self.rebuiltBlockTypes
      | some config => 0 ≤ assets.getIndex blockType.id ∧ ∃ definition, build config = .ok definition ∧
          next.rebuiltBlockTypes = assets.getIndex blockType.id :: self.rebuiltBlockTypes ∧
          ∀ index, next.blockPorts.get index =
            if index = assets.getIndex blockType.id then some definition else self.blockPorts.get index := by
  unfold publish at run
  cases isConfig : assets.wireConfig blockType with
  | none =>
    rw [isConfig] at run
    obtain ⟨-, rfl⟩ := Outcome.ok.inj run
    exact ⟨built, rfl, rfl, rfl⟩
  | some config =>
    rw [isConfig] at run
    obtain ⟨_, s₁, indexed, run⟩ := Call.bind_eq_ok run
    obtain ⟨natural, same⟩ := Call.rejectIf_eq_ok indexed
    subst s₁
    obtain ⟨definition, s₂, compiles, run⟩ := Call.bind_eq_ok run
    obtain ⟨isBuilt, built', ports, published, rebuilt⟩ := compiled_eq_ok built compiles
    obtain ⟨_, s₃, sets, run⟩ := Call.bind_eq_ok run
    obtain ⟨-, rfl⟩ := Outcome.ok.inj run
    unfold setBlockPorts at sets
    obtain ⟨_, s₄, owned, sets⟩ := Call.bind_eq_ok sets
    obtain ⟨-, same⟩ := Call.rejectIf_eq_ok owned
    subst s₄
    obtain ⟨blockPorts, writes, rfl⟩ := onPorts_eq_ok sets
    refine ⟨built', published, by omega, definition, isBuilt, congrArg _ rebuilt, fun index => ?_⟩
    rw [← ports]
    exact (RuntimePortDefinitions.get_set writes index).2

/-- What the loop over the block types publishes. -/
theorem publishAll_eq_ok {blockTypes : List BlockType} (built : Built build self)
    (distinct : blockTypes.Pairwise fun a b => a.id ≠ b.id)
    (run : blockTypes.forM (publish owns build assets) self = .ok value next) :
    next.publishedBlockTypes = self.publishedBlockTypes ∧
      (∀ index, index ∈ next.rebuiltBlockTypes ↔ index ∈ self.rebuiltBlockTypes ∨
        ∃ blockType ∈ blockTypes, (assets.wireConfig blockType).isSome = true ∧ assets.getIndex blockType.id = index) ∧
      (∀ blockType ∈ blockTypes, ∀ config, assets.wireConfig blockType = some config →
        ∃ definition, build config = .ok definition ∧
          next.blockPorts.get (assets.getIndex blockType.id) = some definition) ∧
      ∀ index, (¬ ∃ blockType ∈ blockTypes, (assets.wireConfig blockType).isSome = true ∧
        assets.getIndex blockType.id = index) → next.blockPorts.get index = self.blockPorts.get index := by
  induction blockTypes generalizing self with
  | nil =>
    obtain ⟨-, rfl⟩ := Outcome.ok.inj run
    exact ⟨rfl, by simp, by simp, fun _ _ => rfl⟩
  | cons blockType blockTypes ih =>
    obtain ⟨apart, distinct'⟩ := List.pairwise_cons.mp distinct
    obtain ⟨_, mid, first, rest⟩ := Call.bind_eq_ok run
    obtain ⟨built', published, here⟩ := publish_eq_ok built first
    obtain ⟨published', rebuilt', layouts, others⟩ := ih built' distinct' rest
    cases isConfig : assets.wireConfig blockType with
    | none =>
      rw [isConfig] at here
      have skips : ∀ index, (∃ other ∈ blockType :: blockTypes, (assets.wireConfig other).isSome = true ∧
          assets.getIndex other.id = index) ↔ ∃ other ∈ blockTypes, (assets.wireConfig other).isSome = true ∧
          assets.getIndex other.id = index := by
        intro index
        simp [isConfig]
      refine ⟨published'.trans published, fun index => ?_, fun other member config known => ?_, fun index outside => ?_⟩
      · rw [rebuilt', here.2, skips]
      · rcases List.mem_cons.mp member with rfl | later
        · rw [isConfig] at known
          cases known
        · exact layouts other later config known
      · rw [others index (mt (skips index).mpr outside), here.1]
    | some config =>
      rw [isConfig] at here
      obtain ⟨natural, definition, isBuilt, rebuilt, written⟩ := here
      -- no later block type has this index
      have alone : ¬ ∃ other ∈ blockTypes, (assets.wireConfig other).isSome = true ∧
          assets.getIndex other.id = assets.getIndex blockType.id := by
        rintro ⟨other, member, -, same⟩
        exact apart other member (assets.numbered _ _ natural same.symm)
      refine ⟨published'.trans published, fun index => ?_, fun other member config' known => ?_, fun index outside => ?_⟩
      · rw [rebuilt', rebuilt, List.mem_cons]
        simp only [List.mem_cons, exists_eq_or_imp, isConfig, Option.isSome_some, true_and]
        constructor
        · rintro ((rfl | earlier) | later)
          · exact Or.inr (Or.inl rfl)
          · exact Or.inl earlier
          · exact Or.inr (Or.inr later)
        · rintro (earlier | rfl | later)
          · exact Or.inl (Or.inr earlier)
          · exact Or.inl (Or.inl rfl)
          · exact Or.inr later
      · rcases List.mem_cons.mp member with rfl | later
        · obtain rfl := Option.some.inj (isConfig.symm.trans known)
          exact ⟨definition, isBuilt, by rw [others _ alone, written, if_pos rfl]⟩
        · exact layouts other later config' known
      · rw [others index fun ⟨other, member, has, same⟩ => outside ⟨other, List.mem_cons_of_mem _ member, has, same⟩,
          written, if_neg]
        rintro rfl
        exact outside ⟨blockType, List.mem_cons_self, by rw [isConfig]; rfl, rfl⟩

omit [DecidableEq W] in
/-- What the loop over the published block types clears. -/
theorem clearStaleAll_eq_ok {published : List Int} (run : published.forM clearStale self = .ok value next) :
    next.rebuiltBlockTypes = self.rebuiltBlockTypes ∧ ∀ index, next.blockPorts.get index =
      if index ∈ published ∧ index ∉ self.rebuiltBlockTypes then none else self.blockPorts.get index := by
  induction published generalizing self with
  | nil =>
    obtain ⟨-, rfl⟩ := Outcome.ok.inj run
    exact ⟨rfl, fun index => by rw [if_neg (by simp)]⟩
  | cons stale published ih =>
    obtain ⟨_, mid, first, rest⟩ := Call.bind_eq_ok run
    obtain ⟨rebuilt, cleared⟩ := ih rest
    have first : (Call.get >>= _) self = .ok _ mid := first
    rw [Call.get_bind] at first
    by_cases again : stale ∈ self.rebuiltBlockTypes
    · rw [if_pos again] at first
      obtain ⟨-, rfl⟩ := Outcome.ok.inj first
      refine ⟨rebuilt, fun index => (cleared index).trans (if_congr ?_ rfl rfl)⟩
      rw [List.mem_cons]
      refine and_congr_left fun notRebuilt => ⟨Or.inr, fun or => or.resolve_left ?_⟩
      rintro rfl
      exact notRebuilt again
    · rw [if_neg again] at first
      obtain ⟨blockPorts, clears, rfl⟩ := onPorts_eq_ok first
      refine ⟨rebuilt, fun index => (cleared index).trans ?_⟩
      dsimp only
      rw [RuntimePortDefinitions.get_clear clears]
      by_cases here : index = stale
      · subst here
        rw [if_pos rfl, ite_self, if_pos ⟨List.mem_cons_self, again⟩]
      · rw [if_neg here]
        simp only [List.mem_cons, here, false_or]

omit [DecidableEq W] in
theorem wires_iff {index : Int} : (∃ config, Wires assets index config) ↔ ∃ blockType ∈ assets.blockTypes,
    (assets.wireConfig blockType).isSome = true ∧ assets.getIndex blockType.id = index := by
  simp only [Wires, Option.isSome_iff_exists]
  exact ⟨fun ⟨config, blockType, member, known, same⟩ => ⟨blockType, member, ⟨config, known⟩, same⟩,
    fun ⟨blockType, member, ⟨config, known⟩, same⟩ => ⟨config, blockType, member, known, same⟩⟩

/-- The table after a rebuild that returned. -/
theorem rebuild_eq_ok (run : rebuild owns build assets self = .ok value next) :
    (∀ index, index ∈ next.publishedBlockTypes ↔ ∃ config, Wires assets index config) ∧
      (∀ index config, Wires assets index config →
        ∃ definition, build config = .ok definition ∧ next.blockPorts.get index = some definition) ∧
      ∀ index, (¬ ∃ config, Wires assets index config) → next.blockPorts.get index =
        if index ∈ self.publishedBlockTypes then none else self.blockPorts.get index := by
  have run : (Call.modify _ >>= _) self = .ok value next := run
  rw [Call.modify_bind] at run
  obtain ⟨_, mid, loop, run⟩ := Call.bind_eq_ok run
  have fresh : Built build { self with compiledDefinitions := [], rebuiltBlockTypes := [] } := nofun
  obtain ⟨published, rebuilt, layouts, others⟩ := publishAll_eq_ok fresh assets.distinct loop
  rw [Call.get_bind] at run
  obtain ⟨_, last, clears, run⟩ := Call.bind_eq_ok run
  obtain ⟨-, rfl⟩ := Outcome.ok.inj run
  obtain ⟨kept, cleared⟩ := clearStaleAll_eq_ok clears
  have isRebuilt : ∀ index, index ∈ mid.rebuiltBlockTypes ↔ ∃ config, Wires assets index config := by
    intro index
    rw [rebuilt, wires_iff]
    simp
  refine ⟨fun index => ?_, fun index config wires => ?_, fun index outside => ?_⟩
  · show index ∈ last.rebuiltBlockTypes ↔ _
    rw [kept, isRebuilt]
  · show ∃ definition, _ ∧ last.blockPorts.get index = some definition
    rw [cleared, if_neg fun stale => stale.2 ((isRebuilt index).mpr ⟨config, wires⟩)]
    obtain ⟨blockType, member, known, rfl⟩ := wires
    exact layouts blockType member config known
  · show last.blockPorts.get index = _
    rw [cleared, others index (mt wires_iff.mpr outside), published]
    exact if_congr ⟨And.left, fun stale => ⟨stale, mt (isRebuilt index).mp outside⟩⟩ rfl rfl

/-- A rebuild that returns, from any state and so after whatever rebuilds, publishes just what the assets say where what
failed rebuilds left behind has a wire config again; and what failed rebuilds left is there only after one failed: a
rebuild that publishes just that leaves nothing behind. -/
theorem rebuild_publishes_iff : ∀ (self : WireBlockPortDefinitions W D) (assets : Assets W)
    (next : WireBlockPortDefinitions W D), rebuild owns build assets self = .ok () next →
      (Publishes build assets next ↔ Covers assets self) ∧
      (Publishes build assets next → ∀ index, next.blockPorts.get index ≠ none → index ∈ next.publishedBlockTypes) := by
  intro self assets next run
  obtain ⟨published, layouts, others⟩ := rebuild_eq_ok run
  refine ⟨⟨fun publishes index held unrecorded => ?_, fun covers => ⟨layouts, fun index outside => ?_⟩⟩,
    fun publishes index held => ?_⟩
  · by_contra outside
    have cleared := publishes.2 index outside
    rw [others index outside, if_neg unrecorded] at cleared
    exact held cleared
  · rw [others index outside]
    split
    · rfl
    · rename_i unrecorded
      by_contra held
      exact outside (covers index held unrecorded)
  · rw [published]
    by_contra outside
    exact held (publishes.2 index outside)

end Spec

/-! ### What a failed rebuild leaves -/

/-- Block types that all have the config `copper`; only the lamp has an index. -/
def copper (ids : List String) (distinct : ids.Nodup) : Assets Nat where
  blockTypes := ids.map fun id => ⟨id, some ⟨some ⟨some "copper"⟩⟩⟩
  getIndex id := if id = "lamp" then 3 else -1
  getAsset id := if id = "copper" then some 0 else none
  distinct := List.Pairwise.map _ (fun _ _ different => different) distinct
  numbered := by
    intro id id' natural same
    split at natural
    · rename_i first
      rw [if_pos first] at same
      split at same
      · rename_i second
        rw [first, second]
      · cases same
    · cases natural

/-- The lamp has its layout, and no rebuild returned. -/
def halfPublished : WireBlockPortDefinitions Nat Nat :=
  { blockPorts := ⟨(List.replicate 16 none).set 3 (some 0)⟩, compiledDefinitions := [(0, 0)], rebuiltBlockTypes := [3] }

/-- A layout that a rebuild published before it threw stays when the block type is gone. -/
theorem rebuild_publishes_stale : ¬ ∀ (owns : Nat → Bool) (build : Nat → Except PortException Nat)
    (self : WireBlockPortDefinitions Nat Nat), Reached owns build self → ∀ (assets : Assets Nat)
      (next : WireBlockPortDefinitions Nat Nat), rebuild owns build assets self = .ok () next →
      Publishes build assets next := by
  intro always
  have throws : rebuild (fun _ => true) .ok (copper ["lamp", "pipe"] (by decide)) {} = .err .illegalState halfPublished := by
    rfl
  have returns : rebuild (fun _ => true) .ok (copper [] .nil) halfPublished =
      .ok () { halfPublished with compiledDefinitions := [], rebuiltBlockTypes := [] } := by
    rfl
  have publishes := always _ _ _ (.rebuild .new _ (Or.inr ⟨_, throws⟩)) _ _ returns
  have cleared := publishes.2 3 fun ⟨config, blockType, member, _⟩ => by cases member
  cases cleared

/-- What a failed rebuild left of the lamp is published once the lamp alone is there. -/
theorem rebuild_publishes_lamp : ∃ self next : WireBlockPortDefinitions Nat Nat,
    Reached (fun _ => true) .ok self ∧ self.publishedBlockTypes = [] ∧ self.blockPorts.get 3 = some 0 ∧
      rebuild (fun _ => true) .ok (copper ["lamp"] (by decide)) self = .ok () next ∧
      Publishes .ok (copper ["lamp"] (by decide)) next := by
  have throws : rebuild (fun _ => true) .ok (copper ["lamp", "pipe"] (by decide)) {} = .err .illegalState halfPublished := by
    rfl
  have returns : rebuild (fun _ => true) .ok (copper ["lamp"] (by decide)) halfPublished =
      .ok () { halfPublished with publishedBlockTypes := [3] } := by
    rfl
  have reached : Reached (fun _ => true) .ok halfPublished := .rebuild .new _ (Or.inr ⟨_, throws⟩)
  refine ⟨_, _, reached, rfl, rfl, returns, ((rebuild_publishes_iff _ _ _ returns).1).mpr fun index held _ => ?_⟩
  -- the only entry is the lamp's, and the lamp has a config
  have lamp : index = 3 := by
    by_contra other
    refine held ?_
    unfold RuntimePortDefinitions.get
    split
    · rfl
    · show ((List.replicate 16 none).set 3 (some 0))[_]?.join = none
      rw [List.getElem?_set_ne (by omega), List.getElem?_replicate]
      split <;> rfl
  rw [lamp]
  exact ⟨_, _, List.mem_cons_self, rfl, rfl⟩

end WireBlockPortDefinitions

end Hynergy.Core
