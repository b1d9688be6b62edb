import Hynergy.Core.WireSystem

/-!
# Runs of wire blocks

The ids of the loaded blocks, and of the saved blocks that the current system gave one, are usable and no
two of them the same. A restart makes a new system, which has given no id to a saved block.
-/

namespace Hynergy.Core

open Lib Relation
open Call (Preserves)
open ElectricalWorld (Tracks Holds)

variable {F : Type} [F64 F] {definitions : DefinitionRegistry F} {handles : WireHandle → Prop} {n : Nat}

namespace ElectricalSystemResource

/-- The system with the number has accepted commands only, and the handles are usable in it. -/
structure Serves (definitions : DefinitionRegistry F) (handles : WireHandle → Prop) (n : Nat)
    (resource : ElectricalSystemResource F) : Prop where
  isNumber : resource.number = n
  tracks : ∀ world, resource.system = some world → ∃ commands, Tracks definitions world commands
  accepts : ∀ handle, handles handle → ∃ world, resource.system = some world ∧ Holds handle world

variable {resource after : ElectricalSystemResource F} {world next : ElectricalWorld F}

theorem Serves.mono (h : Serves definitions handles n resource) {fewer : WireHandle → Prop}
    (subset : ∀ handle, fewer handle → handles handle) : Serves definitions fewer n resource :=
  ⟨h.isNumber, h.tracks, fun handle has => h.accepts handle (subset handle has)⟩

omit [F64 F] in
theorem onWorld_ok {α : Type} {call : ElectricalWorld.WorldCall F α} {value : α} (current : resource.system = some world)
    (run : call world = .ok value next) : onWorld call resource = .ok value { resource with system := some next } := by
  unfold onWorld
  rw [current]
  dsimp only
  rw [run]

omit [F64 F] in
theorem onWorld_err {α : Type} {call : ElectricalWorld.WorldCall F α} {error : WorldException}
    (current : resource.system = some world) (run : call world = .err error next) :
    onWorld call resource = .err error { resource with system := some next } := by
  unfold onWorld
  rw [current]
  dsimp only
  rw [run]

omit [F64 F] in
theorem onWorld_same {α : Type} {call : ElectricalWorld.WorldCall F α} {value : α} (current : resource.system = some world)
    (run : call world = .ok value world) : onWorld call resource = .ok value resource := by
  rw [onWorld_ok current run, ← current]

/-- The system moves on to a world where the handles are usable. -/
theorem Serves.move (h : Serves definitions handles n resource) (tracks : ∃ commands, Tracks definitions next commands)
    (accepts : ∀ handle, handles handle → Holds handle next) :
    Serves definitions handles n { resource with system := some next } :=
  ⟨h.isNumber, fun _ same => Option.some.inj same ▸ tracks, fun handle has => ⟨next, rfl, accepts handle has⟩⟩

theorem Serves.holds (h : Serves definitions handles n resource) (current : resource.system = some world)
    {handle : WireHandle} (has : handles handle) : Holds handle world := by
  obtain ⟨there, same, holds⟩ := h.accepts handle has
  cases same.symm.trans current
  exact holds

theorem getOrCreate_run (h : Serves definitions handles n resource) (known : definitions.Reached)
    {commandBuffer : WorldCommandBuffer} (buffer : WireBlocks.NewBuffer commandBuffer) :
    ∃ after world, getOrCreate commandBuffer resource = .ok n after ∧ Serves definitions handles n after ∧
      after.system = some world := by
  unfold getOrCreate
  rw [Call.get_bind]
  cases current : resource.system with
  | some world => exact ⟨resource, world, congrArg (Outcome.ok · resource) h.isNumber, h, current⟩
  | none =>
    obtain ⟨granted, new⟩ := buffer
    refine ⟨_, _, congrArg (Outcome.ok · _) h.isNumber, h.move ⟨[], .new known new⟩ fun handle has => ?_, rfl⟩
    obtain ⟨world, there, -⟩ := h.accepts handle has
    cases current.symm.trans there

theorem resolveWire_run (h : Serves definitions handles n resource) {handle : WireHandle} (has : handles handle) :
    resolveWire handle resource = .ok ⟨n, handle⟩ resource := by
  obtain ⟨world, current, holds⟩ := h.accepts handle has
  obtain ⟨commands, tracks⟩ := h.tracks world current
  have required : ElectricalWorld.requireWire handle world = .ok () world := by
    unfold ElectricalWorld.requireWire
    rw [Call.bind_ok (ElectricalWorld.requireUsable_run tracks.pending.usable)]
    exact ElectricalWorld.onWires_ok holds.run
  unfold resolveWire
  rw [Call.bind_ok (onWorld_same current required), Call.get_bind, h.isNumber]
  rfl

/-- The new wire is usable like the ones before it, and its id is its own. -/
theorem createWire_serves {grants : Grants} {wire : Wire} (h : Serves definitions handles n resource)
    (current : resource.system = some world) (run : createWire grants resource = .ok wire after) :
    wire.system = n ∧ Serves definitions (fun handle => handles handle ∨ handle = wire.wireId) n after ∧
      ∀ handle, handles handle → handle.value ≠ wire.wireId.value := by
  obtain ⟨commands, tracks⟩ := h.tracks world current
  have settles := (ElectricalWorld.addWire_settles tracks.pending grants).keeps tracks
  unfold createWire at run
  cases added : ElectricalWorld.addWire grants world with
  | err error last =>
    rw [Call.bind_err (onWorld_err current added)] at run
    cases run
  | panic =>
    rw [added] at settles
    exact settles.elim
  | ok id last =>
    rw [added] at settles
    obtain ⟨⟨g, read, holds⟩, others⟩ := ElectricalWorld.addWire_usable tracks.pending.usable tracks.pending.wires added
    obtain ⟨later, tracks'⟩ := settles
    have reading : ElectricalWorld.wireGeneration id last = .ok g last := by
      unfold ElectricalWorld.wireGeneration
      rw [Call.bind_ok (ElectricalWorld.requireUsable_run tracks'.pending.usable)]
      exact ElectricalWorld.onWires_ok read
    rw [Call.bind_ok (onWorld_ok current added), Call.bind_ok (onWorld_same rfl reading)] at run
    by_cases refused : id.toInt ≤ 0 ∨ g = 0
    · rw [Call.rejectIf_bind_pos refused] at run
      cases run
    rw [Call.rejectIf_bind_neg refused, Call.get_bind] at run
    obtain ⟨rfl, rfl⟩ := Outcome.ok.inj run
    refine ⟨h.isNumber, ?_, fun handle has => (others handle (h.holds current has)).2⟩
    refine ⟨h.isNumber, fun _ same => Option.some.inj same ▸ ⟨later, tracks'⟩, fun handle has => ⟨last, rfl, ?_⟩⟩
    rcases has with has | rfl
    · exact (others handle (h.holds current has)).1
    · exact holds

/-- What a settled operation leaves. -/
theorem Serves.settles {α : Type} {call : ElectricalWorld.WorldCall F α} {removed : List Nat}
    (settles : ∀ world commands, ElectricalWorld.Pending world commands →
      ElectricalWorld.Settles world commands removed (call world))
    (keeps : ∀ handle, handles handle → Preserves (Holds handle) call) :
    Preserves (Serves definitions handles n) (onWorld call) := by
  intro resource h
  cases current : resource.system with
  | none =>
    unfold onWorld
    rw [current]
    exact trivial
  | some world =>
    obtain ⟨commands, tracks⟩ := h.tracks world current
    have settled := settles world commands tracks.pending
    have kept := fun handle has => keeps handle has world (h.holds current has)
    cases run : call world with
    | ok value next =>
      rw [run] at settled kept
      obtain ⟨later, leads, -⟩ := settled
      rw [onWorld_ok current run]
      exact h.move ⟨later, tracks.leads leads⟩ kept
    | err error next =>
      rw [run] at settled kept
      obtain ⟨later, leads, -⟩ := settled
      rw [onWorld_err current run]
      exact h.move ⟨later, tracks.leads leads⟩ kept
    | panic =>
      rw [run] at settled
      exact settled.elim

theorem requireOwned_serves (wire : Wire) : Preserves (Serves definitions handles n) (requireOwned wire) := by
  refine .bind ?_ fun _ => .get_bind fun _ _ => .rejectIf _ _
  refine @Serves.settles _ _ _ _ _ _ _ [] (fun world commands pending => ?_) fun handle _ =>
    ElectricalWorld.requireUsable_holds
  rw [ElectricalWorld.requireUsable_run pending.usable]
  exact ElectricalWorld.Settles.of_ok pending rfl

theorem connect_serves (grants : Grants) (first second : Wire) :
    Preserves (Serves definitions handles n) (connect grants first second) := by
  refine .bind (requireOwned_serves _) fun _ => .bind (requireOwned_serves _) fun _ => ?_
  refine Serves.settles (fun _ _ pending => ElectricalWorld.connectWires_settles pending grants _ _)
    fun handle _ => ?_
  exact .bind ElectricalWorld.requireUsable_holds fun _ =>
    .bind (ElectricalWorld.onWires_holds (WorldIdAllocator.requireUsable_usable _ _)) fun _ =>
    .bind (ElectricalWorld.onWires_holds (WorldIdAllocator.requireUsable_usable _ _)) fun _ =>
    .rejectIf_bind fun _ => ElectricalWorld.onBuffer_holds _

theorem destroy_serves (grants : Grants) {wire : Wire} (other : ∀ handle, handles handle → wire.wireId ≠ handle) :
    Preserves (Serves definitions handles n) (destroy grants wire) :=
  .bind (requireOwned_serves _) fun _ =>
    Serves.settles (fun _ _ pending => ElectricalWorld.removeWire_settles pending grants _)
      fun handle has => ElectricalWorld.removeWire_holds grants (other handle has)

end ElectricalSystemResource

namespace WireSystem

open ElectricalSystemResource

variable {resource after : ElectricalSystemResource F} {component left : WireComponent} {commandBuffer : WorldCommandBuffer}
  {grants connectGrants : Grants} {found : List WireComponent}

omit [F64 F] in
theorem onResource_ok {α : Type} {call : ResourceCall F α} {value : α} (run : call resource = .ok value after) :
    onResource call (resource, component) = .ok value (after, component) :=
  Call.zoom_ok run

theorem onResource_serves {α : Type} {call : ResourceCall F α} (h : Preserves (Serves definitions handles n) call) :
    Preserves (fun self => Serves definitions handles n self.1 ∧ self.2 = component) (onResource call) := by
  refine .zoom ?_
  rintro ⟨resource, _⟩ ⟨serves, same⟩
  exact (h resource serves).mono id (fun _ _ serves => ⟨serves, same⟩) fun _ _ serves => ⟨serves, same⟩

theorem connectFound_serves (wire : Wire) (connectedWires : List WireHandle) :
    Preserves (fun self => Serves definitions handles n self.1 ∧ self.2 = component)
      (connectFound (F := F) grants wire found connectedWires) := by
  induction found generalizing connectedWires with
  | nil => exact .pure _
  | cons target found ih =>
    unfold connectFound
    split
    · exact ih connectedWires
    · split
      · exact ih connectedWires
      · exact .bind (onResource_serves (connect_serves _ _ _)) fun _ => ih _

/-- A restored block whose id the system has given resolves its wire. -/
theorem onEntityAdded_restored {handle : WireHandle} (h : Serves definitions handles n resource) (has : handles handle)
    (bare : component.wire = none) (persisted : component.wireId = some handle) :
    onEntityAdded grants connectGrants commandBuffer found (resource, component) =
      .ok () (resource, { component with wire := some ⟨n, handle⟩ }) := by
  obtain ⟨world, current, -⟩ := h.accepts handle has
  have created : getOrCreate commandBuffer resource = .ok n resource := by
    unfold getOrCreate
    rw [Call.get_bind, current]
    exact congrArg (Outcome.ok · resource) h.isNumber
  unfold onEntityAdded
  rw [Call.get_bind]
  dsimp only
  rw [Call.rejectIf_bind_neg (by simp [bare]), Call.bind_ok (onResource_ok created), persisted]
  dsimp only
  rw [Call.bind_ok (onResource_ok (resolveWire_run h has))]
  rfl

/-- A new block gets a wire of its own. -/
theorem onEntityAdded_new (h : Serves definitions handles n resource) (known : definitions.Reached)
    (buffer : WireBlocks.NewBuffer commandBuffer) (unnamed : component.wireId = none)
    (run : onEntityAdded grants connectGrants commandBuffer found (resource, component) = .ok () (after, left)) :
    ∃ wire, left.wire = some wire ∧ left.wireId = some wire.wireId ∧ wire.system = n ∧
      Serves definitions (fun handle => handles handle ∨ handle = wire.wireId) n after ∧
      ∀ handle, handles handle → handle.value ≠ wire.wireId.value := by
  obtain ⟨created, world, creates, serves, current⟩ := getOrCreate_run h known buffer
  unfold onEntityAdded at run
  rw [Call.get_bind] at run
  dsimp only at run
  by_cases attached : component.wire.isSome = true
  · rw [Call.rejectIf_bind_pos attached] at run
    cases run
  rw [Call.rejectIf_bind_neg attached, Call.bind_ok (onResource_ok creates), unnamed] at run
  dsimp only at run
  cases creating : createWire grants created with
  | err error last =>
    have refused : onResource (createWire grants) (created, component) = .err error (last, component) :=
      Call.zoom_err creating
    rw [Call.bind_err refused] at run
    cases run
  | panic =>
    have failed : onResource (createWire grants) (created, component) = .panic := by
      unfold onResource Call.zoom
      dsimp only
      rw [creating]
    rw [Call.bind_panic failed] at run
    cases run
  | ok wire last =>
    rw [Call.bind_ok (onResource_ok creating)] at run
    obtain ⟨ofSystem, served, fresh⟩ := createWire_serves serves current creating
    have connected := @connectFound_serves _ _ _ _ _ _ connectGrants found wire [wire.wireId]
      (last, { component with wireId := some wire.wireId, wire := some wire }) ⟨served, rfl⟩
    have ran : connectFound connectGrants wire found [wire.wireId]
        (last, { component with wireId := some wire.wireId, wire := some wire }) = .ok () (after, left) := run
    rw [ran] at connected
    obtain ⟨served, rfl⟩ := connected
    exact ⟨wire, rfl, rfl, ofSystem, served, fresh⟩

theorem onEntityRemove_serves {wire : Wire} (h : Serves definitions handles n resource)
    (other : ∀ handle, handles handle → wire.wireId ≠ handle) (attached : component.wire = some wire)
    (run : onEntityRemove grants commandBuffer (resource, component) = .ok () (after, left)) :
    Serves definitions handles n after := by
  have kept : Preserves (fun self => Serves definitions handles n self.1 ∧ self.2 = component)
      (onResource (destroy grants wire)) := onResource_serves (destroy_serves grants other)
  have destroyed := kept (resource, component) ⟨h, rfl⟩
  unfold onEntityRemove at run
  rw [Call.get_bind] at run
  dsimp only at run
  rw [attached] at run
  have ran : (onResource (destroy grants wire) >>= fun _ => setComponent { component with wire := none, wireId := none })
      (resource, component) = .ok () (after, left) := run
  cases destroying : onResource (destroy grants wire) (resource, component) with
  | err error last =>
    rw [Call.bind_err destroying] at ran
    cases ran
  | panic =>
    rw [Call.bind_panic destroying] at ran
    cases ran
  | ok _ last =>
    rw [destroying] at destroyed
    rw [Call.bind_ok destroying] at ran
    cases ran
    exact destroyed.1

end WireSystem

namespace WireBlocks

open ElectricalSystemResource WireSystem

variable {Position Section : Type} [DecidableEq Position] [DecidableEq Section] {sectionOf : Position → Section}
  {fromBits : BitVec 64 → F} {self next : WireBlocks F Position Section} {pending : List Position}
  {position : Position}

/-- The handle of a block: of a loaded one, or of one that is saved under an id of the current system and
not restored yet. -/
def Carries (self : WireBlocks F Position Section) (sectionOf : Position → Section) (pending : List Position)
    (position : Position) (handle : WireHandle) : Prop :=
  (∃ component, self.blocks position = some component ∧ component.wireId = some handle) ∨
    ((¬ self.loaded (sectionOf position) ∨ position ∈ pending) ∧ self.issued position = self.resource.number ∧
      ∃ component, self.stored position = some component ∧ component.wireId = some handle)

structure Sound (sectionOf : Position → Section) (pending : List Position) (world : WireBlocks F Position Section) :
    Prop where
  known : world.definitions.Reached
  serves : world.resource.Serves world.definitions (fun handle => ∃ position, world.Carries sectionOf pending position handle)
    world.resource.number
  apart : ∀ position other handle handle', world.Carries sectionOf pending position handle →
    world.Carries sectionOf pending other handle' → handle.value = handle'.value → position = other
  inside : ∀ position component, world.blocks position = some component → world.loaded (sectionOf position)
  whole : ∀ position component, world.blocks position = some component → ∃ wire, component.wire = some wire ∧
    component.wireId = some wire.wireId ∧ wire.system = world.resource.number
  saved : ∀ position component, world.stored position = some component →
    component.wire = none ∧ component.wireId.isSome = true
  issued : ∀ position, world.issued position ≤ world.resource.number

omit [DecidableEq Position] [DecidableEq Section] in
theorem Sound.carriesBlock (h : self.Sound sectionOf pending) {component : WireComponent}
    (there : self.blocks position = some component) :
    ∃ wire, component.wire = some wire ∧ component.wireId = some wire.wireId ∧ wire.system = self.resource.number ∧
      self.Carries sectionOf pending position wire.wireId := by
  obtain ⟨wire, attached, named, ofSystem⟩ := h.whole position component there
  exact ⟨wire, attached, named, ofSystem, Or.inl ⟨component, there, named⟩⟩

omit [DecidableEq Position] [DecidableEq Section] in
theorem Sound.handlesValid (h : self.Sound sectionOf pending) : self.HandlesValid := by
  refine ⟨fun position component there => ?_, ?_⟩
  · obtain ⟨wire, attached, named, ofSystem, carries⟩ := h.carriesBlock there
    refine ⟨wire, attached, named, ofSystem, ?_⟩
    obtain ⟨world, current, holds⟩ := h.serves.accepts wire.wireId ⟨position, carries⟩
    obtain ⟨commands, tracks⟩ := h.serves.tracks world current
    refine ⟨world, current, ?_⟩
    unfold ElectricalWorld.requireWire
    rw [Call.bind_ok (ElectricalWorld.requireUsable_run tracks.pending.usable)]
    exact ElectricalWorld.onWires_ok holds.run
  · intro position other component component' wireId there there' named named'
    exact h.apart position other wireId wireId (Or.inl ⟨component, there, named⟩) (Or.inl ⟨component', there', named'⟩) rfl

omit [DecidableEq Position] [DecidableEq Section] in
theorem sound_new (known : definitions.Reached) : (new definitions : WireBlocks F Position Section).Sound sectionOf [] := by
  have nothing : ∀ position handle, ¬ (new definitions : WireBlocks F Position Section).Carries sectionOf [] position handle := by
    rintro position handle (⟨component, there, -⟩ | ⟨-, -, component, there, -⟩)
    · cases there
    · cases there
  refine ⟨known, ⟨rfl, fun _ there => (by cases there), fun handle has => ?_⟩, ?_, fun _ _ there => (by cases there),
    fun _ _ there => (by cases there), fun _ _ there => (by cases there), fun _ => Nat.le_refl _⟩
  · obtain ⟨position, carries⟩ := has
    exact (nothing position handle carries).elim
  · intro position other handle handle' carries
    exact (nothing position handle carries).elim

/-! ### Steps -/

omit [DecidableEq Section] in
theorem Sound.place (h : self.Sound sectionOf []) {configId : String} {grants connectGrants : Grants}
    {commandBuffer : WorldCommandBuffer} {found : List WireComponent} {resource : ElectricalSystemResource F}
    {component : WireComponent} (loaded : self.loaded (sectionOf position)) (buffer : NewBuffer commandBuffer)
    (added : onEntityAdded grants connectGrants commandBuffer found (self.resource, { configId }) =
      .ok () (resource, component)) :
    Sound sectionOf [] { self.put position resource (some component) with
      issued := Function.update self.issued position resource.number } := by
  obtain ⟨wire, attached, named, ofSystem, serves, fresh⟩ := onEntityAdded_new h.serves h.known buffer rfl added
  have number := serves.isNumber
  -- the new block has the new handle, and the others have those they had
  have carries : ∀ {at' handle}, Carries { self.put position resource (some component) with
      issued := Function.update self.issued position resource.number } sectionOf [] at' handle →
      at' = position ∧ handle = wire.wireId ∨ at' ≠ position ∧ self.Carries sectionOf [] at' handle := by
    intro at' handle has
    by_cases here : at' = position
    · refine Or.inl ⟨here, ?_⟩
      rcases has with ⟨there, same, has⟩ | ⟨outside, -⟩
      · have same : Function.update self.blocks position (some component) at' = some there := same
        rw [here, Function.update_self] at same
        cases same
        exact Option.some.inj (has.symm.trans named)
      · rcases outside with outside | waiting
        · exact (outside (here ▸ loaded)).elim
        · cases waiting
    · refine Or.inr ⟨here, ?_⟩
      rcases has with ⟨there, same, has⟩ | ⟨outside, issued, has⟩
      · exact Or.inl ⟨there, (Function.update_of_ne here _ _).symm.trans same, has⟩
      · exact Or.inr ⟨outside, ((Function.update_of_ne here _ _).symm.trans issued).trans number, has⟩
  have block : ∀ at' there, Function.update self.blocks position (some component) at' = some there →
      at' = position ∧ there = component ∨ self.blocks at' = some there := by
    intro at' there same
    by_cases here : at' = position
    · rw [here, Function.update_self] at same
      exact Or.inl ⟨here, (Option.some.inj same).symm⟩
    · exact Or.inr ((Function.update_of_ne here _ _).symm.trans same)
  refine ⟨h.known, ?_, ?_, ?_, ?_, h.saved, ?_⟩
  · refine ⟨rfl, serves.tracks, ?_⟩
    rintro handle ⟨at', has⟩
    rcases carries has with ⟨-, rfl⟩ | ⟨-, old⟩
    · exact serves.accepts _ (Or.inr rfl)
    · exact serves.accepts handle (Or.inl ⟨at', old⟩)
  · intro at' other handle handle' has has' same
    rcases carries has with ⟨here, isNew⟩ | ⟨-, old⟩
    · rcases carries has' with ⟨here', -⟩ | ⟨-, old'⟩
      · exact here.trans here'.symm
      · exact (fresh handle' ⟨other, old'⟩ (isNew ▸ same.symm)).elim
    · rcases carries has' with ⟨-, isNew⟩ | ⟨-, old'⟩
      · exact (fresh handle ⟨at', old⟩ (isNew ▸ same)).elim
      · exact h.apart at' other handle handle' old old' same
  · intro at' there same
    rcases block at' there same with ⟨rfl, -⟩ | same
    · exact loaded
    · exact h.inside at' there same
  · intro at' there same
    rcases block at' there same with ⟨-, rfl⟩ | same
    · exact ⟨wire, attached, named, ofSystem.trans number.symm⟩
    · obtain ⟨wire, attached, named, ofSystem⟩ := h.whole at' there same
      exact ⟨wire, attached, named, ofSystem.trans number.symm⟩
  · intro at'
    show Function.update self.issued position resource.number at' ≤ resource.number
    by_cases here : at' = position
    · rw [here, Function.update_self]
    · rw [Function.update_of_ne here, number]
      exact h.issued at'

omit [DecidableEq Position] [DecidableEq Section] in
/-- A step after which no block carries a handle that it did not carry before. -/
theorem Sound.shrink (h : self.Sound sectionOf pending) {after : WireBlocks F Position Section} {waiting : List Position}
    (known : after.definitions.Reached)
    (carries : ∀ at' handle, after.Carries sectionOf waiting at' handle → self.Carries sectionOf pending at' handle)
    (serves : after.resource.Serves after.definitions
      (fun handle => ∃ position, after.Carries sectionOf waiting position handle) after.resource.number)
    (inside : ∀ at' component, after.blocks at' = some component → after.loaded (sectionOf at'))
    (whole : ∀ at' component, after.blocks at' = some component → ∃ wire, component.wire = some wire ∧
      component.wireId = some wire.wireId ∧ wire.system = after.resource.number)
    (saved : ∀ at' component, after.stored at' = some component → component.wire = none ∧ component.wireId.isSome = true)
    (issued : ∀ at', after.issued at' ≤ after.resource.number) : after.Sound sectionOf waiting :=
  ⟨known, serves, fun at' other handle handle' has has' =>
    h.apart at' other handle handle' (carries at' handle has) (carries other handle' has'), inside, whole, saved, issued⟩

omit [DecidableEq Section] in
theorem Sound.destroy (h : self.Sound sectionOf []) {component left : WireComponent} {grants : Grants}
    {commandBuffer : WorldCommandBuffer} {resource : ElectricalSystemResource F}
    (there : self.blocks position = some component)
    (removed : onEntityRemove grants commandBuffer (self.resource, component) = .ok () (resource, left)) :
    (self.put position resource none).Sound sectionOf [] := by
  obtain ⟨wire, attached, -, -, carried⟩ := h.carriesBlock there
  have carries : ∀ at' handle, (self.put position resource none).Carries sectionOf [] at' handle →
      resource.number = self.resource.number → at' ≠ position ∧ self.Carries sectionOf [] at' handle := by
    intro at' handle has number
    by_cases here : at' = position
    · rcases has with ⟨component, same, -⟩ | ⟨outside, -⟩
      · have same : Function.update self.blocks position none at' = some component := same
        rw [here, Function.update_self] at same
        cases same
      · rcases outside with outside | waiting
        · exact (outside (here ▸ h.inside position component there)).elim
        · cases waiting
    · refine ⟨here, ?_⟩
      rcases has with ⟨component, same, has⟩ | ⟨outside, issued, has⟩
      · exact Or.inl ⟨component, (Function.update_of_ne here _ _).symm.trans same, has⟩
      · exact Or.inr ⟨outside, issued.trans number, has⟩
  have others : self.resource.Serves self.definitions
      (fun handle => ∃ at', at' ≠ position ∧ self.Carries sectionOf [] at' handle) self.resource.number :=
    h.serves.mono fun handle ⟨at', _, has⟩ => ⟨at', has⟩
  have serves := onEntityRemove_serves others (fun handle ⟨at', away, has⟩ same =>
    away (h.apart at' position handle wire.wireId has carried (congrArg WireHandle.value same.symm))) attached removed
  have number := serves.isNumber
  have block : ∀ at' component, Function.update self.blocks position none at' = some component →
      self.blocks at' = some component := by
    intro at' component same
    by_cases here : at' = position
    · rw [here, Function.update_self] at same
      cases same
    · exact (Function.update_of_ne here _ _).symm.trans same
  refine h.shrink h.known (fun at' handle has => (carries at' handle has number).2) ?_ ?_ ?_ h.saved ?_
  · refine ⟨rfl, serves.tracks, ?_⟩
    rintro handle ⟨at', has⟩
    exact serves.accepts handle ⟨at', carries at' handle has number⟩
  · exact fun at' component same => h.inside at' component (block at' component same)
  · intro at' component same
    obtain ⟨wire, attached, named, ofSystem⟩ := h.whole at' component (block at' component same)
    exact ⟨wire, attached, named, ofSystem.trans number.symm⟩
  · exact fun at' => (h.issued at').trans_eq number.symm

omit [DecidableEq Position] in
theorem Sound.save (h : self.Sound sectionOf []) {s : Section} (loaded : self.loaded s) :
    Sound sectionOf [] { self with stored := self.saved sectionOf s } := by
  have carries : ∀ at' handle, Carries { self with stored := self.saved sectionOf s } sectionOf [] at' handle →
      self.Carries sectionOf [] at' handle := by
    rintro at' handle (has | ⟨outside, issued, component, same, has⟩)
    · exact Or.inl has
    · refine Or.inr ⟨outside, issued, component, ?_, has⟩
      have apart : sectionOf at' ≠ s := by
        rintro rfl
        rcases outside with outside | waiting
        · exact outside loaded
        · cases waiting
      exact (if_neg apart).symm.trans same
  refine h.shrink h.known carries (h.serves.mono fun handle ⟨at', has⟩ => ⟨at', carries at' handle has⟩) h.inside h.whole
    ?_ h.issued
  intro at' component same
  have same : self.saved sectionOf s at' = some component := same
  unfold WireBlocks.saved at same
  split at same
  · obtain ⟨block, there, rfl⟩ := Option.map_eq_some_iff.mp same
    obtain ⟨wire, -, named, -⟩ := h.whole at' block there
    exact ⟨rfl, by simp [WireComponent.cloneSerializable, named]⟩
  · exact h.saved at' component same

omit [DecidableEq Position] in
theorem Sound.unload (h : self.Sound sectionOf []) (s : Section) :
    Sound sectionOf [] { self with
      loaded := fun other => other ≠ s ∧ self.loaded other
      blocks := fun position => if sectionOf position = s then none else self.blocks position
      stored := ({ self with blocks := fun position => (self.blocks position).map onEntityUnload }).saved sectionOf s } := by
  have written : ∀ at' component, ({ self with blocks := fun position => (self.blocks position).map onEntityUnload } :
      WireBlocks F Position Section).saved sectionOf s at' = some component →
      (sectionOf at' = s ∧ component.wire = none ∧ ∃ block, self.blocks at' = some block ∧ component.wireId = block.wireId) ∨
        sectionOf at' ≠ s ∧ self.stored at' = some component := by
    intro at' component same
    unfold WireBlocks.saved at same
    split at same
    · rename_i inSection
      obtain ⟨block, unloaded, rfl⟩ := Option.map_eq_some_iff.mp same
      obtain ⟨block', there, rfl⟩ := Option.map_eq_some_iff.mp unloaded
      exact Or.inl ⟨inSection, rfl, block', there, rfl⟩
    · rename_i outside
      exact Or.inr ⟨outside, same⟩
  have kept : ∀ at' component, (if sectionOf at' = s then none else self.blocks at') = some component →
      sectionOf at' ≠ s ∧ self.blocks at' = some component := by
    intro at' component same
    split at same
    · cases same
    · rename_i outside
      exact ⟨outside, same⟩
  have carries : ∀ at' handle, Carries { self with
      loaded := fun other => other ≠ s ∧ self.loaded other
      blocks := fun position => if sectionOf position = s then none else self.blocks position
      stored := ({ self with blocks := fun position => (self.blocks position).map onEntityUnload }).saved sectionOf s }
      sectionOf [] at' handle → self.Carries sectionOf [] at' handle := by
    rintro at' handle (⟨component, same, has⟩ | ⟨outside, issued, component, same, has⟩)
    · exact Or.inl ⟨component, (kept at' component same).2, has⟩
    · rcases written at' component same with ⟨-, -, block, there, named⟩ | ⟨other, stored⟩
      · exact Or.inl ⟨block, there, named ▸ has⟩
      · refine Or.inr ⟨?_, issued, component, stored, has⟩
        rcases outside with outside | waiting
        · exact Or.inl fun loaded => outside ⟨other, loaded⟩
        · cases waiting
  refine h.shrink h.known carries (h.serves.mono fun handle ⟨at', has⟩ => ⟨at', carries at' handle has⟩) ?_ ?_ ?_ h.issued
  · intro at' component same
    obtain ⟨outside, there⟩ := kept at' component same
    exact ⟨outside, h.inside at' component there⟩
  · exact fun at' component same => h.whole at' component (kept at' component same).2
  · intro at' component same
    rcases written at' component same with ⟨-, bare, block, there, named⟩ | ⟨-, stored⟩
    · obtain ⟨wire, -, isNamed, -⟩ := h.whole at' block there
      exact ⟨bare, by simp [named, isNamed]⟩
    · exact h.saved at' component stored

omit [DecidableEq Position] [DecidableEq Section] in
theorem Sound.restart (h : self.Sound sectionOf []) :
    Sound sectionOf [] { self with
      resource := { number := self.resource.number + 1 }, loaded := fun _ => False, blocks := fun _ => none } := by
  have nothing : ∀ at' handle, ¬ Carries { self with
      resource := { number := self.resource.number + 1 }, loaded := fun _ => False, blocks := fun _ => none }
      sectionOf [] at' handle := by
    rintro at' handle (⟨component, there, -⟩ | ⟨-, issued, -⟩)
    · cases there
    · have issued : self.issued at' = self.resource.number + 1 := issued
      have before := h.issued at'
      omega
  refine h.shrink h.known (fun at' handle has => (nothing at' handle has).elim) ⟨rfl, fun _ there => (by cases there), ?_⟩
    (fun _ _ there => (by cases there)) (fun _ _ there => (by cases there)) h.saved fun at' => (h.issued at').trans (Nat.le_succ _)
  rintro handle ⟨at', has⟩
  exact (nothing at' handle has).elim

omit [DecidableEq Position] [DecidableEq Section] in
theorem Sound.register (h : self.Sound sectionOf []) {definitions : DefinitionRegistry F}
    (extends' : definitions.Extends self.definitions) (reached : definitions.Reached) :
    Sound sectionOf [] { self with definitions } := by
  refine h.shrink reached (fun _ _ has => has) ⟨rfl, ?_, h.serves.accepts⟩ h.inside h.whole h.saved h.issued
  intro world current
  obtain ⟨commands, tracks⟩ := h.serves.tracks world current
  exact @Tracks.step _ _ _ (fun _ => F64.zero) _ _ _ _ tracks (.register extends' reached)

omit [DecidableEq Position] [DecidableEq Section] in
theorem Sound.operate (h : self.Sound sectionOf []) {world after : ElectricalWorld F}
    (operation : ElectricalWorld.Operation F) (current : self.resource.system = some world)
    (run : operation.run self.definitions fromBits world = .ok () after ∨ ∃ error,
      operation.run self.definitions fromBits world = .err error after ∧ error.isEngineFailure = false)
    (spares : ∀ grants handle, operation = .removeWire grants handle → ∀ position component,
      (self.blocks position = some component ∨ self.stored position = some component) → component.wireId ≠ some handle) :
    Sound sectionOf [] { self with resource := { self.resource with system := some after } } := by
  obtain ⟨commands, tracks⟩ := h.serves.tracks world current
  refine h.shrink h.known (fun _ _ has => has) ?_ h.inside h.whole h.saved h.issued
  refine h.serves.move ?_ ?_
  · rcases run with run | ⟨error, run, accepted⟩
    · exact tracks.step (.returns operation run)
    · exact tracks.step (.throws operation run accepted)
  · rintro handle ⟨at', has⟩
    have spared : ∀ grants other, operation = .removeWire grants other → other ≠ handle := by
      rintro grants other removes rfl
      rcases has with ⟨component, there, has⟩ | ⟨-, -, component, there, has⟩
      · exact spares grants other removes at' component (Or.inl there) has
      · exact spares grants other removes at' component (Or.inr there) has
    have kept := @ElectricalWorld.Operation.run_holds _ _ _ self.definitions fromBits operation world
      tracks.pending.usable tracks.pending.wires spared (h.serves.holds current ⟨at', has⟩)
    rcases run with run | ⟨error, run, -⟩
    · rw [run] at kept
      exact kept
    · rw [run] at kept
      exact kept

omit [DecidableEq Section] in
/-- A saved block that the current system named is restored. -/
theorem Sound.restore (h : self.Sound sectionOf (position :: pending)) {component left : WireComponent}
    {resource : ElectricalSystemResource F} {grants connectGrants : Grants} {commandBuffer : WorldCommandBuffer}
    {found : List WireComponent} (loaded : self.loaded (sectionOf position))
    (issued : self.issued position = self.resource.number) (known : self.stored position = some component)
    (added : (onEntityAdded grants connectGrants commandBuffer found (self.resource, component)).Leaves (resource, left)) :
    resource = self.resource ∧ (self.put position resource (some left)).Sound sectionOf pending := by
  obtain ⟨bare, named⟩ := h.saved position component known
  obtain ⟨handle, named⟩ := Option.isSome_iff_exists.mp named
  have carried : self.Carries sectionOf (position :: pending) position handle :=
    Or.inr ⟨Or.inr (List.mem_cons_self ..), issued, component, known, named⟩
  rw [onEntityAdded_restored h.serves ⟨position, carried⟩ bare named] at added
  obtain ⟨rfl, rfl⟩ := Prod.mk.inj (added.of_ok rfl)
  refine ⟨rfl, ?_⟩
  have block : ∀ at' there, Function.update self.blocks position
      (some { component with wire := some ⟨self.resource.number, handle⟩ }) at' = some there →
      at' = position ∧ there = { component with wire := some ⟨self.resource.number, handle⟩ } ∨
        self.blocks at' = some there := by
    intro at' there same
    by_cases here : at' = position
    · rw [here, Function.update_self] at same
      exact Or.inl ⟨here, (Option.some.inj same).symm⟩
    · exact Or.inr ((Function.update_of_ne here _ _).symm.trans same)
  have carries : ∀ at' handle', (self.put position self.resource
      (some { component with wire := some ⟨self.resource.number, handle⟩ })).Carries sectionOf pending at' handle' →
      self.Carries sectionOf (position :: pending) at' handle' := by
    rintro at' handle' (⟨there, same, has⟩ | ⟨outside, issued, has⟩)
    · rcases block at' there same with ⟨rfl, rfl⟩ | same
      · cases named.symm.trans has
        exact carried
      · exact Or.inl ⟨there, same, has⟩
    · exact Or.inr ⟨outside.imp_right (List.mem_cons_of_mem _), issued, has⟩
  refine h.shrink h.known carries (h.serves.mono fun handle ⟨at', has⟩ => ⟨at', carries at' handle has⟩) ?_ ?_ h.saved h.issued
  · intro at' there same
    rcases block at' there same with ⟨rfl, -⟩ | same
    · exact loaded
    · exact h.inside at' there same
  · intro at' there same
    rcases block at' there same with ⟨-, rfl⟩ | same
    · exact ⟨⟨self.resource.number, handle⟩, rfl, named, rfl⟩
    · exact h.whole at' there same

omit [DecidableEq Section] in
theorem Restores.sound {order : List Position} (restores : Restores self order next) (h : self.Sound sectionOf order)
    (loaded : ∀ position ∈ order, self.loaded (sectionOf position))
    (issued : ∀ position ∈ order, self.issued position = self.resource.number) : next.Sound sectionOf [] := by
  induction restores with
  | nil => exact h
  | cons known _ added _ ih =>
    obtain ⟨rfl, restored⟩ := h.restore (loaded _ (List.mem_cons_self ..)) (issued _ (List.mem_cons_self ..)) known added
    exact ih restored (fun other mem => loaded other (List.mem_cons_of_mem _ mem))
      fun other mem => issued other (List.mem_cons_of_mem _ mem)

omit [DecidableEq Section] in
theorem Sound.load (h : self.Sound sectionOf []) {s : Section} {order : List Position} (unloaded : ¬ self.loaded s)
    (all : ∀ position, position ∈ order ↔ sectionOf position = s ∧ (self.stored position).isSome = true)
    (issued : ∀ position ∈ order, self.issued position = self.resource.number)
    (restores : Restores { self with loaded := fun other => other = s ∨ self.loaded other } order next) :
    next.Sound sectionOf [] := by
  have carries : ∀ at' handle, Carries { self with loaded := fun other => other = s ∨ self.loaded other }
      sectionOf order at' handle → self.Carries sectionOf [] at' handle := by
    rintro at' handle (has | ⟨outside, issued, has⟩)
    · exact Or.inl has
    · refine Or.inr ⟨Or.inl ?_, issued, has⟩
      rcases outside with outside | waiting
      · exact fun loaded => outside (Or.inr loaded)
      · rw [((all at').mp waiting).1]
        exact unloaded
  refine restores.sound (h.shrink h.known carries (h.serves.mono fun handle ⟨at', has⟩ => ⟨at', carries at' handle has⟩)
    (fun at' component there => Or.inr (h.inside at' component there)) h.whole h.saved h.issued) ?_ issued
  exact fun at' mem => Or.inl ((all at').mp mem).1

/-! ### Runs -/

/-- Where a section is loaded, the ids of its saved blocks were given by the current system: the world has
not restarted since. -/
def Current (self : WireBlocks F Position Section) (sectionOf : Position → Section) : BlockEvent F Position Section → Prop
  | .load s => ∀ position, sectionOf position = s → (self.stored position).isSome = true →
    self.issued position = self.resource.number
  | _ => True

theorem Sound.step (h : self.Sound sectionOf []) {event : BlockEvent F Position Section}
    (current : self.Current sectionOf event) (step : Step sectionOf fromBits self event next) : next.Sound sectionOf [] := by
  cases step with
  | place loaded _ buffer added => exact h.place loaded buffer added
  | destroy there _ removed => exact h.destroy there removed
  | save s loaded => exact h.save loaded
  | unload s loaded => exact h.unload s
  | load s unloaded all _ restores =>
    exact h.load unloaded all (fun position mem => current position ((all position).mp mem).1 ((all position).mp mem).2)
      restores
  | restart => exact h.restart
  | register extends' reached => exact h.register extends' reached
  | operate operation there run spares => exact h.operate operation there run spares

theorem sound_run (known : definitions.Reached)
    (run : ReflTransGen (fun self next => ∃ event, self.Current sectionOf event ∧ Step sectionOf fromBits self event next)
      (new definitions) self) : self.Sound sectionOf [] := by
  induction run with
  | refl => exact sound_new known
  | tail _ step ih =>
    obtain ⟨event, current, step⟩ := step
    exact ih.step current step

/-- In a run that loads no section whose ids an earlier system gave, every loaded block always holds a
wire that the system accepts, and no two hold the same id. -/
theorem handles_valid (known : definitions.Reached)
    (run : ReflTransGen (fun self next => ∃ event, self.Current sectionOf event ∧ Step sectionOf fromBits self event next)
      (new definitions) self) : self.HandlesValid :=
  (sound_run known run).handlesValid

/-! ### A restart -/

section Restart

omit [F64 F]

/-- Memory for every call. -/
def granted : Grants := ⟨⟨true, true, true⟩, ⟨true, true, true⟩, true, true⟩

set_option maxRecDepth 8000 in
theorem append_new : ∃ commandBuffer after : WorldCommandBuffer,
    WorldCommandBuffer.new (BitVec.ofNat 32 WorldCommandBuffer.defaultCapacity) true = .ok () commandBuffer ∧
    WorldCommandBuffer.addWire true 1 commandBuffer = .ok () after := ⟨_, _, rfl, rfl⟩

set_option maxRecDepth 8000 in
theorem reserve_new : ∃ wireIds, WorldIdAllocator.reserve granted.first {} = .ok 1 wireIds ∧
    WorldIdAllocator.generation 1 wireIds = .ok 1 wireIds := ⟨_, rfl, rfl⟩

/-- The first wire of a system has the first id in its first generation. -/
theorem createWire_first (n : Nat) : ∃ (commandBuffer : WorldCommandBuffer) (after : ElectricalSystemResource F),
    NewBuffer commandBuffer ∧ after.number = n ∧
    createWire granted { number := n, system := some { commandBuffer } } = .ok ⟨n, ⟨1, 1⟩⟩ after := by
  obtain ⟨commandBuffer, appended, new, append⟩ := append_new
  obtain ⟨wireIds, reserve, generation⟩ := reserve_new
  have reads : ElectricalWorld.onWires (WorldIdAllocator.generation 1)
      ({ commandBuffer, wireIds } : ElectricalWorld F) = .ok 1 { commandBuffer, wireIds } :=
    ElectricalWorld.onWires_ok generation
  have appends : ElectricalWorld.onBuffer (WorldCommandBuffer.addWire granted.buffer 1)
      ({ commandBuffer, wireIds } : ElectricalWorld F) = .ok () { commandBuffer := appended, wireIds } :=
    ElectricalWorld.onBuffer_ok append
  have commands : ElectricalWorld.orRollBack (ElectricalWorld.onBuffer (WorldCommandBuffer.addWire granted.buffer 1))
      (ElectricalWorld.onWires (WorldIdAllocator.cancelPendingAdd granted.second 1 1))
      ({ commandBuffer, wireIds } : ElectricalWorld F) = .ok () { commandBuffer := appended, wireIds } := by
    unfold ElectricalWorld.orRollBack
    rw [appends]
  have adds : ElectricalWorld.addWire granted ({ commandBuffer } : ElectricalWorld F) =
      .ok 1 { commandBuffer := appended, wireIds } := by
    unfold ElectricalWorld.addWire
    rw [Call.bind_ok (ElectricalWorld.requireUsable_run rfl), Call.bind_ok (ElectricalWorld.onWires_ok reserve)]
    exact (Call.bind_ok reads).trans (Call.bind_ok commands)
  have asks : ElectricalWorld.wireGeneration 1 ({ commandBuffer := appended, wireIds } : ElectricalWorld F) =
      .ok 1 { commandBuffer := appended, wireIds } := by
    unfold ElectricalWorld.wireGeneration
    rw [Call.bind_ok (ElectricalWorld.requireUsable_run rfl)]
    exact ElectricalWorld.onWires_ok generation
  refine ⟨commandBuffer, { number := n, system := some { commandBuffer := appended, wireIds } }, ⟨true, new⟩, rfl, ?_⟩
  unfold createWire
  rw [Call.bind_ok (onWorld_ok rfl adds), Call.bind_ok (onWorld_same rfl asks), Call.rejectIf_bind_neg (by decide)]
  rfl

/-- The first block of a world. -/
theorem onEntityAdded_first (configId : String) :
    ∃ (commandBuffer : WorldCommandBuffer) (after : ElectricalSystemResource F), NewBuffer commandBuffer ∧ after.number = 0 ∧
      onEntityAdded granted granted commandBuffer [] ({}, { configId }) =
        .ok () (after, { configId, wireId := some ⟨1, 1⟩, wire := some ⟨0, ⟨1, 1⟩⟩ }) := by
  obtain ⟨commandBuffer, after, buffer, number, creates⟩ := @createWire_first F 0
  refine ⟨commandBuffer, after, buffer, number, ?_⟩
  have created : onResource (getOrCreate commandBuffer) (({}, { configId }) : ElectricalSystemResource F × WireComponent) =
      .ok 0 ({ system := some { commandBuffer } }, { configId }) := onResource_ok rfl
  unfold onEntityAdded
  rw [Call.get_bind]
  dsimp only
  rw [Call.rejectIf_bind_neg (by simp), Call.bind_ok created]
  exact (Call.bind_ok (onResource_ok creates)).trans rfl

/-- A new system refuses every id that is saved. -/
theorem onEntityAdded_restarted {commandBuffer : WorldCommandBuffer} {number : Nat} {component : WireComponent}
    {grants connectGrants : Grants} {found : List WireComponent} {handle : WireHandle} (bare : component.wire = none)
    (named : component.wireId = some handle) :
    onEntityAdded grants connectGrants commandBuffer found (({ number }, component) : ElectricalSystemResource F × WireComponent) =
      .err (.java .illegalState) ({ number, system := some { commandBuffer } }, component) := by
  have created : onResource (getOrCreate commandBuffer) (({ number }, component) : ElectricalSystemResource F × WireComponent) =
      .ok number ({ number, system := some { commandBuffer } }, component) := onResource_ok rfl
  have unknown : WorldIdAllocator.requireUsable handle.value handle.generation {} = .err .illegalState {} := by
    have outside : handle.value.toInt ≤ 0 ∨ ((({} : WorldIdAllocator).highWaterMark : Nat) : Int) < handle.value.toInt := by
      show handle.value.toInt ≤ 0 ∨ (0 : Int) < handle.value.toInt
      omega
    have unknown : WorldIdAllocator.requireKnownId handle.value {} = .err .illegalState {} :=
      Call.rejectIf_bind_pos outside _
    exact Call.bind_err (Call.bind_err unknown)
  have requires : ElectricalWorld.requireWire handle ({ commandBuffer } : ElectricalWorld F) =
      .err (.java .illegalState) { commandBuffer } := by
    unfold ElectricalWorld.requireWire
    rw [Call.bind_ok (ElectricalWorld.requireUsable_run rfl)]
    exact Call.zoom_err unknown
  have resolves : resolveWire handle ({ number, system := some { commandBuffer } } : ElectricalSystemResource F) =
      .err (.java .illegalState) { number, system := some { commandBuffer } } := by
    unfold resolveWire
    rw [Call.bind_err (onWorld_err rfl requires)]
  have refused : onResource (resolveWire handle)
      (({ number, system := some { commandBuffer } }, component) : ElectricalSystemResource F × WireComponent) =
      .err (.java .illegalState) ({ number, system := some { commandBuffer } }, component) := Call.zoom_err resolves
  unfold onEntityAdded
  rw [Call.get_bind]
  dsimp only
  rw [Call.rejectIf_bind_neg (by simp [bare]), Call.bind_ok created, named]
  dsimp only
  rw [Call.bind_err refused]

end Restart

/-- What a first block holds. -/
def firstBlock : WireComponent := { configId := "Copper", wireId := some ⟨1, 1⟩, wire := some ⟨0, ⟨1, 1⟩⟩ }

/-- A run that places one block. -/
theorem place_first : ∃ self : WireBlocks Float Nat Nat,
    ReflTransGen (fun self next => ∃ event, self.Current (· / 32) event ∧
      Step (· / 32) (fun bits => Float.ofBits ⟨bits⟩) self event next) (new .new) self ∧
    self.resource.number = 0 ∧ self.loaded 0 ∧ self.blocks = Function.update (fun _ => none) 5 (some firstBlock) ∧
    self.stored = (fun _ => none) ∧ self.issued 5 = self.resource.number := by
  obtain ⟨commandBuffer, after, buffer, number, added⟩ := @onEntityAdded_first Float "Copper"
  have opened : Step (· / 32) (fun bits => Float.ofBits ⟨bits⟩) (new .new : WireBlocks Float Nat Nat) (.load 0) _ :=
    .load 0 id (fun position => by simp [new]) List.nodup_nil .nil
  have placed := @Step.place _ _ _ _ _ _ (· / 32) (fun bits => Float.ofBits ⟨bits⟩)
    { (new .new : WireBlocks Float Nat Nat) with loaded := fun other => other = 0 ∨ False }
    5 "Copper" granted granted commandBuffer [] after firstBlock (Or.inl rfl) rfl buffer added
  refine ⟨_, .tail (.single ⟨_, ?_, opened⟩) ⟨.place 5, trivial, placed⟩, number, Or.inl rfl, rfl, rfl,
    show Function.update (fun _ : Nat => (0 : Nat)) 5 after.number 5 = after.number from Function.update_self ..⟩
  intro position _ there
  cases there

/-- One block is placed, saved and loaded again after a restart: the new system does not know its id. -/
theorem handles_valid_restart : ∃ self : WireBlocks Float Nat Nat,
    ReflTransGen (fun self next => ∃ event, Step (· / 32) (fun bits => Float.ofBits ⟨bits⟩) self event next)
      (new .new) self ∧ ¬ self.HandlesValid := by
  obtain ⟨self, run, number, loaded, blocks, stored, -⟩ := place_first
  obtain ⟨commandBuffer, -, buffer, -⟩ := @onEntityAdded_first Float "Copper"
  have run : ReflTransGen (fun self next => ∃ event,
      Step (· / 32) (fun bits => Float.ofBits ⟨bits⟩) self event next) (new .new) self :=
    ReflTransGen.mono (fun _ _ ⟨event, _, step⟩ => ⟨event, step⟩) _ _ run
  have written : ∀ position, (self.saved (· / 32) 0 position).isSome = true ↔ position = 5 := by
    intro position
    unfold saved
    rw [blocks, stored]
    by_cases here : position = 5
    · rw [here]
      simp
    · rw [Function.update_of_ne here]
      simp [here]
  have known : self.saved (· / 32) 0 5 = some firstBlock.cloneSerializable := by
    unfold saved
    rw [blocks, Function.update_self]
    rfl
  have restarted : Step (· / 32) (fun bits => Float.ofBits ⟨bits⟩) { self with stored := self.saved (· / 32) 0 } .restart _ :=
    .restart
  have restores : Restores { self with
      stored := self.saved (· / 32) 0, resource := { number := self.resource.number + 1 },
      loaded := fun other => other = 0 ∨ False, blocks := fun _ => none } [5] _ :=
    .cons known buffer (Or.inr ⟨_, @onEntityAdded_restarted Float commandBuffer _ _ granted granted [] ⟨1, 1⟩ rfl rfl⟩) .nil
  have reloaded : Step (· / 32) (fun bits => Float.ofBits ⟨bits⟩) { self with
      stored := self.saved (· / 32) 0, resource := { number := self.resource.number + 1 }, loaded := fun _ => False,
      blocks := fun _ => none } (.load 0) _ :=
    .load 0 id (fun position => ?_) (List.nodup_singleton 5) restores
  · refine ⟨_, ((run.tail ⟨_, .save 0 loaded⟩).tail ⟨_, restarted⟩).tail ⟨_, reloaded⟩, ?_⟩
    intro valid
    obtain ⟨wire, attached, -⟩ := valid.usable 5 firstBlock.cloneSerializable rfl
    cases attached
  · rw [List.mem_singleton, written position]
    omega

/-- A block is placed, its section is unloaded and loaded again: it has its wire back. -/
theorem handles_valid_reloaded : ∃ away self : WireBlocks Float Nat Nat,
    ReflTransGen (fun self next => ∃ event, self.Current (· / 32) event ∧
      Step (· / 32) (fun bits => Float.ofBits ⟨bits⟩) self event next) (new .new) away ∧
    away.blocks 5 = none ∧ (away.stored 5).isSome = true ∧ away.Current (· / 32) (.load 0) ∧
    Step (· / 32) (fun bits => Float.ofBits ⟨bits⟩) away (.load 0) self ∧
    self.blocks 5 = some firstBlock ∧ self.HandlesValid := by
  obtain ⟨start, run, number, loaded, blocks, stored, issued⟩ := place_first
  obtain ⟨commandBuffer, -, buffer, -⟩ := @onEntityAdded_first Float "Copper"
  have unloads : Step (· / 32) (fun bits => Float.ofBits ⟨bits⟩) start (.unload 0) _ := .unload 0 loaded
  generalize isAway : ({ start with
    loaded := fun other => other ≠ 0 ∧ start.loaded other
    blocks := fun position => if position / 32 = 0 then none else start.blocks position
    stored := ({ start with blocks := fun position => (start.blocks position).map onEntityUnload }).saved (· / 32) 0 } :
      WireBlocks Float Nat Nat) = away at unloads
  have run' := run.tail ⟨.unload 0, trivial, unloads⟩
  have kept : away.stored = fun position => if position = 5 then some { firstBlock with wire := none } else none := by
    rw [← isAway]
    funext position
    unfold saved
    rw [blocks, stored]
    dsimp only
    by_cases here : position = 5
    · rw [here, Function.update_self]
      rfl
    · rw [Function.update_of_ne here, if_neg here]
      simp
  have known : away.stored 5 = some { firstBlock with wire := none } := by
    rw [kept]
    rfl
  have given : away.issued 5 = away.resource.number := by
    rw [← isAway]
    exact issued
  have closed : ¬ away.loaded 0 := by
    rw [← isAway]
    exact fun wrong => wrong.1 rfl
  -- the unloaded block carries its id, so the system accepts it
  have carries : away.Carries (· / 32) [] 5 ⟨1, 1⟩ := Or.inr ⟨Or.inl closed, given, _, known, rfl⟩
  have sound : away.Sound (· / 32) [] := sound_run .new run'
  have resolves := @onEntityAdded_restored Float _ _ _ _ _ _ commandBuffer granted granted [] _ sound.serves
    ⟨5, carries⟩ (show ({ firstBlock with wire := none } : WireComponent).wire = none from rfl) rfl
  have restores : Restores ({ away with loaded := fun other => other = 0 ∨ away.loaded other } :
      WireBlocks Float Nat Nat) [5] _ :=
    .cons known buffer (Or.inl ⟨(), resolves⟩) .nil
  have current : away.Current (· / 32) (.load 0) := by
    intro position _ there
    by_cases here : position = 5
    · rw [here, given]
    · simp [kept, here] at there
  have loads : Step (· / 32) (fun bits => Float.ofBits ⟨bits⟩) away (.load 0) _ :=
    .load 0 closed (fun position => ?_) (List.nodup_singleton 5) restores
  · have isNumber : away.resource.number = 0 := by
      rw [← isAway]
      exact number
    refine ⟨away, _, run', ?_, by rw [known]; rfl, current, loads, ?_, handles_valid .new (run'.tail ⟨.load 0, current, loads⟩)⟩
    · rw [← isAway]
      rfl
    · show Function.update away.blocks 5 (some _) 5 = some firstBlock
      rw [Function.update_self, isNumber]
      rfl
  · rw [List.mem_singleton, kept]
    by_cases here : position = 5
    · simp [here]
    · simp [here]

end WireBlocks

end Hynergy.Core
