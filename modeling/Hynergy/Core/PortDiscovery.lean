import Hynergy.Core.PortRegistry

/-!
# Port discovery

Discovery walks the reach of one source port and calls the resolver of each port it meets there that
can reach back. Every rotation runs through one scratch vector.
-/

namespace Hynergy.Core

/-! ### Layouts and worlds -/

structure PortReach where
  offsets : List Vector3i
  nonempty : offsets ≠ []

structure PortDefinition (P : Type) where
  localId : Nat
  anchor : Vector3i
  reach : PortReach
  standard : PortStandard
  profile : P

structure BlockPortDefinition (P : Type) where
  ports : List (PortDefinition P)
  unique : (ports.map PortDefinition.localId).Nodup

def BlockPortDefinition.port {P : Type} (self : BlockPortDefinition P) (localId : Int) : Option (PortDefinition P) :=
  self.ports.find? fun port => decide ((port.localId : Int) = localId)

theorem BlockPortDefinition.port_of_mem {P : Type} {layout : BlockPortDefinition P} {port : PortDefinition P}
    (member : port ∈ layout.ports) : layout.port port.localId = some port := by
  unfold BlockPortDefinition.port
  obtain ⟨other, found⟩ : ∃ other, layout.ports.find? (fun p => decide ((p.localId : Int) = port.localId)) = some other := by
    rw [← Option.isSome_iff_exists, List.find?_isSome]
    exact ⟨port, member, by simp⟩
  have same : other.localId = port.localId := by
    have := List.find?_some found
    simpa using this
  rw [found, List.inj_on_of_nodup_map layout.unique (List.mem_of_find?_eq_some found) member same]

structure PortWorldView (P T : Type) where
  portsAt : Vector3i → Option (BlockPortDefinition P)
  rotation : Vector3i → T

/-- The port is one of the position's layout. -/
def PortWorldView.HasPort {P T : Type} (world : PortWorldView P T) (position : Vector3i) (port : PortDefinition P) : Prop :=
  ∃ layout, world.portsAt position = some layout ∧ port ∈ layout.ports

/-! ### Discovery -/

/-- One call of a rule's resolver for a target port, and the order flag that goes with its result. -/
structure ResolverCall (P R T : Type) where
  target : Vector3i
  localId : Nat
  rule : Rule P R T
  firstProfile : P
  secondProfile : P
  geometry : PortGeometry T
  sourceIsFirst : Bool

/-- What the consumer accepts. -/
structure PortConnection (R : Type) where
  target : Vector3i
  localId : Nat
  resolution : R
  sourceIsFirst : Bool

/-- The resolver's result, unless it is `null`. -/
def ResolverCall.connection {P R T : Type} (call : ResolverCall P R T) : Option (PortConnection R) :=
  (call.rule.resolver call.firstProfile call.secondProfile call.geometry).map fun resolution =>
    ⟨call.target, call.localId, resolution, call.sourceIsFirst⟩

def ResolverCall.isFor {P R T : Type} (call : ResolverCall P R T) (target : Vector3i) (localId : Nat) : Bool :=
  decide (call.target = target) && decide (call.localId = localId)

/-- The same resolver call in discovery from the other port. -/
def ResolverCall.mirrored {P R T : Type} (call : ResolverCall P R T) (target : Vector3i) (localId : Nat) : ResolverCall P R T :=
  if call.rule.first = call.rule.second then
    ⟨target, localId, call.rule, call.secondProfile, call.firstProfile,
      ⟨-call.geometry.owner, -call.geometry.anchor, call.geometry.secondRotation, call.geometry.firstRotation⟩,
      call.sourceIsFirst⟩
  else { call with target, localId, sourceIsFirst := !call.sourceIsFirst }

/-- The thread's scratch, the resolver calls made so far and what the consumer accepted. -/
structure Scratch (P R T : Type) where
  rotationScratch : Vector3i
  inUse : Bool := false
  calls : List (ResolverCall P R T) := []
  output : List (PortConnection R) := []

/-- The fields `discover` assigns before its loop. -/
structure Source (P T : Type) where
  position : Vector3i
  port : PortDefinition P
  profile : P
  rotation : T
  anchor : Vector3i

namespace PortDiscovery

variable {P R T : Type}

abbrev ScratchCall (P R T α : Type) := Call (Scratch P R T) PortException α

section

-- `RotationTuple.applyRotationTo`, in place
variable (applyRotationTo : T → Vector3i → Vector3i)

/-- The arguments in the order of the rule, and the order flag. -/
def resolverCall (source : Source P T) (target : Vector3i) (targetRotation : T) (owner anchor : Vector3i)
    (targetPort : PortDefinition P) (side : RuleSide P R T) : ResolverCall P R T :=
  if side.sourceIsFirst = true then
    ⟨target, targetPort.localId, side.rule, source.profile, targetPort.profile,
      ⟨owner, anchor, source.rotation, targetRotation⟩, true⟩
  else
    ⟨target, targetPort.localId, side.rule, targetPort.profile, source.profile,
      ⟨-owner, -anchor, targetRotation, source.rotation⟩, false⟩

/-- `rotationScratch.set(offset); rotation.applyRotationTo(rotationScratch)`. -/
def rotate (rotation : T) (offset : Vector3i) : ScratchCall P R T Vector3i := do
  Call.modify fun self => { self with rotationScratch := offset }
  Call.modify fun self => { self with rotationScratch := applyRotationTo rotation self.rotationScratch }
  return (← Call.get).rotationScratch

def targetCanReachSource (targetRotation : T) (sourceToTarget : Vector3i) : List Vector3i → ScratchCall P R T Bool
  | [] => return false
  | offset :: rest => do
    let rotated ← rotate applyRotationTo targetRotation offset
    if rotated.x = -sourceToTarget.x ∧ rotated.y = -sourceToTarget.y ∧ rotated.z = -sourceToTarget.z then return true
    else targetCanReachSource targetRotation sourceToTarget rest

def resolveTarget (source : Source P T) (target : Vector3i) (targetRotation : T) (owner : Vector3i)
    (targetPort : PortDefinition P) (side : RuleSide P R T) : ScratchCall P R T Unit := do
  let rotated ← rotate applyRotationTo targetRotation targetPort.anchor
  let call := resolverCall source target targetRotation owner (owner + rotated - source.anchor) targetPort side
  Call.modify fun self =>
    { self with calls := self.calls ++ [call], output := self.output ++ call.connection.toList }

def visitTarget (registry : PortRegistry P R T) (source : Source P T) (target : Vector3i) (targetRotation : T)
    (worldOwner : Vector3i) (targetPort : PortDefinition P) : ScratchCall P R T Unit := do
  let side ← Call.ofExcept id (registry.ruleSide source.port.standard targetPort.standard)
  match side with
  | none => return ()
  | some side =>
    let reaches ← targetCanReachSource applyRotationTo targetRotation worldOwner targetPort.reach.offsets
    if reaches = true then resolveTarget applyRotationTo source target targetRotation worldOwner targetPort side
    else return ()

def visitCandidate (registry : PortRegistry P R T) (world : PortWorldView P T) (source : Source P T) (offset : Vector3i) :
    ScratchCall P R T Unit := do
  let worldOwner ← rotate applyRotationTo source.rotation offset
  let target := source.position + worldOwner
  match world.portsAt target with
  | none => return ()
  | some layout =>
    layout.ports.forM (visitTarget applyRotationTo registry source target (world.rotation target) worldOwner)

/-- The `try` block. -/
def discoverBody (registry : PortRegistry P R T) (world : PortWorldView P T) (position : Vector3i) (sourcePortId : Int)
    (domain : PortDomain) : ScratchCall P R T Unit :=
  match (world.portsAt position).bind fun layout => layout.port sourcePortId with
  | none => return ()
  | some sourcePort => do
    Call.rejectIf (sourcePort.standard.domain ≠ domain) .illegalArgument
    let rotation := world.rotation position
    let anchor ← rotate applyRotationTo rotation sourcePort.anchor
    let source : Source P T := ⟨position, sourcePort, sourcePort.profile, rotation, anchor⟩
    sourcePort.reach.offsets.forM (visitCandidate applyRotationTo registry world source)

def discover (registry : PortRegistry P R T) (world : PortWorldView P T) (position : Vector3i) (sourcePortId : Int)
    (domain : PortDomain) : ScratchCall P R T Unit := do
  let self ← Call.get
  Call.rejectIf (self.inUse = true) .illegalState
  Call.modify fun self => { self with inUse := true }
  -- `finally`
  Call.zoom id (fun _ after => { after with inUse := false }) id
    (discoverBody applyRotationTo registry world position sourcePortId domain)

end

/-! ### What a discovery does -/

/-- The call returns, having made these resolver calls and handed their results to the consumer. -/
def Makes (call : ScratchCall P R T Unit) (calls : List (ResolverCall P R T)) : Prop :=
  ∀ self, ∃ after, call self = .ok () after ∧ after.inUse = self.inUse ∧ after.calls = self.calls ++ calls ∧
    after.output = self.output ++ calls.filterMap ResolverCall.connection

theorem makes_nothing : Makes (pure () : ScratchCall P R T Unit) [] :=
  fun self => ⟨self, rfl, rfl, (List.append_nil _).symm, (List.append_nil _).symm⟩

theorem Makes.bind {call next : ScratchCall P R T Unit} {calls calls' : List (ResolverCall P R T)} (first : Makes call calls)
    (second : Makes next calls') : Makes (call >>= fun _ => next) (calls ++ calls') := by
  intro self
  obtain ⟨mid, run, used, called, accepted⟩ := first self
  obtain ⟨after, run', used', called', accepted'⟩ := second mid
  refine ⟨after, (Call.bind_ok run).trans run', used'.trans used, ?_, ?_⟩
  · rw [called', called, List.append_assoc]
  · rw [accepted', accepted, List.filterMap_append, List.append_assoc]

theorem makes_forM {α : Type} {body : α → ScratchCall P R T Unit} {calls : α → List (ResolverCall P R T)}
    (each : ∀ item, Makes (body item) (calls item)) : ∀ items : List α, Makes (items.forM body) (items.flatMap calls)
  | [] => makes_nothing
  | item :: rest => (each item).bind (makes_forM each rest)

section

variable {applyRotationTo : T → Vector3i → Vector3i}

/-- A rotation overwrites the scratch vector and nothing else. -/
theorem Makes.rotate {rotation : T} {offset : Vector3i} {next : Vector3i → ScratchCall P R T Unit}
    {calls : List (ResolverCall P R T)} (rest : Makes (next (applyRotationTo rotation offset)) calls) :
    Makes (PortDiscovery.rotate applyRotationTo rotation offset >>= next) calls := by
  intro self
  exact rest { self with rotationScratch := applyRotationTo rotation offset }

theorem Makes.targetCanReachSource {targetRotation : T} {sourceToTarget : Vector3i}
    {next : Bool → ScratchCall P R T Unit} {calls : List (ResolverCall P R T)} (offsets : List Vector3i)
    (rest : Makes (next (offsets.any fun offset => decide (applyRotationTo targetRotation offset = -sourceToTarget))) calls) :
    Makes (PortDiscovery.targetCanReachSource applyRotationTo targetRotation sourceToTarget offsets >>= next) calls := by
  induction offsets with
  | nil => exact rest
  | cons offset offsets ih =>
    intro self
    rw [PortDiscovery.targetCanReachSource, Call.bind_bind]
    refine (show Makes _ calls from Makes.rotate ?_) self
    rw [List.any_cons] at rest
    by_cases here : applyRotationTo targetRotation offset = -sourceToTarget
    · rw [if_pos (by rw [here]; exact ⟨rfl, rfl, rfl⟩)]
      rw [decide_eq_true here, Bool.true_or] at rest
      exact rest
    · rw [if_neg (fun both => here (Vector3i.ext both.1 both.2.1 both.2.2))]
      rw [decide_eq_false here, Bool.false_or] at rest
      exact ih rest

variable {registry : PortRegistry P R T} {world : PortWorldView P T}

variable (applyRotationTo registry world)

/-- The resolver calls for one port of a candidate block. -/
def targetCalls (source : Source P T) (target : Vector3i) (owner : Vector3i) (targetPort : PortDefinition P) :
    List (ResolverCall P R T) :=
  match PortRegistry.sideOf registry.ruleSidesByPair source.port.standard targetPort.standard with
  | none => []
  | some side =>
    if targetPort.reach.offsets.any fun offset => decide (applyRotationTo (world.rotation target) offset = -owner) then
      [resolverCall source target (world.rotation target) owner
        (owner + applyRotationTo (world.rotation target) targetPort.anchor - source.anchor) targetPort side]
    else []

def candidateCalls (source : Source P T) (offset : Vector3i) : List (ResolverCall P R T) :=
  let owner := applyRotationTo source.rotation offset
  match world.portsAt (source.position + owner) with
  | none => []
  | some layout => layout.ports.flatMap (targetCalls applyRotationTo registry world source (source.position + owner) owner)

def sourceOf (position : Vector3i) (port : PortDefinition P) : Source P T :=
  ⟨position, port, port.profile, world.rotation position, applyRotationTo (world.rotation position) port.anchor⟩

/-- All resolver calls of a discovery from the port. -/
def discoveryCalls (position : Vector3i) (port : PortDefinition P) : List (ResolverCall P R T) :=
  port.reach.offsets.flatMap (candidateCalls applyRotationTo registry world (sourceOf applyRotationTo world position port))

variable {applyRotationTo registry world}

theorem visitTarget_makes (frozen : registry.frozen = true) (source : Source P T) (target owner : Vector3i)
    (targetPort : PortDefinition P) :
    Makes (visitTarget applyRotationTo registry source target (world.rotation target) owner targetPort)
      (targetCalls applyRotationTo registry world source target owner targetPort) := by
  have read : registry.ruleSide source.port.standard targetPort.standard =
      .ok (PortRegistry.sideOf registry.ruleSidesByPair source.port.standard targetPort.standard) := by
    rw [PortRegistry.ruleSide, if_neg (by simp [frozen])]
  unfold visitTarget targetCalls
  rw [read]
  intro self
  rw [Call.ofExcept_ok_bind]
  cases PortRegistry.sideOf registry.ruleSidesByPair source.port.standard targetPort.standard with
  | none => exact makes_nothing self
  | some side =>
    refine Makes.targetCanReachSource targetPort.reach.offsets ?_ self
    split
    · refine Makes.rotate fun self => ⟨_, rfl, rfl, rfl, ?_⟩
      rw [List.filterMap_cons]
      cases (resolverCall source target (world.rotation target) owner
        (owner + applyRotationTo (world.rotation target) targetPort.anchor - source.anchor) targetPort side).connection <;> rfl
    · exact makes_nothing

theorem visitCandidate_makes (frozen : registry.frozen = true) (source : Source P T) (offset : Vector3i) :
    Makes (visitCandidate applyRotationTo registry world source offset)
      (candidateCalls applyRotationTo registry world source offset) := by
  unfold visitCandidate
  refine Makes.rotate ?_
  unfold candidateCalls
  dsimp only
  cases world.portsAt (source.position + applyRotationTo source.rotation offset) with
  | none => exact makes_nothing
  | some layout => exact makes_forM (fun port => visitTarget_makes frozen source _ _ port) layout.ports

variable (applyRotationTo registry world)

/-- Discovery from the port, in its own domain and with the scratch free, makes these resolver calls,
hands their results to the consumer and frees the scratch. -/
def Discovers (position : Vector3i) (port : PortDefinition P) (calls : List (ResolverCall P R T)) : Prop :=
  ∀ self : Scratch P R T, self.inUse = false →
    ∃ after, discover applyRotationTo registry world position port.localId port.standard.domain self = .ok () after ∧
      after.inUse = false ∧ after.calls = self.calls ++ calls ∧
      after.output = self.output ++ calls.filterMap ResolverCall.connection

variable {applyRotationTo registry world}

theorem discover_makes (frozen : registry.frozen = true) {position : Vector3i} {port : PortDefinition P}
    (here : world.HasPort position port) :
    Discovers applyRotationTo registry world position port (discoveryCalls applyRotationTo registry world position port) := by
  intro self free
  obtain ⟨layout, at', member⟩ := here
  have body : Makes (discoverBody applyRotationTo registry world position port.localId port.standard.domain)
      (discoveryCalls applyRotationTo registry world position port) := by
    unfold discoverBody
    rw [at', Option.bind_some, BlockPortDefinition.port_of_mem member]
    intro self
    dsimp only
    rw [Call.rejectIf_bind_neg (by simp)]
    exact Makes.rotate (makes_forM (visitCandidate_makes frozen _) port.reach.offsets) self
  obtain ⟨after, run, -, called, accepted⟩ := body { self with inUse := true }
  refine ⟨{ after with inUse := false }, ?_, rfl, called, accepted⟩
  show (Call.get >>= _) self = _
  rw [Call.get_bind, Call.rejectIf_bind_neg (by simp [free]), Call.modify_bind]
  exact Call.zoom_ok run

/-! ### Calls for one target port -/

variable (applyRotationTo world)

/-- Some offset of the port's reach, rotated, leads from its block to the other. -/
def Reaches (position : Vector3i) (port : PortDefinition P) (other : Vector3i) : Prop :=
  ∃ offset ∈ port.reach.offsets, applyRotationTo (world.rotation position) offset = other - position

/-- How many do. -/
def reachCount (position : Vector3i) (port : PortDefinition P) (other : Vector3i) : Nat :=
  port.reach.offsets.countP fun offset => decide (applyRotationTo (world.rotation position) offset = other - position)

/-- The second port seen from the first. -/
def portGeometry (position : Vector3i) (port : PortDefinition P) (position' : Vector3i) (port' : PortDefinition P) :
    PortGeometry T :=
  ⟨position' - position,
    position' - position + applyRotationTo (world.rotation position') port'.anchor -
      applyRotationTo (world.rotation position) port.anchor,
    world.rotation position, world.rotation position'⟩

/-- The resolver call for a target port, by which of the two ports has the rule's first standard. -/
def registeredCall (position : Vector3i) (port : PortDefinition P) (target : Vector3i) (targetPort : PortDefinition P)
    (side : RuleSide P R T) : ResolverCall P R T :=
  if side.sourceIsFirst = true then
    ⟨target, targetPort.localId, side.rule, port.profile, targetPort.profile,
      portGeometry applyRotationTo world position port target targetPort, true⟩
  else
    ⟨target, targetPort.localId, side.rule, targetPort.profile, port.profile,
      portGeometry applyRotationTo world target targetPort position port, false⟩

variable {applyRotationTo world}

theorem reachCount_pos {position other : Vector3i} {port : PortDefinition P} :
    0 < reachCount applyRotationTo world position port other ↔ Reaches applyRotationTo world position port other := by
  simp only [reachCount, Reaches, List.countP_pos_iff, decide_eq_true_eq]

theorem isFor_iff {call : ResolverCall P R T} {target : Vector3i} {localId : Nat} :
    call.isFor target localId = true ↔ call.target = target ∧ call.localId = localId := by
  simp [ResolverCall.isFor]

theorem resolverCall_target {source : Source P T} {target owner anchor : Vector3i} {targetRotation : T}
    {targetPort : PortDefinition P} {side : RuleSide P R T} :
    (resolverCall source target targetRotation owner anchor targetPort side).target = target ∧
      (resolverCall source target targetRotation owner anchor targetPort side).localId = targetPort.localId := by
  unfold resolverCall
  split <;> exact ⟨rfl, rfl⟩

theorem targetCalls_for {source : Source P T} {target owner : Vector3i} {targetPort : PortDefinition P}
    {call : ResolverCall P R T} (member : call ∈ targetCalls applyRotationTo registry world source target owner targetPort) :
    call.target = target ∧ call.localId = targetPort.localId := by
  unfold targetCalls at member
  split at member
  · cases member
  · split at member
    · rw [List.mem_singleton.mp member]
      exact resolverCall_target
    · cases member

/-- Among the ports of one layout, local ids tell the calls apart. -/
theorem filter_ports {source : Source P T} {target owner : Vector3i} {targetPort : PortDefinition P} :
    ∀ ports : List (PortDefinition P), (ports.map PortDefinition.localId).Nodup → targetPort ∈ ports →
      (ports.flatMap (targetCalls applyRotationTo registry world source target owner)).filter
          (fun call => call.isFor target targetPort.localId) =
        targetCalls applyRotationTo registry world source target owner targetPort
  | [], _, member => by cases member
  | port :: ports, unique, member => by
    rw [List.map_cons, List.nodup_cons] at unique
    rw [List.flatMap_cons, List.filter_append]
    by_cases here : targetPort = port
    · subst here
      rw [List.filter_eq_self.mpr fun call member => isFor_iff.mpr (targetCalls_for member), List.filter_eq_nil_iff.mpr,
        List.append_nil]
      intro call member same
      obtain ⟨other, inside, made⟩ := List.mem_flatMap.mp member
      refine unique.1 (List.mem_map.mpr ⟨other, inside, ?_⟩)
      rw [← (targetCalls_for made).2, (isFor_iff.mp same).2]
    · have rest : targetPort ∈ ports := (List.mem_cons.mp member).resolve_left here
      rw [List.filter_eq_nil_iff.mpr, List.nil_append]
      · exact filter_ports ports unique.2 rest
      · intro call member same
        refine unique.1 (List.mem_map.mpr ⟨targetPort, rest, ?_⟩)
        rw [← (isFor_iff.mp same).2, (targetCalls_for member).2]

theorem candidateCalls_for {source : Source P T} {offset : Vector3i} {call : ResolverCall P R T}
    (member : call ∈ candidateCalls applyRotationTo registry world source offset) :
    call.target = source.position + applyRotationTo source.rotation offset ∧
      ∃ port, world.HasPort call.target port ∧ port.localId = call.localId := by
  unfold candidateCalls at member
  dsimp only at member
  split at member
  · cases member
  · rename_i layout found
    obtain ⟨port, inside, made⟩ := List.mem_flatMap.mp member
    obtain ⟨target, localId⟩ := targetCalls_for made
    exact ⟨target, port, ⟨layout, by rw [target]; exact found, inside⟩, localId.symm⟩

theorem filter_candidate {source : Source P T} {target : Vector3i} {targetPort : PortDefinition P}
    (there : world.HasPort target targetPort) (offset : Vector3i) :
    (candidateCalls applyRotationTo registry world source offset).filter (fun call => call.isFor target targetPort.localId) =
      if decide (applyRotationTo source.rotation offset = target - source.position) = true then
        targetCalls applyRotationTo registry world source target (target - source.position) targetPort
      else [] := by
  by_cases leads : applyRotationTo source.rotation offset = target - source.position
  · obtain ⟨layout, found, inside⟩ := there
    have arrives : source.position + (target - source.position) = target := Vector3i.add_sub_self
    rw [if_pos (decide_eq_true leads), candidateCalls, leads, arrives, found]
    exact filter_ports layout.ports layout.unique inside
  · rw [if_neg (fun same => leads (of_decide_eq_true same)), List.filter_eq_nil_iff]
    intro call member same
    have target' := (candidateCalls_for member).1
    rw [(isFor_iff.mp same).1] at target'
    exact leads (Vector3i.add_eq_iff.mp target'.symm)

theorem flatMap_ite {α β : Type} (p : α → Bool) (list : List β) (items : List α) :
    (items.flatMap fun item => if p item = true then list else []) = (List.replicate (items.countP p) list).flatten := by
  induction items with
  | nil => rfl
  | cons item items ih =>
    rw [List.flatMap_cons, ih, List.countP_cons]
    by_cases here : p item = true
    · rw [if_pos here, if_pos here, List.replicate_succ, List.flatten_cons]
    · rw [if_neg here, if_neg here, List.nil_append, Nat.add_zero]

theorem filter_discoveryCalls {position target : Vector3i} {port targetPort : PortDefinition P}
    (there : world.HasPort target targetPort) :
    (discoveryCalls applyRotationTo registry world position port).filter (fun call => call.isFor target targetPort.localId) =
      (List.replicate (reachCount applyRotationTo world position port target)
        (targetCalls applyRotationTo registry world (sourceOf applyRotationTo world position port) target
          (target - position) targetPort)).flatten := by
  rw [discoveryCalls, List.filter_flatMap, reachCount, ← flatMap_ite]
  exact congrArg (fun f => List.flatMap f _) (funext fun offset => filter_candidate there offset)

theorem reaches_any {position other : Vector3i} {port : PortDefinition P} :
    (port.reach.offsets.any fun offset => decide (applyRotationTo (world.rotation position) offset = -(position - other))) = true ↔
      Reaches applyRotationTo world position port other := by
  simp only [List.any_eq_true, decide_eq_true_eq, Vector3i.neg_sub, Reaches]

theorem resolverCall_eq {position target : Vector3i} {port targetPort : PortDefinition P} {side : RuleSide P R T} :
    resolverCall (sourceOf applyRotationTo world position port) target (world.rotation target) (target - position)
        (target - position + applyRotationTo (world.rotation target) targetPort.anchor -
          (sourceOf applyRotationTo world position port).anchor) targetPort side =
      registeredCall applyRotationTo world position port target targetPort side := by
  unfold resolverCall registeredCall portGeometry sourceOf
  rw [Vector3i.neg_add_sub, Vector3i.neg_sub]

section Frozen

variable {position target : Vector3i} {port targetPort : PortDefinition P}

theorem calls_of_rule (sound : registry.Sound) (frozen : registry.frozen = true) (there : world.HasPort target targetPort)
    {side : RuleSide P R T} (holds : ∃ entry ∈ registry.rules, entry.2 = side.rule)
    (faces : side.Faces port.standard targetPort.standard)
    (reaches : Reaches applyRotationTo world target targetPort position) :
    (discoveryCalls applyRotationTo registry world position port).filter (fun call => call.isFor target targetPort.localId) =
      List.replicate (reachCount applyRotationTo world position port target)
        (registeredCall applyRotationTo world position port target targetPort side) := by
  have found : PortRegistry.sideOf registry.ruleSidesByPair port.standard targetPort.standard = some side := by
    rw [sound.compiled frozen]
    exact (PortRegistry.sideOf_compileRuleSides _ _ side _ sound.apart).mpr ⟨holds, faces⟩
  rw [filter_discoveryCalls there, targetCalls]
  dsimp only [sourceOf] at found ⊢
  rw [found]
  dsimp only
  rw [if_pos (reaches_any.mpr reaches)]
  exact (congrArg (fun call => (List.replicate _ [call]).flatten) resolverCall_eq).trans (List.flatten_replicate_singleton ..)

theorem no_calls (sound : registry.Sound) (frozen : registry.frozen = true) (there : world.HasPort target targetPort)
    (not : ¬ ((∃ entry ∈ registry.rules, entry.2.Between port.standard targetPort.standard) ∧
      Reaches applyRotationTo world target targetPort position)) :
    (discoveryCalls applyRotationTo registry world position port).filter (fun call => call.isFor target targetPort.localId) = [] := by
  have none' : targetCalls applyRotationTo registry world (sourceOf applyRotationTo world position port) target
      (target - position) targetPort = [] := by
    unfold targetCalls
    cases found : PortRegistry.sideOf registry.ruleSidesByPair (sourceOf applyRotationTo world position port).port.standard
        targetPort.standard with
    | none => rfl
    | some side =>
      rw [sound.compiled frozen] at found
      obtain ⟨⟨entry, member, same⟩, faces⟩ := (PortRegistry.sideOf_compileRuleSides _ _ side _ sound.apart).mp found
      have ruled : ∃ entry ∈ registry.rules, entry.2.Between port.standard targetPort.standard :=
        ⟨entry, member, same ▸ faces.between⟩
      dsimp only
      rw [if_neg (fun reaches => not ⟨ruled, reaches_any.mp reaches⟩)]
  rw [filter_discoveryCalls there, none']
  simp

end Frozen

/-! ### Discovery from either side -/

variable {position target : Vector3i} {port targetPort : PortDefinition P}

theorem registeredCall_mirrored {rule : Rule P R T} {flag : Bool} (own : rule.first = rule.second → flag = true) :
    registeredCall applyRotationTo world target targetPort position port
        ⟨rule, if rule.first = rule.second then flag else !flag⟩ =
      (registeredCall applyRotationTo world position port target targetPort ⟨rule, flag⟩).mirrored position port.localId := by
  by_cases same : rule.first = rule.second
  · obtain rfl := own same
    rw [if_pos same]
    simp only [registeredCall, if_true, ResolverCall.mirrored, same, portGeometry]
    rw [Vector3i.neg_add_sub, Vector3i.neg_sub]
  · rw [if_neg same]
    cases flag <;> simp [registeredCall, ResolverCall.mirrored, same]

/-! ### Conductors -/

inductive ElectricalPortConnection where
  | direct
  deriving DecidableEq

/-- An outward cardinal unit vector. -/
structure ElectricalPortProfile where
  normal : Vector3i
  cardinal : normal.x.toInt.natAbs + normal.y.toInt.natAbs + normal.z.toInt.natAbs = 1

variable (applyRotationTo) in
def resolveConductorConnection (first second : ElectricalPortProfile) (geometry : PortGeometry T) :
    Option ElectricalPortConnection :=
  let firstNormal := applyRotationTo geometry.firstRotation first.normal
  if geometry.owner ≠ firstNormal ∨ geometry.anchor ≠ firstNormal then none else
  let secondNormal := applyRotationTo geometry.secondRotation second.normal
  if secondNormal ≠ -firstNormal then none else some .direct

/-- The normals face each other across the owner and the anchor distance. -/
theorem resolveConductorConnection_isSome {first second : ElectricalPortProfile} {geometry : PortGeometry T} :
    (resolveConductorConnection applyRotationTo first second geometry).isSome = true ↔
      geometry.owner = applyRotationTo geometry.firstRotation first.normal ∧
        geometry.anchor = applyRotationTo geometry.firstRotation first.normal ∧
        applyRotationTo geometry.secondRotation second.normal = -applyRotationTo geometry.firstRotation first.normal := by
  unfold resolveConductorConnection
  dsimp only
  split
  · rename_i differ
    exact ⟨nofun, fun ⟨owner, anchor, _⟩ => absurd differ (by simp [owner, anchor])⟩
  · rename_i same
    obtain ⟨owner, anchor⟩ := not_or.mp same
    split
    · rename_i differ
      exact ⟨nofun, fun ⟨_, _, facing⟩ => absurd facing differ⟩
    · rename_i facing
      exact ⟨fun _ => ⟨not_not.mp owner, not_not.mp anchor, not_not.mp facing⟩, fun _ => rfl⟩

theorem resolveConductorConnection_mirrored {first second : ElectricalPortProfile} {owner anchor : Vector3i}
    {firstRotation secondRotation : T}
    (connects : (resolveConductorConnection applyRotationTo first second
      ⟨owner, anchor, firstRotation, secondRotation⟩).isSome = true) :
    (resolveConductorConnection applyRotationTo second first
      ⟨-owner, -anchor, secondRotation, firstRotation⟩).isSome = true := by
  obtain ⟨isOwner, isAnchor, facing⟩ := resolveConductorConnection_isSome.mp connects
  dsimp only at isOwner isAnchor facing
  refine resolveConductorConnection_isSome.mpr ⟨?_, ?_, ?_⟩ <;> dsimp only
  · rw [facing, isOwner]
  · rw [facing, isAnchor]
  · rw [facing, Vector3i.neg_neg]

variable (applyRotationTo) in
/-- The rule's resolver is `resolveConductorConnection`, on profiles that are electrical. -/
def Conducts (upcast : ElectricalPortProfile → P) (result : ElectricalPortConnection → R) (rule : Rule P R T) : Prop :=
  ∀ first second geometry, rule.resolver (upcast first) (upcast second) geometry =
    (resolveConductorConnection applyRotationTo first second geometry).map result

variable (registry) in
def Holds (rule : Rule P R T) : Prop := ∃ entry ∈ registry.rules, entry.2 = rule

/-- Among the results is one for the port. -/
def Finds (calls : List (ResolverCall P R T)) (target : Vector3i) (localId : Nat) : Prop :=
  ∃ connection ∈ calls.filterMap ResolverCall.connection, connection.target = target ∧ connection.localId = localId

theorem finds_iff {calls : List (ResolverCall P R T)} {target : Vector3i} {localId : Nat} :
    Finds calls target localId ↔ ∃ call ∈ calls.filter (fun call => call.isFor target localId),
      (call.rule.resolver call.firstProfile call.secondProfile call.geometry).isSome = true := by
  constructor
  · rintro ⟨connection, member, isTarget, isLocal⟩
    obtain ⟨call, made, result⟩ := List.mem_filterMap.mp member
    obtain ⟨resolution, resolved, rfl⟩ := Option.map_eq_some_iff.mp result
    exact ⟨call, List.mem_filter.mpr ⟨made, isFor_iff.mpr ⟨isTarget, isLocal⟩⟩, by rw [resolved]; rfl⟩
  · rintro ⟨call, member, resolved⟩
    obtain ⟨made, isFor⟩ := List.mem_filter.mp member
    obtain ⟨resolution, resolved⟩ := Option.isSome_iff_exists.mp resolved
    refine ⟨_, List.mem_filterMap.mpr ⟨call, made, Option.map_eq_some_iff.mpr ⟨resolution, resolved, rfl⟩⟩, isFor_iff.mp isFor⟩

/-- What a discovery that calls the resolver for the port says about the other. -/
theorem call_mirrored (sound : registry.Sound) (frozen : registry.frozen = true) (here : world.HasPort position port)
    (there : world.HasPort target targetPort) {call : ResolverCall P R T}
    (member : call ∈ (discoveryCalls applyRotationTo registry world position port).filter
      (fun call => call.isFor target targetPort.localId)) :
    ∃ rule flag, Holds registry rule ∧ rule.Between port.standard targetPort.standard ∧
      call = registeredCall applyRotationTo world position port target targetPort ⟨rule, flag⟩ ∧
      ∃ count, 0 < count ∧ (discoveryCalls applyRotationTo registry world target targetPort).filter
          (fun call => call.isFor position port.localId) = List.replicate count (call.mirrored position port.localId) := by
  by_cases both : (∃ entry ∈ registry.rules, entry.2.Between port.standard targetPort.standard) ∧
      Reaches applyRotationTo world target targetPort position
  · obtain ⟨⟨entry, held, between⟩, back⟩ := both
    obtain ⟨flag, faces, other, own⟩ := between.sides
    rw [calls_of_rule sound frozen there ⟨entry, held, rfl⟩ faces back] at member
    obtain ⟨some', rfl⟩ := List.mem_replicate.mp member
    have reaches : Reaches applyRotationTo world position port target :=
      reachCount_pos.mp (Nat.pos_of_ne_zero some')
    refine ⟨entry.2, flag, ⟨entry, held, rfl⟩, between, rfl, _, reachCount_pos.mpr back, ?_⟩
    rw [calls_of_rule sound frozen here ⟨entry, held, rfl⟩ other reaches, registeredCall_mirrored own]
  · rw [no_calls sound frozen there both] at member
    cases member

theorem finds_back (sound : registry.Sound) (frozen : registry.frozen = true) (here : world.HasPort position port)
    (there : world.HasPort target targetPort) {upcast : ElectricalPortProfile → P} {result : ElectricalPortConnection → R}
    {profile profile' : ElectricalPortProfile} (isProfile : port.profile = upcast profile)
    (isProfile' : targetPort.profile = upcast profile')
    (conducts : ∀ rule, Holds registry rule → rule.Between port.standard targetPort.standard →
      Conducts applyRotationTo upcast result rule)
    (finds : Finds (discoveryCalls applyRotationTo registry world position port) target targetPort.localId) :
    Finds (discoveryCalls applyRotationTo registry world target targetPort) position port.localId := by
  obtain ⟨call, member, resolved⟩ := finds_iff.mp finds
  obtain ⟨rule, flag, holds, between, isCall, count, some', back⟩ := call_mirrored sound frozen here there member
  refine finds_iff.mpr ⟨call.mirrored position port.localId, by rw [back]; exact List.mem_replicate.mpr ⟨by omega, rfl⟩, ?_⟩
  have conducts := conducts rule holds between
  subst isCall
  by_cases own : rule.first = rule.second
  · cases flag <;>
      simp only [registeredCall, ResolverCall.mirrored, own, if_true, if_false, Bool.false_eq_true, isProfile, isProfile',
        portGeometry, conducts _ _ _, Option.isSome_map] at resolved ⊢ <;>
      exact resolveConductorConnection_mirrored resolved
  · cases flag <;> simpa only [registeredCall, ResolverCall.mirrored, own, if_true, if_false, Bool.false_eq_true] using resolved

end

end PortDiscovery

open PortDiscovery in
/-- Discovery calls the resolver of each pair of ports that reach each other once for each offset that
leads there, with the arguments in the rule's order; discovery from the other port makes the mirrored
call. So conductors find each other or neither does. -/
theorem discovery_symmetric {P R T : Type} (applyRotationTo : T → Vector3i → Vector3i) {registry : PortRegistry P R T}
    (reached : registry.Reached) (frozen : registry.frozen = true) (world : PortWorldView P T)
    {position target : Vector3i} {port targetPort : PortDefinition P}
    (here : world.HasPort position port) (there : world.HasPort target targetPort) :
    ∃ calls back, Discovers applyRotationTo registry world position port calls ∧
      Discovers applyRotationTo registry world target targetPort back ∧
      (∀ call ∈ calls, ∃ port, world.HasPort call.target port ∧ port.localId = call.localId) ∧
      (∀ rule, Holds registry rule → rule.Between port.standard targetPort.standard →
        Reaches applyRotationTo world target targetPort position →
        ∃ flag, (⟨rule, flag⟩ : RuleSide P R T).Faces port.standard targetPort.standard ∧
          calls.filter (fun call => call.isFor target targetPort.localId) =
            List.replicate (reachCount applyRotationTo world position port target)
              (registeredCall applyRotationTo world position port target targetPort ⟨rule, flag⟩)) ∧
      (¬ ((∃ rule, Holds registry rule ∧ rule.Between port.standard targetPort.standard) ∧
          Reaches applyRotationTo world target targetPort position) →
        calls.filter (fun call => call.isFor target targetPort.localId) = []) ∧
      (∀ call ∈ calls.filter (fun call => call.isFor target targetPort.localId),
        ∃ count, 0 < count ∧ back.filter (fun call => call.isFor position port.localId) =
          List.replicate count (call.mirrored position port.localId)) ∧
      ∀ (upcast : ElectricalPortProfile → P) (result : ElectricalPortConnection → R) (profile profile' : ElectricalPortProfile),
        port.profile = upcast profile → targetPort.profile = upcast profile' →
        (∀ rule, Holds registry rule → rule.Between port.standard targetPort.standard →
          Conducts applyRotationTo upcast result rule) →
        (Finds calls target targetPort.localId ↔ Finds back position port.localId) := by
  have sound := reached.sound
  refine ⟨_, _, discover_makes frozen here, discover_makes frozen there, fun call member => ?_, ?_, ?_, ?_, ?_⟩
  · obtain ⟨offset, -, made⟩ := List.mem_flatMap.mp member
    exact (candidateCalls_for made).2
  · intro rule holds between reaches
    obtain ⟨flag, faces, -, -⟩ := between.sides
    exact ⟨flag, faces, calls_of_rule sound frozen there holds faces reaches⟩
  · intro neither
    refine no_calls sound frozen there fun ⟨⟨entry, held, between⟩, reaches⟩ => ?_
    exact neither ⟨⟨entry.2, ⟨entry, held, rfl⟩, between⟩, reaches⟩
  · intro call member
    obtain ⟨-, -, -, -, -, mirrored⟩ := call_mirrored sound frozen here there member
    exact mirrored
  · intro upcast result profile profile' isProfile isProfile' conducts
    exact ⟨finds_back sound frozen here there isProfile isProfile' conducts,
      finds_back sound frozen there here isProfile' isProfile fun rule holds between => conducts rule holds (Or.symm between)⟩

section Facing

open PortDiscovery

/-- One standard, `c`, in the domain `e`. -/
def conductor : PortStandard := ⟨1, 7, [99], ⟨0, [101]⟩⟩

def east : PortDefinition ElectricalPortProfile where
  localId := 4
  anchor := ⟨0, 0, 0⟩
  reach := ⟨[⟨1, 0, 0⟩], by decide⟩
  standard := conductor
  profile := ⟨⟨1, 0, 0⟩, by decide⟩

/-- Two blocks with one port each, the second turned round to face the first. -/
def facing : PortWorldView ElectricalPortProfile (Vector3i → Vector3i) where
  portsAt position :=
    if position = ⟨0, 0, 0⟩ ∨ position = ⟨1, 0, 0⟩ then some ⟨[east], by decide⟩ else none
  rotation position := if position = ⟨0, 0, 0⟩ then id else fun offset => -offset

theorem discovery_symmetric_facing :
    ∃ registry : PortRegistry ElectricalPortProfile ElectricalPortConnection (Vector3i → Vector3i),
      registry.Reached ∧ registry.frozen = true ∧
      ∃ calls back, Discovers (fun rotation => rotation) registry facing ⟨0, 0, 0⟩ east calls ∧
        Discovers (fun rotation => rotation) registry facing ⟨1, 0, 0⟩ east back ∧
        (Finds calls ⟨1, 0, 0⟩ 4 ↔ Finds back ⟨0, 0, 0⟩ 4) := by
  have reached : ∃ registry : PortRegistry ElectricalPortProfile ElectricalPortConnection (Vector3i → Vector3i),
      registry.Reached ∧ registry.frozen = true ∧ ∀ rule, Holds registry rule → rule.resolver =
        resolveConductorConnection fun rotation => rotation :=
    ⟨_, .call (.call (.call .new (.registerDomain 0 [101]) (.inl ⟨(), rfl⟩))
      (.registerStandard 1 7 [99] ⟨0, [101]⟩ (resolveConductorConnection fun rotation => rotation)) (.inl ⟨(), rfl⟩))
      .freeze (.inl ⟨(), rfl⟩), rfl, fun rule ⟨entry, member, same⟩ => by
        rw [← same, List.mem_singleton.mp member]⟩
  obtain ⟨registry, reached, frozen, resolves⟩ := reached
  obtain ⟨calls, back, out, home, -, -, -, -, conductors⟩ := discovery_symmetric (fun rotation => rotation) reached frozen
    facing (show facing.HasPort ⟨0, 0, 0⟩ east from ⟨_, rfl, List.mem_singleton_self _⟩)
    (show facing.HasPort ⟨1, 0, 0⟩ east from ⟨_, rfl, List.mem_singleton_self _⟩)
  refine ⟨registry, reached, frozen, calls, back, out, home, conductors id id _ _ rfl rfl fun rule holds _ => ?_⟩
  intro first second geometry
  rw [resolves rule holds]
  simp

end Facing

end Hynergy.Core
