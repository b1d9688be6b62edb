import Mathlib.Data.BitVec
import Hynergy.Core.BlockPorts

/-!
# Port rules

A rule pairs two standards of one domain, in the order its resolver takes them. The registry keeps
one rule for each unordered pair; freezing compiles the rules into the two sides discovery reads.
-/

namespace Hynergy.Core

/-- `Vector3i`; components wrap. -/
@[ext] structure Vector3i where
  x : BitVec 32
  y : BitVec 32
  z : BitVec 32
  deriving DecidableEq

namespace Vector3i

instance : Add Vector3i := ⟨fun a b => ⟨a.x + b.x, a.y + b.y, a.z + b.z⟩⟩

instance : Sub Vector3i := ⟨fun a b => ⟨a.x - b.x, a.y - b.y, a.z - b.z⟩⟩

instance : Neg Vector3i := ⟨fun a => ⟨-a.x, -a.y, -a.z⟩⟩

@[simp, grind =] theorem add_x (a b : Vector3i) : (a + b).x = a.x + b.x := rfl
@[simp, grind =] theorem add_y (a b : Vector3i) : (a + b).y = a.y + b.y := rfl
@[simp, grind =] theorem add_z (a b : Vector3i) : (a + b).z = a.z + b.z := rfl
@[simp, grind =] theorem sub_x (a b : Vector3i) : (a - b).x = a.x - b.x := rfl
@[simp, grind =] theorem sub_y (a b : Vector3i) : (a - b).y = a.y - b.y := rfl
@[simp, grind =] theorem sub_z (a b : Vector3i) : (a - b).z = a.z - b.z := rfl
@[simp, grind =] theorem neg_x (a : Vector3i) : (-a).x = -a.x := rfl
@[simp, grind =] theorem neg_y (a : Vector3i) : (-a).y = -a.y := rfl
@[simp, grind =] theorem neg_z (a : Vector3i) : (-a).z = -a.z := rfl

variable {a b c d : Vector3i}

theorem neg_neg : - -a = a := by ext1 <;> simp

theorem neg_sub : -(a - b) = b - a := by ext1 <;> grind

theorem add_eq_iff : a + b = c ↔ b = c - a := by
  simp only [Vector3i.ext_iff, add_x, add_y, add_z, sub_x, sub_y, sub_z]
  grind

theorem add_sub_self : a + (b - a) = b := add_eq_iff.mpr rfl

/-- The two anchors seen from either block. -/
theorem neg_add_sub : -(a - b + c - d) = b - a + d - c := by ext1 <;> grind

end Vector3i

/-! ### Standards -/

/-- `String`, by its UTF-16 units. -/
abbrev JavaString := List (BitVec 16)

/-- `Character.isWhitespace`, of the units that can be one. -/
def isWhitespace (unit : BitVec 16) : Bool :=
  let c := unit.toNat
  decide (9 ≤ c ∧ c ≤ 13 ∨ 28 ≤ c ∧ c ≤ 32 ∨ c = 0x1680 ∨ 0x2000 ≤ c ∧ c ≤ 0x200a ∧ c ≠ 0x2007 ∨
    c = 0x2028 ∨ c = 0x2029 ∨ c = 0x205f ∨ c = 0x3000)

/-- `String.compareTo`. -/
def compareTo : JavaString → JavaString → Int
  | [], [] => 0
  | [], b :: bs => -((b :: bs).length : Int)
  | a :: as, [] => (a :: as).length
  | a :: as, b :: bs => if a = b then compareTo as bs else (a.toNat : Int) - b.toNat

theorem compareTo_eq_zero : ∀ {a b : JavaString}, compareTo a b = 0 → a = b
  | [], [], _ => rfl
  | [], b :: bs, same => by simp [compareTo] at same; omega
  | a :: as, [], same => by simp [compareTo] at same; omega
  | a :: as, b :: bs, same => by
    rw [compareTo] at same
    split at same
    · rename_i here
      rw [here, compareTo_eq_zero same]
    · rename_i differ
      exact absurd (BitVec.eq_of_toNat_eq (by omega)) differ

theorem compareTo_swap : ∀ (a b : JavaString), compareTo a b = -compareTo b a
  | [], [] => rfl
  | [], b :: bs => rfl
  | a :: as, [] => by simp [compareTo]
  | a :: as, b :: bs => by
    rw [compareTo, compareTo]
    by_cases here : a = b
    · rw [if_pos here, if_pos here.symm, compareTo_swap as bs]
    · rw [if_neg here, if_neg (Ne.symm here)]
      omega

/-- A reference and the object's fields: two references to one object agree in all of it. -/
structure PortDomain where
  reference : Nat
  id : JavaString
  deriving DecidableEq

structure PortStandard where
  reference : Nat
  identityHashCode : BitVec 32
  id : JavaString
  domain : PortDomain
  deriving DecidableEq

structure PortGeometry (T : Type) where
  owner : Vector3i
  anchor : Vector3i
  firstRotation : T
  secondRotation : T
  deriving DecidableEq

/-- `null` rejects the pair. -/
abbrev PortResolver (P R T : Type) := P → P → PortGeometry T → Option R

structure Rule (P R T : Type) where
  first : PortStandard
  second : PortStandard
  resolver : PortResolver P R T

structure RuleSide (P R T : Type) where
  rule : Rule P R T
  sourceIsFirst : Bool

/-- The rule pairs the two standards, in one order or the other. -/
def Rule.Between {P R T : Type} (rule : Rule P R T) (a b : PortStandard) : Prop :=
  rule.first = a ∧ rule.second = b ∨ rule.first = b ∧ rule.second = a

/-- The side of its rule that discovery from `source` towards `target` takes. -/
def RuleSide.Faces {P R T : Type} (side : RuleSide P R T) (source target : PortStandard) : Prop :=
  if side.sourceIsFirst = true then side.rule.first = source ∧ side.rule.second = target
  else side.rule.first ≠ side.rule.second ∧ side.rule.first = target ∧ side.rule.second = source

theorem RuleSide.Faces.between {P R T : Type} {side : RuleSide P R T} {source target : PortStandard}
    (faces : side.Faces source target) : side.rule.Between source target := by
  unfold Faces at faces
  split at faces
  · exact Or.inl faces
  · exact Or.inr faces.2

/-- `low` and `high`. -/
structure StandardPair where
  low : PortStandard
  high : PortStandard
  deriving DecidableEq

namespace StandardPair

def compare (first second : PortStandard) : Int :=
  let byId := compareTo first.id second.id
  if byId ≠ 0 then byId else
    if first.identityHashCode.slt second.identityHashCode then -1
    else if first.identityHashCode = second.identityHashCode then 0 else 1

def of (first second : PortStandard) : StandardPair :=
  if compare first second ≤ 0 then ⟨first, second⟩ else ⟨second, first⟩

variable {first second a b : PortStandard}

theorem of_cases : of first second = ⟨first, second⟩ ∨ of first second = ⟨second, first⟩ := by
  unfold of
  split
  · exact Or.inl rfl
  · exact Or.inr rfl

/-- Equal keys name the same two standards. -/
theorem of_eq (same : of first second = of a b) : first = a ∧ second = b ∨ first = b ∧ second = a := by
  rcases @of_cases first second with left | left <;> rcases @of_cases a b with right | right <;>
    rw [left, right] at same <;> simp only [StandardPair.mk.injEq] at same <;> tauto

/-- The order in which two standards of different ids are named does not matter. -/
theorem of_comm (differ : first.id ≠ second.id) : of first second = of second first := by
  have byId : compareTo first.id second.id ≠ 0 := fun same => differ (compareTo_eq_zero same)
  have swap := compareTo_swap first.id second.id
  have byId' : compareTo second.id first.id ≠ 0 := by omega
  unfold of compare
  simp only [ne_eq, byId, byId', not_false_eq_true, if_true]
  split <;> split <;> first | rfl | omega

end StandardPair

/-- The side discovery takes from one port is that of its rule, and it takes the other from the other. -/
theorem Rule.Between.sides {P R T : Type} {rule : Rule P R T} {a b : PortStandard} (between : rule.Between a b) :
    ∃ flag, (⟨rule, flag⟩ : RuleSide P R T).Faces a b ∧
      (⟨rule, if rule.first = rule.second then flag else !flag⟩ : RuleSide P R T).Faces b a ∧
      (rule.first = rule.second → flag = true) := by
  by_cases own : rule.first = rule.second
  · have both : rule.first = a ∧ rule.first = b := by
      rcases between with ⟨rfl, second⟩ | ⟨rfl, second⟩
      · exact ⟨rfl, own.trans second⟩
      · exact ⟨own.trans second, rfl⟩
    exact ⟨true, ⟨both.1, own ▸ both.2⟩, by rw [if_pos own]; exact ⟨both.2, own ▸ both.1⟩, fun _ => rfl⟩
  · rcases between with ⟨first, second⟩ | ⟨first, second⟩
    · exact ⟨true, ⟨first, second⟩, by rw [if_neg own]; exact ⟨own, first, second⟩, fun _ => rfl⟩
    · exact ⟨false, ⟨own, first, second⟩, by rw [if_neg own]; exact ⟨first, second⟩, fun same => absurd same own⟩

/-! ### The registry -/

/-- The rules in the order they were put. -/
structure PortRegistry (P R T : Type) where
  domains : JavaString → Option PortDomain := fun _ => none
  standards : JavaString → Option PortStandard := fun _ => none
  rules : List (StandardPair × Rule P R T) := []
  ruleSidesByPair : PortStandard → Option (PortStandard → Option (RuleSide P R T)) := fun _ => none
  frozen : Bool := false

namespace PortRegistry

variable {P R T : Type}

abbrev RegistryCall (P R T α : Type) := Call (PortRegistry P R T) PortException α

def requireOpen : RegistryCall P R T Unit := do
  let self ← Call.get
  Call.rejectIf (self.frozen = true) .illegalState

def requireValidId (id : JavaString) : RegistryCall P R T Unit := Call.rejectIf (id.all isWhitespace = true) .illegalArgument

def requireRegisteredDomain (domain : PortDomain) : RegistryCall P R T Unit := do
  let self ← Call.get
  Call.rejectIf (self.domains domain.id ≠ some domain) .illegalArgument

def requireRegisteredStandard (standard : PortStandard) : RegistryCall P R T Unit := do
  let self ← Call.get
  Call.rejectIf (self.standards standard.id ≠ some standard) .illegalArgument

/-- `new` gives the domain its reference. -/
def registerDomain (reference : Nat) (id : JavaString) : RegistryCall P R T PortDomain := do
  requireOpen
  requireValidId id
  let self ← Call.get
  Call.rejectIf ((self.domains id).isSome = true) .illegalState
  let domain : PortDomain := ⟨reference, id⟩
  Call.set { self with domains := Function.update self.domains id (some domain) }
  return domain

/-- The map's `put` of a key it does not hold, or holds once. -/
def putRule (rules : List (StandardPair × Rule P R T)) (pair : StandardPair) (rule : Rule P R T) :
    List (StandardPair × Rule P R T) :=
  if rules.any (fun entry => decide (entry.1 = pair)) then
    rules.map fun entry => if entry.1 = pair then (pair, rule) else entry
  else rules ++ [(pair, rule)]

def registerStandard (reference : Nat) (identityHashCode : BitVec 32) (id : JavaString) (domain : PortDomain)
    (resolver : PortResolver P R T) : RegistryCall P R T PortStandard := do
  requireOpen
  requireValidId id
  requireRegisteredDomain domain
  let self ← Call.get
  Call.rejectIf ((self.standards id).isSome = true) .illegalState
  let standard : PortStandard := ⟨reference, identityHashCode, id, domain⟩
  Call.set { self with
    standards := Function.update self.standards id (some standard)
    rules := putRule self.rules (StandardPair.of standard standard) ⟨standard, standard, resolver⟩ }
  return standard

def registerAdapter (first second : PortStandard) (resolver : PortResolver P R T) : RegistryCall P R T Unit := do
  requireOpen
  requireRegisteredStandard first
  requireRegisteredStandard second
  Call.rejectIf (first.domain ≠ second.domain) .illegalArgument
  let self ← Call.get
  Call.rejectIf (self.rules.any (fun entry => decide (entry.1 = StandardPair.of first second)) = true) .illegalState
  Call.set { self with rules := putRule self.rules (StandardPair.of first second) ⟨first, second, resolver⟩ }

def putRuleSide (compiled : PortStandard → Option (PortStandard → Option (RuleSide P R T)))
    (source target : PortStandard) (side : RuleSide P R T) :
    PortStandard → Option (PortStandard → Option (RuleSide P R T)) :=
  Function.update compiled source (some (Function.update ((compiled source).getD fun _ => none) target (some side)))

def compileRuleSides (rules : List (StandardPair × Rule P R T)) :
    PortStandard → Option (PortStandard → Option (RuleSide P R T)) :=
  rules.foldl (fun compiled entry =>
    let compiled := putRuleSide compiled entry.2.first entry.2.second ⟨entry.2, true⟩
    if entry.2.first ≠ entry.2.second then
      putRuleSide compiled entry.2.second entry.2.first ⟨entry.2, false⟩
    else compiled) fun _ => none

def freeze : RegistryCall P R T Unit := do
  requireOpen
  Call.modify fun self => { self with ruleSidesByPair := compileRuleSides self.rules, frozen := true }

/-- What the compiled maps hold; `ruleSide` reads them once the registry is frozen. -/
def sideOf (compiled : PortStandard → Option (PortStandard → Option (RuleSide P R T))) (source target : PortStandard) :
    Option (RuleSide P R T) :=
  (compiled source).bind fun targets => targets target

def ruleSide (self : PortRegistry P R T) (source target : PortStandard) : Except PortException (Option (RuleSide P R T)) :=
  if self.frozen = false then .error .illegalState else .ok (sideOf self.ruleSidesByPair source target)

/-- The calls of a registry's owner. -/
inductive Operation (P R T : Type) where
  | registerDomain (reference : Nat) (id : JavaString)
  | registerStandard (reference : Nat) (identityHashCode : BitVec 32) (id : JavaString) (domain : PortDomain)
      (resolver : PortResolver P R T)
  | registerAdapter (first second : PortStandard) (resolver : PortResolver P R T)
  | freeze

def Operation.apply : Operation P R T → RegistryCall P R T Unit
  | .registerDomain reference id => do
    let _ ← PortRegistry.registerDomain reference id
    return ()
  | .registerStandard reference identityHashCode id domain resolver => do
    let _ ← PortRegistry.registerStandard reference identityHashCode id domain resolver
    return ()
  | .registerAdapter first second resolver => PortRegistry.registerAdapter first second resolver
  | .freeze => PortRegistry.freeze

inductive Reached : PortRegistry P R T → Prop
  | new : Reached {}
  | call {self next : PortRegistry P R T} (reached : Reached self) (operation : Operation P R T)
      (leaves : (operation.apply self).Leaves next) : Reached next

/-! ### What a registry holds -/

theorem sideOf_putRuleSide (compiled : PortStandard → Option (PortStandard → Option (RuleSide P R T)))
    (source target a b : PortStandard) (side : RuleSide P R T) :
    sideOf (putRuleSide compiled source target side) a b =
      if a = source ∧ b = target then some side else sideOf compiled a b := by
  unfold sideOf putRuleSide
  by_cases here : a = source
  · subst here
    rw [Function.update_self, Option.bind_some, Function.update_apply]
    by_cases there : b = target
    · rw [if_pos there, if_pos ⟨rfl, there⟩]
    · rw [if_neg there, if_neg (fun both => there both.2)]
      cases compiled a <;> rfl
  · rw [Function.update_of_ne here, if_neg (fun both => here both.1)]

/-- The rules compiled into sides, when no two pair the same standards. -/
theorem sideOf_compileRuleSides (a b : PortStandard) (side : RuleSide P R T) :
    ∀ rules : List (StandardPair × Rule P R T),
    rules.Pairwise (fun one other => ∀ a b, one.2.Between a b → ¬ other.2.Between a b) →
    (sideOf (compileRuleSides rules) a b = some side ↔
      (∃ entry ∈ rules, entry.2 = side.rule) ∧ side.Faces a b) := by
  intro rules
  induction rules using List.reverseRecOn with
  | nil =>
    intro _
    exact ⟨nofun, fun ⟨⟨entry, member, _⟩, _⟩ => by cases member⟩
  | append_singleton rules last ih =>
    intro apart
    obtain ⟨before, -, alone⟩ := List.pairwise_append.mp apart
    have ih := ih before
    have alone : ∀ entry ∈ rules, entry.2.Between a b → ¬ last.2.Between a b :=
      fun entry member => alone entry member last (List.mem_singleton_self _) a b
    -- the last rule's sides are put over the others'
    have step : sideOf (compileRuleSides (rules ++ [last])) a b =
        if last.2.first ≠ last.2.second ∧ a = last.2.second ∧ b = last.2.first then some ⟨last.2, false⟩
        else if a = last.2.first ∧ b = last.2.second then some ⟨last.2, true⟩
        else sideOf (compileRuleSides rules) a b := by
      unfold compileRuleSides
      rw [List.foldl_append, List.foldl_cons, List.foldl_nil]
      dsimp only
      by_cases adapter : last.2.first ≠ last.2.second
      · rw [if_pos adapter, sideOf_putRuleSide, sideOf_putRuleSide]
        simp only [adapter, ne_eq, not_false_eq_true, true_and]
      · rw [if_neg adapter, if_neg (fun both => adapter both.1), sideOf_putRuleSide]
    rw [step]
    constructor
    · intro found
      split at found
      · rename_i both
        obtain rfl := Option.some.inj found
        exact ⟨⟨last, by simp, rfl⟩, by
          rw [RuleSide.Faces, if_neg (by simp)]
          exact ⟨both.1, both.2.2.symm, both.2.1.symm⟩⟩
      · split at found
        · rename_i both
          obtain rfl := Option.some.inj found
          exact ⟨⟨last, by simp, rfl⟩, by
            rw [RuleSide.Faces, if_pos rfl]
            exact ⟨both.1.symm, both.2.symm⟩⟩
        · obtain ⟨⟨entry, member, same⟩, faces⟩ := ih.mp found
          exact ⟨⟨entry, List.mem_append_left _ member, same⟩, faces⟩
    · rintro ⟨⟨entry, member, same⟩, faces⟩
      rcases List.mem_append.mp member with old | new
      · have between : entry.2.Between a b := same ▸ faces.between
        have apart := alone entry old between
        rw [if_neg (fun both => apart (Or.inr ⟨both.2.2.symm, both.2.1.symm⟩)),
          if_neg (fun both => apart (Or.inl ⟨both.1.symm, both.2.symm⟩))]
        exact ih.mpr ⟨⟨entry, old, same⟩, faces⟩
      · obtain rfl := List.mem_singleton.mp new
        obtain ⟨rule, sourceIsFirst⟩ := side
        have same : entry.2 = rule := same
        subst same
        cases sourceIsFirst with
        | false =>
          obtain ⟨differ, first, second⟩ : entry.2.first ≠ entry.2.second ∧ entry.2.first = b ∧ entry.2.second = a := by
            simpa [RuleSide.Faces] using faces
          rw [if_pos ⟨differ, second.symm, first.symm⟩]
        | true =>
          obtain ⟨first, second⟩ : entry.2.first = a ∧ entry.2.second = b := by simpa [RuleSide.Faces] using faces
          rw [if_neg (fun both => both.1 (first.trans (both.2.1.trans rfl))), if_pos ⟨first.symm, second.symm⟩]

structure Sound (registry : PortRegistry P R T) : Prop where
  named : ∀ id standard, registry.standards id = some standard → standard.id = id
  keyed : ∀ entry ∈ registry.rules, entry.1 = StandardPair.of entry.2.first entry.2.second
  registered : ∀ entry ∈ registry.rules,
    registry.standards entry.2.first.id = some entry.2.first ∧ registry.standards entry.2.second.id = some entry.2.second
  oneDomain : ∀ entry ∈ registry.rules, entry.2.first.domain = entry.2.second.domain
  distinct : (registry.rules.map Prod.fst).Nodup
  compiled : registry.frozen = true → registry.ruleSidesByPair = compileRuleSides registry.rules

theorem Sound.apart {self : PortRegistry P R T} (sound : self.Sound) :
    self.rules.Pairwise (fun one other => ∀ a b, one.2.Between a b → ¬ other.2.Between a b) := by
  have keys : self.rules.Pairwise fun one other => one.1 ≠ other.1 := List.pairwise_map.mp sound.distinct
  refine keys.imp_of_mem fun {one other} here there differ a b between between' => differ ?_
  rw [sound.keyed one here, sound.keyed other there]
  -- the two standards in the other order make the same key: their ids differ, or they are one standard
  have comm : StandardPair.of one.2.first one.2.second = StandardPair.of one.2.second one.2.first := by
    by_cases ids : one.2.first.id = one.2.second.id
    · have := (sound.registered one here).1
      rw [ids, (sound.registered one here).2] at this
      rw [Option.some.inj this]
    · exact StandardPair.of_comm ids
  rcases between with ⟨rfl, rfl⟩ | ⟨rfl, rfl⟩ <;> rcases between' with ⟨left, right⟩ | ⟨left, right⟩ <;>
    rw [left, right] <;> exact comm

/-! ### Every reachable registry -/

theorem requireOpen_eq_ok {before after : PortRegistry P R T} {value : Unit} (run : requireOpen before = .ok value after) :
    before.frozen = false ∧ after = before := by
  have run : (Call.get >>= _) before = .ok value after := run
  rw [Call.get_bind] at run
  obtain ⟨isOpen, same⟩ := Call.rejectIf_eq_ok run
  exact ⟨by simpa using isOpen, same⟩

theorem requireRegisteredStandard_eq_ok {standard : PortStandard} {before after : PortRegistry P R T} {value : Unit}
    (run : requireRegisteredStandard standard before = .ok value after) :
    before.standards standard.id = some standard ∧ after = before := by
  have run : (Call.get >>= _) before = .ok value after := run
  rw [Call.get_bind] at run
  obtain ⟨known, same⟩ := Call.rejectIf_eq_ok run
  exact ⟨not_not.mp known, same⟩

theorem requireRegisteredDomain_eq_ok {domain : PortDomain} {before after : PortRegistry P R T} {value : Unit}
    (run : requireRegisteredDomain domain before = .ok value after) : after = before := by
  have run : (Call.get >>= _) before = .ok value after := run
  rw [Call.get_bind] at run
  exact (Call.rejectIf_eq_ok run).2

theorem putRule_new {rules : List (StandardPair × Rule P R T)} {pair : StandardPair} {rule : Rule P R T}
    (new : ∀ entry ∈ rules, entry.1 ≠ pair) : putRule rules pair rule = rules ++ [(pair, rule)] := by
  rw [putRule, if_neg]
  rw [List.any_eq_true]
  rintro ⟨entry, member, same⟩
  exact new entry member (of_decide_eq_true same)

/-- A rule under a key no other has, between standards of one domain that are registered. -/
theorem Sound.put {self : PortRegistry P R T} (sound : self.Sound) {first second : PortStandard}
    {resolver : PortResolver P R T} {standards : JavaString → Option PortStandard}
    (isOpen : self.frozen = false) (named : ∀ id standard, standards id = some standard → standard.id = id)
    (kept : ∀ standard, self.standards standard.id = some standard → standards standard.id = some standard)
    (isFirst : standards first.id = some first) (isSecond : standards second.id = some second)
    (same : first.domain = second.domain) (new : ∀ entry ∈ self.rules, entry.1 ≠ StandardPair.of first second) :
    ({ self with standards, rules := putRule self.rules (StandardPair.of first second) ⟨first, second, resolver⟩ } :
      PortRegistry P R T).Sound := by
  rw [putRule_new new]
  refine ⟨named, ?_, ?_, ?_, ?_, fun frozen => absurd (isOpen.symm.trans frozen) Bool.false_ne_true⟩
  · intro entry member
    rcases List.mem_append.mp member with old | last
    · exact sound.keyed entry old
    · rw [List.mem_singleton.mp last]
  · intro entry member
    rcases List.mem_append.mp member with old | last
    · exact ⟨kept _ (sound.registered entry old).1, kept _ (sound.registered entry old).2⟩
    · rw [List.mem_singleton.mp last]
      exact ⟨isFirst, isSecond⟩
  · intro entry member
    rcases List.mem_append.mp member with old | last
    · exact sound.oneDomain entry old
    · rw [List.mem_singleton.mp last]
      exact same
  · rw [List.map_append, List.nodup_append]
    refine ⟨sound.distinct, List.nodup_singleton _, ?_⟩
    rintro key old other last rfl
    obtain ⟨entry, member, rfl⟩ := List.mem_map.mp old
    exact new entry member (List.mem_singleton.mp last)

theorem registerDomain_sound {reference : Nat} {id : JavaString} {before after : PortRegistry P R T} {value : PortDomain}
    (sound : before.Sound) (run : registerDomain reference id before = .ok value after) : after.Sound := by
  obtain ⟨_, mid, opened, run⟩ := Call.bind_eq_ok run
  obtain ⟨-, same⟩ := requireOpen_eq_ok opened
  subst mid
  obtain ⟨_, mid, valid, run⟩ := Call.bind_eq_ok run
  obtain ⟨-, same⟩ := Call.rejectIf_eq_ok valid
  subst mid
  have run : (Call.get >>= _) before = .ok value after := run
  rw [Call.get_bind] at run
  obtain ⟨_, mid, free, run⟩ := Call.bind_eq_ok run
  obtain ⟨-, same⟩ := Call.rejectIf_eq_ok free
  subst mid
  obtain ⟨-, rfl⟩ := Outcome.ok.inj run
  exact ⟨sound.named, sound.keyed, sound.registered, sound.oneDomain, sound.distinct, sound.compiled⟩

theorem registerStandard_sound {reference : Nat} {identityHashCode : BitVec 32} {id : JavaString} {domain : PortDomain}
    {resolver : PortResolver P R T} {before after : PortRegistry P R T} {value : PortStandard} (sound : before.Sound)
    (run : registerStandard reference identityHashCode id domain resolver before = .ok value after) : after.Sound := by
  obtain ⟨_, mid, opened, run⟩ := Call.bind_eq_ok run
  obtain ⟨isOpen, same⟩ := requireOpen_eq_ok opened
  subst mid
  obtain ⟨_, mid, valid, run⟩ := Call.bind_eq_ok run
  obtain ⟨-, same⟩ := Call.rejectIf_eq_ok valid
  subst mid
  obtain ⟨_, mid, owned, run⟩ := Call.bind_eq_ok run
  have same := requireRegisteredDomain_eq_ok owned
  subst mid
  have run : (Call.get >>= _) before = .ok value after := run
  rw [Call.get_bind] at run
  obtain ⟨_, mid, free, run⟩ := Call.bind_eq_ok run
  obtain ⟨isFree, same⟩ := Call.rejectIf_eq_ok free
  subst mid
  obtain ⟨-, rfl⟩ := Outcome.ok.inj run
  have isFree : before.standards id = none := by simpa using isFree
  refine sound.put isOpen ?_ ?_ (Function.update_self ..) (Function.update_self ..) rfl ?_
  · intro name standard found
    by_cases here : name = id
    · rw [here, Function.update_self] at found
      rw [here, ← Option.some.inj found]
    · rw [Function.update_of_ne here] at found
      exact sound.named name standard found
  · intro standard found
    rw [Function.update_of_ne (fun here => by rw [here, isFree] at found; cases found)]
    exact found
  · intro entry member same
    have registered := (sound.registered entry member).1
    rw [sound.keyed entry member] at same
    have first : entry.2.first = ⟨reference, identityHashCode, id, domain⟩ := by
      rcases StandardPair.of_eq same with ⟨first, -⟩ | ⟨first, -⟩ <;> exact first
    rw [first, isFree] at registered
    cases registered

theorem registerAdapter_sound {first second : PortStandard} {resolver : PortResolver P R T}
    {before after : PortRegistry P R T} {value : Unit} (sound : before.Sound)
    (run : registerAdapter first second resolver before = .ok value after) : after.Sound := by
  obtain ⟨_, mid, opened, run⟩ := Call.bind_eq_ok run
  obtain ⟨isOpen, same⟩ := requireOpen_eq_ok opened
  subst mid
  obtain ⟨_, mid, one, run⟩ := Call.bind_eq_ok run
  obtain ⟨isFirst, same⟩ := requireRegisteredStandard_eq_ok one
  subst mid
  obtain ⟨_, mid, two, run⟩ := Call.bind_eq_ok run
  obtain ⟨isSecond, same⟩ := requireRegisteredStandard_eq_ok two
  subst mid
  obtain ⟨_, mid, within, run⟩ := Call.bind_eq_ok run
  obtain ⟨oneDomain, same⟩ := Call.rejectIf_eq_ok within
  subst mid
  have run : (Call.get >>= _) before = .ok value after := run
  rw [Call.get_bind] at run
  obtain ⟨_, mid, free, run⟩ := Call.bind_eq_ok run
  obtain ⟨isFree, same⟩ := Call.rejectIf_eq_ok free
  subst mid
  obtain ⟨-, rfl⟩ := Outcome.ok.inj run
  refine sound.put isOpen sound.named (fun _ found => found) isFirst isSecond (not_not.mp oneDomain) ?_
  intro entry member same
  exact isFree (List.any_eq_true.mpr ⟨entry, member, decide_eq_true same⟩)

theorem freeze_sound {before after : PortRegistry P R T} {value : Unit} (sound : before.Sound)
    (run : freeze before = .ok value after) : after.Sound := by
  obtain ⟨_, mid, opened, run⟩ := Call.bind_eq_ok run
  obtain ⟨-, same⟩ := requireOpen_eq_ok opened
  subst mid
  obtain ⟨-, rfl⟩ := Outcome.ok.inj run
  exact ⟨sound.named, sound.keyed, sound.registered, sound.oneDomain, sound.distinct, fun _ => rfl⟩

theorem Operation.apply_sound {operation : Operation P R T} {before after : PortRegistry P R T} {value : Unit}
    (sound : before.Sound) (run : operation.apply before = .ok value after) : after.Sound := by
  cases operation with
  | registerDomain reference id =>
    obtain ⟨_, mid, registers, last⟩ := Call.bind_eq_ok run
    obtain ⟨-, rfl⟩ := Outcome.ok.inj last
    exact registerDomain_sound sound registers
  | registerStandard reference identityHashCode id domain resolver =>
    obtain ⟨_, mid, registers, last⟩ := Call.bind_eq_ok run
    obtain ⟨-, rfl⟩ := Outcome.ok.inj last
    exact registerStandard_sound sound registers
  | registerAdapter first second resolver => exact registerAdapter_sound sound run
  | freeze => exact freeze_sound sound run

section Throwing

variable {before : PortRegistry P R T}

theorem requireOpen_keeps : Call.Preserves (fun self => self = before) (requireOpen : RegistryCall P R T Unit) :=
  Call.Preserves.get_bind fun _ _ => Call.Preserves.rejectIf _ _

theorem requireRegisteredDomain_keeps (domain : PortDomain) :
    Call.Preserves (fun self => self = before) (requireRegisteredDomain domain : RegistryCall P R T Unit) :=
  Call.Preserves.get_bind fun _ _ => Call.Preserves.rejectIf _ _

theorem requireRegisteredStandard_keeps (standard : PortStandard) :
    Call.Preserves (fun self => self = before) (requireRegisteredStandard standard : RegistryCall P R T Unit) :=
  Call.Preserves.get_bind fun _ _ => Call.Preserves.rejectIf _ _

/-- Every check stands before the first write. -/
theorem Operation.apply_throws (operation : Operation P R T) : Call.FailsUnchanged operation.apply := by
  have keeps : ∀ before, Call.Preserves (fun self => self = before) (Call.get : RegistryCall P R T _) :=
    fun _ _ holds => holds
  cases operation with
  | registerDomain reference id =>
    refine Call.FailsUnchanged.discard (.bind (fun _ => requireOpen_keeps) fun _ => .bind (fun _ => .rejectIf _ _) fun _ =>
      .bind keeps fun self => .bind (fun _ => .rejectIf _ _) fun _ => ?_)
    exact nofun
  | registerStandard reference identityHashCode id domain resolver =>
    refine Call.FailsUnchanged.discard (.bind (fun _ => requireOpen_keeps) fun _ => .bind (fun _ => .rejectIf _ _) fun _ =>
      .bind (fun _ => requireRegisteredDomain_keeps _) fun _ => .bind keeps fun self =>
      .bind (fun _ => .rejectIf _ _) fun _ => ?_)
    exact nofun
  | registerAdapter first second resolver =>
    refine .bind (fun _ => requireOpen_keeps) fun _ => .bind (fun _ => requireRegisteredStandard_keeps _) fun _ =>
      .bind (fun _ => requireRegisteredStandard_keeps _) fun _ => .bind (fun _ => .rejectIf _ _) fun _ =>
      .bind keeps fun self => .bind (fun _ => .rejectIf _ _) fun _ => ?_
    exact nofun
  | freeze => exact .bind (fun _ => requireOpen_keeps) fun _ => nofun

end Throwing

theorem Reached.sound {self : PortRegistry P R T} (reached : self.Reached) : self.Sound := by
  induction reached with
  | new => exact ⟨nofun, nofun, nofun, nofun, List.nodup_nil, nofun⟩
  | call reached operation leaves ih =>
    rcases leaves with ⟨value, run⟩ | ⟨error, run⟩
    · exact operation.apply_sound ih run
    · rw [operation.apply_throws _ _ _ run]
      exact ih

end PortRegistry

end Hynergy.Core
