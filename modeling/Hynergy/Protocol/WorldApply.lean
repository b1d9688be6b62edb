import Hynergy.Protocol.WorldBuffer
import Hynergy.World.WorldRun

/-!
# Buffers on a world

The commands of a buffer are those of a world, their doubles read from bits.
-/

namespace Hynergy

open Lib

/-- The command with its value read. -/
def WorldCommand.map {F G : Type} (read : F → G) : WorldCommand F → WorldCommand G
  | .addWire wire => .addWire wire
  | .removeWire wire => .removeWire wire
  | .connectWires wireA wireB => .connectWires wireA wireB
  | .disconnectWires wireA wireB => .disconnectWires wireA wireB
  | .addDevice device definition => .addDevice device definition
  | .removeDevice device => .removeDevice device
  | .attachTerminal wire device terminal => .attachTerminal wire device terminal
  | .detachTerminal wire device terminal => .detachTerminal wire device terminal
  | .setDeviceParameter device parameter value => .setDeviceParameter device parameter (read value)

namespace WorldCommands

variable {F : Type} [F64 F]

/-- `world.apply_command(definitions, command)`. -/
def applyTo (definitions : DefinitionRegistry F) (fromBits : BitVec 64 → F) (command : RawCommand) :
    Call (Stores F) WorldCommandApplyError Unit :=
  Call.mapErr .model (Stores.applyCommand definitions (command.map fromBits))

/-- `apply_world_command_buffer`, with whether the world exists. -/
def applyWorldCommandBuffer (definitions : DefinitionRegistry F) (fromBits : BitVec 64 → F) (worldExists : Bool)
    (input : List Byte) : Call (Stores F) WorldCommandError Unit :=
  applyWorldCommandBufferInner input worldExists (applyTo definitions fromBits)

variable {registry : DefinitionRegistry F} {fromBits : BitVec 64 → F} {self mid : Stores F} {input : List Byte}

theorem applyTo_ok {command : RawCommand} (run : applyTo registry fromBits command self = .ok () mid) :
    Stores.applyCommand registry (command.map fromBits) self = .ok () mid := by
  unfold applyTo at run
  cases applied : Stores.applyCommand registry (command.map fromBits) self with
  | ok value after =>
    rw [Call.mapErr_ok applied] at run
    obtain ⟨-, rfl⟩ := Outcome.ok.inj run
    rfl
  | err error after =>
    rw [Call.mapErr_err applied] at run
    cases run
  | panic =>
    rw [Call.mapErr, Call.zoom, id, applied] at run
    cases run

theorem applyTo_err {command : RawCommand} {error : WorldCommandApplyError}
    (run : applyTo registry fromBits command self = .err error mid) :
    ∃ e, error = .model e ∧ Stores.applyCommand registry (command.map fromBits) self = .err e mid := by
  unfold applyTo at run
  cases applied : Stores.applyCommand registry (command.map fromBits) self with
  | ok value after =>
    rw [Call.mapErr_ok applied] at run
    cases run
  | err e after =>
    rw [Call.mapErr_err applied] at run
    obtain ⟨rfl, rfl⟩ := Outcome.err.inj run
    exact ⟨e, rfl, rfl⟩
  | panic =>
    rw [Call.mapErr, Call.zoom, id, applied] at run
    cases run

theorem applyTo_panic {command : RawCommand} :
    applyTo registry fromBits command self = .panic ↔
      Stores.applyCommand registry (command.map fromBits) self = .panic := by
  unfold applyTo
  cases applied : Stores.applyCommand registry (command.map fromBits) self with
  | ok value after =>
    rw [Call.mapErr_ok applied]
    exact ⟨fun h => (by cases h), fun h => (by cases h)⟩
  | err e after =>
    rw [Call.mapErr_err applied]
    exact ⟨fun h => (by cases h), fun h => (by cases h)⟩
  | panic =>
    rw [Call.mapErr, Call.zoom, id, applied]
    exact ⟨fun _ => rfl, fun _ => rfl⟩

/-- The commands of a buffer lead from world to world. -/
theorem Applied.reached {commands : List RawCommand} (applied : Applied (applyTo registry fromBits) commands self mid)
    (reached : Stores.WorldReached registry self) : Stores.WorldReached registry mid := by
  induction applied with
  | nil => exact reached
  | cons first _ ih =>
    obtain ⟨start, known, run⟩ := reached
    exact ih ⟨start, known, run.tail (.command _ (Or.inl ⟨(), applyTo_ok first⟩))⟩

/-- The commands of a buffer that are reached, with the world each is applied to. -/
def Reaches (registry : DefinitionRegistry F) (fromBits : BitVec 64 → F) (input : List Byte) (self : Stores F)
    (command : RawCommand) (mid : Stores F) : Prop :=
  ∃ count commands rest, count < 2 ^ 32 ∧ commands.length < count ∧
    input = encodeHeader count ++ (encodeCommands commands ++ (encodeCommand command ++ rest)) ∧
    Applied (applyTo registry fromBits) commands self mid

/-- A reached command is excused. -/
def ReachesExcused (registry : DefinitionRegistry F) (fromBits : BitVec 64 → F) (input : List Byte)
    (self : Stores F) : Prop :=
  ∃ command mid, Reaches registry fromBits input self command mid ∧
    Stores.Excused registry mid (command.map fromBits)

theorem bufferPanics_iff (reached : Stores.WorldReached registry self) :
    BufferPanics (applyTo registry fromBits) true input self ↔ ReachesExcused registry fromBits input self := by
  have panics_iff : ∀ {commands mid}, Applied (applyTo registry fromBits) commands self mid → ∀ command,
      applyTo registry fromBits command mid = .panic ↔ Stores.Excused registry mid (command.map fromBits) := by
    intro commands mid applied command
    obtain ⟨known, sound⟩ := (applied.reached reached).sound
    exact applyTo_panic.trans (Stores.applyCommand_panic_iff known.partitioned sound _)
  constructor
  · rintro ⟨-, count, tail, fits, split, commands, command, rest, mid, fewer, rfl, applied, panics⟩
    exact ⟨command, mid, ⟨count, commands, rest, fits, fewer, split, applied⟩, (panics_iff applied command).mp panics⟩
  · rintro ⟨command, mid, ⟨count, commands, rest, fits, fewer, split, applied⟩, excused⟩
    exact ⟨rfl, count, _, fits, split, commands, command, rest, mid, fewer, rfl, applied,
      (panics_iff applied command).mpr excused⟩

/-- A failed buffer leaves what its applied commands left, up to empty chunk hints. -/
theorem refused_unchanged {error : WorldCommandError} {t : Stores F} (reached : Stores.WorldReached registry self)
    (refused : Refused (applyTo registry fromBits) input self error t) (here : error.commandIndex ≠ u32Max) :
    ∃ count commands rest mid e, input = encodeHeader count ++ (encodeCommands commands ++ rest) ∧
      commands.length = error.commandIndex ∧ Applied (applyTo registry fromBits) commands self mid ∧
      Stores.Unchanged e mid t := by
  obtain ⟨count, commands, rest, mid, -, split, length, -, -, applied, left⟩ := refused.applied here
  rcases left with rfl | ⟨command, tail, applyError, -, rejects⟩
  · exact ⟨count, commands, rest, t, .wireConnectToSelf, split, length, applied, Or.inl rfl⟩
  · obtain ⟨e, -, run⟩ := applyTo_err rejects
    obtain ⟨known, sound⟩ := (applied.reached reached).sound
    have meets := Stores.applyCommand_meets known.partitioned sound (command.map fromBits)
    rw [run] at meets
    exact ⟨count, commands, rest, mid, e, split, length, applied, meets.2.1⟩

/-- A buffer encodes one list of commands. -/
theorem encodeBuffer_inj {commands others : List RawCommand} (short : input.length < 2 ^ 32)
    (encoded : input = encodeBuffer commands) (encoded' : input = encodeBuffer others) : commands = others := by
  have few : ∀ {list}, input = encodeBuffer list → list.length < 2 ^ 32 := by
    intro list split
    have := length_encodeCommands list
    rw [split, encodeBuffer, List.length_append] at short
    omega
  have sound := Decoder.sound_new input 0
  have count := decodeHeader_front sound (few encoded) encoded
  rw [decodeHeader_front sound (few encoded') encoded'] at count
  obtain ⟨length, -⟩ := Outcome.ok.inj count
  have frames := encoded.symm.trans encoded'
  rw [encodeBuffer, encodeBuffer, length] at frames
  have bytes := List.append_cancel_left frames
  rw [← List.append_nil (encodeCommands commands), ← List.append_nil (encodeCommands others)] at bytes
  exact (encodeCommands_inj length.symm bytes).1

/-- In every world a buffer does what the format says just if it does not come to a command that
is excused. -/
theorem buffer_faithful_iff (reached : Stores.WorldReached registry self) (short : input.length < 2 ^ 32)
    (worldExists : Bool) :
    (Faithful (applyTo registry fromBits) worldExists input self
        (applyWorldCommandBuffer registry fromBits worldExists input self) ↔
      ¬ (worldExists = true ∧ ReachesExcused registry fromBits input self)) ∧
    (∀ commands others, input = encodeBuffer commands → input = encodeBuffer others → commands = others) ∧
    ∀ error t, applyWorldCommandBuffer registry fromBits worldExists input self = .err error t →
      error.commandIndex ≠ u32Max →
        ∃ count commands rest mid e, input = encodeHeader count ++ (encodeCommands commands ++ rest) ∧
          commands.length = error.commandIndex ∧ Applied (applyTo registry fromBits) commands self mid ∧
          Stores.Unchanged e mid t := by
  have faithful := @inner_faithful _ (applyTo registry fromBits) input worldExists self short
  refine ⟨?_, fun _ _ encoded encoded' => encodeBuffer_inj short encoded encoded', ?_⟩
  · unfold applyWorldCommandBuffer
    rw [faithful, not_iff_not]
    constructor
    · rintro panics
      obtain rfl := panics.1
      exact ⟨rfl, (bufferPanics_iff reached).mp panics⟩
    · rintro ⟨rfl, excused⟩
      exact (bufferPanics_iff reached).mpr excused
  · intro error t fails here
    unfold applyWorldCommandBuffer at fails
    have returns : ¬ BufferPanics (applyTo registry fromBits) worldExists input self := by
      intro panics
      rw [inner_panics panics] at fails
      cases fails
    exact refused_unchanged reached ((faithful.mpr returns).err error t fails) here

set_option maxRecDepth 8000 in
/-- A buffer that takes the resistor off its wire and removes it, and one that removes another device. -/
theorem buffer_faithful_iff_resistor : ∃ stores : Stores Float, Stores.WorldReached .new stores ∧
    Faithful (applyTo .new fun bits => .ofBits ⟨bits⟩) true
      (encodeBuffer [.detachTerminal (.ofIndex 1 (by decide)) (.ofIndex 0 (by decide)) ⟨0, by decide⟩,
        .removeDevice (.ofIndex 0 (by decide))]) stores
      (applyWorldCommandBuffer .new (fun bits => .ofBits ⟨bits⟩) true
        (encodeBuffer [.detachTerminal (.ofIndex 1 (by decide)) (.ofIndex 0 (by decide)) ⟨0, by decide⟩,
          .removeDevice (.ofIndex 0 (by decide))]) stores) := by
  have run : ((Stores.applyAll .new (Stores.wiredResistor (.ofIndex 0 (by decide)) (.ofIndex 1 (by decide))
      (.ofIndex 0 (by decide)) ⟨0, by decide⟩) {}).any fun stores =>
      (applyWorldCommandBuffer .new (fun bits => Float.ofBits ⟨bits⟩) true
        (encodeBuffer [.detachTerminal (.ofIndex 1 (by decide)) (.ofIndex 0 (by decide)) ⟨0, by decide⟩,
          .removeDevice (.ofIndex 0 (by decide))]) stores).returned.isSome) = true := by
    decide +kernel
  obtain ⟨stores, steps, run⟩ := (Option.any_eq_true _ _).mp run
  obtain ⟨result, returned⟩ := Option.isSome_iff_exists.mp run
  have reached : Stores.WorldReached .new stores := Stores.applyAll_reached ⟨.new, .new, .refl⟩ steps
  refine ⟨stores, reached, (buffer_faithful_iff reached (by decide +kernel) true).1.mpr ?_⟩
  rintro ⟨-, excused⟩
  have panics := inner_panics ((bufferPanics_iff reached).mpr excused)
  exact absurd ((Outcome.of_returned returned).symm.trans panics) nofun

/-- Not every buffer does what the format says. -/
theorem remove_absent_buffer_panics : ¬ ∀ (registry : DefinitionRegistry Float) (self : Stores Float)
    (input : List Byte), Stores.WorldReached registry self → input.length < 2 ^ 32 →
      Faithful (applyTo registry fun bits => .ofBits ⟨bits⟩) true input self
        (applyWorldCommandBuffer registry (fun bits => .ofBits ⟨bits⟩) true input self) := by
  intro all
  have faithful := all .new {} ([0x48, 0x59, 0x57, 0x43, 1, 0, 0, 0, 0, 0, 0, 0, 1, 0, 0, 0] ++
    [6, 0, 4, 0, 0, 0, 1, 0, 0, 0]) ⟨.new, .new, .refl⟩ (by decide)
  refine faithful.returns (inner_panics ⟨rfl, 1, _, by decide, rfl, [], .removeDevice (.ofIndex 0 (by decide)), [],
    {}, Nat.one_pos, rfl, .nil, rfl⟩)

end WorldCommands

end Hynergy
