import Hynergy.Topology.Traversal

/-!
# Incidences

What the network says about wires and device components: which terminals are attached to
which wire, and so which components touch a set of wires, each as often as it has terminals
there.
-/

namespace Hynergy

open Lib

variable {F : Type}

namespace Network

variable {registry : DefinitionRegistry F} {self next : Network F}

/-- The wire a terminal is attached to. -/
def attachedWire (self : Network F) (device : DeviceId) (terminal : Nat) : Option WireId :=
  (self.record device).bind fun row => row.terminals[terminal]?.join.bind ConnectionRef.asWire

def definitionOf (registry : DefinitionRegistry F) (self : Network F) (device : DeviceId) :
    Option (DeviceDefinition F) :=
  (self.record device).bind fun row => registry.get row.definitionId

/-- The component of a terminal whose wire is `on`. -/
def incidence (registry : DefinitionRegistry F) (self : Network F) (on : WireId → Bool)
    (device : DeviceId) (terminal : Nat) : Option DeviceComponent :=
  ((self.attachedWire device terminal).filter on).bind fun _ =>
    (self.definitionOf registry device).bind fun definition =>
      definition.terminalPartitions[terminal]?.map (DeviceComponent.mk device)

def terminalCount (self : Network F) (device : DeviceId) : Nat :=
  ((self.record device).map fun row => row.terminals.length).getD 0

/-- The components of a device's terminals on the given wires, one for each terminal. -/
def incidences (registry : DefinitionRegistry F) (self : Network F) (on : WireId → Bool)
    (device : DeviceId) : List DeviceComponent :=
  (List.range (self.terminalCount device)).filterMap (self.incidence registry on device)

theorem attachedWire_eq_some {device : DeviceId} {t : Nat} {wire : WireId} :
    self.attachedWire device t = some wire ↔
      ∃ row, self.record device = some row ∧ row.terminals[t]? = some (some (.wire wire)) := by
  simp only [attachedWire, Option.bind_eq_some_iff, Option.join_eq_some_iff, ConnectionRef.asWire_eq_some]
  constructor
  · rintro ⟨row, found, _, read, rfl⟩
    exact ⟨row, found, read⟩
  · rintro ⟨row, found, read⟩
    exact ⟨row, found, _, read, rfl⟩

theorem lt_of_attachedWire {device : DeviceId} {t : Nat} {wire : WireId}
    (h : self.attachedWire device t = some wire) : t < self.terminalCount device := by
  obtain ⟨row, found, read⟩ := attachedWire_eq_some.mp h
  rw [terminalCount, found, Option.map_some, Option.getD_some]
  exact (List.getElem?_eq_some_iff.mp read).1

/-- A resident device has a definition with its number of terminals. -/
theorem definition_of_record (h : Stored registry self) {device : DeviceId} {row : DeviceRow F}
    (found : self.record device = some row) :
    ∃ definition, registry.get row.definitionId = some definition ∧
      self.definitionOf registry device = some definition ∧
      row.terminals.length = definition.terminals.length ∧
      row.parameters.length = definition.parameters.length := by
  obtain ⟨loc, locator, chunk, s⟩ := h.arena.site found
  obtain ⟨definition, known, terminals, parameters⟩ := s.ok.definition
  have same : row.definitionId = chunk.definitionId := by
    rw [s.row]
    rfl
  refine ⟨definition, same ▸ known, ?_, s.terminals_length.trans terminals,
    s.parameters_length.trans parameters⟩
  rw [definitionOf, found, Option.bind_some, same, known]

theorem mem_incidences {on : WireId → Bool} {device : DeviceId} {c : DeviceComponent} :
    c ∈ self.incidences registry on device ↔ c.device = device ∧ ∃ t wire definition,
      self.attachedWire device t = some wire ∧ on wire = true ∧
        self.definitionOf registry device = some definition ∧
        definition.terminalPartitions[t]? = some c.partition := by
  simp only [incidences, List.mem_filterMap, List.mem_range, incidence, Option.bind_eq_some_iff,
    Option.filter_eq_some_iff, Option.map_eq_some_iff]
  constructor
  · rintro ⟨t, -, wire, ⟨attached, here⟩, definition, known, partition, read, rfl⟩
    exact ⟨rfl, t, wire, definition, attached, here, known, read⟩
  · rintro ⟨rfl, t, wire, definition, attached, here, known, read⟩
    exact ⟨t, lt_of_attachedWire attached, wire, ⟨attached, here⟩, definition, known, c.partition, read,
      rfl⟩

/-! ### How they change -/

theorem incidences_congr {on on' : WireId → Bool} {device : DeviceId}
    (count : next.terminalCount device = self.terminalCount device)
    (definition : next.definitionOf registry device = self.definitionOf registry device)
    (same : ∀ t, (next.attachedWire device t).filter on' = (self.attachedWire device t).filter on) :
    next.incidences registry on' device = self.incidences registry on device := by
  rw [incidences, incidences, count]
  apply List.filterMap_congr
  intro t _
  rw [incidence, incidence, same, definition]

/-- A device's row decides its incidences. -/
theorem incidences_of_record {device : DeviceId} (same : next.record device = self.record device)
    (on : WireId → Bool) : next.incidences registry on device = self.incidences registry on device := by
  apply incidences_congr
  · rw [terminalCount, terminalCount, same]
  · rw [definitionOf, definitionOf, same]
  · intro t
    rw [attachedWire, attachedWire, same]

/-- A device without attached terminals touches nothing. -/
theorem incidences_of_free {on : WireId → Bool} {device : DeviceId}
    (free : ∀ t, self.attachedWire device t = none) : self.incidences registry on device = [] := by
  rw [List.eq_nil_iff_forall_not_mem]
  intro c member
  obtain ⟨-, t, wire, -, attached, -⟩ := mem_incidences.mp member
  simp [free t] at attached

/-- The same devices on the same wires. -/
theorem incidences_on {on on' : WireId → Bool} {device : DeviceId}
    (same : ∀ t wire, self.attachedWire device t = some wire → on' wire = on wire) :
    self.incidences registry on' device = self.incidences registry on device := by
  apply incidences_congr rfl rfl
  intro t
  cases attached : self.attachedWire device t with
  | none => rfl
  | some wire => simp only [Option.filter, same t wire attached]

/-- Terminal `t` is attached to a wire that is `on`, or detached from it. -/
theorem incidences_edit {on : WireId → Bool} {device : DeviceId} {t : Nat} {wire : WireId}
    {definition : DeviceDefinition F} {partition : DevicePartitionId}
    (count : next.terminalCount device = self.terminalCount device)
    (known : self.definitionOf registry device = some definition)
    (known' : next.definitionOf registry device = some definition)
    (read : definition.terminalPartitions[t]? = some partition)
    (without : self.attachedWire device t = none) (with' : next.attachedWire device t = some wire)
    (others : ∀ i, i ≠ t → next.attachedWire device i = self.attachedWire device i) :
    (next.incidences registry on device).Perm
      (if on wire then ⟨device, partition⟩ :: self.incidences registry on device
      else self.incidences registry on device) := by
  have inside : t ∈ List.range (self.terminalCount device) := by
    rw [List.mem_range, ← count]
    exact lt_of_attachedWire with'
  have split : ∀ f : Nat → Option DeviceComponent, ((List.range (self.terminalCount device)).filterMap f).Perm
      ((f t).toList ++ ((List.range (self.terminalCount device)).erase t).filterMap f) := by
    intro f
    refine ((List.perm_cons_erase inside).filterMap f).trans ?_
    rw [List.filterMap_cons]
    cases f t <;> simp
  have rest : ((List.range (self.terminalCount device)).erase t).filterMap (next.incidence registry on device) =
      ((List.range (self.terminalCount device)).erase t).filterMap (self.incidence registry on device) := by
    apply List.filterMap_congr
    intro i member
    have different : i ≠ t := by
      rintro rfl
      exact (List.Nodup.not_mem_erase List.nodup_range) member
    rw [incidence, incidence, others i different, known, known']
  have before : self.incidence registry on device t = none := by rw [incidence, without]; rfl
  have after : next.incidence registry on device t = if on wire then some ⟨device, partition⟩ else none := by
    rw [incidence, with', known', Option.bind_some, read, Option.map_some, Option.filter_some]
    split <;> rfl
  have new := split (next.incidence registry on device)
  rw [rest, after] at new
  have old := split (self.incidence registry on device)
  rw [before, Option.toList_none, List.nil_append] at old
  rw [incidences, incidences, count]
  split at new
  · rename_i here
    rw [if_pos here]
    exact new.trans (old.symm.cons _)
  · rename_i off
    rw [if_neg off]
    exact new.trans old.symm

/-- Two sets of wires without a common one. -/
theorem incidences_union {on on' both : WireId → Bool} (device : DeviceId)
    (union : ∀ wire, both wire = (on wire || on' wire))
    (apart : ∀ wire, ¬ (on wire = true ∧ on' wire = true)) :
    (self.incidences registry both device).Perm
      (self.incidences registry on device ++ self.incidences registry on' device) := by
  rw [incidences, incidences, incidences]
  induction List.range (self.terminalCount device) with
  | nil => exact .refl _
  | cons t ts ih =>
    rw [List.filterMap_cons, List.filterMap_cons, List.filterMap_cons]
    cases attached : self.attachedWire device t with
    | none =>
      have off : ∀ which, self.incidence registry which device t = none := by
        intro which
        rw [incidence, attached]
        rfl
      rw [off, off, off]
      exact ih
    | some wire =>
      have value : ∀ which : WireId → Bool, self.incidence registry which device t =
          if which wire then (self.definitionOf registry device).bind fun definition =>
            definition.terminalPartitions[t]?.map (DeviceComponent.mk device) else none := by
        intro which
        rw [incidence, attached, Option.filter_some]
        split <;> rfl
      rw [value, value, value, union]
      cases found : (self.definitionOf registry device).bind fun definition =>
          definition.terminalPartitions[t]?.map (DeviceComponent.mk device) with
      | none => simpa using ih
      | some c =>
        have := apart wire
        cases first : on wire <;> cases second : on' wire
        · simpa using ih
        · simpa using (ih.cons c).trans List.perm_middle.symm
        · simpa using ih.cons c
        · simp_all

/-! ### The terminals a wire lists -/

variable [F64 F]

theorem terminalComponent_eq (h : Stored registry self) (device : DeviceId) (terminal : TerminalId) :
    terminalComponent registry self device terminal =
      (self.definitionOf registry device).bind fun definition =>
        definition.terminalPartitions[terminal.index]?.map (DeviceComponent.mk device) := by
  rw [terminalComponent, definitionIdOf_eq h, definitionOf]
  cases self.record device with
  | none => rfl
  | some row =>
    rw [Option.map_some, bind_of_eq_some rfl, Option.bind_some]
    cases registry.get row.definitionId with
    | none => rfl
    | some definition =>
      rw [bind_of_eq_some rfl, Option.bind_some]
      cases definition.terminalPartitions[terminal.index]? <;> rfl

/-- The component of a terminal; only meaningful where there is one. -/
def componentAt (registry : DefinitionRegistry F) (self : Network F) (terminal : DeviceId × TerminalId) :
    DeviceComponent :=
  (terminalComponent registry self terminal.1 terminal.2).getD ⟨terminal.1, ⟨0, by decide⟩⟩

omit [F64 F] in
theorem attachedWire_of_listed (h : Consistent registry self) {wire : WireId} {slot : WireSlot}
    (live : self.wireSlot wire = some slot) {device : DeviceId} {terminal : TerminalId}
    (fits : terminal.id < 2 ^ 31) :
    .terminal device terminal fits ∈ slot ↔ self.attachedWire device terminal.index = some wire := by
  rw [h.wire_symm live, attachedWire_eq_some]
  rfl

theorem component_of_attached (h : Stored registry self) (partitioned : registry.Partitioned)
    {device : DeviceId} {terminal : TerminalId} {wire : WireId}
    (attached : self.attachedWire device terminal.index = some wire) :
    ∃ definition partition, self.definitionOf registry device = some definition ∧
      definition.terminalPartitions[terminal.index]? = some partition ∧
      terminalComponent registry self device terminal = some ⟨device, partition⟩ := by
  obtain ⟨row, found, read⟩ := attachedWire_eq_some.mp attached
  obtain ⟨definition, known, defined, length, -⟩ := definition_of_record h found
  have inside : terminal.index < definition.terminalPartitions.length := by
    rw [(partitioned _ _ known).length, ← length]
    exact (List.getElem?_eq_some_iff.mp read).1
  refine ⟨definition, _, defined, List.getElem?_eq_getElem inside, ?_⟩
  rw [terminalComponent_eq h, defined, Option.bind_some, List.getElem?_eq_getElem inside, Option.map_some]

/-- The terminals of one device in a slot. -/
def slotTerminals (slot : WireSlot) (device : DeviceId) : List Nat :=
  slot.filterMap fun connection =>
    connection.asTerminal.bind fun terminal => if terminal.1 = device then some terminal.2.index else none

omit [F64 F] in
theorem mem_slotTerminals (h : Consistent registry self) {wire : WireId} {slot : WireSlot}
    (live : self.wireSlot wire = some slot) {device : DeviceId} {t : Nat} :
    t ∈ slotTerminals slot device ↔ self.attachedWire device t = some wire := by
  simp only [slotTerminals, List.mem_filterMap, Option.bind_eq_some_iff, Prod.exists,
    ConnectionRef.asTerminal_eq_some]
  constructor
  · rintro ⟨_, member, other, terminal, ⟨fits, rfl⟩, read⟩
    split at read
    · rename_i same
      obtain rfl := Option.some.inj read
      subst same
      exact (attachedWire_of_listed h live fits).mp member
    · simp at read
  · intro attached
    obtain ⟨row, found, read⟩ := attachedWire_eq_some.mp attached
    obtain ⟨-, fits⟩ := h.toWires device row t _ found read
    let terminal : TerminalId := ⟨t, fits.trans (by decide)⟩
    refine ⟨.terminal device terminal fits, (attachedWire_of_listed h live fits).mpr attached, device,
      terminal, ⟨fits, rfl⟩, by rw [if_pos rfl]⟩

omit [F64 F] in
theorem nodup_slotTerminals {slot : WireSlot} (nodup : slot.Nodup) (device : DeviceId) :
    (slotTerminals slot device).Nodup := by
  apply List.Nodup.filterMap _ nodup
  intro x y t hx hy
  simp only [Option.mem_def, Option.bind_eq_some_iff, Prod.exists, ConnectionRef.asTerminal_eq_some] at hx hy
  obtain ⟨d, terminal, ⟨fits, rfl⟩, hx⟩ := hx
  obtain ⟨d', terminal', ⟨fits', rfl⟩, hy⟩ := hy
  split at hx
  · split at hy
    · rename_i same same'
      subst same same'
      obtain rfl := Id.ext' ((Option.some.inj hx).trans (Option.some.inj hy).symm)
      rfl
    · simp at hy
  · simp at hx

/-- The components of a wire's terminals are its incidences, device by device. -/
theorem wireTerminals_spec (h : Consistent registry self) (partitioned : registry.Partitioned)
    {wire : WireId} {slot : WireSlot} (live : self.wireSlot wire = some slot) :
    ∃ found, wireTerminals registry self wire = some found ∧ ∀ device,
      (found.filter fun c => c.device = device).Perm
        (self.incidences registry (fun other => other = wire) device) := by
  have read : ∀ terminal ∈ slot.filterMap ConnectionRef.asTerminal,
      terminalComponent registry self terminal.1 terminal.2 =
        some (self.componentAt registry terminal) ∧ (self.componentAt registry terminal).device = terminal.1 := by
    rintro ⟨device, terminal⟩ member
    obtain ⟨connection, listed, at'⟩ := List.mem_filterMap.mp member
    obtain ⟨fits, rfl⟩ := ConnectionRef.asTerminal_eq_some.mp at'
    obtain ⟨definition, partition, -, -, found⟩ :=
      component_of_attached h.toStored partitioned ((attachedWire_of_listed h live fits).mp listed)
    exact ⟨by rw [componentAt, found, Option.getD_some], by rw [componentAt, found, Option.getD_some]⟩
  refine ⟨(slot.filterMap ConnectionRef.asTerminal).map (self.componentAt registry), ?_, ?_⟩
  · rw [wireTerminals, connectionsOf_eq, bind_of_eq_some live]
    exact mapM_eq_some fun terminal member => (read terminal member).1
  · intro device
    -- both sides list the device's terminals on the wire, each as its component
    have value : ∀ t, self.attachedWire device t = some wire →
        self.incidence registry (fun other => other = wire) device t =
          (self.definitionOf registry device).bind fun definition =>
            definition.terminalPartitions[t]?.map (DeviceComponent.mk device) := by
      intro t attached
      rw [incidence, attached, Option.filter_some, if_pos (by simp), Option.bind_some]
    have ours : ∀ l : List ConnectionRef, (∀ connection ∈ l, connection ∈ slot) →
        (((l.filterMap ConnectionRef.asTerminal).map (self.componentAt registry)).filter
          fun c => c.device = device) =
        (slotTerminals l device).filterMap
          (self.incidence registry (fun other => other = wire) device) := by
      intro l listed
      induction l with
      | nil => rfl
      | cons connection l ih =>
        have rest := ih fun c member => listed c (List.mem_cons_of_mem _ member)
        cases connection with
        | wire other => exact rest
        | terminal d terminal fits =>
          have member := listed _ List.mem_cons_self
          obtain ⟨component, at'⟩ := read (d, terminal)
            (List.mem_filterMap.mpr ⟨_, member, rfl⟩)
          by_cases same : d = device
          · subst same
            have attached := (attachedWire_of_listed h live fits).mp member
            simp only [slotTerminals, List.filterMap_cons, ConnectionRef.asTerminal, List.map_cons,
              Option.bind_some, if_true] at rest ⊢
            rw [value _ attached, ← terminalComponent_eq h.toStored, component,
              List.filter_cons_of_pos (by simp [at']), rest]
          · simp only [slotTerminals, List.filterMap_cons, ConnectionRef.asTerminal, List.map_cons,
              Option.bind_some, if_neg same] at rest ⊢
            rw [List.filter_cons_of_neg (by simpa [at'] using same)]
            exact rest
    have theirs : self.incidences registry (fun other => other = wire) device =
        ((List.range (self.terminalCount device)).filter fun t =>
          self.attachedWire device t = some wire).filterMap
            (self.incidence registry (fun other => other = wire) device) := by
      rw [incidences, List.filterMap_filter]
      apply List.filterMap_congr
      intro t _
      by_cases attached : self.attachedWire device t = some wire
      · rw [if_pos (by simpa using attached)]
      · rw [if_neg (by simpa using attached), incidence]
        cases other : self.attachedWire device t with
        | none => rfl
        | some w =>
          rw [Option.filter_some, if_neg]
          · rfl
          · rintro same
            exact attached (other.trans (congrArg some (of_decide_eq_true same)))
    rw [ours slot fun _ member => member, theirs]
    apply List.Perm.filterMap
    rw [List.perm_ext_iff_of_nodup (nodup_slotTerminals (h.nodup wire slot live) device)
      (List.nodup_range.filter _)]
    intro t
    rw [mem_slotTerminals h live, List.mem_filter, List.mem_range, decide_eq_true_eq]
    exact ⟨fun attached => ⟨lt_of_attachedWire attached, attached⟩, And.right⟩

/-- The terminals of several wires together. -/
theorem wiresTerminals_spec (h : Consistent registry self) (partitioned : registry.Partitioned)
    {wires : List WireId} (nodup : wires.Nodup)
    (live : ∀ wire ∈ wires, ∃ slot, self.wireSlot wire = some slot) :
    ∃ found, wires.mapM (wireTerminals registry self) = some found ∧ ∀ device,
      (found.flatten.filter fun c => c.device = device).Perm
        (self.incidences registry (fun wire => wire ∈ wires) device) := by
  induction wires with
  | nil =>
    refine ⟨[], rfl, fun device => ?_⟩
    have none' : self.incidences registry (fun wire => decide (wire ∈ ([] : List WireId))) device = [] := by
      rw [List.eq_nil_iff_forall_not_mem]
      intro c member
      obtain ⟨-, _, _, _, -, here, -⟩ := mem_incidences.mp member
      simp at here
    rw [none']
    exact .refl _
  | cons wire wires ih =>
    obtain ⟨fresh, nodup⟩ := List.nodup_cons.mp nodup
    obtain ⟨slot, hs⟩ := live wire List.mem_cons_self
    obtain ⟨ours, run, here⟩ := wireTerminals_spec h partitioned hs
    obtain ⟨others, runs, there⟩ := ih nodup fun w member => live w (List.mem_cons_of_mem _ member)
    refine ⟨ours :: others, ?_, fun device => ?_⟩
    · rw [List.mapM_cons, bind_of_eq_some run, bind_of_eq_some runs]
      rfl
    · rw [List.flatten_cons, List.filter_append]
      refine ((here device).append (there device)).trans
        (incidences_union device (fun w => ?_) fun w => ?_).symm
      · simp
      · rintro ⟨same, member⟩
        obtain rfl := of_decide_eq_true same
        exact fresh (of_decide_eq_true member)

end Network

end Hynergy
