import Hynergy.Compile.Instantiation

/-!
# A builder made of parts

What a builder holds that templates were instantiated into: the stamps of the parts in order, unknowns for the nodes
they share and for their own.
-/

namespace Hynergy

open Lib DefinitionTemplateBuilder

variable {F : Type} [F64 F] {before after builder : DefinitionTemplateBuilder F} {parts : List (Part F)} {part : Part F}
  {nodes : List Nat}

structure Assembled (builder : DefinitionTemplateBuilder F) (parts : List (Part F)) (nodes : List Nat) : Prop where
  sound : builder.Sound
  placed : ∀ part ∈ parts, part.Sound
  holds : ∀ part ∈ parts, builder.stamps.Holds part
  inside : ∀ part ∈ parts, ∀ i < part.stamps.nodes.length, part.placement.value i < builder.values.length
  matrix : builder.matrixTerms = parts.flatMap Part.matrix
  rhs : builder.rhsTerms = parts.flatMap Part.rhs
  latches : builder.iterationLatches = parts.flatMap fun part => part.stamps.latches.map part.placement.latch
  unknowns : (nodes ++ parts.flatMap Part.own).Perm (List.range builder.unknowns.length)
  terminals : ∀ part ∈ parts, ∀ unknown ∈ part.placement.terminals, unknown.index ∈ nodes
  own : ∀ part ∈ parts, ∀ u ∈ part.own, ∃ info, builder.unknowns[u]? = some info ∧ info.terminal? = none
  writes : ∀ (s : Nat) value, builder.stateWrites[s]? = some (some value) ↔ ∃ part ∈ parts, (⟨s⟩, value) ∈ part.writes

/-- The values that a part needs stay when more are made. -/
theorem Stamps.Holds.grow (holds : before.stamps.Holds part) (grown : before.values <+: after.values) :
    after.stamps.Holds part where
  evaluates reading values evaluates := holds.evaluates reading values (evaluates_grown grown evaluates)
  latch i initial read := read_grown grown (holds.latch i initial read)
  arguments id member := (holds.arguments id member).imp (fun ⟨c, read⟩ => ⟨c, read_grown grown read⟩)
    fun ⟨p, read⟩ => ⟨p, read_grown grown read⟩

omit [F64 F] in
theorem mem_stamps_writes {entry : LocalStateId × LocalValueId} :
    entry ∈ builder.stamps.writes ↔ builder.stateWrites[entry.1.index]? = some (some entry.2) := by
  constructor
  · intro member
    obtain ⟨⟨slot, s⟩, listed, isEntry⟩ := List.mem_filterMap.mp member
    obtain ⟨value, rfl, rfl⟩ := Option.map_eq_some_iff.mp isEntry
    exact List.mem_zipIdx_iff_getElem?.mp listed
  · intro read
    exact List.mem_filterMap.mpr ⟨(some entry.2, entry.1.index), List.mem_zipIdx_iff_getElem?.mpr read, rfl⟩

namespace Assembled

/-- Nothing is assembled yet. -/
theorem empty (sound : builder.Sound) (matrix : builder.matrixTerms = []) (rhs : builder.rhsTerms = [])
    (latches : builder.iterationLatches = []) (writes : ∀ slot ∈ builder.stateWrites, slot = none) :
    Assembled builder [] (List.range builder.unknowns.length) := by
  refine ⟨sound, by simp, by simp, by simp, matrix, rhs, latches, by simp, by simp, by simp, fun s value => ?_⟩
  refine iff_of_false (fun read => ?_) (by simp)
  cases writes _ (List.mem_of_getElem? read)

/-- Making values and nodes leaves the parts as they are. -/
theorem grow (h : Assembled before parts nodes) (sound : after.Sound) (values : before.values <+: after.values)
    {more : List LocalUnknownInfo} (unknowns : after.unknowns = before.unknowns ++ more)
    (stamps : after.matrixTerms = before.matrixTerms ∧ after.rhsTerms = before.rhsTerms ∧
      after.iterationLatches = before.iterationLatches ∧ after.stateWrites = before.stateWrites) :
    Assembled after parts (nodes ++ List.range' before.unknowns.length more.length) := by
  obtain ⟨matrix, rhs, latches, writes⟩ := stamps
  refine ⟨sound, h.placed, fun part member => (h.holds part member).grow values,
    fun part member i below => (h.inside part member i below).trans_le values.length_le, matrix.trans h.matrix,
    rhs.trans h.rhs, latches.trans h.latches, ?_, fun part member unknown there => List.mem_append_left _
    (h.terminals part member unknown there), fun part member u there => ?_, writes ▸ h.writes⟩
  · rw [unknowns, List.length_append, List.range_eq_range', List.range'_append_1.symm, Nat.zero_add]
    refine List.Perm.trans ?_ ((List.range_eq_range' ▸ h.unknowns).append_right _)
    rw [List.append_assoc, List.append_assoc]
    exact List.perm_append_comm.append_left _
  · obtain ⟨info, read, free⟩ := h.own part member u there
    exact ⟨info, by rw [unknowns, List.getElem?_append_left (List.getElem?_eq_some_iff.mp read).1, read], free⟩

/-- A template that was instantiated is a part more. -/
theorem instantiate (h : Assembled before parts nodes) (there : Instantiated before part after)
    (arguments : ∀ id ∈ part.placement.parameters, (∃ c, before.stamps.nodes[id.index]? = some (.constant c)) ∨
      ∃ p, before.stamps.nodes[id.index]? = some (.parameter p))
    (terminals : ∀ unknown ∈ part.placement.terminals, unknown.index ∈ nodes)
    (distinct : (part.writes.map (·.1.index)).Nodup)
    (unwritten : ∀ entry ∈ part.writes, before.stateWrites[entry.1.index]? = some none) :
    Assembled after (parts ++ [part]) nodes := by
  have each : ∀ {P : Part F → Prop}, (∀ part ∈ parts, P part) → P part → ∀ other ∈ parts ++ [part], P other := by
    intro P earlier last other member
    rcases List.mem_append.mp member with old | new
    · exact earlier other old
    · exact List.mem_singleton.mp new ▸ last
  obtain ⟨new, unknowns, free, own⟩ := there.unknowns
  refine ⟨there.sound, each h.placed there.placed,
    each (fun other member => (h.holds other member).grow there.grown)
      ⟨there.evaluates, there.latch, fun id member => (arguments id member).imp
        (fun ⟨c, read⟩ => ⟨c, read_grown there.grown read⟩) fun ⟨p, read⟩ => ⟨p, read_grown there.grown read⟩⟩,
    each (fun other member i below => (h.inside other member i below).trans_le there.grown.length_le) there.inside,
    ?_, ?_, ?_, ?_, each h.terminals terminals, each (fun other member u isOwn => ?_) (fun u isOwn => ?_), fun s value => ?_⟩
  · rw [there.matrix, h.matrix, List.flatMap_append, List.flatMap_singleton]
  · rw [there.rhs, h.rhs, List.flatMap_append, List.flatMap_singleton]
  · rw [there.latches, h.latches, List.flatMap_append, List.flatMap_singleton]
  · rw [unknowns, List.flatMap_append, List.flatMap_singleton, own, List.length_append, List.range_eq_range',
      List.range'_append_1.symm, Nat.zero_add, ← List.append_assoc]
    exact (List.range_eq_range' ▸ h.unknowns).append_right _
  · obtain ⟨info, read, isFree⟩ := h.own other member u isOwn
    exact ⟨info, by rw [unknowns, List.getElem?_append_left (List.getElem?_eq_some_iff.mp read).1, read], isFree⟩
  · rw [own, List.mem_range'_1] at isOwn
    have inside : u - before.unknowns.length < new.length := by omega
    refine ⟨new[u - before.unknowns.length], ?_, free _ (List.getElem_mem inside)⟩
    rw [unknowns, List.getElem?_append_right isOwn.1, List.getElem?_eq_getElem inside]
  · rw [there.writes]
    constructor
    · intro read
      by_cases written : s ∈ part.writes.map (·.1.index)
      · obtain ⟨⟨⟨slot⟩, source⟩, member, rfl⟩ := List.mem_map.mp written
        have inside := (List.getElem?_eq_some_iff.mp (unwritten _ member)).1
        have := writeAll_written distinct member inside
        obtain rfl := Option.some.inj (Option.some.inj (this.symm.trans read))
        exact ⟨part, by simp, member⟩
      · rw [writeAll_other written] at read
        obtain ⟨other, member, listed⟩ := (h.writes s value).mp read
        exact ⟨other, List.mem_append_left _ member, listed⟩
    · rintro ⟨other, member, listed⟩
      rcases List.mem_append.mp member with old | last
      · have read := (h.writes s value).mpr ⟨other, old, listed⟩
        rwa [writeAll_other]
        intro again
        obtain ⟨⟨⟨slot⟩, source⟩, listed', rfl⟩ := List.mem_map.mp again
        cases read.symm.trans (unwritten _ listed')
      · obtain rfl := List.mem_singleton.mp last
        exact writeAll_written distinct listed (List.getElem?_eq_some_iff.mp (unwritten _ listed)).1

/-- A builder that was assembled is made of its parts. -/
theorem madeOf (h : Assembled builder parts nodes) {sources : List OutputSource}
    (counted : builder.outputs.length = sources.length)
    (outputs : ∀ (j : Nat) value source, builder.outputs[j]? = some value → sources[j]? = some source →
      builder.stamps.Shows parts nodes value source) : builder.stamps.MadeOf parts nodes sources := by
  refine ⟨h.placed, h.holds, h.matrix, h.rhs, ?_, ?_, fun entry => ?_, h.unknowns, h.terminals, h.own, counted, outputs⟩
  · show builder.iterationLatches.filterMap finishLatch = _
    rw [h.latches, List.filterMap_flatMap]
    refine List.flatMap_congr fun part _ => ?_
    rw [List.filterMap_map]
    exact congrFun List.filterMap_eq_map _
  · rw [← h.sound.latched, h.latches, List.map_flatMap]
    refine List.flatMap_congr fun part member => ?_
    rw [Part.latchPlaces, ← (h.placed part member).latched, List.map_map, List.map_map]
    rfl
  · rw [← h.writes]
    exact mem_stamps_writes

end Assembled

end Hynergy
