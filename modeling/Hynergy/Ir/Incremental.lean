import Mathlib.Data.Finset.Card
import Hynergy.Ir.Stages
import Hynergy.Lib.Buckets
import Hynergy.Lib.Word

/-!
# Incremental iterations

A plan lists the iteration operations that use each value. Operations whose inputs changed are
marked in a bit mask, and the marks are drained from the lowest on; an operation that ran marks
the users of its value.
-/

namespace Hynergy

open Lib

variable {F : Type}

structure IterationDependencyPlan where
  offsets : List Nat
  dependentOps : List Nat
  operationCount : Nat

structure IterationScratch where
  dirtyWords : List (BitVec 64)
  pendingCount : Nat
  operationCount : Nat

namespace IterationDependencyPlan

def newScratch (self : IterationDependencyPlan) : IterationScratch :=
  { dirtyWords := List.replicate ((self.operationCount + 63) / 64) 0
    pendingCount := 0
    operationCount := self.operationCount }

def markUser (scratch : IterationScratch) (operation : Nat) : Option IterationScratch := do
  let word ← scratch.dirtyWords[operation / 64]?
  if word &&& bit (operation % 64) = 0 then
    some { scratch with
      dirtyWords := scratch.dirtyWords.set (operation / 64) (word ||| bit (operation % 64))
      pendingCount := scratch.pendingCount + 1 }
  else some scratch

def markUsers (self : IterationDependencyPlan) (value : ValueSlot) (scratch : IterationScratch) :
    Option IterationScratch := do
  let start ← self.offsets[value.index]?
  let stop ← self.offsets[value.index + 1]?
  if start ≤ stop ∧ stop ≤ self.dependentOps.length then
    ((self.dependentOps.take stop).drop start).foldlM markUser scratch
  else none

/-- The scratch must match the plan. -/
def markInput (self : IterationDependencyPlan) (input : InputSlot) (scratch : IterationScratch) :
    Option IterationScratch :=
  if self.operationCount = scratch.operationCount then self.markUsers input.value scratch else none

end IterationDependencyPlan

namespace ValueProgram

/-- Every dependency of an iteration operation, with the operation. -/
def iterationUses (self : ValueProgram F) : List (Nat × Nat) :=
  self.iterationOps.zipIdx.flatMap fun entry => entry.1.dependencies.map fun source => (source.index, entry.2)

/-- Counts, offsets and operation indices are `u32`. -/
def compileIterationDependencies (self : ValueProgram F) : Option IterationDependencyPlan := do
  let placed ← Buckets.layout (2 ^ 32) self.valueCount self.iterationUses
  if self.iterationOps.length ≤ 2 ^ 32 then some ⟨placed.1, placed.2, self.iterationOps.length⟩ else none

end ValueProgram

/-- What draining the marks changes. -/
structure Drain (F : Type) where
  values : List F
  scratch : IterationScratch
  executed : Nat

namespace ValueProgram

variable [F64 F]

/-- The lowest mark of the word is cleared, its operation runs and the users of its value are marked. -/
def drainMark (self : ValueProgram F) (plan : IterationDependencyPlan) (wordIndex : Nat) (word : BitVec 64)
    (state : Drain F) : Option (Drain F) := do
  let index := wordIndex * 64 + word.ctz.toNat
  let words := state.scratch.dirtyWords.set wordIndex (word &&& ~~~bit word.ctz.toNat)
  let pending ← if 0 < state.scratch.pendingCount then some (state.scratch.pendingCount - 1) else none
  let op ← self.iterationOps[index]?
  let values ← op.execute state.values
  let scratch ← plan.markUsers op.destination { state.scratch with dirtyWords := words, pendingCount := pending }
  some { values, scratch, executed := state.executed + 1 }

/-- `while dirty_words[word_index] != 0`; the fuel bounds the marks drained from the word. -/
def drainWord (self : ValueProgram F) (plan : IterationDependencyPlan) (wordIndex : Nat) :
    Nat → Drain F → Option (Drain F)
  | fuel, state => do
    let word ← state.scratch.dirtyWords[wordIndex]?
    if word = 0 then some state
    else match fuel with
      | 0 => none
      | fuel + 1 => do
        let state ← self.drainMark plan wordIndex word state
        self.drainWord plan wordIndex fuel state

/-- The workspace, the scratch and the number of operations executed. -/
def executeIterationIncremental (self : ValueProgram F) (plan : IterationDependencyPlan)
    (workspace : ValueWorkspace F) (scratch : IterationScratch) :
    Option (ValueWorkspace F × IterationScratch × Nat) :=
  if workspace.values.length = self.initialValues.length ∧ self.valueCount + 1 = plan.offsets.length ∧
      self.iterationOps.length = plan.operationCount ∧ plan.operationCount = scratch.operationCount then
    if scratch.pendingCount = 0 then some (workspace, scratch, 0)
    else if (self.iterationOps.length + 3) / 4 ≤ scratch.pendingCount then do
      let values ← executeOps self.iterationOps workspace.values
      some (⟨values⟩, { scratch with
        dirtyWords := List.replicate scratch.dirtyWords.length 0
        pendingCount := 0 }, self.iterationOps.length)
    else do
      let state ← (List.range scratch.dirtyWords.length).foldlM
        (fun state wordIndex => self.drainWord plan wordIndex 64 state) ⟨workspace.values, scratch, 0⟩
      some (⟨state.values⟩, state.scratch, state.executed)
  else none

end ValueProgram

/-! ### The marks as a set -/

/-- The scratch stands for a set of operations. -/
structure IterationScratch.Represents (count : Nat) (scratch : IterationScratch) (dirty : Finset Nat) : Prop where
  words : scratch.dirtyWords.length = (count + 63) / 64
  operations : scratch.operationCount = count
  marks : ∀ i, marked scratch.dirtyWords i = true ↔ i ∈ dirty
  pending : scratch.pendingCount = dirty.card
  inside : ∀ i ∈ dirty, i < count

namespace IterationScratch.Represents

variable {count : Nat} {scratch : IterationScratch} {dirty : Finset Nat}

theorem word (h : Represents count scratch dirty) {i : Nat} (inside : i < count) :
    ∃ word, scratch.dirtyWords[i / 64]? = some word ∧ (word.getLsbD (i % 64) = true ↔ i ∈ dirty) := by
  have bound : i / 64 < scratch.dirtyWords.length := by
    rw [h.words]
    omega
  have read := List.getElem?_eq_getElem bound
  refine ⟨_, read, ?_⟩
  rw [← h.marks i, marked_of_word read]

/-- Without marks the scratch is a new one. -/
theorem eq_new (h : Represents count scratch ∅) {plan : IterationDependencyPlan} (belongs : plan.operationCount = count) :
    scratch = plan.newScratch := by
  obtain ⟨words, pending, operations⟩ := scratch
  have blank := @eq_replicate_of_unmarked words fun i => by
    rw [Bool.eq_false_iff]
    exact fun set => by simpa using (h.marks i).mp set
  have length : words.length = (count + 63) / 64 := h.words
  have zero : pending = 0 := h.pending
  have same : operations = count := h.operations
  rw [IterationDependencyPlan.newScratch, belongs, ← length, ← blank, zero, same]

theorem new {plan : IterationDependencyPlan} (belongs : plan.operationCount = count) :
    Represents count plan.newScratch ∅ := by
  refine ⟨by simp [IterationDependencyPlan.newScratch, belongs], belongs, fun i => ?_, rfl, by simp⟩
  rw [IterationDependencyPlan.newScratch, marked_replicate]
  simp

theorem cleared (h : Represents count scratch dirty) : Represents count { scratch with
    dirtyWords := List.replicate scratch.dirtyWords.length 0
    pendingCount := 0 } ∅ := by
  refine ⟨by simp [h.words], h.operations, fun i => ?_, rfl, by simp⟩
  rw [marked_replicate]
  simp

theorem mark (h : Represents count scratch dirty) {operation : Nat} (inside : operation < count) :
    ∃ next, IterationDependencyPlan.markUser scratch operation = some next ∧
      Represents count next (insert operation dirty) := by
  obtain ⟨word, read, set⟩ := h.word inside
  unfold IterationDependencyPlan.markUser
  rw [bind_of_eq_some read]
  have isSet := and_bit_ne_zero (Nat.mod_lt operation (by decide)) word
  split
  · rename_i unmarked
    have fresh : operation ∉ dirty := fun there => (isSet.mpr (set.mpr there)) unmarked
    refine ⟨_, rfl, by simp [h.words], h.operations, fun i => ?_, ?_, fun i member => ?_⟩
    · rw [marked_or read, Bool.or_eq_true, decide_eq_true_eq, h.marks, Finset.mem_insert, or_comm]
    · rw [Finset.card_insert_of_notMem fresh]
      exact congrArg (· + 1) h.pending
    · rcases Finset.mem_insert.mp member with rfl | there
      · exact inside
      · exact h.inside i there
  · rename_i already
    have there : operation ∈ dirty := set.mp (isSet.mp already)
    rw [Finset.insert_eq_of_mem there]
    exact ⟨scratch, rfl, h⟩

theorem markAll (h : Represents count scratch dirty) {operations : List Nat} (inside : ∀ i ∈ operations, i < count) :
    ∃ next, operations.foldlM IterationDependencyPlan.markUser scratch = some next ∧
      Represents count next (dirty ∪ operations.toFinset) := by
  induction operations generalizing scratch dirty with
  | nil => exact ⟨scratch, rfl, by simpa using h⟩
  | cons i rest ih =>
    obtain ⟨mid, first, h'⟩ := h.mark (inside i List.mem_cons_self)
    obtain ⟨next, run, h''⟩ := ih h' fun j member => inside j (List.mem_cons_of_mem _ member)
    refine ⟨next, ?_, ?_⟩
    · rw [List.foldlM_cons, bind_of_eq_some first, run]
    · rwa [List.toFinset_cons, Finset.union_insert, ← Finset.insert_union]

theorem blank (h : Represents count scratch dirty) {w : Nat} (read : scratch.dirtyWords[w]? = some 0) :
    ∀ i ∈ dirty, i / 64 ≠ w := by
  rintro i member rfl
  rw [← h.marks, marked_of_word read] at member
  exact absurd (member.symm.trans BitVec.getLsbD_zero) (by decide)

/-- The lowest bit of a word is the first mark from the word on. -/
theorem lowest (h : Represents count scratch dirty) {w : Nat} {word : BitVec 64}
    (read : scratch.dirtyWords[w]? = some word) (nonzero : word ≠ 0) :
    w * 64 + word.ctz.toNat ∈ dirty ∧ ∀ i ∈ dirty, w * 64 ≤ i → w * 64 + word.ctz.toNat ≤ i := by
  obtain ⟨small, set, least⟩ := ctz_spec nonzero
  have bits : ∀ i, i / 64 = w → (i ∈ dirty ↔ word.getLsbD (i % 64) = true) := by
    rintro i rfl
    rw [← h.marks, marked_of_word read]
  constructor
  · rw [bits _ (by omega), show (w * 64 + word.ctz.toNat) % 64 = word.ctz.toNat by omega]
    exact set
  · intro i member above
    by_cases here : i / 64 = w
    · have := least _ ((bits i here).mp member)
      omega
    · omega

/-- The lowest mark of a word is cleared. -/
theorem clear (h : Represents count scratch dirty) {operation : Nat} (there : operation ∈ dirty) {word : BitVec 64}
    (read : scratch.dirtyWords[operation / 64]? = some word) :
    0 < scratch.pendingCount ∧ Represents count { scratch with
      dirtyWords := scratch.dirtyWords.set (operation / 64) (word &&& ~~~bit (operation % 64))
      pendingCount := scratch.pendingCount - 1 } (dirty.erase operation) := by
  refine ⟨h.pending ▸ Finset.card_pos.mpr ⟨_, there⟩, by simp [h.words], h.operations, fun i => ?_, ?_, fun i member => ?_⟩
  · rw [marked_andNot read, Bool.and_eq_true, decide_eq_true_eq, h.marks, Finset.mem_erase, and_comm]
  · rw [Finset.card_erase_of_mem there, ← h.pending]
  · exact h.inside i (Finset.mem_of_mem_erase member)

end IterationScratch.Represents

/-! ### The plan -/

/-- The plan was compiled from the program. -/
structure IterationDependencyPlan.Compiled (program : ValueProgram F) (plan : IterationDependencyPlan) : Prop where
  layout : Buckets.Layout program.valueCount program.iterationUses plan.offsets plan.dependentOps
  operations : plan.operationCount = program.iterationOps.length

section Plan

variable {program : ValueProgram F} {plan : IterationDependencyPlan}

theorem ValueProgram.mem_iterationUses {k i : Nat} : (k, i) ∈ program.iterationUses ↔
    ∃ op, program.iterationOps[i]? = some op ∧ ∃ source ∈ op.dependencies, source.index = k := by
  simp only [iterationUses, List.mem_flatMap, List.mem_map, Prod.exists, List.mem_zipIdx_iff_getElem?,
    Prod.mk.injEq]
  constructor
  · rintro ⟨op, _, read, source, dep, rfl, rfl⟩
    exact ⟨op, read, source, dep, rfl⟩
  · rintro ⟨op, read, source, dep, rfl⟩
    exact ⟨op, i, read, source, dep, rfl, rfl⟩

theorem ValueProgram.iterationOps_le_uses : program.iterationOps.length ≤ program.iterationUses.length := by
  rw [iterationUses, List.length_flatMap]
  refine le_trans (le_of_eq ?_) (List.length_le_sum_of_one_le _ fun n member => ?_)
  · rw [List.length_map, List.length_zipIdx]
  · obtain ⟨⟨op, i⟩, -, rfl⟩ := List.mem_map.mp member
    rw [List.length_map]
    cases op <;> simp [ValueOp.dependencies]

theorem ValueProgram.compile_returns (inRange : ∀ op ∈ program.iterationOps, op.InRange program.valueCount) :
    Returns (2 ^ 32 ≤ program.iterationUses.length) program.compileIterationDependencies
      fun plan => plan.Compiled program := by
  have keys : ∀ entry ∈ program.iterationUses, entry.1 < program.valueCount := by
    rintro ⟨k, i⟩ member
    obtain ⟨op, read, source, dep, rfl⟩ := mem_iterationUses.mp member
    exact (inRange op (List.mem_of_getElem? read)).dependencies source dep
  refine (Buckets.layout_returns keys).bind fun placed layout => ?_
  split
  · exact Returns.of_eq_some rfl ⟨layout, rfl⟩
  · rename_i many
    exact (Nat.le_of_lt (Nat.lt_of_not_le many)).trans iterationOps_le_uses

theorem IterationDependencyPlan.Compiled.markUsers (h : plan.Compiled program) {value : ValueSlot}
    (known : value.index < program.valueCount) {scratch : IterationScratch} {dirty : Finset Nat}
    (marks : scratch.Represents program.iterationOps.length dirty) :
    ∃ next dirty', plan.markUsers value scratch = some next ∧
      next.Represents program.iterationOps.length dirty' ∧
      ∀ j, j ∈ dirty' ↔ j ∈ dirty ∨ (value.index, j) ∈ program.iterationUses := by
  obtain ⟨start, stop, first, last, le, fits, users⟩ := h.layout.bucket value.index known
  have inside : ∀ j ∈ Buckets.bucket program.iterationUses value.index, j < program.iterationOps.length := by
    intro j member
    obtain ⟨op, read, -⟩ := ValueProgram.mem_iterationUses.mp (Buckets.mem_bucket.mp member)
    exact (List.getElem?_eq_some_iff.mp read).1
  obtain ⟨next, run, marks'⟩ := marks.markAll inside
  refine ⟨next, _, ?_, marks', fun j => ?_⟩
  · unfold IterationDependencyPlan.markUsers
    rw [bind_of_eq_some first, bind_of_eq_some last, if_pos ⟨le, fits⟩, users]
    exact run
  · rw [Finset.mem_union, List.mem_toFinset, Buckets.mem_bucket]

end Plan

/-! ### Draining -/

open ValueOp (machine)

section Drain

variable [F64 F] {program : ValueProgram F} {plan : IterationDependencyPlan} {start : List F} {state : Drain F}
  {dirty : Finset Nat} {k : Nat}

/-- The iteration operations fit the values and come before their users. -/
structure ValueProgram.Straight (program : ValueProgram F) : Prop where
  inRange : ∀ op ∈ program.iterationOps, op.InRange program.valueCount
  ordered : (machine (F := F)).Ordered program.iterationOps

/-- Users of an operation come later. -/
theorem ValueProgram.Straight.later (h : program.Straight) {i j : Nat} {op : ValueOp}
    (read : program.iterationOps[i]? = some op) (uses : (op.destination.index, j) ∈ program.iterationUses) :
    i < j := by
  obtain ⟨other, read', source, dep, same⟩ := ValueProgram.mem_iterationUses.mp uses
  have reads : (machine (F := F)).dest op ∈ (machine (F := F)).reads other := List.mem_map.mpr ⟨source, dep, same⟩
  obtain ⟨hi, rfl⟩ := List.getElem?_eq_some_iff.mp read
  obtain ⟨hj, rfl⟩ := List.getElem?_eq_some_iff.mp read'
  rcases Nat.lt_trichotomy i j with before | equal | after
  · exact before
  · subst equal
    exact absurd reads (h.ordered.irrefl _ (List.getElem_mem hi))
  · exact absurd reads (List.pairwise_iff_getElem.mp h.ordered.pairwise j i hj hi after).1

/-- While draining: the operations that are not marked are settled, the marks are from `k` on. -/
structure Draining (program : ValueProgram F) (start : List F) (k : Nat) (state : Drain F) (dirty : Finset Nat) :
    Prop where
  marks : state.scratch.Represents program.iterationOps.length dirty
  length : state.values.length = program.valueCount
  settled : ∀ i op, program.iterationOps[i]? = some op → i ∉ dirty → machine.Settled (readAt state.values) op
  off : ∀ i : Nat, (∀ op ∈ program.iterationOps, op.destination.index ≠ i) → readAt state.values i = readAt start i
  low : ∀ i ∈ dirty, k ≤ i

theorem Draining.mark (h : Draining program start k state dirty) (straight : program.Straight)
    (compiled : plan.Compiled program) {w : Nat} {word : BitVec 64} (read : state.scratch.dirtyWords[w]? = some word)
    (nonzero : word ≠ 0) (lowest : ∀ i ∈ dirty, w * 64 + word.ctz.toNat ≤ i) :
    ∃ next dirty', program.drainMark plan w word state = some next ∧
      Draining program start (w * 64 + word.ctz.toNat + 1) next dirty' := by
  obtain ⟨small, set, -⟩ := ctz_spec nonzero
  generalize isBit : word.ctz.toNat = b at small set lowest ⊢
  have inWord : (w * 64 + b) / 64 = w := by omega
  have inBit : (w * 64 + b) % 64 = b := by omega
  have there : w * 64 + b ∈ dirty := by
    rw [← h.marks.marks, marked_of_word (by rw [inWord, read]), inBit]
    exact set
  have inside := h.marks.inside _ there
  have isOp := List.getElem?_eq_getElem inside
  generalize program.iterationOps[w * 64 + b] = op at isOp
  have member := List.mem_of_getElem? isOp
  obtain ⟨positive, cleared⟩ := h.marks.clear there (by rw [inWord, read])
  rw [inWord, inBit] at cleared
  have fits : op.InRange state.values.length := h.length ▸ straight.inRange op member
  obtain ⟨values, run, length, step⟩ := ValueOp.execute_spec fits
  obtain ⟨scratch, dirty', marked, marks, users⟩ :=
    compiled.markUsers (straight.inRange op member).destination cleared
  refine ⟨⟨values, scratch, state.executed + 1⟩, dirty', ?_, marks, length.trans h.length, fun j other read' clean => ?_,
    fun i off => ?_, fun j member' => ?_⟩
  · unfold ValueProgram.drainMark
    rw [isBit]
    dsimp only
    rw [if_pos positive, bind_of_eq_some rfl, bind_of_eq_some isOp, bind_of_eq_some run, bind_of_eq_some marked]
  · rw [step]
    have unused : (op.destination.index, j) ∉ program.iterationUses := fun uses =>
      clean ((users j).mpr (Or.inr uses))
    have unread : (machine (F := F)).dest op ∉ (machine (F := F)).reads other := by
      intro reads
      obtain ⟨source, dep, same⟩ := List.mem_map.mp reads
      exact unused (ValueProgram.mem_iterationUses.mpr ⟨other, read', source, dep, same⟩)
    by_cases same : j = w * 64 + b
    · subst same
      obtain rfl := Option.some.inj (isOp.symm.trans read')
      exact Machine.step_settled unread
    · have clean' : j ∉ dirty := fun dirty' => clean ((users j).mpr (Or.inl (Finset.mem_erase.mpr ⟨same, dirty'⟩)))
      refine (h.settled j other read' clean').step unread ?_
      obtain ⟨hj, rfl⟩ := List.getElem?_eq_some_iff.mp read'
      obtain ⟨hi, rfl⟩ := List.getElem?_eq_some_iff.mp isOp
      have pairwise := List.pairwise_iff_getElem.mp straight.ordered.pairwise
      rcases Nat.lt_or_gt_of_ne same with before | after
      · exact (pairwise j _ hj hi before).2
      · exact (pairwise _ j hi hj after).2.symm
  · rw [step, Machine.step_off (Ne.symm (off op member))]
    exact h.off i off
  · rcases (users j).mp member' with old | new
    · obtain ⟨other, dirty'⟩ := Finset.mem_erase.mp old
      have := lowest j dirty'
      omega
    · exact straight.later isOp new

theorem Draining.word (h : Draining program start k state dirty) (straight : program.Straight)
    (compiled : plan.Compiled program) {w fuel : Nat} (inside : w < (program.iterationOps.length + 63) / 64)
    (above : w * 64 ≤ k) (enough : w * 64 + 64 ≤ fuel + k) :
    ∃ next dirty', program.drainWord plan w fuel state = some next ∧
      Draining program start (w * 64 + 64) next dirty' := by
  induction fuel generalizing k state dirty with
  | zero =>
    obtain ⟨word, read⟩ : ∃ word, state.scratch.dirtyWords[w]? = some word :=
      ⟨_, List.getElem?_eq_getElem (h.marks.words.symm ▸ inside)⟩
    rw [ValueProgram.drainWord, bind_of_eq_some read]
    have blank : word = 0 := by
      by_contra nonzero
      have := h.low _ (h.marks.lowest read nonzero).1
      have := (ctz_spec nonzero).1
      omega
    rw [if_pos blank]
    refine ⟨state, dirty, rfl, h.marks, h.length, h.settled, h.off, fun i member => ?_⟩
    have := h.low i member
    omega
  | succ fuel ih =>
    obtain ⟨word, read⟩ : ∃ word, state.scratch.dirtyWords[w]? = some word :=
      ⟨_, List.getElem?_eq_getElem (h.marks.words.symm ▸ inside)⟩
    rw [ValueProgram.drainWord, bind_of_eq_some read]
    by_cases blank : word = 0
    · rw [if_pos blank]
      refine ⟨state, dirty, rfl, h.marks, h.length, h.settled, h.off, fun i member => ?_⟩
      have apart := h.marks.blank (blank ▸ read) i member
      have := h.low i member
      omega
    · rw [if_neg blank]
      dsimp only
      obtain ⟨there, least⟩ := h.marks.lowest read blank
      obtain ⟨mid, dirty', run, h'⟩ := h.mark straight compiled read blank fun i member =>
        least i member (above.trans (h.low i member))
      rw [bind_of_eq_some run]
      have low := h.low _ there
      exact ih h' (by omega) (by omega)

/-- All words are drained. -/
theorem Draining.words (h : Draining program start 0 state dirty) (straight : program.Straight)
    (compiled : plan.Compiled program) {count : Nat} (le : count ≤ (program.iterationOps.length + 63) / 64) :
    ∃ next dirty', (List.range count).foldlM (fun state w => program.drainWord plan w 64 state) state = some next ∧
      Draining program start (count * 64) next dirty' := by
  induction count with
  | zero => exact ⟨state, dirty, rfl, by simpa using h⟩
  | succ count ih =>
    obtain ⟨mid, dirty', run, h'⟩ := ih (Nat.le_of_succ_le le)
    obtain ⟨next, dirty'', run', h''⟩ := @Draining.word _ _ _ _ _ _ _ _ h' straight compiled count 64 le (le_refl _) (by omega)
    refine ⟨next, dirty'', ?_, by rwa [Nat.succ_mul]⟩
    rw [List.range_succ, List.foldlM_append, bind_of_eq_some run, List.foldlM_cons, bind_of_eq_some run']
    rfl

/-- What the incremental execution does: it ends with every operation settled and no mark. -/
theorem ValueProgram.Straight.incremental (straight : program.Straight) (compiled : plan.Compiled program)
    {workspace : ValueWorkspace F} {scratch : IterationScratch}
    (marks : scratch.Represents program.iterationOps.length dirty)
    (length : workspace.values.length = program.valueCount)
    (settled : ∀ i op, program.iterationOps[i]? = some op → i ∉ dirty →
      machine.Settled (readAt workspace.values) op) :
    ∃ next executed,
      program.executeIterationIncremental plan workspace scratch = some (next, plan.newScratch, executed) ∧
      program.executeIteration workspace = some next := by
  have inRange : ∀ op ∈ program.iterationOps, op.InRange workspace.values.length := fun op member =>
    length ▸ straight.inRange op member
  obtain ⟨values, run, length', full⟩ := executeOps_spec inRange
  have executes : program.executeIteration workspace = some ⟨values⟩ := by
    unfold ValueProgram.valueCount at length
    rw [ValueProgram.executeIteration, ValueProgram.execute, if_pos length, run]
    rfl
  -- settled values that agree with the start off the destinations are those of a full execution
  have ends : ∀ final : List F, (∀ op ∈ program.iterationOps, machine.Settled (readAt final) op) →
      (∀ i : Nat, (∀ op ∈ program.iterationOps, op.destination.index ≠ i) →
        readAt final i = readAt workspace.values i) → final = values := by
    intro final settled off
    apply List.ext_getElem?
    intro i
    have := Machine.run_eq_of_settled straight.ordered settled off
    rw [← full] at this
    exact (congrFun this i).symm
  have belongs := compiled.operations
  have none : ∀ {dirty : Finset Nat} {scratch : IterationScratch},
      scratch.Represents program.iterationOps.length dirty → dirty = ∅ → scratch = plan.newScratch := by
    rintro dirty scratch marks rfl
    exact marks.eq_new belongs
  refine ⟨⟨values⟩, ?_⟩
  unfold ValueProgram.executeIterationIncremental
  rw [if_pos ⟨length, compiled.layout.length.symm, belongs.symm, belongs.trans marks.operations.symm⟩]
  split
  · rename_i zero
    have clean : dirty = ∅ := Finset.card_eq_zero.mp (marks.pending.symm.trans zero)
    have same : workspace.values = values := ends _ (fun op member => by
      obtain ⟨i, read⟩ := List.mem_iff_getElem?.mp member
      exact settled i op read (by simp [clean])) fun _ _ => rfl
    exact ⟨0, by rw [none marks clean, ← same], executes⟩
  · split
    · refine ⟨program.iterationOps.length, ?_, executes⟩
      rw [bind_of_eq_some run, none marks.cleared rfl]
    · have first : Draining program workspace.values 0 ⟨workspace.values, scratch, 0⟩ dirty :=
        ⟨marks, length, settled, fun _ _ => rfl, fun _ _ => Nat.zero_le _⟩
      obtain ⟨state, dirty', drained, h⟩ := first.words straight compiled (le_of_eq marks.words)
      have clean : dirty' = ∅ := by
        rw [Finset.eq_empty_iff_forall_notMem]
        intro i member
        have inside := h.marks.inside i member
        have low := h.low i member
        rw [marks.words] at low
        omega
      have same : state.values = values := ends _ (fun op member => by
        obtain ⟨i, read⟩ := List.mem_iff_getElem?.mp member
        exact h.settled i op read (by simp [clean])) h.off
      refine ⟨state.executed, ?_, executes⟩
      rw [bind_of_eq_some drained, none h.marks clean, same]

end Drain

/-! ### Rounds -/

/-- What is done between two executions. -/
inductive RoundStep (F : Type) where
  | set (slot : InputSlot) (value : F)
  | mark (slot : InputSlot)

namespace RoundStep

def slot : RoundStep F → InputSlot
  | set slot _ => slot
  | mark slot => slot

def apply (plan : IterationDependencyPlan) (state : ValueWorkspace F × IterationScratch) :
    RoundStep F → Option (ValueWorkspace F × IterationScratch)
  | set slot value => (state.1.setInput slot value).map fun workspace => (workspace, state.2)
  | mark slot => (plan.markInput slot state.2).map fun scratch => (state.1, scratch)

end RoundStep

def prepareRound (plan : IterationDependencyPlan) (steps : List (RoundStep F))
    (state : ValueWorkspace F × IterationScratch) : Option (ValueWorkspace F × IterationScratch) :=
  steps.foldlM (RoundStep.apply plan) state

/-- Every input that changed was marked. -/
def AllMarked (steps : List (RoundStep F)) (before after : ValueWorkspace F) : Prop :=
  ∀ slot : InputSlot, after.value slot.value ≠ before.value slot.value → RoundStep.mark slot ∈ steps

section Rounds

open ValueProgramBuilder

variable [F64 F] {builder : ValueProgramBuilder F} {recorded : Recorded F} {plan : IterationDependencyPlan}

omit [F64 F] in
theorem prepareRound_spec {program : ValueProgram F} (compiled : plan.Compiled program)
    {steps : List (RoundStep F)} (known : ∀ step ∈ steps, step.slot.index < program.valueCount)
    {workspace : ValueWorkspace F} {scratch : IterationScratch} {dirty : Finset Nat}
    (length : workspace.values.length = program.valueCount)
    (marks : scratch.Represents program.iterationOps.length dirty) :
    ∃ workspace' scratch' dirty', prepareRound plan steps (workspace, scratch) = some (workspace', scratch') ∧
      workspace'.values.length = program.valueCount ∧
      scratch'.Represents program.iterationOps.length dirty' ∧
      (∀ slot j, RoundStep.mark slot ∈ steps → (slot.index, j) ∈ program.iterationUses → j ∈ dirty') ∧
      (∀ j ∈ dirty, j ∈ dirty') ∧
      ∀ i : Nat, (∀ step ∈ steps, step.slot.index ≠ i) → workspace'.values[i]? = workspace.values[i]? := by
  induction steps generalizing workspace scratch dirty with
  | nil => exact ⟨workspace, scratch, dirty, rfl, length, marks, by simp, fun _ h => h, fun _ _ => rfl⟩
  | cons step steps ih =>
    have here := known step List.mem_cons_self
    have rest := fun step member => known step (List.mem_cons_of_mem _ member)
    cases step with
    | set slot value =>
      have inside : slot.index < workspace.values.length := length.symm ▸ here
      obtain ⟨workspace', scratch', dirty', run, length', marks', marked, grows, off⟩ :=
        @ih rest ⟨workspace.values.set slot.index value⟩ scratch dirty (by simp [length]) marks
      refine ⟨workspace', scratch', dirty', ?_, length', marks', fun slot' j member uses => ?_, grows, fun i away => ?_⟩
      · rw [prepareRound, List.foldlM_cons, RoundStep.apply, ValueWorkspace.setInput, if_pos inside]
        exact run
      · rcases List.mem_cons.mp member with same | member
        · cases same
        · exact marked slot' j member uses
      · rw [off i fun step member => away step (List.mem_cons_of_mem _ member)]
        exact List.getElem?_set_ne (away _ List.mem_cons_self)
    | mark slot =>
      obtain ⟨next, dirty1, marked1, marks1, users⟩ :=
        @IterationDependencyPlan.Compiled.markUsers _ _ _ compiled slot.value here _ _ marks
      have belongs : plan.operationCount = scratch.operationCount := compiled.operations.trans marks.operations.symm
      obtain ⟨workspace', scratch', dirty', run, length', marks', marked, grows, off⟩ := ih rest length marks1
      refine ⟨workspace', scratch', dirty', ?_, length', marks', fun slot' j member uses => ?_, fun j there => ?_,
        fun i away => off i fun step member => away step (List.mem_cons_of_mem _ member)⟩
      · rw [prepareRound, List.foldlM_cons, RoundStep.apply, IterationDependencyPlan.markInput, if_pos belongs, marked1]
        exact run
      · rcases List.mem_cons.mp member with same | member
        · obtain rfl := RoundStep.mark.inj same
          exact grows j ((users j).mpr (Or.inr uses))
        · exact marked slot' j member uses
      · exact grows j ((users j).mpr (Or.inl there))

/-- Rounds of settings and marks, each executed incrementally, from a workspace on which all stages ran. -/
inductive Rounds (builder : ValueProgramBuilder F) (recorded : Recorded F) (plan : IterationDependencyPlan) :
    ValueWorkspace F → IterationScratch → Prop
  | evaluated {workspace first second third : ValueWorkspace F} (used : Used builder recorded workspace)
      (static : builder.finish.executeStatic workspace = some first)
      (tick : builder.finish.executeTick first = some second)
      (iteration : builder.finish.executeIteration second = some third) :
      Rounds builder recorded plan third plan.newScratch
  | round {before prepared after : ValueWorkspace F} {scratch marked left : IterationScratch} {executed : Nat}
      {steps : List (RoundStep F)} (earlier : Rounds builder recorded plan before scratch)
      (inputs : ∀ step ∈ steps, IsInput recorded step.slot)
      (prepares : prepareRound plan steps (before, scratch) = some (prepared, marked))
      (marks : AllMarked steps before prepared)
      (executes : builder.finish.executeIterationIncremental plan prepared marked = some (after, left, executed)) :
      Rounds builder recorded plan after left

theorem ValueProgramBuilder.Built.straight (h : Built builder recorded) : builder.finish.Straight :=
  ⟨@Built.inRange _ _ _ _ h builder.initialValues h.fits_new .iteration, h.ordered .iteration⟩

/-- One round from settled values and a clean scratch, in which only places that no operation writes are set. -/
theorem ValueProgram.Straight.round {program : ValueProgram F} (straight : program.Straight)
    (compiled : plan.Compiled program) {workspace : ValueWorkspace F}
    (length : workspace.values.length = program.valueCount)
    (settled : ∀ op ∈ program.iterationOps, machine.Settled (readAt workspace.values) op) {steps : List (RoundStep F)}
    (known : ∀ step ∈ steps, step.slot.index < program.valueCount)
    (apart : ∀ step ∈ steps, ∀ op ∈ program.iterationOps, op.destination.index ≠ step.slot.index) :
    ∃ prepared marked, prepareRound plan steps (workspace, plan.newScratch) = some (prepared, marked) ∧
      prepared.values.length = program.valueCount ∧
      (∀ i : Nat, (∀ step ∈ steps, step.slot.index ≠ i) → prepared.values[i]? = workspace.values[i]?) ∧
      (AllMarked steps workspace prepared → ∃ after executed,
        program.executeIterationIncremental plan prepared marked = some (after, plan.newScratch, executed) ∧
        program.executeIteration prepared = some after) := by
  obtain ⟨prepared, marked, dirty, run, length', marks, users, -, off⟩ :=
    prepareRound_spec compiled known length (IterationScratch.Represents.new compiled.operations)
  refine ⟨prepared, marked, run, length', off, fun allMarked => ?_⟩
  -- an operation without a mark reads only values that did not change
  have clean : ∀ i op, program.iterationOps[i]? = some op → i ∉ dirty →
      machine.Settled (readAt prepared.values) op := by
    intro i op read unmarked
    have member : op ∈ program.iterationOps := List.mem_of_getElem? read
    refine (settled op member).congr (fun j reads => ?_) (off _ fun step there => (apart step there op member).symm)
    obtain ⟨source, dep, rfl⟩ := List.mem_map.mp reads
    by_contra changed
    exact unmarked (users ⟨source.index⟩ i (allMarked ⟨source.index⟩ changed)
      (ValueProgram.mem_iterationUses.mpr ⟨op, read, source, dep, rfl⟩))
  exact straight.incremental compiled marks length' clean

/-- One round of a built program. -/
theorem ValueProgramBuilder.Built.round (h : Built builder recorded) (compiled : plan.Compiled builder.finish)
    {workspace : ValueWorkspace F} (fits : Fits builder workspace.values)
    (settled : SettledAt builder .iteration workspace.values) {steps : List (RoundStep F)}
    (inputs : ∀ step ∈ steps, IsInput recorded step.slot) :
    ∃ prepared marked, prepareRound plan steps (workspace, plan.newScratch) = some (prepared, marked) ∧
      (AllMarked steps workspace prepared → ∃ after executed,
        builder.finish.executeIterationIncremental plan prepared marked = some (after, plan.newScratch, executed) ∧
        builder.finish.executeIteration prepared = some after ∧
        Fits builder after.values ∧ SettledAt builder .iteration after.values) := by
  have count : builder.finish.valueCount = builder.slots.length := h.initial
  have known : ∀ step ∈ steps, step.slot.index < builder.finish.valueCount := by
    intro step member
    have read := h.recorded_at (inputs step member)
    rw [count, ← h.count]
    exact (List.getElem?_eq_some_iff.mp read).1
  obtain ⟨prepared, marked, run, length, off, executes⟩ := h.straight.round compiled (fits.length.trans count.symm)
    settled known fun step there op member => @Built.dest_ne_input _ _ _ _ h .iteration op member _ (inputs step there)
  refine ⟨prepared, marked, run, fun allMarked => ?_⟩
  have fits' : Fits builder prepared.values := by
    refine ⟨length.trans count, fun i info value read constant => ?_⟩
    by_cases away : ∀ step ∈ steps, step.slot.index ≠ i
    · rw [off i away, fits.constants i info value read constant]
    · push Not at away
      obtain ⟨step, member, rfl⟩ := away
      have inside := known step member
      rw [← length] at inside
      have ok := h.slots _ _ _ _ read (h.recorded_at (inputs step member))
      rw [List.getElem?_eq_getElem inside, ← ok.folded constant fun _ => prepared.values[step.slot.index]]
      rfl
  obtain ⟨after, executed, incremental, full⟩ := executes allMarked
  obtain ⟨after', full', fits'', settled', -⟩ := h.execute_spec fits' .iteration
  obtain rfl := Option.some.inj (full.symm.trans full')
  exact ⟨after, executed, incremental, full, fits'', settled'⟩

/-- Between rounds the values are settled and the scratch is clean. -/
theorem ValueProgramBuilder.Built.rounds (h : Built builder recorded) (compiled : plan.Compiled builder.finish)
    {workspace : ValueWorkspace F} {scratch : IterationScratch} (rounds : Rounds builder recorded plan workspace scratch) :
    scratch = plan.newScratch ∧ Fits builder workspace.values ∧ SettledAt builder .iteration workspace.values := by
  induction rounds with
  | evaluated used static tick iteration =>
    have fits := h.used_fits used
    obtain ⟨first, run, fits1, -⟩ := h.execute_spec fits .static
    obtain rfl := Option.some.inj (static.symm.trans run)
    obtain ⟨second, run, fits2, -⟩ := h.execute_spec fits1 .tick
    obtain rfl := Option.some.inj (tick.symm.trans run)
    obtain ⟨third, run, fits3, settled, -⟩ := h.execute_spec fits2 .iteration
    obtain rfl := Option.some.inj (iteration.symm.trans run)
    exact ⟨rfl, fits3, settled⟩
  | round earlier inputs prepares marks executes ih =>
    obtain ⟨rfl, fits, settled⟩ := ih
    obtain ⟨prepared, marked, run, executed⟩ := h.round compiled fits settled inputs
    obtain ⟨rfl, rfl⟩ := Prod.mk.inj (Option.some.inj (prepares.symm.trans run))
    obtain ⟨after, count, incremental, -, fits', settled'⟩ := executed marks
    obtain ⟨rfl, rest⟩ := Prod.mk.inj (Option.some.inj (executes.symm.trans incremental))
    exact ⟨(Prod.mk.inj rest).1, fits', settled'⟩

/-- In every sequence of rounds that mark the inputs they change, the incremental execution leaves
the workspace as the full one does, and its scratch as a new one. -/
theorem BuilderCall.incremental_matches (calls : List (BuilderCall F)) :
    ∃ builder recorded, BuilderCall.applyAll {} [] calls = some (builder, recorded) ∧
      (builder.finish.iterationUses.length < 2 ^ 32 →
        ∃ plan, builder.finish.compileIterationDependencies = some plan) ∧
      ∀ plan, builder.finish.compileIterationDependencies = some plan →
        ∀ workspace scratch, Rounds builder recorded plan workspace scratch → scratch = plan.newScratch ∧
          ∀ steps, (∀ step ∈ steps, IsInput recorded step.slot) →
            ∃ prepared marked, prepareRound plan steps (workspace, scratch) = some (prepared, marked) ∧
              (AllMarked steps workspace prepared → ∃ after executed,
                builder.finish.executeIterationIncremental plan prepared marked =
                  some (after, plan.newScratch, executed) ∧
                builder.finish.executeIteration prepared = some after) := by
  obtain ⟨builder, recorded, run, h⟩ := applyAll_built calls Built.empty
  refine ⟨builder, recorded, run, fun few => ?_, fun plan compiles workspace scratch rounds => ?_⟩
  · obtain ⟨plan, compiles, -⟩ := (ValueProgram.compile_returns h.straight.inRange).returned (Nat.not_le_of_lt few)
    exact ⟨plan, compiles⟩
  · have compiled := (ValueProgram.compile_returns h.straight.inRange).of_run compiles
    obtain ⟨rfl, fits, settled⟩ := h.rounds compiled rounds
    refine ⟨rfl, fun steps inputs => ?_⟩
    obtain ⟨prepared, marked, run, executes⟩ := h.round compiled fits settled inputs
    refine ⟨prepared, marked, run, fun allMarked => ?_⟩
    obtain ⟨after, executed, incremental, full, -⟩ := executes allMarked
    exact ⟨after, executed, incremental, full⟩

end Rounds

end Hynergy
