import Hynergy.Compile.CompositePartitions

/-!
# The writers of the states

Where every state is written by one partition, a compiled definition is made.
-/

namespace Hynergy

open Lib

variable {F : Type}

namespace Call

variable {σ ε α β : Type} {state : σ}

/-- A fold whose rounds keep the invariant and do not panic does not panic. -/
theorem foldlM_meets {body : β → α → Call σ ε β} {items : List α} {value : β} {excuse : Prop} {err : ε → σ → Prop}
    (inv : List α → β → σ → Prop)
    (step : ∀ seen item rest value state, seen ++ item :: rest = items → inv seen value state →
      (body value item state).Meets excuse (fun value after => inv (seen ++ [item]) value after) err)
    (start : inv [] value state) :
    (items.foldlM body value state).Meets excuse (fun value after => inv items value after) err := by
  have general : ∀ (rest seen : List α) (value : β) (state : σ), seen ++ rest = items → inv seen value state →
      (rest.foldlM body value state).Meets excuse (fun value after => inv items value after) err := by
    intro rest
    induction rest with
    | nil =>
      intro seen value state split holds
      rw [List.append_nil] at split
      exact split ▸ holds
    | cons item rest ih =>
      intro seen value state split holds
      rw [List.foldlM_cons]
      refine meets_bind ((step seen item rest value state split holds).mono id ?_ fun _ _ failed => failed)
      intro value after kept
      exact ih (seen ++ [item]) value after (by simp [split]) kept
  exact general items [] value state rfl start

end Call

namespace CompiledDefinition

/-- The writers found so far, with those of the states seen. -/
structure Recorded (count : Nat) (before : List (Option DevicePartitionId)) (partition : DevicePartitionId)
    (seen : List DefinitionStateId) (writers : List (Option DevicePartitionId)) : Prop where
  length : writers.length = count
  kept : ∀ (s : Nat) q, before[s]? = some (some q) → writers[s]? = some (some q)
  known : ∀ (s : Nat) q, writers[s]? = some (some q) →
    before[s]? = some (some q) ∨ q = partition ∧ ∃ state ∈ seen, Id.index state = s
  written : ∀ state ∈ seen, ∃ q, writers[Id.index state]? = some (some q)

/-- A partition is the writer of its states, where no other is. -/
theorem recordWriter_meets {count : Nat} {before : List (Option DevicePartitionId)} {partition : DevicePartitionId}
    {states : List DefinitionStateId} (length : before.length = count)
    (below : ∀ state ∈ states, Id.index state < count)
    (free : ∀ state ∈ states, ∀ q, before[Id.index state]? = some (some q) → q = partition) :
    (states.foldlM (recordWriter partition) before ()).Meets False
      (fun writers _ => Recorded count before partition states writers) fun _ _ => False := by
  refine Call.foldlM_meets (fun seen writers _ => Recorded count before partition seen writers) ?_
    ⟨length, fun _ _ read => read, fun _ _ read => Or.inl read, by simp⟩
  rintro seen state rest writers _ split recorded
  have member : state ∈ states := split ▸ List.mem_append_right _ List.mem_cons_self
  have inside : state.index < writers.length := recorded.length ▸ below state member
  unfold recordWriter
  rw [List.getElem?_eq_getElem inside, Call.expect_some_bind]
  cases owner : writers[state.index] with
  | none =>
    have free : writers[state.index]? = some none := by rw [List.getElem?_eq_getElem inside, owner]
    refine ⟨by rw [List.length_set, recorded.length], fun s q read => ?_, fun s q read => ?_, fun other isOther => ?_⟩
    · rw [List.getElem?_set_ne, recorded.kept s q read]
      rintro rfl
      cases free.symm.trans (recorded.kept _ q read)
    · by_cases same : state.index = s
      · subst same
        rw [List.getElem?_set_self inside] at read
        exact Or.inr ⟨(Option.some.inj (Option.some.inj read)).symm, state, by simp, rfl⟩
      · rw [List.getElem?_set_ne same] at read
        exact (recorded.known s q read).imp id fun ⟨isOwn, other, isOther, number⟩ =>
          ⟨isOwn, other, List.mem_append_left _ isOther, number⟩
    · by_cases same : state.index = other.index
      · rw [← same]
        exact ⟨partition, List.getElem?_set_self inside⟩
      · rcases List.mem_append.mp isOther with earlier | last
        · obtain ⟨q, read⟩ := recorded.written other earlier
          exact ⟨q, by rw [List.getElem?_set_ne same, read]⟩
        · rw [List.mem_singleton.mp last] at same
          exact absurd rfl same
  | some first =>
    have read : writers[state.index]? = some (some first) := by rw [List.getElem?_eq_getElem inside, owner]
    have own : first = partition := by
      rcases recorded.known _ first read with before' | ⟨isOwn, -⟩
      · exact free state member first before'
      · exact isOwn
    dsimp only
    rw [if_pos own]
    refine ⟨recorded.length, recorded.kept, fun s q read => (recorded.known s q read).imp id
      fun ⟨isOwn, other, isOther, number⟩ => ⟨isOwn, other, List.mem_append_left _ isOther, number⟩, fun other isOther => ?_⟩
    rcases List.mem_append.mp isOther with earlier | last
    · exact recorded.written other earlier
    · rw [List.mem_singleton.mp last]
      exact ⟨first, read⟩

/-- Where every state has one partition that writes it, the definition is made. -/
theorem new_returns {partitions : List (CompiledPartitionTemplate F)} {initializers : List (DefinitionStateInitializer F)}
    (transitions : List (FailedTickStateTransition F)) (bounded : partitions.length ≤ IdKind.partition.bound)
    (below : ∀ template ∈ partitions, ∀ state ∈ template.definitionStateWrites, Id.index state < initializers.length)
    (writers : ∀ (p q : Nat) template other, partitions[p]? = some template → partitions[q]? = some other →
      ∀ state ∈ template.definitionStateWrites, state ∈ other.definitionStateWrites → p = q)
    (covered : ∀ s < initializers.length, ∃ template ∈ partitions, ∃ state ∈ template.definitionStateWrites, Id.index state = s) :
    new partitions initializers transitions () = .ok ⟨partitions, initializers, transitions⟩ () := by
  have recorded : (partitions.zipIdx.foldlM recordWriters (List.replicate initializers.length none) ()).Meets False
      (fun found _ => found.length = initializers.length ∧
        ∀ template ∈ partitions, ∀ state ∈ template.definitionStateWrites, ∃ q, found[Id.index state]? = some (some q))
      fun _ _ => False := by
    suffices run : (partitions.zipIdx.foldlM recordWriters (List.replicate initializers.length none) ()).Meets False
        (fun found _ => (found.length = initializers.length ∧ ∀ (s : Nat) q, found[s]? = some (some q) →
          ∃ template, partitions[Id.index q]? = some template ∧ ∃ state ∈ template.definitionStateWrites, Id.index state = s) ∧
          ∀ entry ∈ partitions.zipIdx, ∀ state ∈ entry.1.definitionStateWrites, ∃ q, found[Id.index state]? = some (some q))
        fun _ _ => False by
      refine run.mono id (fun found _ ⟨⟨length, _⟩, written⟩ => ⟨length, fun template member => ?_⟩) fun _ _ failed => failed
      obtain ⟨p, read⟩ := List.mem_iff_getElem?.mp member
      exact written (template, p) (List.mem_zipIdx_iff_getElem?.mpr read)
    refine Call.foldlM_meets (fun (seen : List (CompiledPartitionTemplate F × Nat)) (found : List (Option DevicePartitionId)) _ =>
      (found.length = initializers.length ∧ ∀ (s : Nat) q, found[s]? = some (some q) →
        ∃ template, partitions[Id.index q]? = some template ∧ ∃ state ∈ template.definitionStateWrites, Id.index state = s) ∧
      ∀ entry ∈ seen, ∀ state ∈ entry.1.definitionStateWrites, ∃ q, found[Id.index state]? = some (some q)) ?_ ?_
    · rintro seen ⟨template, p⟩ rest found _ split ⟨⟨length, known⟩, written⟩
      have read := List.mem_zipIdx_iff_getElem?.mp (split ▸ List.mem_append_right seen List.mem_cons_self)
      have member := List.mem_of_getElem? read
      have isPartition : (Id.ofIndex? p : Option DevicePartitionId) =
          some ⟨p, (List.getElem?_eq_some_iff.mp read).1.trans_le bounded⟩ := Id.ofIndex?_eq_some.mpr rfl
      unfold recordWriters
      rw [isPartition, Call.expect_some_bind]
      refine (recordWriter_meets length (below template member) fun state isState q isOwner => ?_).mono id ?_
        fun _ _ failed => failed
      · obtain ⟨other, isOther, state', isState', number⟩ := known _ q isOwner
        obtain rfl : state' = state := Id.ext' number
        exact Id.ext' (writers _ _ _ _ isOther read state' isState' isState)
      · rintro found' _ recorded
        refine ⟨⟨recorded.length, fun s q isOwner => ?_⟩, fun entry isEntry state isState => ?_⟩
        · rcases recorded.known s q isOwner with earlier | ⟨rfl, state, isState, number⟩
          · exact known s q earlier
          · exact ⟨template, read, state, isState, number⟩
        · rcases List.mem_append.mp isEntry with earlier | last
          · obtain ⟨q, isOwner⟩ := written entry earlier state isState
            exact ⟨q, recorded.kept _ q isOwner⟩
          · obtain rfl := List.mem_singleton.mp last
            exact recorded.written state isState
    · refine ⟨⟨List.length_replicate, fun s q isOwner => ?_⟩, by simp⟩
      cases List.eq_of_mem_replicate (List.mem_of_getElem? isOwner)
  cases run : partitions.zipIdx.foldlM recordWriters (List.replicate initializers.length none) () with
  | ok found after =>
    rw [run] at recorded
    obtain ⟨length, written⟩ := recorded
    have all : found.findIdx? Option.isNone = none := by
      rw [List.findIdx?_eq_none_iff]
      intro owner member
      obtain ⟨s, inside, rfl⟩ := List.getElem_of_mem member
      obtain ⟨template, isTemplate, state, isState, rfl⟩ := covered s (length ▸ inside)
      obtain ⟨q, isOwner⟩ := written template isTemplate state isState
      rw [(List.getElem?_eq_some_iff.mp isOwner).2]
      rfl
    unfold new
    rw [Call.bind_ok run, all]
    rfl
  | err error after =>
    rw [run] at recorded
    exact recorded.elim
  | panic =>
    rw [run] at recorded
    exact recorded.elim

end CompiledDefinition

end Hynergy
