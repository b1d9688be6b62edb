import Hynergy.Model.CallRules

/-!
# Calls that succeeded

What a call that returned says about its parts.
-/

namespace Hynergy

namespace Call

variable {σ ε α β : Type} {state after : σ}

theorem bind_eq_ok {call : Call σ ε α} {next : α → Call σ ε β} {value : β}
    (run : (call >>= next) state = .ok value after) :
    ∃ v mid, call state = .ok v mid ∧ next v mid = .ok value after := by
  have run : bind call next state = .ok value after := run
  unfold bind at run
  split at run
  · exact ⟨_, _, ‹_›, run⟩
  · cases run
  · cases run

theorem okOr_eq_ok {option : Option α} {error : ε} {value : α}
    (run : (okOr option error : Call σ ε α) state = .ok value after) : option = some value ∧ after = state := by
  cases option with
  | none => cases run
  | some v =>
    obtain ⟨rfl, rfl⟩ := Outcome.ok.inj run
    exact ⟨rfl, rfl⟩

theorem rejectIf_eq_ok {condition : Prop} [Decidable condition] {error : ε} {value : Unit}
    (run : (rejectIf condition error : Call σ ε Unit) state = .ok value after) : ¬ condition ∧ after = state := by
  unfold rejectIf at run
  split at run
  · cases run
  · exact ⟨‹_›, (Outcome.ok.inj run).2.symm⟩

theorem ofExcept_eq_ok {δ : Type} {wrap : δ → ε} {result : Except δ α} {value : α}
    (run : (ofExcept wrap result : Call σ ε α) state = .ok value after) : result = .ok value ∧ after = state := by
  cases result with
  | error e => cases run
  | ok v =>
    obtain ⟨rfl, rfl⟩ := Outcome.ok.inj run
    exact ⟨rfl, rfl⟩

/-- A loop whose body keeps the state. -/
theorem forM_eq_ok {P : β → Prop} {list : List β} {body : β → Call σ ε PUnit} {value : PUnit}
    (step : ∀ item v after, body item state = .ok v after → after = state ∧ P item)
    (run : (list.forM body) state = .ok value after) : after = state ∧ ∀ item ∈ list, P item := by
  induction list with
  | nil => exact ⟨(Outcome.ok.inj run).2.symm, by simp⟩
  | cons item list ih =>
    obtain ⟨v, mid, first, rest⟩ := bind_eq_ok run
    obtain ⟨rfl, here⟩ := step item v mid first
    obtain ⟨same, there⟩ := ih rest
    exact ⟨same, fun other member => (List.mem_cons.mp member).elim (fun h => h ▸ here) (there other)⟩

/-- What a call does that succeeded, where it fails unchanged or does that. -/
theorem of_eq_ok {call : Call σ ε α} {value : α} {P : σ → Prop}
    (spec : (∃ e, call state = .err e state) ∨ ∃ last, call state = .ok value last ∧ P last)
    (run : call state = .ok value after) : P after := by
  rcases spec with ⟨e, failed⟩ | ⟨last, run', holds⟩
  · rw [failed] at run
    cases run
  · obtain ⟨-, rfl⟩ := Outcome.ok.inj (run'.symm.trans run)
    exact holds

theorem of_eq_err {call : Call σ ε α} {value : α} {error : ε} {P : σ → Prop}
    (spec : (∃ e, call state = .err e state) ∨ ∃ last, call state = .ok value last ∧ P last)
    (run : call state = .err error after) : after = state := by
  rcases spec with ⟨e, failed⟩ | ⟨last, run', -⟩
  · exact (Outcome.err.inj (failed.symm.trans run)).2.symm
  · rw [run'] at run
    cases run

/-- A call that fails leaves the state it found. -/
def FailsUnchanged (call : Call σ ε α) : Prop := ∀ state error after, call state = .err error after → after = state

theorem FailsUnchanged.bind {call : Call σ ε α} {next : α → Call σ ε β}
    (kept : ∀ before, Preserves (fun state => state = before) call) (rest : ∀ value, FailsUnchanged (next value)) :
    FailsUnchanged (call >>= next) := by
  intro state error after run
  have kept := kept state state rfl
  have run : Call.bind call next state = .err error after := run
  unfold Call.bind at run
  split at run
  · rename_i value mid first
    rw [first] at kept
    rw [rest value mid error after run, show mid = state from kept]
  · rename_i error' mid first
    rw [first] at kept
    obtain ⟨-, rfl⟩ := Outcome.err.inj run
    exact kept
  · cases run

/-- The value dropped. -/
theorem FailsUnchanged.discard {call : Call σ ε α} (fails : FailsUnchanged call) :
    FailsUnchanged (call >>= fun _ => (pure () : Call σ ε Unit)) := by
  intro state error after run
  refine fails state error after ?_
  have run : Call.bind call (fun _ => pure ()) state = .err error after := run
  unfold Call.bind at run
  split at run
  · cases run
  · obtain ⟨rfl, rfl⟩ := Outcome.err.inj run
    assumption
  · cases run

end Call

end Hynergy
