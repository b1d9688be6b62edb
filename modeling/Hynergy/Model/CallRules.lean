import Hynergy.Model.Outcome

/-!
# Rules for calls

`Preserves` is for a property of the state that no step of a call loses, however it ends. `Simulates` is
for two calls that go the same way on related states while the first succeeds.
-/

namespace Hynergy.Call

variable {σ τ ε δ α β : Type}

/-! ### Properties of the state that calls keep -/

def Preserves (P : σ → Prop) (call : Call σ ε α) : Prop :=
  ∀ state, P state → (call state).Meets True (fun _ after => P after) fun _ after => P after

namespace Preserves

variable {P : σ → Prop} {call : Call σ ε α} {next : α → Call σ ε β}

theorem bind (h : Preserves P call) (rest : ∀ value, Preserves P (next value)) : Preserves P (call >>= next) := by
  intro state holds
  refine meets_bind ((h state holds).mono id ?_ fun _ _ holds => holds)
  intro value after holds
  exact rest value after holds

theorem get_bind {next : σ → Call σ ε β} (rest : ∀ state, P state → Preserves P (next state)) :
    Preserves P (get >>= next) := fun state holds => rest state holds state holds

theorem pure (value : α) : Preserves P (Pure.pure value : Call σ ε α) := fun _ holds => holds

theorem throw (error : ε) : Preserves P (Call.throw error : Call σ ε α) := fun _ holds => holds

theorem set {state : σ} (h : P state) : Preserves P (Call.set state : Call σ ε Unit) := fun _ _ => h

theorem modify {f : σ → σ} (h : ∀ state, P state → P (f state)) : Preserves P (Call.modify f : Call σ ε Unit) :=
  h

theorem expect (value : Option α) : Preserves P (Call.expect value : Call σ ε α) := by
  intro state holds
  cases value with
  | none => exact trivial
  | some value => exact holds

theorem okOr (value : Option α) (error : ε) : Preserves P (Call.okOr value error) := by
  intro state holds
  cases value with
  | none => exact holds
  | some value => exact holds

theorem ofExcept (wrap : δ → ε) (result : Except δ α) : Preserves P (Call.ofExcept wrap result) := by
  intro state holds
  cases result with
  | ok value => exact holds
  | error error => exact holds

theorem rejectIf (condition : Prop) [Decidable condition] (error : ε) : Preserves P (Call.rejectIf condition error) := by
  intro state holds
  unfold Call.rejectIf
  split
  · exact holds
  · exact holds

theorem rejectIf_bind {condition : Prop} [Decidable condition] {error : ε} {next : Unit → Call σ ε β}
    (rest : ¬ condition → Preserves P (next ())) : Preserves P (Call.rejectIf condition error >>= next) := by
  intro state holds
  by_cases rejected : condition
  · rw [Call.rejectIf_bind_pos rejected]
    exact holds
  · rw [Call.rejectIf_bind_neg rejected]
    exact rest rejected state holds

theorem okOr_bind {value : Option α} {error : ε} {next : α → Call σ ε β}
    (rest : ∀ a, value = some a → Preserves P (next a)) : Preserves P (Call.okOr value error >>= next) := by
  cases value with
  | none => exact fun _ holds => holds
  | some a => exact rest a rfl

theorem assoc {γ : Type} {next : α → Call σ ε β} {last : β → Call σ ε γ}
    (h : Preserves P (call >>= fun value => next value >>= last)) : Preserves P ((call >>= next) >>= last) := by
  intro state holds
  rw [bind_bind]
  exact h state holds

theorem forM {list : List β} {body : β → Call σ ε PUnit} (h : ∀ item, Preserves P (body item)) :
    Preserves P (list.forM body) := by
  induction list with
  | nil => exact pure _
  | cons item list ih =>
    show Preserves P (body item >>= fun _ => list.forM body)
    exact (h item).bind fun _ => ih

theorem zoom {part : σ → τ} {put : σ → τ → σ} {wrap : δ → ε} {call : Call τ δ α}
    (h : ∀ state, P state → (call (part state)).Meets True (fun _ inner => P (put state inner)) fun _ inner => P (put state inner)) :
    Preserves P (Call.zoom part put wrap call) := by
  intro state holds
  have inner := h state holds
  unfold Call.zoom
  cases run : call (part state) with
  | ok value after =>
    rw [run] at inner
    exact inner
  | err error after =>
    rw [run] at inner
    exact inner
  | panic => exact trivial

/-- A property that every call preserves holds of what they leave. -/
theorem leaves (h : Preserves P call) {state after : σ} (holds : P state) (left : (call state).Leaves after) : P after :=
  (h state holds).leaves left (fun _ _ holds => holds) fun _ _ holds => holds

end Preserves

/-! ### Calls that do not panic -/

def Total (call : Call σ ε α) : Prop := ∀ state, (call state).Meets False (fun _ _ => True) fun _ _ => True

namespace Total

variable {call : Call σ ε α} {next : α → Call σ ε β}

theorem ne_panic (h : Total call) (state : σ) : call state ≠ .panic := by
  intro run
  have meets := h state
  rw [run] at meets
  exact meets

theorem bind (h : Total call) (rest : ∀ value, Total (next value)) : Total (call >>= next) :=
  fun state => meets_bind ((h state).mono id (fun value after _ => rest value after) fun _ _ holds => holds)

theorem get_bind {next : σ → Call σ ε β} (rest : ∀ state, Total (next state)) : Total (get >>= next) :=
  fun state => rest state state

theorem pure (value : α) : Total (Pure.pure value : Call σ ε α) := fun _ => trivial

theorem throw (error : ε) : Total (Call.throw error : Call σ ε α) := fun _ => trivial

theorem set (state : σ) : Total (Call.set state : Call σ ε Unit) := fun _ => trivial

theorem modify (f : σ → σ) : Total (Call.modify f : Call σ ε Unit) := fun _ => trivial

theorem okOr (value : Option α) (error : ε) : Total (Call.okOr value error : Call σ ε α) := by
  intro state
  cases value <;> exact trivial

theorem ofExcept (wrap : δ → ε) (result : Except δ α) : Total (Call.ofExcept wrap result : Call σ ε α) := by
  intro state
  cases result <;> exact trivial

theorem rejectIf (condition : Prop) [Decidable condition] (error : ε) :
    Total (Call.rejectIf condition error : Call σ ε Unit) := by
  intro state
  unfold Call.rejectIf
  split <;> exact trivial

theorem forM {list : List β} {body : β → Call σ ε PUnit} (h : ∀ item, Total (body item)) : Total (list.forM body) := by
  induction list with
  | nil => exact pure _
  | cons item list ih =>
    show Total (body item >>= fun _ => list.forM body)
    exact (h item).bind fun _ => ih

end Total

/-! ### Calls that go the same way -/

def Simulates (R : σ → τ → Prop) (call : Call σ ε α) (other : Call τ ε α) : Prop :=
  ∀ state state', R state state' → ∀ value after, call state = .ok value after →
    ∃ after', other state' = .ok value after' ∧ R after after'

namespace Simulates

variable {R : σ → τ → Prop} {call : Call σ ε α} {other : Call τ ε α} {next : α → Call σ ε β} {next' : α → Call τ ε β}

theorem bind (h : Simulates R call other) (rest : ∀ value, Simulates R (next value) (next' value)) :
    Simulates R (call >>= next) (other >>= next') := by
  intro state state' related value after run
  cases first : call state with
  | ok middle reached =>
    rw [bind_ok first] at run
    obtain ⟨reached', run', related⟩ := h state state' related middle reached first
    rw [bind_ok run']
    exact rest middle reached reached' related value after run
  | err error reached =>
    rw [bind_err first] at run
    cases run
  | panic =>
    rw [bind_panic first] at run
    cases run

theorem get_bind {next : σ → Call σ ε β} {next' : τ → Call τ ε β}
    (rest : ∀ state state', R state state' → Simulates R (next state) (next' state')) :
    Simulates R (get >>= next) (get >>= next') :=
  fun state state' related => rest state state' related state state' related

theorem pure (value : α) : Simulates R (Pure.pure value : Call σ ε α) (Pure.pure value) := by
  intro state state' related other after run
  obtain ⟨rfl, rfl⟩ := Outcome.ok.inj run
  exact ⟨state', rfl, related⟩

theorem set {state : σ} {state' : τ} (h : R state state') : Simulates R (Call.set state : Call σ ε Unit) (Call.set state') := by
  intro before before' related value after run
  obtain ⟨rfl, rfl⟩ := Outcome.ok.inj run
  exact ⟨state', rfl, h⟩

theorem throw (error : ε) : Simulates R (Call.throw error : Call σ ε α) other := by
  intro state state' related value after run
  cases run

theorem modify {f : σ → σ} {f' : τ → τ} (h : ∀ state state', R state state' → R (f state) (f' state')) :
    Simulates R (Call.modify f : Call σ ε Unit) (Call.modify f') := by
  intro state state' related value after run
  obtain ⟨rfl, rfl⟩ := Outcome.ok.inj run
  exact ⟨f' state', rfl, h state state' related⟩

theorem expect {value value' : Option α} (h : ∀ a, value = some a → value' = some a) :
    Simulates R (Call.expect value : Call σ ε α) (Call.expect value') := by
  intro state state' related a after run
  cases value with
  | none => cases run
  | some found =>
    obtain ⟨rfl, rfl⟩ := Outcome.ok.inj run
    rw [h found rfl]
    exact ⟨state', rfl, related⟩

theorem okOr {value value' : Option α} {error error' : ε} (h : ∀ a, value = some a → value' = some a) :
    Simulates R (Call.okOr value error : Call σ ε α) (Call.okOr value' error') := by
  intro state state' related a after run
  cases value with
  | none => cases run
  | some found =>
    obtain ⟨rfl, rfl⟩ := Outcome.ok.inj run
    rw [h found rfl]
    exact ⟨state', rfl, related⟩

theorem ofExcept (wrap : δ → ε) (result : Except δ α) :
    Simulates R (Call.ofExcept wrap result : Call σ ε α) (Call.ofExcept wrap result) := by
  intro state state' related a after run
  cases result with
  | error _ => cases run
  | ok found =>
    obtain ⟨rfl, rfl⟩ := Outcome.ok.inj run
    exact ⟨state', rfl, related⟩

theorem rejectIf {condition condition' : Prop} [Decidable condition] [Decidable condition'] {error error' : ε}
    (h : condition' → condition) : Simulates R (Call.rejectIf condition error : Call σ ε Unit) (Call.rejectIf condition' error') := by
  intro state state' related value after run
  unfold Call.rejectIf at run ⊢
  split at run
  · cases run
  · rename_i accepted
    obtain ⟨rfl, rfl⟩ := Outcome.ok.inj run
    rw [if_neg fun rejected => accepted (h rejected)]
    exact ⟨state', rfl, related⟩

theorem forM {list : List β} {body : β → Call σ ε PUnit} {body' : β → Call τ ε PUnit}
    (h : ∀ item, Simulates R (body item) (body' item)) : Simulates R (list.forM body) (list.forM body') := by
  induction list with
  | nil => exact pure _
  | cons item list ih =>
    show Simulates R (body item >>= fun _ => list.forM body) (body' item >>= fun _ => list.forM body')
    exact (h item).bind fun _ => ih

theorem zoom {υ ω : Type} {part : σ → υ} {put : σ → υ → σ} {part' : τ → ω} {put' : τ → ω → τ} {wrap wrap' : δ → ε}
    {call : Call υ δ α} {call' : Call ω δ α}
    (h : ∀ state state', R state state' → ∀ value inner, call (part state) = .ok value inner →
      ∃ inner', call' (part' state') = .ok value inner' ∧ R (put state inner) (put' state' inner')) :
    Simulates R (Call.zoom part put wrap call : Call σ ε α) (Call.zoom part' put' wrap' call') := by
  intro state state' related value after run
  unfold Call.zoom at run
  cases inside : call (part state) with
  | ok found inner =>
    rw [inside] at run
    obtain ⟨rfl, rfl⟩ := Outcome.ok.inj run
    obtain ⟨inner', run', related'⟩ := h state state' related found inner inside
    exact ⟨_, zoom_ok run', related'⟩
  | err error inner =>
    rw [inside] at run
    cases run
  | panic =>
    rw [inside] at run
    cases run

end Simulates

end Hynergy.Call
