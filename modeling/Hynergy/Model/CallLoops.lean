import Hynergy.Model.CallInversion

/-!
# Loops of calls

A loop that pushes the result of its body for each item. The body sees what was pushed so far.
-/

namespace Hynergy.Call

variable {σ ε α β : Type} {state after : σ}

theorem expect_eq_ok {option : Option α} {value : α}
    (run : (expect option : Call σ ε α) state = .ok value after) : option = some value ∧ after = state := by
  cases option with
  | none => cases run
  | some found =>
    obtain ⟨rfl, rfl⟩ := Outcome.ok.inj run
    exact ⟨rfl, rfl⟩

theorem assert_bind {condition : Prop} [Decidable condition] {next : Unit → Call σ ε β} (holds : condition) :
    (assert condition >>= next) state = next () state := by
  refine bind_ok ?_
  unfold assert
  rw [if_pos holds]

/-- `for item in items { done.push(body(item)?); }`. -/
def pushEach (body : List β → α → Call σ ε β) : List β → List α → Call σ ε (List β)
  | done, [] => pure done
  | done, item :: rest => do
    let value ← body done item
    pushEach body (done ++ [value]) rest

/-- What every round keeps holds at the end; the invariant speaks of the items seen and of what was pushed. -/
theorem pushEach_ok {body : List β → α → Call σ ε β} {items : List α} {done values : List β}
    (inv : List α → List β → σ → Prop)
    (step : ∀ seen item rest done value state after, seen ++ item :: rest = items → inv seen done state →
      body done item state = .ok value after → inv (seen ++ [item]) (done ++ [value]) after)
    (start : inv [] done state) (run : pushEach body done items state = .ok values after) : inv items values after := by
  have general : ∀ (rest seen : List α) (done : List β) (state : σ), seen ++ rest = items → inv seen done state →
      pushEach body done rest state = .ok values after → inv items values after := by
    intro rest
    induction rest with
    | nil =>
      intro seen done state split holds run
      obtain ⟨rfl, rfl⟩ := Outcome.ok.inj run
      rw [List.append_nil] at split
      exact split ▸ holds
    | cons item rest ih =>
      intro seen done state split holds run
      obtain ⟨value, mid, first, run⟩ := bind_eq_ok run
      exact ih (seen ++ [item]) _ mid (by simp [split]) (step seen item rest done value state mid split holds first) run
  exact general items [] done state rfl start run

/-- A loop whose rounds keep the invariant and do not panic does not panic. -/
theorem pushEach_meets {body : List β → α → Call σ ε β} {items : List α} {done : List β} {excuse : Prop}
    {err : ε → σ → Prop} (inv : List α → List β → σ → Prop)
    (step : ∀ seen item rest done state, seen ++ item :: rest = items → inv seen done state →
      (body done item state).Meets excuse (fun value after => inv (seen ++ [item]) (done ++ [value]) after) err)
    (start : inv [] done state) :
    (pushEach body done items state).Meets excuse (fun values after => inv items values after) err := by
  have general : ∀ (rest seen : List α) (done : List β) (state : σ), seen ++ rest = items → inv seen done state →
      (pushEach body done rest state).Meets excuse (fun values after => inv items values after) err := by
    intro rest
    induction rest with
    | nil =>
      intro seen done state split holds
      rw [List.append_nil] at split
      exact split ▸ holds
    | cons item rest ih =>
      intro seen done state split holds
      refine meets_bind ((step seen item rest done state split holds).mono id ?_ fun _ _ failed => failed)
      intro value after kept
      exact ih (seen ++ [item]) _ after (by simp [split]) kept
  exact general items [] done state rfl start

theorem forM_meets {body : α → Call σ ε PUnit} {items : List α} {excuse : Prop} {err : ε → σ → Prop}
    (inv : List α → σ → Prop)
    (step : ∀ seen item rest state, seen ++ item :: rest = items → inv seen state →
      (body item state).Meets excuse (fun _ after => inv (seen ++ [item]) after) err)
    (start : inv [] state) : ((items.forM body) state).Meets excuse (fun _ after => inv items after) err := by
  have general : ∀ (rest seen : List α) (state : σ), seen ++ rest = items → inv seen state →
      ((rest.forM body) state).Meets excuse (fun _ after => inv items after) err := by
    intro rest
    induction rest with
    | nil =>
      intro seen state split holds
      rw [List.append_nil] at split
      exact split ▸ holds
    | cons item rest ih =>
      intro seen state split holds
      show ((body item >>= fun _ => rest.forM body) state).Meets _ _ _
      refine meets_bind ((step seen item rest state split holds).mono id ?_ fun _ _ failed => failed)
      intro _ after kept
      exact ih (seen ++ [item]) after (by simp [split]) kept
  exact general items [] state rfl start

/-- A loop whose rounds neither panic nor fail. -/
theorem forM_steps {body : α → Call σ ε PUnit} {items : List α} (steps : List α → σ)
    (each : ∀ seen item rest, seen ++ item :: rest = items → body item (steps seen) = .ok ⟨⟩ (steps (seen ++ [item])))
    (start : steps [] = state) (done : steps items = after) : (items.forM body) state = .ok ⟨⟩ after := by
  have general : ∀ rest seen : List α, seen ++ rest = items → (rest.forM body) (steps seen) = .ok ⟨⟩ (steps items) := by
    intro rest
    induction rest with
    | nil =>
      intro seen split
      rw [List.append_nil] at split
      exact split ▸ rfl
    | cons item rest ih =>
      intro seen split
      show (body item >>= fun _ => rest.forM body) (steps seen) = _
      rw [bind_ok (each seen item rest split)]
      exact ih (seen ++ [item]) (by simp [split])
  exact start ▸ done ▸ general items [] rfl

end Hynergy.Call
