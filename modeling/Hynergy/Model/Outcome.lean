/-!
# Outcomes of calls

A call on `&mut self` returns a value or an error, each with the state it leaves behind, or
panics. `Call` is the monad of such calls: a `?` stops at the error and keeps the state
reached so far.
-/

namespace Hynergy

inductive Outcome (σ ε α : Type) where
  | ok (value : α) (state : σ)
  | err (error : ε) (state : σ)
  | panic

/-- How a call that does not panic leaves the state. -/
def Outcome.Leaves {σ ε α : Type} (outcome : Outcome σ ε α) (after : σ) : Prop :=
  (∃ value, outcome = .ok value after) ∨ ∃ error, outcome = .err error after

theorem Outcome.Leaves.of_ok {σ ε α : Type} {outcome : Outcome σ ε α} {after other : σ} {value : α}
    (h : outcome.Leaves after) (run : outcome = .ok value other) : after = other := by
  rcases h with ⟨v, h⟩ | ⟨e, h⟩ <;> rw [run] at h <;> simp_all

theorem Outcome.Leaves.of_err {σ ε α : Type} {outcome : Outcome σ ε α} {after other : σ} {error : ε}
    (h : outcome.Leaves after) (run : outcome = .err error other) : after = other := by
  rcases h with ⟨v, h⟩ | ⟨e, h⟩ <;> rw [run] at h <;> simp_all

/-- The value and the state of a call that returns. -/
def Outcome.returned {σ ε α : Type} : Outcome σ ε α → Option (α × σ)
  | .ok value after => some (value, after)
  | _ => none

theorem Outcome.of_returned {σ ε α : Type} {outcome : Outcome σ ε α} {result : α × σ}
    (h : outcome.returned = some result) : outcome = .ok result.1 result.2 := by
  cases outcome with
  | ok value after =>
    obtain rfl := Option.some.inj h
    rfl
  | err | panic => cases h

/-- Where the call ends: with a value and a state of `ok`, an error and a state of `err`, or, given
the excuse, in a panic. -/
def Outcome.Meets {σ ε α : Type} (outcome : Outcome σ ε α) (excuse : Prop) (ok : α → σ → Prop)
    (err : ε → σ → Prop) : Prop :=
  match outcome with
  | .ok value after => ok value after
  | .err error after => err error after
  | .panic => excuse

namespace Outcome.Meets

variable {σ ε α : Type} {outcome : Outcome σ ε α} {excuse : Prop} {ok : α → σ → Prop} {err : ε → σ → Prop}

theorem of_ok {value : α} {after : σ} (run : outcome = .ok value after) (h : ok value after) :
    outcome.Meets excuse ok err := by
  rw [run]
  exact h

theorem of_err {error : ε} {after : σ} (run : outcome = .err error after) (h : err error after) :
    outcome.Meets excuse ok err := by
  rw [run]
  exact h

theorem mono {excuse' : Prop} {ok' : α → σ → Prop} {err' : ε → σ → Prop} (h : outcome.Meets excuse ok err)
    (worse : excuse → excuse') (weaker : ∀ value after, ok value after → ok' value after)
    (weaker' : ∀ error after, err error after → err' error after) : outcome.Meets excuse' ok' err' := by
  cases outcome with
  | ok value after => exact weaker value after h
  | err error after => exact weaker' error after h
  | panic => exact worse h

/-- What holds of every state the call can leave. -/
theorem leaves {after : σ} {post : σ → Prop} (h : outcome.Meets excuse ok err) (left : outcome.Leaves after)
    (fine : ∀ value after, ok value after → post after) (failed : ∀ error after, err error after → post after) :
    post after := by
  rcases left with ⟨value, run⟩ | ⟨error, run⟩ <;> rw [run] at h
  · exact fine value after h
  · exact failed error after h

end Outcome.Meets

def Call (σ ε α : Type) := σ → Outcome σ ε α

namespace Call

variable {σ τ ε δ α β : Type}

def bind (call : Call σ ε α) (next : α → Call σ ε β) : Call σ ε β := fun state =>
  match call state with
  | .ok value after => next value after
  | .err error after => .err error after
  | .panic => .panic

instance : Monad (Call σ ε) where
  pure value := fun state => .ok value state
  bind := bind

def get : Call σ ε σ := fun state => .ok state state

def set (state : σ) : Call σ ε Unit := fun _ => .ok () state

def modify (f : σ → σ) : Call σ ε Unit := fun state => .ok () (f state)

def throw (error : ε) : Call σ ε α := fun state => .err error state

/-- `unwrap`, `expect` and indexing. -/
def expect (value : Option α) : Call σ ε α := fun state =>
  match value with
  | some value => .ok value state
  | none => .panic

/-- `assert!`. -/
def assert (condition : Prop) [Decidable condition] : Call σ ε Unit := fun state =>
  if condition then .ok () state else .panic

/-- `ok_or(error)?`. -/
def okOr (value : Option α) (error : ε) : Call σ ε α := fun state =>
  match value with
  | some value => .ok value state
  | none => .err error state

/-- `result?`, the error converted. -/
def ofExcept (wrap : δ → ε) (result : Except δ α) : Call σ ε α := fun state =>
  match result with
  | .ok value => .ok value state
  | .error error => .err (wrap error) state

/-- `if condition { return Err(error); }`. -/
def rejectIf (condition : Prop) [Decidable condition] (error : ε) : Call σ ε Unit := fun state =>
  if condition then .err error state else .ok () state

/-- A call on a field of the state. -/
def zoom (part : σ → τ) (put : σ → τ → σ) (wrap : δ → ε) (call : Call τ δ α) : Call σ ε α :=
  fun state =>
    match call (part state) with
    | .ok value after => .ok value (put state after)
    | .err error after => .err (wrap error) (put state after)
    | .panic => .panic

/-- `map_err`. -/
def mapErr (wrap : δ → ε) (call : Call σ δ α) : Call σ ε α := zoom id (fun _ after => after) wrap call

/-- `call().expect(..)`: an error panics. -/
def expectOk (call : Call σ δ α) : Call σ ε α := fun state =>
  match call state with
  | .ok value after => .ok value after
  | _ => .panic

/-! ### Running a call -/

variable {state after : σ} {value : α} {error : ε}

theorem bind_ok {call : Call σ ε α} {next : α → Call σ ε β} (h : call state = .ok value after) :
    (call >>= next) state = next value after := by
  show bind call next state = _
  rw [bind, h]

theorem bind_err {call : Call σ ε α} {next : α → Call σ ε β} (h : call state = .err error after) :
    (call >>= next) state = .err error after := by
  show bind call next state = _
  rw [bind, h]

theorem bind_panic {call : Call σ ε α} {next : α → Call σ ε β} (h : call state = .panic) :
    (call >>= next) state = .panic := by
  show bind call next state = _
  rw [bind, h]

theorem bind_bind {γ : Type} {call : Call σ ε α} {next : α → Call σ ε β} {last : β → Call σ ε γ} :
    ((call >>= next) >>= last) state = (call >>= fun value => next value >>= last) state := by
  show bind (bind call next) last state = bind call (fun value => bind (next value) last) state
  unfold bind
  cases call state <;> rfl

theorem meets_bind {call : Call σ ε α} {next : α → Call σ ε β} {excuse : Prop} {ok : β → σ → Prop} {err : ε → σ → Prop}
    (h : (call state).Meets excuse (fun value after => (next value after).Meets excuse ok err) err) :
    ((call >>= next) state).Meets excuse ok err := by
  show (bind call next state).Meets excuse ok err
  unfold bind
  cases run : call state with
  | ok value after =>
    rw [run] at h
    exact h
  | err error after =>
    rw [run] at h
    exact h
  | panic =>
    rw [run] at h
    exact h

theorem meets_expect {value : Option α} {next : α → Call σ ε β} {excuse : Prop} {ok : β → σ → Prop} {err : ε → σ → Prop}
    (panics : excuse) (rest : ∀ v, value = some v → (next v state).Meets excuse ok err) :
    ((expect value >>= next) state).Meets excuse ok err := by
  cases value with
  | none => exact panics
  | some v => exact rest v rfl

@[simp] theorem pure_apply : (pure value : Call σ ε α) state = .ok value state := rfl

@[simp] theorem get_bind (next : σ → Call σ ε β) : (get >>= next) state = next state state := rfl

@[simp] theorem set_apply (s : σ) : (set s : Call σ ε Unit) state = .ok () s := rfl

@[simp] theorem set_bind (s : σ) (next : Unit → Call σ ε β) :
    (set s >>= next) state = next () s := rfl

@[simp] theorem modify_apply (f : σ → σ) : (modify f : Call σ ε Unit) state = .ok () (f state) := rfl

@[simp] theorem modify_bind (f : σ → σ) (next : Unit → Call σ ε β) :
    (modify f >>= next) state = next () (f state) := rfl

@[simp] theorem throw_apply : (throw error : Call σ ε α) state = .err error state := rfl

@[simp] theorem throw_bind (next : α → Call σ ε β) :
    ((throw error : Call σ ε α) >>= next) state = .err error state := rfl

@[simp] theorem pure_bind' (next : α → Call σ ε β) :
    ((pure value : Call σ ε α) >>= next) state = next value state := rfl

@[simp] theorem expect_some : (expect (some value) : Call σ ε α) state = .ok value state := rfl

@[simp] theorem expect_some_bind (next : α → Call σ ε β) :
    (expect (some value) >>= next) state = next value state := rfl

@[simp] theorem okOr_some : (okOr (some value) error : Call σ ε α) state = .ok value state := rfl

@[simp] theorem okOr_some_bind (next : α → Call σ ε β) :
    (okOr (some value) error >>= next) state = next value state := rfl

@[simp] theorem okOr_none : (okOr none error : Call σ ε α) state = .err error state := rfl

@[simp] theorem okOr_none_bind (next : α → Call σ ε β) :
    (okOr none error >>= next) state = .err error state := rfl

@[simp] theorem ofExcept_ok {wrap : δ → ε} :
    (ofExcept wrap (.ok value) : Call σ ε α) state = .ok value state := rfl

@[simp] theorem ofExcept_ok_bind {wrap : δ → ε} (next : α → Call σ ε β) :
    (ofExcept wrap (.ok value) >>= next) state = next value state := rfl

@[simp] theorem ofExcept_error_bind {wrap : δ → ε} {e : δ} (next : α → Call σ ε β) :
    (ofExcept wrap (.error e) >>= next) state = .err (wrap e) state := rfl

theorem zoom_ok {part : σ → τ} {put : σ → τ → σ} {wrap : δ → ε} {call : Call τ δ α} {inner : τ}
    (h : call (part state) = .ok value inner) :
    (zoom part put wrap call : Call σ ε α) state = .ok value (put state inner) := by
  rw [zoom, h]

theorem zoom_err {part : σ → τ} {put : σ → τ → σ} {wrap : δ → ε} {call : Call τ δ α} {inner : τ}
    {e : δ} (h : call (part state) = .err e inner) :
    (zoom part put wrap call : Call σ ε α) state = .err (wrap e) (put state inner) := by
  rw [zoom, h]

theorem mapErr_ok {wrap : δ → ε} {call : Call σ δ α} (h : call state = .ok value after) :
    (mapErr wrap call : Call σ ε α) state = .ok value after := zoom_ok h

theorem mapErr_err {wrap : δ → ε} {call : Call σ δ α} {e : δ} (h : call state = .err e after) :
    (mapErr wrap call : Call σ ε α) state = .err (wrap e) after := zoom_err h

theorem expectOk_ok {call : Call σ δ α} (h : call state = .ok value after) :
    (expectOk call : Call σ ε α) state = .ok value after := by
  rw [expectOk, h]

section Conditions

variable {condition : Prop} [Decidable condition]

theorem rejectIf_bind_pos (h : condition) (next : Unit → Call σ ε β) :
    (rejectIf condition error >>= next) state = .err error state :=
  bind_err (by rw [rejectIf, if_pos h])

theorem rejectIf_bind_neg (h : ¬ condition) (next : Unit → Call σ ε β) :
    (rejectIf condition error >>= next) state = next () state :=
  bind_ok (by rw [rejectIf, if_neg h])

end Conditions

end Call

end Hynergy
