/-!
# Exploration from a worklist

Vertices wait in a worklist. One that is taken from it and was not visited before is visited, and what follows it
joins the worklist. When nothing waits any more, what was visited is what can be reached.
-/

namespace Hynergy.Lib

variable {V : Type} {next : V → List V} {starts pending pending' : List V} {visited : V → Prop} {v : V}

inductive Reaches (next : V → List V) (starts : List V) : V → Prop
  | start {v : V} (member : v ∈ starts) : Reaches next starts v
  | step {v w : V} (reached : Reaches next starts v) (member : w ∈ next v) : Reaches next starts w

/-- What is visited or waits can be reached, and nothing that follows it is forgotten. -/
structure Explored (next : V → List V) (starts pending : List V) (visited : V → Prop) : Prop where
  waiting : ∀ v ∈ pending, Reaches next starts v
  reached : ∀ v, visited v → Reaches next starts v
  started : ∀ v ∈ starts, visited v ∨ v ∈ pending
  closed : ∀ v, visited v → ∀ w ∈ next v, visited w ∨ w ∈ pending

namespace Explored

theorem start (same : ∀ v, v ∈ pending ↔ v ∈ starts) : Explored next starts pending fun _ => False where
  waiting v member := .start ((same v).mp member)
  reached _ none := none.elim
  started v member := Or.inr ((same v).mpr member)
  closed _ none := none.elim

/-- A vertex that was visited before is dropped. -/
theorem skip (h : Explored next starts (v :: pending) visited) (known : visited v) :
    Explored next starts pending visited := by
  have drop : ∀ w, visited w ∨ w ∈ v :: pending → visited w ∨ w ∈ pending := by
    intro w met
    rcases met with seen | waits
    · exact Or.inl seen
    · rcases List.mem_cons.mp waits with rfl | later
      · exact Or.inl known
      · exact Or.inr later
  exact ⟨fun w member => h.waiting w (List.mem_cons_of_mem _ member), h.reached,
    fun w member => drop w (h.started w member), fun u seen w member => drop w (h.closed u seen w member)⟩

theorem visit (h : Explored next starts (v :: pending) visited) {visited' : V → Prop}
    (marked : ∀ w, visited' w ↔ visited w ∨ w = v) (joined : ∀ w, w ∈ pending' ↔ w ∈ next v ∨ w ∈ pending) :
    Explored next starts pending' visited' := by
  have reached : Reaches next starts v := h.waiting v List.mem_cons_self
  have keep : ∀ w, visited w ∨ w ∈ v :: pending → visited' w ∨ w ∈ pending' := by
    intro w met
    rcases met with seen | waits
    · exact Or.inl ((marked w).mpr (Or.inl seen))
    · rcases List.mem_cons.mp waits with here | later
      · exact Or.inl ((marked w).mpr (Or.inr here))
      · exact Or.inr ((joined w).mpr (Or.inr later))
  refine ⟨fun w member => ?_, fun w seen => ?_, fun w member => keep w (h.started w member), fun u seen w member => ?_⟩
  · rcases (joined w).mp member with follows | waits
    · exact .step reached follows
    · exact h.waiting w (List.mem_cons_of_mem _ waits)
  · rcases (marked w).mp seen with earlier | rfl
    · exact h.reached w earlier
    · exact reached
  · rcases (marked u).mp seen with earlier | rfl
    · exact keep w (h.closed u earlier w member)
    · exact Or.inr ((joined w).mpr (Or.inl member))

theorem done (h : Explored next starts [] visited) : visited v ↔ Reaches next starts v := by
  constructor
  · exact h.reached v
  · intro reached
    induction reached with
    | start member => exact (h.started _ member).resolve_right List.not_mem_nil
    | step _ member ih => exact (h.closed _ ih _ member).resolve_right List.not_mem_nil

end Explored

end Hynergy.Lib
