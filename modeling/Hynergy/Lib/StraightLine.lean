import Mathlib.Data.List.Pairwise
import Mathlib.Logic.Function.Basic

/-!
# Straight-line programs

Instructions that each write one place from the places they read. A place is settled when it
holds what its instruction would write. In a program whose instructions only read what earlier
ones wrote, running it settles every place, and the settled values are determined by the places
it does not write; so any other order of execution that ends with every place settled ends with
the same values.
-/

namespace Hynergy.Lib

/-- The instructions `O` of a machine with values `V` at the places `ι`. -/
structure Machine (O ι V : Type*) where
  dest : O → ι
  reads : O → List ι
  eval : O → (ι → V) → V
  eval_congr : ∀ o σ τ, (∀ i ∈ reads o, σ i = τ i) → eval o σ = eval o τ

namespace Machine

variable {O ι V : Type*} [DecidableEq ι] (m : Machine O ι V) {σ τ : ι → V} {o p : O} {ops rest : List O}

def step (σ : ι → V) (o : O) : ι → V := Function.update σ (m.dest o) (m.eval o σ)

def run (ops : List O) (σ : ι → V) : ι → V := ops.foldl m.step σ

/-- The place of the instruction holds what the instruction writes. -/
def Settled (σ : ι → V) (o : O) : Prop := σ (m.dest o) = m.eval o σ

/-- No instruction reads its own place, or writes one that an earlier instruction reads or writes. -/
structure Ordered (ops : List O) : Prop where
  irrefl : ∀ o ∈ ops, m.dest o ∉ m.reads o
  pairwise : ops.Pairwise fun a b => m.dest b ∉ m.reads a ∧ m.dest b ≠ m.dest a

variable {m}

omit [DecidableEq ι] in
theorem Ordered.tail (h : m.Ordered (o :: ops)) : m.Ordered ops :=
  ⟨fun p member => h.irrefl p (List.mem_cons_of_mem _ member), (List.pairwise_cons.mp h.pairwise).2⟩

omit [DecidableEq ι] in
theorem Ordered.head (h : m.Ordered (o :: ops)) :
    m.dest o ∉ m.reads o ∧ ∀ p ∈ ops, m.dest p ∉ m.reads o ∧ m.dest p ≠ m.dest o :=
  ⟨h.irrefl o List.mem_cons_self, (List.pairwise_cons.mp h.pairwise).1⟩

theorem step_off {i : ι} (off : i ≠ m.dest o) : m.step σ o i = σ i := Function.update_of_ne off _ _

theorem step_dest : m.step σ o (m.dest o) = m.eval o σ := Function.update_self ..

/-- A place nothing writes stays. -/
theorem run_off {i : ι} (off : ∀ o ∈ ops, m.dest o ≠ i) : m.run ops σ i = σ i := by
  induction ops generalizing σ with
  | nil => rfl
  | cons o ops ih =>
    rw [run, List.foldl_cons]
    refine (ih fun p member => off p (List.mem_cons_of_mem _ member)).trans (step_off ?_)
    exact (off o List.mem_cons_self).symm

omit [DecidableEq ι] in
/-- What an instruction neither reads nor writes does not unsettle it. -/
theorem Settled.congr (h : m.Settled σ o) (reads : ∀ i ∈ m.reads o, τ i = σ i)
    (dest : τ (m.dest o) = σ (m.dest o)) : m.Settled τ o := by
  rw [Settled, dest, h]
  exact m.eval_congr o σ τ fun i member => (reads i member).symm

theorem step_settled (own : m.dest o ∉ m.reads o) : m.Settled (m.step σ o) o := by
  rw [Settled, step_dest]
  exact m.eval_congr o _ _ fun i member => (step_off fun same => own (same ▸ member)).symm

theorem Settled.step (h : m.Settled σ o) (reads : m.dest p ∉ m.reads o) (dest : m.dest p ≠ m.dest o) :
    m.Settled (m.step σ p) o :=
  h.congr (fun _ member => step_off fun same => reads (same ▸ member)) (step_off dest.symm)

theorem Settled.run (h : m.Settled σ o)
    (later : ∀ p ∈ ops, m.dest p ∉ m.reads o ∧ m.dest p ≠ m.dest o) : m.Settled (m.run ops σ) o :=
  h.congr (fun _ member => run_off fun p there same => (later p there).1 (same ▸ member))
    (run_off fun p there => (later p there).2)

/-- Running an ordered program settles every place it writes. -/
theorem run_settled (ordered : m.Ordered ops) : ∀ o ∈ ops, m.Settled (m.run ops σ) o := by
  induction ops generalizing σ with
  | nil => simp
  | cons o ops ih =>
    intro p member
    rcases List.mem_cons.mp member with rfl | later
    · exact (step_settled ordered.head.1).run ordered.head.2
    · exact ih ordered.tail p later

/-- Settled values agree on a set of places that holds with a place what its instruction reads, up to places
where they are known to agree, if they agree on the places of the set that the program does not write. -/
theorem settled_agree (ordered : m.Ordered ops) (settled : ∀ o ∈ ops, m.Settled σ o)
    (settled' : ∀ o ∈ ops, m.Settled τ o) {C : ι → Prop}
    (closed : ∀ o ∈ ops, C (m.dest o) → σ (m.dest o) = τ (m.dest o) ∨ ∀ i ∈ m.reads o, C i)
    (same : ∀ i, C i → (∀ o ∈ ops, m.dest o ≠ i) → σ i = τ i) : ∀ i, C i → σ i = τ i := by
  induction ops with
  | nil => exact fun i inside => same i inside (by simp)
  | cons o ops ih =>
    refine ih ordered.tail (fun p member => settled p (List.mem_cons_of_mem _ member))
      (fun p member => settled' p (List.mem_cons_of_mem _ member))
      (fun p member => closed p (List.mem_cons_of_mem _ member)) fun i inside off => ?_
    by_cases here : m.dest o = i
    · rcases closed o List.mem_cons_self (here ▸ inside) with known | reads
      · rwa [here] at known
      rw [← here, settled o List.mem_cons_self, settled' o List.mem_cons_self]
      refine m.eval_congr o σ τ fun j member => same j (reads j member) fun p there isDest => ?_
      rcases List.mem_cons.mp there with rfl | later
      · exact ordered.head.1 (isDest ▸ member)
      · exact (ordered.head.2 p later).1 (isDest ▸ member)
    · refine same i inside fun p there => ?_
      rcases List.mem_cons.mp there with rfl | later
      · exact here
      · exact off p later

/-- Settled values are determined by the places the program does not write. -/
theorem settled_unique (ordered : m.Ordered ops) (settled : ∀ o ∈ ops, m.Settled σ o)
    (settled' : ∀ o ∈ ops, m.Settled τ o) (same : ∀ i, (∀ o ∈ ops, m.dest o ≠ i) → σ i = τ i) : σ = τ :=
  funext fun i => settled_agree ordered settled settled' (C := fun _ => True)
    (fun _ _ _ => Or.inr fun _ _ => trivial) (fun i _ => same i) i trivial

/-- Values that agree with the start off the program and are settled are what running it gives. -/
theorem run_eq_of_settled (ordered : m.Ordered ops) (settled : ∀ o ∈ ops, m.Settled τ o)
    (same : ∀ i, (∀ o ∈ ops, m.dest o ≠ i) → τ i = σ i) : m.run ops σ = τ :=
  settled_unique ordered (run_settled ordered) settled fun i off => (run_off off).trans (same i off).symm

end Machine

end Hynergy.Lib
