import Mathlib.Algebra.Order.BigOperators.Group.List
import Mathlib.Tactic.Ring
import Mathlib.Algebra.Order.Group.Nat
import Hynergy.Lib.Returns

/-!
# Buckets in one array

Entries are sorted by key into one array: the keys are counted, the counts are summed up to the
offsets at which the buckets start, and every entry goes to the cursor of its bucket. The numbers
are kept below a limit.
-/

namespace Hynergy.Lib.Buckets

universe u

variable {V : Type} {limit n : Nat}

/-- The values of the key, in their order. -/
def bucket (entries : List (Nat × V)) (k : Nat) : List V :=
  (entries.filter fun entry => decide (entry.1 = k)).map Prod.snd

theorem bucket_append (done : List (Nat × V)) (entry : Nat × V) (k : Nat) :
    bucket (done ++ [entry]) k = bucket done k ++ if entry.1 = k then [entry.2] else [] := by
  unfold bucket
  rw [List.filter_append, List.map_append]
  by_cases same : entry.1 = k
  · simp [same]
  · simp [same]

theorem bucket_length_le (entries : List (Nat × V)) (k : Nat) : (bucket entries k).length ≤ entries.length := by
  rw [bucket, List.length_map]
  exact List.length_filter_le ..

theorem bucket_length_lt {entries done rest : List (Nat × V)} {entry : Nat × V}
    (split : entries = done ++ entry :: rest) : (bucket done entry.1).length < (bucket entries entry.1).length := by
  rw [split, bucket, bucket, List.filter_append, List.filter_cons_of_pos (by simp)]
  simp

theorem mem_bucket {entries : List (Nat × V)} {k : Nat} {v : V} : v ∈ bucket entries k ↔ (k, v) ∈ entries := by
  simp only [bucket, List.mem_map, List.mem_filter, decide_eq_true_eq]
  constructor
  · rintro ⟨⟨k', v'⟩, ⟨member, same⟩, rfl⟩
    dsimp only at same
    subst same
    exact member
  · intro member
    exact ⟨(k, v), ⟨member, rfl⟩, rfl⟩

/-- How many values each key has. -/
def counts (n : Nat) (entries : List (Nat × V)) : List Nat :=
  (List.range n).map fun k => (bucket entries k).length

theorem counts_get {entries : List (Nat × V)} {k : Nat} (inside : k < n) :
    (counts n entries)[k]? = some (bucket entries k).length := by
  rw [counts, List.getElem?_map, List.getElem?_range inside]
  rfl

/-- Where the bucket of a key starts. -/
def start (sizes : List Nat) (k : Nat) : Nat := (sizes.take k).sum

theorem start_succ {sizes : List Nat} {k size : Nat} (read : sizes[k]? = some size) :
    start sizes (k + 1) = start sizes k + size := by
  obtain ⟨inside, rfl⟩ := List.getElem?_eq_some_iff.mp read
  exact List.sum_take_succ sizes k inside

theorem start_mono (sizes : List Nat) {k k' : Nat} (le : k ≤ k') : start sizes k ≤ start sizes k' :=
  List.monotone_sum_take sizes le

theorem sum_indicator (a n : Nat) :
    ((List.range n).map fun k => if a = k then 1 else 0).sum = if a < n then 1 else 0 := by
  induction n with
  | zero => rfl
  | succ n ih =>
    rw [List.range_succ, List.map_append, List.sum_append, ih, List.map_singleton, List.sum_singleton]
    split <;> split <;> split <;> omega

/-- Every entry has its key counted. -/
theorem sum_counts {entries : List (Nat × V)} (keys : ∀ entry ∈ entries, entry.1 < n) :
    (counts n entries).sum = entries.length := by
  induction entries with
  | nil => simp [counts, bucket]
  | cons entry rest ih =>
    have split : ∀ k, (bucket (entry :: rest) k).length = (bucket rest k).length + if entry.1 = k then 1 else 0 := by
      intro k
      unfold bucket
      by_cases same : entry.1 = k
      · simp [same]
      · simp [same]
    have sums : (counts n (entry :: rest)).sum =
        (counts n rest).sum + ((List.range n).map fun k => if entry.1 = k then 1 else 0).sum := by
      simp only [counts, split]
      exact List.sum_map_add
    rw [sums, ih fun other member => keys other (List.mem_cons_of_mem _ member), sum_indicator,
      if_pos (keys entry List.mem_cons_self), List.length_cons]

/-! ### Counting -/

/-- One more of the key, in the cell after it. -/
def tallyOne (limit : Nat) (offsets : List Nat) (k : Nat) : Option (List Nat) := do
  let count ← offsets[k + 1]?
  if count + 1 < limit then some (offsets.set (k + 1) (count + 1)) else none

def tally (limit n : Nat) (entries : List (Nat × V)) : Option (List Nat) :=
  entries.foldlM (fun offsets entry => tallyOne limit offsets entry.1) (List.replicate (n + 1) 0)

theorem tally_returns {entries : List (Nat × V)} (keys : ∀ entry ∈ entries, entry.1 < n) :
    Returns (limit ≤ entries.length) (tally limit n entries) fun offsets => offsets = 0 :: counts n entries := by
  refine Returns.foldlM (fun done offsets => offsets = 0 :: counts n done) ?_ ?_
  · apply List.ext_getElem
    · simp [counts]
    · intro i inside _
      cases i with
      | zero => simp
      | succ i => simp [counts, bucket]
  · rintro done entry rest _ split rfl
    have inside : entry.1 < n := keys entry (by rw [split]; simp)
    have read : (0 :: counts n done)[entry.1 + 1]? = some (bucket done entry.1).length := counts_get inside
    refine Returns.bind_some read ?_
    split
    · refine Returns.of_eq_some rfl ?_
      rw [List.set_cons_succ]
      congr 1
      apply List.ext_getElem?
      intro k
      rw [List.getElem?_set]
      split
      · rename_i same
        subst same
        rw [if_pos (by simpa [counts] using inside), counts_get inside, bucket_append, if_pos rfl]
        simp
      · rename_i other
        by_cases bound : k < n
        · rw [counts_get bound, counts_get bound, bucket_append, if_neg other, List.append_nil]
        · rw [List.getElem?_eq_none (by simpa [counts] using bound),
            List.getElem?_eq_none (by simpa [counts] using bound)]
    · rename_i full
      have below := bucket_length_lt split
      have le := bucket_length_le entries entry.1
      show limit ≤ entries.length
      omega

/-! ### Summing up -/

/-- Every number plus what came before it. -/
def accumulate (limit : Nat) : Nat → List Nat → Option (List Nat)
  | _, [] => some []
  | carry, count :: rest => do
    let sum ← if count + carry < limit then some (count + carry) else none
    let sums ← accumulate limit sum rest
    some (sum :: sums)

theorem accumulate_returns {sizes : List Nat} {carry : Nat} :
    Returns (limit ≤ carry + sizes.sum) (accumulate limit carry sizes) fun sums =>
      sums.length = sizes.length ∧ ∀ k, k < sizes.length → sums[k]? = some (carry + start sizes (k + 1)) := by
  induction sizes generalizing carry with
  | nil => exact Returns.of_eq_some rfl ⟨rfl, fun k inside => absurd inside (Nat.not_lt_zero _)⟩
  | cons size rest ih =>
    rw [accumulate]
    by_cases fits : size + carry < limit
    · rw [if_pos fits]
      refine Returns.bind_some rfl ((ih.mono (fun beyond => ?_) fun _ h => h).bind fun sums h => ?_)
      · rw [List.sum_cons]
        omega
      · obtain ⟨length, sums⟩ := h
        refine Returns.of_eq_some rfl ⟨by rw [List.length_cons, List.length_cons, length], fun k inside => ?_⟩
        cases k with
        | zero => simp [start, Nat.add_comm]
        | succ k =>
          rw [List.getElem?_cons_succ, sums k (by simpa using inside)]
          simp only [start, List.take_succ_cons, List.sum_cons, Option.some.injEq]
          omega
    · rw [if_neg fits]
      show limit ≤ carry + (size :: rest).sum
      rw [List.sum_cons]
      omega

/-! ### Placing -/

/-- The entry goes to the cursor of its bucket. -/
def placeOne (state : List V × List Nat) (entry : Nat × V) : Option (List V × List Nat) := do
  let cursor ← state.2[entry.1]?
  if cursor < state.1.length then some (state.1.set cursor entry.2, state.2.set entry.1 (cursor + 1)) else none

/-- The entries so far are in the first cells of their buckets. -/
structure Placed (n : Nat) (sizes : List Nat) (done : List (Nat × V)) (state : List V × List Nat) : Prop where
  cells : state.1.length = start sizes n
  cursors : ∀ k, k < n → state.2[k]? = some (start sizes k + (bucket done k).length)
  placed : ∀ k, k < n → ∀ r v, (bucket done k)[r]? = some v → state.1[start sizes k + r]? = some v

theorem place_returns {entries : List (Nat × V)} (keys : ∀ entry ∈ entries, entry.1 < n) {cells : List V}
    {cursors : List Nat} (first : Placed n (counts n entries) [] (cells, cursors)) :
    Returns False (entries.foldlM placeOne (cells, cursors)) (Placed n (counts n entries) entries) := by
  refine Returns.foldlM (Placed n (counts n entries)) first ?_
  rintro done ⟨k, v⟩ rest ⟨cells, cursors⟩ split placed
  have inside : k < n := keys (k, v) (by rw [split]; simp)
  have below := bucket_length_lt split
  have size := start_succ (@counts_get _ _ entries _ inside)
  have next := start_mono (counts n entries) (show k + 1 ≤ n from inside)
  have total : cells.length = start (counts n entries) n := placed.cells
  dsimp only at below
  have room : start (counts n entries) k + (bucket done k).length < cells.length := by omega
  unfold placeOne
  refine Returns.bind_some (placed.cursors k inside) ?_
  rw [if_pos room]
  refine Returns.of_eq_some rfl ⟨by rw [List.length_set]; exact placed.cells, fun j bound => ?_, fun j bound r w read => ?_⟩
  · dsimp only
    rw [bucket_append, List.getElem?_set]
    split
    · rename_i same
      subst same
      rw [if_pos (List.getElem?_eq_some_iff.mp (placed.cursors k inside)).1]
      simp [Nat.add_assoc]
    · rename_i other
      rw [List.append_nil]
      exact placed.cursors j bound
  · rw [bucket_append] at read
    dsimp only at read ⊢
    have old : (bucket done j)[r]? = some w →
        (cells.set (start (counts n entries) k + (bucket done k).length) v)[start (counts n entries) j + r]? =
          some w := by
      intro read
      rw [List.getElem?_set_ne, placed.placed j bound r w read]
      -- the cell of an earlier entry is in another bucket or lower in the same one
      have rank : r < (bucket done j).length := (List.getElem?_eq_some_iff.mp read).1
      have fits : (bucket done j).length ≤ (bucket entries j).length := by
        rw [split, bucket, bucket, List.filter_append, List.map_append, List.length_append]
        omega
      have size' := start_succ (@counts_get _ _ entries _ bound)
      rcases Nat.lt_trichotomy k j with before | same | after
      · have := start_mono (counts n entries) (show k + 1 ≤ j from before)
        omega
      · subst same
        omega
      · have := start_mono (counts n entries) (show j + 1 ≤ k from after)
        omega
    by_cases same : k = j
    · subst same
      rw [if_pos rfl, List.getElem?_append] at read
      split at read
      · exact old read
      · rename_i beyond
        obtain ⟨bound', same⟩ := List.getElem?_eq_some_iff.mp read
        rw [List.length_singleton] at bound'
        obtain rfl : r = (bucket done k).length := by omega
        simp only [Nat.sub_self, List.getElem_singleton] at same
        rw [List.getElem?_set_self room, same]
    · rw [if_neg same, List.append_nil] at read
      exact old read

/-! ### The layout -/

/-- The buckets of `n` keys: where each starts, and the cells. -/
structure Layout (n : Nat) (entries : List (Nat × V)) (offsets : List Nat) (cells : List V) : Prop where
  length : offsets.length = n + 1
  bucket : ∀ k, k < n → ∃ s e, offsets[k]? = some s ∧ offsets[k + 1]? = some e ∧ s ≤ e ∧ e ≤ cells.length ∧
    (cells.take e).drop s = bucket entries k

/-- Counting, summing up and placing. -/
def layout [Inhabited V] (limit n : Nat) (entries : List (Nat × V)) : Option (List Nat × List V) := do
  let offsets ← tally limit n entries
  let offsets ← accumulate limit 0 offsets
  let total ← offsets[n]?
  let placed ← entries.foldlM placeOne (List.replicate total default, offsets.take n)
  some (offsets, placed.1)

theorem layout_returns [Inhabited V] {entries : List (Nat × V)} (keys : ∀ entry ∈ entries, entry.1 < n) :
    Returns (limit ≤ entries.length) (layout limit n entries) fun result => Layout n entries result.1 result.2 := by
  refine (tally_returns keys).bind ?_
  rintro _ rfl
  have total : (0 :: counts n entries).sum = entries.length := by
    rw [List.sum_cons, sum_counts keys, Nat.zero_add]
  have offset : ∀ k, k + 1 ≤ n + 1 → 0 + start (0 :: counts n entries) (k + 1) = start (counts n entries) k := by
    intro k _
    simp [start]
  refine (accumulate_returns.mono (fun beyond => ?_) fun _ h => h).bind fun offsets h => ?_
  · rwa [total, Nat.zero_add] at beyond
  obtain ⟨length, sums⟩ := h
  have length' : (0 :: counts n entries).length = n + 1 := by simp [counts]
  rw [length'] at length sums
  have at' : ∀ k, k ≤ n → offsets[k]? = some (start (counts n entries) k) := by
    intro k le
    rw [sums k (by omega), offset k (by omega)]
  refine Returns.bind_some (at' n le_rfl) ?_
  have first : Placed n (counts n entries) [] (List.replicate (start (counts n entries) n) (default : V), offsets.take n) := by
    refine ⟨by simp, fun k bound => ?_, fun k bound r v read => by simp [Buckets.bucket] at read⟩
    rw [List.getElem?_take_of_lt bound, at' k (Nat.le_of_lt bound)]
    rfl
  refine ((place_returns keys first).mono False.elim fun _ h => h).bind fun state placed => ?_
  refine Returns.of_eq_some rfl ⟨length, fun k bound => ?_⟩
  have size := start_succ (@counts_get _ _ entries _ bound)
  have le := start_mono (counts n entries) (show k + 1 ≤ n from bound)
  have all : start (counts n entries) (k + 1) ≤ state.1.length := placed.cells ▸ le
  refine ⟨_, _, at' k (Nat.le_of_lt bound), at' (k + 1) bound, by omega, all, ?_⟩
  apply List.ext_getElem?
  intro r
  by_cases inside : r < (Buckets.bucket entries k).length
  · rw [List.getElem?_drop, List.getElem?_take_of_lt (by omega),
      placed.placed k bound r _ (List.getElem?_eq_getElem inside), List.getElem?_eq_getElem inside]
  · rw [List.getElem?_eq_none (by rw [List.length_drop, List.length_take]; omega),
      List.getElem?_eq_none (by omega)]

end Hynergy.Lib.Buckets
