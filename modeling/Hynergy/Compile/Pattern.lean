import Hynergy.Runtime.System

/-!
# The pattern of a matrix

The requested entries are sorted, made unique and laid out column by column. A slot is the place
of an entry in that order, found by a binary search in its column, and back by one over the columns.
-/

namespace Hynergy

/-! ### Binary searches -/

/-- The bisection of `low..high` for the first index that passes. -/
def bisect (passes : Nat → Bool) (low high : Nat) : Nat :=
  if low < high then
    let middle := low + (high - low) / 2
    if passes middle then bisect passes low middle else bisect passes (middle + 1) high
  else low
termination_by high - low

/-- The bisection finds where the indices begin to pass. -/
theorem bisect_eq {passes : Nat → Bool} {low high first : Nat} (lower : low ≤ first) (upper : first ≤ high)
    (below : ∀ i, low ≤ i → i < first → passes i = false) (from' : ∀ i, first ≤ i → i < high → passes i = true) :
    bisect passes low high = first := by
  induction low, high using bisect.induct passes with
  | case1 low high less middle here ih =>
    rw [bisect, if_pos less]
    dsimp only
    rw [if_pos here]
    have reached : first ≤ low + (high - low) / 2 := by
      by_contra beyond
      have := below (low + (high - low) / 2) (by omega) (by omega)
      rw [this] at here
      cases here
    exact ih lower reached below fun i inside stop => from' i inside (by omega)
  | case2 low high less middle here ih =>
    rw [bisect, if_pos less]
    dsimp only
    rw [if_neg here]
    have past : low + (high - low) / 2 + 1 ≤ first := by
      by_contra before
      exact here (from' (low + (high - low) / 2) (by omega) (by omega))
    exact ih past upper (fun i inside stop => below i (by omega) stop) from'
  | case3 low high done =>
    rw [bisect, if_neg done]
    omega

/-- `slice::binary_search` on a sorted slice. -/
def binarySearch (slice : List Nat) (value : Nat) : Option Nat :=
  let place := bisect (fun i => decide (value ≤ slice[i]?.getD 0)) 0 slice.length
  if slice[place]? = some value then some place else none

/-- In a strictly sorted slice the search finds just where a value is. -/
theorem binarySearch_eq_some {slice : List Nat} (sorted : slice.Pairwise (· < ·)) {value place : Nat} :
    binarySearch slice value = some place ↔ slice[place]? = some value := by
  unfold binarySearch
  dsimp only
  constructor
  · intro found
    split at found
    · obtain rfl := Option.some.inj found
      assumption
    · cases found
  · intro read
    obtain ⟨inside, isValue⟩ := List.getElem?_eq_some_iff.mp read
    have found : bisect (fun i => decide (value ≤ slice[i]?.getD 0)) 0 slice.length = place := by
      refine bisect_eq (Nat.zero_le _) (Nat.le_of_lt inside) (fun i _ before => ?_) fun i after stop => ?_
      · have less := List.pairwise_iff_getElem.mp sorted i place (before.trans inside) inside before
        rw [List.getElem?_eq_getElem (before.trans inside), Option.getD_some, decide_eq_false_iff_not, ← isValue]
        exact Nat.not_le_of_lt less
      · rw [List.getElem?_eq_getElem stop, Option.getD_some, decide_eq_true_eq]
        rcases Nat.lt_or_eq_of_le after with later | rfl
        · rw [← isValue]
          exact Nat.le_of_lt (List.pairwise_iff_getElem.mp sorted place i inside stop later)
        · exact isValue.ge
    rw [found, if_pos read]

/-! ### The builder -/

inductive PatternError where
  | dimensionTooLarge (dimension max : Nat)
  | indexOutOfBounds (index : UnknownIndex) (dimension : Nat)
  | tooManyNonZeros (nnz max : Nat)
  deriving DecidableEq

/-- The coordinates are pairs of a column and a row. -/
structure PatternBuilder where
  dimension : Nat
  coordinates : List (Nat × Nat)

namespace PatternBuilder

/-- `i32::MAX`. -/
def maxDimension : Nat := 2 ^ 31 - 1

/-- `u32::MAX`. -/
def maxNonZeros : Nat := 2 ^ 32 - 1

def new (dimension : Nat) : Except PatternError PatternBuilder :=
  if dimension > maxDimension then .error (.dimensionTooLarge dimension maxDimension) else .ok ⟨dimension, []⟩

def validateIndex (self : PatternBuilder) (index : UnknownIndex) : Except PatternError Unit :=
  if index.index ≥ self.dimension then .error (.indexOutOfBounds index self.dimension) else .ok ()

def request (self : PatternBuilder) (row column : UnknownIndex) : Except PatternError PatternBuilder := do
  self.validateIndex row
  self.validateIndex column
  pure { self with coordinates := self.coordinates ++ [(column.index, row.index)] }

/-- The order of pairs. -/
def coordinateLe (a b : Nat × Nat) : Bool := decide (a.1 < b.1) || (decide (a.1 = b.1) && decide (a.2 ≤ b.2))

/-- `Vec::dedup`. -/
def dedup : List (Nat × Nat) → List (Nat × Nat)
  | [] => []
  | [a] => [a]
  | a :: b :: rest => if a = b then dedup (b :: rest) else a :: dedup (b :: rest)

/-- The inner loop: the rows of the column, and the coordinates from the position it stops at. -/
def takeColumn (column : Nat) : List (Nat × Nat) → List Nat × List (Nat × Nat)
  | [] => ([], [])
  | (c, r) :: rest =>
    if c = column then
      let (rows, remaining) := takeColumn column rest
      (r :: rows, remaining)
    else ([], (c, r) :: rest)

/-- The column pointers and row indices so far, and the coordinates from the position on. -/
structure Layout where
  columnPtrs : List Nat
  rowIndices : List Nat
  remaining : List (Nat × Nat)

/-- One round of the loop over the columns; the position is the number of row indices. -/
def Layout.column (layout : Layout) (column : Nat) : Layout :=
  let (rows, remaining) := takeColumn column layout.remaining
  ⟨layout.columnPtrs ++ [layout.rowIndices.length], layout.rowIndices ++ rows, remaining⟩

def finish (self : PatternBuilder) : Except PatternError MnaPattern :=
  let coordinates := dedup (self.coordinates.mergeSort coordinateLe)
  let nnz := coordinates.length
  if nnz > maxNonZeros then .error (.tooManyNonZeros nnz maxNonZeros)
  else
    let layout := (List.range self.dimension).foldl Layout.column ⟨[], [], coordinates⟩
    .ok ⟨layout.columnPtrs ++ [nnz], layout.rowIndices⟩

end PatternBuilder

namespace MnaPattern

def nnz (self : MnaPattern) : Nat := self.rowIndices.length

/-- `None` inside where the entry was not requested, `none` outside is a panic. -/
def slot (self : MnaPattern) (row column : UnknownIndex) : Option (Option MatrixSlot) := do
  if row.index ≥ self.dimension ∨ column.index ≥ self.dimension then some none
  else
    let start ← self.columnPtrs[column.index]?
    let stop ← self.columnPtrs[column.index + 1]?
    if start ≤ stop ∧ stop ≤ self.rowIndices.length then
      some ((binarySearch ((self.rowIndices.take stop).drop start) row.index).map fun relative => ⟨start + relative⟩)
    else none

/-- The search of `coordinate` as the code runs it; `none` outside is a panic. Every index searched is below the
dimension, so the pointer after it is there. -/
def coordinateSearch (self : MnaPattern) (slot : MatrixSlot) : Option (Option (UnknownIndex × UnknownIndex)) :=
  match self.rowIndices[slot.index]? with
  | none => some none
  | some row =>
    let low := bisect (fun middle => !decide (self.columnPtrs[middle + 1]?.getD 0 ≤ slot.index)) 0 self.dimension
    if low < 2 ^ 32 then some (some (⟨row⟩, ⟨low⟩)) else none

end MnaPattern

/-! ### Layouts -/

namespace PatternBuilder

section Entries

/-- Entries in order, each once. -/
def Strict (entries : List (Nat × Nat)) : Prop := entries.Pairwise fun a b => a.1 < b.1 ∨ a.1 = b.1 ∧ a.2 < b.2

theorem coordinateLe_iff {a b : Nat × Nat} : coordinateLe a b = true ↔ a.1 < b.1 ∨ a.1 = b.1 ∧ a.2 ≤ b.2 := by
  simp [coordinateLe]

theorem mem_dedup {l : List (Nat × Nat)} {a : Nat × Nat} : a ∈ dedup l ↔ a ∈ l := by
  fun_induction dedup l with
  | case1 => rfl
  | case2 => rfl
  | case3 a rest ih => rw [ih]; simp
  | case4 b c rest apart ih => simp [ih]

theorem dedup_strict {l : List (Nat × Nat)} (sorted : l.Pairwise fun a b => coordinateLe a b = true) : Strict (dedup l) := by
  fun_induction dedup l with
  | case1 => exact List.Pairwise.nil
  | case2 a => exact List.pairwise_singleton _ _
  | case3 a rest ih => exact ih (List.pairwise_cons.mp sorted).2
  | case4 a b rest apart ih =>
    obtain ⟨first, tail⟩ := List.pairwise_cons.mp sorted
    refine List.pairwise_cons.mpr ⟨fun c member => ?_, ih tail⟩
    have atB := coordinateLe_iff.mp (first b List.mem_cons_self)
    have different : a.1 = b.1 → a.2 ≠ b.2 := fun same same' => apart (Prod.ext same same')
    rcases List.mem_cons.mp (mem_dedup.mp member) with rfl | later
    · omega
    · have := coordinateLe_iff.mp ((List.pairwise_cons.mp tail).1 c later)
      omega

/-- The entries that `finish` lays out. -/
def entries (self : PatternBuilder) : List (Nat × Nat) := dedup (self.coordinates.mergeSort coordinateLe)

theorem entries_strict (self : PatternBuilder) : Strict self.entries := by
  refine dedup_strict (List.pairwise_mergeSort (fun a b c h h' => ?_) (fun a b => ?_) _)
  · rw [coordinateLe_iff] at h h' ⊢
    omega
  · rw [Bool.or_eq_true, coordinateLe_iff, coordinateLe_iff]
    omega

theorem mem_entries {self : PatternBuilder} {a : Nat × Nat} : a ∈ self.entries ↔ a ∈ self.coordinates := by
  rw [entries, mem_dedup, List.mem_mergeSort]

theorem Strict.nodup {l : List (Nat × Nat)} (h : Strict l) : l.Nodup := by
  refine h.imp fun {a b} less same => ?_
  subst same
  omega

/-- The entries before a column come first. -/
theorem Strict.split {l : List (Nat × Nat)} (h : Strict l) (column : Nat) :
    l = (l.filter fun a => decide (a.1 < column)) ++ l.filter fun a => !decide (a.1 < column) := by
  induction l with
  | nil => rfl
  | cons a l ih =>
    obtain ⟨first, rest⟩ := List.pairwise_cons.mp h
    by_cases before : a.1 < column
    · rw [List.filter_cons_of_pos (by simpa using before), List.filter_cons_of_neg (by simpa using before),
        List.cons_append, ← ih rest]
    · have none : (l.filter fun a => decide (a.1 < column)) = [] := by
        rw [List.filter_eq_nil_iff]
        intro b member
        have := first b member
        simp only [decide_eq_true_eq]
        omega
      have all : (l.filter fun a => !decide (a.1 < column)) = l := by
        rw [List.filter_eq_self]
        intro b member
        have := first b member
        simp only [Bool.not_eq_true', decide_eq_false_iff_not]
        omega
      rw [List.filter_cons_of_neg (by simpa using before), List.filter_cons_of_pos (by simpa using before), none, all,
        List.nil_append]

/-- Where the entries of a column start. -/
def start (l : List (Nat × Nat)) (column : Nat) : Nat := (l.filter fun a => decide (a.1 < column)).length

theorem start_zero (l : List (Nat × Nat)) : start l 0 = 0 := by simp [start]

theorem start_le_length (l : List (Nat × Nat)) (column : Nat) : start l column ≤ l.length := List.length_filter_le _ _

theorem start_mono (l : List (Nat × Nat)) {a b : Nat} (le : a ≤ b) : start l a ≤ start l b := by
  unfold start
  induction l with
  | nil => exact Nat.le_refl _
  | cons c l ih =>
    rw [List.filter_cons, List.filter_cons]
    by_cases before : c.1 < a
    · have : c.1 < b := by omega
      simp [before, this, ih]
    · by_cases before' : c.1 < b
      · simp [before, before']
        omega
      · simpa [before, before'] using ih

/-- The place of an entry lies in its column. -/
theorem Strict.place_lt_start {l : List (Nat × Nat)} (h : Strict l) {place : Nat} {a : Nat × Nat}
    (read : l[place]? = some a) (column : Nat) : place < start l column ↔ a.1 < column := by
  rw [h.split column] at read
  constructor
  · intro before
    rw [List.getElem?_append_left before] at read
    simpa using (List.mem_filter.mp (List.mem_of_getElem? read)).2
  · intro before
    by_contra after
    rw [List.getElem?_append_right (Nat.le_of_not_lt after)] at read
    have := (List.mem_filter.mp (List.mem_of_getElem? read)).2
    simp only [Bool.not_eq_true', decide_eq_false_iff_not] at this
    exact this before

/-- The rows of the entries from one start to the next are those of the column. -/
theorem Strict.column {l : List (Nat × Nat)} (h : Strict l) (column : Nat) {place : Nat} {row : Nat} :
    (((l.map Prod.snd).take (start l (column + 1))).drop (start l column))[place]? = some row ↔
      l[start l column + place]? = some (column, row) := by
  rw [List.getElem?_drop, List.getElem?_take]
  constructor
  · intro read
    split at read
    · rename_i inside
      rw [List.getElem?_map] at read
      obtain ⟨a, isEntry, rfl⟩ := Option.map_eq_some_iff.mp read
      have lower := (h.place_lt_start isEntry column).not.mp (by omega)
      have upper := (h.place_lt_start isEntry (column + 1)).mp inside
      rw [isEntry, show a = (column, a.2) from Prod.ext (by omega) rfl]
    · cases read
  · intro read
    rw [if_pos ((h.place_lt_start read (column + 1)).mpr (Nat.lt_succ_self _)), List.getElem?_map, read]
    rfl

theorem takeColumn_eq {column : Nat} {l : List (Nat × Nat)} (h : Strict l) (from' : ∀ a ∈ l, column ≤ a.1) :
    takeColumn column l = ((l.filter fun a => decide (a.1 < column + 1)).map Prod.snd,
      l.filter fun a => !decide (a.1 < column + 1)) := by
  induction l with
  | nil => rfl
  | cons a l ih =>
    obtain ⟨first, rest⟩ := List.pairwise_cons.mp h
    obtain ⟨c, r⟩ := a
    have atA := from' (c, r) List.mem_cons_self
    rw [takeColumn]
    by_cases here : c = column
    · rw [if_pos here, ih rest fun b member => from' b (List.mem_cons_of_mem _ member),
        List.filter_cons_of_pos (by simp [here]), List.filter_cons_of_neg (by simp [here])]
      rfl
    · rw [if_neg here]
      have later : ∀ b ∈ (c, r) :: l, ¬ b.1 < column + 1 := by
        intro b member
        rcases List.mem_cons.mp member with rfl | there
        · dsimp only at atA ⊢
          omega
        · have := first b there
          dsimp only at atA this
          omega
      rw [List.filter_eq_nil_iff.mpr (by simpa using later), List.filter_eq_self.mpr (by simpa using later)]
      rfl

/-- What the loop has laid out after some columns. -/
theorem layout_eq {l : List (Nat × Nat)} (h : Strict l) (columns : Nat) :
    (List.range columns).foldl Layout.column ⟨[], [], l⟩ =
      ⟨(List.range columns).map (start l), (l.filter fun a => decide (a.1 < columns)).map Prod.snd,
        l.filter fun a => !decide (a.1 < columns)⟩ := by
  induction columns with
  | zero => simp
  | succ column ih =>
    have later : Strict (l.filter fun a => !decide (a.1 < column)) := h.filter _
    have from' : ∀ a ∈ l.filter fun a => !decide (a.1 < column), column ≤ a.1 := by
      intro a member
      simpa using (List.mem_filter.mp member).2
    have parts : (l.filter fun a => decide (a.1 < column + 1)) = (l.filter fun a => decide (a.1 < column)) ++
        (l.filter fun a => !decide (a.1 < column)).filter fun a => decide (a.1 < column + 1) := by
      conv_lhs => rw [h.split column]
      rw [List.filter_append]
      congr 1
      rw [List.filter_eq_self]
      intro a member
      have : a.1 < column := by simpa using (List.mem_filter.mp member).2
      simp only [decide_eq_true_eq]
      omega
    have left : (l.filter fun a => !decide (a.1 < column)).filter (fun a => !decide (a.1 < column + 1)) =
        l.filter fun a => !decide (a.1 < column + 1) := by
      rw [List.filter_filter]
      refine List.filter_congr fun a _ => ?_
      by_cases before : a.1 < column + 1
      · simp [before]
      · have : ¬ a.1 < column := by omega
        simp [before, this]
    rw [List.range_succ, List.foldl_append, ih, List.foldl_cons, List.foldl_nil, Layout.column]
    dsimp only
    rw [takeColumn_eq later from', left, List.map_append, List.map_singleton, parts, List.map_append, List.length_map]
    rfl

end Entries

/-! ### Requests -/

/-- The builder after some requests of a row and a column. -/
def requestAll (dimension : Nat) (requests : List (UnknownIndex × UnknownIndex)) :
    Except PatternError PatternBuilder := do
  let builder ← new dimension
  requests.foldlM (fun builder entry => builder.request entry.1 entry.2) builder

def coordinateOf (entry : UnknownIndex × UnknownIndex) : Nat × Nat := (entry.2.index, entry.1.index)

theorem coordinateOf_injective : Function.Injective coordinateOf := by
  rintro ⟨⟨a⟩, ⟨b⟩⟩ ⟨⟨c⟩, ⟨d⟩⟩ same
  obtain ⟨rfl, rfl⟩ := Prod.mk.inj same
  rfl

/-- Requests in range succeed. -/
theorem requestAll_eq {dimension : Nat} (bounded : dimension ≤ maxDimension)
    {requests : List (UnknownIndex × UnknownIndex)}
    (inRange : ∀ entry ∈ requests, entry.1.index < dimension ∧ entry.2.index < dimension) :
    requestAll dimension requests = .ok ⟨dimension, requests.map coordinateOf⟩ := by
  have each : ∀ (requests : List (UnknownIndex × UnknownIndex)) (done : List (Nat × Nat)),
      (∀ entry ∈ requests, entry.1.index < dimension ∧ entry.2.index < dimension) →
      requests.foldlM (fun builder entry => builder.request entry.1 entry.2) (⟨dimension, done⟩ : PatternBuilder) =
        .ok ⟨dimension, done ++ requests.map coordinateOf⟩ := by
    intro requests
    induction requests with
    | nil =>
      intro done _
      rw [List.map_nil, List.append_nil]
      rfl
    | cons entry requests ih =>
      intro done inRange
      obtain ⟨row, column⟩ := inRange entry List.mem_cons_self
      have one : (⟨dimension, done⟩ : PatternBuilder).request entry.1 entry.2 = .ok ⟨dimension, done ++ [coordinateOf entry]⟩ := by
        unfold request validateIndex
        rw [if_neg (Nat.not_le_of_lt row), if_neg (Nat.not_le_of_lt column)]
        rfl
      rw [List.foldlM_cons, one]
      refine (ih (done ++ [coordinateOf entry]) fun other member => inRange other (List.mem_cons_of_mem _ member)).trans ?_
      rw [List.append_assoc]
      rfl
  have := each requests [] inRange
  rw [requestAll, new, if_neg (Nat.not_lt_of_le bounded)]
  exact this

/-- There are as many entries as different requests. -/
theorem entries_length (dimension : Nat) (requests : List (UnknownIndex × UnknownIndex)) :
    (entries ⟨dimension, requests.map coordinateOf⟩).length = requests.toFinset.card := by
  rw [← List.toFinset_card_of_nodup (entries_strict _).nodup,
    ← Finset.card_image_of_injective requests.toFinset coordinateOf_injective]
  congr 1
  ext a
  rw [List.mem_toFinset, mem_entries, Finset.mem_image, List.mem_map]
  simp only [List.mem_toFinset]

end PatternBuilder

/-! ### Finished patterns -/

namespace MnaPattern

/-- A matrix laid out by columns: the pointers rise from zero to the number of entries, and the rows of each column
rise strictly. -/
structure WellFormed (pattern : MnaPattern) (dimension : Nat) : Prop where
  length : pattern.columnPtrs.length = dimension + 1
  first : pattern.columnPtrs[0]? = some 0
  last : pattern.columnPtrs[dimension]? = some pattern.nnz
  monotone : pattern.columnPtrs.Pairwise (· ≤ ·)
  increasing : ∀ (column start stop : Nat), pattern.columnPtrs[column]? = some start →
    pattern.columnPtrs[column + 1]? = some stop → ((pattern.rowIndices.take stop).drop start).Pairwise (· < ·)
  rows : ∀ row ∈ pattern.rowIndices, row < dimension

/-- The slots number the requested entries. -/
structure Numbers (pattern : MnaPattern) (requests : List (UnknownIndex × UnknownIndex)) : Prop where
  answers : ∀ row column, ∃ answer, pattern.slot row column = some answer ∧ (answer.isSome = true ↔ (row, column) ∈ requests)
  below : ∀ row column slot, pattern.slot row column = some (some slot) → slot.index < pattern.nnz
  used : ∀ i < pattern.nnz, ∃! entry : UnknownIndex × UnknownIndex, pattern.slot entry.1 entry.2 = some (some ⟨i⟩)
  coordinate : ∀ row column slot, pattern.slot row column = some (some slot) →
    pattern.coordinateSearch slot = some (some (row, column))

/-- The pattern of some entries. -/
def ofEntries (dimension : Nat) (entries : List (Nat × Nat)) : MnaPattern :=
  ⟨(List.range (dimension + 1)).map (PatternBuilder.start entries), entries.map Prod.snd⟩

section Finished

variable {dimension : Nat} {entries : List (Nat × Nat)}

theorem ofEntries_ptr {column : Nat} (inside : column ≤ dimension) :
    (ofEntries dimension entries).columnPtrs[column]? = some (PatternBuilder.start entries column) := by
  rw [ofEntries, List.getElem?_map, List.getElem?_range (by omega)]
  rfl

theorem ofEntries_dimension : (ofEntries dimension entries).dimension = dimension := by simp [ofEntries, MnaPattern.dimension]

theorem ofEntries_wellFormed (strict : PatternBuilder.Strict entries)
    (inRange : ∀ a ∈ entries, a.1 < dimension ∧ a.2 < dimension) : (ofEntries dimension entries).WellFormed dimension := by
  refine ⟨by simp [ofEntries], ?_, ?_, ?_, fun column start stop isStart isStop => ?_, fun row member => ?_⟩
  · rw [ofEntries_ptr (Nat.zero_le _), PatternBuilder.start_zero]
  · rw [ofEntries_ptr (Nat.le_refl _), PatternBuilder.start, List.filter_eq_self.mpr]
    · simp [ofEntries, nnz]
    · exact fun a member => by simpa using (inRange a member).1
  · refine List.Pairwise.map _ (fun a b le => PatternBuilder.start_mono _ (Nat.le_of_lt le)) List.pairwise_lt_range
  · have inside : column < dimension := by
      have := (List.getElem?_eq_some_iff.mp isStop).1
      simp only [ofEntries, List.length_map, List.length_range] at this
      omega
    obtain rfl := Option.some.inj ((ofEntries_ptr (Nat.le_of_lt inside)).symm.trans isStart)
    obtain rfl := Option.some.inj ((ofEntries_ptr inside).symm.trans isStop)
    rw [List.pairwise_iff_getElem]
    intro i j insideI insideJ less
    have readI := (strict.column column).mp (List.getElem?_eq_getElem insideI)
    have readJ := (strict.column column).mp (List.getElem?_eq_getElem insideJ)
    obtain ⟨i', isI⟩ := List.getElem?_eq_some_iff.mp readI
    obtain ⟨j', isJ⟩ := List.getElem?_eq_some_iff.mp readJ
    have order := List.pairwise_iff_getElem.mp strict _ _ i' j' (by omega)
    rw [isI, isJ] at order
    simpa using order
  · obtain ⟨a, known, rfl⟩ := List.mem_map.mp member
    exact (inRange a known).2

/-- A slot is the place of its entry. -/
theorem ofEntries_slot (strict : PatternBuilder.Strict entries) (inRange : ∀ a ∈ entries, a.1 < dimension ∧ a.2 < dimension)
    (row column : UnknownIndex) : ∃ answer, (ofEntries dimension entries).slot row column = some answer ∧
      ∀ slot : MatrixSlot, answer = some slot ↔ entries[slot.index]? = some (column.index, row.index) := by
  unfold slot
  rw [ofEntries_dimension]
  by_cases outside : row.index ≥ dimension ∨ column.index ≥ dimension
  · refine ⟨none, if_pos outside, fun slot => ⟨nofun, fun read => ?_⟩⟩
    have := inRange _ (List.mem_of_getElem? read)
    dsimp only at this
    omega
  · have wellFormed := ofEntries_wellFormed strict inRange
    have readStart : (ofEntries dimension entries).columnPtrs[column.index]? = _ := ofEntries_ptr (by omega)
    have readStop : (ofEntries dimension entries).columnPtrs[column.index + 1]? = _ := ofEntries_ptr (by omega)
    have rising := wellFormed.increasing _ _ _ readStart readStop
    have ordered := PatternBuilder.start_mono entries (Nat.le_succ column.index)
    have inside : PatternBuilder.start entries (column.index + 1) ≤ (ofEntries dimension entries).rowIndices.length := by
      rw [ofEntries, List.length_map]
      exact PatternBuilder.start_le_length _ _
    rw [if_neg outside, readStart, readStop]
    simp only [Option.bind_eq_bind, Option.bind_some]
    rw [if_pos ⟨ordered, inside⟩]
    refine ⟨_, rfl, fun slot => ?_⟩
    rw [Option.map_eq_some_iff]
    constructor
    · rintro ⟨relative, found, rfl⟩
      exact (strict.column _).mp ((binarySearch_eq_some rising).mp found)
    · intro read
      have after := (strict.place_lt_start read column.index).not.mpr (Nat.lt_irrefl _)
      refine ⟨slot.index - PatternBuilder.start entries column.index, (binarySearch_eq_some rising).mpr ?_, ?_⟩
      · refine (strict.column _).mpr ?_
        rw [Nat.add_sub_cancel' (Nat.le_of_not_lt after)]
        exact read
      · exact congrArg MatrixSlot.mk (Nat.add_sub_cancel' (Nat.le_of_not_lt after))

/-- The search over the columns finds the entry at a slot. -/
theorem ofEntries_coordinate (strict : PatternBuilder.Strict entries)
    (inRange : ∀ a ∈ entries, a.1 < dimension ∧ a.2 < dimension) (bounded : dimension ≤ PatternBuilder.maxDimension)
    {slot : MatrixSlot} {column row : Nat} (read : entries[slot.index]? = some (column, row)) :
    (ofEntries dimension entries).coordinateSearch slot = some (some (⟨row⟩, ⟨column⟩)) := by
  have inside : column < dimension := (inRange _ (List.mem_of_getElem? read)).1
  have isRow : (ofEntries dimension entries).rowIndices[slot.index]? = some row := by
    rw [ofEntries, List.getElem?_map, read]
    rfl
  have found : bisect (fun middle => !decide ((ofEntries dimension entries).columnPtrs[middle + 1]?.getD 0 ≤ slot.index)) 0
      dimension = column := by
    refine bisect_eq (Nat.zero_le _) (Nat.le_of_lt inside) (fun i _ before => ?_) fun i after stop => ?_
    · rw [ofEntries_ptr (by omega), Option.getD_some, Bool.not_eq_false', decide_eq_true_eq]
      exact Nat.le_of_not_lt ((strict.place_lt_start read (i + 1)).not.mpr (by dsimp only; omega))
    · rw [ofEntries_ptr (by omega), Option.getD_some, Bool.not_eq_true', decide_eq_false_iff_not, Nat.not_le]
      exact (strict.place_lt_start read (i + 1)).mpr (by dsimp only; omega)
  unfold coordinateSearch
  rw [isRow, ofEntries_dimension]
  dsimp only
  rw [found, if_pos]
  unfold PatternBuilder.maxDimension at bounded
  omega

/-- The bisection agrees with the first column that ends after the slot. -/
theorem ofEntries_coordinateSearch (strict : PatternBuilder.Strict entries)
    (inRange : ∀ a ∈ entries, a.1 < dimension ∧ a.2 < dimension) (bounded : dimension ≤ PatternBuilder.maxDimension)
    (slot : MatrixSlot) : (ofEntries dimension entries).coordinateSearch slot =
      some ((ofEntries dimension entries).coordinate slot) := by
  cases read : entries[slot.index]? with
  | none =>
    have isRow : (ofEntries dimension entries).rowIndices[slot.index]? = none := by
      rw [ofEntries, List.getElem?_map, read]
      rfl
    rw [coordinateSearch, isRow, MnaPattern.coordinate, isRow]
    rfl
  | some a =>
    obtain ⟨column, row⟩ := a
    have inside : column < dimension := (inRange _ (List.mem_of_getElem? read)).1
    have isRow : (ofEntries dimension entries).rowIndices[slot.index]? = some row := by
      rw [ofEntries, List.getElem?_map, read]
      rfl
    have length : ((ofEntries dimension entries).columnPtrs.drop 1).length = dimension := by simp [ofEntries]
    have pointer : ∀ i (h : i < ((ofEntries dimension entries).columnPtrs.drop 1).length),
        ((ofEntries dimension entries).columnPtrs.drop 1)[i] = PatternBuilder.start entries (i + 1) := by
      intro i h
      simp [ofEntries]
    have found : (((ofEntries dimension entries).columnPtrs.drop 1).findIdx fun stop => decide (slot.index < stop)) =
        column := by
      rw [List.findIdx_eq (length.symm ▸ inside), pointer, decide_eq_true_eq]
      refine ⟨(strict.place_lt_start read (column + 1)).mpr (Nat.lt_succ_self _), fun j before => ?_⟩
      rw [pointer, decide_eq_false_iff_not]
      exact (strict.place_lt_start read (j + 1)).not.mpr (by dsimp only; omega)
    rw [ofEntries_coordinate strict inRange bounded read, MnaPattern.coordinate, isRow]
    simp only [Option.bind_eq_bind, Option.bind_some, found]

end Finished

end MnaPattern

theorem PatternBuilder.finish_eq {self : PatternBuilder} (inRange : ∀ a ∈ self.entries, a.1 < self.dimension) :
    self.finish = if self.entries.length > maxNonZeros then .error (.tooManyNonZeros self.entries.length maxNonZeros)
      else .ok (MnaPattern.ofEntries self.dimension self.entries) := by
  have all : (self.entries.filter fun a => decide (a.1 < self.dimension)) = self.entries :=
    List.filter_eq_self.mpr fun a member => by simpa using inRange a member
  unfold finish
  dsimp only
  rw [show dedup (self.coordinates.mergeSort coordinateLe) = self.entries from rfl, layout_eq self.entries_strict, all]
  split
  · rfl
  · rw [MnaPattern.ofEntries, List.range_succ, List.map_append, List.map_singleton]
    simp only [start, all]

/-- Whatever entries are requested, in any order and however often, the pattern is well formed and its slots number
the requested entries. It is refused only where there are too many of them. -/
theorem PatternBuilder.finish_numbers {dimension : Nat} (bounded : dimension ≤ maxDimension)
    {requests : List (UnknownIndex × UnknownIndex)}
    (inRange : ∀ entry ∈ requests, entry.1.index < dimension ∧ entry.2.index < dimension) :
    ∃ builder, requestAll dimension requests = .ok builder ∧
      if requests.toFinset.card > maxNonZeros then
        builder.finish = .error (.tooManyNonZeros requests.toFinset.card maxNonZeros)
      else ∃ pattern, builder.finish = .ok pattern ∧ pattern.nnz = requests.toFinset.card ∧
        pattern.WellFormed dimension ∧ pattern.Numbers requests := by
  refine ⟨_, requestAll_eq bounded inRange, ?_⟩
  have strict := entries_strict ⟨dimension, requests.map coordinateOf⟩
  have member : ∀ row column : UnknownIndex,
      (column.index, row.index) ∈ entries ⟨dimension, requests.map coordinateOf⟩ ↔ (row, column) ∈ requests := by
    intro row column
    rw [mem_entries]
    exact List.mem_map_of_injective (a := (row, column)) coordinateOf_injective
  have inside : ∀ a ∈ entries ⟨dimension, requests.map coordinateOf⟩, a.1 < dimension ∧ a.2 < dimension := by
    intro a there
    obtain ⟨entry, known, rfl⟩ := List.mem_map.mp (mem_entries.mp there)
    exact (inRange entry known).symm
  rw [finish_eq fun a there => (inside a there).1, entries_length]
  split
  · rfl
  · refine ⟨_, rfl, ?_, MnaPattern.ofEntries_wellFormed strict inside, ?_⟩
    · rw [MnaPattern.nnz, MnaPattern.ofEntries, List.length_map, entries_length]
    · have place : ∀ row column slot, (MnaPattern.ofEntries dimension (entries ⟨dimension, requests.map coordinateOf⟩)).slot
          row column = some (some slot) → (entries ⟨dimension, requests.map coordinateOf⟩)[slot.index]? =
            some (column.index, row.index) := by
        intro row column slot found
        obtain ⟨answer, same, each⟩ := MnaPattern.ofEntries_slot strict inside row column
        exact (each slot).mp (Option.some.inj (same.symm.trans found))
      refine ⟨fun row column => ?_, fun row column slot found => ?_, fun i used => ?_, fun row column slot found => ?_⟩
      · obtain ⟨answer, same, each⟩ := MnaPattern.ofEntries_slot strict inside row column
        refine ⟨answer, same, ?_⟩
        rw [← member, List.mem_iff_getElem?, Option.isSome_iff_exists]
        exact ⟨fun ⟨slot, is⟩ => ⟨slot.index, (each slot).mp is⟩, fun ⟨i, read⟩ => ⟨⟨i⟩, (each ⟨i⟩).mpr read⟩⟩
      · rw [MnaPattern.nnz, MnaPattern.ofEntries, List.length_map]
        exact (List.getElem?_eq_some_iff.mp (place row column slot found)).1
      · rw [MnaPattern.nnz, MnaPattern.ofEntries, List.length_map] at used
        have read := List.getElem?_eq_getElem used
        obtain ⟨answer, same, each⟩ := MnaPattern.ofEntries_slot strict inside
          ⟨(entries ⟨dimension, requests.map coordinateOf⟩)[i].2⟩ ⟨(entries ⟨dimension, requests.map coordinateOf⟩)[i].1⟩
        refine ⟨(⟨(entries ⟨dimension, requests.map coordinateOf⟩)[i].2⟩,
          ⟨(entries ⟨dimension, requests.map coordinateOf⟩)[i].1⟩), ?_, fun entry found => ?_⟩
        · exact same.trans (congrArg some ((each ⟨i⟩).mpr read))
        · refine coordinateOf_injective ?_
          exact Option.some.inj ((place entry.1 entry.2 ⟨i⟩ found).symm.trans read)
      · exact MnaPattern.ofEntries_coordinate strict inside bounded (place row column slot found)

/-- Three requests, one of them twice: column 0 has rows 0 and 2, column 1 none, column 2 row 1. -/
theorem PatternBuilder.finish_numbers_three : ∃ builder, requestAll 3 [(⟨2⟩, ⟨0⟩), (⟨0⟩, ⟨0⟩), (⟨2⟩, ⟨0⟩), (⟨1⟩, ⟨2⟩)] = .ok builder ∧
    ∃ pattern, builder.finish = .ok pattern ∧ pattern.nnz = 3 ∧ pattern.WellFormed 3 ∧
      pattern.Numbers [(⟨2⟩, ⟨0⟩), (⟨0⟩, ⟨0⟩), (⟨2⟩, ⟨0⟩), (⟨1⟩, ⟨2⟩)] := by
  obtain ⟨builder, requested, finished⟩ := @finish_numbers 3 (by decide)
    [(⟨2⟩, ⟨0⟩), (⟨0⟩, ⟨0⟩), (⟨2⟩, ⟨0⟩), (⟨1⟩, ⟨2⟩)] (by decide)
  rw [if_neg (by decide)] at finished
  exact ⟨builder, requested, finished⟩

end Hynergy
