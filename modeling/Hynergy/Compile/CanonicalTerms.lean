import Hynergy.Runtime.SeededFrontier

/-!
# Canonical terms

The programs of the matrix and of the right-hand side, and the terms of a template, are
canonicalised in place: sorted, merged where neighbours agree, rid of what is zero. In exact
arithmetic nothing of what reaches a destination is lost or counted twice.
-/

namespace Hynergy

open Lib

/-! ### In place -/

section InPlace

variable {α : Type} {key : α → List Nat} {plus : α → α → α} {isZero : α → Bool}

/-- One round of the loop over `read`; the items up to `write` are merged. An index outside panics. -/
def mergeRound (key : α → List Nat) (plus : α → α → α) (cursor : Nat × List α) (read : Nat) : Option (Nat × List α) := do
  let (write, ops) := cursor
  let merged ← ops[write]?
  let next ← ops[read]?
  if key merged = key next then some (write, ops.set write (plus merged next))
  else
    let write := write + 1
    some (write, if write ≠ read then ops.set write next else ops)

/-- `canonicalize`. The source's sort is unstable; over exact arithmetic that makes no difference
(`canonicalize_arranged`). -/
def canonicalizeInPlace (isZero : α → Bool) (key : α → List Nat) (plus : α → α → α) (ops : List α) : Option (List α) := do
  let ops := sortByKey key (ops.filter fun op => !isZero op)
  if ops.length < 2 then some ops
  else
    let (write, ops) ← (List.range' 1 (ops.length - 1)).foldlM (mergeRound key plus) (0, ops)
    some ((ops.take (write + 1)).filter fun op => !isZero op)

/-- The merged items are `done` and `current`, those before the read index are spent. -/
theorem mergeRounds_eq (rest : List α) : ∀ (done spent : List α) (current : α),
    ∃ write ops, (List.range' (done.length + 1 + spent.length) rest.length).foldlM (mergeRound key plus)
        (done.length, done ++ current :: spent ++ rest) = some (write, ops) ∧
      ops.take (write + 1) = done ++ mergeFrom (fun a b => decide (key a = key b)) plus current rest := by
  induction rest with
  | nil =>
    intro done spent current
    refine ⟨done.length, done ++ current :: spent ++ [], rfl, ?_⟩
    rw [List.append_nil, List.take_append]
    simp [mergeFrom]
  | cons next rest ih =>
    intro done spent current
    rw [List.length_cons, List.range'_succ, List.foldlM_cons]
    have atWrite : (done ++ current :: spent ++ next :: rest)[done.length]? = some current := by simp
    have atRead : (done ++ current :: spent ++ next :: rest)[done.length + 1 + spent.length]? = some next := by
      rw [List.getElem?_append_right (by simp; omega)]
      simp [Nat.add_comm, Nat.add_left_comm]
    have read : mergeRound key plus (done.length, done ++ current :: spent ++ next :: rest) (done.length + 1 + spent.length) =
        if key current = key next then
          some (done.length, (done ++ current :: spent ++ next :: rest).set done.length (plus current next))
        else some (done.length + 1, if done.length + 1 ≠ done.length + 1 + spent.length then
          (done ++ current :: spent ++ next :: rest).set (done.length + 1) next
          else done ++ current :: spent ++ next :: rest) := by
      simp only [mergeRound, atWrite, atRead, Option.bind_eq_bind, Option.bind_some]
    rw [read]
    by_cases same : key current = key next
    · rw [if_pos same]
      have moved : (done ++ current :: spent ++ next :: rest).set done.length (plus current next) =
          done ++ plus current next :: (spent ++ [next]) ++ rest := by
        rw [List.append_assoc, List.set_append_right _ _ (Nat.le_refl _)]
        simp
      obtain ⟨write, ops, run, result⟩ := ih done (spent ++ [next]) (plus current next)
      refine ⟨write, ops, ?_, by rw [result, mergeFrom, if_pos (by simpa using same)]⟩
      rw [show ((some _ : Option (Nat × List α)) >>= _) = _ from rfl, moved]
      rw [List.length_append, List.length_singleton, ← Nat.add_assoc] at run
      exact run
    · rw [if_neg same]
      have moved : (if done.length + 1 ≠ done.length + 1 + spent.length then
          (done ++ current :: spent ++ next :: rest).set (done.length + 1) next
          else done ++ current :: spent ++ next :: rest) =
          (done ++ [current]) ++ next :: (spent.drop 1 ++ if spent = [] then [] else [next]) ++ rest := by
        cases spent with
        | nil => simp
        | cons first spent =>
          rw [if_pos (by simp), List.append_assoc, List.set_append_right _ _ (by omega)]
          simp
      obtain ⟨write, ops, run, result⟩ := ih (done ++ [current]) (spent.drop 1 ++ if spent = [] then [] else [next]) next
      refine ⟨write, ops, ?_, by rw [result, mergeFrom, if_neg (by simpa using same)]; simp⟩
      rw [show ((some _ : Option (Nat × List α)) >>= _) = _ from rfl, moved]
      have count : (done ++ [current]).length + 1 + (spent.drop 1 ++ if spent = [] then [] else [next]).length =
          done.length + 1 + spent.length + 1 := by
        cases spent with
        | nil => simp
        | cons first spent => simp; omega
      rw [count] at run
      rw [List.length_append, List.length_singleton] at run
      exact run

/-- The loop in place never panics and merges what the recursion merges. -/
theorem canonicalizeInPlace_eq (ops : List α) :
    canonicalizeInPlace isZero key plus ops = some (canonicalize isZero key plus ops) := by
  have kept : ∀ op ∈ sortByKey key (ops.filter fun op => !isZero op), (!isZero op) = true := by
    intro op member
    exact (List.mem_filter.mp ((sortByKey_perm _).mem_iff.mp member)).2
  unfold canonicalizeInPlace canonicalize
  cases sorted : sortByKey key (ops.filter fun op => !isZero op) with
  | nil => rfl
  | cons first rest =>
    cases rest with
    | nil =>
      have nonZero := kept first (by rw [sorted]; exact List.mem_singleton.mpr rfl)
      simp [mergeFrom, nonZero]
    | cons second rest =>
      obtain ⟨write, merged, run, result⟩ := @mergeRounds_eq _ key plus (second :: rest) [] [] first
      simp only [List.length_nil, Nat.zero_add, Nat.add_zero, List.nil_append, List.singleton_append] at run result
      dsimp only
      rw [if_neg (by simp), List.length_cons, Nat.add_sub_cancel, run, ← result]
      rfl

theorem keyLe_antisymm : ∀ {a b : List Nat}, keyLe a b = true → keyLe b a = true → a = b
  | [], [], _, _ => rfl
  | [], _ :: _, _, h => by cases h
  | _ :: _, [], h, _ => by cases h
  | a :: as, b :: bs, h, h' => by
    simp only [keyLe, Bool.or_eq_true, Bool.and_eq_true, decide_eq_true_eq] at h h'
    rcases h with lower | ⟨rfl, le⟩
    · rcases h' with lower' | ⟨rfl, -⟩ <;> omega
    · rcases h' with lower' | ⟨-, le'⟩
      · omega
      · rw [keyLe_antisymm le le']

theorem mem_mergeFrom_key (keeps : ∀ a b, key (plus a b) = key a) {terms : List α} {term found : α}
    (member : found ∈ mergeFrom (fun a b => decide (key a = key b)) plus term terms) :
    ∃ a ∈ term :: terms, key a = key found := by
  induction terms generalizing term with
  | nil => exact ⟨term, List.mem_cons_self, by rw [List.mem_singleton.mp member]⟩
  | cons next terms ih =>
    rw [mergeFrom] at member
    split at member
    · obtain ⟨a, there, same⟩ := ih member
      rcases List.mem_cons.mp there with rfl | later
      · exact ⟨term, List.mem_cons_self, (keeps _ _).symm.trans same⟩
      · exact ⟨a, by simp [later], same⟩
    · rcases List.mem_cons.mp member with rfl | later
      · exact ⟨found, List.mem_cons_self, rfl⟩
      · obtain ⟨a, there, same⟩ := ih later
        exact ⟨a, List.mem_cons_of_mem _ there, same⟩

/-- No two merged terms have one key. -/
theorem mergeFrom_strict (keeps : ∀ a b, key (plus a b) = key a) {term : α} {terms : List α}
    (sorted : (term :: terms).Pairwise fun a b => keyLe (key a) (key b) = true) :
    (mergeFrom (fun a b => decide (key a = key b)) plus term terms).Pairwise fun a b => key a ≠ key b := by
  induction terms generalizing term with
  | nil => exact List.pairwise_singleton _ _
  | cons next terms ih =>
    obtain ⟨first, rest⟩ := List.pairwise_cons.mp sorted
    rw [mergeFrom]
    split
    · rename_i merges
      refine ih (List.pairwise_cons.mpr ⟨fun other member => ?_, (List.pairwise_cons.mp rest).2⟩)
      rw [keeps]
      exact first other (List.mem_cons_of_mem _ member)
    · rename_i apart
      refine List.pairwise_cons.mpr ⟨fun other member same => ?_, ih rest⟩
      obtain ⟨a, there, sameKey⟩ := mem_mergeFrom_key keeps member
      have after : keyLe (key next) (key a) = true := by
        rcases List.mem_cons.mp there with rfl | later
        · exact (keyLe_total (key a) (key a)).elim id id
        · exact (List.pairwise_cons.mp rest).1 a later
      rw [sameKey, ← same] at after
      exact apart (decide_eq_true (keyLe_antisymm (first next List.mem_cons_self) after))

theorem canonicalize_strict (keeps : ∀ a b, key (plus a b) = key a) (terms : List α) :
    (canonicalize isZero key plus terms).Pairwise fun a b => key a ≠ key b := by
  have sorted := sortByKey_sorted key (terms.filter fun term => !isZero term)
  rw [canonicalize]
  split
  · exact List.Pairwise.nil
  · rename_i term terms' isSorted
    rw [isSorted] at sorted
    exact (mergeFrom_strict keeps sorted).filter _

theorem canonicalize_nonZero {terms : List α} {term : α} (member : term ∈ canonicalize isZero key plus terms) :
    isZero term = false := by
  rw [canonicalize] at member
  split at member
  · cases member
  · simpa using (List.mem_filter.mp member).2

end InPlace

/-! ### Canonical lists -/

section Canonical

variable {F : Type} [Field F] {α ι : Type} [DecidableEq ι]

/-- A kind of term: a scaled value that is added to a destination. -/
structure TermKind (α ι F : Type) where
  destination : α → ι
  source : α → ValueSlot
  scale : α → F

/-- What the terms add to a destination. -/
def TermKind.total (kind : TermKind α ι F) (values : ValueSlot → F) (destination : ι) (terms : List α) : F :=
  ((terms.filter fun term => decide (kind.destination term = destination)).map fun term =>
    values (kind.source term) * kind.scale term).sum

/-- The result has each pair of a destination and a source once, in order, and adds up to the same. -/
structure Canonical (kind : TermKind α ι F) (order : α → List Nat) (terms result : List α) : Prop where
  sorted : result.Pairwise fun a b => keyLe (order a) (order b) = true
  unique : result.Pairwise fun a b => (kind.destination a, kind.source a) ≠ (kind.destination b, kind.source b)
  nonZero : ∀ term ∈ result, kind.scale term ≠ 0
  total : ∀ values destination, kind.total values destination result = kind.total values destination terms

theorem TermKind.total_eq (kind : TermKind α ι F) (values : ValueSlot → F) (destination : ι) (terms : List α) :
    kind.total values destination terms = (terms.map fun term =>
      if kind.destination term = destination then values (kind.source term) * kind.scale term else 0).sum := by
  unfold TermKind.total
  induction terms with
  | nil => rfl
  | cons term terms ih =>
    by_cases here : kind.destination term = destination
    · rw [List.filter_cons_of_pos (by simpa using here), List.map_cons, List.sum_cons, List.map_cons, List.sum_cons,
        if_pos here, ih]
    · rw [List.filter_cons_of_neg (by simpa using here), List.map_cons, List.sum_cons, if_neg here, ih, zero_add]

theorem canonical_of_canonicalize (kind : TermKind α ι F) {isZero : α → Bool} {order : α → List Nat} {plus : α → α → α}
    (zero : ∀ a, isZero a = true ↔ kind.scale a = 0)
    (orders : ∀ a b, order a = order b ↔ kind.destination a = kind.destination b ∧ kind.source a = kind.source b)
    (keeps : ∀ a b, kind.destination (plus a b) = kind.destination a ∧ kind.source (plus a b) = kind.source a)
    (adds : ∀ a b, kind.scale (plus a b) = kind.scale a + kind.scale b) (terms : List α) :
    Canonical kind order terms (canonicalize isZero order plus terms) := by
  have keepsOrder : ∀ a b, order (plus a b) = order a := fun a b => (orders _ _).mpr (keeps a b)
  refine ⟨canonicalize_sorted keepsOrder terms, (canonicalize_strict keepsOrder terms).imp fun apart same => ?_,
    fun term member isZero' => ?_, fun values destination => ?_⟩
  · exact apart ((orders _ _).mpr (Prod.mk.inj same))
  · have := canonicalize_nonZero member
    rw [(zero term).mpr isZero'] at this
    cases this
  · rw [kind.total_eq, kind.total_eq]
    refine sum_canonicalize (fun a isZero' => ?_) (fun a b same => ?_) terms
    · rw [(zero a).mp isZero', mul_zero, ite_self]
    · obtain ⟨destinations, sources⟩ := (orders a b).mp same
      rw [(keeps a b).1, (keeps a b).2, adds, ← destinations, ← sources]
      split
      · exact mul_add _ _ _
      · exact (add_zero 0).symm

/-- Where no two items have one key, what is summed at the key of an item is its own. -/
theorem sum_at_key {κ : Type} [DecidableEq κ] {key : α → κ} {scale : α → F} {items : List α}
    (unique : items.Pairwise fun a b => key a ≠ key b) {item : α} (member : item ∈ items) :
    (items.map fun a => if key a = key item then scale a else 0).sum = scale item := by
  induction items with
  | nil => cases member
  | cons first rest ih =>
    obtain ⟨apart, unique⟩ := List.pairwise_cons.mp unique
    rw [List.map_cons, List.sum_cons]
    rcases List.mem_cons.mp member with rfl | later
    · have others : (rest.map fun a => if key a = key item then scale a else 0).sum = 0 := by
        refine List.sum_eq_zero fun x there => ?_
        obtain ⟨a, inRest, rfl⟩ := List.mem_map.mp there
        exact if_neg fun same => apart a inRest same.symm
      rw [if_pos rfl, others, add_zero]
    · rw [if_neg (apart item later), ih unique later, zero_add]

/-- The total where one source alone has a value, which is one. -/
theorem TermKind.total_single (kind : TermKind α ι F) (destination : ι) (source : ValueSlot) (terms : List α) :
    kind.total (fun other => if other = source then 1 else 0) destination terms = (terms.map fun term =>
      if (kind.destination term, kind.source term) = (destination, source) then kind.scale term else 0).sum := by
  rw [kind.total_eq]
  congr 1
  refine List.map_congr_left fun term _ => ?_
  by_cases here : kind.destination term = destination <;> by_cases read : kind.source term = source <;> simp [here, read]

/-- Every term of a canonical list is in any other that adds up to the same. -/
theorem Canonical.mem_of_total {kind : TermKind α ι F} {order : α → List Nat} {terms terms' result result' : List α}
    (h : Canonical kind order terms result) (h' : Canonical kind order terms' result')
    (same : ∀ values destination, kind.total values destination terms = kind.total values destination terms')
    (determined : ∀ a b, kind.destination a = kind.destination b → kind.source a = kind.source b →
      kind.scale a = kind.scale b → a = b) {term : α} (member : term ∈ result) : term ∈ result' := by
  have there : (result'.map fun other => if (kind.destination other, kind.source other) =
      (kind.destination term, kind.source term) then kind.scale other else 0).sum = kind.scale term := by
    rw [← kind.total_single, h'.total, ← same, ← h.total, kind.total_single]
    exact sum_at_key h.unique member
  have found : ∃ other ∈ result', (kind.destination other, kind.source other) = (kind.destination term, kind.source term) := by
    by_contra none'
    refine h.nonZero term member (there.symm.trans (List.sum_eq_zero fun x inside => ?_))
    obtain ⟨other, isOther, rfl⟩ := List.mem_map.mp inside
    exact if_neg fun key => none' ⟨other, isOther, key⟩
  obtain ⟨other, isOther, key⟩ := found
  rw [← key, @sum_at_key F _ α _ _ (fun a => (kind.destination a, kind.source a)) _ _ h'.unique _ isOther] at there
  obtain ⟨destination, source⟩ := Prod.mk.inj key
  exact determined other term destination source there ▸ isOther

/-- A canonical list is determined by what it adds up to. -/
theorem Canonical.ext {kind : TermKind α ι F} {order : α → List Nat} {terms terms' result result' : List α}
    (h : Canonical kind order terms result) (h' : Canonical kind order terms' result')
    (same : ∀ values destination, kind.total values destination terms = kind.total values destination terms')
    (orders : ∀ a b, order a = order b ↔ kind.destination a = kind.destination b ∧ kind.source a = kind.source b)
    (determined : ∀ a b, kind.destination a = kind.destination b → kind.source a = kind.source b →
      kind.scale a = kind.scale b → a = b) : result = result' := by
  have nodup : result.Nodup := h.unique.imp fun apart equal => apart (by rw [equal])
  have nodup' : result'.Nodup := h'.unique.imp fun apart equal => apart (by rw [equal])
  have perm : result.Perm result' := (List.perm_ext_iff_of_nodup nodup nodup').mpr fun term =>
    ⟨h.mem_of_total h' same determined, h'.mem_of_total h (fun _ _ => (same _ _).symm) determined⟩
  refine perm.eq_of_pairwise (fun a b inResult inResult' le le' => ?_) h.sorted h'.sorted
  obtain ⟨destination, source⟩ := (orders a b).mp (keyLe_antisymm le le')
  have keys : (result.map fun term => (kind.destination term, kind.source term)).Nodup := List.pairwise_map.mpr h.unique
  exact List.inj_on_of_nodup_map keys inResult (perm.mem_iff.mpr inResult') (Prod.ext destination source)

/-- What is not zero adds up to the same in every order. -/
theorem TermKind.total_arranged (kind : TermKind α ι F) {isZero : α → Bool}
    (zero : ∀ a, isZero a = true ↔ kind.scale a = 0) {terms arranged : List α}
    (perm : arranged.Perm (terms.filter fun term => !isZero term)) (values : ValueSlot → F) (destination : ι) :
    kind.total values destination arranged = kind.total values destination terms := by
  rw [kind.total_eq, kind.total_eq, (perm.map _).sum_eq]
  induction terms generalizing arranged with
  | nil => rfl
  | cons term terms ih =>
    have rest := @ih _ (List.Perm.refl _)
    by_cases dropped : isZero term = true
    · rw [List.filter_cons_of_neg (by simpa using dropped), List.map_cons, List.sum_cons, (zero term).mp dropped, mul_zero,
        ite_self, zero_add, rest]
    · rw [List.filter_cons_of_pos (by simpa using dropped), List.map_cons, List.sum_cons, List.map_cons, List.sum_cons, rest]

end Canonical

/-! ### The programs -/

section Programs

variable {F : Type}

/-- A matrix term of a template, by the local numbers of its unknowns and of its source. -/
structure PendingMatrixTerm (F : Type) where
  row : UnknownIndex
  column : UnknownIndex
  source : ValueSlot
  scale : F

structure LocalRhsTerm (F : Type) where
  destination : UnknownIndex
  source : ValueSlot
  scale : F

def matrixAdd : TermKind (MatrixAdd F) MatrixSlot F := ⟨MatrixAdd.destination, MatrixAdd.source, MatrixAdd.scale⟩

def rhsAdd : TermKind (RhsAdd F) UnknownIndex F := ⟨RhsAdd.destination, RhsAdd.source, RhsAdd.scale⟩

def pendingMatrixTerm : TermKind (PendingMatrixTerm F) (UnknownIndex × UnknownIndex) F :=
  ⟨fun term => (term.row, term.column), PendingMatrixTerm.source, PendingMatrixTerm.scale⟩

def localRhsTerm : TermKind (LocalRhsTerm F) UnknownIndex F :=
  ⟨LocalRhsTerm.destination, LocalRhsTerm.source, LocalRhsTerm.scale⟩

variable [F64 F]

/-- `canonicalize` of `matrix.rs`. -/
def canonicalizeMatrix : List (MatrixAdd F) → Option (List (MatrixAdd F)) :=
  canonicalizeInPlace (fun op => F64.beq op.scale F64.zero) (fun op => [op.destination.index, op.source.index])
    fun a b => { a with scale := F64.add a.scale b.scale }

/-- `canonicalize` of `rhs.rs`. -/
def canonicalizeRhs : List (RhsAdd F) → Option (List (RhsAdd F)) :=
  canonicalizeInPlace (fun op => F64.beq op.scale F64.zero) (fun op => [op.destination.index, op.source.index])
    fun a b => { a with scale := F64.add a.scale b.scale }

/-- The terms are sorted by column first. -/
def canonicalizePendingMatrixTerms : List (PendingMatrixTerm F) → Option (List (PendingMatrixTerm F)) :=
  canonicalizeInPlace (fun term => F64.beq term.scale F64.zero)
    (fun term => [term.column.index, term.row.index, term.source.index])
    fun a b => { a with scale := F64.add a.scale b.scale }

def canonicalizeRhsTerms : List (LocalRhsTerm F) → Option (List (LocalRhsTerm F)) :=
  canonicalizeInPlace (fun term => F64.beq term.scale F64.zero) (fun term => [term.destination.index, term.source.index])
    fun a b => { a with scale := F64.add a.scale b.scale }

/-- `RhsProgram::execute`: the right-hand side is cleared first. -/
def executeRhsCleared (ops : List (RhsAdd F)) (workspace : ValueWorkspace F) (rhs : List F) : Option (List F) :=
  executeRhs ops workspace (rhs.map fun _ => F64.zero)

variable [Field F]

theorem F64.ExactField.isZero_iff (exact : F64.ExactField F) (x : F) : F64.beq x F64.zero = true ↔ x = 0 := by
  rw [exact.beq_iff, exact.zero]

/-- Additions, one after the other, give each place what it held and the total of its terms. -/
theorem additions_total (exact : F64.ExactField F) {α : Type} {destination : α → Nat} {source : α → ValueSlot}
    {scale : α → F} {workspace : ValueWorkspace F} {ops : List α} {held held' : List F}
    (run : ops.foldlM (fun held op => do
      let value ← workspace.value (source op)
      let before ← held[destination op]?
      assign held (destination op) (F64.add before (F64.mul value (scale op)))) held = some held') :
    held'.length = held.length ∧ ∀ place before, held[place]? = some before →
      held'[place]? = some (before + (ops.map fun op =>
        if destination op = place then (workspace.value (source op)).getD 0 * scale op else 0).sum) := by
  induction ops generalizing held with
  | nil =>
    obtain rfl := Option.some.inj run
    exact ⟨rfl, fun place before read => by simpa using read⟩
  | cons op ops ih =>
    rw [List.foldlM_cons] at run
    obtain ⟨mid, first, run⟩ := Option.bind_eq_some_iff.mp run
    obtain ⟨value, isValue, first⟩ := Option.bind_eq_some_iff.mp first
    obtain ⟨old, read, first⟩ := Option.bind_eq_some_iff.mp first
    have inside := (List.getElem?_eq_some_iff.mp read).1
    unfold assign at first
    rw [if_pos inside] at first
    obtain rfl := Option.some.inj first
    obtain ⟨length, each⟩ := ih run
    refine ⟨length.trans (List.length_set ..), fun place before readBefore => ?_⟩
    rw [List.map_cons, List.sum_cons, isValue, Option.getD_some]
    by_cases here : destination op = place
    · subst here
      obtain rfl := Option.some.inj (read.symm.trans readBefore)
      rw [each _ _ (List.getElem?_set_self inside), if_pos rfl, exact.add, exact.mul, add_assoc]
    · rw [each place before ((List.getElem?_set_ne here).trans readBefore), if_neg here, zero_add]

omit [Field F] in
/-- Additions to places there are, of values there are, do not panic. -/
theorem additions_return {α : Type} {destination : α → Nat} {source : α → ValueSlot} {scale : α → F}
    {workspace : ValueWorkspace F} {ops : List α} {held : List F}
    (fits : ∀ op ∈ ops, (workspace.value (source op)).isSome = true ∧ destination op < held.length) :
    ∃ held', ops.foldlM (fun held op => do
      let value ← workspace.value (source op)
      let before ← held[destination op]?
      assign held (destination op) (F64.add before (F64.mul value (scale op)))) held = some held' := by
  induction ops generalizing held with
  | nil => exact ⟨held, rfl⟩
  | cons op ops ih =>
    obtain ⟨known, inside⟩ := fits op List.mem_cons_self
    obtain ⟨value, isValue⟩ := Option.isSome_iff_exists.mp known
    obtain ⟨held', run⟩ := @ih (held.set (destination op) (F64.add held[destination op] (F64.mul value (scale op))))
      fun other member => by
        rw [List.length_set]
        exact fits other (List.mem_cons_of_mem _ member)
    refine ⟨held', ?_⟩
    rw [List.foldlM_cons, isValue, List.getElem?_eq_getElem inside]
    simp only [Option.bind_eq_bind, Option.bind_some]
    rw [assign, if_pos inside]
    exact run

/-! The keys that a program is sorted by say the destination and the source. -/

theorem MatrixSlot.index_inj {a b : MatrixSlot} : a.index = b.index ↔ a = b :=
  ⟨fun h => congrArg MatrixSlot.mk h, fun h => h ▸ rfl⟩

theorem UnknownIndex.index_inj {a b : UnknownIndex} : a.index = b.index ↔ a = b :=
  ⟨fun h => congrArg UnknownIndex.mk h, fun h => h ▸ rfl⟩

omit [F64 F] [Field F] in
theorem matrixAdd_orders (a b : MatrixAdd F) : [a.destination.index, a.source.index] = [b.destination.index, b.source.index] ↔
    matrixAdd.destination a = matrixAdd.destination b ∧ matrixAdd.source a = matrixAdd.source b := by
  simp [matrixAdd, MatrixSlot.index_inj, ValueSlot.ext_iff]

omit [F64 F] [Field F] in
theorem rhsAdd_orders (a b : RhsAdd F) : [a.destination.index, a.source.index] = [b.destination.index, b.source.index] ↔
    rhsAdd.destination a = rhsAdd.destination b ∧ rhsAdd.source a = rhsAdd.source b := by
  simp [rhsAdd, UnknownIndex.index_inj, ValueSlot.ext_iff]

omit [F64 F] [Field F] in
theorem pendingMatrixTerm_orders (a b : PendingMatrixTerm F) :
    [a.column.index, a.row.index, a.source.index] = [b.column.index, b.row.index, b.source.index] ↔
      pendingMatrixTerm.destination a = pendingMatrixTerm.destination b ∧
        pendingMatrixTerm.source a = pendingMatrixTerm.source b := by
  simp [pendingMatrixTerm, UnknownIndex.index_inj, ValueSlot.ext_iff, and_left_comm, and_assoc]

omit [F64 F] [Field F] in
theorem localRhsTerm_orders (a b : LocalRhsTerm F) :
    [a.destination.index, a.source.index] = [b.destination.index, b.source.index] ↔
      localRhsTerm.destination a = localRhsTerm.destination b ∧ localRhsTerm.source a = localRhsTerm.source b := by
  simp [localRhsTerm, UnknownIndex.index_inj, ValueSlot.ext_iff]

theorem canonical_matrix (exact : F64.ExactField F) (ops : List (MatrixAdd F)) :
    Canonical matrixAdd (fun op => [op.destination.index, op.source.index]) ops (matrixProgram ops) := by
  unfold matrixProgram
  refine canonical_of_canonicalize matrixAdd ?_ matrixAdd_orders ?_ ?_ ops
  · exact fun term => exact.isZero_iff term.scale
  · exact fun _ _ => ⟨rfl, rfl⟩
  · exact fun _ _ => exact.add _ _

theorem canonical_rhs (exact : F64.ExactField F) (ops : List (RhsAdd F)) :
    Canonical rhsAdd (fun op => [op.destination.index, op.source.index]) ops (rhsProgram ops) := by
  unfold rhsProgram
  refine canonical_of_canonicalize rhsAdd ?_ rhsAdd_orders ?_ ?_ ops
  · exact fun term => exact.isZero_iff term.scale
  · exact fun _ _ => ⟨rfl, rfl⟩
  · exact fun _ _ => exact.add _ _

theorem canonical_pending (exact : F64.ExactField F) (terms : List (PendingMatrixTerm F)) :
    Canonical pendingMatrixTerm (fun term => [term.column.index, term.row.index, term.source.index]) terms
      (canonicalize (fun term => F64.beq term.scale F64.zero) (fun term => [term.column.index, term.row.index, term.source.index])
        (fun a b => { a with scale := F64.add a.scale b.scale }) terms) := by
  refine canonical_of_canonicalize pendingMatrixTerm ?_ pendingMatrixTerm_orders ?_ ?_ terms
  · exact fun term => exact.isZero_iff term.scale
  · exact fun _ _ => ⟨rfl, rfl⟩
  · exact fun _ _ => exact.add _ _

theorem canonical_localRhs (exact : F64.ExactField F) (terms : List (LocalRhsTerm F)) :
    Canonical localRhsTerm (fun term => [term.destination.index, term.source.index]) terms
      (canonicalize (fun term => F64.beq term.scale F64.zero) (fun term => [term.destination.index, term.source.index])
        (fun a b => { a with scale := F64.add a.scale b.scale }) terms) := by
  refine canonical_of_canonicalize localRhsTerm ?_ localRhsTerm_orders ?_ ?_ terms
  · exact fun term => exact.isZero_iff term.scale
  · exact fun _ _ => ⟨rfl, rfl⟩
  · exact fun _ _ => exact.add _ _

/-- In whatever order the terms that are not zero come, the same is left: a sort that leaves terms of one key in another
order than the stable one, as the source's may, changes nothing. -/
theorem canonicalize_arranged (exact : F64.ExactField F) :
    (∀ ops arranged : List (MatrixAdd F), arranged.Perm (ops.filter fun op => !F64.beq op.scale F64.zero) →
      canonicalizeMatrix arranged = canonicalizeMatrix ops) ∧
    (∀ ops arranged : List (RhsAdd F), arranged.Perm (ops.filter fun op => !F64.beq op.scale F64.zero) →
      canonicalizeRhs arranged = canonicalizeRhs ops) ∧
    (∀ terms arranged : List (PendingMatrixTerm F), arranged.Perm (terms.filter fun term => !F64.beq term.scale F64.zero) →
      canonicalizePendingMatrixTerms arranged = canonicalizePendingMatrixTerms terms) ∧
    ∀ terms arranged : List (LocalRhsTerm F), arranged.Perm (terms.filter fun term => !F64.beq term.scale F64.zero) →
      canonicalizeRhsTerms arranged = canonicalizeRhsTerms terms := by
  refine ⟨fun ops arranged perm => ?_, fun ops arranged perm => ?_, fun terms arranged perm => ?_,
    fun terms arranged perm => ?_⟩
  · rw [canonicalizeMatrix, canonicalizeInPlace_eq, canonicalizeInPlace_eq]
    refine congrArg some ((canonical_matrix exact arranged).ext (canonical_matrix exact ops)
      (matrixAdd.total_arranged (fun op => exact.isZero_iff op.scale) perm) matrixAdd_orders ?_)
    rintro ⟨d, s, x⟩ ⟨d', s', x'⟩ rfl rfl rfl
    rfl
  · rw [canonicalizeRhs, canonicalizeInPlace_eq, canonicalizeInPlace_eq]
    refine congrArg some ((canonical_rhs exact arranged).ext (canonical_rhs exact ops)
      (rhsAdd.total_arranged (fun op => exact.isZero_iff op.scale) perm) rhsAdd_orders ?_)
    rintro ⟨d, s, x⟩ ⟨d', s', x'⟩ rfl rfl rfl
    rfl
  · rw [canonicalizePendingMatrixTerms, canonicalizeInPlace_eq, canonicalizeInPlace_eq]
    refine congrArg some ((canonical_pending exact arranged).ext (canonical_pending exact terms)
      (pendingMatrixTerm.total_arranged (fun term => exact.isZero_iff term.scale) perm) pendingMatrixTerm_orders ?_)
    rintro ⟨r, c, s, x⟩ ⟨r', c', s', x'⟩ place rfl rfl
    obtain ⟨rfl, rfl⟩ := Prod.mk.inj place
    rfl
  · rw [canonicalizeRhsTerms, canonicalizeInPlace_eq, canonicalizeInPlace_eq]
    refine congrArg some ((canonical_localRhs exact arranged).ext (canonical_localRhs exact terms)
      (localRhsTerm.total_arranged (fun term => exact.isZero_iff term.scale) perm) localRhsTerm_orders ?_)
    rintro ⟨d, s, x⟩ ⟨d', s', x'⟩ rfl rfl rfl
    rfl

/-- Canonicalising never panics, keeps what is added to every destination and leaves each pair of a destination and a
source once, in order and with a scale that is not zero; executing a program adds to each destination what its terms
sum up to, and a right-hand side holds just that sum. -/
theorem programs_canonical (exact : F64.ExactField F) :
    (∀ ops : List (MatrixAdd F), canonicalizeMatrix ops = some (matrixProgram ops) ∧
      Canonical matrixAdd (fun op => [op.destination.index, op.source.index]) ops (matrixProgram ops)) ∧
    (∀ ops : List (RhsAdd F), canonicalizeRhs ops = some (rhsProgram ops) ∧
      Canonical rhsAdd (fun op => [op.destination.index, op.source.index]) ops (rhsProgram ops)) ∧
    (∀ terms : List (PendingMatrixTerm F), ∃ result, canonicalizePendingMatrixTerms terms = some result ∧
      Canonical pendingMatrixTerm (fun term => [term.column.index, term.row.index, term.source.index]) terms result) ∧
    (∀ terms : List (LocalRhsTerm F), ∃ result, canonicalizeRhsTerms terms = some result ∧
      Canonical localRhsTerm (fun term => [term.destination.index, term.source.index]) terms result) ∧
    (∀ (ops : List (MatrixAdd F)) (workspace : ValueWorkspace F) (matrix : List F),
      (∀ op ∈ matrixProgram ops, (workspace.value op.source).isSome = true ∧ op.destination.index < matrix.length) →
      ∃ matrix', executeMatrix (matrixProgram ops) workspace matrix = some matrix' ∧ matrix'.length = matrix.length ∧
        ∀ slot held, matrix[slot]? = some held → matrix'[slot]? =
          some (held + matrixAdd.total (fun source => (workspace.value source).getD 0) ⟨slot⟩ (matrixProgram ops))) ∧
    ∀ (ops : List (RhsAdd F)) (workspace : ValueWorkspace F) (rhs : List F),
      (∀ op ∈ rhsProgram ops, (workspace.value op.source).isSome = true ∧ op.destination.index < rhs.length) →
      ∃ rhs', executeRhsCleared (rhsProgram ops) workspace rhs = some rhs' ∧ rhs'.length = rhs.length ∧
        ∀ unknown < rhs.length, rhs'[unknown]? =
          some (rhsAdd.total (fun source => (workspace.value source).getD 0) ⟨unknown⟩ (rhsProgram ops)) := by
  refine ⟨fun ops => ⟨canonicalizeInPlace_eq ops, canonical_matrix exact ops⟩,
    fun ops => ⟨canonicalizeInPlace_eq ops, canonical_rhs exact ops⟩,
    fun terms => ⟨_, canonicalizeInPlace_eq terms, canonical_pending exact terms⟩,
    fun terms => ⟨_, canonicalizeInPlace_eq terms, canonical_localRhs exact terms⟩,
    fun ops workspace matrix fits => ?_, fun ops workspace rhs fits => ?_⟩
  · obtain ⟨matrix', run⟩ := @additions_return F _ _ _ _ MatrixAdd.scale _ _ _ fits
    obtain ⟨length, each⟩ := additions_total exact run
    refine ⟨matrix', run, length, fun place held read => ?_⟩
    rw [each place held read, TermKind.total_eq]
    simp only [matrixAdd, ← MatrixSlot.index_inj]
  · obtain ⟨rhs', run⟩ := @additions_return F _ _ _ _ RhsAdd.scale _ _ (rhs.map fun _ => F64.zero)
      (by simpa only [List.length_map] using fits)
    obtain ⟨length, each⟩ := additions_total exact run
    refine ⟨rhs', run, length.trans (List.length_map ..), fun place inside => ?_⟩
    have cleared : (rhs.map fun _ => (F64.zero : F))[place]? = some 0 := by
      rw [List.getElem?_map, List.getElem?_eq_getElem inside, ← exact.zero]
      rfl
    rw [each place 0 cleared, TermKind.total_eq, zero_add]
    simp only [rhsAdd, ← UnknownIndex.index_inj]

/-- Two terms of one key over the rationals are merged, a third that cancels itself is dropped. -/
theorem programs_canonical_merge : (matrixAdd (F := ℚ)).total (fun _ => 3) ⟨0⟩
    (matrixProgram [⟨⟨0⟩, ⟨1⟩, 2⟩, ⟨⟨1⟩, ⟨0⟩, 0⟩, ⟨⟨0⟩, ⟨1⟩, 5⟩]) = 21 := by
  rw [(programs_canonical exactField_rat).1 _ |>.2.total]
  decide +kernel

end Programs

end Hynergy
