import Hynergy.Lib.ChunkTable

/-!
# A directory into a table of rows

Every row carries a key, and a directory says where the row of a key lies. The two are in
bijection; appending, overwriting and removing rows keep that, and leave what every other
key finds alone.
-/

namespace Hynergy.Lib

variable {ρ κ : Type*} {key : ρ → κ} {t : ChunkTable ρ} {dir dir' : κ → Option Loc}

structure Indexes (key : ρ → κ) (t : ChunkTable ρ) (dir : κ → Option Loc) : Prop where
  named : ∀ loc x, t.rowAt loc = some x → dir (key x) = some loc
  located : ∀ k loc, dir k = some loc → ∃ x, t.rowAt loc = some x ∧ key x = k

/-- What a key finds. -/
def lookup (t : ChunkTable ρ) (dir : κ → Option Loc) (k : κ) : Option ρ := (dir k).bind t.rowAt

theorem lookup_of_rowAt {k : κ} {loc : Loc} {x : ρ} (located : dir k = some loc)
    (found : t.rowAt loc = some x) : lookup t dir k = some x := by
  rw [lookup, located, Option.bind_some, found]

namespace Indexes

theorem lookup_eq_some (h : Indexes key t dir) {k : κ} {x : ρ} :
    lookup t dir k = some x ↔ ∃ loc, dir k = some loc ∧ t.rowAt loc = some x ∧ key x = k := by
  constructor
  · intro found
    obtain ⟨loc, located, at'⟩ := Option.bind_eq_some_iff.mp found
    obtain ⟨y, hy, same⟩ := h.located k loc located
    obtain rfl := Option.some.inj (hy.symm.trans at')
    exact ⟨loc, located, at', same⟩
  · rintro ⟨loc, located, at', -⟩
    exact lookup_of_rowAt located at'

theorem lookup_isSome (h : Indexes key t dir) {k : κ} {loc : Loc} (located : dir k = some loc) :
    ∃ x, lookup t dir k = some x ∧ t.rowAt loc = some x ∧ key x = k := by
  obtain ⟨x, at', same⟩ := h.located k loc located
  exact ⟨x, lookup_of_rowAt located at', at', same⟩

theorem lookup_eq_none (h : Indexes key t dir) {k : κ} : lookup t dir k = none ↔ dir k = none := by
  constructor
  · intro missing
    cases located : dir k with
    | none => rfl
    | some loc =>
      obtain ⟨x, found, -⟩ := h.lookup_isSome located
      rw [missing] at found
      simp at found
  · intro free
    rw [lookup, free, Option.bind_none]

/-- Two rows of one key are one row. -/
theorem loc_unique (h : Indexes key t dir) {a b : Loc} {x y : ρ} (ha : t.rowAt a = some x)
    (hb : t.rowAt b = some y) (same : key x = key y) : a = b :=
  Option.some.inj ((h.named a x ha).symm.trans (same ▸ h.named b y hb))

/-- A row appears at `loc`, with a key that had none. -/
theorem insert (h : Indexes key t dir) {t' : ChunkTable ρ} {loc : Loc} {x : ρ}
    (free : dir (key x) = none)
    (rows : ∀ l, t'.rowAt l = if l = loc then some x else t.rowAt l)
    (empty : t.rowAt loc = none)
    (moved : dir' (key x) = some loc) (kept : ∀ k, k ≠ key x → dir' k = dir k) :
    Indexes key t' dir' ∧ lookup t' dir' (key x) = some x ∧
      ∀ k, k ≠ key x → lookup t' dir' k = lookup t dir k := by
  have fresh : ∀ l y, t.rowAt l = some y → key y ≠ key x := fun l y at' same => by
    have := h.named l y at'
    rw [same, free] at this
    simp at this
  refine ⟨⟨?_, ?_⟩, ?_, ?_⟩
  · intro l y at'
    rw [rows] at at'
    split at at'
    · rename_i here
      obtain rfl := Option.some.inj at'
      rw [here, moved]
    · rw [kept _ (fresh l y at')]
      exact h.named l y at'
  · intro k l located
    by_cases new : k = key x
    · subst new
      obtain rfl := Option.some.inj (moved.symm.trans located)
      exact ⟨x, by rw [rows, if_pos rfl], rfl⟩
    · rw [kept k new] at located
      obtain ⟨y, at', same⟩ := h.located k l located
      refine ⟨y, ?_, same⟩
      rw [rows, if_neg, at']
      rintro rfl
      rw [empty] at at'
      simp at at'
  · exact lookup_of_rowAt moved (by rw [rows, if_pos rfl])
  · intro k other
    rw [lookup, lookup, kept k other]
    cases located : dir k with
    | none => rfl
    | some l =>
      rw [Option.bind_some, Option.bind_some, rows, if_neg]
      rintro rfl
      obtain ⟨y, at', -⟩ := h.located k l located
      rw [empty] at at'
      simp at at'

/-- The row at `loc` is overwritten by one of the same key. -/
theorem overwrite (h : Indexes key t dir) {loc : Loc} {x y : ρ} (at' : t.rowAt loc = some x)
    (same : key y = key x) :
    Indexes key (t.setRow loc y) dir ∧ lookup (t.setRow loc y) dir (key x) = some y ∧
      ∀ k, k ≠ key x → lookup (t.setRow loc y) dir k = lookup t dir k := by
  have rows : ∀ l, (t.setRow loc y).rowAt l = if l = loc then some y else t.rowAt l := by
    intro l
    rw [ChunkTable.rowAt_setRow, at', Option.map_some]
  refine ⟨⟨?_, ?_⟩, ?_, ?_⟩
  · intro l z hz
    rw [rows] at hz
    split at hz
    · rename_i here
      obtain rfl := Option.some.inj hz
      rw [same, here]
      exact h.named loc x at'
    · exact h.named l z hz
  · intro k l located
    obtain ⟨z, hz, hk⟩ := h.located k l located
    by_cases here : l = loc
    · subst here
      obtain rfl := Option.some.inj (at'.symm.trans hz)
      exact ⟨y, by rw [rows, if_pos rfl], same.trans hk⟩
    · exact ⟨z, by rw [rows, if_neg here, hz], hk⟩
  · exact lookup_of_rowAt (h.named loc x at') (by rw [rows, if_pos rfl])
  · intro k other
    rw [lookup, lookup]
    cases located : dir k with
    | none => rfl
    | some l =>
      rw [Option.bind_some, Option.bind_some, rows, if_neg]
      rintro rfl
      obtain ⟨z, hz, hk⟩ := h.located k l located
      obtain rfl := Option.some.inj (at'.symm.trans hz)
      exact other hk.symm

/-- The row at `loc` is removed and the directory follows the rows that moved. -/
theorem remove (h : Indexes key t dir) {loc : Loc} {chunk : List ρ} {x : ρ}
    (hc : t[loc.1]? = some chunk) (at' : t.rowAt loc = some x)
    (removed : dir' (key x) = none)
    (moved : ∀ k, k ≠ key x → dir' k = (dir k).map (ChunkTable.relocate t.length chunk.length loc)) :
    Indexes key (t.removeRow loc) dir' ∧ lookup (t.removeRow loc) dir' (key x) = none ∧
      ∀ k, k ≠ key x → lookup (t.removeRow loc) dir' k = lookup t dir k := by
  have inside : loc.2 < chunk.length := by
    obtain ⟨other, ho, hx⟩ := ChunkTable.rowAt_eq_some.mp at'
    obtain rfl := Option.some.inj (hc.symm.trans ho)
    exact (List.getElem?_eq_some_iff.mp hx).1
  have survives : ∀ k l, k ≠ key x → dir k = some l → l ≠ loc := by
    rintro k l other located rfl
    obtain ⟨y, hy, hk⟩ := h.located k l located
    obtain rfl := Option.some.inj (at'.symm.trans hy)
    exact other hk.symm
  have follows : ∀ k l y, k ≠ key x → dir k = some l → t.rowAt l = some y →
      (t.removeRow loc).rowAt (ChunkTable.relocate t.length chunk.length loc l) = some y :=
    fun k l y other located hy => ChunkTable.rowAt_relocate hc inside (survives k l other located) hy
  refine ⟨⟨?_, ?_⟩, ?_, ?_⟩
  · intro l y hy
    obtain ⟨old, different, atOld, rfl⟩ := ChunkTable.rowAt_removeRow hc inside hy
    have other : key y ≠ key x := fun same => different (h.loc_unique atOld at' same)
    rw [moved _ other, h.named old y atOld, Option.map_some]
  · intro k l located
    have other : k ≠ key x := by
      rintro rfl
      rw [removed] at located
      simp at located
    rw [moved k other] at located
    obtain ⟨old, atOld, rfl⟩ := Option.map_eq_some_iff.mp located
    obtain ⟨y, hy, hk⟩ := h.located k old atOld
    exact ⟨y, follows k old y other atOld hy, hk⟩
  · rw [lookup, removed, Option.bind_none]
  · intro k other
    rw [lookup, lookup, moved k other]
    cases located : dir k with
    | none => rfl
    | some l =>
      obtain ⟨y, hy, -⟩ := h.located k l located
      rw [Option.map_some, Option.bind_some, Option.bind_some, hy, follows k l y other located hy]

/-! ### A second table of the same shape

Its rows carry no keys: they are found through the first table's directory. -/

section Sidecar

variable {τ : Type*} {u u' : ChunkTable τ}

theorem sidecar (h : Indexes key t dir) (aligned : t.shape = u.shape) {k : κ} {loc : Loc}
    (located : dir k = some loc) : ∃ y, lookup u dir k = some y ∧ u.rowAt loc = some y := by
  obtain ⟨x, at', -⟩ := h.located k loc located
  obtain ⟨y, hy⟩ := ChunkTable.rowAt_of_shape aligned at'
  exact ⟨y, lookup_of_rowAt located hy, hy⟩

/-- Where a key is looked up, both tables have a row or neither has. -/
theorem sidecar_isSome (h : Indexes key t dir) (aligned : t.shape = u.shape) (k : κ) :
    (lookup u dir k).isSome = (lookup t dir k).isSome := by
  cases located : dir k with
  | none =>
    rw [lookup, lookup, located]
    rfl
  | some loc =>
    obtain ⟨x, hx, -⟩ := h.lookup_isSome located
    obtain ⟨y, hy, -⟩ := h.sidecar aligned located
    rw [hx, hy]
    rfl

/-- A row appears where the first table had none. -/
theorem sidecar_insert (h : Indexes key t dir) {loc : Loc} {y : τ}
    (rows : ∀ l, u'.rowAt l = if l = loc then some y else u.rowAt l) (empty : t.rowAt loc = none)
    {k : κ} (kept : dir' k = dir k) : lookup u' dir' k = lookup u dir k := by
  rw [lookup, lookup, kept]
  cases located : dir k with
  | none => rfl
  | some l =>
    rw [Option.bind_some, Option.bind_some, rows, if_neg]
    intro same
    obtain ⟨x, at', -⟩ := h.located k l located
    rw [same, empty] at at'
    simp at at'

theorem sidecar_overwrite [DecidableEq κ] (h : Indexes key t dir) {k : κ} {loc : Loc} {y z : τ}
    (located : dir k = some loc) (at' : u.rowAt loc = some y) (other : κ) :
    lookup (u.setRow loc z) dir other = if other = k then some z else lookup u dir other := by
  rw [lookup, lookup]
  by_cases same : other = k
  · rw [if_pos same, same, located, Option.bind_some, ChunkTable.rowAt_setRow, if_pos rfl, at',
      Option.map_some]
  · rw [if_neg same]
    cases located' : dir other with
    | none => rfl
    | some l =>
      rw [Option.bind_some, Option.bind_some, ChunkTable.rowAt_setRow, if_neg]
      intro here
      obtain ⟨x, hx, rfl⟩ := h.located k loc located
      obtain ⟨x', hx', rfl⟩ := h.located other l located'
      rw [here, hx] at hx'
      exact same (congrArg key (Option.some.inj hx').symm)

theorem sidecar_remove (h : Indexes key t dir) (aligned : t.shape = u.shape) {loc : Loc}
    {chunk : List ρ} {x : ρ} (hc : t[loc.1]? = some chunk) (at' : t.rowAt loc = some x)
    {k : κ} (other : k ≠ key x)
    (moved : dir' k = (dir k).map (ChunkTable.relocate t.length chunk.length loc)) :
    lookup (u.removeRow loc) dir' k = lookup u dir k := by
  obtain ⟨beside, hb, length⟩ := ChunkTable.chunk_of_shape aligned hc
  have inside : loc.2 < beside.length := by
    obtain ⟨same, ho, hx⟩ := ChunkTable.rowAt_eq_some.mp at'
    obtain rfl := Option.some.inj (hc.symm.trans ho)
    rw [length]
    exact (List.getElem?_eq_some_iff.mp hx).1
  rw [lookup, lookup, moved]
  cases located : dir k with
  | none => rfl
  | some l =>
    obtain ⟨y, -, hy⟩ := h.sidecar aligned located
    have survives : l ≠ loc := by
      intro same
      obtain ⟨z, hz, hk⟩ := h.located k l located
      rw [same, at'] at hz
      exact other (hk.symm.trans (congrArg key (Option.some.inj hz).symm))
    have follows := ChunkTable.rowAt_relocate hb inside survives hy
    rw [← ChunkTable.length_eq_of_shape aligned, length] at follows
    rw [Option.map_some, Option.bind_some, Option.bind_some, hy, follows]

end Sidecar

end Indexes

end Hynergy.Lib
