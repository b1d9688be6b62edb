import Hynergy.Lib.LittleEndian

/-!
# Segments

A memory of a fixed size that is filled from the front: the bytes written so far are its front.
-/

namespace Hynergy.Lib

/-- Bytes written at an offset; `none` where they do not fit. -/
def writeAt (segment : List Byte) (offset : Nat) (bytes : List Byte) : Option (List Byte) :=
  if offset + bytes.length ≤ segment.length then
    some (segment.take offset ++ (bytes ++ segment.drop (offset + bytes.length)))
  else none

/-- The segment holds the bytes at its front. -/
def Holds (segment front : List Byte) : Prop := segment.take front.length = front

variable {segment next front bytes : List Byte} {offset : Nat}

namespace Holds

theorem iff_append : Holds segment front ↔ ∃ rest, segment = front ++ rest := by
  constructor
  · intro h
    refine ⟨segment.drop front.length, ?_⟩
    conv => lhs; rw [← List.take_append_drop front.length segment, h]
  · rintro ⟨rest, rfl⟩
    exact List.take_left

theorem length_le (h : Holds segment front) : front.length ≤ segment.length := by
  obtain ⟨rest, rfl⟩ := iff_append.mp h
  simp

theorem left (h : Holds segment (front ++ bytes)) : Holds segment front := by
  obtain ⟨rest, rfl⟩ := iff_append.mp h
  exact iff_append.mpr ⟨bytes ++ rest, List.append_assoc ..⟩

/-- Bytes are written after the front. -/
theorem write (h : Holds segment front) (fits : front.length + bytes.length ≤ segment.length) :
    ∃ next, writeAt segment front.length bytes = some next ∧ next.length = segment.length ∧
      Holds next (front ++ bytes) := by
  obtain ⟨rest, rfl⟩ := iff_append.mp h
  rw [List.length_append] at fits
  refine ⟨front ++ (bytes ++ rest.drop bytes.length), ?_, ?_, ?_⟩
  · rw [writeAt, if_pos (by rw [List.length_append]; omega), List.take_left, List.drop_append,
      List.drop_of_length_le (Nat.le_add_right _ _), List.nil_append, Nat.add_sub_cancel_left]
  · simp only [List.length_append, List.length_drop]
    omega
  · exact iff_append.mpr ⟨rest.drop bytes.length, by rw [List.append_assoc]⟩

/-- Bytes in the front are written over. -/
theorem patch {before old after : List Byte} (h : Holds segment (before ++ (old ++ after)))
    (same : bytes.length = old.length) :
    ∃ next, writeAt segment before.length bytes = some next ∧ next.length = segment.length ∧
      Holds next (before ++ (bytes ++ after)) := by
  obtain ⟨rest, rfl⟩ := iff_append.mp h
  have shape : before ++ (old ++ after) ++ rest = before ++ (old ++ (after ++ rest)) := by simp
  rw [shape]
  refine ⟨before ++ (bytes ++ (after ++ rest)), ?_, by simp [same], iff_append.mpr ⟨rest, by simp⟩⟩
  rw [writeAt, if_pos (by simp only [List.length_append]; omega), List.take_left, List.drop_append,
    List.drop_of_length_le (Nat.le_add_right _ _), List.nil_append, Nat.add_sub_cancel_left, same, List.drop_left]

/-- The front is copied into a larger segment. -/
theorem copy (h : Holds segment front) {capacity : Nat} (larger : front.length ≤ capacity) :
    ∃ next, writeAt (List.replicate capacity 0) 0 (segment.take front.length) = some next ∧
      next.length = capacity ∧ Holds next front := by
  have length : front.length ≤ segment.length := h.length_le
  rw [Holds] at h
  rw [h]
  have start : Holds (List.replicate capacity (0 : Byte)) [] := rfl
  obtain ⟨next, run, size, holds⟩ := @write _ [] front start (by simpa using larger)
  exact ⟨next, run, by rw [size, List.length_replicate], holds⟩

end Holds

end Hynergy.Lib
