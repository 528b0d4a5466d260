import Mathlib.Data.List.Basic

/-!
A list cut into pieces of one size, the last one shorter where it has to be: the
slices from `0`, `size`, `2 * size` and so on.
-/

variable {α : Type}

def chunks (size : Nat) (xs : List α) : List (List α) :=
  (List.range ((xs.length + size - 1) / size)).map fun i => (xs.drop (i * size)).take size

namespace Chunks

private theorem flatten_slices (size : Nat) (xs : List α) (count : Nat) :
    ((List.range count).map fun i => (xs.drop (i * size)).take size).flatten =
      xs.take (count * size) := by
  induction count with
  | zero => simp
  | succ count ih =>
      simp only [List.range_succ, List.map_append, List.flatten_append, ih, List.map_cons,
        List.map_nil, List.flatten_cons, List.flatten_nil, List.append_nil, Nat.succ_mul]
      exact List.take_add.symm

theorem flatten {size : Nat} (hsize : 0 < size) (xs : List α) :
    (chunks size xs).flatten = xs := by
  have hcover : xs.length ≤ (xs.length + size - 1) / size * size := by
    have h := Nat.lt_mul_div_succ (xs.length + size - 1) hsize
    rw [Nat.mul_add, Nat.mul_comm] at h
    omega
  rw [chunks, flatten_slices, List.take_of_length_le hcover]

theorem length_le {size : Nat} {xs chunk : List α} (h : chunk ∈ chunks size xs) :
    chunk.length ≤ size := by
  obtain ⟨i, -, rfl⟩ := List.mem_map.mp h
  exact List.length_take_le _ _

theorem ne_nil {size : Nat} (hsize : 0 < size) {xs chunk : List α}
    (h : chunk ∈ chunks size xs) : chunk ≠ [] := by
  obtain ⟨i, hi, rfl⟩ := List.mem_map.mp h
  have hlt : i * size < xs.length := by
    have hle := (Nat.le_div_iff_mul_le hsize).mp (List.mem_range.mp hi)
    rw [Nat.succ_mul] at hle
    omega
  rw [← List.length_pos_iff, List.length_take, List.length_drop]
  omega

end Chunks
