import Mathlib

/-!
# Windows of a ring

The window of a ring from `start` on with `len` elements is the list of these cells in order.
-/

namespace RingWindow

open List

variable {β : Type} {size : Nat} {cells : Nat → β}

def window (size : Nat) (cells : Nat → β) (start len : Nat) : List β :=
  (List.range len).map fun i => cells ((start + i) % size)

def put (cells : Nat → β) (j : Nat) (b : β) : Nat → β := fun i => if i = j then b else cells i

@[simp] theorem length_window (start len : Nat) : (window size cells start len).length = len := by
  simp [window]

@[simp] theorem window_zero (start : Nat) : window size cells start 0 = [] := rfl

theorem window_append (start m n : Nat) :
    window size cells start m ++ window size cells ((start + m) % size) n =
      window size cells start (m + n) := by
  simp [window, range_add, Function.comp_def, Nat.add_assoc]

theorem window_succ (start n : Nat) :
    window size cells start (n + 1) =
      window size cells start n ++ [cells ((start + n) % size)] := by
  simp [window, range_succ]

variable {len : Nat}

theorem take_window (start : Nat) {k} (le : k ≤ len) :
    (window size cells start len).take k = window size cells start k := by
  obtain ⟨m, rfl⟩ := Nat.exists_eq_add_of_le le
  rw [← window_append, take_left' (length_window start k)]

theorem drop_window (start : Nat) {k} (le : k ≤ len) :
    (window size cells start len).drop k = window size cells ((start + k) % size) (len - k) := by
  obtain ⟨m, rfl⟩ := Nat.exists_eq_add_of_le le
  rw [← window_append, drop_left' (length_window start k), Nat.add_sub_cancel_left]

theorem window_put {start j} (b : β) (outside : ∀ i < len, (start + i) % size ≠ j) :
    window size (put cells j b) start len = window size cells start len := by
  refine map_congr_left ?_
  intro i hi
  exact if_neg (outside i (mem_range.mp hi))

theorem window_straight {start} (straight : start + len ≤ size) :
    window size cells start len = (List.range len).map fun i => cells (start + i) := by
  refine map_congr_left ?_
  intro i hi
  have := mem_range.mp hi
  exact congrArg cells (Nat.mod_eq_of_lt (by omega))

theorem mem_window_head (start : Nat) (some_cell : 0 < len) :
    cells (start % size) ∈ window size cells start len :=
  mem_map.mpr ⟨0, mem_range.mpr some_cell, rfl⟩

end RingWindow
