import OpenLab.PageCache

/-!
# Ranges of bytes of a page

What `bytes` reads of a page after `cpy` has stored into it.
-/

namespace PageCache

open List

variable {x y : Block} {data : List UInt8} {offset start n m : Nat}

theorem length_bytes : (bytes x offset n).length = min n (pageSize - offset) := by
  simp [bytes]

theorem length_bytes_of_le (h : offset + n ≤ pageSize) : (bytes x offset n).length = n := by
  rw [length_bytes]
  omega

theorem getElem_bytes {i} (h : i < (bytes x offset n).length) :
    (bytes x offset n)[i] = x ⟨offset + i, by rw [length_bytes] at h; omega⟩ := by
  simp [bytes]

theorem bytes_congr
    (same : ∀ k : Fin pageSize, offset ≤ k.val → k.val < offset + n → x k = y k) :
    bytes x offset n = bytes y offset n := by
  refine ext_getElem (by rw [length_bytes, length_bytes]) fun i hi hi' => ?_
  rw [getElem_bytes hi, getElem_bytes hi']
  rw [length_bytes] at hi
  exact same _ (by simp) (by simp; omega)

theorem bytes_cpy_apart (apart : offset + n ≤ start ∨ start + data.length ≤ offset) :
    bytes (cpy data x start) offset n = bytes x offset n :=
  bytes_congr fun k low high => cpy_outside (by omega)

theorem cpy_inside {k} (low : start ≤ k.val) (high : k.val - start < data.length) :
    cpy data x start k = data[k.val - start] := by
  rw [cpy, if_pos low, getD_eq_getElem _ _ high]

theorem bytes_cpy_part (fits : start + data.length ≤ pageSize) (low : start ≤ offset)
    (high : offset + n ≤ start + data.length) :
    bytes (cpy data x start) offset n = (data.drop (offset - start)).take n := by
  refine ext_getElem ?_ fun i hi hi' => ?_
  · rw [length_bytes, length_take, length_drop]
    omega
  · have inside : i < n := by
      rw [length_bytes] at hi
      omega
    rw [getElem_bytes hi, cpy_inside (by simp; omega) (by simp; omega), getElem_take,
      getElem_drop]
    congr 1
    simp
    omega

theorem bytes_cpy_self (fits : start + data.length ≤ pageSize) :
    bytes (cpy data x start) start data.length = data := by
  rw [bytes_cpy_part fits le_rfl le_rfl]
  simp

theorem bytes_append : bytes x offset (n + m) = bytes x offset n ++ bytes x (offset + n) m := by
  unfold bytes
  rw [take_add, drop_drop]

theorem bytes_bytes (h : m + n ≤ start) :
    ((bytes x offset start).drop m).take n = bytes x (offset + m) n := by
  unfold bytes
  rw [drop_take, take_take, drop_drop, Nat.min_eq_left (by omega)]

theorem cpy_page : cpy (bytes y 0 pageSize) x 0 = y := by
  funext k
  have long : (bytes y 0 pageSize).length = pageSize := length_bytes_of_le (by simp)
  rw [cpy_inside (Nat.zero_le _) (by omega), getElem_bytes]
  simp

end PageCache
