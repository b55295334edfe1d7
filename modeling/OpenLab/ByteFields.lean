import Mathlib

/-!
# Numbers and records in lists of bytes

Little-endian numbers of a given width, and a counted run of records of one size.
-/

namespace ByteFields

open List

def leBytes : Nat → Nat → List UInt8
  | 0, _ => []
  | n + 1, v => UInt8.ofNat v :: leBytes n (v / 256)

def leValue : List UInt8 → Nat
  | [] => 0
  | b :: rest => b.toNat + 256 * leValue rest

@[simp] theorem length_leBytes (n v : Nat) : (leBytes n v).length = n := by
  induction n generalizing v with
  | zero => rfl
  | succ n ih => simp [leBytes, ih]

theorem leValue_leBytes (n v : Nat) : leValue (leBytes n v) = v % 256 ^ n := by
  induction n generalizing v with
  | zero => simp [leBytes, leValue, Nat.mod_one]
  | succ n ih =>
    have low : (UInt8.ofNat v).toNat = v % 256 := by simp
    rw [leBytes, leValue, ih, low, Nat.pow_succ', Nat.mod_mul]

theorem leValue_leBytes_of_lt {n v} (small : v < 256 ^ n) : leValue (leBytes n v) = v := by
  rw [leValue_leBytes, Nat.mod_eq_of_lt small]

/-- In records of `p` places the next place is in the same record. -/
theorem div_mod_next {n p} (more : n % p + 1 < p) :
    (n + 1) / p = n / p ∧ (n + 1) % p = n % p + 1 := by
  have split := Nat.mod_add_div n p
  exact (Nat.div_mod_unique (by omega)).mpr ⟨by omega, more⟩

/-- Behind the last place of a record the next one begins. -/
theorem div_mod_last {n p} (last : n % p + 1 = p) :
    (n + 1) / p = n / p + 1 ∧ (n + 1) % p = 0 := by
  have split := Nat.mod_add_div n p
  exact (Nat.div_mod_unique (by omega)).mpr ⟨by rw [Nat.mul_add]; omega, by omega⟩

def records {β : Type} (size : Nat) (f : List UInt8 → β) : Nat → List UInt8 → List β
  | 0, _ => []
  | n + 1, bytes => f (bytes.take size) :: records size f n (bytes.drop size)

theorem records_flatMap {α β : Type} {size : Nat} (f : List UInt8 → β) (encode : α → List UInt8)
    {l : List α} (sized : ∀ x ∈ l, (encode x).length = size) (rest : List UInt8) :
    records size f l.length (l.flatMap encode ++ rest) = l.map (f ∘ encode) := by
  induction l with
  | nil => rfl
  | cons x l ih =>
    have first : (encode x).length = size := sized x mem_cons_self
    have others : ∀ y ∈ l, (encode y).length = size := fun y hy =>
      sized y (mem_cons_of_mem x hy)
    simp [records, append_assoc, ← first, ← ih others]

theorem length_flatMap_of_sized {α : Type} {size : Nat} {encode : α → List UInt8} {l : List α}
    (sized : ∀ x ∈ l, (encode x).length = size) : (l.flatMap encode).length = size * l.length := by
  induction l with
  | nil => rfl
  | cons x l ih =>
    have first : (encode x).length = size := sized x mem_cons_self
    have others := ih fun y hy => sized y (mem_cons_of_mem x hy)
    rw [flatMap_cons, length_append, first, others, length_cons]
    ring

def slice (data : Nat → UInt8) (idx len : Nat) : List UInt8 :=
  (List.range len).map fun i => data (idx + i)

@[simp] theorem length_slice (data : Nat → UInt8) (idx len : Nat) :
    (slice data idx len).length = len := by
  simp [slice]

theorem slice_append (data : Nat → UInt8) (idx m n : Nat) :
    slice data idx m ++ slice data (idx + m) n = slice data idx (m + n) := by
  simp [slice, range_add, Function.comp_def, Nat.add_assoc]

theorem slice_congr {data data'} {idx len}
    (same : ∀ j < len, data (idx + j) = data' (idx + j)) :
    slice data idx len = slice data' idx len := by
  refine map_congr_left ?_
  intro j hj
  exact same j (mem_range.mp hj)

theorem slice_snoc (data : Nat → UInt8) (n : Nat) (b : UInt8) :
    slice (fun j => if j = n then b else data j) 0 (n + 1) = slice data 0 n ++ [b] := by
  rw [← slice_append]
  congr 1
  · refine slice_congr ?_
    intro j hj
    exact if_neg (by omega)
  · simp [slice]

theorem slice_eq_take {data : Nat → UInt8} {l : List UInt8} {n : Nat}
    (holds : ∀ j < n, data j = l.getD j 0) (inside : n ≤ l.length) : slice data 0 n = l.take n := by
  apply ext_getElem
  · simp [inside]
  · intro j h1 h2
    have hj : j < n := by simpa using h1
    simp [slice, holds j hj, getElem?_eq_getElem (Nat.lt_of_lt_of_le hj inside)]

end ByteFields
