import Mathlib

/-!
# Times that wrap around

32-bit time stamps of a running clock, compared by the sign of their difference, as long as they
are less than half of the range apart.
-/

namespace WrapTime

/-- How far `a` is ahead of `b`: the difference, read as a signed number. -/
def ahead (a b : UInt32) : Int := (a - b).toInt32.toInt

def stamp (n : Int) : UInt32 := UInt32.ofNat (n % 2 ^ 32).toNat

variable {a b c : UInt32}

theorem ahead_spec (a b : UInt32) : -2 ^ 31 ≤ ahead a b ∧ ahead a b < 2 ^ 31 ∧
    ∃ q : Int, (a.toNat : Int) = b.toNat + ahead a b + q * 2 ^ 32 := by
  have ha := a.toNat_lt
  have hb := b.toNat_lt
  have hsub : (a - b).toNat = (2 ^ 32 - b.toNat + a.toNat) % 2 ^ 32 := UInt32.toNat_sub a b
  have hint : ahead a b = ((a - b).toNat : Int).bmod (2 ^ 32) :=
    BitVec.toInt_eq_toNat_bmod (a - b).toBitVec
  rw [Int.bmod_def] at hint
  split at hint
  · refine ⟨by omega, by omega, if a.toNat < b.toNat then -1 else 0, ?_⟩
    split <;> omega
  · refine ⟨by omega, by omega, if a.toNat < b.toNat then 0 else 1, ?_⟩
    split <;> omega

theorem ahead_eq_of_congr {k} (low : -2 ^ 31 ≤ k) (high : k < 2 ^ 31) (q : Int)
    (h : (a.toNat : Int) = b.toNat + k + q * 2 ^ 32) : ahead a b = k := by
  obtain ⟨hl, hh, q', hq⟩ := ahead_spec a b
  omega

theorem ahead_self (a : UInt32) : ahead a a = 0 :=
  ahead_eq_of_congr (by decide) (by decide) 0 (by omega)

theorem ahead_trans (low : -2 ^ 31 ≤ ahead a b + ahead b c)
    (high : ahead a b + ahead b c < 2 ^ 31) :
    ahead a c = ahead a b + ahead b c := by
  obtain ⟨-, -, q, hq⟩ := ahead_spec a b
  obtain ⟨-, -, r, hr⟩ := ahead_spec b c
  exact ahead_eq_of_congr low high (q + r) (by omega)

theorem ahead_swap (low : -2 ^ 31 < ahead a b) : ahead b a = -ahead a b := by
  obtain ⟨-, high, q, hq⟩ := ahead_spec a b
  exact ahead_eq_of_congr (by omega) (by omega) (-q) (by omega)

theorem ahead_add {d} (h : ahead a b + d.toNat < 2 ^ 31) :
    ahead (a + d) b = ahead a b + d.toNat := by
  obtain ⟨low, -, q, hq⟩ := ahead_spec a b
  have hsum : (a + d).toNat = (a.toNat + d.toNat) % 2 ^ 32 := UInt32.toNat_add a d
  exact ahead_eq_of_congr (by omega) h (q - (a.toNat + d.toNat) / 2 ^ 32) (by omega)

theorem ahead_eq_toNat (h : (a - b).toNat < 2 ^ 31) : ahead a b = (a - b).toNat := by
  have hsub : (a - b).toNat = (2 ^ 32 - b.toNat + a.toNat) % 2 ^ 32 := UInt32.toNat_sub a b
  obtain ⟨low, high, q, hq⟩ := ahead_spec a b
  have hb := b.toNat_lt
  omega

theorem ahead_window {base} (ha : (a - base).toNat < 2 ^ 31) (hb : (b - base).toNat < 2 ^ 31) :
    ahead a b = (a - base).toNat - (b - base).toNat := by
  have hsuba : (a - base).toNat = (2 ^ 32 - base.toNat + a.toNat) % 2 ^ 32 :=
    UInt32.toNat_sub a base
  have hsubb : (b - base).toNat = (2 ^ 32 - base.toNat + b.toNat) % 2 ^ 32 :=
    UInt32.toNat_sub b base
  obtain ⟨low, high, q, hq⟩ := ahead_spec a b
  omega

theorem ahead_tick (low : -2 ^ 31 < ahead a b) : ahead a (b + 1) = ahead a b - 1 := by
  obtain ⟨-, high, q, hq⟩ := ahead_spec a b
  have hsum : (b + 1).toNat = (b.toNat + 1) % 2 ^ 32 := UInt32.toNat_add b 1
  exact ahead_eq_of_congr (by omega) (by omega) (q + (b.toNat + 1) / 2 ^ 32) (by omega)

theorem toNat_stamp (n : Int) : ((stamp n).toNat : Int) = n % 2 ^ 32 := by
  have h : (stamp n).toNat = (n % 2 ^ 32).toNat % 2 ^ 32 := UInt32.toNat_ofNat'
  omega

theorem eq_stamp {n} (h : b = stamp n) : a = stamp (n + ahead a b) := by
  obtain ⟨-, -, q, hq⟩ := ahead_spec a b
  have hb := toNat_stamp n
  have hs := toNat_stamp (n + ahead a b)
  have ha := a.toNat_lt
  rw [← h] at hb
  apply UInt32.toNat_inj.mp
  omega

theorem stamp_tick {n} (h : b = stamp n) : b + 1 = stamp (n + 1) := by
  have hs := toNat_stamp (n + 1)
  have hb := toNat_stamp n
  have hsum : (b + 1).toNat = (b.toNat + 1) % 2 ^ 32 := UInt32.toNat_add b 1
  rw [← h] at hb
  apply UInt32.toNat_inj.mp
  omega

end WrapTime
