import OpenLab.SoftTimerClock

/-!
# Extending time stamps

A 16-bit capture is extended to 32 bits by `soft_timer_convert_time` with the time of the call,
and to 64 bits by `get_extended_time` with that of a later call.
-/

namespace IotlabTime

open Schedules SoftTimerClock

structure Timeval where
  tvSec : UInt32
  tvUsec : UInt32
  deriving DecidableEq

/-- `soft_timer_convert_time`, with the time that it reads. -/
def softTimerConvertTime (ref : UInt32) (t : UInt16) : UInt32 :=
  let n := ref.toUInt16
  let d := n - t
  let ref :=
    if t ≤ n then
      if d < 32768 then ref
      -- `t` is in advance
      else ref + 0x10000
    else
      if d < 32768 then ref - 0x10000
      -- `t` is in advance
      else ref
  (ref &&& 0xFFFF0000) ||| t.toUInt32

def getExtendedTime (timerTick : UInt32) (timerTick64 : UInt64) : UInt64 :=
  let absoluteTime := (timerTick64 &&& ~~~0xFFFFFFFF) ||| timerTick.toUInt64
  if timerTick64 &&& 0x80000000 < (timerTick &&& 0x80000000).toUInt64 then
    absoluteTime - 0x100000000
  else absoluteTime

theorem and_high {x w k} (hx : x < 2 ^ w) (hk : k ≤ w) :
    x &&& (2 ^ w - 2 ^ k) = 2 ^ k * (x / 2 ^ k) := by
  have hpow : 2 ^ w = 2 ^ k * 2 ^ (w - k) := by
    rw [← Nat.pow_add]
    congr
    omega
  have hmask : 2 ^ w - 2 ^ k = 2 ^ k * (2 ^ (w - k) - 1) := by
    rw [Nat.mul_sub, ← hpow, Nat.mul_one]
  have hdiv : (x &&& (2 ^ w - 2 ^ k)) / 2 ^ k = x / 2 ^ k := by
    rw [Nat.and_div_two_pow, hmask, Nat.mul_div_cancel_left _ (Nat.two_pow_pos k),
      Nat.and_two_pow_sub_one_eq_mod, Nat.mod_eq_of_lt]
    exact Nat.div_lt_of_lt_mul (hpow ▸ hx)
  have hmod : (x &&& (2 ^ w - 2 ^ k)) % 2 ^ k = 0 := by
    rw [Nat.and_mod_two_pow, hmask, Nat.mul_mod_right, Nat.and_zero]
  have split := Nat.div_add_mod (x &&& (2 ^ w - 2 ^ k)) (2 ^ k)
  rw [hdiv, hmod] at split
  omega

theorem toNat_low16_replaced (ref : UInt32) (t : UInt16) :
    ((ref &&& 0xFFFF0000) ||| t.toUInt32).toNat = 2 ^ 16 * (ref.toNat / 2 ^ 16) + t.toNat := by
  have high : (ref &&& 0xFFFF0000).toNat = 2 ^ 16 * (ref.toNat / 2 ^ 16) := by
    exact and_high (w := 32) (k := 16) ref.toNat_lt (by decide)
  rw [UInt32.toNat_or, high, UInt16.toNat_toUInt32]
  exact (Nat.two_pow_add_eq_or_of_lt t.toNat_lt _).symm

theorem toNat_low32_replaced (ref : UInt64) (t : UInt32) :
    ((ref &&& ~~~0xFFFFFFFF) ||| t.toUInt64).toNat = 2 ^ 32 * (ref.toNat / 2 ^ 32) + t.toNat := by
  have high : (ref &&& ~~~0xFFFFFFFF).toNat = 2 ^ 32 * (ref.toNat / 2 ^ 32) := by
    exact and_high (w := 64) (k := 32) ref.toNat_lt (by decide)
  rw [UInt64.toNat_or, high, UInt32.toNat_toUInt64]
  exact (Nat.two_pow_add_eq_or_of_lt t.toNat_lt _).symm

/-- The test of the bits 31: the second word is in the upper half of its range and the
first one is not. -/
theorem bit31_lt_iff (a : UInt64) (b : UInt32) :
    a &&& 0x80000000 < (b &&& 0x80000000).toUInt64 ↔
      a.toNat % 2 ^ 32 < 2 ^ 31 ∧ 2 ^ 31 ≤ b.toNat := by
  have hb := b.toNat_lt
  have ha : (a &&& 0x80000000).toNat = (a.toNat.testBit 31).toNat * 2 ^ 31 := by
    exact Nat.and_two_pow _ 31
  have hb' : (b &&& 0x80000000).toUInt64.toNat = (b.toNat.testBit 31).toNat * 2 ^ 31 := by
    exact Nat.and_two_pow _ 31
  rw [UInt64.lt_iff_toNat_lt, ha, hb', Nat.testBit_eq_decide_div_mod_eq,
    Nat.testBit_eq_decide_div_mod_eq]
  by_cases hbit : a.toNat / 2 ^ 31 % 2 = 1
  · by_cases hbit' : b.toNat / 2 ^ 31 % 2 = 1
    · simp only [hbit, hbit']
      omega
    · simp only [hbit, hbit']
      simp
      omega
  · by_cases hbit' : b.toNat / 2 ^ 31 % 2 = 1
    · simp only [hbit, hbit']
      simp
      omega
    · simp only [hbit, hbit']
      omega

variable {event now : Nat}

theorem convertTime_eq
    (near : event ≤ now ∧ now < event + 2 ^ 15 ∨ now < event ∧ event ≤ now + 2 ^ 15) :
    softTimerConvertTime (UInt32.ofNat now) (UInt16.ofNat event) = UInt32.ofNat event := by
  apply UInt32.toNat_inj.mp
  rw [softTimerConvertTime, toNat_low16_replaced, UInt32.toNat_ofNat', UInt16.toNat_ofNat']
  generalize href : UInt32.ofNat now = ref
  generalize ht : UInt16.ofNat event = t
  have href' : ref.toNat = now % 2 ^ 32 := by rw [← href, UInt32.toNat_ofNat']
  have ht' : t.toNat = event % 2 ^ 16 := by rw [← ht, UInt16.toNat_ofNat']
  have hn : ref.toUInt16.toNat = ref.toNat % 2 ^ 16 := UInt32.toNat_toUInt16 ref
  have hd : (ref.toUInt16 - t).toNat = (2 ^ 16 - t.toNat + ref.toUInt16.toNat) % 2 ^ 16 :=
    UInt16.toNat_sub _ _
  have hadd : (ref + 0x10000).toNat = (ref.toNat + 0x10000) % 2 ^ 32 := UInt32.toNat_add _ _
  have hsub : (ref - 0x10000).toNat = (2 ^ 32 - 0x10000 + ref.toNat) % 2 ^ 32 :=
    UInt32.toNat_sub _ _
  have hhalf : ref.toUInt16 - t < 32768 ↔ (ref.toUInt16 - t).toNat < 32768 :=
    UInt16.lt_iff_toNat_lt
  simp only [UInt16.le_iff_toNat_le, hhalf]
  split
  · split
    · omega
    · omega
  · split
    · omega
    · omega

theorem extendedTime_eq (small : now < 2 ^ 64) (past : event ≤ now)
    (recent : now < event + 2 ^ 31) :
    (getExtendedTime (UInt32.ofNat event) (UInt64.ofNat now)).toNat = event := by
  have hnow : (UInt64.ofNat now).toNat = now := by
    exact Nat.mod_eq_of_lt small
  have hevent : (UInt32.ofNat event).toNat = event % 2 ^ 32 := UInt32.toNat_ofNat'
  have habs := toNat_low32_replaced (UInt64.ofNat now) (UInt32.ofNat event)
  have hbit := bit31_lt_iff (UInt64.ofNat now) (UInt32.ofNat event)
  rw [getExtendedTime]
  split
  · next upper =>
    have halves := hbit.mp upper
    rw [UInt64.toNat_sub, habs]
    have : (0x100000000 : UInt64).toNat = 2 ^ 32 := rfl
    omega
  · next lower =>
    have halves := hbit.not.mp lower
    omega

/-- The chain from the capture to the 64-bit time, for an event at any 48-bit time. -/
theorem timestamp_extended (event : Nat) (bound : event < 2 ^ 48) :
    (∀ first second, event ≤ first → first < event + 2 ^ 15 → first ≤ second →
      second < event + 2 ^ 31 →
      softTimerConvertTime (UInt32.ofNat first) (UInt16.ofNat event) = UInt32.ofNat event ∧
      (getExtendedTime (softTimerConvertTime (UInt32.ofNat first) (UInt16.ofNat event))
        (UInt64.ofNat second)).toNat = event) ∧
    ∀ first, first < event → event ≤ first + 2 ^ 15 →
      softTimerConvertTime (UInt32.ofNat first) (UInt16.ofNat event) = UInt32.ofNat event := by
  constructor
  · intro first second past recent later window
    have converted := convertTime_eq (.inl ⟨past, recent⟩)
    refine ⟨converted, ?_⟩
    rw [converted]
    exact extendedTime_eq (by omega) (by omega) window
  · exact fun first ahead near => convertTime_eq (.inr ⟨ahead, near⟩)

theorem timestamp_extended_at_wrap :
    (0xFFFFFFFF : Nat) < 2 ^ 48 ∧
      (getExtendedTime (softTimerConvertTime (UInt32.ofNat 0x100000001) (UInt16.ofNat 0xFFFFFFFF))
        (UInt64.ofNat 0x17FFFFFFE)).toNat = 0xFFFFFFFF := by
  refine ⟨by decide, ?_⟩
  exact ((timestamp_extended 0xFFFFFFFF (by decide)).1 0x100000001 0x17FFFFFFE (by decide)
    (by decide) (by decide) (by decide)).2

theorem timestamp_of_results {c} (run : Run step Undisturbed softTimerConfig c)
    {first second} (hf : first ∈ c.results) (hs : second ∈ c.results)
    (past : event ≤ first.time) (recent : first.time < event + 2 ^ 15)
    (later : first.time ≤ second.time) (window : second.time < event + 2 ^ 31)
    (bound : second.time < 2 ^ 48) :
    (getExtendedTime (softTimerConvertTime (softTimerTime first) (UInt16.ofNat event))
      (softTimerTime64 second)).toNat = event := by
  have exact_ := exact_run run
  have hfirst : softTimerTime first = UInt32.ofNat first.time := by
    apply UInt32.toNat_inj.mp
    rw [(exact_.times hf).1, UInt32.toNat_ofNat']
  have hsecond : softTimerTime64 second = UInt64.ofNat second.time := by
    apply UInt64.toNat_inj.mp
    rw [(exact_.times hs).2, UInt64.toNat_ofNat']
    omega
  rw [hfirst, hsecond, convertTime_eq (.inl ⟨past, recent⟩)]
  exact extendedTime_eq (by omega) (by omega) window

end IotlabTime
