import OpenLab.CnRadio

/-!
# What a radio command depends on

Whether a command is accepted, and what it stores, depends on its payload and on the bytes of the
static structure it does not write: the high half of the period, which is stored in ticks and so
shows in the next command.
-/

namespace CnRadio

open Schedules

theorem toNat_setLow16 (x : UInt32) (v : UInt16) :
    (setLow16 x v).toNat = x.toNat / 65536 * 65536 + v.toNat := by
  have hx := x.toNat_lt
  have hv := v.toNat_lt
  simp only [setLow16, UInt32.toNat_add, UInt32.toNat_mul, UInt32.toNat_div,
    UInt16.toNat_toUInt32, UInt32.reduceToNat]
  omega

theorem toNat_setLow8 (x : UInt32) (v : UInt8) :
    (setLow8 x v).toNat = x.toNat / 256 * 256 + v.toNat := by
  have hx := x.toNat_lt
  have hv := v.toNat_lt
  simp only [setLow8, UInt32.toNat_add, UInt32.toNat_mul, UInt32.toNat_div,
    UInt8.toNat_toUInt32, UInt32.reduceToNat]
  omega

theorem setLow16_congr {x y} (h : x.toNat / 65536 = y.toNat / 65536) (v : UInt16) :
    setLow16 x v = setLow16 y v := by
  apply UInt32.toNat_inj.mp
  rw [toNat_setLow16, toNat_setLow16, h]

theorem setLow8_congr {x y} (h : x.toNat / 256 = y.toNat / 256) (v : UInt8) :
    setLow8 x v = setLow8 y v := by
  apply UInt32.toNat_inj.mp
  rw [toNat_setLow8, toNat_setLow8, h]

theorem setLow16_high (x : UInt32) (v : UInt16) :
    (setLow16 x v).toNat / 65536 = x.toNat / 65536 := by
  have hv := v.toNat_lt
  rw [toNat_setLow16]
  omega

theorem setLow8_high (x : UInt32) (v : UInt8) :
    (setLow8 x v).toNat / 256 = x.toNat / 256 := by
  have hv := v.toNat_lt
  rw [toNat_setLow8]
  omega

/-- What a command finds in its structure and does not write. -/
structure Residue where
  mode : Mode
  numOperationsPerChannel : Nat
  measurePeriod : Nat

def residue : Source → Config → Residue
  | .polling, c => ⟨c.mode, c.numOperationsPerChannel.toNat / 256, c.measurePeriod.toNat / 65536⟩
  | _, c => ⟨c.mode, c.numOperationsPerChannel.toNat, c.measurePeriod.toNat⟩

section Parse

variable {source : Source} {c c' : Config}

theorem parsePolling_congr (h : residue .polling c = residue .polling c') (data : List UInt8)
    (seven : data.length = 7) : parsePolling c data = parsePolling c' data := by
  obtain ⟨mode, num, period⟩ :
      c.mode = c'.mode ∧
      c.numOperationsPerChannel.toNat / 256 = c'.numOperationsPerChannel.toNat / 256 ∧
      c.measurePeriod.toNat / 65536 = c'.measurePeriod.toNat / 65536 := by
    simpa [residue] using h
  match data, seven with
  | [c₀, c₁, c₂, c₃, p₀, p₁, n], _ =>
    simp [parsePolling, setLow16_congr period, setLow8_congr num, mode]

theorem parseSniffer_congr (h : residue .sniffer c = residue .sniffer c') (data : List UInt8)
    (six : data.length = 6) : parseSniffer c data = parseSniffer c' data := by
  obtain ⟨mode, num, period⟩ :
      c.mode = c'.mode ∧ c.numOperationsPerChannel = c'.numOperationsPerChannel ∧
      c.measurePeriod = c'.measurePeriod := by
    simpa [residue, UInt32.toNat_inj] using h
  match data, six with
  | [c₀, c₁, c₂, c₃, t₀, t₁], _ => simp [parseSniffer, mode, num, period]

theorem parsePolling_of_length (c : Config) (data : List UInt8) (other : data.length ≠ 7) :
    parsePolling c data = (false, c) := by
  unfold parsePolling
  split
  · simp at other
  · rfl

theorem parseSniffer_of_length (c : Config) (data : List UInt8) (other : data.length ≠ 6) :
    parseSniffer c data = (false, c) := by
  unfold parseSniffer
  split
  · simp at other
  · rfl

theorem parse_congr (h : residue source c = residue source c') (data : List UInt8) :
    (parse source c data).1 = (parse source c' data).1 ∧
      ((parse source c data).1 = true → source ≠ .default →
        (parse source c data).2 = (parse source c' data).2) := by
  cases source with
  | default => exact ⟨rfl, by simp⟩
  | polling =>
    by_cases length : data.length = 7
    · simp [parse, parsePolling_congr h data length]
    · simp [parse, parsePolling_of_length _ data length]
  | sniffer =>
    by_cases length : data.length = 6
    · simp [parse, parseSniffer_congr h data length]
    · simp [parse, parseSniffer_of_length _ data length]

theorem residue_of_rejected (data : List UInt8) (rejected : (parse source c data).1 = false) :
    residue source (parse source c data).2 = residue source c := by
  cases source with
  | default => rfl
  | polling =>
    by_cases length : data.length = 7
    · match data, length with
      | [c₀, c₁, c₂, c₃, p₀, p₁, n], _ =>
        simp only [parse, parsePolling] at rejected ⊢
        split
        · simp [residue, setLow16_high, setLow8_high]
        split
        · simp [residue, setLow16_high, setLow8_high]
        · simp_all
    · simp [parse, parsePolling_of_length _ data length]
  | sniffer =>
    by_cases length : data.length = 6
    · match data, length with
      | [c₀, c₁, c₂, c₃, t₀, t₁], _ =>
        simp only [parse, parseSniffer] at rejected ⊢
        repeat' split
        all_goals simp [residue]
    · simp [parse, parseSniffer_of_length _ data length]

end Parse

def Selects (channels : UInt32) : Prop :=
  ∃ n, minChannel ≤ n ∧ n ≤ maxChannel ∧ channels.toNat.testBit n = true

theorem allChannels_testBit {n} (h : allChannels.toNat.testBit n = true) :
    minChannel ≤ n ∧ n ≤ maxChannel := by
  have below : n < 27 := by
    by_contra high
    have zero : allChannels.toNat.testBit n = false := by
      apply Nat.testBit_lt_two_pow
      exact Nat.lt_of_lt_of_le (by decide : allChannels.toNat < 2 ^ 27)
        (Nat.pow_le_pow_right (by decide) (by omega))
    simp [zero] at h
  refine ⟨?_, by unfold maxChannel; omega⟩
  by_contra low
  have low : n < 11 := by unfold minChannel at low; omega
  interval_cases n <;> revert h <;> decide

variable {channels : UInt32}

theorem selects_of_mask (some_ : channels &&& allChannels ≠ 0) :
    Selects (channels &&& allChannels) := by
  have nonzero : (channels &&& allChannels).toNat ≠ 0 := fun zero =>
    some_ (UInt32.toNat_inj.mp zero)
  obtain ⟨n, bit⟩ := Nat.exists_testBit_of_ne_zero nonzero
  have both : channels.toNat.testBit n = true ∧ allChannels.toNat.testBit n = true := by
    simpa [UInt32.toNat_and] using bit
  exact ⟨n, (allChannels_testBit both.2).1, (allChannels_testBit both.2).2, bit⟩

/-- The next channel is the first selected one above the current one. -/
theorem nextChannel_up {rounds current n} (last : n ≤ maxChannel) (below : current < n)
    (selected : channels.toNat.testBit n = true)
    (free : ∀ j, current < j → j < n → channels.toNat.testBit j = false)
    (enough : n - current ≤ rounds) : nextChannel channels rounds current = some n := by
  induction rounds generalizing current with
  | zero => omega
  | succ rounds ih =>
    have inside : ¬maxChannel < current + 1 := by omega
    simp only [nextChannel, if_neg inside]
    by_cases here : current + 1 = n
    · rw [here, if_pos selected]
    · rw [free (current + 1) (by omega) (by omega)]
      exact ih (by omega) (fun j above => free j (by omega)) (by omega)

/-- Without one above the current one the search starts again with the first channel. -/
theorem nextChannel_wrap (channels) {current} (rounds : Nat) (below : current ≤ maxChannel)
    (free : ∀ j, current < j → j ≤ maxChannel → channels.toNat.testBit j = false) :
    nextChannel channels (maxChannel - current + rounds + 1) current =
      nextChannel channels (rounds + 1) (minChannel - 1) := by
  induction left : maxChannel - current generalizing current with
  | zero =>
    obtain rfl : current = maxChannel := by omega
    rw [Nat.zero_add]
    rfl
  | succ left ih =>
    have inside : ¬maxChannel < current + 1 := by omega
    rw [← ih (by omega) (fun j above => free j (by omega))
      (show maxChannel - (current + 1) = _ by omega),
      nextChannel]
    simp only [if_neg inside, free (current + 1) (by omega) (by omega),
      Bool.false_eq_true, if_false]
    rw [Nat.add_right_comm]

theorem nextChannel_returns (h : Selects channels) {current} (below : current ≤ maxChannel) :
    ∃ channel, nextChannel channels 42 current = some channel ∧ channel ≤ maxChannel := by
  have up {rounds current} (enough : maxChannel - current ≤ rounds)
      (found : ∃ n, current < n ∧ n ≤ maxChannel ∧ channels.toNat.testBit n = true) :
      ∃ channel, nextChannel channels rounds current = some channel ∧ channel ≤ maxChannel := by
    obtain ⟨above, last, selected⟩ := Nat.find_spec found
    refine ⟨_, nextChannel_up last above selected (fun j later less => ?_) (by omega), last⟩
    by_contra bit
    exact Nat.find_min found less ⟨later, by omega, by simpa using bit⟩
  by_cases found : ∃ n, current < n ∧ n ≤ maxChannel ∧ channels.toNat.testBit n = true
  · exact up (by unfold maxChannel; omega) found
  · obtain ⟨n, first, last, selected⟩ := h
    have wraps := nextChannel_wrap channels (15 + current) below fun j above le => by
      by_contra bit
      exact found ⟨j, above, le, by simpa using bit⟩
    rw [show maxChannel - current + (15 + current) + 1 = 42 by unfold maxChannel at *; omega]
      at wraps
    rw [wraps]
    exact up (by unfold maxChannel minChannel; omega)
      ⟨n, by unfold minChannel at *; omega, last, selected⟩

theorem nextChannel_of_empty (rounds current : Nat) : nextChannel 0 rounds current = none := by
  induction rounds generalizing current with
  | zero => rfl
  | succ rounds ih => simpa [nextChannel] using ih _

theorem toInt_toInt32 (x : UInt32) :
    x.toInt32.toInt = if x.toNat < 2 ^ 31 then (x.toNat : Int) else (x.toNat : Int) - 2 ^ 32 := by
  have cond : x.toInt32.toInt =
      if 2 * x.toNat < 2 ^ 32 then (x.toNat : Int) else (x.toNat : Int) - (2 ^ 32 : Nat) :=
    BitVec.toInt_eq_toNat_cond x.toBitVec
  rw [cond]
  split <;> split <;> omega

theorem toNat_msToTicks (ms : UInt32) :
    ((msToTicks ms).toNat : Int) = (ms.toInt32.toInt * 32768).tdiv 1000 % 2 ^ 32 := by
  have nonneg := Int.emod_nonneg ((ms.toInt32.toInt * 32768).tdiv 1000)
    (by decide : (2 : Int) ^ 32 ≠ 0)
  have bound := Int.emod_lt_of_pos ((ms.toInt32.toInt * 32768).tdiv 1000)
    (by decide : (0 : Int) < 2 ^ 32)
  rw [msToTicks, UInt32.toNat_ofNat', Nat.mod_eq_of_lt (by omega)]
  omega

/-- A high half that is not negative shows unless it is a multiple of 2000, which adds a
multiple of 2³² ticks. -/
theorem ticks_low {high low : Int} (h₀ : 0 ≤ high) (h₁ : high < 32768) (l₀ : 0 ≤ low)
    (l₁ : low < 65536) :
    ((high * 65536 + low) * 32768).tdiv 1000 % 2 ^ 32 = (low * 32768).tdiv 1000 % 2 ^ 32 ↔
      high % 2000 = 0 := by
  rw [Int.tdiv_eq_ediv_of_nonneg (by omega), Int.tdiv_eq_ediv_of_nonneg (by omega)]
  generalize hq : (high * 65536 + low) * 32768 / 1000 = q
  generalize hr : low * 32768 / 1000 = r
  have whole : 1000 * q ≤ (high * 65536 + low) * 32768 ∧
      (high * 65536 + low) * 32768 < 1000 * q + 1000 := by omega
  have part : 1000 * r ≤ low * 32768 ∧ low * 32768 < 1000 * r + 1000 := by omega
  constructor
  · intro same
    obtain ⟨k, rounds⟩ : ∃ k, q = r + k * 2 ^ 32 := ⟨(q - r) / 2 ^ 32, by omega⟩
    have multiple : high = 2000 * k := by omega
    omega
  · intro multiple
    obtain ⟨k, multiple⟩ : ∃ k, high = 2000 * k := ⟨high / 2000, by omega⟩
    have rounds : q = r + k * 2 ^ 32 := by omega
    omega

theorem ticks_high {back low} (h₀ : 0 < back) (h₁ : back ≤ 32768) (l₀ : 0 ≤ low)
    (l₁ : low < 65536) :
    (-(back * 65536 - low) * 32768).tdiv 1000 % 2 ^ 32 = (low * 32768).tdiv 1000 % 2 ^ 32 ↔
      back % 2000 = 0 ∧ low % 125 = 0 := by
  rw [Int.neg_mul, Int.neg_tdiv, Int.tdiv_eq_ediv_of_nonneg (by omega),
    Int.tdiv_eq_ediv_of_nonneg (by omega)]
  generalize hq : (back * 65536 - low) * 32768 / 1000 = q
  generalize hr : low * 32768 / 1000 = r
  have whole : 1000 * q ≤ (back * 65536 - low) * 32768 ∧
      (back * 65536 - low) * 32768 < 1000 * q + 1000 := by omega
  have part : 1000 * r ≤ low * 32768 ∧ low * 32768 < 1000 * r + 1000 := by omega
  constructor
  · intro same
    obtain ⟨k, rounds⟩ : ∃ k, q + r = k * 2 ^ 32 := ⟨(q + r) / 2 ^ 32, by omega⟩
    have multiple : back = 2000 * k := by omega
    have even : 4096 * low = 125 * r := by omega
    -- 56 inverts 4096 modulo 125.
    have divides : low = 125 * (56 * r - 1835 * low) := by omega
    omega
  · rintro ⟨multiple, exact_⟩
    obtain ⟨k, multiple⟩ : ∃ k, back = 2000 * k := ⟨back / 2000, by omega⟩
    have rounds : q + r = k * 2 ^ 32 := by omega
    omega

/-- The high half of the period that a command finds does not show in the ticks. -/
def Hidden (high low : Nat) : Prop :=
  if high < 32768 then high % 2000 = 0 else (65536 - high) % 2000 = 0 ∧ low % 125 = 0

theorem msToTicks_setLow16 (x : UInt32) (v : UInt16) :
    msToTicks (setLow16 x v) = msToTicks v.toUInt32 ↔ Hidden (x.toNat / 65536) v.toNat := by
  have hx := x.toNat_lt
  have hv := v.toNat_lt
  have low : v.toUInt32.toInt32.toInt = v.toNat := by
    rw [toInt_toInt32, UInt16.toNat_toUInt32, if_pos (by omega)]
  rw [← UInt32.toNat_inj, ← Int.natCast_inj, toNat_msToTicks, toNat_msToTicks, low,
    toInt_toInt32, toNat_setLow16]
  unfold Hidden
  split
  · have sum : ((x.toNat / 65536 * 65536 + v.toNat : Nat) : Int) =
        ((x.toNat / 65536 : Nat) : Int) * 65536 + (v.toNat : Int) := by omega
    rw [if_pos (by omega), sum, ticks_low (by omega) (by omega) (by omega) (by omega)]
    omega
  · rw [if_neg (by omega)]
    have back : ((x.toNat / 65536 * 65536 + v.toNat : Nat) : Int) - 2 ^ 32 =
        -((65536 - x.toNat / 65536 : Nat) * 65536 - (v.toNat : Int)) := by omega
    rw [back, ticks_high (by omega) (by omega) (by omega) (by omega)]
    omega

end CnRadio
