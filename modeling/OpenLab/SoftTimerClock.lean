import OpenLab.Schedules
import OpenLab.SoftTimer

/-!
# The extended clock

`soft_timer_time` extends the 16-bit counter by the number of its updates, while the timer
interrupt clears the flag and then counts the update.

A task, or a handler below the mask, reads in a critical section outside the timer interrupt.
`char_rx` may interrupt both, and runs to its end.
-/

namespace SoftTimerClock

open Schedules List Option

/-- What `_soft_timer_time` has read so far; the second number is the time of the first
sample of the counter. -/
inductive Reading
  | counted (updateCount : UInt32)
  | sampled (updateCount : UInt32) (tA : UInt16) (since : Nat)
  | flagged (updateCount : UInt32) (tA : UInt16) (since : Nat) (update : Bool)
  deriving DecidableEq

structure Result where
  updateCount : UInt32
  time16 : UInt16
  time : Nat
  deriving DecidableEq

def softTimerTime (r : Result) : UInt32 := (r.updateCount <<< 16) + r.time16.toUInt32

def softTimerTime64 (r : Result) : UInt64 := (r.updateCount.toUInt64 <<< 16) + r.time16.toUInt64

structure Clock where
  updateCount : UInt32
  counter : UInt16
  updateFlag : Bool
  -- The timer interrupt has cleared the flag and not yet counted the update.
  cleared : Bool
  -- A caller in its critical section, and `char_rx`.
  masked : Option Reading
  charRx : Option Reading
  -- The ticks since the start, and what was returned, the last one first.
  elapsed : Nat
  results : List Result
  deriving DecidableEq

def softTimerConfig : Clock := ⟨0, 0, false, false, none, none, 0, []⟩

/-- The next statement of a caller; the second component is what it returns. -/
def readStep (c : Clock) : Option Reading → Option Reading × Option Result
  | none => (some (.counted c.updateCount), none)
  | some (.counted n) => (some (.sampled n c.counter c.elapsed), none)
  | some (.sampled n tA since) => (some (.flagged n tA since c.updateFlag), none)
  | some (.flagged n tA _ update) =>
    let tB := c.counter
    (none, some ⟨n + if update || tB < tA then 1 else 0, tB, c.elapsed⟩)

inductive Action
  | tick
  | clearFlag
  | softTimerUpdate
  | masked
  | charRx
  deriving DecidableEq

def tick (c : Clock) : Clock :=
  { c with
    counter := c.counter + 1
    updateFlag := c.updateFlag || c.counter == 0xffff
    elapsed := c.elapsed + 1 }

/-- One step. The counter does not wrap around before the last update is counted; `char_rx`
is not interrupted, and nothing but `char_rx` interrupts the others. -/
def step (c : Clock) : Action → Option Clock
  | .tick =>
    if c.counter = 0xffff ∧ (c.updateFlag ∨ c.cleared) then none
    else some (tick c)
  | .clearFlag =>
    if c.updateFlag ∧ ¬c.cleared ∧ c.masked = none ∧ c.charRx = none then
      some { c with updateFlag := false, cleared := true }
    else none
  | .softTimerUpdate =>
    if c.cleared ∧ c.charRx = none then
      some { c with updateCount := c.updateCount + 1, cleared := false }
    else none
  | .masked =>
    if ¬c.cleared ∧ c.charRx = none then
      let r := readStep c c.masked
      some { c with masked := r.1, results := r.2.toList ++ c.results }
    else none
  | .charRx =>
    let r := readStep c c.charRx
    some { c with charRx := r.1, results := r.2.toList ++ c.results }

/-- Less than one period of the counter passes between the two samples. -/
def Short (c : Clock) : Option Reading → Prop
  | some (.sampled _ _ since) | some (.flagged _ _ since _) => c.elapsed < since + 65536
  | _ => True

/-- `char_rx` does not start to read between the statement that clears the flag and the
one that counts the update, and no caller is interrupted for a period of the counter. -/
def Undisturbed (c : Clock) : Action → Prop
  | .charRx => (c.charRx = none → c.cleared = false) ∧ Short c c.charRx
  | .masked => Short c c.masked
  | _ => True

def Reads (c : Clock) : Reading → Prop
  | .counted n => n = c.updateCount
  | .sampled n tA since => n = c.updateCount ∧ tA.toNat = since % 65536 ∧ since ≤ c.elapsed ∧
      (c.updateFlag = false → c.elapsed / 65536 = since / 65536)
  | .flagged n tA since update => n = c.updateCount ∧ tA.toNat = since % 65536 ∧
      since ≤ c.elapsed ∧ (update = true → c.updateFlag = true) ∧
      (update = false → c.elapsed / 65536 = since / 65536 + if c.updateFlag then 1 else 0)

def Result.value (r : Result) : Nat := r.updateCount.toNat * 65536 + r.time16.toNat

structure Exact (c : Clock) : Prop where
  counter : c.counter.toNat = c.elapsed % 65536
  count : (c.updateCount.toNat + (if c.updateFlag then 1 else 0) + if c.cleared then 1 else 0) %
    2 ^ 32 = c.elapsed / 65536 % 2 ^ 32
  one : ¬(c.updateFlag = true ∧ c.cleared = true)
  masked : ∀ r, c.masked = some r → c.cleared = false ∧ Reads c r
  charRx : ∀ r, c.charRx = some r → c.cleared = false ∧ Reads c r
  results : ∀ r ∈ c.results, r.value = r.time % 2 ^ 48 ∧ r.time ≤ c.elapsed
  ordered : c.results.Pairwise fun newer older => older.time ≤ newer.time

theorem Reads.congr {c c'} {r} (h : Reads c r)
    (count : c'.updateCount = c.updateCount) (flag : c'.updateFlag = c.updateFlag)
    (elapsed : c'.elapsed = c.elapsed) : Reads c' r := by
  cases r with
  | counted n => exact h.trans count.symm
  | sampled n tA since | flagged n tA since update =>
    simp only [Reads, count, flag, elapsed]
    exact h

section Read

variable {c : Clock} {o : Option Reading}

theorem reads_readStep (exact_ : Exact c) (h : ∀ r, o = some r → Reads c r) :
    ∀ r, (readStep c o).1 = some r → Reads c r := by
  intro r hr
  cases o with
  | none =>
    obtain rfl := some.inj hr
    exact rfl
  | some now =>
    have hnow := h now rfl
    cases now with
    | counted n =>
      obtain rfl := some.inj hr
      exact ⟨hnow, exact_.counter, Nat.le_refl _, fun _ => rfl⟩
    | sampled n tA since =>
      obtain rfl := some.inj hr
      obtain ⟨count, sample, le, same⟩ := hnow
      refine ⟨count, sample, le, id, fun clear => ?_⟩
      rw [clear]
      exact same clear
    | flagged n tA since update => cases hr

/-- A caller that returns has counted the update that it saw in the flag, or in the two
samples of the counter. -/
theorem result_readStep (exact_ : Exact c) (clear : c.cleared = false)
    (h : ∀ r, o = some r → Reads c r) (short : Short c o) :
    ∀ r, (readStep c o).2 = some r → r.value = r.time % 2 ^ 48 ∧ r.time = c.elapsed := by
  intro r hr
  cases o with
  | none => cases hr
  | some now =>
    have hnow := h now rfl
    cases now with
    | counted n => cases hr
    | sampled n tA since => cases hr
    | flagged n tA since update =>
      obtain rfl := some.inj hr
      obtain ⟨rfl, sample, le, seen, unseen⟩ := hnow
      have short : c.elapsed < since + 65536 := short
      have hcounter := exact_.counter
      have hcount := exact_.count
      refine ⟨?_, rfl⟩
      have missed : (update || decide (c.counter < tA)) = c.updateFlag := by
        cases update with
        | true => rw [seen rfl, Bool.true_or]
        | false =>
          have hblock := unseen rfl
          cases hflag : c.updateFlag with
          | true =>
            rw [hflag] at hblock
            simp only [if_true] at hblock
            exact decide_eq_true (UInt16.lt_iff_toNat_lt.mpr (by omega))
          | false =>
            rw [hflag] at hblock
            simp only [Bool.false_eq_true, if_false] at hblock
            exact decide_eq_false (UInt16.lt_iff_toNat_lt.not.mpr (by omega))
      simp only [Result.value, missed]
      rw [clear] at hcount
      simp only [Bool.false_eq_true, if_false] at hcount
      have hsum : (c.updateCount + if c.updateFlag = true then 1 else 0).toNat =
          (c.updateCount.toNat + if c.updateFlag = true then 1 else 0) % 2 ^ 32 := by
        cases c.updateFlag <;> rfl
      omega

end Read

section Step

variable {c c' : Clock}

section

variable (h : Exact c)

include h

theorem Exact.read {o} (clear : c.cleared = false) (known : ∀ r, o = some r → Reads c r)
    (short : Short c o) :
    (∀ r ∈ (readStep c o).2.toList ++ c.results, r.value = r.time % 2 ^ 48 ∧ r.time ≤ c.elapsed) ∧
      ((readStep c o).2.toList ++ c.results).Pairwise fun newer older =>
        older.time ≤ newer.time := by
  have result := result_readStep h clear known short
  cases hr : (readStep c o).2 with
  | none => exact ⟨h.results, h.ordered⟩
  | some r =>
    obtain ⟨value, time⟩ := result r hr
    simp only [toList_some, singleton_append, mem_cons, forall_eq_or_imp]
    refine ⟨⟨⟨value, Nat.le_of_eq time⟩, h.results⟩, pairwise_cons.mpr ⟨?_, h.ordered⟩⟩
    exact fun old hold => time ▸ (h.results old hold).2

theorem counter_last_iff : c.counter = 0xffff ↔ c.elapsed % 65536 = 65535 := by
  rw [← h.counter]
  exact ⟨fun e => by rw [e]; rfl, fun e => UInt16.toNat_inj.mp e⟩

theorem updateFlag_tick :
    (tick c).updateFlag = (c.updateFlag || decide (c.elapsed % 65536 = 65535)) := by
  have last := counter_last_iff h
  by_cases hc : c.counter = 0xffff
  · simp [tick, hc, last.mp hc]
  · simp [tick, hc, last.not.mp hc]

theorem reads_tick (free : ¬(c.counter = 0xffff ∧ (c.updateFlag ∨ c.cleared))) {r}
    (hr : Reads c r) :
    Reads (tick c) r := by
  have flag := updateFlag_tick h
  have elapsed : (tick c).elapsed = c.elapsed + 1 := rfl
  have hfree : c.elapsed % 65536 = 65535 → c.updateFlag = false := by
    intro last
    by_contra hflag
    exact free ⟨(counter_last_iff h).mpr last, .inl (by simpa using hflag)⟩
  cases r with
  | counted n => exact hr
  | sampled n tA since =>
    obtain ⟨count, sample, le, same⟩ := hr
    refine ⟨count, sample, by omega, fun hclear => ?_⟩
    rw [flag, Bool.or_eq_false_iff, decide_eq_false_iff_not] at hclear
    have := same hclear.1
    omega
  | flagged n tA since update =>
    obtain ⟨count, sample, le, seen, unseen⟩ := hr
    refine ⟨count, sample, by omega, fun hu => by rw [flag, seen hu, Bool.true_or], fun hu => ?_⟩
    have hblock := unseen hu
    by_cases last : c.elapsed % 65536 = 65535
    · rw [hfree last] at hblock
      rw [flag, decide_eq_true last, Bool.or_true, if_pos rfl, elapsed]
      simp only [Bool.false_eq_true, if_false] at hblock
      omega
    · rw [flag, decide_eq_false last, Bool.or_false, elapsed]
      omega

theorem exact_tick (free : ¬(c.counter = 0xffff ∧ (c.updateFlag ∨ c.cleared))) :
    Exact (tick c) := by
  have hcounter := h.counter
  have hcount := h.count
  have hsum : (c.counter + 1).toNat = (c.counter.toNat + 1) % 2 ^ 16 := UInt16.toNat_add _ _
  have flag := updateFlag_tick h
  have last := counter_last_iff h
  have elapsed : (tick c).elapsed = c.elapsed + 1 := rfl
  constructor
  · change (c.counter + 1).toNat = (c.elapsed + 1) % 65536
    omega
  · change (c.updateCount.toNat + (if (tick c).updateFlag then 1 else 0) +
      if c.cleared then 1 else 0) % 2 ^ 32 = _
    by_cases hlast : c.elapsed % 65536 = 65535
    · have clear : ¬(c.updateFlag ∨ c.cleared) := fun busy => free ⟨last.mpr hlast, busy⟩
      simp only [not_or, Bool.not_eq_true] at clear
      rw [clear.1, clear.2] at hcount
      rw [flag, decide_eq_true hlast, Bool.or_true, clear.2, elapsed]
      simp only [Bool.false_eq_true, if_false, if_true] at hcount ⊢
      omega
    · rw [flag, decide_eq_false hlast, Bool.or_false, elapsed, hcount]
      omega
  · rintro ⟨hflag, hclear⟩
    rw [flag, Bool.or_eq_true, decide_eq_true_eq] at hflag
    rcases hflag with hflag | hlast
    · exact h.one ⟨hflag, hclear⟩
    · exact free ⟨last.mpr hlast, .inr hclear⟩
  · intro r hr
    obtain ⟨clear, reads⟩ := h.masked r hr
    exact ⟨clear, reads_tick h free reads⟩
  · intro r hr
    obtain ⟨clear, reads⟩ := h.charRx r hr
    exact ⟨clear, reads_tick h free reads⟩
  · exact fun r hr => ⟨(h.results r hr).1, Nat.le_succ_of_le (h.results r hr).2⟩
  · exact h.ordered

theorem exact_clearFlag (flag : c.updateFlag = true) (masked : c.masked = none)
    (charRx : c.charRx = none) : Exact { c with updateFlag := false, cleared := true } := by
  have hcount := h.count
  have clear : c.cleared = false := by
    by_contra hc
    exact h.one ⟨flag, by simpa using hc⟩
  rw [flag, clear] at hcount
  refine ⟨h.counter, hcount, fun both => absurd both.1 (by simp), ?_, ?_, h.results, h.ordered⟩
  · intro r hr
    rw [masked] at hr
    cases hr
  · intro r hr
    rw [charRx] at hr
    cases hr

theorem exact_softTimerUpdate (cleared : c.cleared = true) (charRx : c.charRx = none) :
    Exact { c with updateCount := c.updateCount + 1, cleared := false } := by
  have hcount := h.count
  have flag : c.updateFlag = false := by
    by_contra hf
    exact h.one ⟨by simpa using hf, cleared⟩
  have hsum : (c.updateCount + 1).toNat = (c.updateCount.toNat + 1) % 2 ^ 32 := UInt32.toNat_add _ _
  rw [flag, cleared] at hcount
  simp only [Bool.false_eq_true, if_false, if_true] at hcount
  refine ⟨h.counter, ?_, fun both => absurd both.2 (by simp), ?_, ?_, h.results, h.ordered⟩
  · rw [flag]
    simp only [Bool.false_eq_true, if_false, hsum]
    omega
  · intro r hr
    rw [(h.masked r hr).1] at cleared
    cases cleared
  · intro r hr
    rw [charRx] at hr
    cases hr

theorem exact_masked (clear : c.cleared = false) (charRx : c.charRx = none)
    (short : Short c c.masked) : Exact { c with
      masked := (readStep c c.masked).1
      results := (readStep c c.masked).2.toList ++ c.results } := by
  have known : ∀ r, c.masked = some r → Reads c r := fun r hr => (h.masked r hr).2
  obtain ⟨results, ordered⟩ := h.read clear known short
  refine ⟨h.counter, h.count, h.one, fun r hr => ⟨clear, ?_⟩, ?_, results, ordered⟩
  · exact (reads_readStep h known r hr).congr rfl rfl rfl
  · intro r hr
    rw [charRx] at hr
    cases hr

theorem exact_charRx (clear : c.cleared = false) (short : Short c c.charRx) : Exact { c with
      charRx := (readStep c c.charRx).1
      results := (readStep c c.charRx).2.toList ++ c.results } := by
  have known : ∀ r, c.charRx = some r → Reads c r := fun r hr => (h.charRx r hr).2
  obtain ⟨results, ordered⟩ := h.read clear known short
  refine ⟨h.counter, h.count, h.one, fun r hr => ?_, fun r hr => ⟨clear, ?_⟩, results, ordered⟩
  · exact ⟨clear, (h.masked r hr).2.congr rfl rfl rfl⟩
  · exact (reads_readStep h known r hr).congr rfl rfl rfl

theorem exact_step {a} (ok : Undisturbed c a) (hstep : step c a = some c') : Exact c' := by
  cases a with
  | tick =>
    obtain ⟨free, heq⟩ := ite_none_left_eq_some.mp hstep
    obtain rfl := some.inj heq
    exact exact_tick h free
  | clearFlag =>
    obtain ⟨⟨flag, -, masked, charRx⟩, heq⟩ := ite_none_right_eq_some.mp hstep
    obtain rfl := some.inj heq
    exact exact_clearFlag h flag masked charRx
  | softTimerUpdate =>
    obtain ⟨⟨cleared, charRx⟩, heq⟩ := ite_none_right_eq_some.mp hstep
    obtain rfl := some.inj heq
    exact exact_softTimerUpdate h cleared charRx
  | masked =>
    obtain ⟨⟨clear, charRx⟩, heq⟩ := ite_none_right_eq_some.mp hstep
    obtain rfl := some.inj heq
    exact exact_masked h (by simpa using clear) charRx ok
  | charRx =>
    cases hstep
    have clear : c.cleared = false := by
      cases hr : c.charRx with
      | none => exact ok.1 hr
      | some r => exact (h.charRx r hr).1
    exact exact_charRx h clear ok.2

end

end Step

theorem toNat_softTimerTime (r : Result) : (softTimerTime r).toNat = r.value % 2 ^ 32 := by
  rw [softTimerTime, UInt32.toNat_add, UInt32.toNat_shiftLeft, UInt16.toNat_toUInt32,
    Nat.shiftLeft_eq, Result.value]
  simp

theorem toNat_softTimerTime64 (r : Result) : (softTimerTime64 r).toNat = r.value := by
  have ht := r.time16.toNat_lt
  have hc := r.updateCount.toNat_lt
  rw [softTimerTime64, UInt64.toNat_add, UInt64.toNat_shiftLeft, UInt16.toNat_toUInt64,
    UInt32.toNat_toUInt64, Nat.shiftLeft_eq, Result.value]
  have : (16 : UInt64).toNat % 64 = 16 := rfl
  rw [this]
  omega

/-- A caller that is not interrupted and for which the counter does not advance returns
what `SoftTimer.softTimerTime` takes as one step. -/
theorem softTimerTime_atomic {τ : Type} (s : SoftTimer.SoftTim τ) (c : Clock)
    (count : c.updateCount = s.updateCount) (counter : c.counter = s.counter)
    (flag : c.updateFlag = s.updateFlag) (clear : c.cleared = false) (charRx : c.charRx = none)
    (idle : c.masked = none) :
    ∃ c' r, exec step c [.masked, .masked, .masked, .masked] = some c' ∧
      c'.results = r :: c.results ∧ softTimerTime r = SoftTimer.softTimerTime s := by
  refine ⟨{ c with results := ⟨c.updateCount + if c.updateFlag then 1 else 0, c.counter,
    c.elapsed⟩ :: c.results }, _, ?_, rfl, ?_⟩
  · simp [exec, step, readStep, clear, charRx, idle]
  · rw [softTimerTime, SoftTimer.softTimerTime, count, counter, flag]

theorem exact_softTimerConfig : Exact softTimerConfig := by
  refine ⟨rfl, rfl, by simp [softTimerConfig], ?_, ?_, ?_, List.Pairwise.nil⟩ <;>
    simp [softTimerConfig]

theorem exact_run {c} (run : Run step Undisturbed softTimerConfig c) : Exact c :=
  run.invariant Exact (fun _ _ _ h ok hstep => exact_step h ok hstep) exact_softTimerConfig

theorem Exact.times {c} (h : Exact c) {r} (hr : r ∈ c.results) :
    (softTimerTime r).toNat = r.time % 2 ^ 32 ∧ (softTimerTime64 r).toNat = r.time % 2 ^ 48 := by
  rw [toNat_softTimerTime, toNat_softTimerTime64, (h.results r hr).1]
  exact ⟨by omega, rfl⟩

/-- In every undisturbed run, what the callers return is the number of elapsed ticks at the
second sample, modulo 2^32 and 2^48, and the returned times do not decrease. -/
theorem time_exact {c : Clock} (run : Run step Undisturbed softTimerConfig c) :
    (∀ r ∈ c.results, (softTimerTime r).toNat = r.time % 2 ^ 32 ∧
      (softTimerTime64 r).toNat = r.time % 2 ^ 48) ∧
    c.results.Pairwise fun newer older => older.time ≤ newer.time ∧
      (newer.time < 2 ^ 48 → softTimerTime64 older ≤ softTimerTime64 newer) := by
  have exact_ := exact_run run
  refine ⟨fun r hr => exact_.times hr, ?_⟩
  refine exact_.ordered.imp_of_mem fun {newer older} hn ho le => ⟨le, fun small => ?_⟩
  rw [UInt64.le_iff_toNat_le, (exact_.times hn).2, (exact_.times ho).2]
  omega

instance (c : Clock) (o : Option Reading) : Decidable (Short c o) := by
  unfold Short
  split <;> infer_instance

instance (c : Clock) (a : Action) : Decidable (Undisturbed c a) := by
  unfold Undisturbed
  split <;> infer_instance

def afterTicks (n : Nat) : Clock :=
  { softTimerConfig with counter := UInt16.ofNat n, elapsed := n }

theorem run_afterTicks {n} (h : n < 65536) :
    Run step Undisturbed softTimerConfig (afterTicks n) := by
  induction n with
  | zero => exact .start
  | succ n ih =>
    refine .next .tick (ih (by omega)) trivial ?_
    have value : (UInt16.ofNat n).toNat = n := UInt16.toNat_ofNat_of_lt (Nat.lt_of_succ_lt h)
    have last : UInt16.ofNat n ≠ 0xffff := fun e => by
      rw [e] at value
      exact absurd value (Nat.ne_of_gt (Nat.lt_of_succ_lt_succ h))
    simp [step, tick, afterTicks, softTimerConfig, last, UInt16.ofNat_add]

theorem time_exact_over_wrap : ∃ c, Run step Undisturbed softTimerConfig c ∧
    c.results = [⟨1, 0, 65536⟩] ∧ (softTimerTime ⟨1, 0, 65536⟩).toNat = 65536 % 2 ^ 32 ∧
    (softTimerTime64 ⟨1, 0, 65536⟩).toNat = 65536 % 2 ^ 48 := by
  obtain ⟨c, run, h⟩ : ∃ c, Run step Undisturbed (afterTicks 65535) c ∧
      c.results = [⟨1, 0, 65536⟩] := by
    refine execIf_observe [.masked, .masked, .masked, .tick, .masked] _ _ ?_
    decide +kernel
  have run := (run_afterTicks (by decide)).trans run
  exact ⟨c, run, h, (time_exact run).1 _ (by rw [h]; exact mem_cons_self)⟩

/-- `char_rx` interrupts the timer interrupt between its two statements: after a task has
read 65535 it reads 0. -/
theorem time_decreases : ∃ c, Reach step softTimerConfig c ∧
    c.results = [⟨0, 0, 65536⟩, ⟨0, 65535, 65535⟩] ∧ softTimerTime ⟨0, 0, 65536⟩ = 0 ∧
    softTimerTime ⟨0, 65535, 65535⟩ = 65535 := by
  obtain ⟨c, run, h⟩ : ∃ c, Reach step (afterTicks 65535) c ∧
      c.results = [⟨0, 0, 65536⟩, ⟨0, 65535, 65535⟩] := by
    refine exec_observe (replicate 4 .masked ++ [.tick, .clearFlag] ++ replicate 4 .charRx) _ _ ?_
    decide +kernel
  exact ⟨c, (run_afterTicks (by decide)).reach.trans run, h, rfl, rfl⟩

end SoftTimerClock
