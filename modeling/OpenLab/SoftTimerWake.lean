import OpenLab.Schedules
import OpenLab.SoftTimer

/-!
# No lost wake-up

Whenever there is a timer to wait for and `process` neither runs nor is queued, the hardware must
run it in time. There is one assertion for each statement of `process`, which every interrupt,
tick and API call keeps.

When an API call removes the first timer, the one behind it is not scheduled; the wake-up of its
predecessor has to do.
-/

namespace SoftTimer

open Schedules WrapTime List

variable {τ : Type}

def matchTicks (s : SoftTim τ) : Nat := (s.compare - s.counter - 1).toNat + 1

def wrapTicks (s : SoftTim τ) : Nat :=
  65536 * (s.remainder - if s.updateFlag then 1 else 0) - s.counter.toNat

/-- The next match is not later than the alarm, or its interrupt is pending. -/
def MatchBy (s : SoftTim τ) (alarm : UInt32) : Prop :=
  s.compareFlag = true ∨ (matchTicks s : Int) ≤ ahead alarm (softTimerTime s)

/-- The wrap after `remainder` wraps is not later than the alarm, or its interrupt is
pending. -/
def WrapBy (s : SoftTim τ) (alarm : UInt32) : Prop :=
  s.updateFlag = true ∧ s.remainder = 1 ∨ (wrapTicks s : Int) ≤ ahead alarm (softTimerTime s)

/-- The hardware runs `process` not later than the alarm. -/
def Armed (s : SoftTim τ) (alarm : UInt32) : Prop :=
  s.alarmScheduled = true ∧ s.remainder = 0 ∧ MatchBy s alarm ∨ 0 < s.remainder ∧ WrapBy s alarm

/-- No `process` event is queued, `process` does not run, and no API call is under way. -/
def Quiet (s : SoftTim τ) : Prop := s.queued = 0 ∧ s.pc = .idle ∧ s.call = none

def Awake (s : SoftTim τ) : Prop :=
  ∀ first, s.list.head? = some first → Quiet s → Armed s (s.timers first).alarm

theorem toNat_softTimerTime (s : SoftTim τ) : (softTimerTime s).toNat =
    ((s.updateCount.toNat + if s.updateFlag then 1 else 0) * 65536 + s.counter.toNat) % 2 ^ 32 := by
  have one : (if s.updateFlag then (1 : UInt32) else 0).toNat = if s.updateFlag then 1 else 0 := by
    split <;> rfl
  have flag : (if s.updateFlag then 1 else 0) ≤ 1 := by split <;> omega
  rw [softTimerTime, UInt32.toNat_add, UInt32.toNat_shiftLeft, UInt32.toNat_add, one,
    UInt16.toNat_toUInt32, Nat.shiftLeft_eq]
  generalize (if s.updateFlag then 1 else 0) = k at flag
  have shift : (16 : UInt32).toNat % 32 = 16 := rfl
  rw [shift]
  omega

theorem toNat_counter_tick (s : SoftTim τ) : (tick s).counter.toNat =
    if s.counter = 0xffff then 0 else s.counter.toNat + 1 := by
  have hc := s.counter.toNat_lt
  have hsum : (tick s).counter.toNat = (s.counter.toNat + 1) % 65536 := UInt16.toNat_add _ _
  split
  · next last => rw [hsum, last]; rfl
  · next last =>
    have : s.counter.toNat ≠ 65535 := fun h => last (UInt16.toNat_inj.mp h)
    omega

theorem updateFlag_tick (s : SoftTim τ) : (tick s).updateFlag =
    if s.counter = 0xffff then true else s.updateFlag := by
  have zero : s.counter + 1 = 0 ↔ s.counter = 0xffff := by
    constructor
    · intro h
      have hsum := toNat_counter_tick s
      have : (tick s).counter.toNat = 0 := congrArg UInt16.toNat h
      by_contra last
      rw [if_neg last] at hsum
      omega
    · intro h
      rw [h]
      rfl
  change (s.updateFlag || s.counter + 1 == 0) = _
  split
  · next last => simp [last]
  · next last =>
    have : (s.counter + 1 == 0) = false := by simpa [zero] using last
    rw [this, Bool.or_false]

/-- The update interrupt is served before the counter wraps around again. -/
def Served (s : SoftTim τ) : Prop := ¬(s.updateFlag = true ∧ s.counter = 0xffff)

variable {s : SoftTim τ} {a : UInt32}

theorem softTimerTime_tick (served : Served s) : softTimerTime (tick s) = softTimerTime s + 1 := by
  have hnow := toNat_softTimerTime s
  have hnext := toNat_softTimerTime (tick s)
  have hone : (softTimerTime s + 1).toNat = ((softTimerTime s).toNat + 1) % 2 ^ 32 :=
    UInt32.toNat_add _ _
  have hcount : (tick s).updateCount = s.updateCount := rfl
  rw [toNat_counter_tick, updateFlag_tick, hcount] at hnext
  apply UInt32.toNat_inj.mp
  by_cases last : s.counter = 0xffff
  · have flag : s.updateFlag = false := by
      by_contra h
      exact served ⟨by simpa using h, last⟩
    simp only [last, flag, if_true] at hnext hnow
    rw [hone, hnext, hnow]
    simp
    omega
  · simp only [last, if_false] at hnext
    omega

theorem matchBy_tick (served : Served s) (h : MatchBy s a) : MatchBy (tick s) a := by
  by_cases flag : (tick s).compareFlag = true
  · exact .inl flag
  · have hflag : s.compareFlag = false ∧ s.counter + 1 ≠ s.compare := by
      simpa [tick] using flag
    have hle : (matchTicks s : Int) ≤ ahead a (softTimerTime s) :=
      h.resolve_left (by simp [hflag.1])
    -- The match is not the next tick, so it is one tick closer.
    have closer : matchTicks (tick s) + 1 = matchTicks s := by
      have hd : (s.compare - s.counter - 1).toNat ≠ 0 := fun h0 => by
        have : s.compare - s.counter - 1 = 0 := UInt16.toNat_inj.mp h0
        exact hflag.2 (by grind)
      have hstep : s.compare - (s.counter + 1) - 1 = s.compare - s.counter - 1 - 1 := by grind
      have hlt := (s.compare - s.counter - 1).toNat_lt
      have hsub : (s.compare - s.counter - 1 - 1).toNat =
          (2 ^ 16 - 1 + (s.compare - s.counter - 1).toNat) % 2 ^ 16 := UInt16.toNat_sub _ _
      change (s.compare - (s.counter + 1) - 1).toNat + 1 + 1 = (s.compare - s.counter - 1).toNat + 1
      rw [hstep, hsub]
      omega
    right
    rw [softTimerTime_tick served, ahead_tick (by omega)]
    omega

theorem wrapBy_tick (served : Served s) (some : 0 < s.remainder) (h : WrapBy s a) :
    WrapBy (tick s) a := by
  have hcounter := toNat_counter_tick s
  have hflag := updateFlag_tick s
  have hc := s.counter.toNat_lt
  have hrem : (tick s).remainder = s.remainder := rfl
  by_cases pending : s.updateFlag = true ∧ s.remainder = 1
  · left
    refine ⟨?_, pending.2⟩
    rw [hflag, pending.1]
    split <;> rfl
  · have hle := h.resolve_left pending
    by_cases last : s.counter = 0xffff
    · have flag : s.updateFlag = false := by
        by_contra hu
        exact served ⟨by simpa using hu, last⟩
      have hfull : s.counter.toNat = 65535 := by rw [last]; rfl
      rw [if_pos last] at hcounter hflag
      by_cases one : s.remainder = 1
      · exact .inl ⟨hflag, one⟩
      · right
        have hwrap : wrapTicks (tick s) = 65536 * (s.remainder - 1) := by
          rw [wrapTicks, hflag, hcounter, hrem]
          rfl
        have hold : wrapTicks s = 65536 * s.remainder - 65535 := by
          rw [wrapTicks, flag, hfull]
          rfl
        rw [softTimerTime_tick served, ahead_tick (by omega), hwrap]
        omega
    · rw [if_neg last] at hcounter hflag
      right
      have hwrap : wrapTicks (tick s) = wrapTicks s - 1 := by
        rw [wrapTicks, wrapTicks, hflag, hcounter, hrem]
        omega
      have hpos : 0 < wrapTicks s := by
        have hlow : 1 ≤ s.remainder - if s.updateFlag then 1 else 0 := by
          split
          · next hu =>
            have : s.remainder ≠ 1 := fun one => pending ⟨hu, one⟩
            omega
          · omega
        rw [wrapTicks]
        omega
      rw [softTimerTime_tick served, ahead_tick (by omega), hwrap]
      omega

theorem armed_tick (served : Served s) (h : Armed s a) : Armed (tick s) a := by
  rcases h with ⟨scheduled, zero, match_⟩ | ⟨some, wrap⟩
  · exact .inl ⟨scheduled, zero, matchBy_tick served match_⟩
  · exact .inr ⟨some, wrapBy_tick served some wrap⟩

/-- What is known at each statement of `process`. Between its runs every flag that was
raised stands for a queued event, and the first timer is waited for; while an API call
has changed the list, that is owed only if the call does not require `process`. -/
def Assertion (s : SoftTim τ) : Prop :=
  match s.pc with
  | .idle => (s.processPosted = true ∨ s.call = some .flag → 0 < s.queued) ∧
      (s.queued = 0 → s.call = none ∨ s.call = some (.test false) →
        ∀ first, s.list.head? = some first → Armed s (s.timers first).alarm)
  | .entered => True
  | .clearScheduled | .clearProcess => s.call = none ∧ (s.alarmPosted = true → 0 < s.queued)
  | .loop | .schedule => s.call = none ∧
      (s.alarmPosted = true ∨ s.processPosted = true → 0 < s.queued)
  | .testRemainder => s.call = none ∧
      (s.alarmPosted = true ∨ s.processPosted = true → 0 < s.queued) ∧
      (s.queued = 0 → 0 < s.remainder →
        ∀ first, s.list.head? = some first → WrapBy s (s.timers first).alarm)
  | .setCompare => s.call = none ∧
      (s.alarmPosted = true ∨ s.processPosted = true → 0 < s.queued) ∧ s.remainder = 0
  | .setScheduled => s.call = none ∧
      (s.alarmPosted = true ∨ s.processPosted = true → 0 < s.queued) ∧ s.remainder = 0 ∧
      ∀ first, s.list.head? = some first → s.compare = (s.timers first).alarm.toUInt16
  | .checkLate | .checkPosted => s.call = none ∧
      (s.alarmPosted = true ∨ s.processPosted = true → 0 < s.queued) ∧ s.remainder = 0 ∧
      s.alarmScheduled = true ∧
      ∀ first, s.list.head? = some first → s.compare = (s.timers first).alarm.toUInt16

structure Wakes (s : SoftTim τ) : Prop where
  nodup : s.list.Nodup
  assertion : Assertion s

theorem Wakes.awake (h : Wakes s) : Awake s := by
  rintro first hfirst ⟨queued, pc, call⟩
  have ha := h.assertion
  simp only [Assertion, pc] at ha
  exact ha.2 queued (.inl call) first hfirst

/-- A step of the hardware: it leaves the list and the tasks alone, and keeps every
wake-up unless it queues `process`. -/
structure Hardware (s s' : SoftTim τ) : Prop where
  timers : s'.timers = s.timers
  list : s'.list = s.list
  pc : s'.pc = s.pc
  call : s'.call = s.call
  compare : s'.compare = s.compare
  scheduled : s'.alarmScheduled = s.alarmScheduled
  zero : s.remainder = 0 → s'.remainder = 0
  flags : s'.queued = s.queued ∧ s'.alarmPosted = s.alarmPosted ∧
    s'.processPosted = s.processPosted ∧ (0 < s'.remainder → 0 < s.remainder) ∧
    (∀ a, Armed s a → Armed s' a) ∧ (∀ a, 0 < s.remainder → WrapBy s a → WrapBy s' a) ∨
    0 < s'.queued

variable {s' : SoftTim τ}

theorem Hardware.wakes (hw : Hardware s s') (h : Wakes s) : Wakes s' := by
  refine ⟨hw.list ▸ h.nodup, ?_⟩
  have ha := h.assertion
  rcases hw.flags with ⟨queued, alarm, process, rem, armed, wrap⟩ | queued
  · unfold Assertion at ha ⊢
    rw [hw.pc, hw.call, hw.list, hw.timers, hw.compare, hw.scheduled, queued, alarm, process]
    split at ha
    · exact ⟨ha.1, fun hq hc first hf => armed _ (ha.2 hq hc first hf)⟩
    · exact ha
    · exact ha
    · exact ha
    · exact ha
    · exact ha
    · exact ⟨ha.1, ha.2.1, fun hq hr first hf => wrap _ (rem hr) (ha.2.2 hq (rem hr) first hf)⟩
    · exact ⟨ha.1, ha.2.1, hw.zero ha.2.2⟩
    · exact ⟨ha.1, ha.2.1, hw.zero ha.2.2.1, ha.2.2.2⟩
    · exact ⟨ha.1, ha.2.1, hw.zero ha.2.2.1, ha.2.2.2⟩
    · exact ⟨ha.1, ha.2.1, hw.zero ha.2.2.1, ha.2.2.2⟩
  · -- Everything that was owed in case of an empty queue is void.
    have void : s'.queued ≠ 0 := Nat.pos_iff_ne_zero.mp queued
    unfold Assertion at ha ⊢
    rw [hw.pc, hw.call, hw.list, hw.timers, hw.compare, hw.scheduled]
    split at ha
    · exact ⟨fun _ => queued, fun hq => absurd hq void⟩
    · exact ha
    · exact ⟨ha.1, fun _ => queued⟩
    · exact ⟨ha.1, fun _ => queued⟩
    · exact ⟨ha.1, fun _ => queued⟩
    · exact ⟨ha.1, fun _ => queued⟩
    · exact ⟨ha.1, fun _ => queued, fun hq => absurd hq void⟩
    · exact ⟨ha.1, fun _ => queued, hw.zero ha.2.2⟩
    · exact ⟨ha.1, fun _ => queued, hw.zero ha.2.2.1, ha.2.2.2⟩
    · exact ⟨ha.1, fun _ => queued, hw.zero ha.2.2.1, ha.2.2.2⟩
    · exact ⟨ha.1, fun _ => queued, hw.zero ha.2.2.1, ha.2.2.2⟩

theorem hardware_tick (served : Served s) : Hardware s (tick s) := by
  constructor
  · rfl
  · rfl
  · rfl
  · rfl
  · rfl
  · rfl
  · exact id
  · left
    exact ⟨rfl, rfl, rfl, id, fun _ => armed_tick served, fun _ => wrapBy_tick served⟩

theorem hardware_timerAlarm (s : SoftTim τ) : Hardware s (timerAlarm s) := by
  unfold timerAlarm
  by_cases scheduled : s.alarmScheduled = true
  · simp only [scheduled, Bool.not_true, Bool.false_eq_true, if_false]
    exact ⟨rfl, rfl, rfl, rfl, rfl, scheduled.symm, id, .inr (Nat.succ_pos _)⟩
  · -- Only a remainder can be waited for here, and the compare flag is nothing to it.
    have off : s.alarmScheduled = false := by simpa using scheduled
    simp only [off, Bool.not_false, if_true]
    refine ⟨rfl, rfl, rfl, rfl, rfl, off.symm, id, .inl ⟨rfl, rfl, rfl, id, fun a armed => ?_, ?_⟩⟩
    · rcases armed with ⟨on, -⟩ | wrap
      · exact absurd on scheduled
      · exact .inr wrap
    · exact fun _ _ wrap => wrap

theorem softTimerTime_update (flag : s.updateFlag = true) :
    softTimerTime (softTimerUpdate s) = softTimerTime s := by
  have same : ∀ s' : SoftTim τ, s'.updateFlag = false → s'.updateCount = s.updateCount + 1 →
      s'.counter = s.counter → softTimerTime s' = softTimerTime s := by
    intro s' hflag hcount hcounter
    rw [softTimerTime, softTimerTime, hflag, hcount, hcounter, flag]
    simp
  unfold softTimerUpdate
  dsimp only
  split <;> exact same _ rfl rfl rfl

theorem hardware_softTimerUpdate (flag : s.updateFlag = true) : Hardware s (softTimerUpdate s) := by
  have time := softTimerTime_update flag
  unfold softTimerUpdate at time ⊢
  by_cases last : s.remainder - 1 = 0
  · simp only [last, if_true] at time ⊢
    exact ⟨rfl, rfl, rfl, rfl, rfl, rfl, fun _ => rfl, .inr (Nat.succ_pos _)⟩
  · simp only [last, if_false] at time ⊢
    have wrap : ∀ a, WrapBy s a → WrapBy { s with
        updateFlag := false
        updateCount := s.updateCount + 1
        remainder := s.remainder - 1 } a := by
      rintro a (⟨-, one⟩ | wrap)
      · exact absurd (by rw [one]) last
      · right
        rw [time]
        -- One wrap less to wait for, and one that is no longer pending.
        simpa [wrapTicks, flag] using wrap
    refine ⟨rfl, rfl, rfl, rfl, rfl, rfl, fun zero => ?_, .inl ⟨rfl, rfl, rfl, fun _ => ?_, ?_, ?_⟩⟩
    · omega
    · omega
    · rintro a (⟨-, zero, -⟩ | ⟨-, by_⟩)
      · omega
      · exact .inr ⟨by dsimp only; omega, wrap a by_⟩
    · exact fun a _ => wrap a

variable [DecidableEq τ]

def restarted (s : SoftTim τ) : Action τ → Option (τ × UInt32)
  | .start timer ticks periodic lag =>
    if ticks = 0 ∧ periodic then none else some (timer, startAlarm s ticks lag)
  | .startAt timer alarmTime => some (timer, alarmTime)
  | .reset timer => some (timer, resetAlarm s timer)
  | _ => none

/-- If the first timer is restarted behind the second one while nothing runs `process`,
then the second one is not due before the first one was. -/
def HeadKept (s : SoftTim τ) (a : Action τ) : Prop :=
  match restarted s a, s.list with
  | some (timer, alarm), first :: second :: _ => first = timer → Quiet s →
      softTimerAIsBeforeB (s.timers second).alarm alarm = true →
        ahead (s.timers first).alarm (softTimerTime s) ≤
          ahead (s.timers second).alarm (softTimerTime s)
  | _, _ => True

instance (s : SoftTim τ) : Decidable (Quiet s) := inferInstanceAs (Decidable (_ ∧ _ ∧ _))

instance (s : SoftTim τ) (a : Action τ) : Decidable (HeadKept s a) := by
  unfold HeadKept
  split <;> infer_instance

omit [DecidableEq τ] in
theorem armed_mono {b} (armed : Armed s a)
    (later : ahead a (softTimerTime s) ≤ ahead b (softTimerTime s)) : Armed s b := by
  rcases armed with ⟨on, zero, match_⟩ | ⟨some, wrap⟩
  · exact .inl ⟨on, zero, match_.imp_right fun h => Int.le_trans h later⟩
  · exact .inr ⟨some, wrap.imp_right fun h => Int.le_trans h later⟩

omit [DecidableEq τ] in
theorem mutexFree_iff (h : mutexFree s = true) :
    s.call = none ∧ (s.pc = .idle ∨ s.pc = .entered) := by
  simpa [mutexFree] using h

omit [DecidableEq τ] in
/-- An API call that changes the list keeps the assertions if it owes nothing: it
requires `process`, or the timer that is first now is waited for. -/
theorem wakes_call (h : Wakes s) (free : mutexFree s = true) (nodup : s'.list.Nodup)
    (required : Bool) (call : s'.call = some (.test required)) (pc : s'.pc = s.pc)
    (queued : s'.queued = s.queued) (posted : s'.processPosted = s.processPosted)
    (owed : required = false → Quiet s →
      ∀ first, s'.list.head? = some first → Armed s' (s'.timers first).alarm) : Wakes s' := by
  refine ⟨nodup, ?_⟩
  obtain ⟨none, idle | entered⟩ := mutexFree_iff free
  · have ha := h.assertion
    simp only [Assertion, idle] at ha
    simp only [Assertion, pc, idle, call, queued, posted]
    refine ⟨?_, fun hq hcall first hf => ?_⟩
    · rintro (hp | hflag)
      · exact ha.1 (.inl hp)
      · cases hflag
    · rcases hcall with hcall | hcall
      · cases hcall
      · exact owed (by simpa using hcall) ⟨hq, idle, none⟩ first hf
  · simp [Assertion, pc, entered]

theorem nodup_insert_remove {l} (nodup : l.Nodup) (timers : τ → Timer) (timer : τ) :
    (insert timers timer (remove timer l).2).2.Nodup := by
  rw [(insert_perm timers timer _).nodup_iff, remove_eq, nodup_cons]
  exact ⟨fun mem => nodup.not_mem_erase mem, nodup.erase timer⟩

variable {alarm : UInt32}

/-- The first timer after a restart that requires no `process`: it was first before, or
second behind the restarted one. -/
theorem replace_kept {timer first} {period} {life} (nodup : s.list.Nodup)
    (kept : (insert (replace s timer alarm period life).timers timer
      (remove timer s.list).2).1 = false)
    (hfirst : (replace s timer alarm period life).list.head? = some first) :
    ((replace s timer alarm period life).timers first = s.timers first) ∧
      (s.list.head? = some first ∨
        ∃ rest, s.list = timer :: first :: rest ∧
          softTimerAIsBeforeB (s.timers first).alarm alarm = true) := by
  obtain ⟨x, rest, hrest, hx, before⟩ := insert_kept kept
  obtain rfl : x = first := Option.some.inj (hx.symm.trans hfirst)
  have mem : x ∈ s.list.erase timer := by
    rw [← remove_eq, hrest]
    exact mem_cons_self
  have ne : x ≠ timer := fun h => nodup.not_mem_erase (h ▸ mem)
  have same : (replace s timer alarm period life).timers x = s.timers x :=
    Function.update_of_ne ne _ _
  have new : ((replace s timer alarm period life).timers timer).alarm = alarm := by
    simp [replace]
  rw [same, new] at before
  refine ⟨same, ?_⟩
  cases hlist : s.list with
  | nil =>
    rw [hlist] at mem
    cases mem
  | cons y ys =>
    rw [hlist, remove] at hrest
    by_cases hy : y = timer
    · rw [if_pos hy] at hrest
      exact .inr ⟨rest, by rw [hy, show ys = x :: rest from hrest], before⟩
    · rw [if_neg hy] at hrest
      obtain ⟨rfl, -⟩ := cons.inj hrest
      exact .inl rfl

theorem wakes_replace {timer} {period} {life} (h : Wakes s)
    (free : mutexFree s = true) (kept : ∀ second rest, s.list = timer :: second :: rest → Quiet s →
      softTimerAIsBeforeB (s.timers second).alarm alarm = true →
        ahead (s.timers timer).alarm (softTimerTime s) ≤
          ahead (s.timers second).alarm (softTimerTime s)) :
    Wakes (replace s timer alarm period life) := by
  refine wakes_call h free (nodup_insert_remove h.nodup _ _) _ rfl rfl rfl rfl ?_
  intro required quiet first hfirst
  obtain ⟨same, hhead | ⟨rest, hlist, before⟩⟩ := replace_kept h.nodup required hfirst
  · rw [same]
    exact h.awake first hhead quiet
  · rw [same]
    have armed : Armed s (s.timers timer).alarm := h.awake timer (by rw [hlist]; rfl) quiet
    exact armed_mono armed (kept first rest hlist quiet before)

theorem wakes_stop (h : Wakes s) (free : mutexFree s = true) (timer : τ) :
    Wakes (softTimerStop s timer) := by
  refine wakes_call h free ?_ _ rfl rfl rfl rfl fun required quiet first hfirst => ?_
  · change (remove timer s.list).2.Nodup
    rw [remove_eq]
    exact h.nodup.erase timer
  · -- A `remove` that requires no `process` does not touch the first timer.
    change (remove timer s.list).2.head? = some first at hfirst
    cases hlist : s.list with
    | nil =>
      rw [hlist] at hfirst
      cases hfirst
    | cons y ys =>
      rw [hlist, remove] at required hfirst
      by_cases hy : y = timer
      · rw [if_pos hy] at required
        cases required
      · rw [if_neg hy] at hfirst
        exact h.awake first (by rw [hlist]; exact hfirst) quiet

omit [DecidableEq τ] in
theorem callStep_frame (s : SoftTim τ) (call : Call) :
    (callStep s call).pc = s.pc ∧ (callStep s call).list = s.list := by
  cases call with
  | test required =>
    rw [callStep]
    split <;> exact ⟨rfl, rfl⟩
  | post | flag => exact ⟨rfl, rfl⟩

omit [DecidableEq τ] in
theorem wakes_callStep {call} (h : Wakes s) (pending : s.call = some call) :
    Wakes (callStep s call) := by
  obtain ⟨samePc, sameList⟩ := callStep_frame s call
  refine ⟨sameList ▸ h.nodup, ?_⟩
  have ha := h.assertion
  have hpc : s.pc = .idle ∨ s.pc = .entered := by
    unfold Assertion at ha
    split at ha
    · next hpc => exact .inl hpc
    · next hpc => exact .inr hpc
    all_goals exact absurd (ha.1.symm.trans pending) (by simp)
  rcases hpc with idle | entered
  · simp only [Assertion, idle, pending] at ha
    obtain ⟨raised, owed⟩ := ha
    cases call with
    | test required =>
      rw [callStep]
      by_cases post : (required && !s.processPosted) = true
      · rw [if_pos post]
        simp only [Assertion, idle]
        refine ⟨?_, fun _ hcall => ?_⟩
        · rintro (hp | hflag)
          · exact raised (.inl hp)
          · cases hflag
        · rcases hcall with hcall | hcall
          · cases hcall
          · cases hcall
      · rw [if_neg post]
        simp only [Assertion, idle]
        refine ⟨?_, fun hq _ => ?_⟩
        · rintro (hp | hflag)
          · exact raised (.inl hp)
          · cases hflag
        · cases required with
          | false => exact owed hq (.inr rfl)
          | true =>
            -- The event that the flag stands for is queued.
            have hp : s.processPosted = true := by simpa using post
            have := raised (.inl hp)
            omega
    | post =>
      simp only [Assertion, callStep, idle]
      exact ⟨fun _ => Nat.succ_pos _, fun hq => absurd hq (Nat.succ_ne_zero _)⟩
    | flag =>
      have queued := raised (.inr rfl)
      simp only [Assertion, callStep, idle]
      exact ⟨fun _ => queued, fun hq => absurd hq (Nat.pos_iff_ne_zero.mp queued)⟩
  · simp [Assertion, samePc, entered]

omit [DecidableEq τ] in
theorem wrapBy_schedule (time : softTimerTime s' = softTimerTime s)
    (remainder : s'.remainder = if 0 < ahead a (softTimerTime s) then
      (ahead a (softTimerTime s)).toNat >>> 16 else 0) (some : 0 < s'.remainder) : WrapBy s' a := by
  right
  have hle : wrapTicks s' ≤ 65536 * s'.remainder := by
    rw [wrapTicks]
    omega
  rw [time]
  by_cases pos : 0 < ahead a (softTimerTime s)
  · rw [if_pos pos, Nat.shiftRight_eq_div_pow] at remainder
    omega
  · rw [if_neg pos] at remainder
    omega

omit [DecidableEq τ] in
theorem matchBy_compare (compare : s.compare = a.toUInt16)
    (future : 1 ≤ ahead a (softTimerTime s)) : MatchBy s a := by
  right
  obtain ⟨-, -, q, hq⟩ := ahead_spec a (softTimerTime s)
  have htime := toNat_softTimerTime s
  have hcounter := s.counter.toNat_lt
  have hcmp : s.compare.toNat = a.toNat % 65536 := by
    rw [compare]
    exact UInt32.toNat_toUInt16 a
  have hsub : (s.compare - s.counter - 1).toNat =
      (65536 - 1 + (65536 - s.counter.toNat + s.compare.toNat) % 65536) % 65536 := by
    rfl
  rw [matchTicks, hsub]
  -- Both sides are what is missing to the alarm modulo the period of the counter.
  omega

theorem expire_frame (s : SoftTim τ) (x : τ) (rest : List τ) :
    (expire s x rest).pc = s.pc ∧ (expire s x rest).call = s.call ∧
      (expire s x rest).queued = s.queued ∧ (expire s x rest).alarmPosted = s.alarmPosted ∧
      (expire s x rest).processPosted = s.processPosted := by
  unfold expire logPost
  dsimp only
  split
  · split
    · exact ⟨rfl, rfl, rfl, rfl, rfl⟩
    · exact ⟨rfl, rfl, rfl, rfl, rfl⟩
  · split
    · exact ⟨rfl, rfl, rfl, rfl, rfl⟩
    · exact ⟨rfl, rfl, rfl, rfl, rfl⟩

theorem expire_list (s : SoftTim τ) (x : τ) (rest : List τ) :
    (expire s x rest).list = if (s.timers x).period &&& softTimerPeriodic ≠ 0 then
      (insert (expire s x rest).timers x rest).2 else rest := by
  unfold expire logPost
  by_cases periodic : (s.timers x).period &&& softTimerPeriodic ≠ 0
  · simp only [if_pos periodic]
    split <;> rfl
  · simp only [if_neg periodic]
    split <;> rfl

theorem nodup_expire {x} {rest} (nodup : (x :: rest).Nodup) :
    (expire s x rest).list.Nodup := by
  rw [expire_list]
  split
  · exact (insert_perm _ _ _).nodup_iff.mpr nodup
  · exact (nodup_cons.mp nodup).2

omit [DecidableEq τ] in
theorem wakes_scheduleStep {first} {rest} (h : Wakes s)
    (hlist : s.list = first :: rest) : Wakes (scheduleStep s first) := by
  have ha := h.assertion
  have hhead : ∀ x, s.list.head? = some x → x = first := fun x hx => by
    rw [hlist] at hx
    exact (Option.some.inj hx).symm
  unfold scheduleStep
  cases hpc : s.pc with
  | schedule =>
    simp only [Assertion, hpc] at ha
    refine ⟨h.nodup, ha.1, ha.2, fun _ some x hx => ?_⟩
    obtain rfl := hhead x hx
    exact wrapBy_schedule rfl rfl some
  | testRemainder =>
    simp only [Assertion, hpc] at ha
    obtain ⟨call, raised, wrap⟩ := ha
    by_cases zero : s.remainder = 0
    · rw [if_pos zero]
      exact ⟨h.nodup, call, raised, zero⟩
    · rw [if_neg zero]
      refine ⟨h.nodup, ?_, fun hq _ x hx => ?_⟩
      · rintro (hp | hflag)
        · exact raised (.inr hp)
        · rw [call] at hflag
          cases hflag
      · exact .inr ⟨Nat.pos_of_ne_zero zero, wrap hq (Nat.pos_of_ne_zero zero) x hx⟩
  | setCompare =>
    simp only [Assertion, hpc] at ha
    refine ⟨h.nodup, ha.1, ha.2.1, ha.2.2, fun x hx => ?_⟩
    obtain rfl := hhead x hx
    rfl
  | setScheduled =>
    simp only [Assertion, hpc] at ha
    exact ⟨h.nodup, ha.1, ha.2.1, ha.2.2.1, rfl, ha.2.2.2⟩
  | checkLate =>
    simp only [Assertion, hpc] at ha
    obtain ⟨call, raised, zero, on, compare⟩ := ha
    dsimp only
    by_cases late : ahead (s.timers first).alarm (softTimerTime s) < 1
    · rw [if_pos late]
      exact ⟨h.nodup, call, raised, zero, on, compare⟩
    · rw [if_neg late]
      refine ⟨h.nodup, ?_, fun _ _ x hx => ?_⟩
      · rintro (hp | hflag)
        · exact raised (.inr hp)
        · rw [call] at hflag
          cases hflag
      · obtain rfl := hhead x hx
        exact .inl ⟨on, zero, matchBy_compare (compare x hx) (Int.not_lt.mp late)⟩
  | checkPosted =>
    simp only [Assertion, hpc] at ha
    obtain ⟨call, raised, -⟩ := ha
    by_cases posted : s.alarmPosted = true
    · rw [if_pos posted]
      have queued := raised (.inl posted)
      exact ⟨h.nodup, fun _ => queued, fun hq => absurd hq (Nat.pos_iff_ne_zero.mp queued)⟩
    · rw [if_neg posted]
      exact ⟨h.nodup, fun _ => Nat.succ_pos _, fun hq => absurd hq (Nat.succ_ne_zero _)⟩
  | _ => exact h

theorem wakes_processStep (h : Wakes s) (hstep : processStep s = some s') : Wakes s' := by
  have ha := h.assertion
  unfold processStep at hstep
  split at hstep
  · split at hstep
    · cases hstep
    · cases hstep
      exact ⟨h.nodup, trivial⟩
  · next entered =>
    split at hstep
    · next call =>
      cases hstep
      exact ⟨h.nodup, call, fun hp => by cases hp⟩
    · cases hstep
  · next hpc =>
    cases hstep
    simp only [Assertion, hpc] at ha
    exact ⟨h.nodup, ha.1, ha.2⟩
  · next hpc =>
    cases hstep
    simp only [Assertion, hpc] at ha
    refine ⟨h.nodup, ha.1, ?_⟩
    rintro (hp | hp)
    · exact ha.2 hp
    · cases hp
  · next hpc =>
    simp only [Assertion, hpc] at ha
    split at hstep
    · next hlist =>
      cases hstep
      refine ⟨h.nodup, ?_, fun _ _ first hf => ?_⟩
      · rintro (hp | hflag)
        · exact ha.2 (.inr hp)
        · exact absurd (ha.1.symm.trans hflag) (by simp)
      · rw [hlist] at hf
        cases hf
    · next x rest hlist =>
      split at hstep
      · cases hstep
        obtain ⟨pc, call, queued, alarm, process⟩ := expire_frame s x rest
        refine ⟨nodup_expire (hlist ▸ h.nodup), ?_⟩
        simp only [Assertion, pc, hpc, call, queued, alarm, process]
        exact ha
      · cases hstep
        exact ⟨h.nodup, ha⟩
  · split at hstep
    · cases hstep
    · next first rest hlist =>
      cases hstep
      exact wakes_scheduleStep h hlist

omit [DecidableEq τ] in
theorem headKept_second {a} {timer} (kept : HeadKept s a)
    (restart : restarted s a = some (timer, alarm)) :
    ∀ second rest, s.list = timer :: second :: rest → Quiet s →
      softTimerAIsBeforeB (s.timers second).alarm alarm = true →
        ahead (s.timers timer).alarm (softTimerTime s) ≤
          ahead (s.timers second).alarm (softTimerTime s) := by
  intro second rest hlist
  simp only [HeadKept, restart, hlist] at kept
  exact kept trivial

theorem wakes_step {a} (h : Wakes s) (kept : HeadKept s a) (hstep : step s a = some s') :
    Wakes s' := by
  cases a with
  | start timer ticks periodic lag =>
    simp only [step] at hstep
    split at hstep
    · next free =>
      cases hstep
      unfold softTimerStart
      split
      · exact h
      · next real => exact wakes_replace h free (headKept_second kept (if_neg real))
    · cases hstep
  | startAt timer alarmTime | reset timer =>
    simp only [step] at hstep
    split at hstep
    · next free =>
      cases hstep
      exact wakes_replace h free (headKept_second kept rfl)
    · cases hstep
  | stop timer =>
    simp only [step] at hstep
    split at hstep
    · next free =>
      cases hstep
      exact wakes_stop h free timer
    · cases hstep
  | call =>
    obtain ⟨call, pending, rfl⟩ := Option.map_eq_some_iff.mp hstep
    exact wakes_callStep h pending
  | process => exact wakes_processStep h hstep
  | timerAlarm =>
    simp only [step] at hstep
    split at hstep
    · cases hstep
      exact (hardware_timerAlarm s).wakes h
    · cases hstep
  | softTimerUpdate =>
    simp only [step] at hstep
    split at hstep
    · next flag =>
      cases hstep
      exact (hardware_softTimerUpdate flag).wakes h
    · cases hstep
  | tick =>
    simp only [step] at hstep
    split at hstep
    · cases hstep
    · next served =>
      cases hstep
      exact (hardware_tick (by simpa [Served] using served)).wakes h

omit [DecidableEq τ] in
theorem wakes_init (timers : τ → Timer) (updateCount : UInt32) (counter : UInt16) :
    Wakes (softTimerInit timers updateCount counter) := by
  refine ⟨nodup_nil, ?_, fun _ _ first hf => ?_⟩
  · rintro (hp | hflag)
    · cases hp
    · cases hflag
  · cases hf

/-- In every run in which no restart of the first timer leaves an earlier one first, no
wake-up is lost. -/
theorem wake_up_kept {timers : τ → Timer} {updateCount : UInt32} {counter : UInt16} {s : SoftTim τ}
    (run : Run step HeadKept (softTimerInit timers updateCount counter) s) : Awake s := by
  have wakes : Wakes s :=
    run.invariant Wakes (fun _ _ _ h kept hstep => wakes_step h kept hstep) (wakes_init _ _ _)
  exact wakes.awake

def sampleTimers : SoftTim Bool := softTimerInit (fun _ => ⟨0, 0, true⟩) 1 0

def startRun (timer : Bool) (ticks : UInt32) : List (Action Bool) :=
  [.start timer ticks false 0, .call, .call, .call] ++ List.replicate 10 .process

theorem wake_up_kept_two_timers : ∃ s, Run step HeadKept sampleTimers s ∧
    s.list = [false, true] ∧ Quiet s ∧ Armed s 66536 := by
  obtain ⟨s, run, h⟩ : ∃ s, Run step HeadKept sampleTimers s ∧ _ = _ := by
    refine execIf_observe (startRun false 1000 ++ [.start true 2000 false 0, .call])
      (fun s => (s.list, s.queued, s.pc, s.call, (s.timers false).alarm))
      ([false, true], 0, .idle, none, 66536) ?_
    decide +kernel
  simp only [Prod.mk.injEq] at h
  obtain ⟨list, queued, pc, call, alarm⟩ := h
  have quiet : Quiet s := ⟨queued, pc, call⟩
  refine ⟨s, run, list, quiet, ?_⟩
  rw [← alarm]
  exact wake_up_kept run false (by rw [list]; rfl) quiet

/-- A timer of almost half of the range is first, one that is due five ticks ago is taken
for a later one, and the restart of the first leaves it first. -/
def lostRun : List (Action Bool) :=
  [.start false 0x7ffffffd false 0, .call, .call, .call] ++ List.replicate 7 .process ++
    [.startAt true 65531, .call, .start false 100 false 0, .call]

/-- The first timer of the list is five ticks past and no interrupt is pending. -/
theorem wake_up_lost : ∃ s, Reach step sampleTimers s ∧ s.list = [true, false] ∧ Quiet s ∧
    s.remainder = 32767 ∧ ahead (s.timers true).alarm (softTimerTime s) = -5 ∧ ¬Awake s := by
  obtain ⟨s, run, h⟩ : ∃ s, Reach step sampleTimers s ∧ _ = _ := by
    refine exec_observe lostRun (fun s => (s.list, decide (Quiet s), s.remainder, s.updateFlag,
      wrapTicks s, ahead (s.timers true).alarm (softTimerTime s)))
      ([true, false], true, 32767, false, 2147418112, -5) ?_
    decide +kernel
  simp only [Prod.mk.injEq, decide_eq_true_eq] at h
  obtain ⟨list, quiet, remainder, flag, wrap, past⟩ := h
  refine ⟨s, run, list, quiet, remainder, past, fun awake => ?_⟩
  rcases awake true (by rw [list]; rfl) quiet with ⟨-, zero, -⟩ | ⟨-, pending | inTime⟩
  · omega
  · rw [flag] at pending
    cases pending.1
  · omega

end SoftTimer
