import OpenLab.WrapTime

/-!
# The soft timers

`soft_timer_core.c` and `soft_timer_delay.c`: timers share one compare channel of a 16-bit
counter. The list is changed under a mutex, by the API calls and by `process`; the interrupt
handlers take no lock. Each action is one statement, one interrupt or one tick.

Posted events are never dropped, and the update interrupt is served before the counter wraps
around again.
-/

namespace SoftTimer

open Function WrapTime List

variable {τ : Type}

structure Timer where
  alarm : UInt32
  period : UInt32
  -- Whether the handler is not NULL.
  handler : Bool
  deriving DecidableEq

def softTimerPeriodMask : UInt32 := 0x7FFFFFFF
def softTimerPeriodic : UInt32 := 0x80000000

theorem toNat_and_mask (period : UInt32) :
    (period &&& softTimerPeriodMask).toNat = period.toNat % 2 ^ 31 := by
  exact Nat.and_two_pow_sub_one_eq_mod _ 31

theorem periodic_iff (period : UInt32) :
    period &&& softTimerPeriodic ≠ 0 ↔ 2 ^ 31 ≤ period.toNat := by
  have hlt := period.toNat_lt
  have hand : (period &&& softTimerPeriodic).toNat = (period.toNat.testBit 31).toNat * 2 ^ 31 := by
    exact Nat.and_two_pow _ 31
  have hbit : period.toNat.testBit 31 = decide (2 ^ 31 ≤ period.toNat) := by
    rw [Nat.testBit_eq_decide_div_mod_eq]
    congr 1
    apply propext
    omega
  rw [ne_eq, ← UInt32.toNat_inj, hand, hbit]
  simp

theorem toNat_or_periodic {ticks} (h : ticks.toNat < 2 ^ 31) :
    (ticks ||| softTimerPeriodic).toNat = 2 ^ 31 + ticks.toNat := by
  rw [UInt32.toNat_or, Nat.or_comm]
  exact (Nat.two_pow_add_eq_or_of_lt h 1).symm

inductive Pc
  | idle
  | entered
  | clearScheduled
  | clearProcess
  | loop
  | schedule
  | testRemainder
  | setCompare
  | setScheduled
  | checkLate
  | checkPosted
  deriving DecidableEq

/-- The statement that comes next in an API call that has changed the list: the test
`insert(timer) && !process_posted`, with the result of `insert` or `remove`, and the two
statements of its branch. -/
inductive Call
  | test (required : Bool)
  | post
  | flag
  deriving DecidableEq

structure Post where
  alarm : UInt32
  time : Int
  deriving DecidableEq

/-- What a timer was started for: its alarms are `ticks` apart, from `start` on. -/
structure Life where
  start : Int
  ticks : Int
  periodic : Bool
  -- The last one first.
  posts : List Post
  deriving DecidableEq

structure Ghost (τ : Type) where
  now : Int
  life : τ → Option Life

structure SoftTim (τ : Type) where
  timers : τ → Timer
  -- From `first` along `next`.
  list : List τ
  alarmScheduled : Bool
  alarmPosted : Bool
  processPosted : Bool
  remainder : Nat
  updateCount : UInt32
  -- The counter and its compare channel, with their interrupt flags.
  counter : UInt16
  compare : UInt16
  updateFlag : Bool
  compareFlag : Bool
  -- The `process` events in the queue, and the tasks.
  queued : Nat
  pc : Pc
  call : Option Call
  ghost : Ghost τ

def softTimerInit (timers : τ → Timer) (updateCount : UInt32) (counter : UInt16) : SoftTim τ where
  timers := timers
  list := []
  alarmScheduled := false
  alarmPosted := false
  processPosted := false
  remainder := 0
  updateCount := updateCount
  counter := counter
  compare := 0
  updateFlag := false
  compareFlag := false
  queued := 0
  pc := .idle
  call := none
  ghost := ⟨updateCount.toNat * 65536 + counter.toNat, fun _ => none⟩

/-- `soft_timer_time`: an update that has not been counted yet shows in the flag. -/
def softTimerTime (s : SoftTim τ) : UInt32 :=
  ((s.updateCount + if s.updateFlag then 1 else 0) <<< 16) + s.counter.toUInt32

def softTimerAIsBeforeB (a b : UInt32) : Bool := 0 < (b - a).toInt32

theorem isBefore_iff (a b : UInt32) : softTimerAIsBeforeB a b = true ↔ 0 < ahead b a := by
  rw [softTimerAIsBeforeB, decide_eq_true_iff, Int32.lt_iff_toInt_lt]
  rfl

def insertLater (timers : τ → Timer) (timer : τ) : List τ → List τ
  | [] => [timer]
  | x :: rest =>
    if softTimerAIsBeforeB (timers x).alarm (timers timer).alarm then
      x :: insertLater timers timer rest
    else timer :: x :: rest

/-- `insert`; the first component tells whether `process` is required. -/
def insert (timers : τ → Timer) (timer : τ) : List τ → Bool × List τ
  | [] => (true, [timer])
  | first :: rest =>
    if !softTimerAIsBeforeB (timers first).alarm (timers timer).alarm then
      (true, timer :: first :: rest)
    else (false, first :: insertLater timers timer rest)

theorem insertLater_perm (timers : τ → Timer) (timer : τ) (l : List τ) :
    (insertLater timers timer l).Perm (timer :: l) := by
  induction l with
  | nil => exact .refl _
  | cons x rest ih =>
    rw [insertLater]
    split
    · exact (ih.cons x).trans (.swap _ _ _)
    · exact .refl _

theorem insert_perm (timers : τ → Timer) (timer : τ) (l : List τ) :
    (insert timers timer l).2.Perm (timer :: l) := by
  cases l with
  | nil => exact .refl _
  | cons first rest =>
    rw [insert]
    split
    · exact .refl _
    · exact ((insertLater_perm timers timer rest).cons first).trans (.swap _ _ _)

variable {timers : τ → Timer}

theorem insert_kept {timer} {l} (h : (insert timers timer l).1 = false) :
    ∃ first rest, l = first :: rest ∧ (insert timers timer l).2.head? = some first ∧
      softTimerAIsBeforeB (timers first).alarm (timers timer).alarm = true := by
  cases l with
  | nil => cases h
  | cons first rest =>
    refine ⟨first, rest, rfl, ?_⟩
    rw [insert] at h ⊢
    split at h
    · cases h
    · next before =>
      rw [if_neg before]
      exact ⟨rfl, by simpa using before⟩

theorem insertLater_eq (timers : τ → Timer) (timer : τ) (l : List τ) :
    insertLater timers timer l =
      (l.takeWhile fun x => softTimerAIsBeforeB (timers x).alarm (timers timer).alarm) ++
        timer :: l.dropWhile fun x =>
            softTimerAIsBeforeB (timers x).alarm (timers timer).alarm := by
  induction l with
  | nil => rfl
  | cons x rest ih =>
    rw [insertLater, takeWhile_cons, dropWhile_cons]
    split
    · rw [ih, cons_append]
    · rfl

theorem insert_eq (timers : τ → Timer) (timer : τ) (l : List τ) :
    (insert timers timer l).2 =
      (l.takeWhile fun x => softTimerAIsBeforeB (timers x).alarm (timers timer).alarm) ++
        timer :: l.dropWhile fun x =>
            softTimerAIsBeforeB (timers x).alarm (timers timer).alarm := by
  cases l with
  | nil => rfl
  | cons first rest =>
    rw [insert, takeWhile_cons, dropWhile_cons]
    cases softTimerAIsBeforeB (timers first).alarm (timers timer).alarm with
    | false => rfl
    | true =>
      rw [insertLater_eq]
      rfl

/-- Where the comparison with the timers of the list agrees with a key, `insert` is the
insertion by that key. -/
theorem insert_eq_orderedInsert {timer} {l} (key : τ → Int)
    (agrees : ∀ x ∈ l, softTimerAIsBeforeB (timers x).alarm (timers timer).alarm = true ↔
      key x < key timer) :
    (insert timers timer l).2 = l.orderedInsert (fun x y => key x ≤ key y) timer := by
  rw [insert_eq]
  induction l with
  | nil => rfl
  | cons x rest ih =>
    have hx := agrees x mem_cons_self
    have hrest := ih fun y hy => agrees y (mem_cons_of_mem x hy)
    rw [takeWhile_cons, dropWhile_cons, orderedInsert_cons]
    by_cases before : key x < key timer
    · rw [if_pos (hx.mpr before), if_pos (hx.mpr before), if_neg (by omega), cons_append, hrest]
    · rw [if_neg (hx.not.mpr before), if_neg (hx.not.mpr before), if_pos (by omega), nil_append]

theorem insert_sorted {timer} {l} (key : τ → Int)
    (agrees : ∀ x ∈ l, softTimerAIsBeforeB (timers x).alarm (timers timer).alarm = true ↔
      key x < key timer) (sorted : l.Pairwise (key · ≤ key ·)) :
    (insert timers timer l).2.Pairwise (key · ≤ key ·) := by
  rw [insert_eq_orderedInsert key agrees]
  exact sorted.orderedInsert timer l

variable [DecidableEq τ]

/-- `remove`; the first component tells whether `process` is required. -/
def remove (timer : τ) : List τ → Bool × List τ
  | [] => (false, [])
  | first :: rest => if first = timer then (true, rest) else (false, first :: rest.erase timer)

theorem remove_eq (timer : τ) (l : List τ) : (remove timer l).2 = l.erase timer := by
  cases l with
  | nil => rfl
  | cons first rest =>
    rw [remove]
    by_cases h : first = timer
    · rw [if_pos h, h, erase_cons_head]
    · rw [if_neg h, erase_cons_tail (by simpa using h)]

def softTimerIsActive (s : SoftTim τ) (timer : τ) : Bool := s.list.contains timer

/-- Remove a timer, set its alarm and its period and insert it again. The result of
`remove` is ignored. -/
def replace (s : SoftTim τ) (timer : τ) (alarm period : UInt32) (life : Option Life) :
    SoftTim τ :=
  let timers := update s.timers timer
    { s.timers timer with alarm := alarm, period := period }
  let r := insert timers timer (remove timer s.list).2
  { s with
    timers := timers
    list := r.2
    call := some (.test r.1)
    ghost := { s.ghost with life := update s.ghost.life timer life } }

/-- The alarm `soft_timer_start` computes; it reads the time before it takes the mutex,
`lag` ticks ago. -/
def startAlarm (s : SoftTim τ) (ticks lag : UInt32) : UInt32 := softTimerTime s - lag + ticks

def startPeriod (ticks : UInt32) (periodic : Bool) : UInt32 :=
  ticks ||| if periodic then softTimerPeriodic else 0

def softTimerStart (s : SoftTim τ) (timer : τ) (ticks : UInt32) (periodic : Bool) (lag : UInt32) :
    SoftTim τ :=
  if ticks = 0 ∧ periodic then s
  else replace s timer (startAlarm s ticks lag) (startPeriod ticks periodic)
    (some ⟨s.ghost.now - lag.toNat, ticks.toNat, periodic, []⟩)

def softTimerStartAt (s : SoftTim τ) (timer : τ) (alarmTime : UInt32) : SoftTim τ :=
  replace s timer alarmTime (alarmTime - softTimerTime s)
    (some ⟨s.ghost.now, ahead alarmTime (softTimerTime s), false, []⟩)

def resetAlarm (s : SoftTim τ) (timer : τ) : UInt32 :=
  softTimerTime s + ((s.timers timer).period &&& softTimerPeriodMask)

def softTimerReset (s : SoftTim τ) (timer : τ) : SoftTim τ :=
  replace s timer (resetAlarm s timer) (s.timers timer).period none

def softTimerStop (s : SoftTim τ) (timer : τ) : SoftTim τ :=
  let r := remove timer s.list
  { s with
    list := r.2
    call := some (.test r.1)
    ghost := { s.ghost with life := update s.ghost.life timer none } }

def callStep (s : SoftTim τ) : Call → SoftTim τ
  | .test required =>
    if required && !s.processPosted then { s with call := some .post } else { s with call := none }
  | .post => { s with queued := s.queued + 1, call := some .flag }
  | .flag => { s with processPosted := true, call := none }

def isDue (s : SoftTim τ) (timer : τ) : Bool :=
  softTimerAIsBeforeB ((s.timers timer).alarm + 2) (softTimerTime s)

def logPost (s : SoftTim τ) (x : τ) (alarm : UInt32) : SoftTim τ :=
  let life := (s.ghost.life x).map fun l => { l with posts := ⟨alarm, s.ghost.now⟩ :: l.posts }
  { s with ghost := { s.ghost with life := update s.ghost.life x life } }

/-- The body of the loop of `process` for the expired first timer `x`: rescheduled if it
is periodic, and its handler posted. -/
def expire (s : SoftTim τ) (x : τ) (rest : List τ) : SoftTim τ :=
  let timer := s.timers x
  let s := { s with list := rest }
  let s :=
    if timer.period &&& softTimerPeriodic ≠ 0 then
      let timers := update s.timers x
        { timer with alarm := timer.alarm + (timer.period &&& softTimerPeriodMask) }
      { s with timers := timers, list := (insert timers x rest).2 }
    else s
  if timer.handler then logPost s x timer.alarm else s

def scheduleStep (s : SoftTim τ) (first : τ) : SoftTim τ :=
  let alarm := (s.timers first).alarm
  match s.pc with
  | .schedule =>
    let delta := ahead alarm (softTimerTime s)
    { s with remainder := if 0 < delta then delta.toNat >>> 16 else 0, pc := .testRemainder }
  | .testRemainder =>
    if s.remainder = 0 then { s with pc := .setCompare } else { s with pc := .idle }
  | .setCompare => { s with compare := alarm.toUInt16, pc := .setScheduled }
  | .setScheduled => { s with alarmScheduled := true, pc := .checkLate }
  | .checkLate =>
    if ahead alarm (softTimerTime s) < 1 then { s with pc := .checkPosted }
      else { s with pc := .idle }
  | .checkPosted =>
    if s.alarmPosted then { s with pc := .idle } else { s with queued := s.queued + 1, pc := .idle }
  | _ => s

/-- One statement of `process`; `none` while it waits for an event or for the mutex. -/
def processStep (s : SoftTim τ) : Option (SoftTim τ) :=
  match s.pc with
  | .idle => if s.queued = 0 then none else some { s with queued := s.queued - 1, pc := .entered }
  | .entered =>
    if s.call = none then some { s with alarmPosted := false, pc := .clearScheduled } else none
  | .clearScheduled => some { s with alarmScheduled := false, pc := .clearProcess }
  | .clearProcess => some { s with processPosted := false, pc := .loop }
  | .loop => match s.list with
    | [] => some { s with pc := .idle }
    | x :: rest => if isDue s x then some (expire s x rest) else some { s with pc := .schedule }
  | _ => match s.list with
    | [] => none
    | first :: _ => some (scheduleStep s first)

def timerAlarm (s : SoftTim τ) : SoftTim τ :=
  let s := { s with compareFlag := false }
  if !s.alarmScheduled then s
  else { s with processPosted := true, queued := s.queued + 1, alarmPosted := true }

def softTimerUpdate (s : SoftTim τ) : SoftTim τ :=
  let s := { s with
    updateFlag := false
    updateCount := s.updateCount + 1
    remainder := s.remainder - 1 }
  if s.remainder = 0 then { s with processPosted := true, queued := s.queued + 1 } else s

def tick (s : SoftTim τ) : SoftTim τ :=
  let counter := s.counter + 1
  { s with
    counter := counter
    updateFlag := s.updateFlag || counter == 0
    compareFlag := s.compareFlag || counter == s.compare
    ghost := { s.ghost with now := s.ghost.now + 1 } }

inductive Action (τ : Type)
  | start (timer : τ) (ticks : UInt32) (periodic : Bool) (lag : UInt32)
  | startAt (timer : τ) (alarmTime : UInt32)
  | stop (timer : τ)
  | reset (timer : τ)
  | call
  | process
  | timerAlarm
  | softTimerUpdate
  | tick

def mutexFree (s : SoftTim τ) : Bool := s.call.isNone && (s.pc == .idle || s.pc == .entered)

def step (s : SoftTim τ) : Action τ → Option (SoftTim τ)
  | .start timer ticks periodic lag =>
    if mutexFree s then some (softTimerStart s timer ticks periodic lag) else none
  | .startAt timer alarmTime =>
    if mutexFree s then some (softTimerStartAt s timer alarmTime) else none
  | .stop timer => if mutexFree s then some (softTimerStop s timer) else none
  | .reset timer => if mutexFree s then some (softTimerReset s timer) else none
  | .call => s.call.map (callStep s)
  | .process => processStep s
  | .timerAlarm => if s.compareFlag then some (timerAlarm s) else none
  | .softTimerUpdate => if s.updateFlag then some (softTimerUpdate s) else none
  | .tick => if s.updateFlag && s.counter == 0xffff then none else some (tick s)

end SoftTimer
