import OpenLab.SoftTimerWake

/-!
# The posts of a timer

What a timer was started for against the posts that `process` makes for it. The flag of a periodic
timer is the top bit of its period, and the list is sorted only while the alarms in it are less
than half of the range apart.
-/

namespace SoftTimer

open Schedules WrapTime List Option
open Function (update update_of_ne update_self)

variable {τ : Type}

/-- Ticks to the alarm of a timer; negative once it has passed. -/
def left (s : SoftTim τ) (x : τ) : Int := ahead (s.timers x).alarm (softTimerTime s)

def Life.alarm (l : Life) (k : Nat) : Int := l.start + k * l.ticks

theorem Life.alarm_succ (l : Life) (k : Nat) : l.alarm (k + 1) = l.alarm k + l.ticks := by
  rw [alarm, alarm, Int.natCast_add, Int.add_mul, Int.add_assoc]
  simp

/-- A timer and its posts are as it was started. -/
structure Serves (s : SoftTim τ) (x : τ) (l : Life) : Prop where
  active : x ∈ s.list ↔ l.periodic = true ∨ l.posts = []
  next : x ∈ s.list → l.alarm (l.posts.length + 1) = s.ghost.now + left s x
  once : l.periodic = false → l.posts.length ≤ 1
  flag : (s.timers x).period &&& softTimerPeriodic ≠ 0 ↔ l.periodic = true
  period : l.periodic = true → ((s.timers x).period &&& softTimerPeriodMask).toNat = l.ticks
  posts : ∀ k p, l.posts.reverse[k]? = some p →
    p.alarm = stamp (l.alarm (k + 1)) ∧ l.alarm (k + 1) < p.time

/-- The clock is the number of ticks, the list is sorted by the time left, and every timer
with a handler serves what it was started for. -/
structure Sound (s : SoftTim τ) : Prop where
  clock : softTimerTime s = stamp s.ghost.now
  nodup : s.list.Nodup
  range : ∀ x ∈ s.list, -2 ^ 30 ≤ left s x ∧ left s x < 2 ^ 31 - 1
  sorted : s.list.Pairwise (left s · ≤ left s ·)
  serves : ∀ x l, s.ghost.life x = some l → (s.timers x).handler = true → Serves s x l

structure Unchanged (s s' : SoftTim τ) : Prop where
  timers : s'.timers = s.timers
  list : s'.list = s.list
  time : softTimerTime s' = softTimerTime s
  ghost : s'.ghost = s.ghost

theorem unchanged_callStep (s : SoftTim τ) (call : Call) : Unchanged s (callStep s call) := by
  cases call with
  | test required =>
    rw [callStep]
    split <;> exact ⟨rfl, rfl, rfl, rfl⟩
  | post | flag => exact ⟨rfl, rfl, rfl, rfl⟩

theorem unchanged_scheduleStep (s : SoftTim τ) (first : τ) :
    Unchanged s (scheduleStep s first) := by
  unfold scheduleStep
  dsimp only
  split
  · exact ⟨rfl, rfl, rfl, rfl⟩
  · split
    · exact ⟨rfl, rfl, rfl, rfl⟩
    · exact ⟨rfl, rfl, rfl, rfl⟩
  · exact ⟨rfl, rfl, rfl, rfl⟩
  · exact ⟨rfl, rfl, rfl, rfl⟩
  · split
    · exact ⟨rfl, rfl, rfl, rfl⟩
    · exact ⟨rfl, rfl, rfl, rfl⟩
  · split
    · exact ⟨rfl, rfl, rfl, rfl⟩
    · exact ⟨rfl, rfl, rfl, rfl⟩
  · exact ⟨rfl, rfl, rfl, rfl⟩

theorem unchanged_timerAlarm (s : SoftTim τ) : Unchanged s (timerAlarm s) := by
  unfold timerAlarm
  dsimp only
  split <;> exact ⟨rfl, rfl, rfl, rfl⟩

variable {s : SoftTim τ}

theorem unchanged_softTimerUpdate (flag : s.updateFlag = true) :
    Unchanged s (softTimerUpdate s) := by
  have time := softTimerTime_update flag
  unfold softTimerUpdate at time ⊢
  dsimp only at time ⊢
  split at time
  · next last => rw [if_pos last]; exact ⟨rfl, rfl, time, rfl⟩
  · next more => rw [if_neg more]; exact ⟨rfl, rfl, time, rfl⟩

variable [DecidableEq τ]

inductive Change (s : SoftTim τ) : Action τ → SoftTim τ → Prop
  | none {a : Action τ} {s' : SoftTim τ} : Unchanged s s' → Change s a s'
  | tick : Served s → Change s .tick (tick s)
  | start (timer : τ) (ticks : UInt32) (periodic : Bool) (lag : UInt32) :
      ¬(ticks = 0 ∧ periodic) → Change s (.start timer ticks periodic lag)
        (replace s timer (startAlarm s ticks lag) (startPeriod ticks periodic)
          (some ⟨s.ghost.now - lag.toNat, ticks.toNat, periodic, []⟩))
  | startAt (timer : τ) (alarmTime : UInt32) :
      Change s (.startAt timer alarmTime) (softTimerStartAt s timer alarmTime)
  | reset (timer : τ) : Change s (.reset timer) (softTimerReset s timer)
  | stop (timer : τ) : Change s (.stop timer) (softTimerStop s timer)
  | expire (x : τ) (rest : List τ) : s.pc = .loop → s.list = x :: rest → isDue s x = true →
      Change s .process (expire s x rest)

variable {s' : SoftTim τ}

theorem processStep_change (hstep : processStep s = some s') : Change s .process s' := by
  unfold processStep at hstep
  split at hstep
  · split at hstep
    · cases hstep
    · cases hstep
      exact .none ⟨rfl, rfl, rfl, rfl⟩
  · split at hstep
    · cases hstep
      exact .none ⟨rfl, rfl, rfl, rfl⟩
    · cases hstep
  · cases hstep
    exact .none ⟨rfl, rfl, rfl, rfl⟩
  · cases hstep
    exact .none ⟨rfl, rfl, rfl, rfl⟩
  · next loop =>
    split at hstep
    · next empty =>
      cases hstep
      exact .none ⟨rfl, rfl, rfl, rfl⟩
    · next x rest hlist =>
      split at hstep
      · next due =>
        cases hstep
        exact .expire x rest loop hlist due
      · cases hstep
        exact .none ⟨rfl, rfl, rfl, rfl⟩
  · split at hstep
    · cases hstep
    · next first rest hlist =>
      cases hstep
      exact .none (unchanged_scheduleStep s first)

theorem step_change {a} (hstep : step s a = some s') : Change s a s' := by
  cases a with
  | start timer ticks periodic lag =>
    obtain ⟨-, h⟩ := ite_none_right_eq_some.mp hstep
    cases h
    unfold softTimerStart
    split
    · exact .none ⟨rfl, rfl, rfl, rfl⟩
    · next real => exact .start timer ticks periodic lag real
  | startAt timer alarmTime =>
    obtain ⟨-, h⟩ := ite_none_right_eq_some.mp hstep
    cases h
    exact .startAt timer alarmTime
  | stop timer =>
    obtain ⟨-, h⟩ := ite_none_right_eq_some.mp hstep
    cases h
    exact .stop timer
  | reset timer =>
    obtain ⟨-, h⟩ := ite_none_right_eq_some.mp hstep
    cases h
    exact .reset timer
  | call =>
    obtain ⟨call, -, rfl⟩ := map_eq_some_iff.mp hstep
    exact .none (unchanged_callStep s call)
  | process => exact processStep_change hstep
  | timerAlarm =>
    obtain ⟨-, h⟩ := ite_none_right_eq_some.mp hstep
    cases h
    exact .none (unchanged_timerAlarm s)
  | softTimerUpdate =>
    obtain ⟨flag, h⟩ := ite_none_right_eq_some.mp hstep
    cases h
    exact .none (unchanged_softTimerUpdate flag)
  | tick =>
    obtain ⟨served, h⟩ := ite_none_left_eq_some.mp hstep
    cases h
    exact .tick (by simpa [Served] using served)

def nextAlarm (timer : Timer) : UInt32 := timer.alarm + (timer.period &&& softTimerPeriodMask)

/-- The timer that the action inserts into the list, and its alarm. -/
def inserted (s : SoftTim τ) : Action τ → Option (τ × UInt32)
  | .process => match s.pc, s.list with
    | .loop, x :: _ =>
      if isDue s x ∧ (s.timers x).period &&& softTimerPeriodic ≠ 0 then
        some (x, nextAlarm (s.timers x))
      else none
    | _, _ => none
  | a => restarted s a

/-- A timer is inserted less than half of the range apart from every other one. -/
def Apart (s : SoftTim τ) (a : Action τ) : Prop :=
  match inserted s a with
  | some (timer, alarm) => ∀ x ∈ s.list, x ≠ timer →
      (ahead alarm (softTimerTime s) - left s x).natAbs < 2 ^ 31
  | none => True

/-- A timer is started for a time that is not past and less than half of the range ahead,
and `process` is less than 2^30 ticks late. -/
def InRange (s : SoftTim τ) : Action τ → Prop
  | .start _ ticks _ lag => ticks.toNat < 2 ^ 31 - 1 ∧ lag.toNat ≤ 2 ^ 30
  | .startAt _ alarmTime => (alarmTime - softTimerTime s).toNat < 2 ^ 31 - 1
  | .reset timer => ((s.timers timer).period &&& softTimerPeriodMask).toNat < 2 ^ 31 - 1
  | .tick => ∀ first, s.list.head? = some first → -2 ^ 30 < left s first
  | _ => True

def Prompt (s : SoftTim τ) (a : Action τ) : Prop := InRange s a ∧ Apart s a

variable {x : τ} {alarm : UInt32}

omit [DecidableEq τ] in
theorem isDue_iff (low : -2 ^ 30 ≤ left s x) (high : left s x < 2 ^ 31 - 1) :
    isDue s x = true ↔ left s x < -2 := by
  obtain ⟨-, -, q, hq⟩ := ahead_spec (s.timers x).alarm (softTimerTime s)
  obtain ⟨hl, hh, r, hr⟩ := ahead_spec (softTimerTime s) ((s.timers x).alarm + 2)
  have hsum : ((s.timers x).alarm + 2).toNat = ((s.timers x).alarm.toNat + 2) % 2 ^ 32 :=
    UInt32.toNat_add _ _
  rw [isDue, isBefore_iff]
  unfold left at low high ⊢
  omega

omit [DecidableEq τ] in
theorem isBefore_left (low : -2 ^ 30 ≤ left s x)
    (apart : (ahead alarm (softTimerTime s) - left s x).natAbs < 2 ^ 31) :
    softTimerAIsBeforeB (s.timers x).alarm alarm = true ↔
      left s x < ahead alarm (softTimerTime s) := by
  have hswap : ahead (softTimerTime s) (s.timers x).alarm = -left s x :=
    ahead_swap (by unfold left at low; omega)
  have htrans : ahead alarm (s.timers x).alarm = ahead alarm (softTimerTime s) - left s x := by
    rw [ahead_trans (b := softTimerTime s) (by omega) (by omega), hswap]
    omega
  rw [isBefore_iff, htrans]
  omega

omit [DecidableEq τ] in
theorem ahead_startAlarm {ticks lag} (hticks : ticks.toNat < 2 ^ 31 - 1)
    (hlag : lag.toNat ≤ 2 ^ 30) :
    ahead (startAlarm s ticks lag) (softTimerTime s) = ticks.toNat - lag.toNat := by
  have hsub : (softTimerTime s - lag).toNat =
      (2 ^ 32 - lag.toNat + (softTimerTime s).toNat) % 2 ^ 32 := UInt32.toNat_sub _ _
  have hsum : (startAlarm s ticks lag).toNat =
      ((softTimerTime s - lag).toNat + ticks.toNat) % 2 ^ 32 := UInt32.toNat_add _ _
  obtain ⟨-, -, q, hq⟩ := ahead_spec (startAlarm s ticks lag) (softTimerTime s)
  exact ahead_eq_of_congr (by omega) (by omega)
    (((startAlarm s ticks lag).toNat - (softTimerTime s).toNat - (ticks.toNat - lag.toNat) : Int)
      / 2 ^ 32) (by omega)

omit [DecidableEq τ] in
theorem startPeriod_periodic {ticks} {periodic} (h : ticks.toNat < 2 ^ 31 - 1) :
    (startPeriod ticks periodic &&& softTimerPeriodic ≠ 0 ↔ periodic = true) ∧
      (startPeriod ticks periodic &&& softTimerPeriodMask).toNat = ticks.toNat := by
  rw [periodic_iff, toNat_and_mask]
  cases periodic with
  | true =>
    have small : ticks.toNat < 2 ^ 31 := by omega
    have hor := toNat_or_periodic small
    have hval : startPeriod ticks true = ticks ||| softTimerPeriodic := rfl
    rw [hval, hor]
    exact ⟨by simp, by omega⟩
  | false =>
    have hval : startPeriod ticks false = ticks := UInt32.or_zero
    rw [hval]
    exact ⟨by simp; omega, by omega⟩

omit [DecidableEq τ] in
theorem Unchanged.sound (same : Unchanged s s') (h : Sound s) : Sound s' := by
  have hleft : left s' = left s := by
    funext x
    rw [left, left, same.timers, same.time]
  constructor
  · rw [same.time, same.ghost]
    exact h.clock
  · rw [same.list]
    exact h.nodup
  · rw [same.list, hleft]
    exact h.range
  · rw [same.list, hleft]
    exact h.sorted
  · intro x l life handler
    rw [same.ghost] at life
    rw [same.timers] at handler
    obtain ⟨active, next, once, flag, period, posts⟩ := h.serves x l life handler
    exact ⟨by rw [same.list]; exact active, by rw [same.list, same.ghost, hleft]; exact next, once,
      by rw [same.timers]; exact flag, by rw [same.timers]; exact period, posts⟩

structure Touches (s s' : SoftTim τ) (timer : τ) : Prop where
  time : softTimerTime s' = softTimerTime s
  now : s'.ghost.now = s.ghost.now
  timers : ∀ x, x ≠ timer → s'.timers x = s.timers x
  lives : ∀ x, x ≠ timer → s'.ghost.life x = s.ghost.life x
  members : ∀ x, x ≠ timer → (x ∈ s'.list ↔ x ∈ s.list)

section Touches

variable {s s' : SoftTim τ} {timer : τ}

omit [DecidableEq τ] in
theorem Touches.left_eq (touch : Touches s s' timer) {x} (ne : x ≠ timer) :
    left s' x = left s x := by
  rw [left, left, touch.timers x ne, touch.time]

omit [DecidableEq τ] in
theorem Touches.serves (touch : Touches s s' timer) (h : Sound s)
    (own : ∀ l, s'.ghost.life timer = some l → (s'.timers timer).handler = true →
      Serves s' timer l) :
    ∀ x l, s'.ghost.life x = some l → (s'.timers x).handler = true → Serves s' x l := by
  intro x l life handler
  by_cases ne : x = timer
  · subst ne
    exact own l life handler
  · rw [touch.lives x ne] at life
    rw [touch.timers x ne] at handler
    obtain ⟨active, next, once, flag, period, posts⟩ := h.serves x l life handler
    constructor
    · exact (touch.members x ne).trans active
    · intro mem
      rw [touch.now, touch.left_eq ne]
      exact next ((touch.members x ne).mp mem)
    · exact once
    · rw [touch.timers x ne]
      exact flag
    · rw [touch.timers x ne]
      exact period
    · exact posts

theorem Touches.insert_sound (touch : Touches s s' timer) (h : Sound s)
    (list : s'.list = (insert s'.timers timer (s.list.erase timer)).2)
    (range : -2 ^ 30 ≤ left s' timer ∧ left s' timer < 2 ^ 31 - 1)
    (apart : ∀ x ∈ s.list, x ≠ timer → (left s' timer - left s x).natAbs < 2 ^ 31)
    (own : ∀ l, s'.ghost.life timer = some l → (s'.timers timer).handler = true →
      Serves s' timer l) : Sound s' := by
  have others : ∀ x ∈ s.list.erase timer, x ∈ s.list ∧ x ≠ timer := fun x hx =>
    ⟨mem_of_mem_erase hx, fun same => h.nodup.not_mem_erase (same ▸ hx)⟩
  have inRange : ∀ x ∈ s.list.erase timer, -2 ^ 30 ≤ left s' x ∧ left s' x < 2 ^ 31 - 1 := by
    intro x hx
    obtain ⟨mem, ne⟩ := others x hx
    rw [touch.left_eq ne]
    exact h.range x mem
  have perm : s'.list.Perm (timer :: s.list.erase timer) := list ▸ insert_perm _ _ _
  constructor
  · rw [touch.time, touch.now]
    exact h.clock
  · rw [perm.nodup_iff, nodup_cons]
    exact ⟨h.nodup.not_mem_erase, h.nodup.erase timer⟩
  · intro x hx
    rcases mem_cons.mp (perm.mem_iff.mp hx) with rfl | hx
    · exact range
    · exact inRange x hx
  · rw [list]
    refine insert_sorted (left s') (fun x hx => ?_) ?_
    · obtain ⟨mem, ne⟩ := others x hx
      refine isBefore_left (inRange x hx).1 ?_
      rw [touch.left_eq ne]
      exact apart x mem ne
    · refine (h.sorted.sublist erase_sublist).imp_of_mem fun {x y} hx hy hxy => ?_
      rw [touch.left_eq (others x hx).2, touch.left_eq (others y hy).2]
      exact hxy
  · exact touch.serves h own

theorem Touches.erase_sound (touch : Touches s s' timer) (h : Sound s)
    (list : s'.list = s.list.erase timer)
    (own : ∀ l, s'.ghost.life timer = some l → (s'.timers timer).handler = true →
      Serves s' timer l) : Sound s' := by
  have others : ∀ x ∈ s.list.erase timer, x ∈ s.list ∧ x ≠ timer := fun x hx =>
    ⟨mem_of_mem_erase hx, fun same => h.nodup.not_mem_erase (same ▸ hx)⟩
  constructor
  · rw [touch.time, touch.now]
    exact h.clock
  · rw [list]
    exact h.nodup.erase timer
  · intro x hx
    rw [list] at hx
    rw [touch.left_eq (others x hx).2]
    exact h.range x (others x hx).1
  · rw [list]
    refine (h.sorted.sublist erase_sublist).imp_of_mem fun {x y} hx hy hxy => ?_
    rw [touch.left_eq (others x hx).2, touch.left_eq (others y hy).2]
    exact hxy
  · exact touch.serves h own

end Touches

theorem touches_replace (nodup : s.list.Nodup) (timer : τ) (alarm period : UInt32)
    (life : Option Life) : Touches s (replace s timer alarm period life) timer := by
  constructor
  · rfl
  · rfl
  · exact fun x ne => update_of_ne ne _ _
  · exact fun x ne => update_of_ne ne _ _
  · intro x ne
    have perm : (replace s timer alarm period life).list.Perm (timer :: s.list.erase timer) := by
      rw [← remove_eq]
      exact insert_perm _ _ _
    rw [perm.mem_iff, mem_cons, nodup.mem_erase_iff]
    simp [ne]

omit [DecidableEq τ] in
theorem left_of_alarm (time : softTimerTime s' = softTimerTime s)
    (h : (s'.timers x).alarm = alarm) :
    left s' x = ahead alarm (softTimerTime s) := by
  rw [left, time, h]

theorem sound_replace (h : Sound s) {a : Action τ} {timer : τ} {period : UInt32}
    {life : Option Life} (apart : Apart s a) (restart : inserted s a = some (timer, alarm))
    (range : -2 ^ 30 ≤ ahead alarm (softTimerTime s) ∧ ahead alarm (softTimerTime s) < 2 ^ 31 - 1)
    (fresh : ∀ l, life = some l → l.posts = [] ∧
      l.start + l.ticks = s.ghost.now + ahead alarm (softTimerTime s) ∧
      (period &&& softTimerPeriodic ≠ 0 ↔ l.periodic = true) ∧
      (l.periodic = true → (period &&& softTimerPeriodMask).toNat = l.ticks)) :
    Sound (replace s timer alarm period life) := by
  have touch := touches_replace h.nodup timer alarm period life
  have htimer : (replace s timer alarm period life).timers timer =
      { s.timers timer with alarm := alarm, period := period } := update_self _ _ _
  have hleft : left (replace s timer alarm period life) timer = ahead alarm (softTimerTime s) :=
    left_of_alarm rfl (by rw [htimer])
  have list : (replace s timer alarm period life).list =
      (insert (replace s timer alarm period life).timers timer (s.list.erase timer)).2 := by
    rw [← remove_eq]
    rfl
  simp only [Apart, restart] at apart
  refine touch.insert_sound h list (hleft ▸ range) (hleft ▸ apart) fun l hl _ => ?_
  have hlife : life = some l := by
    rw [← hl]
    exact (update_self timer life s.ghost.life).symm
  obtain ⟨posts, next, flag, ticks⟩ := fresh l hlife
  have mem : timer ∈ (replace s timer alarm period life).list := by
    rw [list, (insert_perm _ _ _).mem_iff]
    exact mem_cons_self
  constructor
  · exact iff_of_true mem (.inr posts)
  · intro _
    rw [posts, hleft, touch.now, Life.alarm]
    simpa using next
  · simp [posts]
  · rw [htimer]
    exact flag
  · rw [htimer]
    exact ticks
  · simp [posts]

theorem sound_stop (h : Sound s) (timer : τ) : Sound (softTimerStop s timer) := by
  have list : (softTimerStop s timer).list = s.list.erase timer := remove_eq timer s.list
  have touch : Touches s (softTimerStop s timer) timer := by
    refine ⟨rfl, rfl, fun _ _ => rfl, fun x ne => update_of_ne ne _ _, fun x ne => ?_⟩
    rw [list, h.nodup.mem_erase_iff]
    simp [ne]
  refine touch.erase_sound h list fun l hl => ?_
  have stopped : (softTimerStop s timer).ghost.life timer = none := by simp [softTimerStop]
  rw [stopped] at hl
  cases hl

theorem expire_effect (s : SoftTim τ) (x : τ) (rest : List τ) :
    softTimerTime (expire s x rest) = softTimerTime s ∧
      (expire s x rest).ghost.now = s.ghost.now ∧
      (expire s x rest).timers = (if (s.timers x).period &&& softTimerPeriodic ≠ 0 then
        update s.timers x { s.timers x with alarm := nextAlarm (s.timers x) }
        else s.timers) ∧
      (expire s x rest).ghost.life = if (s.timers x).handler then
        update s.ghost.life x ((s.ghost.life x).map fun l =>
          { l with posts := ⟨(s.timers x).alarm, s.ghost.now⟩ :: l.posts })
        else s.ghost.life := by
  unfold expire logPost
  by_cases periodic : (s.timers x).period &&& softTimerPeriodic ≠ 0
  · simp only [if_pos periodic]
    split <;> exact ⟨rfl, rfl, rfl, rfl⟩
  · simp only [if_neg periodic]
    split <;> exact ⟨rfl, rfl, rfl, rfl⟩

variable {rest : List τ}

theorem touches_expire (hlist : s.list = x :: rest) : Touches s (expire s x rest) x := by
  obtain ⟨time, now, timers, life⟩ := expire_effect s x rest
  refine ⟨time, now, fun y ne => ?_, fun y ne => ?_, fun y ne => ?_⟩
  · rw [timers]
    split
    · exact update_of_ne ne _ _
    · rfl
  · rw [life]
    split
    · exact update_of_ne ne _ _
    · rfl
  · rw [expire_list, hlist]
    split
    · rw [(insert_perm _ _ _).mem_iff]
    · simp [ne]

theorem reverse_cons_getElem? {α : Type} {l : List α} {p q : α} {k : Nat}
    (h : (p :: l).reverse[k]? = some q) : l.reverse[k]? = some q ∨ k = l.length ∧ q = p := by
  rw [reverse_cons, getElem?_append] at h
  split at h
  · exact .inl h
  · rw [length_reverse, getElem?_singleton] at h
    next past =>
      rw [length_reverse] at past
      split at h
      · exact .inr ⟨by omega, (some.inj h).symm⟩
      · cases h

theorem serves_expire (h : Sound s) (hlist : s.list = x :: rest) (due : left s x < -2)
    (handler : (s.timers x).handler = true) {l : Life} (life : s.ghost.life x = some l)
    (next : (s.timers x).period &&& softTimerPeriodic ≠ 0 → left (expire s x rest) x =
      left s x + ((s.timers x).period &&& softTimerPeriodMask).toNat) : Serves (expire s x rest) x
      { l with posts := ⟨(s.timers x).alarm, s.ghost.now⟩ :: l.posts } := by
  obtain ⟨-, now, timers, -⟩ := expire_effect s x rest
  have serves := h.serves x l life handler
  have mem : x ∈ s.list := hlist ▸ mem_cons_self
  have period : ((expire s x rest).timers x).period = (s.timers x).period := by
    rw [timers]
    split
    · rw [update_self]
    · rfl
  have hnext := serves.next mem
  have posts : ∀ k p, ((⟨(s.timers x).alarm, s.ghost.now⟩ : Post) :: l.posts).reverse[k]? = some p →
      p.alarm = stamp (l.alarm (k + 1)) ∧ l.alarm (k + 1) < p.time := by
    intro k p hp
    rcases reverse_cons_getElem? hp with earlier | ⟨rfl, rfl⟩
    · exact serves.posts k p earlier
    · rw [hnext]
      exact ⟨eq_stamp h.clock, by dsimp only; omega⟩
  by_cases periodic : (s.timers x).period &&& softTimerPeriodic ≠ 0
  · have hper := serves.flag.mp periodic
    have kept : x ∈ (expire s x rest).list := by
      rw [expire_list, if_pos periodic, (insert_perm _ _ _).mem_iff]
      exact mem_cons_self
    refine ⟨iff_of_true kept (.inl hper), fun _ => ?_, ?_, ?_, ?_, posts⟩
    · have hsucc := l.alarm_succ (l.posts.length + 1)
      have hticks := serves.period hper
      rw [now, next periodic]
      change l.alarm (l.posts.length + 1 + 1) = _
      omega
    · exact fun hone => absurd (hper.symm.trans hone) (by decide)
    · rw [period]
      exact serves.flag
    · rw [period]
      exact serves.period
  · have hone : l.periodic = false := by simpa using serves.flag.not.mp periodic
    have first : l.posts = [] := (serves.active.mp mem).resolve_left (by simp [hone])
    have gone : x ∉ (expire s x rest).list := by
      rw [expire_list, if_neg periodic]
      exact (nodup_cons.mp (hlist ▸ h.nodup)).1
    refine ⟨iff_of_false gone (by simp [hone]), fun mem => absurd mem gone, ?_, ?_, ?_, posts⟩
    · simp [first]
    · rw [period]
      exact serves.flag
    · rw [period]
      exact serves.period

theorem sound_expire (h : Sound s) (loop : s.pc = .loop) (hlist : s.list = x :: rest)
    (due : isDue s x = true) (apart : Apart s .process) : Sound (expire s x rest) := by
  obtain ⟨time, now, timers, life⟩ := expire_effect s x rest
  have touch := touches_expire hlist
  have mem : x ∈ s.list := hlist ▸ mem_cons_self
  have range := h.range x mem
  have past := (isDue_iff range.1 range.2).mp due
  have herase : s.list.erase x = rest := by rw [hlist, erase_cons_head]
  -- The time left to the next alarm of a periodic timer.
  have next : (s.timers x).period &&& softTimerPeriodic ≠ 0 → left (expire s x rest) x =
      left s x + ((s.timers x).period &&& softTimerPeriodMask).toNat := by
    intro periodic
    have hmask := toNat_and_mask (s.timers x).period
    have alarm : ((expire s x rest).timers x).alarm = nextAlarm (s.timers x) := by
      rw [timers, if_pos periodic, update_self]
    rw [left_of_alarm time alarm]
    exact ahead_add (by unfold left at past; omega)
  have own : ∀ l, (expire s x rest).ghost.life x = some l →
      ((expire s x rest).timers x).handler = true → Serves (expire s x rest) x l := by
    intro l hl hhandler
    have handler : (s.timers x).handler = true := by
      rw [← hhandler, timers]
      split
      · rw [update_self]
      · rfl
    rw [life, if_pos handler, update_self] at hl
    obtain ⟨l₀, hl₀, rfl⟩ := map_eq_some_iff.mp hl
    exact serves_expire h hlist past handler hl₀ next
  by_cases periodic : (s.timers x).period &&& softTimerPeriodic ≠ 0
  · have hmask := toNat_and_mask (s.timers x).period
    have hnext := next periodic
    have hahead : left (expire s x rest) x = ahead (nextAlarm (s.timers x)) (softTimerTime s) :=
      left_of_alarm time (by rw [timers, if_pos periodic, update_self])
    have again : inserted s .process = some (x, nextAlarm (s.timers x)) := by
      rw [inserted, loop, hlist]
      exact if_pos ⟨due, periodic⟩
    simp only [Apart, again] at apart
    refine touch.insert_sound h ?_ (by omega) ?_ own
    · rw [herase, expire_list, if_pos periodic]
    · rw [hahead]
      exact apart
  · refine touch.erase_sound h ?_ own
    rw [herase, expire_list, if_neg periodic]

omit [DecidableEq τ] in
theorem sound_tick (h : Sound s) (served : Served s)
    (late : ∀ first, s.list.head? = some first → -2 ^ 30 < left s first) : Sound (tick s) := by
  have low : ∀ x ∈ s.list, -2 ^ 30 < left s x := by
    cases hlist : s.list with
    | nil => simp
    | cons first rest =>
      have hfirst := late first (by rw [hlist]; rfl)
      have sorted := pairwise_cons.mp (hlist ▸ h.sorted)
      intro x hx
      rcases mem_cons.mp hx with rfl | hx
      · exact hfirst
      · exact Int.lt_of_lt_of_le hfirst (sorted.1 x hx)
  have hleft : ∀ x ∈ s.list, left (tick s) x = left s x - 1 := by
    intro x hx
    have hx := low x hx
    unfold left at hx ⊢
    rw [softTimerTime_tick served]
    exact ahead_tick (Int.lt_trans (by decide) hx)
  constructor
  · rw [softTimerTime_tick served]
    exact stamp_tick h.clock
  · exact h.nodup
  · intro x hx
    have range := h.range x hx
    have hlow := low x hx
    rw [hleft x hx]
    omega
  · refine h.sorted.imp_of_mem fun {x y} hx hy hxy => ?_
    rw [hleft x hx, hleft y hy]
    omega
  · intro x l life handler
    obtain ⟨active, next, once, flag, period, posts⟩ := h.serves x l life handler
    refine ⟨active, fun mem => ?_, once, flag, period, posts⟩
    have now : (tick s).ghost.now = s.ghost.now + 1 := rfl
    rw [next mem, now, hleft x mem]
    omega

theorem sound_step {a : Action τ} (h : Sound s) (prompt : Prompt s a) (hstep : step s a = some s') :
    Sound s' := by
  obtain ⟨inRange, apart⟩ := prompt
  cases step_change hstep with
  | none same => exact same.sound h
  | tick served => exact sound_tick h served inRange
  | start timer ticks periodic lag real =>
    obtain ⟨hticks, hlag⟩ := inRange
    have hahead := ahead_startAlarm (s := s) hticks hlag
    obtain ⟨flag, period⟩ := @startPeriod_periodic ticks periodic hticks
    refine sound_replace h apart (if_neg real) (by omega) ?_
    rintro l ⟨⟩
    exact ⟨rfl, by dsimp only; omega, flag, fun _ => by rw [period]⟩
  | startAt timer alarmTime =>
    have inRange : (alarmTime - softTimerTime s).toNat < 2 ^ 31 - 1 := inRange
    have hahead := ahead_eq_toNat (a := alarmTime) (b := softTimerTime s) (by omega)
    refine sound_replace h apart rfl (by omega) ?_
    rintro l ⟨⟩
    refine ⟨rfl, rfl, ?_, fun one => by cases one⟩
    rw [periodic_iff]
    exact iff_of_false (by omega) (by simp)
  | reset timer =>
    have inRange : ((s.timers timer).period &&& softTimerPeriodMask).toNat < 2 ^ 31 - 1 := inRange
    have hself := ahead_self (softTimerTime s)
    have hahead : ahead (resetAlarm s timer) (softTimerTime s) = _ := ahead_add (by omega)
    refine sound_replace h apart rfl (by omega) ?_
    rintro l ⟨⟩
  | stop timer => exact sound_stop h timer
  | expire x rest loop hlist due => exact sound_expire h loop hlist due apart

omit [DecidableEq τ] in
theorem sound_init (timers : τ → Timer) (updateCount : UInt32) (counter : UInt16) :
    Sound (softTimerInit timers updateCount counter) := by
  refine ⟨?_, nodup_nil, by simp [softTimerInit], List.Pairwise.nil, ?_⟩
  · have htime := toNat_softTimerTime (softTimerInit timers updateCount counter)
    have hstamp := toNat_stamp (updateCount.toNat * 65536 + counter.toNat)
    have hflag : (softTimerInit timers updateCount counter).updateFlag = false := rfl
    apply UInt32.toNat_inj.mp
    rw [htime, hflag]
    change ((updateCount.toNat + 0) * 65536 + counter.toNat) % 2 ^ 32 =
      (stamp (updateCount.toNat * 65536 + counter.toNat)).toNat
    omega
  · rintro x l ⟨⟩

/-- In every run that stays within the bounds, a one-shot timer waits for its alarm or was
posted once and is inactive, and a periodic one was posted once for each of its alarms up
to now, in their order and never before them. -/
theorem handler_posts {timers : τ → Timer} {updateCount : UInt32} {counter : UInt16} {s : SoftTim τ}
    (run : Run step Prompt (softTimerInit timers updateCount counter) s) {x : τ} {l : Life}
    (life : s.ghost.life x = some l) (handler : (s.timers x).handler = true) :
    (l.periodic = false →
      softTimerIsActive s x = true ∧ l.posts = [] ∧ s.ghost.now ≤ l.alarm 1 + 2 ^ 30 ∨
      softTimerIsActive s x = false ∧
        ∃ p, l.posts = [p] ∧ p.alarm = stamp (l.alarm 1) ∧ l.alarm 1 < p.time) ∧
    (l.periodic = true →
      softTimerIsActive s x = true ∧ s.ghost.now ≤ l.alarm (l.posts.length + 1) + 2 ^ 30 ∧
        ∀ k p, l.posts.reverse[k]? = some p →
          p.alarm = stamp (l.alarm (k + 1)) ∧ l.alarm (k + 1) < p.time) := by
  have sound : Sound s :=
    run.invariant Sound (fun _ _ _ h prompt hstep => sound_step h prompt hstep) (sound_init _ _ _)
  have serves := sound.serves x l life handler
  have active : softTimerIsActive s x = true ↔ x ∈ s.list := by simp [softTimerIsActive]
  constructor
  · intro one
    by_cases first : l.posts = []
    · have mem := serves.active.mpr (.inr first)
      have next := serves.next mem
      have range := sound.range x mem
      rw [first] at next
      simp only [length_nil, Nat.zero_add] at next
      exact .inl ⟨active.mpr mem, first, by omega⟩
    · have gone : x ∉ s.list := serves.active.not.mpr (by simp [one, first])
      obtain ⟨p, rest, hposts⟩ := exists_cons_of_ne_nil first
      have hrest : rest = [] := by
        have := serves.once one
        rw [hposts, length_cons] at this
        exact length_eq_zero_iff.mp (by omega)
      subst hrest
      have hp := serves.posts 0 p (by rw [hposts]; rfl)
      exact .inr ⟨by simpa [softTimerIsActive] using gone, p, hposts, hp⟩
  · intro periodic
    have mem := serves.active.mpr (.inl periodic)
    have next := serves.next mem
    have range := sound.range x mem
    exact ⟨active.mpr mem, by omega, serves.posts⟩

instance (s : SoftTim τ) (a : Action τ) : Decidable (Prompt s a) := by
  unfold Prompt InRange Apart
  refine @instDecidableAnd _ _ ?_ ?_
  · split <;> infer_instance
  · split <;> infer_instance

def servedRun : List (Action Bool) :=
  [.start true 4 true 0, .call, .call, .call, .start false 3 false 0, .call] ++
    List.replicate 10 .process ++ List.replicate 3 .tick ++ [.timerAlarm] ++
    List.replicate 4 .tick ++ List.replicate 12 .process

theorem handler_posts_two_timers : ∃ s l l', Run step Prompt sampleTimers s ∧
    s.ghost.life false = some l ∧ l.periodic = false ∧
    softTimerIsActive s false = false ∧ l.posts = [⟨65539, 65543⟩] ∧
    s.ghost.life true = some l' ∧ l'.periodic = true ∧
    softTimerIsActive s true = true ∧ l'.posts = [⟨65540, 65543⟩] ∧ l'.alarm 1 < 65543 := by
  obtain ⟨s, run, h⟩ : ∃ s, Run step Prompt sampleTimers s ∧ _ = _ := by
    refine execIf_observe servedRun
      (fun s => (s.ghost.life false, s.ghost.life true, (s.timers false).handler,
        (s.timers true).handler))
      (some ⟨65536, 3, false, [⟨65539, 65543⟩]⟩, some ⟨65536, 4, true, [⟨65540, 65543⟩]⟩,
        true, true) ?_
    decide +kernel
  simp only [Prod.mk.injEq] at h
  obtain ⟨life, life', handler, handler'⟩ := h
  have one := (handler_posts run life handler).1 rfl
  have all := (handler_posts run life' handler').2 rfl
  refine ⟨s, _, _, run, life, rfl, ?_, rfl, life', rfl, all.1, rfl, (all.2.2 0 _ rfl).2⟩
  exact (one.resolve_left fun waits => absurd waits.2.1 (by simp)).1

def pastRun : List (Action Bool) :=
  [.startAt false 65531, .call, .call, .call] ++ List.replicate 5 .process

/-- Its period has the flag of the periodic timers, so it is posted and stays active. -/
theorem one_shot_rescheduled : ∃ s l, Reach step sampleTimers s ∧
    s.ghost.life false = some l ∧ l.periodic = false ∧ l.posts = [⟨65531, 65536⟩] ∧
    softTimerIsActive s false = true := by
  obtain ⟨s, run, h⟩ : ∃ s, Reach step sampleTimers s ∧ _ = _ := by
    refine exec_observe pastRun (fun s => (s.ghost.life false, softTimerIsActive s false))
      (some ⟨65536, -5, false, [⟨65531, 65536⟩]⟩, true) ?_
    decide +kernel
  simp only [Prod.mk.injEq] at h
  exact ⟨s, _, run, h.1, rfl, rfl, h.2⟩

end SoftTimer
