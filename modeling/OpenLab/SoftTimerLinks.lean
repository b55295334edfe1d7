import OpenLab.LinkedCells
import OpenLab.SoftTimerPosts

/-!
# The linked list of the soft timers

The list of `soft_timer_core.c` on the `next` pointers in the timers themselves, one section under
the mutex or one round of the loop of `process` at a time. It refines the list of `SoftTimer`.
-/

namespace SoftTimerLinks

open Schedules WrapTime LinkedCells Option
open SoftTimer (Timer SoftTim softTimerTime isDue processStep remove_eq periodic_iff insert_perm
  softTimerAIsBeforeB softTimerPeriodMask softTimerPeriodic startPeriod)
open Function (update update_of_ne update_self)

variable {τ : Type} [Fintype τ] [DecidableEq τ]

/-- What an observer writes down: which timers have been started and neither stopped nor
expired as one-shot, and which of them were started as periodic. -/
structure Ghost (τ : Type) where
  pending : τ → Bool
  periodic : τ → Bool

structure Heap (τ : Type) where
  timers : τ → Timer
  next : τ → Option τ
  first : Option τ
  ghost : Ghost τ

/-- No timer is in the list; the memory of the timers is arbitrary. -/
def softTimerInit (timers : τ → Timer) (next : τ → Option τ) : Heap τ where
  timers := timers
  next := next
  first := none
  ghost := ⟨fun _ => false, fun x => (timers x).period &&& softTimerPeriodic ≠ 0⟩

def insert (h : Heap τ) (timer : τ) : Bool × Heap τ :=
  match h.first with
  | none => (true, { h with first := some timer, next := update h.next timer none })
  | some first =>
    if !softTimerAIsBeforeB (h.timers first).alarm (h.timers timer).alarm then
      (true, { h with next := update h.next timer (some first), first := some timer })
    else
      let x := seek h.next
        (fun y => softTimerAIsBeforeB (h.timers y).alarm (h.timers timer).alarm)
        (Fintype.card τ) first
      (false, { h with
        next := update (update h.next timer (h.next x)) x (some timer) })

def remove (h : Heap τ) (timer : τ) : Bool × Heap τ :=
  match h.first with
  | none => (false, h)
  | some first =>
    if first = timer then (true, { h with first := h.next timer })
    else
      let x := seek h.next (fun y => y ≠ timer) (Fintype.card τ) first
      if h.next x = some timer then
        (false, { h with next := update h.next x (h.next timer) })
      else (false, h)

def softTimerIsActive (h : Heap τ) (timer : τ) : Bool :=
  reaches h.next timer (Fintype.card τ) h.first

/-- Remove a timer, fill in its data and insert it again. -/
def replace (h : Heap τ) (timer : τ) (alarm period : UInt32) : Heap τ :=
  let h := (remove h timer).2
  (insert { h with
    next := update h.next timer none
    timers := update h.timers timer
      { h.timers timer with alarm := alarm, period := period } } timer).2

def started (h : Heap τ) (timer : τ) (periodic : Bool) : Heap τ :=
  { h with ghost := ⟨update h.ghost.pending timer true,
    update h.ghost.periodic timer periodic⟩ }

def ended (h : Heap τ) (timer : τ) : Heap τ :=
  { h with ghost := { h.ghost with pending := update h.ghost.pending timer false } }

def softTimerStart (h : Heap τ) (timer : τ) (ticks : UInt32) (periodic : Bool) (now : UInt32) :
    Heap τ :=
  if ticks = 0 ∧ periodic then h
  else started (replace h timer (now + ticks) (startPeriod ticks periodic)) timer periodic

def softTimerStartAt (h : Heap τ) (timer : τ) (alarmTime now : UInt32) : Heap τ :=
  started (replace h timer alarmTime (alarmTime - now)) timer false

def softTimerReset (h : Heap τ) (timer : τ) (now : UInt32) : Heap τ :=
  started (replace h timer (now + ((h.timers timer).period &&& softTimerPeriodMask))
    (h.timers timer).period) timer (h.ghost.periodic timer)

def softTimerStop (h : Heap τ) (timer : τ) : Heap τ := ended (remove h timer).2 timer

def rescheduled (timer : Timer) : Timer :=
  { timer with alarm := timer.alarm + (timer.period &&& softTimerPeriodMask) }

/-- The body of the loop of `process` for the expired first timer `x`. -/
def expire (h : Heap τ) (x : τ) : Heap τ :=
  let timer := h.timers x
  let h := { h with first := h.next x }
  let h :=
    if timer.period &&& softTimerPeriodic ≠ 0 then
      (insert { h with timers := update h.timers x (rescheduled timer) } x).2
    else h
  if h.ghost.periodic x then h else ended h x

def process (h : Heap τ) (now : UInt32) : Heap τ :=
  match h.first with
  | none => h
  | some x => if softTimerAIsBeforeB ((h.timers x).alarm + 2) now then expire h x else h

inductive Action (τ : Type)
  | start (timer : τ) (ticks : UInt32) (periodic : Bool) (now : UInt32)
  | startAt (timer : τ) (alarmTime now : UInt32)
  | stop (timer : τ)
  | reset (timer : τ) (now : UInt32)
  | process (now : UInt32)

def apply (h : Heap τ) : Action τ → Heap τ
  | .start timer ticks periodic now => softTimerStart h timer ticks periodic now
  | .startAt timer alarmTime now => softTimerStartAt h timer alarmTime now
  | .stop timer => softTimerStop h timer
  | .reset timer now => softTimerReset h timer now
  | .process now => process h now

def step (h : Heap τ) (a : Action τ) : Option (Heap τ) := some (apply h a)

/-- The timer that an action is about: the one it names, or the first one for `process`. -/
def named (h : Heap τ) : Action τ → Option τ
  | .start timer _ _ _ | .startAt timer _ _ | .stop timer | .reset timer _ => some timer
  | .process _ => h.first

variable {l : List τ}

omit [DecidableEq τ] in
theorem length_le_card (nodup : l.Nodup) : l.length ≤ Fintype.card τ :=
  nodup.length_le_card

section Refine

variable {h : Heap τ} {l : List τ} {timer : τ}

theorem insert_refines (hc : Chain h.next h.first l) (fresh : timer ∉ l) :
    (insert h timer).1 = (SoftTimer.insert h.timers timer l).1 ∧
      Chain (insert h timer).2.next (insert h timer).2.first
        (SoftTimer.insert h.timers timer l).2 ∧
      (insert h timer).2.timers = h.timers ∧ (insert h timer).2.ghost = h.ghost := by
  unfold insert
  cases hfirst : h.first with
  | none =>
    rw [hfirst, chain_none_iff] at hc
    subst hc
    exact ⟨rfl, chain_single (update_self _ _ _), rfl, rfl⟩
  | some first =>
    have hc' := hc
    rw [hfirst, chain_some_iff] at hc'
    obtain ⟨rest, rfl, tail⟩ := hc'
    dsimp only
    rw [SoftTimer.insert]
    split
    · refine ⟨rfl, ?_, rfl, rfl⟩
      exact (hfirst ▸ hc).push fresh
    · refine ⟨rfl, ?_, rfl, rfl⟩
      rw [SoftTimer.insertLater_eq]
      generalize hp : (fun y => softTimerAIsBeforeB (h.timers y).alarm (h.timers timer).alarm) = p
      have enough : rest.length ≤ Fintype.card τ := Nat.le_of_succ_le (length_le_card hc.nodup)
      obtain ⟨pre, hpre, -⟩ := seek_spec (p := p) tail enough
      generalize seek h.next p (Fintype.card τ) first = x at hpre ⊢
      have hsplit : first :: rest = pre ++ x :: rest.dropWhile p := by
        rw [← List.takeWhile_append_dropWhile (p := p) (l := rest), ← List.cons_append, hpre]
        simp
      rw [hsplit] at hc fresh
      have := hc.splice fresh
      rw [← List.cons_append, hpre, List.append_assoc]
      simpa [hfirst] using this

theorem remove_refines (hc : Chain h.next h.first l) (timer : τ) :
    (remove h timer).1 = (SoftTimer.remove timer l).1 ∧
      Chain (remove h timer).2.next (remove h timer).2.first (l.erase timer) ∧
      (remove h timer).2.timers = h.timers ∧ (remove h timer).2.ghost = h.ghost := by
  rw [← remove_eq]
  unfold remove
  cases hfirst : h.first with
  | none =>
    rw [hfirst, chain_none_iff] at hc
    subst hc
    exact ⟨rfl, by rw [hfirst]; exact .nil, rfl, rfl⟩
  | some first =>
    have hc' := hc
    rw [hfirst, chain_some_iff] at hc'
    obtain ⟨rest, rfl, tail⟩ := hc'
    dsimp only
    rw [SoftTimer.remove]
    by_cases same : first = timer
    · rw [if_pos same, if_pos same]
      exact ⟨rfl, same ▸ tail, rfl, rfl⟩
    · rw [if_neg same, if_neg same]
      have enough : rest.length ≤ Fintype.card τ := Nat.le_of_succ_le (length_le_card hc.nodup)
      obtain ⟨pre, hpre, hnext⟩ := seek_spec (p := fun y => y ≠ timer) tail enough
      generalize seek h.next _ (Fintype.card τ) first = x at hpre hnext ⊢
      have hrest := List.takeWhile_append_dropWhile (p := fun y => decide (y ≠ timer)) (l := rest)
      have before : timer ∉ rest.takeWhile fun y => decide (y ≠ timer) := fun mem => by
        simpa using List.mem_takeWhile_imp mem
      cases hdrop : rest.dropWhile fun y => decide (y ≠ timer) with
      | nil =>
        rw [hdrop, List.append_nil] at hrest
        rw [hdrop] at hnext
        rw [hrest] at before
        rw [if_neg (by simp [hnext]), List.erase_of_not_mem before]
        exact ⟨rfl, hc, rfl, rfl⟩
      | cons y post =>
        -- The loop stops at the cell in front of the timer.
        obtain rfl : y = timer := by
          have := List.head?_dropWhile_not (fun y => decide (y ≠ timer)) rest
          rw [hdrop] at this
          simpa using this
        have hnext' : h.next x = some y := by rw [hnext, hdrop]; rfl
        rw [if_pos hnext']
        have hsplit : first :: rest = pre ++ x :: y :: post := by
          rw [← hrest, ← List.cons_append, hpre, hdrop]
          simp
        have herase : first :: rest.erase y = pre ++ x :: post := by
          rw [← hrest, hdrop, List.erase_append_right _ before, List.erase_cons_head,
            ← List.cons_append, hpre]
          simp
        rw [hfirst, hsplit] at hc
        refine ⟨rfl, ?_, rfl, rfl⟩
        rw [herase]
        exact hc.unlink

theorem isActive_iff (hc : Chain h.next h.first l) (timer : τ) :
    softTimerIsActive h timer = true ↔ timer ∈ l :=
  hc.reaches_iff (length_le_card hc.nodup)

def refilled (timers : τ → Timer) (timer : τ) (alarm period : UInt32) : τ → Timer :=
  update timers timer { timers timer with alarm := alarm, period := period }

theorem replace_refines (hc : Chain h.next h.first l) (timer : τ) (alarm period : UInt32) :
    (replace h timer alarm period).timers = refilled h.timers timer alarm period ∧
      (replace h timer alarm period).ghost = h.ghost ∧
      Chain (replace h timer alarm period).next (replace h timer alarm period).first
        (SoftTimer.insert (refilled h.timers timer alarm period) timer (l.erase timer)).2 := by
  obtain ⟨-, chain, timers, ghost⟩ := remove_refines hc timer
  have fresh : timer ∉ l.erase timer := hc.nodup.not_mem_erase
  have chain' : Chain (update (remove h timer).2.next timer none)
      (remove h timer).2.first (l.erase timer) :=
    chain.frame fun a ha => update_of_ne (ne_of_mem_of_not_mem ha fresh) _ _
  unfold replace refilled
  dsimp only
  rw [timers]
  obtain ⟨-, hchain, htimers, hghost⟩ := insert_refines (h := { (remove h timer).2 with
    next := update (remove h timer).2.next timer none
    timers := refilled h.timers timer alarm period }) chain' fresh
  exact ⟨htimers, hghost.trans ghost, hchain⟩

end Refine

inductive Edit (timers timers' : τ → Timer) (l l' : List τ) (timer : τ) : Prop
  | place (data : Timer) : timers' = update timers timer data →
      l' = (SoftTimer.insert timers' timer (l.erase timer)).2 → Edit timers timers' l l' timer
  | take : timers' = timers → l' = l.erase timer → Edit timers timers' l l' timer

section Edit

variable {h : Heap τ} {l l' : List τ} {timer : τ} {x : τ} {rest : List τ}
  {timers timers' : τ → Timer}

theorem replace_edit (hc : Chain h.next h.first l) (timer : τ) (alarm period : UInt32) :
    ∃ l', Chain (replace h timer alarm period).next (replace h timer alarm period).first l' ∧
      timer ∈ l' ∧ Edit h.timers (replace h timer alarm period).timers l l' timer := by
  obtain ⟨timers, -, chain⟩ := replace_refines hc timer alarm period
  refine ⟨_, chain, ?_, .place _ timers (by rw [timers])⟩
  rw [(insert_perm _ _ _).mem_iff]
  exact List.mem_cons_self

theorem stop_edit (hc : Chain h.next h.first l) (timer : τ) :
    Chain (softTimerStop h timer).next (softTimerStop h timer).first (l.erase timer) ∧
      Edit h.timers (softTimerStop h timer).timers l (l.erase timer) timer := by
  obtain ⟨-, chain, timers, -⟩ := remove_refines hc timer
  exact ⟨chain, .take timers rfl⟩

theorem expire_refines (hc : Chain h.next (some x) (x :: rest)) :
    if (h.timers x).period &&& softTimerPeriodic ≠ 0 then
      (expire h x).timers = update h.timers x (rescheduled (h.timers x)) ∧
        Chain (expire h x).next (expire h x).first
          (SoftTimer.insert (update h.timers x (rescheduled (h.timers x))) x rest).2
    else (expire h x).timers = h.timers ∧ Chain (expire h x).next (expire h x).first rest := by
  have fresh : x ∉ rest := (List.nodup_cons.mp hc.nodup).1
  unfold expire
  dsimp only
  split
  · obtain ⟨-, chain, timers, -⟩ := insert_refines (h := { h with
      first := h.next x
      timers := update h.timers x (rescheduled (h.timers x)) }) hc.tail fresh
    split <;> exact ⟨timers, chain⟩
  · split
    · exact ⟨rfl, hc.tail⟩
    · exact ⟨rfl, hc.tail⟩

theorem expire_ghost (hc : Chain h.next (some x) (x :: rest)) :
    (expire h x).ghost.periodic = h.ghost.periodic ∧
      (expire h x).ghost.pending = if h.ghost.periodic x then h.ghost.pending
        else update h.ghost.pending x false := by
  have fresh : x ∉ rest := (List.nodup_cons.mp hc.nodup).1
  unfold expire
  dsimp only
  split
  · obtain ⟨-, -, -, ghost⟩ := insert_refines (h := { h with
      first := h.next x
      timers := update h.timers x (rescheduled (h.timers x)) }) hc.tail fresh
    rw [ghost]
    split
    · rw [ghost]
      exact ⟨rfl, rfl⟩
    · unfold ended
      rw [ghost]
      exact ⟨rfl, rfl⟩
  · split
    · exact ⟨rfl, rfl⟩
    · exact ⟨rfl, rfl⟩

theorem expire_edit (hc : Chain h.next (some x) (x :: rest)) :
    ∃ l', Chain (expire h x).next (expire h x).first l' ∧
      (x ∈ l' ↔ (h.timers x).period &&& softTimerPeriodic ≠ 0) ∧
      Edit h.timers (expire h x).timers (x :: rest) l' x := by
  have refines := expire_refines hc
  have herase : (x :: rest).erase x = rest := List.erase_cons_head x rest
  split at refines
  · next flag =>
    obtain ⟨timers, chain⟩ := refines
    refine ⟨_, chain, iff_of_true ?_ flag, .place _ timers (by rw [herase, timers])⟩
    rw [(insert_perm _ _ _).mem_iff]
    exact List.mem_cons_self
  · next flag =>
    obtain ⟨timers, chain⟩ := refines
    exact ⟨_, chain, iff_of_false (List.nodup_cons.mp hc.nodup).1 flag, .take timers herase.symm⟩

theorem process_cases (h : Heap τ) (now : UInt32) :
    process h now = h ∨ ∃ x, h.first = some x ∧ process h now = expire h x := by
  unfold process
  cases hfirst : h.first with
  | none => exact .inl rfl
  | some x =>
    dsimp only
    split
    · exact .inr ⟨x, rfl, rfl⟩
    · exact .inl rfl

theorem apply_edit (hc : Chain h.next h.first l) (a : Action τ) :
    apply h a = h ∨ ∃ timer l', named h a = some timer ∧
      Chain (apply h a).next (apply h a).first l' ∧
          Edit h.timers (apply h a).timers l l' timer := by
  cases a with
  | start timer ticks periodic now =>
    by_cases rejected : ticks = 0 ∧ periodic
    · exact .inl (if_pos rejected)
    · obtain ⟨l', chain, -, edit⟩ :=
        replace_edit hc timer (now + ticks) (startPeriod ticks periodic)
      right
      rw [apply, softTimerStart, if_neg rejected]
      exact ⟨timer, l', rfl, chain, edit⟩
  | startAt timer alarmTime now =>
    obtain ⟨l', chain, -, edit⟩ := replace_edit hc timer alarmTime (alarmTime - now)
    exact .inr ⟨timer, l', rfl, chain, edit⟩
  | stop timer =>
    obtain ⟨chain, edit⟩ := stop_edit hc timer
    exact .inr ⟨timer, _, rfl, chain, edit⟩
  | reset timer now =>
    obtain ⟨l', chain, -, edit⟩ := replace_edit hc timer
      (now + ((h.timers timer).period &&& softTimerPeriodMask)) (h.timers timer).period
    exact .inr ⟨timer, l', rfl, chain, edit⟩
  | process now =>
    rcases process_cases h now with same | ⟨x, hfirst, expires⟩
    · exact .inl same
    · rw [hfirst, chain_some_iff] at hc
      obtain ⟨rest, rfl, tail⟩ := hc
      obtain ⟨l', chain, -, edit⟩ := expire_edit (.cons tail)
      right
      rw [apply, expires]
      exact ⟨x, l', hfirst, chain, edit⟩

omit [Fintype τ] in
theorem Edit.timers_eq (edit : Edit timers timers' l l' timer) (ne : x ≠ timer) :
    timers' x = timers x := by
  cases edit with
  | place data htimers _ => rw [htimers, update_of_ne ne]
  | take htimers _ => rw [htimers]

omit [Fintype τ] in
theorem Edit.others (edit : Edit timers timers' l l' timer) (nodup : l.Nodup) :
    l'.filter (· ≠ timer) = l.filter (· ≠ timer) := by
  have herase : (l.erase timer).filter (· ≠ timer) = l.filter (· ≠ timer) := by
    rw [nodup.erase_eq_filter, List.filter_filter]
    congr 1
    funext x
    simp [bne_iff_ne]
  cases edit with
  | take _ hlist => rw [hlist, herase]
  | place data _ hlist =>
    rw [hlist, SoftTimer.insert_eq, List.filter_append, List.filter_cons_of_neg (by simp),
      ← List.filter_append, List.takeWhile_append_dropWhile, herase]

omit [Fintype τ] in
theorem Edit.mem_iff (edit : Edit timers timers' l l' timer) (nodup : l.Nodup) (ne : x ≠ timer) :
    x ∈ l' ↔ x ∈ l := by
  have := congrArg (x ∈ ·) (edit.others nodup)
  simpa [ne] using this

end Edit

/-- All alarms of the list lie in a window of less than half of the range. -/
def Windowed (h : Heap τ) : Prop :=
  ∃ base, ∀ x, softTimerIsActive h x = true → ((h.timers x).alarm - base).toNat < 2 ^ 31

/-- The pointers form a list, and it is sorted in wrap-around order. -/
structure Linked (h : Heap τ) (l : List τ) : Prop where
  chain : Chain h.next h.first l
  sorted : l.Pairwise fun x y => 0 ≤ ahead (h.timers y).alarm (h.timers x).alarm

variable {h : Heap τ}

theorem linked_step (linked : Linked h l) (a : Action τ) (windowed : Windowed (apply h a)) :
    ∃ l', Linked (apply h a) l' := by
  have nodup := linked.chain.nodup
  rcases apply_edit linked.chain a with same | ⟨timer, l', -, chain, edit⟩
  · exact ⟨l, by rw [same]; exact linked⟩
  · refine ⟨l', chain, ?_⟩
    have others : ∀ x ∈ l.erase timer, x ≠ timer := fun x hx same =>
      nodup.not_mem_erase (same ▸ hx)
    have sorted : (l.erase timer).Pairwise fun x y =>
        0 ≤ ahead ((apply h a).timers y).alarm ((apply h a).timers x).alarm := by
      refine (linked.sorted.sublist List.erase_sublist).imp_of_mem fun {x y} hx hy hxy => ?_
      rw [edit.timers_eq (others x hx), edit.timers_eq (others y hy)]
      exact hxy
    cases edit with
    | take _ hlist =>
      rw [hlist]
      exact sorted
    | place data _ hlist =>
      obtain ⟨base, window⟩ := windowed
      -- The position in the window is a key that the comparisons agree with.
      have hkey : ∀ x ∈ l', (((apply h a).timers x).alarm - base).toNat < 2 ^ 31 := fun x hx =>
        window x ((isActive_iff chain x).mpr hx)
      have hmem : ∀ x, x ∈ l' ↔ x = timer ∨ x ∈ l.erase timer := fun x => by
        rw [hlist, (insert_perm _ _ _).mem_iff, List.mem_cons]
      have htimer := hkey timer ((hmem timer).mpr (.inl rfl))
      have result := @SoftTimer.insert_sorted _ (apply h a).timers timer (l.erase timer)
        (fun x => (((apply h a).timers x).alarm - base).toNat)
        (fun x hx => ?_) (sorted.imp_of_mem fun {x y} hx hy hxy => ?_)
      · rw [← hlist] at result
        refine result.imp_of_mem fun {x y} hx hy hxy => ?_
        rw [ahead_window (hkey y hy) (hkey x hx)]
        omega
      · rw [SoftTimer.isBefore_iff, ahead_window htimer (hkey x ((hmem x).mpr (.inr hx)))]
        omega
      · rw [ahead_window (hkey y ((hmem y).mpr (.inr hy))) (hkey x ((hmem x).mpr (.inr hx)))] at hxy
        omega

/-- A one-shot timer is started with a period that leaves the flag of the periodic timers
clear: less than half of the range ahead, and not for a time that is past. -/
def OneShot : Action τ → Prop
  | .start _ ticks periodic _ => periodic = false → ticks.toNat < 2 ^ 31
  | .startAt _ alarmTime now => (alarmTime - now).toNat < 2 ^ 31
  | _ => True

structure Intact (h : Heap τ) (l : List τ) : Prop where
  members : ∀ x, x ∈ l ↔ h.ghost.pending x = true
  kinds : ∀ x, (h.timers x).period &&& softTimerPeriodic ≠ 0 ↔ h.ghost.periodic x = true

omit [Fintype τ] in
theorem Intact.edit {h'} {l'} {timer} (intact : Intact h l) (nodup : l.Nodup)
    (edit : Edit h.timers h'.timers l l' timer)
    (pending : ∀ x, x ≠ timer → h'.ghost.pending x = h.ghost.pending x)
    (periodic : ∀ x, x ≠ timer → h'.ghost.periodic x = h.ghost.periodic x)
    (member : timer ∈ l' ↔ h'.ghost.pending timer = true)
    (kind : (h'.timers timer).period &&& softTimerPeriodic ≠ 0 ↔ h'.ghost.periodic timer = true) :
    Intact h' l' := by
  constructor
  · intro x
    by_cases same : x = timer
    · rw [same]
      exact member
    · rw [edit.mem_iff nodup same, pending x same]
      exact intact.members x
  · intro x
    by_cases same : x = timer
    · rw [same]
      exact kind
    · rw [edit.timers_eq same, periodic x same]
      exact intact.kinds x

theorem intact_started (hc : Chain h.next h.first l) (intact : Intact h l) (timer : τ)
    (alarm period : UInt32) (periodic : Bool)
    (kind : period &&& softTimerPeriodic ≠ 0 ↔ periodic = true) :
    ∃ l', Chain (started (replace h timer alarm period) timer periodic).next
        (started (replace h timer alarm period) timer periodic).first l' ∧
      Intact (started (replace h timer alarm period) timer periodic) l' := by
  obtain ⟨l', chain, mem, edit⟩ := replace_edit hc timer alarm period
  obtain ⟨timers, ghost, -⟩ := replace_refines hc timer alarm period
  refine ⟨l', chain, intact.edit hc.nodup edit (fun x ne => ?_) (fun x ne => ?_) ?_ ?_⟩
  · rw [started, ghost]
    exact update_of_ne ne _ _
  · rw [started, ghost]
    exact update_of_ne ne _ _
  · exact iff_of_true mem (by simp [started])
  · have hperiod : ((replace h timer alarm period).timers timer).period = period := by
      rw [timers, refilled, update_self]
    have hkind : (started (replace h timer alarm period) timer periodic).ghost.periodic timer =
        periodic := by simp [started]
    rw [hkind, started, hperiod]
    exact kind

theorem startPeriod_flag {ticks} {periodic}
    (h : periodic = false → ticks.toNat < 2 ^ 31) :
    startPeriod ticks periodic &&& softTimerPeriodic ≠ 0 ↔ periodic = true := by
  cases periodic with
  | true =>
    refine iff_of_true ((periodic_iff _).mpr ?_) rfl
    exact Nat.right_le_or
  | false =>
    have hval : startPeriod ticks false = ticks := UInt32.or_zero
    have hlt := h rfl
    rw [hval, periodic_iff]
    exact iff_of_false (by omega) (by simp)

theorem intact_step (hc : Chain h.next h.first l) (intact : Intact h l) {a}
    (oneShot : OneShot a) :
    ∃ l', Chain (apply h a).next (apply h a).first l' ∧ Intact (apply h a) l' := by
  cases a with
  | start timer ticks periodic now =>
    rw [apply, softTimerStart]
    split
    · exact ⟨l, hc, intact⟩
    · exact intact_started hc intact timer _ _ periodic (startPeriod_flag oneShot)
  | startAt timer alarmTime now =>
    have oneShot : (alarmTime - now).toNat < 2 ^ 31 := oneShot
    refine intact_started hc intact timer _ _ false ?_
    rw [periodic_iff]
    exact iff_of_false (by omega) (by simp)
  | stop timer =>
    obtain ⟨chain, edit⟩ := stop_edit hc timer
    obtain ⟨-, -, timers, ghost⟩ := remove_refines hc timer
    rw [apply]
    refine ⟨_, chain, intact.edit hc.nodup edit (fun x ne => ?_) (fun x ne => ?_) ?_ ?_⟩
    · rw [softTimerStop, ended, ghost]
      exact update_of_ne ne _ _
    · rw [softTimerStop, ended, ghost]
    · have hend : (softTimerStop h timer).ghost.pending timer = false := by
        simp [softTimerStop, ended]
      rw [hend]
      exact iff_of_false hc.nodup.not_mem_erase (by simp)
    · rw [softTimerStop, ended, timers, ghost]
      exact intact.kinds timer
  | reset timer now => exact intact_started hc intact timer _ _ _ (intact.kinds timer)
  | process now =>
    rcases process_cases h now with same | ⟨x, hfirst, expires⟩
    · rw [apply, same]
      exact ⟨l, hc, intact⟩
    · rw [hfirst, chain_some_iff] at hc
      obtain ⟨rest, rfl, tail⟩ := hc
      obtain ⟨l', chain, mem, edit⟩ := expire_edit (.cons tail)
      obtain ⟨periodic, pending⟩ := expire_ghost (.cons tail)
      have first := (intact.members x).mp List.mem_cons_self
      rw [apply, expires]
      refine ⟨l', chain, intact.edit (Chain.cons tail).nodup edit (fun y ne => ?_)
        (fun y ne => by rw [periodic]) ?_ ?_⟩
      · rw [pending]
        split
        · rfl
        · exact update_of_ne ne _ _
      · rw [mem, intact.kinds x, pending]
        split
        · next hp => exact iff_of_true hp first
        · next hp => exact iff_of_false hp (by simp)
      · rw [periodic, ← intact.kinds x]
        have refines := expire_refines (.cons tail)
        split at refines
        · rw [refines.1, update_self, rescheduled]
        · rw [refines.1]

/-- The pointers form the list of the soft timers. -/
structure Represents (h : Heap τ) (s : SoftTim τ) : Prop where
  timers : h.timers = s.timers
  chain : Chain h.next h.first s.list

/-- What a step of the soft timers does to the list. -/
def listAction (s : SoftTim τ) : SoftTimer.Action τ → Option (Action τ)
  | .start timer ticks periodic lag =>
    some (.start timer ticks periodic (softTimerTime s - lag))
  | .startAt timer alarmTime => some (.startAt timer alarmTime (softTimerTime s))
  | .stop timer => some (.stop timer)
  | .reset timer => some (.reset timer (softTimerTime s))
  | .process => if s.pc = .loop then some (.process (softTimerTime s)) else none
  | _ => none

section Represents

variable {h : Heap τ} {s s' : SoftTim τ}

omit [Fintype τ] [DecidableEq τ] in
theorem Represents.unchanged (rep : Represents h s) (same : SoftTimer.Unchanged s s') :
    Represents h s' :=
  ⟨by rw [rep.timers, same.timers], by rw [same.list]; exact rep.chain⟩

theorem represents_replace (rep : Represents h s) (timer : τ) (alarm period : UInt32)
    (life : Option SoftTimer.Life) (periodic : Bool) :
    Represents (started (replace h timer alarm period) timer periodic)
      (SoftTimer.replace s timer alarm period life) := by
  obtain ⟨timers, -, chain⟩ := replace_refines rep.chain timer alarm period
  rw [rep.timers] at timers chain
  refine ⟨timers, ?_⟩
  rw [← remove_eq] at chain
  exact chain

theorem represents_expire (rep : Represents h s) {x} {rest} (hlist : s.list = x :: rest) :
    Represents (expire h x) (SoftTimer.expire s x rest) := by
  have hc := rep.chain
  rw [hlist] at hc
  have hfirst : h.first = some x := hc.head_eq
  have refines := expire_refines (h := h) (hfirst ▸ hc)
  have list := SoftTimer.expire_list s x rest
  obtain ⟨-, -, timers, -⟩ := SoftTimer.expire_effect s x rest
  rw [rep.timers] at refines
  split at refines
  · next flag =>
    rw [if_pos flag] at list timers
    refine ⟨refines.1.trans timers.symm, ?_⟩
    rw [list, timers]
    exact refines.2
  · next flag =>
    rw [if_neg flag] at list timers
    refine ⟨refines.1.trans timers.symm, ?_⟩
    rw [list]
    exact refines.2

theorem represents_process (rep : Represents h s) (hstep : processStep s = some s') :
    Represents (if s.pc = .loop then process h (softTimerTime s) else h) s' := by
  by_cases loop : s.pc = .loop
  · rw [if_pos loop]
    simp only [processStep, loop] at hstep
    have hc := rep.chain
    split at hstep
    · next hlist =>
      cases hstep
      rw [hlist] at hc
      have hfirst : h.first = none := hc.head_eq
      have same : process h (softTimerTime s) = h := by simp [process, hfirst]
      rw [same]
      exact ⟨rep.timers, rep.chain⟩
    · next x rest hlist =>
      rw [hlist] at hc
      have hfirst : h.first = some x := hc.head_eq
      simp only [process, hfirst, rep.timers]
      by_cases due : isDue s x = true
      · rw [if_pos due] at hstep
        cases hstep
        rw [isDue] at due
        rw [if_pos due]
        exact represents_expire rep hlist
      · rw [if_neg due] at hstep
        cases hstep
        rw [isDue] at due
        rw [if_neg due]
        exact ⟨rep.timers, rep.chain⟩
  · rw [if_neg loop]
    cases SoftTimer.processStep_change hstep with
    | none same => exact rep.unchanged same
    | expire x rest pc => exact absurd pc loop

theorem represents_step {a} (rep : Represents h s)
    (hstep : SoftTimer.step s a = some s') :
    Represents ((listAction s a).elim h (apply h)) s' := by
  cases a with
  | start timer ticks periodic lag =>
    obtain ⟨-, heq⟩ := ite_none_right_eq_some.mp hstep
    obtain rfl := some.inj heq
    simp only [listAction, Option.elim, apply, softTimerStart, SoftTimer.softTimerStart]
    split
    · exact rep
    · exact represents_replace rep timer _ _ _ periodic
  | startAt timer alarmTime =>
    obtain ⟨-, heq⟩ := ite_none_right_eq_some.mp hstep
    obtain rfl := some.inj heq
    exact represents_replace rep timer _ _ _ false
  | stop timer =>
    obtain ⟨-, heq⟩ := ite_none_right_eq_some.mp hstep
    obtain rfl := some.inj heq
    obtain ⟨-, chain, timers, -⟩ := remove_refines rep.chain timer
    rw [← remove_eq] at chain
    exact ⟨timers.trans rep.timers, chain⟩
  | reset timer =>
    obtain ⟨-, heq⟩ := ite_none_right_eq_some.mp hstep
    obtain rfl := some.inj heq
    have := represents_replace rep timer (SoftTimer.resetAlarm s timer) (s.timers timer).period none
      (h.ghost.periodic timer)
    simp only [listAction, Option.elim, apply, softTimerReset, rep.timers]
    exact this
  | process =>
    have := represents_process rep hstep
    simp only [listAction]
    split
    · next loop =>
      rw [if_pos loop] at this
      exact this
    · next loop =>
      rw [if_neg loop] at this
      exact this
  | call =>
    obtain ⟨call, -, rfl⟩ := map_eq_some_iff.mp hstep
    exact rep.unchanged (SoftTimer.unchanged_callStep s call)
  | timerAlarm =>
    obtain ⟨-, heq⟩ := ite_none_right_eq_some.mp hstep
    obtain rfl := some.inj heq
    exact rep.unchanged (SoftTimer.unchanged_timerAlarm s)
  | softTimerUpdate =>
    obtain ⟨flag, heq⟩ := ite_none_right_eq_some.mp hstep
    obtain rfl := some.inj heq
    exact rep.unchanged (SoftTimer.unchanged_softTimerUpdate flag)
  | tick =>
    obtain ⟨-, heq⟩ := ite_none_left_eq_some.mp hstep
    obtain rfl := some.inj heq
    exact ⟨rep.timers, rep.chain⟩

theorem run_represented {timers} {next} {updateCount}
    {counter} (run : Reach SoftTimer.step
      (SoftTimer.softTimerInit timers updateCount counter) s) :
    ∃ h, Reach step (softTimerInit timers next) h ∧ Represents h s := by
  induction run with
  | start => exact ⟨_, .start, rfl, .nil⟩
  | @next t u a _ _ hstep ih =>
    obtain ⟨h, reach, rep⟩ := ih
    have rep' := represents_step rep hstep
    cases hact : listAction t a with
    | none =>
      rw [hact] at rep'
      exact ⟨h, reach, rep'⟩
    | some b =>
      rw [hact] at rep'
      exact ⟨apply h b, .next b reach trivial rfl, rep'⟩

end Represents

theorem linked_run {timers} {next}
    (run : Run step (fun h a => Windowed (apply h a)) (softTimerInit timers next) h) :
    ∃ l, Linked h l := by
  refine run.invariant (fun h => ∃ l, Linked h l) ?_ ⟨[], .nil, .nil⟩
  rintro t a u ⟨l, linked⟩ windowed hstep
  cases hstep
  exact linked_step linked a windowed

theorem intact_run {timers} {next}
    (run : Run step (fun _ a => OneShot a) (softTimerInit timers next) h) :
    ∃ l, Chain h.next h.first l ∧ Intact h l := by
  refine run.invariant (fun h => ∃ l, Chain h.next h.first l ∧ Intact h l) ?_ ⟨[], .nil, ?_, ?_⟩
  · rintro t a u ⟨l, hc, intact⟩ oneShot hstep
    cases hstep
    exact intact_step hc intact oneShot
  · simp [softTimerInit]
  · simp [softTimerInit]

/-- In every run that keeps the alarms in a window and starts one-shot timers only for
times ahead, the pointers form a sorted list of the pending timers, and an action changes
only the timer it is about. -/
theorem list_integrity {timers : τ → Timer} {next : τ → Option τ} {h : Heap τ}
    (run : Run step (fun h a => Windowed (apply h a) ∧ OneShot a) (softTimerInit timers next) h) :
    ∃ l, Chain h.next h.first l ∧ l.Nodup ∧
      (l.Pairwise fun x y => 0 ≤ ahead (h.timers y).alarm (h.timers x).alarm) ∧
      (∀ x, softTimerIsActive h x = true ↔ x ∈ l) ∧ (∀ x, x ∈ l ↔ h.ghost.pending x = true) ∧
      ∀ a l', Chain (apply h a).next (apply h a).first l' →
        (∀ x, named h a ≠ some x → (apply h a).timers x = h.timers x) ∧
        l'.filter (named h a ≠ some ·) = l.filter (named h a ≠ some ·) := by
  obtain ⟨l, hc, sorted⟩ := linked_run (run.weaken fun _ _ ok => ok.1)
  obtain ⟨l₁, hc₁, intact⟩ := intact_run (run.weaken fun _ _ ok => ok.2)
  obtain rfl := hc.unique hc₁
  refine ⟨l, hc, hc.nodup, sorted, isActive_iff hc, intact.members, fun a l' hc' => ?_⟩
  rcases apply_edit hc a with same | ⟨timer, l₂, hnamed, hc₂, edit⟩
  · rw [same] at hc' ⊢
    obtain rfl := hc.unique hc'
    exact ⟨fun _ _ => rfl, rfl⟩
  · obtain rfl := hc'.unique hc₂
    rw [hnamed]
    refine ⟨fun x ne => edit.timers_eq fun e => ne (by rw [e]), ?_⟩
    simpa [eq_comm] using edit.others hc.nodup

def sampleHeap : Heap Bool := softTimerInit (fun _ => ⟨0, 0, true⟩) (fun _ => none)

def Early (h : Heap Bool) (a : Action Bool) : Prop :=
  ∀ x, softTimerIsActive (apply h a) x = true → ((apply h a).timers x).alarm.toNat < 2 ^ 31

instance (h : Heap Bool) (a : Action Bool) : Decidable (Early h a) :=
  inferInstanceAs (Decidable (∀ _, _ → _))

instance (a : Action Bool) : Decidable (OneShot a) := by
  unfold OneShot
  split <;> infer_instance

theorem Early.windowed {h} {a} (early : Early h a) :
    Windowed (apply h a) :=
  ⟨0, fun x hx => by rw [UInt32.sub_zero]; exact early x hx⟩

theorem list_integrity_two_timers :
    ∃ h, Run step (fun h a => Windowed (apply h a) ∧ OneShot a) sampleHeap h ∧
      h.ghost.pending true = true ∧ softTimerIsActive h true = true ∧
      h.ghost.pending false = false ∧ softTimerIsActive h false = false := by
  -- A periodic timer expires twice and a one-shot timer between.
  obtain ⟨h, run, hp⟩ : ∃ h, Run step (fun h a => Early h a ∧ OneShot a) sampleHeap h ∧ _ = _ := by
    refine execIf_observe [.start false 10 false 100, .start true 5 true 100,
      .process 120, .process 120,
      .process 120, .stop false]
      (fun h => (h.ghost.pending true, h.ghost.pending false)) (true, false) ?_
    decide +kernel
  obtain ⟨hpt, hpf⟩ := Prod.mk.inj hp
  have run : Run step (fun h a => Windowed (apply h a) ∧ OneShot a) sampleHeap h :=
    run.weaken fun _ _ ok => ⟨ok.1.windowed, ok.2⟩
  obtain ⟨l, -, -, -, active, members, -⟩ := list_integrity run
  refine ⟨h, run, hpt, ?_, hpf, ?_⟩
  · exact (active true).mpr ((members true).mpr hpt)
  · apply Bool.eq_false_iff.mpr
    intro hact
    have := (members false).mp ((active false).mp hact)
    rw [hpf] at this
    cases this

/-- A one-shot timer that is started for five ticks ago expires and stays in the list. -/
theorem expired_one_shot_linked :
    ∃ h, Run step (fun h a => Windowed (apply h a)) sampleHeap h ∧
      h.ghost.periodic false = false ∧ h.ghost.pending false = false ∧
      softTimerIsActive h false = true := by
  obtain ⟨h, run, hp⟩ : ∃ h, Run step Early sampleHeap h ∧ _ = _ := by
    refine execIf_observe [.startAt false 0 5, .process 5]
      (fun h => (h.ghost.periodic false, h.ghost.pending false, softTimerIsActive h false))
      (false, false, true) ?_
    decide +kernel
  simp only [Prod.mk.injEq] at hp
  exact ⟨h, run.weaken fun _ _ early => early.windowed, hp⟩

end SoftTimerLinks
