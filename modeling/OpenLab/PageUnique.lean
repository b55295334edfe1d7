import OpenLab.PageDirty

/-!
# One buffer per page

Which buffer carries which page. A task that has not found its page reserves a buffer and does not
look again, so a second buffer may get the page.
-/

namespace PageTasks

open LockTable Schedules
open PageCache (Block Buffer Call Attempt fsPoolSize pageSize maxRetry maxUse cpy bytes)
open PageCache.Cache (used)
open Function (update update_of_ne update_self)

variable {ι : Type}

def OnePerPage (pool : Fin fsPoolSize → Buffer) : Prop :=
  ∀ i k, (pool i).use ≠ 0 → (pool k).use ≠ 0 → (pool i).page = (pool k).page → i = k

/-- The buffer that the next step of the task puts into use for the page of its call. -/
def tags (s : Fs ι) (t : ι) : Option (Fin fsPoolSize) :=
  match (s.tasks t).pc, (s.tasks t).call with
  -- A buffer that was never used has page 0, and `fs_write` does not look at `use`.
  | .lookup i, .write page _ _ =>
    if h : i < fsPoolSize then
      if page = (s.pool ⟨i, h⟩).page ∧ (s.pool ⟨i, h⟩).dirty = false ∧ (s.pool ⟨i, h⟩).use = 0 then
        some ⟨i, h⟩
      else none
    else none
  | .reserve i best _, .read _ _ _ => if fsPoolSize ≤ i then best else none
  | .reserve i best _, .write _ _ _ =>
    if fsPoolSize ≤ i ∧ (s.tasks t).s = pageSize then best else none
  | .loaded j true, .write _ _ _ => if (s.tasks t).s ≠ 0 then some j else none
  | _, _ => none

/-- No other buffer carries the page of a task that puts a buffer into use for it. -/
def Rechecked (s : Fs ι) : Action ι → Prop
  | .run t _ => ∀ j, tags s t = some j → ∀ k, k ≠ j → (s.pool k).use ≠ 0 →
      (s.pool k).page ≠ (s.tasks t).call.page
  | _ => True

theorem used_ne_zero (b : Buffer) : used b ≠ 0 := by
  rw [used]
  split
  · omega
  · have : 0 < maxUse := by decide
    omega

/-- Dirty buffers, and those that a task is about to write to, have been used. -/
structure InUse (s : Fs ι) : Prop where
  dirty : ∀ i, (s.pool i).dirty = true → (s.pool i).use ≠ 0
  content : ∀ t i, (s.tasks t).pc = .content i → (s.pool i).use ≠ 0

theorem inUse_init (sdhc : Bool) (content : Fin fsPoolSize → Block) (medium : UInt32 → Block) :
    InUse (Fs.init sdhc content medium : Fs ι) where
  dirty i h := by cases h
  content t i h := by cases h

variable {s u : Fs ι} {a : Action ι} {k : Fin fsPoolSize} {t : ι}

theorem Fills.tags {j} {page} {offset} {data}
    (fills : Fills (s.tasks t) j) (call : (s.tasks t).call = .write page offset data) :
    tags s t = some j := by
  rcases fills with ⟨i, useMin, all, pc, whole⟩ | ⟨pc, some_bytes⟩
  · simp [PageTasks.tags, pc, call, all, whole]
  · simp [PageTasks.tags, pc, call, some_bytes]

variable [DecidableEq ι] {ok : Fs ι → Action ι → Prop} {attempt : Attempt}

theorem stays_used (change : Change s a u) (was : (s.pool k).use ≠ 0) : (u.pool k).use ≠ 0 := by
  have put {i : Fin fsPoolSize} {b : Buffer} (pool : u.pool = update s.pool i b)
      (new : i = k → b.use ≠ 0) : (u.pool k).use ≠ 0 := by
    rw [pool]
    rcases eq_or_ne i k with rfl | ne
    · rw [update_self]
      exact new rfl
    · rwa [update_of_ne ne.symm]
  cases change with
  | readHit | writeHit | rewrites | dirties => exact put rfl fun _ => used_ne_zero _
  | tagRead | tagWrite | accepted => exact put rfl fun _ => Nat.one_ne_zero
  | loadDone | loadBroken => exact put rfl fun eq => eq ▸ was
  | @better _ _ _ best | @scanBetter _ _ best => cases best <;> exact was
  | enter | moves | waits | command | delivers | fails | drops | registers | wakes | leaves | claims
  | scanNext | lost | chooses | locks | refused | stored | broken | givesBack | releases
  | transfers => exact was

theorem used_change (flagged : Flagged s) (h : InUse s) (change : Change s a u)
    (inUse : (u.pool k).use ≠ 0) :
    (s.pool k).use ≠ 0 ∧ (u.pool k).page = (s.pool k).page ∨
      ∃ t attempt, a = .run t attempt ∧ tags s t = some k ∧
        (u.pool k).page = (s.tasks t).call.page := by
  -- The step puts `b` into buffer `i`.
  have put {i : Fin fsPoolSize} {b : Buffer} (pool : u.pool = update s.pool i b)
      (new : i = k → b.use ≠ 0 → (s.pool k).use ≠ 0 ∧ b.page = (s.pool k).page ∨
        ∃ t attempt, a = .run t attempt ∧ tags s t = some k ∧ b.page = (s.tasks t).call.page) :
      (s.pool k).use ≠ 0 ∧ (u.pool k).page = (s.pool k).page ∨
        ∃ t attempt, a = .run t attempt ∧ tags s t = some k ∧
          (u.pool k).page = (s.tasks t).call.page := by
    rw [pool] at inUse ⊢
    rcases eq_or_ne i k with rfl | ne
    · rw [update_self] at inUse ⊢
      exact new rfl inUse
    · rw [update_of_ne ne.symm] at inUse ⊢
      exact .inl ⟨inUse, rfl⟩
  cases change with
  | readHit _ _ _ _ was => exact put rfl fun eq _ => eq ▸ .inl ⟨was, rfl⟩
  | @writeHit t attempt i page offset data pc call _ here clean =>
    refine put rfl fun eq _ => ?_
    subst eq
    by_cases was : (s.pool i).use = 0
    · refine .inr ⟨t, attempt, rfl, ?_, ?_⟩
      · simp [tags, pc, call, here, clean, was]
      · simp [call, Call.page, here, Fs.hit]
    · exact .inl ⟨was, rfl⟩
  | rewrites pc | dirties pc => exact put rfl fun eq _ => eq ▸ .inl ⟨h.content _ _ pc, rfl⟩
  | @tagRead t attempt i useMin j page _ _ pc all call =>
    refine put rfl fun eq _ => ?_
    subst eq
    exact .inr ⟨t, attempt, rfl, by simp [tags, pc, call, all], by simp [call, Call.page]⟩
  | @tagWrite t attempt j page offset data fills call =>
    refine put rfl fun eq _ => ?_
    subst eq
    exact .inr ⟨t, attempt, rfl, fills.tags call, by simp [call, Call.page]⟩
  | loadDone | loadBroken => exact put rfl fun eq was => eq ▸ .inl ⟨was, rfl⟩
  | @accepted j access =>
    refine put rfl fun eq _ => ?_
    subst eq
    exact .inl ⟨h.dirty j (flagged.target j (by rw [access, WriterPc.target])), rfl⟩
  | @better _ _ _ best | @scanBetter _ _ best => cases best <;> exact .inl ⟨inUse, rfl⟩
  | enter | moves | waits | command | delivers | fails | drops | registers | wakes | leaves | claims
  | scanNext | lost | chooses | locks | refused | stored | broken | givesBack | releases
  | transfers => exact .inl ⟨inUse, rfl⟩

theorem dirty_used (h : InUse s) (change : Change s a u) (dirty : (u.pool k).dirty = true) :
    (u.pool k).use ≠ 0 := by
  have put {i : Fin fsPoolSize} {b : Buffer} (pool : u.pool = update s.pool i b)
      (new : i = k → b.dirty = true → b.use ≠ 0) : (u.pool k).use ≠ 0 := by
    rw [pool] at dirty ⊢
    rcases eq_or_ne i k with rfl | ne
    · rw [update_self] at dirty ⊢
      exact new rfl dirty
    · rw [update_of_ne ne.symm] at dirty ⊢
      exact h.dirty k dirty
  cases change with
  | readHit | writeHit | rewrites | dirties => exact put rfl fun _ _ => used_ne_zero _
  | tagRead | tagWrite | accepted => exact put rfl fun _ _ => Nat.one_ne_zero
  | loadDone | loadBroken => exact put rfl fun _ was => h.dirty _ was
  | @better _ _ _ best | @scanBetter _ _ best => cases best <;> exact h.dirty k dirty
  | enter | moves | waits | command | delivers | fails | drops | registers | wakes | leaves | claims
  | scanNext | lost | chooses | locks | refused | stored | broken | givesBack | releases
  | transfers => exact h.dirty k dirty

theorem content_change {i} (change : Change s a u)
    (content : (u.tasks t).pc = .content i) :
    (s.tasks t).pc = .content i ∧ (u.tasks t).call = (s.tasks t).call ∨
      (s.pool i).dirty = true ∧ (u.pool i).page = (u.tasks t).call.page := by
  have other {p : ι} {task : Task} (tasks : u.tasks = update s.tasks p task)
      (own : task.pc = .content i →
        (s.pool i).dirty = true ∧ (u.pool i).page = task.call.page) :
      (s.tasks t).pc = .content i ∧ (u.tasks t).call = (s.tasks t).call ∨
        (s.pool i).dirty = true ∧ (u.pool i).page = (u.tasks t).call.page := by
    rw [tasks] at content ⊢
    rcases eq_or_ne t p with rfl | ne
    · rw [update_self] at content ⊢
      exact .inr (own content)
    · rw [update_of_ne ne] at content ⊢
      exact .inl ⟨content, rfl⟩
  cases change with
  | @waits _ _ j page _ _ _ call _ here dirty =>
    refine other rfl fun own => ?_
    obtain rfl := Pc.content.inj own
    exact ⟨dirty, here.symm.trans (by simp [Fs.lock, call, Call.page])⟩
  | @moves p _ pc moves =>
    refine other rfl fun own => ?_
    simp only at own
    generalize (s.tasks p).pc = before at moves
    rw [own] at moves
    cases moves
  | loadBroken pc next =>
    refine other rfl fun own => ?_
    rcases next with rfl | rfl <;> cases own
  | @better _ _ _ best => cases best <;> exact other rfl (by simp)
  | enter | readHit | writeHit | rewrites | dirties | tagRead | tagWrite | command | loadDone
  | delivers | fails | drops | registers | wakes | leaves => exact other rfl (by simp)
  | @scanBetter _ _ best => cases best <;> exact .inl ⟨content, rfl⟩
  | claims | scanNext | lost | chooses | locks | refused | accepted | stored | broken | givesBack
  | releases | transfers => exact .inl ⟨content, rfl⟩

theorem inUse_step (h : InUse s) (change : Change s a u) : InUse u where
  dirty _ := dirty_used h change
  content t i at_content := stays_used change <|
    (content_change change at_content).elim (fun was => h.content t i was.1)
      (fun found => h.dirty i found.1)

theorem inUse_run (run : Run step ok s u) (h : InUse s) : InUse u :=
  run.invariant InUse (fun _ _ _ h _ hstep => inUse_step h (step_change hstep)) h

theorem onePerPage_step (flagged : Flagged s) (inUse : InUse s) (h : OnePerPage s.pool)
    (checked : Rechecked s a) (change : Change s a u) : OnePerPage u.pool := by
  -- A buffer that is put into use is the only one with its page, so two of them are one.
  have fresh {t : ι} {attempt : Attempt} {i k : Fin fsPoolSize} (run : a = .run t attempt)
      (tag : tags s t = some i) (page : (u.pool i).page = (s.tasks t).call.page)
      (was : (s.pool k).use ≠ 0) (kept : (u.pool k).page = (s.pool k).page)
      (same : (u.pool i).page = (u.pool k).page) : i = k := by
    subst run
    by_contra ne
    exact checked i tag k (Ne.symm ne) was (by rw [← kept, ← same, page])
  intro i k iUsed kUsed same
  rcases used_change flagged inUse change iUsed with ⟨iWas, iPage⟩ | ⟨t, attempt, run, tag, page⟩
  · rcases used_change flagged inUse change kUsed with ⟨kWas, kPage⟩ | ⟨t, attempt, run, tag, page⟩
    · exact h i k iWas kWas (by rw [← iPage, ← kPage, same])
    · exact (fresh run tag page iWas iPage same.symm).symm
  · rcases used_change flagged inUse change kUsed with ⟨kWas, kPage⟩ | ⟨t', _, run', tag', _⟩
    · exact fresh run tag page kWas kPage same
    · obtain ⟨rfl, _⟩ := Action.run.inj (run.symm.trans run')
      exact Option.some.inj (tag.symm.trans tag')

omit [DecidableEq ι] in
theorem onePerPage_init (sdhc : Bool) (content : Fin fsPoolSize → Block)
    (medium : UInt32 → Block) : OnePerPage (Fs.init sdhc content medium : Fs ι).pool :=
  fun _ _ h => absurd rfl h

theorem onePerPage_run (run : Run step ok s u) (checked : ∀ s a, ok s a → Rechecked s a)
    (locked : Locked s) (flagged : Flagged s) (inUse : InUse s) (h : OnePerPage s.pool) :
    OnePerPage u.pool :=
  run.invariant_of (fun s => Flagged s ∧ InUse s) (fun s => OnePerPage s.pool)
    (fun _ prior => ⟨flagged_run prior locked flagged, inUse_run prior inUse⟩)
    (fun _ _ _ known h allowed hstep =>
      onePerPage_step known.1 known.2 h (checked _ _ allowed) (step_change hstep)) h

omit [DecidableEq ι] in
theorem Moves.tags {pc} (moves : Moves s t attempt (s.tasks t).pc pc) : tags s t = none := by
  generalize before : (s.tasks t).pc = from_pc at moves
  unfold PageTasks.tags
  rw [before]
  cases moves with
  | readMiss call => simp [call]
  | writeMiss call other => simp [call, other]
  | missed all =>
    have : ¬_ < fsPoolSize := not_lt.mpr all
    cases (s.tasks t).call <;> simp [this]
  | @examined _ i =>
    cases (s.tasks t).call with
    | read => exact if_neg (by omega)
    | write => exact if_neg (by omega)
  | allDirty => cases (s.tasks t).call <;> simp
  | loads all call part => simp [call, part]
  | retries | givesUp => rfl

theorem tags_change {j} (tag : tags s t = some j)
    (change : Change s (.run t attempt) u) :
    (u.pool j).use ≠ 0 ∧ (u.pool j).page = (s.tasks t).call.page ∧
      ∀ k, k ≠ j → u.pool k = s.pool k := by
  have put {i : Fin fsPoolSize} {b : Buffer} (here : tags s t = some i)
      (pool : u.pool = update s.pool i b) (use : b.use ≠ 0)
      (page : b.page = (s.tasks t).call.page) :
      (u.pool j).use ≠ 0 ∧ (u.pool j).page = (s.tasks t).call.page ∧
        ∀ k, k ≠ j → u.pool k = s.pool k := by
    obtain rfl := Option.some.inj (tag.symm.trans here)
    rw [pool, update_self]
    exact ⟨use, page, fun k ne => update_of_ne ne ..⟩
  cases change with
  | @writeHit _ _ i page offset data pc call _ here clean =>
    by_cases was : (s.pool i).use = 0
    · refine put ?_ rfl (used_ne_zero _) ?_
      · simp [tags, pc, call, here, clean, was]
      · simp [call, Call.page, here, Fs.hit]
    · simp [tags, pc, call, was] at tag
  | tagRead pc all call =>
    exact put (by simp [tags, pc, call, all]) rfl Nat.one_ne_zero (by simp [call, Call.page])
  | tagWrite fills call =>
    exact put (fills.tags call) rfl Nat.one_ne_zero (by simp [call, Call.page])
  | moves moves =>
    rw [moves.tags] at tag
    cases tag
  | waits pc call _ _ dirty => simp [tags, pc, call, dirty] at tag
  | @better _ _ i _ _ pc =>
    cases call : (s.tasks t).call <;> simp [tags, pc, call] at tag <;> omega
  | readHit pc call | delivers pc call | fails pc call => simp [tags, pc, call] at tag
  | @drops _ _ _ ok _ _ _ pc call nothing =>
    cases ok with
    | false => simp [tags, pc, call] at tag
    | true => simp_all [tags]
  | rewrites pc | dirties pc | command pc | loadDone pc | loadBroken pc | registers pc | wakes pc
  | leaves pc => simp [tags, pc] at tag

theorem rechecked_of_onePerPage (change : Change s (.run t attempt) u) (h : OnePerPage u.pool) :
    Rechecked s (.run t attempt) := by
  intro j tag k ne kUsed same
  obtain ⟨jUsed, page, others⟩ := tags_change tag change
  refine ne (h k j ?_ jUsed ?_)
  · rwa [others k ne]
  · rw [others k ne, same, page]

end PageTasks
