import OpenLab.PageUnique

/-!
# Calls on different pages

Calls in progress at the same time, but never two on the same page. The buffers are taken into use
in the order of the pool, so what a task has seen stays so until it puts a buffer into use.
-/

namespace PageTasks

open LockTable Schedules Option
open PageCache (Block Buffer Call Attempt fsPoolSize pageSize maxRetry maxUse cpy bytes)
open PageCache.Cache (used)
open Function (update update_of_ne update_self)

variable {ι : Type}

/-- A call starts only when no other call on its page is in progress. -/
def Apart (s : Fs ι) : Action ι → Prop
  | .enter _ call => ∀ p, (s.tasks p).pc ≠ .idle → (s.tasks p).call.page ≠ call.page
  | _ => True

instance [Fintype ι] (s : Fs ι) : DecidablePred (Apart s)
  | .enter .. | .run .. | .write .. | .transfer .. => by
    dsimp only [Apart]
    infer_instance

/-- The buffers that a task has examined in `fs_write` of page 0, or in `reserve_buffer` before it
came to an unused one. -/
def Task.passed (task : Task) (k : Fin fsPoolSize) : Prop :=
  match task.pc, task.call with
  | .lookup i, .write page _ _ => page = 0 ∧ k.val < i
  | .reserve i _ useMin, _ => 0 < useMin ∧ k.val < i
  | _, _ => False

/-- Buffers are taken into use in the order of the pool. -/
structure Ordered (s : Fs ι) : Prop where
  unused : ∀ i, (s.pool i).use = 0 → (s.pool i).page = 0
  packed : ∀ i j, i < j → (s.pool j).use ≠ 0 → (s.pool i).use ≠ 0
  passed : ∀ t k, (s.tasks t).passed k → (s.pool k).use ≠ 0
  first : ∀ t j, (s.tasks t).pc.reserved = some j → (s.pool j).use = 0 →
    ∀ k, k < j → (s.pool k).use ≠ 0

def Pc.Missed (k : Fin fsPoolSize) : Pc → Prop
  | .lookup i => k.val < i
  | .reserve _ _ _ => True
  | .load j _ | .loading j _ | .loaded j _ => k ≠ j
  | _ => False

/-- The calls in progress are on different pages, and no page has come up behind the task that
looks for it. -/
structure Separate (s : Fs ι) : Prop where
  alone : ∀ t p, t ≠ p → (s.tasks t).pc ≠ .idle → (s.tasks p).pc ≠ .idle →
    (s.tasks t).call.page ≠ (s.tasks p).call.page
  missed : ∀ t k, (s.tasks t).pc.Missed k → (s.pool k).use ≠ 0 →
    (s.pool k).page ≠ (s.tasks t).call.page

section Init

variable (sdhc : Bool) (content : Fin fsPoolSize → Block) (medium : UInt32 → Block)

theorem ordered_init : Ordered (Fs.init sdhc content medium : Fs ι) where
  unused _ _ := rfl
  packed _ _ _ h := absurd rfl h
  passed _ _ h := h.elim
  first _ _ h := by cases h

theorem separate_init : Separate (Fs.init sdhc content medium : Fs ι) where
  alone _ _ _ h := absurd rfl h
  missed _ _ h := h.elim

end Init

variable [DecidableEq ι] {s u : Fs ι} {a : Action ι} {k : Fin fsPoolSize} {t : ι}
  {attempt : Attempt} {ok : Fs ι → Action ι → Prop}

theorem page_change (change : Change s a u) :
    (u.pool k).page = (s.pool k).page ∨ (u.pool k).use ≠ 0 := by
  have put {i : Fin fsPoolSize} {b : Buffer} (pool : u.pool = update s.pool i b)
      (new : i = k → b.page = (s.pool k).page ∨ b.use ≠ 0) :
      (u.pool k).page = (s.pool k).page ∨ (u.pool k).use ≠ 0 := by
    rw [pool]
    rcases eq_or_ne i k with rfl | ne
    · rw [update_self]
      exact new rfl
    · rw [update_of_ne ne.symm]
      exact .inl rfl
  cases change with
  | readHit | writeHit | rewrites | dirties => exact put rfl fun _ => .inr (used_ne_zero _)
  | tagRead | tagWrite | accepted => exact put rfl fun _ => .inr Nat.one_ne_zero
  | loadDone | loadBroken => exact put rfl fun eq => eq ▸ .inl rfl
  | @better _ _ _ best | @scanBetter _ _ best => cases best <;> exact .inl rfl
  | enter | moves | waits | command | delivers | fails | drops | registers | wakes | leaves | claims
  | scanNext | lost | chooses | locks | refused | stored | broken | givesBack | releases
  | transfers => exact .inl rfl

omit [DecidableEq ι] in
theorem Ordered.tags_first {j} (h : Ordered s) (tag : tags s t = some j)
    (unused : (s.pool j).use = 0) (k : Fin fsPoolSize) (lt : k < j) : (s.pool k).use ≠ 0 := by
  unfold tags at tag
  split at tag
  case h_1 i page offset data pc call =>
    split at tag
    case isTrue le =>
      obtain ⟨⟨here, _⟩, eq⟩ := ite_none_right_eq_some.mp tag
      obtain rfl := some.inj eq
      refine h.passed t k ?_
      simp only [Task.passed, pc, call]
      exact ⟨here.trans (h.unused _ unused), lt⟩
    case isFalse => cases tag
  case h_2 pc _ =>
    obtain ⟨_, eq⟩ := ite_none_right_eq_some.mp tag
    exact h.first t j (by rw [pc]; exact eq) unused k lt
  case h_3 pc _ =>
    obtain ⟨_, eq⟩ := ite_none_right_eq_some.mp tag
    exact h.first t j (by rw [pc]; exact eq) unused k lt
  case h_4 pc _ =>
    obtain ⟨_, eq⟩ := ite_none_right_eq_some.mp tag
    exact h.first t j (by rw [pc]; exact eq) unused k lt
  case h_5 => cases tag

theorem packed_step (flagged : Flagged s) (inUse : InUse s) (h : Ordered s) (change : Change s a u)
    (i j : Fin fsPoolSize) (lt : i < j) (jUsed : (u.pool j).use ≠ 0) : (u.pool i).use ≠ 0 := by
  refine stays_used change ?_
  by_cases was : (s.pool j).use = 0
  · rcases used_change flagged inUse change jUsed with ⟨used, _⟩ | ⟨t, _, _, tag, _⟩
    · exact absurd was used
    · exact h.tags_first tag was i lt
  · exact h.packed i j lt was

omit [DecidableEq ι] in
theorem passed_moves {pc} (inUse : InUse s) (h : Ordered s)
    (moves : Moves s t attempt (s.tasks t).pc pc) (passed : { s.tasks t with pc := pc }.passed k) :
    (s.pool k).use ≠ 0 := by
  generalize before : (s.tasks t).pc = from_pc at moves
  have old : (s.tasks t).passed k → (s.pool k).use ≠ 0 := h.passed t k
  cases moves with
  | readMiss call => simp [Task.passed, call] at passed
  | @writeMiss _ i page _ _ call other =>
    simp only [Task.passed, call, before] at passed old
    obtain ⟨zero, lt⟩ := passed
    rcases eq_or_ne k i with rfl | ne
    · intro unused
      exact other (zero.trans (h.unused k unused).symm)
    · exact old ⟨zero, by omega⟩
  | missed => exact absurd passed.2 (Nat.not_lt_zero _)
  | @examined _ i best useMin worse =>
    simp only [Task.passed, before] at passed old
    obtain ⟨pos, lt⟩ := passed
    rcases eq_or_ne k i with rfl | ne
    · intro unused
      cases dirty : (s.pool k).dirty with
      | true => exact inUse.dirty k dirty unused
      | false => exact worse ⟨dirty, by omega⟩
    · exact old ⟨pos, by omega⟩
  | allDirty | loads | retries | givesUp => exact passed.elim

theorem passed_step (inUse : InUse s) (h : Ordered s) (change : Change s a u) (t : ι)
    (passed : (u.tasks t).passed k) : (u.pool k).use ≠ 0 := by
  refine stays_used change ?_
  have other {p : ι} {task : Task} (tasks : u.tasks = update s.tasks p task)
      (own : task.passed k → (s.pool k).use ≠ 0) : (s.pool k).use ≠ 0 := by
    rcases eq_or_ne t p with rfl | ne
    · exact own (by rwa [tasks, update_self] at passed)
    · rw [tasks, update_of_ne ne] at passed
      exact h.passed t k passed
  -- A lookup that starts has passed no buffer.
  have begins {task : Task} (pc : task.pc = .lookup 0) (own : task.passed k) :
      (s.pool k).use ≠ 0 := by
    unfold Task.passed at own
    rw [pc] at own
    cases call : task.call <;> simp [call] at own
  cases change with
  | enter | delivers | fails | leaves => exact other rfl (begins rfl)
  | moves moves => exact other rfl (passed_moves inUse h moves)
  | @better p _ i best useMin pc _ _ less =>
    have own : (s.tasks p).passed k → (s.pool k).use ≠ 0 := h.passed p k
    simp only [Task.passed, pc] at own
    have step (new : 0 < (s.pool i).use ∧ k.val < i + 1) : (s.pool k).use ≠ 0 := by
      rcases eq_or_ne k i with rfl | ne
      · omega
      · exact own ⟨by omega, by omega⟩
    cases best <;> exact other rfl step
  | loadBroken _ next => rcases next with rfl | rfl <;> exact other rfl False.elim
  | readHit | writeHit | waits | rewrites | dirties | tagRead | tagWrite | command | loadDone
  | drops | registers | wakes => exact other rfl False.elim
  | @scanBetter _ _ best => cases best <;> exact h.passed t k passed
  | claims | scanNext | lost | chooses | locks | refused | accepted | stored | broken | givesBack
  | releases | transfers => exact h.passed t k passed

theorem first_step (h : Ordered s) (change : Change s a u) (t : ι) (j : Fin fsPoolSize)
    (reserved : (u.tasks t).pc.reserved = some j) (unused : (u.pool j).use = 0)
    (k : Fin fsPoolSize) (lt : k < j) : (u.pool k).use ≠ 0 := by
  have was : (s.pool j).use = 0 := by
    by_contra used
    exact stays_used change used unused
  refine stays_used change ?_
  have other {p : ι} {task : Task} (tasks : u.tasks = update s.tasks p task)
      (own : task.pc.reserved = some j → (s.tasks p).pc.reserved = some j ∨ (s.pool k).use ≠ 0) :
      (s.pool k).use ≠ 0 := by
    rcases eq_or_ne t p with rfl | ne
    · rw [tasks, update_self] at reserved
      exact (own reserved).elim (fun before => h.first t j before was k lt) id
    · rw [tasks, update_of_ne ne] at reserved
      exact h.first t j reserved was k lt
  cases change with
  | moves moves => exact other rfl fun own => .inl (moves.held.2.1 ▸ own)
  | @better p _ i best useMin pc _ _ less =>
    have step (own : some i = some j) : (s.tasks p).pc.reserved = some j ∨ (s.pool k).use ≠ 0 := by
      obtain rfl := some.inj own
      refine .inr (h.passed p k ?_)
      simp only [Task.passed, pc]
      exact ⟨by omega, lt⟩
    cases best <;> exact other rfl step
  | tagRead pc | command pc | loadDone pc => exact other rfl fun own => .inl (by rw [pc]; exact own)
  | loadBroken pc next =>
    rcases next with rfl | rfl <;> exact other rfl fun own => .inl (by rw [pc]; exact own)
  | enter | readHit | writeHit | waits | rewrites | dirties | tagWrite | delivers | fails | drops
  | registers | wakes | leaves => exact other rfl nofun
  | @scanBetter _ _ best => cases best <;> exact h.first t j reserved was k lt
  | claims | scanNext | lost | chooses | locks | refused | accepted | stored | broken | givesBack
  | releases | transfers => exact h.first t j reserved was k lt

theorem ordered_step (flagged : Flagged s) (inUse : InUse s) (h : Ordered s)
    (change : Change s a u) : Ordered u where
  unused i none := by
    have was : (s.pool i).use = 0 := by
      by_contra used
      exact stays_used change used none
    rcases page_change change with same | used
    · exact same.trans (h.unused i was)
    · exact absurd none used
  packed := packed_step flagged inUse h change
  passed t _ := passed_step inUse h change t
  first := first_step h change

theorem call_change {p} (change : Change s a u) (busy : (u.tasks p).pc ≠ .idle) :
    (s.tasks p).pc ≠ .idle ∧ (u.tasks p).call = (s.tasks p).call ∨
      a = .enter p (u.tasks p).call := by
  have other {t : ι} {task : Task} (tasks : u.tasks = update s.tasks t task)
      (own : (s.tasks t).pc ≠ .idle ∧ task.call = (s.tasks t).call ∨ a = .enter t task.call) :
      (s.tasks p).pc ≠ .idle ∧ (u.tasks p).call = (s.tasks p).call ∨
        a = .enter p (u.tasks p).call := by
    rw [tasks] at busy ⊢
    rcases eq_or_ne p t with rfl | ne
    · rwa [update_self]
    · rw [update_of_ne ne] at busy ⊢
      exact .inl ⟨busy, rfl⟩
  cases change with
  | enter => exact other rfl (.inr rfl)
  | moves moves => exact other rfl (.inl ⟨moves.busy.1, rfl⟩)
  | @better _ _ _ best _ pc => cases best <;> exact other rfl (.inl ⟨by rw [pc]; nofun, rfl⟩)
  | tagWrite fills =>
    refine other rfl (.inl ⟨?_, rfl⟩)
    intro idle
    have := fills.held.1
    rw [idle] at this
    cases this
  | loadBroken pc => exact other rfl (.inl ⟨by rw [pc]; nofun, rfl⟩)
  | readHit pc | writeHit pc | waits pc | rewrites pc | dirties pc | tagRead pc | command pc
  | loadDone pc | delivers pc | fails pc | drops pc | registers pc | wakes pc | leaves pc =>
    exact other rfl (.inl ⟨by rw [pc]; nofun, rfl⟩)
  | @scanBetter _ _ best => cases best <;> exact .inl ⟨busy, rfl⟩
  | claims | scanNext | lost | chooses | locks | refused | accepted | stored | broken | givesBack
  | releases | transfers => exact .inl ⟨busy, rfl⟩

theorem alone_step (h : Separate s) (apart : Apart s a) (change : Change s a u) (t p : ι)
    (ne : t ≠ p) (busy : (u.tasks t).pc ≠ .idle) (busy' : (u.tasks p).pc ≠ .idle) :
    (u.tasks t).call.page ≠ (u.tasks p).call.page := by
  rcases call_change change busy with ⟨was, same⟩ | starts
  · rcases call_change change busy' with ⟨was', same'⟩ | starts'
    · rw [same, same']
      exact h.alone t p ne was was'
    · subst starts'
      rw [same]
      exact apart t was
  · rcases call_change change busy' with ⟨was', same'⟩ | starts'
    · subst starts
      rw [same']
      exact (apart p was').symm
    · exact absurd (Action.enter.inj (starts.symm.trans starts')).1 ne

omit [DecidableEq ι] in
theorem missed_moves {pc} (h : Separate s) (moves : Moves s t attempt (s.tasks t).pc pc)
    (missed : pc.Missed k) (inUse : (s.pool k).use ≠ 0) :
    (s.pool k).page ≠ (s.tasks t).call.page := by
  have old := h.missed t k
  generalize before : (s.tasks t).pc = from_pc at moves old
  cases moves with
  | @readMiss _ i page _ _ call other =>
    rcases eq_or_ne k i with rfl | ne
    · intro eq
      exact other ⟨by rw [eq, call, Call.page], inUse⟩
    · simp only [Pc.Missed] at missed
      exact old (by simp only [Pc.Missed]; omega) inUse
  | @writeMiss _ i page _ _ call other =>
    rcases eq_or_ne k i with rfl | ne
    · intro eq
      exact other (by rw [eq, call, Call.page])
    · simp only [Pc.Missed] at missed
      exact old (by simp only [Pc.Missed]; omega) inUse
  | missed all => exact old (lt_of_lt_of_le k.isLt all) inUse
  | examined | loads => exact old trivial inUse
  | allDirty => exact missed.elim
  | retries | givesUp => exact old missed inUse

theorem missed_step (flagged : Flagged s) (used : InUse s) (h : Separate s) (change : Change s a u)
    (t : ι) (missed : (u.tasks t).pc.Missed k) (inUse : (u.pool k).use ≠ 0) :
    (u.pool k).page ≠ (u.tasks t).call.page := by
  -- A task that does not move has its page to itself.
  have still (same : u.tasks t = s.tasks t) (else_runs : ∀ p attempt, a = .run p attempt → p ≠ t) :
      (u.pool k).page ≠ (u.tasks t).call.page := by
    rw [same] at missed ⊢
    have busy : (s.tasks t).pc ≠ .idle := fun idle => by rw [idle] at missed; exact missed
    rcases used_change flagged used change inUse with ⟨was, page⟩ | ⟨p, attempt, run, tag, page⟩
    · rw [page]
      exact h.missed t k missed was
    · rw [page]
      refine h.alone p t (else_runs p attempt run) (fun idle => ?_) busy
      simp [tags, idle] at tag
  -- What the task that moves has missed so far it had missed before.
  have moved {p : ι} {task : Task} (tasks : u.tasks = update s.tasks p task)
      (runs : ∀ q attempt, a = .run q attempt → q = p)
      (own : task.pc.Missed k → task.call = (s.tasks p).call ∧ tags s p ≠ some k ∧
        ((s.pool k).use ≠ 0 → (s.pool k).page ≠ (s.tasks p).call.page)) :
      (u.pool k).page ≠ (u.tasks t).call.page := by
    rcases eq_or_ne t p with rfl | ne
    · rw [tasks, update_self] at missed ⊢
      obtain ⟨call, untagged, apart⟩ := own missed
      rcases used_change flagged used change inUse with ⟨was, page⟩ | ⟨q, attempt, run, tag, _⟩
      · rw [call, page]
        exact apart was
      · rw [runs q attempt run] at tag
        exact absurd tag untagged
    · exact still (by rw [tasks, update_of_ne ne])
        fun q attempt run eq => ne (eq ▸ runs q attempt run)
  have runs {p : ι} {attempt : Attempt} : ∀ q attempt', Action.run p attempt = .run q attempt' →
      q = p := fun q attempt' eq => (Action.run.inj eq).1.symm
  have old {p : ι} {pc : Pc} (at_pc : (s.tasks p).pc = pc) (misses : pc.Missed k) :
      (s.pool k).use ≠ 0 → (s.pool k).page ≠ (s.tasks p).call.page :=
    h.missed p k (by rwa [at_pc])
  cases change with
  | enter => exact moved rfl (by simp) fun own => absurd own (Nat.not_lt_zero _)
  | moves moves =>
    exact moved rfl runs fun own => ⟨rfl, by simp [moves.tags], missed_moves h moves own⟩
  | @better p _ i best _ pc =>
    have untagged : tags s p ≠ some k := by
      cases call : (s.tasks p).call <;> simp [tags, pc, call]
    cases best <;> exact moved rfl runs fun _ => ⟨rfl, untagged, old pc trivial⟩
  | tagRead pc all call =>
    refine moved rfl runs fun own => ⟨rfl, ?_, old pc trivial⟩
    simp only [tags, pc, call, if_pos all]
    exact fun eq => own (some.inj eq).symm
  | command pc | loadDone pc =>
    exact moved rfl runs fun own => ⟨rfl, by simp [tags, pc], old pc own⟩
  | loadBroken pc next =>
    rcases next with rfl | rfl <;>
      exact moved rfl runs fun own => ⟨rfl, by simp [tags, pc], old pc own⟩
  | delivers | fails | leaves => exact moved rfl runs fun own => absurd own (Nat.not_lt_zero _)
  | readHit | writeHit | waits | rewrites | dirties | tagWrite | drops | registers | wakes =>
    exact moved rfl runs False.elim
  | @scanBetter _ _ best => cases best <;> exact still rfl (by simp)
  | claims | scanNext | lost | chooses | locks | refused | accepted | stored | broken | givesBack
  | releases | transfers => exact still rfl (by simp)

theorem separate_step (flagged : Flagged s) (inUse : InUse s) (h : Separate s) (apart : Apart s a)
    (change : Change s a u) : Separate u where
  alone := alone_step h apart change
  missed t _ := missed_step flagged inUse h change t

omit [DecidableEq ι] in
theorem rechecked_of_separate (ordered : Ordered s) (h : Separate s) (a : Action ι) :
    Rechecked s a := by
  cases a with
  | run t attempt =>
    intro j tag k ne kUsed
    have missed := h.missed t k
    unfold tags at tag
    split at tag
    case h_1 i page offset data pc call =>
      split at tag
      case isTrue lt =>
        obtain ⟨⟨here, _, unused⟩, eq⟩ := ite_none_right_eq_some.mp tag
        obtain rfl := some.inj eq
        rcases lt_or_gt_of_ne ne with below | above
        · exact missed (by rw [pc]; exact below) kUsed
        · exact absurd unused (ordered.packed _ k above kUsed)
      case isFalse => cases tag
    case h_2 pc _ => exact missed (by rw [pc]; trivial) kUsed
    case h_3 pc _ => exact missed (by rw [pc]; trivial) kUsed
    case h_4 pc _ =>
      obtain ⟨_, eq⟩ := ite_none_right_eq_some.mp tag
      obtain rfl := some.inj eq
      exact missed (by rw [pc]; exact ne) kUsed
    case h_5 => cases tag
  | enter | write | transfer => trivial

/-- In a run without two calls on one page at a time, no page is there when a task puts a buffer
into use for it. -/
theorem rechecked_run (run : Run step ok s u) (apart : ∀ s a, ok s a → Apart s a)
    (locked : Locked s) (flagged : Flagged s) (inUse : InUse s) (ordered : Ordered s)
    (h : Separate s) : Run step Rechecked s u := by
  have known {v : Fs ι} (prior : Run step ok s v) : Flagged v ∧ InUse v :=
    ⟨flagged_run prior locked flagged, inUse_run prior inUse⟩
  have both {v : Fs ι} (prior : Run step ok s v) : Ordered v ∧ Separate v := by
    refine prior.invariant_of (fun s => Flagged s ∧ InUse s) (fun s => Ordered s ∧ Separate s)
      (fun _ prior => known prior) (fun s a u known h allowed hstep => ?_) ⟨ordered, h⟩
    have change := step_change hstep
    exact ⟨ordered_step known.1 known.2 h.1 change,
      separate_step known.1 known.2 h.2 (apart s a allowed) change⟩
  induction run with
  | start => exact .start
  | next a prior _ hstep ih =>
    obtain ⟨ordered, separate⟩ := both prior
    exact .next a ih (rechecked_of_separate ordered separate a) hstep

def Awaits (s : Fs ι) : Prop :=
  ∀ t i, (s.tasks t).pc = .content i → (s.pool i).page = (s.tasks t).call.page

omit [DecidableEq ι] in
theorem tags_cases {j} (tag : tags s t = some j) :
    (s.tasks t).pc.reserved = some j ∨ (s.pool j).use = 0 := by
  unfold tags at tag
  split at tag
  case h_1 =>
    split at tag
    case isTrue =>
      obtain ⟨⟨_, _, unused⟩, eq⟩ := ite_none_right_eq_some.mp tag
      exact .inr (some.inj eq ▸ unused)
    case isFalse => cases tag
  case h_2 pc _ => exact .inl (by rw [pc]; exact (ite_none_right_eq_some.mp tag).2)
  case h_3 pc _ => exact .inl (by rw [pc]; exact (ite_none_right_eq_some.mp tag).2)
  case h_4 pc _ => exact .inl (by rw [pc]; exact (ite_none_right_eq_some.mp tag).2)
  case h_5 => cases tag

theorem awaits_step (locked : Locked s) (flagged : Flagged s) (inUse : InUse s) (h : Awaits s)
    (change : Change s a u) : Awaits u := by
  intro t i content
  rcases content_change change content with ⟨before, call⟩ | ⟨_, here⟩
  · have used := inUse.content t i before
    rw [call]
    rcases used_change flagged inUse change (stays_used change used) with
      ⟨_, page⟩ | ⟨p, attempt, run, tag, page⟩
    · exact page.trans (h t i before)
    · rcases eq_or_ne p t with rfl | ne
      · exact page
      · rcases tags_cases tag with reserved | unused
        · exact absurd reserved (locked.apart (by rw [before]; rfl) ne)
        · exact absurd unused used
  · exact here

theorem awaits_run (run : Run step ok s u) (locked : Locked s) (flagged : Flagged s)
    (inUse : InUse s) (h : Awaits s) : Awaits u :=
  run.invariant_of (fun s => Locked s ∧ Flagged s ∧ InUse s) Awaits
    (fun _ prior => ⟨locked_run prior locked, flagged_run prior locked flagged,
      inUse_run prior inUse⟩)
    (fun _ _ _ known h _ hstep =>
      awaits_step known.1 known.2.1 known.2.2 h (step_change hstep)) h

def Shows (s : Fs ι) (page : UInt32) (block : Block) : Prop :=
  ∃ k, (s.pool k).use ≠ 0 ∧ (s.pool k).page = page ∧ (s.pool k).content = block

omit [DecidableEq ι] in
theorem OnePerPage.shows {page} {b b'} (h : OnePerPage s.pool)
    (shows_b : Shows s page b) (shows_b' : Shows s page b') : b = b' := by
  obtain ⟨i, iUsed, iPage, rfl⟩ := shows_b
  obtain ⟨k, kUsed, kPage, rfl⟩ := shows_b'
  rw [h i k iUsed kUsed (iPage.trans kPage.symm)]

theorem read_shows {page} {offset size}
    (call : (s.tasks t).call = .read page offset size) (change : Change s (.run t attempt) u)
    (returns : (u.tasks t).pc = .idle) :
    ∃ b, Shows s page b ∧ (u.tasks t).buf = bytes b offset (s.tasks t).s := by
  cases change with
  | @readHit _ _ i page' offset' _ pc call' _ here inUse =>
    obtain ⟨rfl, rfl, _⟩ := Call.read.inj (call.symm.trans call')
    exact ⟨_, ⟨i, inUse, here.symm, rfl⟩, by simp [Fs.deliver, Fs.putBuffer]⟩
  | moves moves => exact absurd (by simpa [Fs.goto] using returns) moves.busy.2
  | loadBroken _ next => rcases next with rfl | rfl <;> simp [Fs.goto] at returns
  | @better _ _ _ best => cases best <;> simp [Fs.goto] at returns
  | _ => simp_all [Fs.goto, Fs.deliver, Fs.giveUp]

/-- `fs_write` puts its bytes into the bytes of its page, if a used buffer has them, and the
result is in a used buffer. A call that could not load its page, or has no bytes, writes nothing. -/
theorem write_shows {page} {offset} {data} (inUse : InUse s)
    (awaits : Awaits s) (h : OnePerPage s.pool) (checked : Rechecked s (.run t attempt))
    (call : (s.tasks t).call = .write page offset data) (change : Change s (.run t attempt) u)
    (returns : (u.tasks t).pc = .idle) :
    (∃ b, (∀ c, Shows s page c → c = b) ∧ Shows u page (cpy (data.take (s.tasks t).s) b offset)) ∨
      ∃ j ok, (s.tasks t).pc = .loaded j ok ∧ (ok = false ∨ (s.tasks t).s = 0) := by
  have callPage : (s.tasks t).call.page = page := by rw [call, Call.page]
  -- The bytes are put into buffer `i`, which has the page alone.
  have put {i : Fin fsPoolSize} {b : Buffer} (pool : u.pool = update s.pool i b)
      (use : b.use ≠ 0) (here : b.page = page)
      (content : b.content = cpy (data.take (s.tasks t).s) (s.pool i).content offset)
      (alone : ∀ k, k ≠ i → (s.pool k).use ≠ 0 → (s.pool k).page ≠ page) :
      ∃ b, (∀ c, Shows s page c → c = b) ∧
        Shows u page (cpy (data.take (s.tasks t).s) b offset) := by
    refine ⟨(s.pool i).content, ?_, i, ?_⟩
    · rintro c ⟨k, kUsed, kPage, rfl⟩
      rcases eq_or_ne k i with rfl | ne
      · rfl
      · exact absurd kPage (alone k ne kUsed)
    · rw [pool, update_self]
      exact ⟨use, here, content⟩
  have only {i : Fin fsPoolSize} (used : (s.pool i).use ≠ 0) (here : (s.pool i).page = page)
      (k : Fin fsPoolSize) (ne : k ≠ i) (kUsed : (s.pool k).use ≠ 0) : (s.pool k).page ≠ page :=
    fun kPage => ne (h k i kUsed used (kPage.trans here.symm))
  cases change with
  | @writeHit _ _ i page' offset' data' pc call' _ here clean =>
    obtain ⟨rfl, rfl, rfl⟩ := Call.write.inj (call.symm.trans call')
    refine .inl (put rfl (used_ne_zero _) here.symm rfl ?_)
    by_cases unused : (s.pool i).use = 0
    · have tag : tags s t = some i := by simp [tags, pc, call, here, clean, unused]
      exact callPage ▸ checked i tag
    · exact only unused here.symm
  | @rewrites _ _ i page' offset' data' pc call' | @dirties _ _ i page' offset' data' pc call' =>
    obtain ⟨rfl, rfl, rfl⟩ := Call.write.inj (call.symm.trans call')
    have here := (awaits t i pc).trans callPage
    exact .inl (put rfl (used_ne_zero _) here rfl (only (inUse.content t i pc) here))
  | @tagWrite _ _ j page' offset' data' fills call' =>
    obtain ⟨rfl, rfl, rfl⟩ := Call.write.inj (call.symm.trans call')
    exact .inl (put rfl Nat.one_ne_zero rfl rfl (callPage ▸ checked j (fills.tags call)))
  | drops pc _ nothing => exact .inr ⟨_, _, pc, nothing⟩
  | moves moves => exact absurd (by simpa [Fs.goto] using returns) moves.busy.2
  | loadBroken _ next => rcases next with rfl | rfl <;> simp [Fs.goto] at returns
  | @better _ _ _ best => cases best <;> simp [Fs.goto] at returns
  | _ => simp_all [Fs.goto]

/-- In every run in which a task puts a buffer into use only if no other buffer has its page, and
in every run without two calls on one page at a time, no two used buffers have the same page. So
the bytes of a page are the same for all tasks: `fs_read` returns them and `fs_write` changes
them. A step that puts a buffer into use without the check makes a second buffer for the page. -/
theorem one_buffer_per_page (sdhc : Bool) (content : Fin fsPoolSize → Block)
    (medium : UInt32 → Block) (s : Fs ι)
    (run : Run step Rechecked (Fs.init sdhc content medium) s ∨
      Run step Apart (Fs.init sdhc content medium) s) :
    OnePerPage s.pool ∧
      (∀ page b b', Shows s page b → Shows s page b' → b = b') ∧
      (∀ t attempt u, step s (.run t attempt) = some u → (u.tasks t).pc = .idle →
        ∀ page offset size, (s.tasks t).call = .read page offset size →
        ∃ b, Shows s page b ∧ (u.tasks t).buf = bytes b offset (s.tasks t).s) ∧
      (∀ t attempt u, step s (.run t attempt) = some u → Rechecked s (.run t attempt) →
        (u.tasks t).pc = .idle →
        ∀ page offset data, (s.tasks t).call = .write page offset data →
        (∃ b, (∀ c, Shows s page c → c = b) ∧
          Shows u page (cpy (data.take (s.tasks t).s) b offset)) ∨
        ∃ j ok, (s.tasks t).pc = .loaded j ok ∧ (ok = false ∨ (s.tasks t).s = 0)) ∧
      ∀ t attempt u, step s (.run t attempt) = some u →
        (Rechecked s (.run t attempt) ↔ OnePerPage u.pool) := by
  have run : Run step Rechecked (Fs.init sdhc content medium) s := by
    rcases run with run | run
    · exact run
    · exact rechecked_run run (fun _ _ apart => apart) (locked_init ..) (flagged_init ..)
        (inUse_init ..) (ordered_init ..) (separate_init ..)
  have flagged : Flagged s := flagged_run run (locked_init ..) (flagged_init ..)
  have inUse : InUse s := inUse_run run (inUse_init ..)
  have awaits : Awaits s := awaits_run run (locked_init ..) (flagged_init ..) (inUse_init ..) nofun
  have h : OnePerPage s.pool := onePerPage_run run (fun _ _ checked => checked) (locked_init ..)
    (flagged_init ..) (inUse_init ..) (onePerPage_init sdhc content medium)
  refine ⟨h, fun page b b' => h.shows, ?_, ?_, ?_⟩
  · intro t attempt u hstep returns page offset size call
    exact read_shows call (step_change hstep) returns
  · intro t attempt u hstep checked returns page offset data call
    exact write_shows inUse awaits h checked call (step_change hstep) returns
  · intro t attempt u hstep
    exact ⟨fun checked => onePerPage_step flagged inUse h checked (step_change hstep),
      rechecked_of_onePerPage (step_change hstep)⟩

def readPage (t : ι) (page : UInt32) : List (Action ι) :=
  .enter t (.read page 0 1) :: List.replicate (2 * fsPoolSize + 6) (.run t .done)

def readTwice : List (Action (Fin 2)) :=
  readPage 0 5 ++ [.enter 1 (.read 5 0 1), .run 1 .done]

theorem one_buffer_per_page_read : ∃ s : Fs (Fin 2), Run step Apart sevens s ∧
    (s.tasks 1).buf = [7] ∧ OnePerPage s.pool := by
  obtain ⟨s, run, buf⟩ : ∃ s : Fs (Fin 2), Run step Apart sevens s ∧ (s.tasks 1).buf = [7] := by
    refine execIf_observe readTwice _ _ ?_
    decide +kernel
  exact ⟨s, run, buf, (one_buffer_per_page true (fun _ _ => 0) (fun _ _ => 7) s (.inr run)).1⟩

def missTwice : List (Action (Fin 2)) :=
  (.enter 0 (.read 5 0 1) :: List.replicate (fsPoolSize + 1) (.run 0 .done)) ++
    (.enter 1 (.read 5 0 1) :: List.replicate (fsPoolSize + 1) (.run 1 .done)) ++
    List.replicate (fsPoolSize + 5) (.run 0 .done) ++
    List.replicate (fsPoolSize + 1) (.run 1 .done)

/-- Two tasks that miss the same page at once load it into two buffers. -/
theorem page_loaded_twice : ∃ s : Fs (Fin 2), Run step (fun _ a => FaultFree a) sevens s ∧
    ((s.pool 0).page, (s.pool 0).use, (s.pool 1).page, (s.pool 1).use) = (5, 2, 5, 1) := by
  refine execIf_observe missTwice _ _ ?_
  decide +kernel

end PageTasks
