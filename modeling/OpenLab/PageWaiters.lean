import OpenLab.PageAlone

/-!
# Tasks that wait for a clean buffer

A task that has found all the buffers dirty counts itself in `num_waiting` and takes
`waiting_for_clean_mutex`, which the write task gives after each buffer if anybody is counted.
When is a blocked task sure to be woken?
-/

namespace PageTasks

open LockTable Schedules Tally
open PageCache (Block Buffer Call Attempt Cache fsPoolSize pageSize maxRetry maxUse dirtyCount)
open Function (update update_of_ne update_self)

variable {ι : Type}

def Task.Registered (task : Task) : Prop := task.pc = .blocked ∨ task.pc = .woken

instance : DecidablePred Task.Registered := fun task => by
  unfold Task.Registered
  infer_instance

/-- The call puts some bytes into a buffer before it returns. -/
def Task.Gives (task : Task) : Prop :=
  match task.call with
  | .read _ _ _ => False
  | .write _ _ _ => task.s ≠ 0

def Task.Writes (task : Task) : Prop := task.Gives ∧ task.pc ≠ .idle ∧ task.pc ≠ .blocked

def Coming (s : Fs ι) : Prop := s.writer ≠ .idle ∨ 0 < s.dirtySem

/-- A task goes to wait only if the semaphore is available or somebody will yet give it, and one
that takes it does not leave another one behind without that. -/
def Answered (s : Fs ι) : Action ι → Prop
  | .run t _ => match (s.tasks t).pc with
    | .full => s.numWaiting ≠ 65535 ∧
        (s.cleanSem = true ∨ Coming s ∨ ∃ p, p ≠ t ∧ (s.tasks p).Writes)
    | .blocked => (s.tasks t).Gives ∨ Coming s ∨ (∃ p, p ≠ t ∧ (s.tasks p).Writes) ∨
        ∀ p, p ≠ t → (s.tasks p).pc ≠ .blocked
    | _ => True
  | _ => True

/-- A task is blocked for ever: no buffer is dirty, the semaphore is not available, and nobody
is inside `fs_read`, `fs_write` or an iteration of `vWriteTask`, other blocked tasks apart. -/
def Stuck (s : Fs ι) : Prop :=
  (∃ t, (s.tasks t).pc = .blocked) ∧ (∀ i, (s.pool i).dirty = false) ∧ s.cleanSem = false ∧
    s.writer = .idle ∧ ∀ p, (s.tasks p).pc = .idle ∨ (s.tasks p).pc = .blocked

structure Awake [Fintype ι] (s : Fs ι) : Prop where
  counted : s.numWaiting.toNat = tally Task.Registered s.tasks
  /-- a blocked task has the semaphore, or somebody who will see to it -/
  answered : (∃ t, (s.tasks t).pc = .blocked) →
    s.cleanSem = true ∨ Coming s ∨ ∃ p, (s.tasks p).Writes
  loaded : ∀ t j, (s.tasks t).pc ≠ .loaded j false

theorem awake_init [Fintype ι] (sdhc : Bool) (content : Fin fsPoolSize → Block)
    (medium : UInt32 → Block) : Awake (Fs.init sdhc content medium : Fs ι) where
  counted := by simp [Fs.init, tally, Task.Registered]
  answered := by simp [Fs.init]
  loaded := nofun

variable {s u : Fs ι} {a : Action ι}

theorem Accounted.coming {i} (h : Accounted s) (dirty : (s.pool i).dirty = true) :
    Coming s := by
  by_contra none
  simp only [Coming, not_or, not_not, not_lt, Nat.le_zero] at none
  have count := h.count
  have : 0 < dirtyCount s.pool := tally_pos dirty
  rw [none.1, none.2] at count
  simp only [WriterPc.claim] at count
  omega

theorem coming_giveDirty {n} (sem : u.dirtySem = if n < fsPoolSize then n + 1 else n) :
    Coming u := by
  have some_buffer : 0 < fsPoolSize := by decide
  refine .inr ?_
  rw [sem]
  split <;> omega

section Counting

variable [Fintype ι] [DecidableEq ι] {t : ι} {task : Task} {attempt : Attempt}

theorem counted_step (h : Awake s) (tasks : u.tasks = update s.tasks t task)
    (same : u.numWaiting = s.numWaiting) (registered : (s.tasks t).Registered ↔ task.Registered) :
    u.numWaiting.toNat = tally Task.Registered u.tasks := by
  rw [tasks, same, tally_keep registered, h.counted]

theorem counted_registers (h : Awake s) (room : s.numWaiting ≠ 65535)
    (tasks : u.tasks = update s.tasks t task) (more : u.numWaiting = s.numWaiting + 1)
    (before : ¬(s.tasks t).Registered) (after : task.Registered) :
    u.numWaiting.toNat = tally Task.Registered u.tasks := by
  have bound := s.numWaiting.toNat_lt
  have ne : s.numWaiting.toNat ≠ 65535 := fun eq => room (UInt16.toNat_inj.mp eq)
  rw [tasks, tally_enter before after, ← h.counted, more, UInt16.toNat_add]
  simp only [UInt16.reduceToNat]
  omega

theorem counted_leaves (h : Awake s) (tasks : u.tasks = update s.tasks t task)
    (less : u.numWaiting = s.numWaiting - 1) (before : (s.tasks t).Registered)
    (after : ¬task.Registered) : u.numWaiting.toNat = tally Task.Registered u.tasks := by
  have fewer := tally_leave (P := Task.Registered) before after
  have counted := h.counted
  have bound := s.numWaiting.toNat_lt
  rw [tasks, less, UInt16.toNat_sub]
  simp only [UInt16.reduceToNat]
  omega

omit [Fintype ι] [DecidableEq ι] in
theorem Moves.unregistered {pc pc'} (h : Moves s t attempt pc pc') :
    (pc ≠ .blocked ∧ pc ≠ .woken) ∧ pc' ≠ .blocked ∧ pc' ≠ .woken := by
  cases h <;> exact ⟨⟨nofun, nofun⟩, nofun, nofun⟩

omit [Fintype ι] [DecidableEq ι] in
theorem Moves.gave_up {pc} {j} (h : Moves s t attempt pc (.loaded j false)) :
    attempt = .refused := by
  cases h
  rfl

/-- A registration, and the steps of the waiting tasks, apart, a step leaves alone what concerns
the waiting tasks. -/
inductive Waits (s : Fs ι) (a : Action ι) (u : Fs ι) : Prop
  | registers {t : ι} {attempt : Attempt} (run : a = .run t attempt)
      (at_full : (s.tasks t).pc = .full)
      (eq : u = { s with numWaiting := s.numWaiting + 1 }.goto t .blocked)
  | wakes {t : ι} {attempt : Attempt} (run : a = .run t attempt)
      (at_blocked : (s.tasks t).pc = .blocked) (eq : u = { s with cleanSem := false }.goto t .woken)
  | leaves {t : ι} (at_woken : (s.tasks t).pc = .woken)
      (eq : u = { s with numWaiting := s.numWaiting - 1 }.goto t (.lookup 0))
  | task {t : ι} {task : Task} (tasks : u.tasks = update s.tasks t task)
      (before : ¬(s.tasks t).Registered) (after : ¬task.Registered)
      (same : (u.numWaiting, u.cleanSem) = (s.numWaiting, s.cleanSem))
      (coming : Coming s → Coming u) (own : (s.tasks t).Writes → task.Writes ∨ Coming u)
      (loaded : ∀ j, task.pc ≠ .loaded j false)
  | writer (tasks : u.tasks = s.tasks) (waiting : u.numWaiting = s.numWaiting)
      (given : Coming u ∨ u.cleanSem = (s.cleanSem || s.numWaiting != 0))

/-- Every step is of one of these kinds: a `fs_write` of some bytes is in progress until there is
something to do for the write task. -/
theorem waits_change (accounted : Accounted s) (awake : Awake s) (free : FaultFree a)
    (change : Change s a u) : Waits s a u := by
  have apart {t : ι} {pc : Pc} (at_pc : (s.tasks t).pc = pc) (blocked : pc ≠ .blocked)
      (woken : pc ≠ .woken) : ¬(s.tasks t).Registered := by
    rintro (eq | eq)
    · exact blocked (at_pc.symm.trans eq)
    · exact woken (at_pc.symm.trans eq)
  -- The task stays in its call, and may have to put its bytes into a buffer yet.
  have goes {t : ι} {task : Task} {pc : Pc} (at_pc : (s.tasks t).pc = pc) (blocked : pc ≠ .blocked)
      (woken : pc ≠ .woken) (tasks : u.tasks = update s.tasks t task)
      (same : (u.numWaiting, u.cleanSem, u.writer, u.dirtySem) =
        (s.numWaiting, s.cleanSem, s.writer, s.dirtySem))
      (after : ¬task.Registered) (own : (s.tasks t).Writes → task.Writes ∨ Coming u)
      (loaded : ∀ j, task.pc ≠ .loaded j false) : Waits s a u := by
    obtain ⟨waiting, rest⟩ := Prod.mk.inj same
    obtain ⟨sem, rest⟩ := Prod.mk.inj rest
    obtain ⟨writer, dirty⟩ := Prod.mk.inj rest
    refine .task tasks (apart at_pc blocked woken) after (by rw [waiting, sem]) ?_ own loaded
    rw [Coming, Coming, writer, dirty]
    exact id
  have gives {t : ι} {task : Task} {n : Nat} (before : ¬(s.tasks t).Registered)
      (tasks : u.tasks = update s.tasks t task)
      (same : (u.numWaiting, u.cleanSem) = (s.numWaiting, s.cleanSem)) (idle : task.pc = .idle)
      (sem : u.dirtySem = if n < fsPoolSize then n + 1 else n) : Waits s a u :=
    .task tasks before (by simp [Task.Registered, idle]) same (fun _ => coming_giveDirty sem)
      (fun _ => .inr (coming_giveDirty sem)) (by simp [idle])
  cases change with
  | enter pc =>
    exact goes pc nofun nofun rfl rfl (by simp [Task.Registered]) (fun w => absurd pc w.2.1) nofun
  | @moves t attempt pc moves =>
    obtain ⟨⟨blocked, woken⟩, blocked', woken'⟩ := moves.unregistered
    refine goes rfl blocked woken rfl rfl (by simp [Task.Registered, blocked', woken'])
      (fun w => .inl ⟨w.1, moves.busy.2, blocked'⟩) ?_
    rintro j rfl
    rw [moves.gave_up] at free
    cases free
  | readHit pc call | delivers pc call =>
    exact goes pc nofun nofun rfl rfl (by simp [Task.Registered])
      (fun w => absurd w.1 (by simp [Task.Gives, call])) nofun
  | writeHit pc | dirties pc => exact gives (apart pc nofun nofun) rfl rfl rfl rfl
  | waits pc | tagRead pc | command pc | loadDone pc =>
    exact goes pc nofun nofun rfl rfl (by simp [Task.Registered])
      (fun w => .inl ⟨w.1, nofun, nofun⟩) nofun
  | rewrites pc _ _ dirty =>
    exact goes pc nofun nofun rfl rfl (by simp [Task.Registered])
      (fun _ => .inr (accounted.coming dirty)) nofun
  | @better _ _ _ best _ pc =>
    cases best <;> exact goes pc nofun nofun rfl rfl (by simp [Task.Registered])
      (fun w => .inl ⟨w.1, nofun, nofun⟩) nofun
  | @tagWrite t _ j _ _ _ fills =>
    refine gives (t := t) ?_ rfl rfl rfl rfl
    rcases fills with ⟨_, _, _, pc, _⟩ | ⟨pc, _⟩ <;> exact apart pc nofun nofun
  | loadBroken => cases free
  | fails pc => exact absurd pc (awake.loaded _ _)
  | drops pc call nothing =>
    rcases nothing with rfl | none
    · exact absurd pc (awake.loaded _ _)
    · exact goes pc nofun nofun rfl rfl (by simp [Task.Registered])
        (fun w => absurd w.1 (by simp [Task.Gives, call, none])) nofun
  | registers pc => exact .registers rfl pc rfl
  | wakes pc => exact .wakes rfl pc rfl
  | leaves pc => exact .leaves pc rfl
  | lost scan => exact .writer rfl rfl (.inl (.inl (by simp [scan])))
  | transfers sending => exact .writer rfl rfl (.inl (.inl (by simp [sending])))
  | @scanBetter _ _ best => cases best <;> exact .writer rfl rfl (.inl (.inl nofun))
  | claims | scanNext | chooses | locks | refused | accepted | stored | broken =>
    exact .writer rfl rfl (.inl (.inl nofun))
  | givesBack => exact .writer rfl rfl (.inl (coming_giveDirty rfl))
  | releases => exact .writer rfl rfl (.inr rfl)

omit [DecidableEq ι] in
theorem Awake.waiting (h : Awake s) (blocked : ∃ t, (s.tasks t).pc = .blocked) :
    s.numWaiting ≠ 0 := by
  obtain ⟨t, blocked⟩ := blocked
  intro zero
  have pos : 0 < tally Task.Registered s.tasks := tally_pos (i := t) (.inl blocked)
  rw [← h.counted, zero] at pos
  cases pos

theorem awake_registers (h : Awake s) (answered : Answered s (.run t attempt))
    (at_full : (s.tasks t).pc = .full) :
    Awake ({ s with numWaiting := s.numWaiting + 1 }.goto t .blocked) := by
  simp only [Answered, at_full] at answered
  obtain ⟨room, hope⟩ := answered
  constructor
  · exact counted_registers h room rfl rfl (by simp [Task.Registered, at_full])
      (by simp [Task.Registered])
  · rintro -
    rcases hope with sem | coming | ⟨p, ne, writes⟩
    · exact .inl sem
    · exact .inr (.inl coming)
    · exact .inr (.inr ⟨p, by simpa [Fs.goto, update_of_ne ne] using writes⟩)
  · intro p j
    rcases eq_or_ne p t with rfl | ne
    · simp [Fs.goto]
    · simpa [Fs.goto, update_of_ne ne] using h.loaded p j

theorem awake_wakes (h : Awake s) (answered : Answered s (.run t attempt))
    (at_blocked : (s.tasks t).pc = .blocked) :
    Awake ({ s with cleanSem := false }.goto t .woken) := by
  simp only [Answered, at_blocked] at answered
  constructor
  · refine counted_step h rfl rfl (iff_of_true (.inl at_blocked) (.inr rfl))
  · rintro ⟨p, blocked⟩
    have ne : p ≠ t := by
      rintro rfl
      simp [Fs.goto] at blocked
    rcases answered with gives | coming | ⟨q, ne', writes⟩ | alone
    · refine .inr (.inr ⟨t, ?_⟩)
      simp only [Fs.goto, update_self]
      exact ⟨gives, by simp⟩
    · exact .inr (.inl coming)
    · exact .inr (.inr ⟨q, by simpa [Fs.goto, update_of_ne ne'] using writes⟩)
    · exact absurd (by simpa [Fs.goto, update_of_ne ne] using blocked) (alone p ne)
  · intro p j
    rcases eq_or_ne p t with rfl | ne
    · simp [Fs.goto]
    · simpa [Fs.goto, update_of_ne ne] using h.loaded p j

theorem awake_task (h : Awake s) (tasks : u.tasks = update s.tasks t task)
    (counted : u.numWaiting.toNat = tally Task.Registered u.tasks) (blocked : task.pc ≠ .blocked)
    (sem : u.cleanSem = s.cleanSem) (coming : Coming s → Coming u)
    (own : (s.tasks t).Writes → task.Writes ∨ Coming u) (loaded : ∀ j, task.pc ≠ .loaded j false) :
    Awake u := by
  refine ⟨counted, ?_, ?_⟩
  · rintro ⟨p, at_blocked⟩
    have ne : p ≠ t := by
      rintro rfl
      rw [tasks, update_self] at at_blocked
      exact blocked at_blocked
    rw [tasks, update_of_ne ne] at at_blocked
    rw [sem]
    rcases h.answered ⟨p, at_blocked⟩ with given | comes | ⟨q, writes⟩
    · exact .inl given
    · exact .inr (.inl (coming comes))
    · rcases eq_or_ne q t with rfl | ne'
      · rcases own writes with writes | comes
        · exact .inr (.inr ⟨q, by rwa [tasks, update_self]⟩)
        · exact .inr (.inl comes)
      · exact .inr (.inr ⟨q, by rwa [tasks, update_of_ne ne']⟩)
  · intro p j
    rw [tasks]
    rcases eq_or_ne p t with rfl | ne
    · rw [update_self]
      exact loaded j
    · rw [update_of_ne ne]
      exact h.loaded p j

theorem awake_step (accounted : Accounted s) (h : Awake s) (free : FaultFree a)
    (answered : Answered s a) (change : Change s a u) : Awake u := by
  cases waits_change accounted h free change with
  | registers run at_full eq =>
    subst run eq
    exact awake_registers h answered at_full
  | wakes run at_blocked eq =>
    subst run eq
    exact awake_wakes h answered at_blocked
  | leaves at_woken eq =>
    subst eq
    refine awake_task h rfl ?_ nofun rfl id (fun w => .inl ⟨w.1, nofun, nofun⟩) nofun
    exact counted_leaves h rfl rfl (.inr at_woken) (by simp [Task.Registered])
  | task tasks before after same coming own loaded =>
    obtain ⟨waiting, sem⟩ := Prod.mk.inj same
    exact awake_task h tasks (counted_step h tasks waiting (iff_of_false before after))
      (fun blocked => after (.inl blocked)) sem coming own loaded
  | writer tasks waiting given =>
    refine ⟨by rw [tasks, waiting, h.counted], ?_, by rw [tasks]; exact h.loaded⟩
    rw [tasks]
    intro blocked
    rcases given with coming | sem
    · exact .inr (.inl coming)
    · refine .inl ?_
      simp [sem, h.waiting blocked]

theorem awake_run {ok} (run : Run step ok s u)
    (allowed : ∀ s a, ok s a → FaultFree a ∧ Answered s a) (locked : Locked s) (flagged : Flagged s)
    (accounted : Accounted s) (h : Awake s) : Awake u :=
  run.invariant_of Accounted Awake
    (fun _ prior => accounted_run prior (fun s a ok => (allowed s a ok).1.stores) locked flagged
      accounted)
    (fun s a _ accounted h ok hstep =>
      awake_step accounted h (allowed s a ok).1 (allowed s a ok).2 (step_change hstep)) h

end Counting

theorem not_stuck [Fintype ι] (accounted : Accounted s) (h : Awake s) : ¬Stuck s := by
  rintro ⟨blocked, clean, unavailable, idle, others⟩
  rcases h.answered blocked with available | coming | ⟨p, _, busy, free⟩
  · rw [unavailable] at available
    cases available
  · have count := accounted.count
    have none : dirtyCount s.pool = 0 := tally_eq_zero_iff.mpr (by simp [clean])
    rcases coming with busy | pos
    · exact busy idle
    · omega
  · rcases others p with eq | eq
    · exact busy eq
    · exact free eq

/-- A task that goes to wait while nobody else is at work is blocked for ever, unless the
semaphore is available. -/
theorem registers_stuck [DecidableEq ι] {t} {attempt} (accounted : Accounted s)
    (at_full : (s.tasks t).pc = .full)
    (others : ∀ p, p ≠ t → (s.tasks p).pc = .idle ∨ (s.tasks p).pc = .blocked)
    (hstep : step s (.run t attempt) = some u) :
    Stuck u ↔ s.cleanSem = false ∧ ¬Coming s := by
  have eq : u = { s with numWaiting := s.numWaiting + 1 }.goto t .blocked := by
    cases step_change hstep with
    | registers => rfl
    | moves moves =>
      rw [at_full] at moves
      cases moves
    | tagWrite fills => rcases fills with ⟨_, _, _, pc, _⟩ | ⟨pc, _⟩ <;> simp_all
    | _ => simp_all
  have count := accounted.count
  subst eq
  constructor
  · rintro ⟨_, clean, unavailable, idle, _⟩
    refine ⟨unavailable, ?_⟩
    have clean : ∀ i, (s.pool i).dirty = false := clean
    have none : dirtyCount s.pool = 0 := tally_eq_zero_iff.mpr (by simp [clean])
    have idle : s.writer = .idle := idle
    rintro (busy | pos)
    · exact busy idle
    · omega
  · rintro ⟨unavailable, none⟩
    simp only [Coming, not_or, not_not, not_lt, Nat.le_zero] at none
    rw [none.1, none.2] at count
    have clean : ∀ i, (s.pool i).dirty = false := by simpa using tally_eq_zero_iff.mp count.symm
    refine ⟨⟨t, by simp [Fs.goto]⟩, clean, unavailable, none.1, fun p => ?_⟩
    rcases eq_or_ne p t with rfl | ne
    · simp [Fs.goto]
    · simpa [Fs.goto, update_of_ne ne] using others p ne

/-- In every fault-free run in which a task goes to wait only if the semaphore is available or
somebody will give it, and takes it only if it leaves nobody behind without that, no task is
blocked for ever. Where nobody else is at work, a task that goes to wait without that is. -/
theorem waiters_answered [Fintype ι] [DecidableEq ι] (sdhc : Bool)
    (content : Fin fsPoolSize → Block) (medium : UInt32 → Block) (s : Fs ι)
    (run : Run step (fun s a => FaultFree a ∧ Answered s a) (Fs.init sdhc content medium) s) :
    ¬Stuck s ∧
      ∀ t attempt u, (s.tasks t).pc = .full →
        (∀ p, p ≠ t → (s.tasks p).pc = .idle ∨ (s.tasks p).pc = .blocked) →
        step s (.run t attempt) = some u →
        (Stuck u ↔ s.cleanSem = false ∧ ¬Coming s) := by
  have accounted : Accounted s := accounted_run run (fun _ _ ok => ok.1.stores) (locked_init ..)
    (flagged_init ..) (accounted_init ..)
  have awake : Awake s := awake_run run (fun _ _ ok => ok) (locked_init ..) (flagged_init ..)
    (accounted_init ..) (awake_init ..)
  refine ⟨not_stuck accounted awake, ?_⟩
  intro t attempt u at_full others hstep
  exact registers_stuck accounted at_full others hstep

def fillCalls : List Call :=
  (List.range fsPoolSize).map fun n => .write (UInt32.ofNat (n + 1)) 0 [9]

/-- With all the buffers dirty a call for page 31 finds nothing, and the write task can write them
all. -/
theorem fill_pool :
    ∃ c c', atomicCalls (.fsInit true (fun _ _ => 0) fun _ _ => 7) fillCalls = some c ∧
    atomicWrites c fsPoolSize = some c' ∧ c.lookupUsed 31 = none ∧ c.reserveBuffer = none ∧
    (0 < c.dirtySem ∧ ∀ i, (c'.pool i).dirty = false) ∧ c'.lookupUsed 31 = none ∧
    c'.reserveBuffer = some 0 := by
  have filled : ((atomicCalls (.fsInit true (fun _ _ => 0) fun _ _ => 7) fillCalls).bind fun c =>
      (atomicWrites c fsPoolSize).map fun c' => (c.lookupUsed 31, c.reserveBuffer,
        decide (0 < c.dirtySem ∧ ∀ i, (c'.pool i).dirty = false), c'.lookupUsed 31,
        c'.reserveBuffer)) = some (none, none, true, none, some 0) := by
    decide +kernel
  obtain ⟨c, calls, rest⟩ := Option.bind_eq_some_iff.mp filled
  obtain ⟨c', writes, seen⟩ := Option.map_eq_some_iff.mp rest
  simp only [Prod.mk.injEq, decide_eq_true_eq] at seen
  exact ⟨c, c', calls, writes, seen⟩

theorem quiet_sevens : Quiet (sevens : Fs ι) :=
  ⟨fun _ => rfl, fun _ => rfl, rfl, rfl, rfl⟩

theorem fill_valid : ∀ call ∈ fillCalls, call.Valid := by
  intro call mem
  obtain ⟨n, _, rfl⟩ := List.mem_map.mp mem
  exact ⟨by decide, by decide⟩

theorem filled [DecidableEq ι] (t : ι) {c}
    (calls : atomicCalls (.fsInit true (fun _ _ => 0) fun _ _ => 7) fillCalls = some c) :
    ∃ s : Fs ι, Alone sevens s ∧ Quiet s ∧ s.cache = c ∧ (∀ p, (s.tasks p).pc = .idle) ∧
      s.numWaiting = 0 ∧ s.cleanSem = false := by
  obtain ⟨s, run, quiet, cache, idle, others, waiting⟩ :=
    calls_alone (s := (sevens : Fs ι)) (t := t) quiet_sevens rfl fill_valid calls
  obtain ⟨waiting, sem⟩ := Prod.mk.inj waiting
  refine ⟨s, run, quiet, cache, fun p => ?_, waiting, sem⟩
  rcases eq_or_ne p t with rfl | ne
  · exact idle
  · rw [others p ne]
    rfl

section Waits

variable [DecidableEq ι] {t : ι} {ok : Fs ι → Action ι → Prop} (calm : ∀ s a, Calm s a → ok s a)

theorem late_full (quiet : Quiet s) (idle : (s.tasks t).pc = .idle)
    (miss : s.cache.lookupUsed 31 = none) (full : s.cache.reserveBuffer = none) :
    Alone s (s.setTask t ⟨.full, .read 31 0 1, 1, []⟩) :=
  full_alone quiet idle (show (Call.read 31 0 1).Valid by decide)
    (IndexScan.first_eq_none_iff.mp miss) full

theorem step_registers (at_full : (s.tasks t).pc = .full) (sound : s.fault = false) :
    step s (.run t .done) = some ({ s with numWaiting := s.numWaiting + 1 }.goto t .blocked) := by
  simp [step, sound, Fs.run, at_full]

include calm

theorem late_blocked (quiet : Quiet s) (idle : (s.tasks t).pc = .idle)
    (miss : s.cache.lookupUsed 31 = none) (full : s.cache.reserveBuffer = none)
    (registers : ok (s.setTask t ⟨.full, .read 31 0 1, 1, []⟩) (.run t .done)) :
    ∃ u, Run step ok s u ∧ Quiet u ∧ u.cache = s.cache ∧
      u.tasks = update s.tasks t ⟨.blocked, .read 31 0 1, 1, []⟩ ∧
      u.numWaiting = s.numWaiting + 1 := by
  have at_full : ((s.setTask t ⟨.full, .read 31 0 1, 1, []⟩).tasks t).pc = .full := by simp
  refine ⟨_, .next (.run t .done) ((late_full quiet idle miss full).weaken calm) registers
    (step_registers at_full quiet.sound), { quiet with }, rfl, ?_, rfl⟩
  simp [Fs.goto, Fs.setTask]

theorem late_woken {j} (quiet : Quiet s)
    (blocked : s.tasks t = ⟨.blocked, .read 31 0 1, 1, []⟩) (available : s.cleanSem = true)
    (clean : ∀ i, (s.pool i).dirty = false) (miss : s.cache.lookupUsed 31 = none)
    (victim : s.cache.reserveBuffer = some j) (takes : ok s (.run t .done)) :
    ∃ u, Run step ok s u ∧ Quiet u ∧ (u.tasks t).pc = .idle ∧ (∀ p, p ≠ t → u.tasks p = s.tasks p) ∧
      u.cleanSem = false ∧ ∀ i, (u.pool i).dirty = false := by
  have wakes : step s (.run t .done) = some (Fs.setTask { s with cleanSem := false } t
      ⟨.woken, .read 31 0 1, 1, []⟩) := by
    simp [step, quiet.sound, Fs.run, blocked, available, Fs.goto, Fs.setTask]
  have leaves : (Fs.setTask { s with cleanSem := false } t ⟨.woken, .read 31 0 1, 1, []⟩).run
      t .done =
      some (Fs.setTask { s with cleanSem := false, numWaiting := s.numWaiting - 1 } t
        ⟨.lookup 0, .read 31 0 1, 1, []⟩) := by
    simp [Fs.run, Fs.goto, Fs.setTask]
  have quiet' : Quiet { s with cleanSem := false, numWaiting := s.numWaiting - 1 } :=
    { quiet with }
  refine ⟨_, Run.trans (.next (.run t .done) .start takes wakes)
    (Run.weaken (Run.trans (Alone.then .start leaves quiet.sound)
      (read_load t 1 quiet' miss victim)) calm), { quiet with }, by simp, ?_, rfl, ?_⟩
  · intro p ne
    simp [Fs.setTask, Fs.putBuffer, ne]
  · exact fun i => (dirty_put (clean j).symm i).trans (clean i)

end Waits

theorem Calm.answered {s : Fs ι} {a} (calm : Calm s a) : FaultFree a ∧ Answered s a := by
  refine ⟨calm.1, ?_⟩
  cases a with
  | run t attempt =>
    obtain ⟨full, blocked⟩ := calm.2 t attempt rfl
    dsimp only [Answered]
    split
    · exact absurd ‹_› full
    · exact absurd ‹_› blocked
    · trivial
  | _ => trivial

/-- A task finds all the buffers dirty and waits, the write task writes them all, and the task is
woken and returns. -/
theorem waiters_answered_woken : ∃ s u : Fs Unit,
    Run step (fun s a => FaultFree a ∧ Answered s a) sevens s ∧ (s.tasks ()).pc = .blocked ∧
    Run step (fun s a => FaultFree a ∧ Answered s a) s u ∧ (u.tasks ()).pc = .idle ∧
    ¬Stuck s ∧ ¬Stuck u := by
  have calm : ∀ (s : Fs Unit) a, Calm s a → FaultFree a ∧ Answered s a := fun _ _ h => h.answered
  obtain ⟨c, c', calls, writes, miss, full, ⟨coming, clean⟩, miss', victim⟩ := fill_pool
  obtain ⟨s₁, run₁, quiet₁, rfl, idle₁, waiting₁, _⟩ := filled () calls
  have coming : 0 < s₁.dirtySem := coming
  obtain ⟨s₂, run₂, quiet₂, cache₂, tasks₂, waiting₂⟩ := late_blocked calm quiet₁ (idle₁ ()) miss
    full ⟨rfl, by simp [Answered, Fs.setTask, waiting₁, Coming, coming]⟩
  obtain ⟨s₃, run₃, quiet₃, rfl, tasks₃, _, sem₃⟩ :=
    writes_alone quiet₂ (n := fsPoolSize) (by rwa [cache₂])
  have available : s₃.cleanSem = true := by
    rw [sem₃, waiting₂, waiting₁]
    cases s₂.cleanSem <;> rfl
  have blocked : s₃.tasks () = ⟨.blocked, .read 31 0 1, 1, []⟩ := by simp [tasks₃, tasks₂]
  obtain ⟨s₄, run₄, -, idle₄, -⟩ := late_woken calm quiet₃ blocked available clean miss' victim
    ⟨rfl, by simp [Answered, blocked]⟩
  have first := (run₁.weaken calm).trans run₂
  have second := (run₃.weaken calm).trans run₄
  exact ⟨s₂, s₄, first, by simp [tasks₂], second, idle₄,
    (waiters_answered true (fun _ _ => 0) (fun _ _ => 7) s₂ first).1,
    (waiters_answered true (fun _ _ => 0) (fun _ _ => 7) s₄ (first.trans second)).1⟩

/-- A task finds all the buffers dirty, the write task writes them all, and only then the task is
counted: it is blocked for ever. -/
theorem late_registration : ∃ s : Fs Unit, Runs sevens s ∧ Stuck s := by
  obtain ⟨c, c', calls, writes, miss, full, ⟨-, clean⟩, _⟩ := fill_pool
  obtain ⟨s₁, run₁, quiet₁, rfl, idle₁, waiting₁, sem₁⟩ := filled () calls
  have run₂ := run₁.trans (late_full quiet₁ (idle₁ ()) miss full)
  obtain ⟨s₃, run₃, quiet₃, rfl, tasks₃, waiting₃, sem₃⟩ :=
    writes_alone (s := s₁.setTask () ⟨.full, .read 31 0 1, 1, []⟩)
      { quiet₁ with } writes
  have at_full : (s₃.tasks ()).pc = .full := by rw [tasks₃, setTask_tasks]
  have sem : s₃.cleanSem = false := by
    have zero : (s₁.setTask () ⟨.full, .read 31 0 1, 1, []⟩).numWaiting = 0 := waiting₁
    have none : (s₁.setTask () ⟨.full, .read 31 0 1, 1, []⟩).cleanSem = false := sem₁
    rw [sem₃, zero, none]
    rfl
  refine ⟨_, .next (.run () .done) (Alone.runs (run₂.trans run₃)) rfl
    (step_registers at_full quiet₃.sound), ?_⟩
  exact ⟨⟨(), by simp [Fs.goto]⟩, clean, sem, quiet₃.writer, fun _ => .inr (by simp [Fs.goto])⟩

/-- Two tasks are blocked, the write task writes all the buffers, and the first task takes the
semaphore for a read, which makes no buffer dirty: the second one is blocked for ever. -/
theorem shared_wake_up : ∃ s : Fs (Fin 2), Runs sevens s ∧ Stuck s := by
  have free : ∀ (s : Fs (Fin 2)) a, Calm s a → FaultFree a := fun _ _ ok => ok.1
  obtain ⟨c, c', calls, writes, miss, full, ⟨-, clean⟩, miss', victim⟩ := fill_pool
  obtain ⟨s₁, run₁, quiet₁, rfl, idle₁, waiting₁, _⟩ := filled (0 : Fin 2) calls
  -- Both tasks go to wait.
  obtain ⟨s₂, run₂, quiet₂, cache₂, tasks₂, waiting₂⟩ := late_blocked free quiet₁ (idle₁ 0) miss
    full rfl
  have idle₂ : (s₂.tasks 1).pc = .idle := by simp [tasks₂, idle₁ 1]
  obtain ⟨s₃, run₃, quiet₃, cache₃, tasks₃, waiting₃⟩ :=
    late_blocked free quiet₂ idle₂ (cache₂ ▸ miss) (cache₂ ▸ full) rfl
  -- The write task writes all the buffers.
  obtain ⟨s₄, run₄, quiet₄, rfl, tasks₄, _, sem₄⟩ :=
    writes_alone quiet₃ (n := fsPoolSize) (by rwa [cache₃, cache₂])
  have available : s₄.cleanSem = true := by
    rw [sem₄, waiting₃, waiting₂, waiting₁]
    cases s₃.cleanSem <;> rfl
  -- The first task takes the semaphore.
  have blocked : s₄.tasks 0 = ⟨.blocked, .read 31 0 1, 1, []⟩ := by
    simp [tasks₄, tasks₃, tasks₂]
  obtain ⟨s₅, run₅, quiet₅, idle₅, others₅, sem₅, clean₅⟩ :=
    late_woken free quiet₄ blocked available clean miss' victim rfl
  have stuck : (s₅.tasks 1).pc = .blocked := by
    rw [others₅ 1 (by decide), tasks₄, tasks₃, update_self]
  refine ⟨s₅, (((run₁.runs.trans run₂).trans run₃).trans run₄.runs).trans run₅,
    ⟨1, stuck⟩, clean₅, sem₅,
    quiet₅.writer, fun p => ?_⟩
  fin_cases p
  · exact .inl idle₅
  · exact .inr stuck

/-- A task is blocked for ever because it is counted too late, or because two tasks share one
semaphore. -/
theorem lost_wake_ups : (∃ s : Fs Unit, Run step (fun _ a => FaultFree a) sevens s ∧ Stuck s) ∧
    ∃ s : Fs (Fin 2), Run step (fun _ a => FaultFree a) sevens s ∧ Stuck s :=
  ⟨late_registration, shared_wake_up⟩

end PageTasks
