import OpenLab.PageDirty

/-!
# Calls that are not interrupted

A call that runs to its end while no mutex is taken does what the call of the page cache with one
task does, and so does an iteration of the write task.
-/

namespace PageTasks

open Schedules List Option
open PageCache (Block Buffer Call Attempt Cache fsPoolSize pageSize maxRetry maxUse cpy bytes)
open PageCache.Cache (used)
open Function (update update_self update_eq_self)

variable {ι : Type}

/-- No mutex is taken, and the write task waits for `dirty_sem`. -/
structure Quiet (s : Fs ι) : Prop where
  headers : ∀ i, s.vMutex i = none
  contents : ∀ i, s.vContentMutex i = none
  access : s.sdAccess = none
  writer : s.writer = .idle
  sound : s.fault = false

def Fs.cache (s : Fs ι) : Cache := ⟨s.sdhc, s.pool, s.medium, s.dirtySem, 0, s.fault⟩

def served : PageCache.Attempts := fun _ => .done

section Locks

variable {s : Fs ι} {o : Owner ι} {best : Option (Fin fsPoolSize)}
  {i j : Fin fsPoolSize} {b : Buffer}

def Fs.lockBest (s : Fs ι) (o : Owner ι) : Option (Fin fsPoolSize) → Fs ι
  | none => s
  | some j => s.lock j o

@[simp] theorem lockBest_pool : (s.lockBest o best).pool = s.pool := by
  cases best <;> rfl

theorem lockBest_fault : (s.lockBest o best).fault = s.fault := by
  cases best <;> rfl

theorem Quiet.put (quiet : Quiet s) : Quiet (s.putBuffer i b) :=
  { quiet with }

theorem Quiet.dirty (quiet : Quiet s) : Quiet (s.putDirty i b) :=
  { quiet with }

theorem Quiet.update_none (quiet : Quiet s) (j : Fin fsPoolSize) :
    update s.vMutex j none = s.vMutex := by
  rw [← quiet.headers j, update_eq_self]

theorem Quiet.unlock_lock (quiet : Quiet s) : (s.lock j o).unlock j = s := by
  simp [Fs.lock, Fs.unlock, quiet.update_none]

theorem Quiet.unlockBest_lockBest (quiet : Quiet s) (best : Option (Fin fsPoolSize)) :
    (s.lockBest o best).unlockBest best = s := by
  cases best with
  | none => rfl
  | some j => exact quiet.unlock_lock

theorem Quiet.lockBest_free (quiet : Quiet s) {k} (ne : best ≠ some k) :
    (s.lockBest o best).vMutex k = none := by
  cases best with
  | none => exact quiet.headers k
  | some j =>
    have ne : k ≠ j := fun eq => ne (by rw [eq])
    simp [Fs.lockBest, Fs.lock, ne, quiet.headers]

end Locks

variable [DecidableEq ι]

def Fs.setTask (s : Fs ι) (t : ι) (task : Task) : Fs ι :=
  { s with tasks := update s.tasks t task }

/-- A task keeps `vMutex` of a buffer, which holds `b`. -/
def Fs.own (s : Fs ι) (t : ι) (j : Fin fsPoolSize) (b : Buffer) (task : Task) : Fs ι :=
  ((s.lock j (.task t)).putBuffer j b).setTask t task

variable {s u : Fs ι} {t : ι} {call : Call} {n : Nat} {buf : List UInt8}

section SetTask

variable {task : Task} {i j : Fin fsPoolSize} {b b' : Buffer} {o : Owner ι} {pc : Pc}

@[simp] theorem setTask_tasks : (s.setTask t task).tasks t = task := by
  simp [Fs.setTask]

@[simp] theorem goto_setTask :
    (s.setTask t task).goto t pc = s.setTask t { task with pc := pc } := by
  simp [Fs.goto, Fs.setTask]

@[simp] theorem setTask_pool : (s.setTask t task).pool = s.pool := rfl

@[simp] theorem setTask_vMutex : (s.setTask t task).vMutex = s.vMutex := rfl

@[simp] theorem putBuffer_setTask :
    (s.setTask t task).putBuffer i b = (s.putBuffer i b).setTask t task := rfl

@[simp] theorem putDirty_setTask :
    (s.setTask t task).putDirty i b = (s.putDirty i b).setTask t task := rfl

@[simp] theorem lock_setTask : (s.setTask t task).lock i o = (s.lock i o).setTask t task := rfl

theorem unlockBest_setTask {best} :
    (s.setTask t task).unlockBest best = (s.unlockBest best).setTask t task := by
  cases best <;> rfl

@[simp] theorem deliver_setTask {content} {offset} :
    (s.setTask t task).deliver t content offset pc =
      s.setTask t { task with pc := pc, buf := bytes content offset task.s } := by
  simp [Fs.deliver, Fs.setTask]

theorem lock_eq_own : (s.lock j (.task t)).setTask t task = s.own t j (s.pool j) task := by
  simp [Fs.own, Fs.putBuffer, Fs.lock]

@[simp] theorem own_tasks : (s.own t j b task).tasks t = task := setTask_tasks

@[simp] theorem own_pool : (s.own t j b task).pool j = b := update_self ..

@[simp] theorem own_goto : (s.own t j b task).goto t pc = s.own t j b { task with pc := pc } :=
  goto_setTask

@[simp] theorem own_put : (s.own t j b task).putBuffer j b' = s.own t j b' task := by
  simp [Fs.own, Fs.putBuffer, Fs.setTask]

theorem Quiet.own_unlock (quiet : Quiet s) :
    (s.own t j b task).unlock j = (s.putBuffer j b).setTask t task :=
  congrArg (fun v => (v.putBuffer j b).setTask t task) quiet.unlock_lock

theorem Quiet.own_dirty (quiet : Quiet s) :
    ((s.own t j b task).putDirty j b').unlock j = (s.putDirty j b').setTask t task := by
  change ((s.own t j b task).putBuffer j b').giveDirty.unlock j = _
  rw [own_put]
  exact congrArg (fun v => (v.putDirty j b').setTask t task) quiet.unlock_lock

end SetTask

abbrev Runs (s u : Fs ι) : Prop := Run step (fun _ a => FaultFree a) s u

/-- No fault, and no step of a task that waits for a clean buffer. -/
def Calm (s : Fs ι) (a : Action ι) : Prop :=
  FaultFree a ∧ ∀ t attempt, a = .run t attempt →
    (s.tasks t).pc ≠ .full ∧ (s.tasks t).pc ≠ .blocked

abbrev Alone (s u : Fs ι) : Prop := Run step Calm s u

theorem Alone.runs (run : Alone s u) : Runs s u := run.weaken fun _ _ ok => ok.1

theorem Alone.then {v} (run : Alone s u) (next : u.run t .done = some v) (sound : u.fault = false)
    (calm : (u.tasks t).pc ≠ .full ∧ (u.tasks t).pc ≠ .blocked := by simp) : Alone s v := by
  refine .next (.run t .done) run ⟨rfl, ?_⟩ (by simpa [step, sound] using next)
  rintro _ _ ⟨⟩
  exact calm

def finds (call : Call) (b : Buffer) : Bool :=
  match call with
  | .read page _ _ => page == b.page && b.use != 0
  | .write page _ _ => page == b.page

theorem lookup_run (quiet : Quiet s) {i} (le : i ≤ fsPoolSize)
    (miss : ∀ k : Fin fsPoolSize, k.val < i → finds call (s.pool k) = false) :
    Alone (s.setTask t ⟨.lookup 0, call, n, buf⟩) (s.setTask t ⟨.lookup i, call, n, buf⟩) := by
  induction i with
  | zero => exact .start
  | succ i ih =>
    have here := miss ⟨i, le⟩ (Nat.lt_succ_self i)
    refine (ih (by omega) fun k lt => miss k (by omega)).then (t := t) ?_ quiet.sound
    simp only [Fs.run, setTask_tasks, dif_pos (show i < fsPoolSize from le), setTask_vMutex,
      quiet.headers, if_true, Fs.lookupStep]
    cases call with
    | read page offset size =>
      have here : (page == (s.pool ⟨i, le⟩).page && (s.pool ⟨i, le⟩).use != 0) = false := here
      simp [here]
    | write page offset data =>
      have here : (page == (s.pool ⟨i, le⟩).page) = false := here
      simp [here]

def Fs.reserving (s : Fs ι) (i : Nat) : Nat × Option (Fin fsPoolSize) :=
  IndexScan.upto (fun k => (s.pool k).use) (fun k => !(s.pool k).dirty) (maxUse + 1) i

def Fs.atReserve (s : Fs ι) (t : ι) (call : Call) (n : Nat) (buf : List UInt8) (i : Nat) : Fs ι :=
  (s.lockBest (.task t) (s.reserving i).2).setTask t
    ⟨.reserve i (s.reserving i).2 (s.reserving i).1, call, n, buf⟩

@[simp] theorem atReserve_tasks {i} : (s.atReserve t call n buf i).tasks t =
    ⟨.reserve i (s.reserving i).2 (s.reserving i).1, call, n, buf⟩ := setTask_tasks

theorem reserve_round (quiet : Quiet s) {i} (lt : i < fsPoolSize) :
    (s.atReserve t call n buf i).run t .done = some (s.atReserve t call n buf (i + 1)) := by
  have round : s.reserving (i + 1) = IndexScan.better (fun k => (s.pool k).use)
      (fun k => !(s.pool k).dirty) (s.reserving i) ⟨i, lt⟩ := IndexScan.upto_succ ⟨i, lt⟩
  have free : (s.lockBest (.task t) (s.reserving i).2).vMutex ⟨i, lt⟩ = none :=
    quiet.lockBest_free fun eq => absurd (IndexScan.upto_lt lt.le eq) (lt_irrefl i)
  simp only [Fs.atReserve, round, IndexScan.better, Fs.run, setTask_tasks, dif_pos lt,
    setTask_vMutex,
    if_pos free, Fs.reserveStep, setTask_pool, lockBest_pool, goto_setTask, unlockBest_setTask,
    quiet.unlockBest_lockBest, lock_setTask]
  by_cases good : (s.pool ⟨i, lt⟩).dirty = false ∧ (s.pool ⟨i, lt⟩).use < (s.reserving i).1
  · rw [if_pos good, if_pos (by simpa using good)]
    rfl
  · rw [if_neg good, if_neg (by simpa using good)]

theorem reserve_run (quiet : Quiet s) {i} (le : i ≤ fsPoolSize) :
    Alone (s.atReserve t call n buf 0) (s.atReserve t call n buf i) := by
  induction i with
  | zero => exact .start
  | succ i ih =>
    exact (ih (by omega)).then (reserve_round quiet le) (lockBest_fault.trans quiet.sound)

theorem reserved_run (quiet : Quiet s) (miss : ∀ k, finds call (s.pool k) = false) :
    Alone (s.setTask t ⟨.lookup 0, call, n, buf⟩) (s.atReserve t call n buf fsPoolSize) := by
  have missed : (s.setTask t ⟨.lookup fsPoolSize, call, n, buf⟩).run t .done =
      some (s.atReserve t call n buf 0) := by
    simp only [Fs.run, setTask_tasks, lt_irrefl, dif_neg, not_false_iff, goto_setTask]
    rfl
  exact ((lookup_run quiet le_rfl fun k _ => miss k).then missed quiet.sound).trans
    (reserve_run quiet le_rfl)

/-- After an uninterrupted call: the cache and the reply are those of the atomic call, and
nothing else has changed. -/
structure Ended (s : Fs ι) (t : ι) (c : Cache) (r : Cache.Reply) (u : Fs ι) : Prop where
  quiet : Quiet u
  cache : u.cache = { c with failedAttempt := 0 }
  idle : (u.tasks t).pc = .idle
  reply : (⟨(u.tasks t).s, (u.tasks t).buf⟩ : Cache.Reply) = r
  others : ∀ p, p ≠ t → u.tasks p = s.tasks p
  waiting : (u.numWaiting, u.cleanSem) = (s.numWaiting, s.cleanSem)

theorem ended_of {v} {c} (quiet : Quiet v)
    (same : (v.tasks, v.numWaiting, v.cleanSem) = (s.tasks, s.numWaiting, s.cleanSem))
    (cache : v.cache = { c with failedAttempt := 0 }) :
    Ended s t c ⟨n, buf⟩ (v.setTask t ⟨.idle, call, n, buf⟩) where
  quiet := { quiet with }
  cache := cache
  idle := by simp
  reply := by simp
  others p ne := by
    rw [← (Prod.mk.inj same).1]
    simp [Fs.setTask, ne]
  waiting := (Prod.mk.inj same).2

theorem enter_run (quiet : Quiet s) (idle : (s.tasks t).pc = .idle) (valid : call.Valid) :
    Alone s (s.setTask t ⟨.lookup 0, call, Fs.size call, []⟩) := by
  refine .next (.enter t call) .start ⟨trivial, by simp⟩ ?_
  simp only [step, quiet.sound, idle, if_pos valid, Bool.false_eq_true, if_false]
  rfl

theorem first_finds {p : Fin fsPoolSize → Bool} {i k : Fin fsPoolSize}
    (h : IndexScan.first p = some i) (lt : k.val < i.val) : p k = false := by
  by_contra found
  have := (IndexScan.first_spec h).2 k (by simpa using found)
  exact absurd lt (not_lt.mpr this)

section Calls

variable {page : UInt32} {offset size : Nat} {data : List UInt8} {i j : Fin fsPoolSize}

theorem size_read (valid : (Call.read page offset size).Valid) :
    Fs.size (.read page offset size) = size := by
  have := valid.2
  simp only [Fs.size]
  omega

theorem size_write (valid : (Call.write page offset data).Valid) :
    Fs.size (.write page offset data) = data.length := by
  have := valid.2
  simp only [Fs.size]
  omega

theorem fetch_run (quiet : Quiet s) (b : Buffer) :
    Alone (s.own t j b ⟨.load j 0, call, n, buf⟩)
      (s.own t j { b with content := s.medium (s.address call.page) }
        ⟨.loaded j true, call, n, buf⟩) := by
  have access : s.sdAccess = none := quiet.access
  have command : (s.own t j b ⟨.load j 0, call, n, buf⟩).run t .done =
      some { s.own t j b ⟨.loading j 0, call, n, buf⟩ with sdAccess := some (.task t) } := by
    simp [Fs.run, Fs.own, Fs.lock, Fs.putBuffer, access, Fs.setTask, Fs.goto]
  have done : Fs.run { s.own t j b ⟨.loading j 0, call, n, buf⟩ with
      sdAccess := some (.task t) } t .done =
      some (s.own t j { b with content := s.medium (s.address call.page) }
        ⟨.loaded j true, call, n, buf⟩) := by
    simp [Fs.run, Fs.own, Fs.lock, access, Fs.setTask, Fs.goto, Fs.putBuffer, Fs.address]
  exact (Alone.then .start command quiet.sound).then done quiet.sound

theorem reserve_victim (t : ι) (call : Call) (n : Nat) (quiet : Quiet s)
    (miss : ∀ k, finds call (s.pool k) = false) (victim : s.cache.reserveBuffer = some j) :
    ∃ low, Alone (s.setTask t ⟨.lookup 0, call, n, []⟩)
      (s.own t j (s.pool j) ⟨.reserve fsPoolSize (some j) low, call, n, []⟩) := by
  have run : Alone _ (s.atReserve t call n [] fsPoolSize) := reserved_run quiet miss
  have best : (s.reserving fsPoolSize).2 = some j := IndexScan.upto_all.trans victim
  refine ⟨(s.reserving fsPoolSize).1, ?_⟩
  simpa [Fs.atReserve, best, Fs.lockBest, lock_eq_own] using run

omit [DecidableEq ι] in
theorem loadPage_served :
    s.cache.loadPage page j served = ⟨true, s.medium (s.address page), 0⟩ := by
  rfl

theorem read_hit (quiet : Quiet s) (hit : s.cache.lookupUsed page = some i) :
    Alone (s.setTask t ⟨.lookup 0, .read page offset size, n, buf⟩)
      ((s.putBuffer i { s.pool i with use := used (s.pool i) }).setTask t
        ⟨.idle, .read page offset size, n, bytes (s.pool i).content offset n⟩) := by
  have look : Alone (s.setTask t ⟨.lookup 0, .read page offset size, n, buf⟩)
      (s.setTask t ⟨.lookup i, .read page offset size, n, buf⟩) :=
    lookup_run quiet i.isLt.le fun k lt => first_finds hit lt
  have found : (page == (s.pool i).page && (s.pool i).use != 0) = true :=
    (IndexScan.first_spec hit).1
  refine look.then (t := t) ?_ quiet.sound
  simp [Fs.run, Fs.lookupStep, quiet.headers, found]

theorem read_load (t : ι) (n : Nat) (quiet : Quiet s) (miss : s.cache.lookupUsed page = none)
    (victim : s.cache.reserveBuffer = some j) :
    Alone (s.setTask t ⟨.lookup 0, .read page offset size, n, []⟩)
      ((s.putBuffer j ⟨s.medium (s.address page), false, page, 2⟩).setTask t
        ⟨.idle, .read page offset size, n, bytes (s.medium (s.address page)) offset n⟩) := by
  obtain ⟨low, reserve⟩ := reserve_victim t (.read page offset size) n quiet
    (IndexScan.first_eq_none_iff.mp miss) victim
  have tagged : Alone _ (s.own t j ⟨(s.pool j).content, false, page, 1⟩
      ⟨.load j 0, .read page offset size, n, []⟩) :=
    reserve.then (t := t) (by simp [Fs.run, Fs.reserved]) quiet.sound
  have delivered : Alone _ ((s.putBuffer j ⟨s.medium (s.address page), false, page, 1⟩).setTask t
      ⟨.lookup 0, .read page offset size, n, bytes (s.medium (s.address page)) offset n⟩) :=
    Alone.then (t := t) (tagged.trans (fetch_run quiet _))
      (by simp [Fs.run, Fs.loadedStep, quiet.own_unlock, Call.page]) quiet.sound
  have found : (s.putBuffer j ⟨s.medium (s.address page), false, page, 1⟩).cache.lookupUsed page =
      some j :=
    Cache.lookupUsed_put (c := s.cache) (b := ⟨_, false, page, 1⟩) rfl Nat.one_ne_zero fun k _ =>
      Cache.lookupUsed_none.mp miss k
  have hit := delivered.trans (read_hit quiet.put found)
  simpa [Fs.putBuffer, used, maxUse] using hit

theorem write_hit (t : ι) (n : Nat) (quiet : Quiet s) (hit : s.cache.lookup page = some i) :
    Alone (s.setTask t ⟨.lookup 0, .write page offset data, n, []⟩)
      (Fs.setTask (if (s.pool i).dirty then s.putBuffer i (Fs.hit (s.pool i) offset data n)
        else s.putDirty i (Fs.hit (s.pool i) offset data n)) t
          ⟨.idle, .write page offset data, n, []⟩) := by
  have look : Alone (s.setTask t ⟨.lookup 0, .write page offset data, n, []⟩)
      (s.setTask t ⟨.lookup i, .write page offset data, n, []⟩) :=
    lookup_run quiet i.isLt.le fun k lt => first_finds hit lt
  have here : page = (s.pool i).page := (Cache.lookup_spec hit).1.symm
  cases dirty : (s.pool i).dirty with
  | true =>
    have waits := look.then (t := t) (v := s.own t i (s.pool i)
      ⟨.content i, .write page offset data, n, []⟩) (by
        rw [← lock_eq_own]
        simp [Fs.run, Fs.lookupStep, quiet.headers, here, dirty]) quiet.sound
    have free : ∀ task, (s.own t i (s.pool i) task).vContentMutex i = none :=
      fun _ => quiet.contents i
    refine waits.then (t := t) ?_ quiet.sound
    simp [Fs.run, free, Fs.contentStep, dirty, quiet.own_unlock]
  | false =>
    refine look.then (t := t) ?_ quiet.sound
    simp [Fs.run, Fs.lookupStep, quiet.headers, here, dirty]

theorem part_run (quiet : Quiet s) {low} (part : n ≠ pageSize) :
    Alone (s.own t j (s.pool j) ⟨.reserve fsPoolSize (some j) low, .write page offset data, n, buf⟩)
      (s.own t j { s.pool j with content := s.medium (s.address page) }
        ⟨.loaded j true, .write page offset data, n, buf⟩) := by
  have loads : Alone _ (s.own t j (s.pool j) ⟨.load j 0, .write page offset data, n, buf⟩) :=
    Alone.then (t := t) (u := s.own t j (s.pool j)
      ⟨.reserve fsPoolSize (some j) low, .write page offset data, n, buf⟩) .start
      (by simp [Fs.run, Fs.reserved, part]) quiet.sound
  exact loads.trans (fetch_run quiet _)

theorem write_load (t : ι) {block} (quiet : Quiet s) (miss : s.cache.lookup page = none)
    (victim : s.cache.reserveBuffer = some j) (some_bytes : n ≠ 0)
    (ready : n = pageSize ∧ block = (s.pool j).content ∨
      n ≠ pageSize ∧ block = s.medium (s.address page)) :
    Alone (s.setTask t ⟨.lookup 0, .write page offset data, n, []⟩)
      ((s.putDirty j ⟨cpy (data.take n) block offset, true, page, 1⟩).setTask t
        ⟨.idle, .write page offset data, n, []⟩) := by
  obtain ⟨low, reserve⟩ := reserve_victim t (.write page offset data) n quiet
    (IndexScan.first_eq_none_iff.mp miss) victim
  rcases ready with ⟨whole, rfl⟩ | ⟨part, rfl⟩
  · refine reserve.then (t := t) ?_ quiet.sound
    simp [Fs.run, Fs.reserved, whole, Fs.tagWrite, quiet.own_dirty]
  · refine Alone.then (t := t) (reserve.trans (part_run quiet part)) ?_ quiet.sound
    simp [Fs.run, Fs.loadedStep, some_bytes, Fs.tagWrite, quiet.own_dirty]

theorem write_drop (t : ι) (quiet : Quiet s) (miss : s.cache.lookup page = none)
    (victim : s.cache.reserveBuffer = some j) :
    Alone (s.setTask t ⟨.lookup 0, .write page offset [], 0, []⟩)
      ((s.putBuffer j { s.pool j with content := s.medium (s.address page) }).setTask t
        ⟨.idle, .write page offset [], 0, []⟩) := by
  obtain ⟨low, reserve⟩ := reserve_victim t (.write page offset []) 0 quiet
    (IndexScan.first_eq_none_iff.mp miss) victim
  refine Alone.then (t := t) (reserve.trans (part_run quiet (by decide))) ?_ quiet.sound
  simp [Fs.run, Fs.loadedStep, quiet.own_unlock]

end Calls

theorem call_alone {r} (quiet : Quiet s) (idle : (s.tasks t).pc = .idle)
    (valid : call.Valid) (serves : s.cache.serve served call = some (c, r)) :
    ∃ u, Alone s u ∧ Ended s t c r u := by
  have enter : Alone s (s.setTask t ⟨.lookup 0, call, Fs.size call, []⟩) :=
    enter_run quiet idle valid
  cases Cache.serve_change valid serves with
  | readHit hit =>
    rw [size_read valid] at enter
    exact ⟨_, enter.trans (read_hit quiet hit), ended_of quiet.put rfl rfl⟩
  | readLoad miss victim loaded count =>
    rw [size_read valid] at enter
    subst loaded count
    exact ⟨_, enter.trans (read_load t _ quiet miss victim), ended_of quiet.put rfl rfl⟩
  | @writeHit page offset data i put hit eq =>
    rw [size_write valid] at enter
    refine ⟨_, enter.trans (write_hit t _ quiet hit), ?_⟩
    have same : Fs.hit (s.pool i) offset data data.length =
        ⟨cpy data (s.pool i).content offset, true, page, used (s.pool i)⟩ := by
      rw [Fs.hit, take_length, ← (Cache.lookup_spec hit).1]
      rfl
    subst eq
    rw [same]
    change Ended s t (if (s.pool i).dirty then _ else _) _ _
    split
    · exact ended_of quiet.put rfl rfl
    · exact ended_of quiet.dirty rfl rfl
  | @writeLoad page offset _ data j block miss victim some_bytes ready =>
    rw [size_write valid] at enter
    have length : data.length ≠ 0 := mt length_eq_zero_iff.mp some_bytes
    by_cases whole : data.length = pageSize
    · refine ⟨_, enter.trans (write_load t quiet miss victim length (.inl ⟨whole, rfl⟩)), ?_⟩
      rw [take_length, PageCache.cpy_full valid.2 whole]
      exact ended_of quiet.dirty rfl rfl
    · obtain rfl := (ready.resolve_left whole).2
      refine ⟨_, enter.trans (write_load t quiet miss victim length (.inr ⟨whole, rfl⟩)), ?_⟩
      rw [take_length]
      exact ended_of quiet.dirty rfl rfl
  | @writeDrop page offset data j l miss victim loaded none =>
    rw [loadPage_served] at loaded
    subst loaded
    obtain rfl : data = [] := none.resolve_right (by simp)
    exact ⟨_, enter.trans (write_drop t quiet miss victim), ended_of quiet.put rfl rfl⟩

theorem full_alone (quiet : Quiet s) (idle : (s.tasks t).pc = .idle) (valid : call.Valid)
    (miss : ∀ k, finds call (s.pool k) = false) (full : s.cache.reserveBuffer = none) :
    Alone s (s.setTask t ⟨.full, call, Fs.size call, []⟩) := by
  have reserve : Alone _ (s.atReserve t call (Fs.size call) [] fsPoolSize) :=
    (enter_run quiet idle valid).trans (reserved_run quiet miss)
  have best : (s.reserving fsPoolSize).2 = none := IndexScan.upto_all.trans full
  refine reserve.then (t := t) ?_ (lockBest_fault.trans quiet.sound)
  simp [Fs.atReserve, best, Fs.lockBest, Fs.run]

def Fs.scanning (s : Fs ι) (i : Nat) : Nat × Option (Fin fsPoolSize) :=
  IndexScan.upto (fun k => (s.pool k).use) (fun k => (s.pool k).dirty) (maxUse + 1) i

def Fs.setWriter (s : Fs ι) (pc : WriterPc) : Fs ι := { s with writer := pc }

def Fs.atScan (s : Fs ι) (i : Nat) : Fs ι :=
  (s.lockBest .writer (s.scanning i).2).setWriter (.scan i (s.scanning i).2 (s.scanning i).1)

theorem Alone.writes {v} (run : Alone s u) (next : u.write .done = some v)
    (sound : u.fault = false) : Alone s v :=
  .next (.write .done) run ⟨rfl, by simp⟩ (by simpa [step, sound] using next)

omit [DecidableEq ι] in
theorem unlockBest_setWriter {best} {pc} :
    (s.setWriter pc).unlockBest best = (s.unlockBest best).setWriter pc := by
  cases best <;> rfl

omit [DecidableEq ι] in
theorem scan_round (quiet : Quiet s) {i} (lt : i < fsPoolSize) :
    (s.atScan i).write .done = some (s.atScan (i + 1)) := by
  have round : s.scanning (i + 1) = IndexScan.better (fun k => (s.pool k).use)
      (fun k => (s.pool k).dirty) (s.scanning i) ⟨i, lt⟩ := IndexScan.upto_succ ⟨i, lt⟩
  have at_scan : (s.atScan i).writer = .scan i (s.scanning i).2 (s.scanning i).1 := rfl
  have free : (s.atScan i).vMutex ⟨i, lt⟩ = none :=
    quiet.lockBest_free fun eq => absurd (IndexScan.upto_lt lt.le eq) (lt_irrefl i)
  have pool : (s.atScan i).pool = s.pool := lockBest_pool
  have unlocked : (s.atScan i).unlockBest (s.scanning i).2 = s.setWriter (s.atScan i).writer := by
    rw [at_scan, Fs.atScan, unlockBest_setWriter, quiet.unlockBest_lockBest]
  simp only [Fs.write, at_scan, dif_pos lt, if_pos free, Fs.scanStep, pool, unlocked]
  simp only [Fs.atScan, round, IndexScan.better]
  split
  · rfl
  · cases (s.scanning i).2 <;> rfl

theorem scan_run (quiet : Quiet s) {i} (le : i ≤ fsPoolSize) :
    Alone (s.atScan 0) (s.atScan i) := by
  induction i with
  | zero => exact .start
  | succ i ih =>
    exact (ih (by omega)).writes (scan_round quiet le) (lockBest_fault.trans quiet.sound)

structure Written (s : Fs ι) (c : Cache) (u : Fs ι) : Prop where
  quiet : Quiet u
  cache : u.cache = { c with failedAttempt := 0 }
  tasks : u.tasks = s.tasks
  waiting : u.numWaiting = s.numWaiting
  woken : u.cleanSem = (s.cleanSem || s.numWaiting != 0)

def Fs.sent (s : Fs ι) (j : Fin fsPoolSize) (got : Fin pageSize → Option UInt8) : Fs ι :=
  { s.putBuffer j { s.pool j with dirty := false, use := 1 } with
    vContentMutex := update s.vContentMutex j (some .writer)
    sdAccess := some .writer
    writer := .sending j
    dma := some ⟨(s.pool j).page, (s.pool j).content, got⟩ }

theorem send_run (quiet : Quiet s) (j : Fin fsPoolSize) (low : Nat) :
    ∃ u, Alone ((s.lock j .writer).setWriter (.scan fsPoolSize (some j) low)) u ∧
      Written s { s.cache.putBuffer j { s.pool j with dirty := false, use := 1 } with
        medium := update s.medium (s.address (s.pool j).page) (s.pool j).content } u := by
  have content : s.vContentMutex j = none := quiet.contents j
  have access : s.sdAccess = none := quiet.access
  have chooses : ((s.lock j .writer).setWriter (.scan fsPoolSize (some j) low)).write .done =
      some ((s.lock j .writer).setWriter (.chosen j)) := by
    simp [Fs.write, Fs.setWriter]
  have locks : ((s.lock j .writer).setWriter (.chosen j)).write .done = some { s with
      vContentMutex := update s.vContentMutex j (some .writer), writer := .access j } := by
    simp [Fs.write, Fs.setWriter, Fs.lock, Fs.unlock, content, quiet.update_none]
  have accepted : Fs.write { s with
      vContentMutex := update s.vContentMutex j (some .writer), writer := .access j } .done =
      some (s.sent j fun _ => none) := by
    simp [Fs.write, access, Fs.sent, Fs.putBuffer]
  have transfers : step (s.sent j fun _ => none) (.transfer fun _ => true) =
      some (s.sent j fun k => some ((s.pool j).content k)) := by
    have sound : (s.sent j fun _ => none).fault = false := quiet.sound
    simp only [step, sound, Bool.false_eq_true, if_false]
    simp [Fs.transfer, Fs.sent, Fs.putBuffer, Dma.fetch]
  have stored : (s.sent j fun k => some ((s.pool j).content k)).write .done =
      some { s.putBuffer j { s.pool j with dirty := false, use := 1 } with
        vContentMutex := update s.vContentMutex j (some .writer)
        writer := .written j
        dma := none
        medium := update s.medium (s.address (s.pool j).page) (s.pool j).content } := by
    have block : Dma.block ⟨(s.pool j).page, (s.pool j).content,
        fun k => some ((s.pool j).content k)⟩ = (s.pool j).content := rfl
    simp [Fs.write, Fs.sent, Fs.putBuffer, Fs.address, access, block]
  have releases : Fs.write { s.putBuffer j { s.pool j with dirty := false, use := 1 } with
      vContentMutex := update s.vContentMutex j (some .writer)
      writer := .written j
      dma := none
      medium := update s.medium (s.address (s.pool j).page) (s.pool j).content } .done =
      some { s.putBuffer j { s.pool j with dirty := false, use := 1 } with
        cleanSem := s.cleanSem || s.numWaiting != 0
        writer := .idle
        dma := none
        medium := update s.medium (s.address (s.pool j).page) (s.pool j).content } := by
    have free : update s.vContentMutex j none = s.vContentMutex := by
      rw [← content, update_eq_self]
    simp [Fs.write, Fs.putBuffer, free]
  have chosen : Alone _ (s.sent j fun _ => none) :=
    ((Alone.writes .start chooses quiet.sound).writes locks quiet.sound).writes accepted quiet.sound
  have sent : Alone _ (s.sent j fun k => some ((s.pool j).content k)) :=
    .next (.transfer fun _ => true) chosen ⟨trivial, by simp⟩ transfers
  refine ⟨_, (sent.writes stored quiet.sound).writes releases quiet.sound, ?_⟩
  exact ⟨⟨quiet.headers, quiet.contents, quiet.access, rfl, quiet.sound⟩, rfl, rfl, rfl, rfl⟩

theorem write_alone (quiet : Quiet s) (writes : s.cache.vWriteTask .done = some c)
    (sound : c.fault = false) : ∃ u, Alone s u ∧ Written s c u := by
  obtain ⟨pos, writes⟩ := ite_none_right_eq_some.mp writes
  have pos : 0 < s.dirtySem := pos
  -- The write task has taken the semaphore.
  have quiet' : Quiet { s with dirtySem := s.dirtySem - 1 } :=
    { quiet with }
  have claims : s.write .done = some (Fs.atScan { s with dirtySem := s.dirtySem - 1 } 0) := by
    simp only [Fs.write, quiet.writer, if_pos pos]
    rfl
  have scan : Alone s (Fs.atScan { s with dirtySem := s.dirtySem - 1 } fsPoolSize) :=
    Run.trans (Alone.writes .start claims quiet.sound) (scan_run quiet' le_rfl)
  cases chosen : (Fs.cache { s with dirtySem := s.dirtySem - 1 }).leastDirty with
  | none =>
    have chosen : Cache.leastDirty { s.cache with dirtySem := s.cache.dirtySem - 1 } =
      none := chosen
    simp only [chosen] at writes
    obtain rfl := some.inj writes
    cases sound
  | some j =>
    have best : (Fs.scanning { s with dirtySem := s.dirtySem - 1 } fsPoolSize).2 = some j :=
      IndexScan.upto_all.trans chosen
    have chosen : Cache.leastDirty { s.cache with dirtySem := s.cache.dirtySem - 1 } = some j :=
      chosen
    simp only [chosen] at writes
    obtain rfl := some.inj writes
    simp only [Fs.atScan, best, Fs.lockBest] at scan
    obtain ⟨u, sends, written⟩ := send_run quiet' j
      (Fs.scanning { s with dirtySem := s.dirtySem - 1 } fsPoolSize).1
    exact ⟨u, scan.trans sends, written.quiet, written.cache, written.tasks, written.waiting,
      written.woken⟩

def atomicCalls : Cache → List Call → Option Cache
  | c, [] => some c
  | c, call :: rest =>
    match c.serve served call with
    | none => none
    | some (c', _) => atomicCalls { c' with failedAttempt := 0 } rest

def atomicWrites : Cache → Nat → Option Cache
  | c, 0 => some c
  | c, n + 1 =>
    match c.vWriteTask .done with
    | none => none
    | some c' => if c'.fault then none else atomicWrites { c' with failedAttempt := 0 } n

theorem calls_alone {calls} (quiet : Quiet s) (idle : (s.tasks t).pc = .idle)
    (valid : ∀ call ∈ calls, call.Valid) (atomic : atomicCalls s.cache calls = some c) :
    ∃ u, Alone s u ∧ Quiet u ∧ u.cache = c ∧ (u.tasks t).pc = .idle ∧
      (∀ p, p ≠ t → u.tasks p = s.tasks p) ∧
      (u.numWaiting, u.cleanSem) = (s.numWaiting, s.cleanSem) := by
  induction calls generalizing s with
  | nil => exact ⟨s, .start, quiet, some.inj atomic, idle, fun _ _ => rfl, rfl⟩
  | cons call rest ih =>
    rw [atomicCalls] at atomic
    split at atomic
    case h_1 => cases atomic
    case h_2 c' r serves =>
      obtain ⟨v, run, ended⟩ := call_alone quiet idle (valid call mem_cons_self) serves
      obtain ⟨u, run', quiet', cache, idle', others, waiting⟩ := ih ended.quiet ended.idle
        (fun call mem => valid call (mem_cons_of_mem _ mem)) (by rwa [ended.cache])
      exact ⟨u, run.trans run', quiet', cache, idle',
        fun p ne => (others p ne).trans (ended.others p ne), waiting.trans ended.waiting⟩

theorem writes_alone {n} (quiet : Quiet s) (atomic : atomicWrites s.cache n = some c) :
    ∃ u, Alone s u ∧ Quiet u ∧ u.cache = c ∧ u.tasks = s.tasks ∧ u.numWaiting = s.numWaiting ∧
      u.cleanSem = (s.cleanSem || n != 0 && s.numWaiting != 0) := by
  induction n generalizing s with
  | zero => exact ⟨s, .start, quiet, some.inj atomic, rfl, rfl, by simp⟩
  | succ n ih =>
    rw [atomicWrites] at atomic
    split at atomic
    case h_1 => cases atomic
    case h_2 c' writes =>
      obtain ⟨sound, atomic⟩ := ite_none_left_eq_some.mp atomic
      obtain ⟨v, run, written⟩ := write_alone quiet writes (by simpa using sound)
      obtain ⟨u, run', quiet', cache, tasks, waiting, woken⟩ := ih written.quiet
        (by rwa [written.cache])
      refine ⟨u, run.trans run', quiet', cache, tasks.trans written.tasks,
        waiting.trans written.waiting, ?_⟩
      rw [woken, written.woken, written.waiting]
      cases s.cleanSem <;> cases s.numWaiting != 0 <;> simp

end PageTasks
