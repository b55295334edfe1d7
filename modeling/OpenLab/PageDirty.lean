import OpenLab.PageCacheCoherent
import OpenLab.PageLocks

/-!
# Counting the dirty buffers

`dirty_sem` against the number of dirty buffers. From the moment that it has taken the semaphore
until the card has accepted its command, or it has given the semaphore back, the write task has
one dirty buffer claimed.
-/

namespace PageTasks

open LockTable Schedules Tally Option
open PageCache (Block Buffer Call Attempt fsPoolSize pageSize maxRetry maxUse dirtyCount)
open PageCache.Cache (used)
open Function (update update_of_ne update_self)

variable {ι : Type}

/-- The number of dirty buffers that the write task has claimed. -/
def WriterPc.claim : WriterPc → Nat
  | .scan _ _ _ | .chosen _ | .access _ | .failed _ => 1
  | .idle | .sending _ | .written _ => 0

def WriterPc.target : WriterPc → Option (Fin fsPoolSize)
  | .scan _ best _ => best
  | .chosen j | .access j => some j
  | _ => none

structure Flagged (s : Fs ι) : Prop where
  use_le : ∀ i, (s.pool i).use ≤ maxUse
  reserved : ∀ t j, (s.tasks t).pc.reserved = some j → (s.pool j).dirty = false
  target : ∀ j, s.writer.target = some j → (s.pool j).dirty = true

structure Accounted (s : Fs ι) : Prop where
  count : s.dirtySem + s.writer.claim = dirtyCount s.pool
  /-- while the scan has found nothing, a dirty buffer lies ahead of it -/
  search : ∀ i useMin, s.writer = .scan i none useMin →
    useMin = maxUse + 1 ∧ ∃ d : Fin fsPoolSize, i ≤ d ∧ (s.pool d).dirty = true
  failed : ∀ j, s.writer = .failed j → (s.pool j).dirty = true
  sound : s.fault = false

section Init

variable (sdhc : Bool) (content : Fin fsPoolSize → Block) (medium : UInt32 → Block)

theorem flagged_init : Flagged (Fs.init sdhc content medium : Fs ι) where
  use_le _ := Nat.zero_le _
  reserved _ _ h := by cases h
  target _ h := by cases h

theorem accounted_init : Accounted (Fs.init sdhc content medium : Fs ι) where
  count := by simp [Fs.init, WriterPc.claim, dirtyCount, tally]
  search _ _ h := by cases h
  failed _ h := by cases h
  sound := rfl

end Init

/-- A write is not broken off after its command was accepted. -/
def Stores : Action ι → Prop
  | .write (.broken _) => False
  | _ => True

instance : DecidablePred (Stores : Action ι → Prop)
  | .write (.broken _) => .isFalse id
  | .write .done | .write .refused | .enter .. | .run .. | .transfer .. => .isTrue trivial

theorem FaultFree.stores {a : Action ι} (h : FaultFree a) : Stores a := by
  cases a with
  | write attempt => cases attempt <;> trivial
  | enter | run | transfer => trivial

theorem one_le_maxUse : 1 ≤ maxUse := by decide

theorem used_le {b} (h : b.use ≤ maxUse) : used b ≤ maxUse := by
  rw [used]
  split <;> omega

theorem dirtyCount_le (pool : Fin fsPoolSize → Buffer) : dirtyCount pool ≤ fsPoolSize :=
  tally_le_card.trans (by simp)

variable {pool : Fin fsPoolSize → Buffer} {i j : Fin fsPoolSize}

theorem dirtyCount_congr {pool'}
    (flags : ∀ i, (pool' i).dirty = (pool i).dirty) : dirtyCount pool' = dirtyCount pool := by
  simp [dirtyCount, tally, flags]

theorem dirty_put {b} (flag : b.dirty = (pool i).dirty) (k : Fin fsPoolSize) :
    (update pool i b k).dirty = (pool k).dirty := by
  rcases eq_or_ne k i with rfl | ne
  · rwa [update_self]
  · rw [update_of_ne ne]

theorem dirty_put_true {k} {b} (h : (pool i).dirty = true)
    (put : k = i → b.dirty = true) : (update pool k b i).dirty = true := by
  rcases eq_or_ne i k with rfl | ne
  · rw [update_self]
    exact put rfl
  · rwa [update_of_ne ne]

theorem Pc.held_of_reserved {pc : Pc} (h : pc.reserved = some j) : pc.held = some j := by
  cases pc <;> first | exact h | cases h

section Flags

variable {s u : Fs ι} {i j : Fin fsPoolSize} {b : Buffer}

theorem Locked.apart {t p : ι} (locked : Locked s) (keeps : (s.tasks t).pc.held = some i)
    (ne : p ≠ t) : (s.tasks p).pc.reserved ≠ some i := by
  intro reserved
  have eq : Owner.task p = .task t :=
    locked.header.unique (Pc.held_of_reserved reserved : s.held (.task p) = some i) keeps
  exact ne (Owner.task.inj eq)

namespace Flagged

theorem use_le_put (h : Flagged s) (le : b.use ≤ maxUse) (k : Fin fsPoolSize) :
    (update s.pool i b k).use ≤ maxUse := by
  rcases eq_or_ne k i with rfl | ne
  · rwa [update_self]
  · rw [update_of_ne ne]
    exact h.use_le k

variable [DecidableEq ι] {t : ι} {task : Task}

theorem quiet (h : Flagged s) (tasks : u.tasks = update s.tasks t task)
    (writer : u.writer = s.writer) (flags : ∀ i, (u.pool i).dirty = (s.pool i).dirty)
    (use_le : ∀ i, (u.pool i).use ≤ maxUse)
    (reserved : ∀ j, task.pc.reserved = some j → (s.pool j).dirty = false) : Flagged u := by
  constructor
  · exact use_le
  · intro p k keeps
    rw [flags]
    rcases eq_or_ne p t with rfl | ne
    · rw [tasks, update_self] at keeps
      exact reserved k keeps
    · rw [tasks, update_of_ne ne] at keeps
      exact h.reserved p k keeps
  · intro k chosen
    rw [flags]
    exact h.target k (writer ▸ chosen)

theorem dirties (h : Flagged s) (tasks : u.tasks = update s.tasks t task)
    (pool : u.pool = update s.pool i b) (writer : u.writer = s.writer)
    (dirty : b.dirty = true) (use_le : b.use ≤ maxUse) (done : task.pc.reserved = none)
    (apart : ∀ p, p ≠ t → (s.tasks p).pc.reserved ≠ some i) : Flagged u := by
  constructor
  · rw [pool]
    exact use_le_put h use_le
  · intro p k keeps
    rcases eq_or_ne p t with rfl | ne
    · rw [tasks, update_self, done] at keeps
      cases keeps
    · rw [tasks, update_of_ne ne] at keeps
      have other : k ≠ i := fun eq => apart p ne (eq ▸ keeps)
      rw [pool, update_of_ne other]
      exact h.reserved p k keeps
  · intro k chosen
    rw [pool]
    exact dirty_put_true (h.target k (writer ▸ chosen)) fun _ => dirty

omit [DecidableEq ι] in
theorem writes (h : Flagged s) (tasks : u.tasks = s.tasks) (pool : u.pool = s.pool)
    (target : ∀ j, u.writer.target = some j → (s.pool j).dirty = true) : Flagged u := by
  constructor
  · rw [pool]
    exact h.use_le
  · rw [tasks, pool]
    exact h.reserved
  · rw [pool]
    exact target

omit [DecidableEq ι] in
theorem accepts (h : Flagged s) (tasks : u.tasks = s.tasks) (writer : u.writer = .sending j)
    (pool : u.pool = update s.pool j { s.pool j with dirty := false, use := 1 }) :
    Flagged u := by
  constructor
  · rw [pool]
    exact use_le_put h one_le_maxUse
  · intro p k keeps
    rw [tasks] at keeps
    rcases eq_or_ne k j with rfl | ne
    · rw [pool, update_self]
    · rw [pool, update_of_ne ne]
      exact h.reserved p k keeps
  · intro k chosen
    rw [writer] at chosen
    cases chosen

end Flagged

end Flags

variable [DecidableEq ι] {s u : Fs ι} {a : Action ι} {ok : Fs ι → Action ι → Prop}

theorem flagged_step (locked : Locked s) (h : Flagged s) (change : Change s a u) : Flagged u := by
  have keeps {t : ι} {pc : Pc} {j : Fin fsPoolSize} (at_pc : (s.tasks t).pc = pc)
      (eq : pc.reserved = some j) : (s.pool j).dirty = false := h.reserved t j (at_pc ▸ eq)
  have targets {pc : WriterPc} {j : Fin fsPoolSize} (at_pc : s.writer = pc)
      (eq : pc.target = some j) : (s.pool j).dirty = true := h.target j (at_pc ▸ eq)
  cases change with
  | enter | waits => exact h.quiet rfl rfl (fun _ => rfl) h.use_le nofun
  | @moves t _ pc moves =>
    exact h.quiet rfl rfl (fun _ => rfl) h.use_le fun j eq =>
      h.reserved t j (moves.held.2.1 ▸ eq)
  | @readHit t _ i =>
    exact h.quiet rfl rfl (dirty_put rfl) (h.use_le_put (used_le (h.use_le i))) nofun
  | @writeHit t _ i _ _ _ _ _ free =>
    exact h.dirties rfl rfl rfl rfl (used_le (h.use_le i)) rfl fun p _ reserved =>
      locked.header.not_held free (.task p) (Pc.held_of_reserved reserved)
  | @rewrites t _ i _ _ _ pc _ _ dirty =>
    exact h.quiet rfl rfl (dirty_put dirty.symm) (h.use_le_put (used_le (h.use_le i))) nofun
  | @dirties t _ i _ _ _ pc =>
    exact h.dirties rfl rfl rfl rfl (used_le (h.use_le i)) rfl fun p ne =>
      locked.apart (by rw [pc]; rfl) ne
  | @better t _ i best useMin pc free clean =>
    cases best with
    | none => exact h.quiet rfl rfl (fun _ => rfl) h.use_le fun j eq => some.inj eq ▸ clean
    | some _ => exact h.quiet rfl rfl (fun _ => rfl) h.use_le fun j eq => some.inj eq ▸ clean
  | tagRead pc =>
    exact h.quiet rfl rfl (dirty_put (keeps pc rfl).symm) (h.use_le_put one_le_maxUse)
      fun j eq => keeps pc eq
  | @tagWrite t _ j _ _ _ fills =>
    exact h.dirties rfl rfl rfl rfl one_le_maxUse rfl fun p ne => locked.apart fills.held.1 ne
  | command pc => exact h.quiet rfl rfl (fun _ => rfl) h.use_le fun j eq => keeps pc eq
  | @loadDone t j _ pc =>
    exact h.quiet rfl rfl (dirty_put rfl) (h.use_le_put (h.use_le j)) fun j eq => keeps pc eq
  | @loadBroken t _ j _ _ pc next =>
    rcases next with rfl | rfl <;>
      exact h.quiet rfl rfl (dirty_put rfl) (h.use_le_put (h.use_le j)) fun j eq => keeps pc eq
  | delivers | fails | drops | registers | wakes | leaves =>
    exact h.quiet rfl rfl (fun _ => rfl) h.use_le nofun
  | scanNext scan | chooses scan => exact h.writes rfl rfl fun j eq => targets scan eq
  | @scanBetter _ _ best _ _ _ dirty =>
    cases best with
    | none => exact h.writes rfl rfl fun j eq => some.inj eq ▸ dirty
    | some _ => exact h.writes rfl rfl fun j eq => some.inj eq ▸ dirty
  | locks chosen => exact h.writes rfl rfl fun j eq => targets chosen eq
  | accepted => exact h.accepts rfl rfl rfl
  | lost | transfers => exact h.writes rfl rfl h.target
  | claims | refused | stored | broken | givesBack | releases => exact h.writes rfl rfl nofun

theorem flagged_run (run : Run step ok s u) (locked : Locked s) (h : Flagged s) : Flagged u :=
  run.invariant_of Locked Flagged (fun _ prior => locked_run prior locked)
    (fun _ _ _ locked h _ hstep => flagged_step locked h (step_change hstep)) h

theorem stays_dirty (h : Flagged s) (dirty : (s.pool i).dirty = true) (change : Change s a u) :
    (u.pool i).dirty = true ∨ s.writer = .access i := by
  cases change with
  | readHit | loadDone | loadBroken => exact .inl (dirty_put_true dirty fun eq => eq ▸ dirty)
  | writeHit | rewrites | dirties | tagWrite => exact .inl (dirty_put_true dirty fun _ => rfl)
  | tagRead pc =>
    refine .inl (dirty_put_true dirty fun eq => ?_)
    have clean := h.reserved _ _ (by rw [pc]; rfl)
    rw [eq, dirty] at clean
    cases clean
  | @accepted j access =>
    rcases eq_or_ne j i with rfl | ne
    · exact .inr access
    · exact .inl (dirty_put_true dirty fun eq => absurd eq ne)
  | @better _ _ _ best | @scanBetter _ _ best => cases best <;> exact .inl dirty
  | enter | moves | waits | command | delivers | fails | drops | registers | wakes | leaves | claims
  | scanNext | lost | chooses | locks | refused | stored | broken | givesBack | releases
  | transfers => exact .inl dirty

namespace Accounted

variable {i j : Fin fsPoolSize} {b : Buffer}

omit [DecidableEq ι] in
theorem quiet (h : Accounted s)
    (same : (u.writer, u.dirtySem, u.fault) = (s.writer, s.dirtySem, s.fault))
    (flags : ∀ i, (u.pool i).dirty = (s.pool i).dirty) : Accounted u := by
  obtain ⟨writer, rest⟩ := Prod.mk.inj same
  obtain ⟨dirtySem, fault⟩ := Prod.mk.inj rest
  constructor
  · rw [dirtySem, writer, dirtyCount_congr flags, h.count]
  · simp only [writer, flags]
    exact h.search
  · simp only [writer, flags]
    exact h.failed
  · rw [fault, h.sound]

omit [DecidableEq ι] in
theorem dirties (h : Accounted s) (pool : u.pool = update s.pool i b)
    (sem : u.dirtySem = if s.dirtySem < fsPoolSize then s.dirtySem + 1 else s.dirtySem)
    (same : (u.writer, u.fault) = (s.writer, s.fault)) (clean : (s.pool i).dirty = false)
    (dirty : b.dirty = true) : Accounted u := by
  obtain ⟨writer, fault⟩ := Prod.mk.inj same
  have more : dirtyCount u.pool = dirtyCount s.pool + 1 := by
    rw [pool]
    exact tally_enter (by simp [clean]) dirty
  have stays (k : Fin fsPoolSize) (was : (s.pool k).dirty = true) : (u.pool k).dirty = true := by
    rw [pool]
    exact dirty_put_true was fun _ => dirty
  constructor
  · have := h.count
    have := dirtyCount_le u.pool
    rw [sem, writer, if_pos (by omega)]
    omega
  · intro k useMin scan
    obtain ⟨eq, d, le, was⟩ := h.search k useMin (writer ▸ scan)
    exact ⟨eq, d, le, stays d was⟩
  · intro k failed
    exact stays k (h.failed k (writer ▸ failed))
  · rw [fault, h.sound]

omit [DecidableEq ι] in
theorem writes (h : Accounted s) (same : (u.pool, u.fault) = (s.pool, s.fault))
    (count : u.dirtySem + u.writer.claim = s.dirtySem + s.writer.claim)
    (search : ∀ i useMin, u.writer = .scan i none useMin →
      useMin = maxUse + 1 ∧ ∃ d : Fin fsPoolSize, i ≤ d ∧ (s.pool d).dirty = true)
    (failed : ∀ j, u.writer = .failed j → (s.pool j).dirty = true) : Accounted u := by
  obtain ⟨pool, fault⟩ := Prod.mk.inj same
  constructor
  · rw [count, pool, h.count]
  · rw [pool]
    exact search
  · rw [pool]
    exact failed
  · rw [fault, h.sound]

omit [DecidableEq ι] in
theorem claims (h : Accounted s) (idle : s.writer = .idle) (pos : 0 < s.dirtySem)
    (same : (u.pool, u.fault) = (s.pool, s.fault)) (sem : u.dirtySem = s.dirtySem - 1)
    (scan : u.writer = .scan 0 none (maxUse + 1)) : Accounted u := by
  have count := h.count
  refine h.writes same ?_ ?_ ?_
  · simp only [idle, scan, sem, WriterPc.claim]
    omega
  · intro i useMin scan'
    obtain ⟨rfl, _, rfl⟩ := WriterPc.scan.inj (scan.symm.trans scan')
    obtain ⟨d, dirty⟩ : ∃ d, (s.pool d).dirty = true :=
      tally_pos_iff.mp (show 0 < dirtyCount s.pool by omega)
    exact ⟨rfl, d, Nat.zero_le _, dirty⟩
  · intro j failed
    rw [scan] at failed
    cases failed

omit [DecidableEq ι] in
theorem passes (h : Accounted s) (flagged : Flagged s) {best}
    {useMin} (scan : s.writer = .scan i best useMin)
    (worse : ¬((s.pool i).dirty = true ∧ (s.pool i).use < useMin))
    (same : (u.pool, u.fault) = (s.pool, s.fault)) (sem : u.dirtySem = s.dirtySem)
    (next : u.writer = .scan (i + 1) best useMin) : Accounted u := by
  refine h.writes same (by simp [scan, next, sem, WriterPc.claim]) ?_ ?_
  · intro k useMin' scan'
    obtain ⟨rfl, rfl, rfl⟩ := WriterPc.scan.inj (next.symm.trans scan')
    obtain ⟨rfl, d, le, dirty⟩ := h.search _ _ scan
    refine ⟨rfl, d, ?_, dirty⟩
    have ne : i ≠ d := by
      rintro rfl
      have := flagged.use_le i
      exact worse ⟨dirty, by omega⟩
    omega
  · intro j failed
    rw [next] at failed
    cases failed

omit [DecidableEq ι] in
theorem accepts (h : Accounted s) (flagged : Flagged s) (access : s.writer = .access j)
    (writer : u.writer = .sending j) (same : (u.dirtySem, u.fault) = (s.dirtySem, s.fault))
    (pool : u.pool = update s.pool j { s.pool j with dirty := false, use := 1 }) :
    Accounted u := by
  obtain ⟨dirtySem, fault⟩ := Prod.mk.inj same
  have dirty : (s.pool j).dirty = true := flagged.target j (by rw [access, WriterPc.target])
  have fewer : dirtyCount u.pool + 1 = dirtyCount s.pool := by
    rw [pool]
    exact tally_leave dirty (by simp)
  have count := h.count
  rw [access] at count
  constructor
  · rw [dirtySem, writer]
    simp only [WriterPc.claim] at count ⊢
    omega
  · intro k useMin scan
    rw [writer] at scan
    cases scan
  · intro k failed
    rw [writer] at failed
    cases failed
  · rw [fault, h.sound]

end Accounted

theorem accounted_step (flagged : Flagged s) (h : Accounted s) (stores : Stores a)
    (change : Change s a u) : Accounted u := by
  cases change with
  | readHit | loadDone | loadBroken => exact h.quiet rfl (dirty_put rfl)
  | rewrites _ _ _ dirty => exact h.quiet rfl (dirty_put dirty.symm)
  | tagRead pc =>
    exact h.quiet rfl (dirty_put (flagged.reserved _ _ (by rw [pc]; rfl)).symm)
  | writeHit _ _ _ _ clean | dirties _ _ _ clean => exact h.dirties rfl rfl rfl clean rfl
  | tagWrite fills => exact h.dirties rfl rfl rfl (flagged.reserved _ _ fills.held.2.1) rfl
  | @better _ _ _ best => cases best <;> exact h.quiet rfl fun _ => rfl
  | enter | moves | waits | command | delivers | fails | drops | registers | wakes | leaves
  | transfers => exact h.quiet rfl fun _ => rfl
  | claims idle pos => exact h.claims idle pos rfl rfl rfl
  | scanNext scan worse => exact h.passes flagged scan worse rfl rfl rfl
  | @scanBetter _ i best useMin scan =>
    have count : s.writer.claim = 1 := by rw [scan, WriterPc.claim]
    cases best <;> exact h.writes rfl (congrArg _ count.symm) (by simp) (by simp)
  | lost scan all =>
    obtain ⟨_, d, le, _⟩ := h.search _ _ scan
    omega
  | chooses scan => exact h.writes rfl (by simp [scan, WriterPc.claim]) (by simp) (by simp)
  | locks chosen =>
    have count : s.writer.claim = 1 := by rw [chosen, WriterPc.claim]
    exact h.writes rfl (congrArg _ count.symm) (by simp) (by simp)
  | @refused j access =>
    refine h.writes rfl (by simp [access, WriterPc.claim]) (by simp) ?_
    intro k failed
    obtain rfl := WriterPc.failed.inj failed
    exact flagged.target j (by rw [access, WriterPc.target])
  | accepted access => exact h.accepts flagged access rfl rfl rfl
  | stored sending => exact h.writes rfl (by simp [sending, WriterPc.claim]) (by simp) (by simp)
  | broken => exact stores.elim
  | givesBack failed =>
    have count := h.count
    have := dirtyCount_le s.pool
    rw [failed] at count
    simp only [WriterPc.claim] at count
    refine h.writes rfl ?_ (by simp) (by simp)
    simp only [failed, WriterPc.claim, Fs.giveDirty]
    rw [if_pos (by omega)]
  | releases written => exact h.writes rfl (by simp [written, WriterPc.claim]) (by simp) (by simp)

theorem accounted_run (run : Run step ok s u) (stores : ∀ s a, ok s a → Stores a)
    (locked : Locked s) (flagged : Flagged s) (h : Accounted s) : Accounted u :=
  run.invariant_of Flagged Accounted (fun _ prior => flagged_run prior locked flagged)
    (fun _ _ _ flagged h allowed hstep =>
      accounted_step flagged h (stores _ _ allowed) (step_change hstep)) h

theorem retries (h : Accounted s) (failed : s.writer = .failed j) (attempt : Attempt) :
    (s.pool j).dirty = true ∧ ∃ u, step s (.write attempt) = some u ∧
      u.writer = .idle ∧ u.pool = s.pool ∧ u.dirtySem = s.dirtySem + 1 := by
  have count := h.count
  have most := dirtyCount_le s.pool
  rw [failed] at count
  simp only [WriterPc.claim] at count
  have given : step s (.write attempt) = some { s.giveDirty with
      vContentMutex := update s.vContentMutex j none, writer := .idle } := by
    simp [step, h.sound, Fs.write, failed]
  exact ⟨h.failed j failed, _, given, rfl, rfl, if_pos (by omega)⟩

theorem broken_count {v} {left} {attempt} (h : Accounted s)
    (sending : s.writer = .sending j) (breaks : step s (.write (.broken left)) = some u)
    (next : step u (.write attempt) = some v) :
    v.writer = .idle ∧ (v.dirtySem = dirtyCount v.pool ↔ dirtyCount v.pool = fsPoolSize) := by
  have count := h.count
  have most := dirtyCount_le s.pool
  rw [sending] at count
  simp only [WriterPc.claim] at count
  have failed : u.writer = .failed j ∧ u.pool = s.pool ∧ u.dirtySem = s.dirtySem := by
    cases step_change breaks with
    | broken sending' =>
      obtain rfl := WriterPc.sending.inj (sending.symm.trans sending')
      exact ⟨rfl, rfl, rfl⟩
    | _ => simp_all
  obtain ⟨failed, pool, sem⟩ := failed
  cases step_change next with
  | givesBack =>
    refine ⟨rfl, ?_⟩
    simp only [Fs.giveDirty, pool, sem]
    split <;> omega
  | _ => simp_all

def writePage (t : ι) (page : UInt32) (byte : UInt8) : List (Action ι) :=
  .enter t (.write page 0 (List.replicate pageSize byte)) ::
    List.replicate (2 * fsPoolSize + 2) (.run t .done)

def choose : List (Action ι) := List.replicate (fsPoolSize + 3) (.write .done)

def sevens : Fs ι := Fs.init true (fun _ _ => 0) fun _ _ => 7

end PageTasks
