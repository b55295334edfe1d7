import OpenLab.PageAlone

/-!
# Every dirty buffer gets to the card

When writes may be refused but are not broken off, the write task, once it is left alone, writes
every dirty buffer.
-/

namespace PageTasks

open Function Schedules Tally
open PageCache (Block Buffer Call Attempt Cache fsPoolSize pageSize maxUse dirtyCount)

variable {ι : Type} [DecidableEq ι] {s : Fs ι}

omit [DecidableEq ι] in
theorem writes_dirty {i} (flagged : Flagged s) (h : Accounted s) (quiet : Quiet s)
    (dirty : (s.pool i).dirty = true) :
    ∃ j, (s.pool j).dirty = true ∧ s.cache.vWriteTask .done = some
      { s.cache.putBuffer j { s.pool j with dirty := false, use := 1 } with
        dirtySem := s.dirtySem - 1
        medium := update s.medium (s.address (s.pool j).page) (s.pool j).content } := by
  have pos : 0 < s.cache.dirtySem := by
    have count := h.count
    have : 0 < dirtyCount s.pool := tally_pos dirty
    rw [quiet.writer] at count
    simp only [WriterPc.claim] at count
    change 0 < s.dirtySem
    omega
  cases chosen : Cache.leastDirty { s.cache with dirtySem := s.cache.dirtySem - 1 } with
  | none =>
    have large : maxUse < (s.pool i).use := IndexScan.least_none chosen i dirty
    exact absurd large (Nat.not_lt.mpr (flagged.use_le i))
  | some j =>
    refine ⟨j, (IndexScan.least_spec chosen).1, ?_⟩
    simp only [Cache.vWriteTask, if_pos pos, chosen]
    rfl

theorem drained {i} (locked : Locked s) (flagged : Flagged s) (h : Accounted s)
    (quiet : Quiet s) (dirty : (s.pool i).dirty = true) :
    ∃ u, Runs s u ∧ (u.pool i).dirty = false ∧
      u.medium (s.address (s.pool i).page) = (s.pool i).content := by
  -- Each iteration writes one buffer, so there is one dirty buffer less until the turn of `i`.
  induction count : dirtyCount s.pool using Nat.strong_induction_on generalizing s with
  | _ n ih =>
    obtain ⟨j, chosen, writes⟩ := writes_dirty flagged h quiet dirty
    obtain ⟨v, alone, written⟩ := write_alone quiet writes h.sound
    have run := alone.runs
    have pool : v.pool = update s.pool j { s.pool j with dirty := false, use := 1 } :=
      congrArg Cache.pool written.cache
    have medium : v.medium = update s.medium (s.address (s.pool j).page)
      (s.pool j).content := congrArg Cache.medium written.cache
    have sdhc : v.sdhc = s.sdhc := congrArg Cache.sdhc written.cache
    rcases eq_or_ne i j with rfl | ne
    · refine ⟨v, run, ?_, ?_⟩
      · rw [pool, update_self]
      · rw [medium, update_self]
    · have same : v.pool i = s.pool i := by rw [pool, update_of_ne ne]
      have fewer : dirtyCount v.pool < n := by
        have : dirtyCount v.pool + 1 = dirtyCount s.pool := by
          rw [pool]
          exact tally_leave chosen (by simp)
        omega
      obtain ⟨u, run', clean, stored⟩ := ih _ fewer (locked_run run locked)
        (flagged_run run locked flagged)
        (accounted_run run (fun _ _ free => free.stores) locked flagged h) written.quiet
        (by rw [same, dirty]) rfl
      refine ⟨u, run.trans run', clean, ?_⟩
      rwa [same, Fs.address, sdhc] at stored

/-- In every run in which no write is broken off after its command was accepted, `dirty_sem` is
the number of the dirty buffers that the write task has not claimed, the write task finds a dirty
buffer whenever it has taken the semaphore, and a buffer stays dirty, and counted, until the card
accepts it; left alone, the write task brings it to the card. A write that is broken off makes the
semaphore too high unless all buffers are dirty. -/
theorem dirty_accounting (sdhc : Bool) (content : Fin fsPoolSize → Block) (medium : UInt32 → Block)
    (s : Fs ι) (run : Run step (fun _ a => Stores a) (Fs.init sdhc content medium) s) :
    s.dirtySem + s.writer.claim = dirtyCount s.pool ∧
      s.fault = false ∧
      (∀ a u, Stores a → step s a = some u → u.fault = false ∧
        ∀ i, (s.pool i).dirty = true → (u.pool i).dirty = true ∨ s.writer = .access i) ∧
      (s.writer = .idle → (∃ i, (s.pool i).dirty = true) → 0 < s.dirtySem) ∧
      (∀ j, s.writer = .failed j → ∀ attempt, (s.pool j).dirty = true ∧
        ∃ u, step s (.write attempt) = some u ∧ u.writer = .idle ∧ u.pool = s.pool ∧
          u.dirtySem = s.dirtySem + 1) ∧
      (Quiet s → ∀ i, (s.pool i).dirty = true → ∃ u, Runs s u ∧ (u.pool i).dirty = false ∧
        u.medium (s.address (s.pool i).page) = (s.pool i).content) ∧
      (∀ j left attempt u v, s.writer = .sending j → step s (.write (.broken left)) = some u →
        step u (.write attempt) = some v →
        v.writer = .idle ∧ (v.dirtySem = dirtyCount v.pool ↔ dirtyCount v.pool = fsPoolSize)) := by
  have flagged : Flagged s := flagged_run run (locked_init ..) (flagged_init ..)
  have h : Accounted s := accounted_run run (fun _ _ stores => stores) (locked_init ..)
    (flagged_init ..) (accounted_init ..)
  refine ⟨h.count, h.sound, ?_, ?_, ?_, ?_, ?_⟩
  · intro a u stores hstep
    exact ⟨(accounted_step flagged h stores (step_change hstep)).sound,
      fun i dirty => stays_dirty flagged dirty (step_change hstep)⟩
  · intro idle some_dirty
    have count := h.count
    have pos : 0 < dirtyCount s.pool := tally_pos_iff.mpr some_dirty
    rw [idle] at count
    simp only [WriterPc.claim] at count
    omega
  · exact fun j failed attempt => retries h failed attempt
  · exact fun quiet i dirty => drained (locked_run run (locked_init ..)) flagged h quiet dirty
  · exact fun j left attempt u v sending breaks next => broken_count h sending breaks next

def refusedWrite : List (Action Unit) :=
  writePage () 5 9 ++ choose ++ [.write .refused, .write .done]

def brokenWrite : List (Action Unit) :=
  writePage () 5 9 ++ choose ++ [.write .done, .write (.broken fun _ => 3), .write .done]

theorem dirty_accounting_refused : ∃ s : Fs Unit, Run step (fun _ a => Stores a) sevens s ∧
    (s.dirtySem, s.writer.claim) = (1, 0) ∧ dirtyCount s.pool = 1 := by
  obtain ⟨s, run, sem⟩ : ∃ s : Fs Unit, Run step (fun _ a => Stores a) sevens s ∧
      (s.dirtySem, s.writer.claim) = (1, 0) := by
    refine execIf_observe refusedWrite _ _ ?_
    decide +kernel
  obtain ⟨count, _⟩ := dirty_accounting true (fun _ _ => 0) (fun _ _ => 7) s run
  refine ⟨s, run, sem, ?_⟩
  rw [← count, (Prod.mk.inj sem).1, (Prod.mk.inj sem).2]

/-- A write that is broken off: the buffer is clean but counted, and the next iteration of the
write task uses `pool[-1]`. -/
theorem broken_write_miscounts :
    (∃ s : Fs Unit, Reach step sevens s ∧
      (s.dirtySem, dirtyCount s.pool, s.writer.claim) = (1, 0, 0)) ∧
    ∃ s : Fs Unit, Reach step sevens s ∧ s.fault = true := by
  constructor
  · refine exec_observe brokenWrite _ _ ?_
    decide +kernel
  · refine exec_observe (brokenWrite ++ List.replicate (fsPoolSize + 2) (.write .done)) _ _ ?_
    decide +kernel

end PageTasks
