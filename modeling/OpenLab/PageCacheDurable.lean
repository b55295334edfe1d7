import OpenLab.PageBytes
import OpenLab.PageCacheRefines

/-!
# What the page cache keeps

A page is read as it was last written, and the write task brings all the pages to the card.
-/

namespace PageCache

open Function Schedules Option

/-- The page that the action writes to. -/
def Action.written : Action → Option UInt32
  | .call (.write page _ _) _ => some page
  | _ => none

namespace Lockstep

/-- The card does not fail and the call keeps the array. -/
abbrev Sound (s : Lockstep) (a : Action) : Prop :=
  a.FaultFree ∧ a.Keeps s.cache

variable {s t u v : Lockstep} {page : UInt32} {offset : Nat} {data : List UInt8}
  {sdhc : Bool} {content : Fin fsPoolSize → Block} {medium : UInt32 → Block}

theorem pages_step {a} (other : a.written ≠ some page) (st : s.step a = some t) :
    t.pages page = s.pages page := by
  cases a with
  | call call attempts =>
    obtain ⟨_, _, _, pages, _⟩ := step_call st
    rw [pages, ideal]
    split
    · rfl
    · cases call with
      | read => rfl
      | write => exact update_of_ne (fun same => other (congrArg some same.symm)) ..
  | writeTask attempt => rw [(step_writeTask st).2.1]

/-- What was written to a page is read back, whatever the write task and the calls for other pages
do in between. -/
theorem read_own_write {attempts attempts' : Attempts}
    (run : Run step Sound (init sdhc content medium) s)
    (ok : Sound s (.call (.write page offset data) attempts))
    (write : s.step (.call (.write page offset data) attempts) = some t)
    (later : Run step (fun s a => Sound s a ∧ a.written ≠ some page) t u)
    (own : u.cache.Addressable page)
    (free : Action.FaultFree (.call (.read page offset data.length) attempts'))
    (read : u.step (.call (.read page offset data.length) attempts') = some v) :
    v.replies.head?.map Prod.fst = some ⟨data.length, data⟩ := by
  have whole : Run step Sound (init sdhc content medium) u :=
    (run.next _ ok write).trans (later.weaken fun _ _ both => both.1)
  have h := (agrees_run whole fun _ _ ok => ⟨ok.1.writesDone, ok.2⟩).coherent
  have kept : u.pages page = t.pages page := by
    refine later.invariant (fun u => u.pages page = t.pages page) (fun s a u same ok st => ?_) rfl
    exact (pages_step ok.2 st).trans same
  obtain ⟨_, valid, _, pages, _⟩ := step_call write
  rw [faultFree_ideal ok.1] at pages
  have stored : t.pages page = cpy data (s.pages page) offset := by
    rw [pages]
    exact update_self ..
  obtain ⟨reply, _, _, _, replies⟩ := step_call read
  obtain ⟨r, same⟩ := reply_call h
    (show u.cache.Addressable (Call.read page offset data.length).page from own) read
  rw [faultFree_ideal free] at replies
  obtain ⟨rfl, rfl⟩ := Prod.mk.inj (List.cons.inj (replies.symm.trans same)).1
  have back : bytes (u.pages page) offset data.length = data := by
    rw [kept, stored]
    exact bytes_cpy_self valid.2
  rw [replies]
  exact congrArg (fun bytes => some (⟨data.length, bytes⟩ : Cache.Reply)) back

/-- The buffer of page 100 is written back and taken for another page before the page is read. -/
theorem read_own_write_evicted : ∃ u v : Lockstep, u.cache.lookup 100 = none ∧
    u.step (.call (.read 100 4 1) fun _ => .done) = some v ∧
    v.replies.head?.map Prod.fst = some ⟨1, [9]⟩ := by
  have h : (((init true (fun _ _ => 0) fun _ _ => 7).step
      (.call (.write 100 4 [9]) fun _ => .done)).bind fun t =>
        (execIf step (fun s a => Sound s a ∧ a.written ≠ some 100) t
          (.writeTask .done :: fillPool)).bind fun u =>
            (u.step (.call (.read 100 4 1) fun _ => .done)).map fun _ =>
              (u.cache.sdhc, u.cache.lookup 100)) = some (true, none) := by
    decide +kernel
  obtain ⟨t, write, h⟩ := bind_eq_some_iff.mp h
  obtain ⟨u, later, h⟩ := bind_eq_some_iff.mp h
  obtain ⟨v, read, seen⟩ := map_eq_some_iff.mp h
  obtain ⟨sdhc, evicted⟩ := Prod.mk.inj seen
  exact ⟨u, v, evicted, read, read_own_write .start (by decide +kernel) write (execIf_run later)
    (.inl sdhc) (fun _ => rfl) read⟩

theorem vWriteTask_taken {c c' : Cache} (task : c.vWriteTask .done = some c') :
    c'.dirtySem + 1 = c.dirtySem ∧ c'.sdhc = c.sdhc := by
  obtain ⟨positive, task⟩ := ite_none_right_eq_some.mp task
  dsimp only at task
  split at task <;> obtain rfl := some.inj task
  all_goals exact ⟨Nat.sub_add_cancel positive, rfl⟩

theorem drained {n : Nat} (h : Coherent s.cache s.pages) (waiting : s.cache.dirtySem = n) :
    ∃ t, exec step s (List.replicate n (.writeTask .done)) = some t ∧ t.replies = s.replies ∧
      t.pages = s.pages ∧ t.cache.sdhc = s.cache.sdhc ∧ Coherent t.cache t.pages ∧
      t.cache.dirtySem = 0 := by
  induction n generalizing s with
  | zero => exact ⟨s, rfl, rfl, rfl, rfl, h, waiting⟩
  | succ n ih =>
    obtain ⟨c, task⟩ := ne_none_iff_exists'.mp (Coherent.vWriteTask_goes (c := s.cache) (by omega))
    obtain ⟨fewer, sdhc⟩ := vWriteTask_taken task
    obtain ⟨t, run, replies, pages, card, coherent, none⟩ :=
      ih (s := { s with cache := c }) (h.vWriteTask_done task).1 (by simpa using by omega)
    refine ⟨t, ?_, replies, pages, card.trans sdhc, coherent, none⟩
    rw [List.replicate_succ, exec, step, task]
    exact run

/-- From every state of a run whose writes to the card succeed, one iteration of the write task
for each dirty buffer brings the array to the card: the system can be started again, with
anything in its buffers, and no page is lost. -/
theorem restart_keeps_pages
    (run : Run step (fun s a => a.WritesDone ∧ a.Keeps s.cache) (init sdhc content medium) s) :
    ∃ t, exec step s (List.replicate (dirtyCount s.cache.pool) (.writeTask .done)) = some t ∧
      t.replies = s.replies ∧ ∀ content' page, s.cache.Addressable page →
        (init s.cache.sdhc content' t.cache.medium).pages page = s.pages page := by
  have h := (agrees_run run fun _ _ ok => ok).coherent
  obtain ⟨t, iterations, replies, pages, card, coherent, none⟩ := drained h h.counted
  refine ⟨t, iterations, replies, fun content' page own => ?_⟩
  have clean := Tally.tally_eq_zero_iff.mp (coherent.counted.symm.trans none)
  have stored := coherent.stored page (own.imp_left card.trans) fun i dirty =>
    absurd dirty (clean i)
  rw [← pages, ← stored]
  exact congrArg t.cache.medium (by rw [Cache.address, ← card]; rfl)

theorem restart_keeps_written_byte : ∃ s t : Lockstep, dirtyCount s.cache.pool = 1 ∧
    exec step s [.writeTask .done] = some t ∧
      ∀ content', (init s.cache.sdhc content' t.cache.medium).pages 5 4 = 9 := by
  obtain ⟨s, run, seen⟩ : ∃ s : Lockstep, Run step (fun s a => a.WritesDone ∧ a.Keeps s.cache)
      (init false (fun _ _ => 0) fun _ _ => 7) s ∧
        (dirtyCount s.cache.pool, s.pages 5 4) = (1, 9) := by
    refine execIf_observe
      [.call (.read 5 3 2) fun _ => .done, .call (.write 5 4 [9]) fun _ => .done] _ _ ?_
    decide +kernel
  obtain ⟨dirty, byte⟩ := Prod.mk.inj seen
  obtain ⟨t, iteration, -, kept⟩ := restart_keeps_pages run
  rw [dirty] at iteration
  exact ⟨s, t, dirty, iteration, fun content' =>
    (congrFun (kept content' 5 (.inr (by decide))) 4).trans byte⟩

end Lockstep

end PageCache
