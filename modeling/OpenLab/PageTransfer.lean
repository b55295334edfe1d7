import OpenLab.PageDirty

/-!
# Buffers under transfer

What the card stores when `vWriteTask` writes a buffer that is marked clean, and so reachable for
other tasks, as soon as the command is accepted.
-/

namespace PageTasks

open Function LockTable Schedules Option
open PageCache (Block Buffer Call Attempt fsPoolSize pageSize maxRetry maxUse cpy)
open PageCache.Cache (used)

variable {ι : Type}

/-- The task is about to look, in `fs_write`, at buffer `j` that holds its page, or to prefer the
buffer to those before it in `reserve_buffer`. -/
def Approaches (s : Fs ι) (t : ι) (j : Fin fsPoolSize) : Prop :=
  match (s.tasks t).pc, (s.tasks t).call with
  | .lookup i, .write page _ _ => i = j.val ∧ page = (s.pool j).page
  | .reserve i _ useMin, _ => i = j.val ∧ (s.pool j).use < useMin
  | _, _ => False

instance (s : Fs ι) (t : ι) (j : Fin fsPoolSize) : Decidable (Approaches s t j) := by
  unfold Approaches
  split <;> infer_instance

/-- While a buffer is sent, no task approaches it, neither to write nor to take it. -/
def Undisturbed (s : Fs ι) : Action ι → Prop
  | .run t _ => ∀ j, s.writer = .sending j → ¬Approaches s t j
  | _ => True

instance (s : Fs ι) : DecidablePred (Undisturbed s)
  | .enter .. | .run .. | .write .. | .transfer .. => by
    dsimp only [Undisturbed]
    infer_instance

structure Intact (s : Fs ι) : Prop where
  frozen : ∀ j dma, s.writer = .sending j → s.dma = some dma →
    dma.page = (s.pool j).page ∧ dma.start = (s.pool j).content ∧
      ∀ k b, dma.got k = some b → b = (s.pool j).content k
  reserved : ∀ t j, (s.tasks t).pc.reserved = some j → s.writer ≠ .sending j

theorem intact_init (sdhc : Bool) (content : Fin fsPoolSize → Block) (medium : UInt32 → Block) :
    Intact (Fs.init sdhc content medium : Fs ι) where
  frozen j dma h := by cases h
  reserved t j h := by cases h

variable {j : Fin fsPoolSize} {t : ι} {attempt : Attempt}

section Put

variable {pool : Fin fsPoolSize → Buffer} {i j : Fin fsPoolSize} {b : Buffer}

def Same (b b' : Buffer) : Prop := b'.page = b.page ∧ b'.content = b.content

theorem same_put (h : i = j → Same (pool j) b) : Same (pool j) (update pool i b j) := by
  rcases eq_or_ne i j with rfl | ne
  · rw [update_self]
    exact h rfl
  · rw [update_of_ne ne.symm]
    exact ⟨rfl, rfl⟩

end Put

variable {s u : Fs ι} {a : Action ι} {j : Fin fsPoolSize}

variable [DecidableEq ι]

theorem keeps_buffer (locked : Locked s) (h : Intact s) (calm : Undisturbed s a)
    (sending : s.writer = .sending j) (change : Change s a u) : Same (s.pool j) (u.pool j) := by
  have held : s.vContentMutex j = some .writer :=
    (locked.content .writer j).mp (by rw [Fs.content, sending]; rfl)
  -- A task that has reserved a buffer has not reserved the one under transfer.
  have apart {t : ι} {pc : Pc} {k : Fin fsPoolSize} (at_pc : (s.tasks t).pc = pc)
      (keeps : pc.reserved = some k) : k ≠ j := by
    rintro rfl
    exact h.reserved t k (at_pc ▸ keeps) sending
  cases change with
  | readHit => exact same_put fun eq => eq ▸ ⟨rfl, rfl⟩
  | @writeHit t _ i page offset data pc call _ here =>
    refine same_put fun eq => ?_
    subst eq
    exact absurd (by simp [Approaches, pc, call, here]) (calm i sending)
  | rewrites _ _ free | dirties _ _ free =>
    refine same_put fun eq => ?_
    rw [eq, held] at free
    cases free
  | tagRead pc | loadDone pc | loadBroken pc => exact same_put fun eq => absurd eq (apart pc rfl)
  | tagWrite fills => exact same_put fun eq => absurd eq (apart rfl fills.held.2.1)
  | accepted => simp_all
  | @better _ _ _ best | @scanBetter _ _ best => cases best <;> exact ⟨rfl, rfl⟩
  | enter | moves | waits | command | delivers | fails | drops | registers | wakes | leaves | claims
  | scanNext | lost | chooses | locks | refused | stored | broken | givesBack | releases
  | transfers => exact ⟨rfl, rfl⟩

theorem sending_change (change : Change s a u) (sending : u.writer = .sending j) :
    s.writer = .access j ∧ u.dma = some ⟨(u.pool j).page, (u.pool j).content, fun _ => none⟩ ∨
      s.writer = .sending j ∧ (u.dma = s.dma ∨ u.pool = s.pool ∧ ∃ dma bytes,
        s.dma = some dma ∧ u.dma = some (dma.fetch (s.pool j).content bytes)) := by
  cases change with
  | accepted access =>
    obtain rfl := WriterPc.sending.inj sending
    refine .inl ⟨access, ?_⟩
    simp [Fs.putBuffer]
  | transfers sending' transfer =>
    obtain rfl := WriterPc.sending.inj (sending'.symm.trans sending)
    exact .inr ⟨sending, .inr ⟨rfl, _, _, transfer, rfl⟩⟩
  | @better _ _ _ best => cases best <;> exact .inr ⟨sending, .inl rfl⟩
  | claims | scanNext | scanBetter | chooses | locks | refused | stored | broken | givesBack
  | releases => cases sending
  | enter | moves | readHit | writeHit | waits | rewrites | dirties | tagRead | tagWrite | command
  | loadDone | loadBroken | delivers | fails | drops | registers | wakes | leaves
  | lost => exact .inr ⟨sending, .inl rfl⟩

theorem frozen_step (locked : Locked s) (h : Intact s) (calm : Undisturbed s a)
    (change : Change s a u) (j : Fin fsPoolSize) (dma : Dma) (sending : u.writer = .sending j)
    (transfer : u.dma = some dma) : dma.page = (u.pool j).page ∧ dma.start = (u.pool j).content ∧
      ∀ k b, dma.got k = some b → b = (u.pool j).content k := by
  rcases sending_change change sending
    with ⟨_, fresh⟩ | ⟨before, same | ⟨pool, old, bytes, was, now⟩⟩
  · obtain rfl := some.inj (transfer.symm.trans fresh)
    exact ⟨rfl, rfl, nofun⟩
  · obtain ⟨page, content⟩ := keeps_buffer locked h calm before change
    rw [page, content]
    exact h.frozen j dma before (same ▸ transfer)
  · obtain rfl := some.inj (transfer.symm.trans now)
    rw [pool]
    obtain ⟨page, start, got⟩ := h.frozen j old before was
    refine ⟨page, start, fun k b read => ?_⟩
    simp only [Dma.fetch] at read
    split at read
    · exact (some.inj read).symm
    · exact got k b read

theorem reserved_before (calm : Undisturbed s a) (change : Change s a u)
    (reserved : (u.tasks t).pc.reserved = some j) :
    (s.tasks t).pc.reserved = some j ∨ s.writer ≠ .sending j ∧ u.writer = s.writer := by
  -- Only the task of the step has moved.
  have other {p : ι} {task : Task} (tasks : u.tasks = update s.tasks p task)
      (own : task.pc.reserved = some j → (s.tasks p).pc.reserved = some j ∨
        s.writer ≠ .sending j ∧ u.writer = s.writer) :
      (s.tasks t).pc.reserved = some j ∨ s.writer ≠ .sending j ∧ u.writer = s.writer := by
    rcases eq_or_ne t p with rfl | ne
    · exact own (by rwa [tasks, update_self] at reserved)
    · rw [tasks, update_of_ne ne] at reserved
      exact .inl reserved
  have same {p : ι} {task : Task} {pc : Pc} (tasks : u.tasks = update s.tasks p task)
      (at_pc : (s.tasks p).pc = pc) (keeps : task.pc.reserved = pc.reserved) :
      (s.tasks t).pc.reserved = some j ∨ s.writer ≠ .sending j ∧ u.writer = s.writer :=
    other tasks fun own => .inl (by rw [at_pc, ← keeps, own])
  cases change with
  | moves moves => exact other rfl fun own => .inl (moves.held.2.1 ▸ own)
  | @better p _ i best _ pc _ _ less =>
    have prefers : s.writer ≠ .sending i := fun sending =>
      calm i sending (by simp [Approaches, pc, less])
    cases best <;> exact other rfl fun own => .inr ⟨some.inj own ▸ prefers, rfl⟩
  | tagRead pc | command pc | loadDone pc => exact same rfl pc rfl
  | loadBroken pc next => rcases next with rfl | rfl <;> exact same rfl pc rfl
  | enter | readHit | writeHit | waits | rewrites | dirties | tagWrite | delivers | fails
  | drops | registers | wakes | leaves => exact other rfl nofun
  | @scanBetter _ _ best => cases best <;> exact .inl reserved
  | claims | scanNext | lost | chooses | locks | refused | accepted | stored | broken | givesBack
  | releases | transfers => exact .inl reserved

theorem intact_step (locked : Locked s) (flagged : Flagged s) (h : Intact s)
    (calm : Undisturbed s a) (change : Change s a u) : Intact u where
  frozen := frozen_step locked h calm change
  reserved := by
    intro t j reserved sending
    rcases reserved_before calm change reserved with before | ⟨other, same⟩
    · rcases sending_change change sending with ⟨access, _⟩ | ⟨was, _⟩
      · -- The command goes out for a dirty buffer, and a reserved one is clean.
        have clean := flagged.reserved t j before
        rw [flagged.target j (by rw [access, WriterPc.target])] at clean
        cases clean
      · exact h.reserved t j before was
    · exact other (same ▸ sending)

theorem intact_run {ok} (run : Run step ok s u)
    (calm : ∀ s a, ok s a → Undisturbed s a) (locked : Locked s) (flagged : Flagged s)
    (h : Intact s) : Intact u :=
  run.invariant_of (fun s => Locked s ∧ Flagged s) Intact
    (fun _ prior => ⟨locked_run prior locked, flagged_run prior locked flagged⟩)
    (fun _ _ _ known h allowed hstep =>
      intact_step known.1 known.2 h (calm _ _ allowed) (step_change hstep)) h

omit [DecidableEq ι] in
theorem Intact.block {dma} (h : Intact s) (sending : s.writer = .sending j)
    (transfer : s.dma = some dma) (complete : ∀ k, (dma.got k).isSome) :
    dma.block = (s.pool j).content := by
  funext k
  obtain ⟨b, read⟩ := isSome_iff_exists.mp (complete k)
  rw [Dma.block, read, getD_some]
  exact (h.frozen j dma sending transfer).2.2 k b read

/-- The transfer of a page has read all the bytes; a task has read the page meanwhile. -/
def readWhileSent : List (Action Unit) :=
  writePage () 5 9 ++ choose ++ [.write .done, .enter () (.read 5 0 1), .run () .done,
    .transfer fun _ => true]

/-- Page 5 full of nines is sent; half of it has been read when a task comes to the buffer to
fill the page with eights. -/
def writeWhileSent : List (Action Unit) :=
  writePage () 5 9 ++ choose ++ [.write .done, .transfer fun k => k < 256,
    .enter () (.write 5 0 (List.replicate pageSize 8))]

end PageTasks
