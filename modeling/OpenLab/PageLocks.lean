import OpenLab.LockTable
import OpenLab.PageTasks

/-!
# Who keeps which mutex of the page cache

The mutexes kept from one step to the next: `vMutex` by a task that looks at a buffer or has
reserved it, `vContentMutex` by the write task only, `sd_access_mutex` by whoever is in a
transfer.
-/

namespace PageTasks

open LockTable Schedules
open PageCache (Block Buffer Call Attempt fsPoolSize pageSize maxRetry maxUse)
open Function (update update_of_ne)

variable {ι : Type}

def WriterPc.held : WriterPc → Option (Fin fsPoolSize)
  | .scan _ best _ => best
  | .chosen j => some j
  | _ => none

def WriterPc.content : WriterPc → Option (Fin fsPoolSize)
  | .access j | .sending j | .failed j | .written j => some j
  | _ => none

def WriterPc.card : WriterPc → Option Unit
  | .sending _ => some ()
  | _ => none

def Pc.card : Pc → Option Unit
  | .loading _ _ => some ()
  | _ => none

namespace Fs

def held (s : Fs ι) : Owner ι → Option (Fin fsPoolSize)
  | .task t => (s.tasks t).pc.held
  | .writer => s.writer.held

def content (s : Fs ι) : Owner ι → Option (Fin fsPoolSize)
  | .task _ => none
  | .writer => s.writer.content

def card (s : Fs ι) : Owner ι → Option Unit
  | .task t => (s.tasks t).pc.card
  | .writer => s.writer.card

end Fs

/-- The mutexes are with those who keep them, and the transfer is there while it is waited for. -/
structure Locked (s : Fs ι) : Prop where
  header : Locks s.held s.vMutex
  content : Locks s.content s.vContentMutex
  card : Locks s.card fun _ => s.sdAccess
  dma : s.dma.isSome ↔ s.writer.card = some ()

theorem locked_init (sdhc : Bool) (content : Fin fsPoolSize → Block) (medium : UInt32 → Block) :
    Locked (Fs.init sdhc content medium : Fs ι) where
  header o j := by cases o <;> simp [Fs.held, Fs.init, Pc.held, WriterPc.held]
  content o j := by cases o <;> simp [Fs.content, Fs.init, WriterPc.content]
  card o j := by cases o <;> simp [Fs.card, Fs.init, Pc.card, WriterPc.card]
  dma := by simp [Fs.init, WriterPc.card]

variable [DecidableEq ι] {s u : Fs ι} {t : ι} {attempt : Attempt}

section Parties

variable {task : Task} {pc : WriterPc}

theorem held_task (tasks : u.tasks = update s.tasks t task) (writer : u.writer = s.writer) :
    u.held = update s.held (.task t) task.pc.held := by
  funext o
  cases o with
  | writer => rw [update_of_ne (by simp), Fs.held, Fs.held, writer]
  | task p =>
    by_cases eq : p = t <;> simp [eq, Fs.held, tasks]

theorem held_writer (tasks : u.tasks = s.tasks) (writer : u.writer = pc) :
    u.held = update s.held .writer pc.held := by
  funext o
  cases o <;> simp [Fs.held, tasks, writer]

theorem card_task (tasks : u.tasks = update s.tasks t task) (writer : u.writer = s.writer) :
    u.card = update s.card (.task t) task.pc.card := by
  funext o
  cases o with
  | writer => rw [update_of_ne (by simp), Fs.card, Fs.card, writer]
  | task p =>
    by_cases eq : p = t <;> simp [eq, Fs.card, tasks]

theorem card_writer (tasks : u.tasks = s.tasks) (writer : u.writer = pc) :
    u.card = update s.card .writer pc.card := by
  funext o
  cases o <;> simp [Fs.card, tasks, writer]

theorem content_writer (writer : u.writer = pc) :
    u.content = update s.content .writer pc.content := by
  funext o
  cases o <;> simp [Fs.content, writer]

end Parties

omit [DecidableEq ι] in
theorem Moves.held {pc pc'} (h : Moves s t attempt pc pc') :
    pc'.held = pc.held ∧ pc'.reserved = pc.reserved ∧ pc'.card = pc.card := by
  cases h <;> exact ⟨rfl, rfl, rfl⟩

omit [DecidableEq ι] in
theorem Moves.busy {pc pc'} (h : Moves s t attempt pc pc') : pc ≠ .idle ∧ pc' ≠ .idle := by
  cases h <;> exact ⟨nofun, nofun⟩

omit [DecidableEq ι] in
theorem Fills.held {task} {j} (h : Fills task j) :
    task.pc.held = some j ∧ task.pc.reserved = some j ∧ task.pc.card = none := by
  rcases h with ⟨i, useMin, _, pc, _⟩ | ⟨pc, _⟩ <;> rw [pc] <;> exact ⟨rfl, rfl, rfl⟩

variable {a : Action ι}

theorem header_step (h : Locks s.held s.vMutex) (change : Change s a u) :
    Locks u.held u.vMutex := by
  have of_task {t : ι} {task : Task} (tasks : u.tasks = update s.tasks t task)
      (writer : u.writer = s.writer)
      (locks : Locks (update s.held (.task t) task.pc.held) u.vMutex) :
      Locks u.held u.vMutex := held_task tasks writer ▸ locks
  have of_writer {pc : WriterPc} (tasks : u.tasks = s.tasks) (writer : u.writer = pc)
      (locks : Locks (update s.held .writer pc.held) u.vMutex) :
      Locks u.held u.vMutex := held_writer tasks writer ▸ locks
  have keeps {t : ι} {pc : Pc} {b : Option (Fin fsPoolSize)} (at_pc : (s.tasks t).pc = pc)
      (eq : pc.held = b) : s.held (.task t) = b := by
    rw [Fs.held, at_pc, eq]
  have writes {pc : WriterPc} {b : Option (Fin fsPoolSize)} (at_pc : s.writer = pc)
      (eq : pc.held = b) : s.held .writer = b := by
    rw [Fs.held, at_pc, eq]
  cases change with
  | enter idle => exact of_task rfl rfl <| h.keep (keeps idle rfl)
  | moves moves => exact of_task rfl rfl <| h.keep moves.held.1.symm
  | readHit pc | writeHit pc | tagRead pc | command pc | loadDone pc | registers pc | wakes pc
  | leaves pc => exact of_task rfl rfl <| h.keep (keeps pc rfl)
  | waits pc _ free => exact of_task rfl rfl <| h.take (keeps pc rfl) free
  | rewrites pc | dirties pc | delivers pc | fails pc | drops pc =>
    exact of_task rfl rfl <| h.give (keeps pc rfl)
  | @better _ _ i best _ pc free =>
    cases best with
    | none => exact of_task rfl rfl <| h.take (keeps pc rfl) free
    | some j => exact of_task rfl rfl <| h.swap (keeps pc rfl) free
  | tagWrite fills => exact of_task rfl rfl <| h.give fills.held.1
  | loadBroken pc next =>
    rcases next with rfl | rfl <;> exact of_task rfl rfl <| h.keep (keeps pc rfl)
  | claims pc | scanNext pc | chooses pc | refused pc | accepted pc | stored pc | broken pc
  | givesBack pc | releases pc => exact of_writer rfl rfl <| h.keep (writes pc rfl)
  | @scanBetter _ i best _ pc free =>
    cases best with
    | none => exact of_writer rfl rfl <| h.take (writes pc rfl) free
    | some j => exact of_writer rfl rfl <| h.swap (writes pc rfl) free
  | lost | transfers => exact h
  | locks pc => exact of_writer rfl rfl <| h.give (writes pc rfl)

theorem content_step (h : Locks s.content s.vContentMutex) (change : Change s a u) :
    Locks u.content u.vContentMutex := by
  have of_writer {pc : WriterPc} (writer : u.writer = pc)
      (locks : Locks (update s.content .writer pc.content) u.vContentMutex) :
      Locks u.content u.vContentMutex := content_writer writer ▸ locks
  have writes {pc : WriterPc} {b : Option (Fin fsPoolSize)} (at_pc : s.writer = pc)
      (eq : pc.content = b) : s.content .writer = b := by
    rw [Fs.content, at_pc, eq]
  cases change with
  | claims pc | scanNext pc | chooses pc | refused pc | accepted pc | stored pc | broken pc =>
    exact of_writer rfl <| h.keep (writes pc rfl)
  | @scanBetter _ i best _ pc =>
    cases best with
    | none => exact of_writer rfl <| h.keep (writes pc rfl)
    | some j => exact of_writer rfl <| h.keep (writes pc rfl)
  | locks pc free => exact of_writer rfl <| h.take (writes pc rfl) free
  | givesBack pc | releases pc => exact of_writer rfl <| h.give (writes pc rfl)
  | @better _ _ _ best => cases best <;> exact h
  | enter | moves | readHit | writeHit | waits | rewrites | dirties | tagRead | tagWrite | command
  | loadDone | loadBroken | delivers | fails | drops | registers | wakes | leaves | lost
  | transfers => exact h

theorem card_step (h : Locks s.card fun _ => s.sdAccess) (change : Change s a u) :
    Locks u.card fun _ => u.sdAccess := by
  have of_task {t : ι} {task : Task} {table : Unit → Option (Owner ι)}
      (tasks : u.tasks = update s.tasks t task) (writer : u.writer = s.writer)
      (locks : Locks (update s.card (.task t) task.pc.card) table)
      (access : table () = u.sdAccess) : Locks u.card fun _ => u.sdAccess := by
    rw [card_task tasks writer, ← access]
    exact locks
  have of_writer {pc : WriterPc} {table : Unit → Option (Owner ι)} (tasks : u.tasks = s.tasks)
      (writer : u.writer = pc) (locks : Locks (update s.card .writer pc.card) table)
      (access : table () = u.sdAccess) : Locks u.card fun _ => u.sdAccess := by
    rw [card_writer tasks writer, ← access]
    exact locks
  have keeps {t : ι} {pc : Pc} {b : Option Unit} (at_pc : (s.tasks t).pc = pc)
      (eq : pc.card = b) : s.card (.task t) = b := by
    rw [Fs.card, at_pc, eq]
  have writes {pc : WriterPc} {b : Option Unit} (at_pc : s.writer = pc)
      (eq : pc.card = b) : s.card .writer = b := by
    rw [Fs.card, at_pc, eq]
  cases change with
  | enter pc | readHit pc | writeHit pc | waits pc | rewrites pc | dirties pc | tagRead pc
  | delivers pc | fails pc | drops pc | registers pc | wakes pc | leaves pc =>
    exact of_task rfl rfl (h.keep (keeps pc rfl)) rfl
  | moves moves => exact of_task rfl rfl (h.keep moves.held.2.2.symm) rfl
  | @better _ _ _ best _ pc =>
    cases best <;> exact of_task rfl rfl (h.keep (keeps pc rfl)) rfl
  | tagWrite fills => exact of_task rfl rfl (h.keep fills.held.2.2) rfl
  | command pc free => exact of_task rfl rfl (h.take (k := ()) (keeps pc rfl) free) rfl
  | loadDone pc => exact of_task rfl rfl (h.give (k := ()) (keeps pc rfl)) rfl
  | loadBroken pc next =>
    rcases next with rfl | rfl <;> exact of_task rfl rfl (h.give (k := ()) (keeps pc rfl)) rfl
  | claims pc | scanNext pc | chooses pc | locks pc | refused pc | givesBack pc | releases pc =>
    exact of_writer rfl rfl (h.keep (writes pc rfl)) rfl
  | @scanBetter _ _ best _ pc =>
    cases best <;> exact of_writer rfl rfl (h.keep (writes pc rfl)) rfl
  | accepted pc free => exact of_writer rfl rfl (h.take (k := ()) (writes pc rfl) free) rfl
  | stored pc | broken pc => exact of_writer rfl rfl (h.give (k := ()) (writes pc rfl)) rfl
  | lost | transfers => exact h

theorem dma_step (h : s.dma.isSome ↔ s.writer.card = some ()) (change : Change s a u) :
    u.dma.isSome ↔ u.writer.card = some () := by
  cases change with
  | claims pc | scanNext pc | chooses pc | refused pc | releases pc =>
    simpa [pc, WriterPc.card] using h
  | @scanBetter _ _ best _ pc =>
    cases best <;> simpa [pc, WriterPc.card, Fs.unlockBest, Fs.unlock, Fs.lock] using h
  | locks pc => simpa [pc, WriterPc.card, Fs.unlock] using h
  | accepted pc | stored pc | broken pc => simp [WriterPc.card]
  | givesBack pc => simpa [pc, WriterPc.card, Fs.giveDirty] using h
  | transfers pc => simp [pc, WriterPc.card]
  | @better _ _ _ best => cases best <;> exact h
  | enter | moves | readHit | writeHit | waits | rewrites | dirties | tagRead | tagWrite | command
  | loadDone | loadBroken | delivers | fails | drops | registers | wakes | leaves | lost => exact h

theorem locked_step (h : Locked s) (change : Change s a u) : Locked u where
  header := header_step h.header change
  content := content_step h.content change
  card := card_step h.card change
  dma := dma_step h.dma change

theorem locked_run {ok} (run : Run step ok s u) (h : Locked s) : Locked u :=
  run.invariant Locked (fun _ _ _ locked _ hstep => locked_step locked (step_change hstep)) h

end PageTasks
