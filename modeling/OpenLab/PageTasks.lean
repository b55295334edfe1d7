import OpenLab.PageCache
import OpenLab.Schedules

/-!
# Tasks that share the page cache

`lib/fat32/fs.c` with any number of tasks in `fs_read` and `fs_write`, the write task and the DMA
transfer. A step is what a task does from one mutex to the next. Mutexes kept from one step to the
next have an owner in the state.
-/

namespace PageTasks

open Option

open PageCache (Block Buffer Call Attempt fsPoolSize pageSize maxRetry maxUse cpy)
open PageCache.Cache (used)
open Function (update)

variable {ι : Type}

inductive Owner (ι : Type)
  | task (t : ι)
  | writer
deriving DecidableEq

/-- Where a call of `fs_read` or `fs_write` is. -/
inductive Pc
  | idle
  /-- about to take `vMutex` of `pool[i]` in the lookup loop -/
  | lookup (i : Nat)
  /-- has found its page in a dirty buffer, keeps its `vMutex` and takes its `vContentMutex` -/
  | content (i : Fin fsPoolSize)
  /-- about to take `vMutex` of `pool[i]` in `reserve_buffer`; keeps the one of `best` -/
  | reserve (i : Nat) (best : Option (Fin fsPoolSize)) (useMin : Nat)
  /-- about to take `sd_access_mutex` in `safe_read`; keeps `vMutex` of `j` from here on -/
  | load (j : Fin fsPoolSize) (tries : Nat)
  | loading (j : Fin fsPoolSize) (tries : Nat)
  /-- has given back `sd_access_mutex` for the last time -/
  | loaded (j : Fin fsPoolSize) (ok : Bool)
  /-- `reserve_buffer` has returned NULL -/
  | full
  /-- is counted in `num_waiting` and takes `waiting_for_clean_mutex` -/
  | blocked
  | woken
deriving DecidableEq

/-- A task: where it is, its call, its local variable `s`, and what `fs_read` has put in the
caller's buffer. -/
structure Task where
  pc : Pc
  call : Call
  s : Nat
  buf : List UInt8

inductive WriterPc
  /-- about to take `dirty_sem` -/
  | idle
  /-- about to take `vMutex` of `pool[i]`; keeps the one of `best` -/
  | scan (i : Nat) (best : Option (Fin fsPoolSize)) (useMin : Nat)
  /-- keeps `vMutex` of `j` and takes its `vContentMutex` -/
  | chosen (j : Fin fsPoolSize)
  /-- keeps `vContentMutex` of `j` from here on, and takes `sd_access_mutex` in `safe_write` -/
  | access (j : Fin fsPoolSize)
  /-- the command was accepted; keeps `sd_access_mutex` and waits for the end of the transfer -/
  | sending (j : Fin fsPoolSize)
  /-- `safe_write` has failed -/
  | failed (j : Fin fsPoolSize)
  /-- `safe_write` has succeeded -/
  | written (j : Fin fsPoolSize)
deriving DecidableEq

structure Dma where
  /-- the page in the command -/
  page : UInt32
  /-- the content of the buffer when the command was accepted -/
  start : Block
  /-- the bytes read so far -/
  got : Fin pageSize → Option UInt8

/-- Read the given bytes of the buffer, each at most once. -/
def Dma.fetch (dma : Dma) (content : Block) (bytes : Fin pageSize → Bool) : Dma :=
  { dma with got := fun k => if bytes k ∧ dma.got k = none then some (content k) else dma.got k }

def Dma.block (dma : Dma) : Block := fun k => (dma.got k).getD 0

structure Fs (ι : Type) where
  sdhc : Bool
  pool : Fin fsPoolSize → Buffer
  medium : UInt32 → Block
  vMutex : Fin fsPoolSize → Option (Owner ι)
  vContentMutex : Fin fsPoolSize → Option (Owner ι)
  sdAccess : Option (Owner ι)
  dirtySem : Nat
  numWaiting : UInt16
  /-- `waiting_for_clean_mutex` is available -/
  cleanSem : Bool
  tasks : ι → Task
  writer : WriterPc
  dma : Option Dma
  /-- `vWriteTask` has used `pool[-1]` -/
  fault : Bool

namespace Fs

/-- After `fs_init`, with all tasks outside of `fs_read` and `fs_write`. -/
def init (sdhc : Bool) (content : Fin fsPoolSize → Block) (medium : UInt32 → Block) : Fs ι where
  sdhc := sdhc
  pool := fun i => ⟨content i, false, 0, 0⟩
  medium := medium
  vMutex := fun _ => none
  vContentMutex := fun _ => none
  sdAccess := none
  dirtySem := 0
  numWaiting := 0
  cleanSem := false
  tasks := fun _ => ⟨.idle, .read 0 0 0, 0, []⟩
  writer := .idle
  dma := none
  fault := false

def address (s : Fs ι) (page : UInt32) : UInt32 := if s.sdhc then page else page * 512

def giveDirty (s : Fs ι) : Fs ι :=
  { s with dirtySem := if s.dirtySem < fsPoolSize then s.dirtySem + 1 else s.dirtySem }

def putBuffer (s : Fs ι) (i : Fin fsPoolSize) (b : Buffer) : Fs ι :=
  { s with pool := update s.pool i b }

def lock (s : Fs ι) (i : Fin fsPoolSize) (o : Owner ι) : Fs ι :=
  { s with vMutex := update s.vMutex i (some o) }

def unlock (s : Fs ι) (i : Fin fsPoolSize) : Fs ι :=
  { s with vMutex := update s.vMutex i none }

def unlockBest (s : Fs ι) : Option (Fin fsPoolSize) → Fs ι
  | none => s
  | some j => s.unlock j

variable [DecidableEq ι]

def goto (s : Fs ι) (t : ι) (pc : Pc) : Fs ι :=
  { s with tasks := update s.tasks t { s.tasks t with pc := pc } }

def giveUp (s : Fs ι) (t : ι) (pc : Pc) : Fs ι :=
  { s with tasks := update s.tasks t { s.tasks t with pc := pc, s := 0 } }

def deliver (s : Fs ι) (t : ι) (content : Block) (offset : Nat) (pc : Pc) : Fs ι :=
  let task := { s.tasks t with pc := pc, buf := PageCache.bytes content offset (s.tasks t).s }
  { s with tasks := update s.tasks t task }

def enter (s : Fs ι) (t : ι) (call : Call) (n : Nat) : Fs ι :=
  { s with tasks := update s.tasks t ⟨.lookup 0, call, n, []⟩ }

def size : Call → Nat
  | .read _ offset size => min size (pageSize - offset)
  | .write _ offset data => min data.length (pageSize - offset)

/-- A buffer with the page of a `fs_write`, after the bytes have been put there. -/
def hit (b : Buffer) (offset : Nat) (data : List UInt8) (n : Nat) : Buffer :=
  ⟨cpy (data.take n) b.content offset, true, b.page, used b⟩

/-- A clean buffer has become dirty: `b->dirty = true`, and the write task is told. -/
def putDirty (s : Fs ι) (i : Fin fsPoolSize) (b : Buffer) : Fs ι := (s.putBuffer i b).giveDirty

def lookupStep (s : Fs ι) (t : ι) (i : Fin fsPoolSize) : Fs ι :=
  let b := s.pool i
  let n := (s.tasks t).s
  match (s.tasks t).call with
  | .read page offset _ =>
    if page == b.page && b.use != 0 then
      (s.putBuffer i { b with use := used b }).deliver t b.content offset .idle
    else s.goto t (.lookup (i + 1))
  | .write page offset data =>
    if page == b.page then
      if b.dirty then (s.lock i (.task t)).goto t (.content i)
      else (s.putDirty i (hit b offset data n)).goto t .idle
    else s.goto t (.lookup (i + 1))

/-- With `vContentMutex` of the buffer, which may have become clean in the meantime. -/
def contentStep (s : Fs ι) (t : ι) (i : Fin fsPoolSize) (offset : Nat) (data : List UInt8) :
    Fs ι :=
  let b := hit (s.pool i) offset data (s.tasks t).s
  ((if (s.pool i).dirty then s.putBuffer i b else s.putDirty i b).unlock i).goto t .idle

def reserveStep (s : Fs ι) (t : ι) (i : Fin fsPoolSize) (best : Option (Fin fsPoolSize))
    (useMin : Nat) : Fs ι :=
  if (s.pool i).dirty = false ∧ (s.pool i).use < useMin then
    ((s.unlockBest best).lock i (.task t)).goto t (.reserve (i + 1) (some i) (s.pool i).use)
  else s.goto t (.reserve (i + 1) best useMin)

def tagWrite (s : Fs ι) (t : ι) (j : Fin fsPoolSize) (page : UInt32) (offset : Nat)
    (data : List UInt8) : Fs ι :=
  let content := cpy (data.take (s.tasks t).s) (s.pool j).content offset
  ((s.putDirty j ⟨content, true, page, 1⟩).unlock j).goto t .idle

def reserved (s : Fs ι) (t : ι) (j : Fin fsPoolSize) : Fs ι :=
  match (s.tasks t).call with
  | .read page _ _ =>
    (s.putBuffer j { s.pool j with page := page, dirty := false, use := 1 }).goto t (.load j 0)
  | .write page offset data =>
    if (s.tasks t).s = pageSize then s.tagWrite t j page offset data else s.goto t (.load j 0)

def retry (s : Fs ι) (t : ι) (j : Fin fsPoolSize) (tries : Nat) : Fs ι :=
  if tries + 1 < maxRetry then s.goto t (.load j (tries + 1)) else s.goto t (.loaded j false)

def loadedStep (s : Fs ι) (t : ι) (j : Fin fsPoolSize) (ok : Bool) : Fs ι :=
  match (s.tasks t).call with
  | .read _ offset _ =>
    if ok then (s.unlock j).deliver t (s.pool j).content offset (.lookup 0)
    else (s.unlock j).giveUp t (.lookup 0)
  | .write page offset data =>
    if ok = true ∧ (s.tasks t).s ≠ 0 then s.tagWrite t j page offset data
    else (s.unlock j).goto t .idle

/-- The next step of a task; `attempt` is what the card makes of a command or a transfer. -/
def run (s : Fs ι) (t : ι) (attempt : Attempt) : Option (Fs ι) :=
  match (s.tasks t).pc with
  | .idle => none
  | .lookup i =>
    if h : i < fsPoolSize then
      if s.vMutex ⟨i, h⟩ = none then some (s.lookupStep t ⟨i, h⟩) else none
    else some (s.goto t (.reserve 0 none (maxUse + 1)))
  | .content i =>
    match (s.tasks t).call with
    | .read _ _ _ => none
    | .write _ offset data =>
      if s.vContentMutex i = none then some (s.contentStep t i offset data) else none
  | .reserve i best useMin =>
    if h : i < fsPoolSize then
      if s.vMutex ⟨i, h⟩ = none then some (s.reserveStep t ⟨i, h⟩ best useMin) else none
    else match best with
      | none => some (s.goto t .full)
      | some j => some (s.reserved t j)
  | .load j tries =>
    if s.sdAccess = none then
      match attempt with
      | .refused => some (s.retry t j tries)
      | .done => some ({ s with sdAccess := some (.task t) }.goto t (.loading j tries))
      | .broken _ => none
    else none
  | .loading j tries =>
    match attempt with
    | .done =>
      let page := (s.tasks t).call.page
      let b := { s.pool j with content := s.medium (s.address page) }
      some ({ s.putBuffer j b with sdAccess := none }.goto t (.loaded j true))
    | .broken left =>
      let b := { s.pool j with content := left }
      some ({ s.putBuffer j b with sdAccess := none }.retry t j tries)
    | .refused => none
  | .loaded j ok => some (s.loadedStep t j ok)
  | .full => some ({ s with numWaiting := s.numWaiting + 1 }.goto t .blocked)
  | .blocked =>
    if s.cleanSem = true then some ({ s with cleanSem := false }.goto t .woken) else none
  | .woken => some ({ s with numWaiting := s.numWaiting - 1 }.goto t (.lookup 0))

omit [DecidableEq ι] in
def scanStep (s : Fs ι) (i : Fin fsPoolSize) (best : Option (Fin fsPoolSize)) (useMin : Nat) :
    Fs ι :=
  if (s.pool i).dirty = true ∧ (s.pool i).use < useMin then
    { (s.unlockBest best).lock i .writer with writer := .scan (i + 1) (some i) (s.pool i).use }
  else { s with writer := .scan (i + 1) best useMin }

/-- The next step of `vWriteTask`; `attempt` is what the card makes of a command or a transfer. -/
def write (s : Fs ι) (attempt : Attempt) : Option (Fs ι) :=
  match s.writer with
  | .idle =>
    if 0 < s.dirtySem then
      some { s with dirtySem := s.dirtySem - 1, writer := .scan 0 none (maxUse + 1) }
    else none
  | .scan i best useMin =>
    if h : i < fsPoolSize then
      if s.vMutex ⟨i, h⟩ = none then some (s.scanStep ⟨i, h⟩ best useMin) else none
    else match best with
      | none => some { s with fault := true }
      | some j => some { s with writer := .chosen j }
  | .chosen j =>
    if s.vContentMutex j = none then
      some { s.unlock j with
        vContentMutex := update s.vContentMutex j (some .writer), writer := .access j }
    else none
  | .access j =>
    if s.sdAccess = none then
      match attempt with
      | .refused => some { s with writer := .failed j }
      | .done =>
        let b := s.pool j
        some { s.putBuffer j { b with dirty := false, use := 1 } with
          sdAccess := some .writer
          writer := .sending j
          dma := some ⟨b.page, b.content, fun _ => none⟩ }
      | .broken _ => none
    else none
  | .sending j =>
    match s.dma with
    | none => none
    | some dma =>
      match attempt with
      | .done =>
        if ∀ k, (dma.got k).isSome then
          some { s with
            sdAccess := none
            writer := .written j
            dma := none
            medium := update s.medium (s.address dma.page) dma.block }
        else none
      | .broken left => some { s with
          sdAccess := none
          writer := .failed j
          dma := none
          medium := update s.medium (s.address dma.page) left }
      | .refused => none
  | .failed j => some { s.giveDirty with
      vContentMutex := update s.vContentMutex j none, writer := .idle }
  | .written j => some { s with
      cleanSem := s.cleanSem || s.numWaiting != 0
      vContentMutex := update s.vContentMutex j none
      writer := .idle }

omit [DecidableEq ι] in
def transfer (s : Fs ι) (bytes : Fin pageSize → Bool) : Option (Fs ι) :=
  match s.writer, s.dma with
  | .sending j, some dma => some { s with dma := some (dma.fetch (s.pool j).content bytes) }
  | _, _ => none

end Fs

inductive Action (ι : Type)
  | enter (t : ι) (call : Call)
  | run (t : ι) (attempt : Attempt)
  | write (attempt : Attempt)
  | transfer (bytes : Fin pageSize → Bool)

def FaultFree : Action ι → Prop
  | .run _ attempt | .write attempt => attempt.ok = true
  | _ => True

instance : DecidablePred (FaultFree : Action ι → Prop) := fun a => by
  cases a <;> unfold FaultFree <;> infer_instance

variable [DecidableEq ι]

def step (s : Fs ι) (a : Action ι) : Option (Fs ι) :=
  if s.fault then none else match a with
    | .enter t call =>
      match (s.tasks t).pc with
      | .idle => if call.Valid then some (s.enter t call (Fs.size call)) else none
      | _ => none
    | .run t attempt => s.run t attempt
    | .write attempt => s.write attempt
    | .transfer bytes => s.transfer bytes

def Pc.held : Pc → Option (Fin fsPoolSize)
  | .content i => some i
  | .reserve _ best _ => best
  | .load j _ | .loading j _ | .loaded j _ => some j
  | _ => none

def Pc.reserved : Pc → Option (Fin fsPoolSize)
  | .content _ => none
  | pc => pc.held

inductive Moves (s : Fs ι) (t : ι) : Attempt → Pc → Pc → Prop
  | readMiss {attempt} {i : Fin fsPoolSize} {page offset size}
      (call : (s.tasks t).call = .read page offset size)
      (other : ¬(page = (s.pool i).page ∧ (s.pool i).use ≠ 0)) :
      Moves s t attempt (.lookup i) (.lookup (i + 1))
  | writeMiss {attempt} {i : Fin fsPoolSize} {page offset data}
      (call : (s.tasks t).call = .write page offset data) (other : page ≠ (s.pool i).page) :
      Moves s t attempt (.lookup i) (.lookup (i + 1))
  | missed {attempt} {i : Nat} (all : fsPoolSize ≤ i) :
      Moves s t attempt (.lookup i) (.reserve 0 none (maxUse + 1))
  | examined {attempt} {i : Fin fsPoolSize} {best useMin}
      (worse : ¬((s.pool i).dirty = false ∧ (s.pool i).use < useMin)) :
      Moves s t attempt (.reserve i best useMin) (.reserve (i + 1) best useMin)
  | allDirty {attempt} {i : Nat} {useMin} (all : fsPoolSize ≤ i) :
      Moves s t attempt (.reserve i none useMin) .full
  | loads {attempt} {i : Nat} {useMin j page offset data} (all : fsPoolSize ≤ i)
      (call : (s.tasks t).call = .write page offset data) (part : (s.tasks t).s ≠ pageSize) :
      Moves s t attempt (.reserve i (some j) useMin) (.load j 0)
  | retries {j tries} (free : s.sdAccess = none) :
      Moves s t .refused (.load j tries) (.load j (tries + 1))
  | givesUp {j tries} (free : s.sdAccess = none) :
      Moves s t .refused (.load j tries) (.loaded j false)

/-- `fs_write` may put its bytes into the buffer that it has reserved. -/
def Fills (task : Task) (j : Fin fsPoolSize) : Prop :=
  (∃ i useMin, fsPoolSize ≤ i ∧ task.pc = .reserve i (some j) useMin ∧ task.s = pageSize) ∨
    task.pc = .loaded j true ∧ task.s ≠ 0

/-- What a step does, with the facts its guards establish. -/
inductive Change (s : Fs ι) : Action ι → Fs ι → Prop
  | enter {t call} (idle : (s.tasks t).pc = .idle) (valid : call.Valid) :
      Change s (.enter t call) (s.enter t call (Fs.size call))
  | moves {t attempt pc} (moves : Moves s t attempt (s.tasks t).pc pc) :
      Change s (.run t attempt) (s.goto t pc)
  | readHit {t attempt} {i : Fin fsPoolSize} {page offset size}
      (at_lookup : (s.tasks t).pc = .lookup i) (call : (s.tasks t).call = .read page offset size)
      (free : s.vMutex i = none) (here : page = (s.pool i).page) (inUse : (s.pool i).use ≠ 0) :
      Change s (.run t attempt) ((s.putBuffer i { s.pool i with use := used (s.pool i) }).deliver t
        (s.pool i).content offset .idle)
  | writeHit {t attempt} {i : Fin fsPoolSize} {page offset data}
      (at_lookup : (s.tasks t).pc = .lookup i) (call : (s.tasks t).call = .write page offset data)
      (free : s.vMutex i = none) (here : page = (s.pool i).page)
      (clean : (s.pool i).dirty = false) :
      Change s (.run t attempt)
        ((s.putDirty i (Fs.hit (s.pool i) offset data (s.tasks t).s)).goto t .idle)
  | waits {t attempt} {i : Fin fsPoolSize} {page offset data}
      (at_lookup : (s.tasks t).pc = .lookup i) (call : (s.tasks t).call = .write page offset data)
      (free : s.vMutex i = none) (here : page = (s.pool i).page) (dirty : (s.pool i).dirty = true) :
      Change s (.run t attempt) ((s.lock i (.task t)).goto t (.content i))
  | rewrites {t attempt} {i : Fin fsPoolSize} {page offset data}
      (at_content : (s.tasks t).pc = .content i)
      (call : (s.tasks t).call = .write page offset data) (free : s.vContentMutex i = none)
      (dirty : (s.pool i).dirty = true) :
      Change s (.run t attempt)
        (((s.putBuffer i (Fs.hit (s.pool i) offset data (s.tasks t).s)).unlock i).goto t .idle)
  | dirties {t attempt} {i : Fin fsPoolSize} {page offset data}
      (at_content : (s.tasks t).pc = .content i)
      (call : (s.tasks t).call = .write page offset data) (free : s.vContentMutex i = none)
      (clean : (s.pool i).dirty = false) :
      Change s (.run t attempt)
        (((s.putDirty i (Fs.hit (s.pool i) offset data (s.tasks t).s)).unlock i).goto t .idle)
  | better {t attempt} {i : Fin fsPoolSize} {best useMin}
      (at_reserve : (s.tasks t).pc = .reserve i best useMin) (free : s.vMutex i = none)
      (clean : (s.pool i).dirty = false) (less : (s.pool i).use < useMin) :
      Change s (.run t attempt) (((s.unlockBest best).lock i (.task t)).goto t
        (.reserve (i + 1) (some i) (s.pool i).use))
  | tagRead {t attempt} {i : Nat} {useMin j page offset size}
      (at_reserve : (s.tasks t).pc = .reserve i (some j) useMin) (all : fsPoolSize ≤ i)
      (call : (s.tasks t).call = .read page offset size) :
      Change s (.run t attempt)
        ((s.putBuffer j { s.pool j with page := page, dirty := false, use := 1 }).goto t
          (.load j 0))
  | tagWrite {t attempt j page offset data} (fills : Fills (s.tasks t) j)
      (call : (s.tasks t).call = .write page offset data) :
      Change s (.run t attempt) (s.tagWrite t j page offset data)
  | command {t j tries} (at_load : (s.tasks t).pc = .load j tries) (free : s.sdAccess = none) :
      Change s (.run t .done)
        ({ s with sdAccess := some (.task t) }.goto t (.loading j tries))
  | loadDone {t j tries} (at_loading : (s.tasks t).pc = .loading j tries) :
      Change s (.run t .done)
        ({ s.putBuffer j { s.pool j with content := s.medium (s.address (s.tasks t).call.page) }
          with sdAccess := none }.goto t (.loaded j true))
  | loadBroken {t left j tries pc} (at_loading : (s.tasks t).pc = .loading j tries)
      (next : pc = .load j (tries + 1) ∨ pc = .loaded j false) :
      Change s (.run t (.broken left))
        ({ s.putBuffer j { s.pool j with content := left } with sdAccess := none }.goto t pc)
  | delivers {t attempt j page offset size} (at_loaded : (s.tasks t).pc = .loaded j true)
      (call : (s.tasks t).call = .read page offset size) :
      Change s (.run t attempt) ((s.unlock j).deliver t (s.pool j).content offset (.lookup 0))
  | fails {t attempt j page offset size} (at_loaded : (s.tasks t).pc = .loaded j false)
      (call : (s.tasks t).call = .read page offset size) :
      Change s (.run t attempt) ((s.unlock j).giveUp t (.lookup 0))
  | drops {t attempt j ok page offset data} (at_loaded : (s.tasks t).pc = .loaded j ok)
      (call : (s.tasks t).call = .write page offset data)
      (nothing : ok = false ∨ (s.tasks t).s = 0) :
      Change s (.run t attempt) ((s.unlock j).goto t .idle)
  | registers {t attempt} (at_full : (s.tasks t).pc = .full) :
      Change s (.run t attempt) ({ s with numWaiting := s.numWaiting + 1 }.goto t .blocked)
  | wakes {t attempt} (at_blocked : (s.tasks t).pc = .blocked) (available : s.cleanSem = true) :
      Change s (.run t attempt) ({ s with cleanSem := false }.goto t .woken)
  | leaves {t attempt} (at_woken : (s.tasks t).pc = .woken) :
      Change s (.run t attempt) ({ s with numWaiting := s.numWaiting - 1 }.goto t (.lookup 0))
  | claims {attempt} (idle : s.writer = .idle) (pos : 0 < s.dirtySem) :
      Change s (.write attempt)
        { s with dirtySem := s.dirtySem - 1, writer := .scan 0 none (maxUse + 1) }
  | scanNext {attempt} {i : Fin fsPoolSize} {best useMin} (scan : s.writer = .scan i best useMin)
      (worse : ¬((s.pool i).dirty = true ∧ (s.pool i).use < useMin)) :
      Change s (.write attempt) { s with writer := .scan (i + 1) best useMin }
  | scanBetter {attempt} {i : Fin fsPoolSize} {best useMin}
      (scan : s.writer = .scan i best useMin) (free : s.vMutex i = none)
      (dirty : (s.pool i).dirty = true) (less : (s.pool i).use < useMin) :
      Change s (.write attempt) { (s.unlockBest best).lock i .writer with
        writer := .scan (i + 1) (some i) (s.pool i).use }
  | lost {attempt} {i : Nat} {useMin} (scan : s.writer = .scan i none useMin)
      (all : fsPoolSize ≤ i) : Change s (.write attempt) { s with fault := true }
  | chooses {attempt} {i : Nat} {useMin j} (scan : s.writer = .scan i (some j) useMin)
      (all : fsPoolSize ≤ i) : Change s (.write attempt) { s with writer := .chosen j }
  | locks {attempt j} (chosen : s.writer = .chosen j) (free : s.vContentMutex j = none) :
      Change s (.write attempt) { s.unlock j with
        vContentMutex := update s.vContentMutex j (some .writer), writer := .access j }
  | refused {j} (access : s.writer = .access j) (free : s.sdAccess = none) :
      Change s (.write .refused) { s with writer := .failed j }
  | accepted {j} (access : s.writer = .access j) (free : s.sdAccess = none) :
      Change s (.write .done) { s.putBuffer j { s.pool j with dirty := false, use := 1 } with
        sdAccess := some .writer
        writer := .sending j
        dma := some ⟨(s.pool j).page, (s.pool j).content, fun _ => none⟩ }
  | stored {j dma} (sending : s.writer = .sending j) (transfer : s.dma = some dma)
      (complete : ∀ k, (dma.got k).isSome) :
      Change s (.write .done) { s with
        sdAccess := none
        writer := .written j
        dma := none
        medium := update s.medium (s.address dma.page) dma.block }
  | broken {left j dma} (sending : s.writer = .sending j) (transfer : s.dma = some dma) :
      Change s (.write (.broken left)) { s with
        sdAccess := none
        writer := .failed j
        dma := none
        medium := update s.medium (s.address dma.page) left }
  | givesBack {attempt j} (failed : s.writer = .failed j) :
      Change s (.write attempt) { s.giveDirty with
        vContentMutex := update s.vContentMutex j none, writer := .idle }
  | releases {attempt j} (written : s.writer = .written j) :
      Change s (.write attempt) { s with
        cleanSem := s.cleanSem || s.numWaiting != 0
        vContentMutex := update s.vContentMutex j none
        writer := .idle }
  | transfers {bytes j dma} (sending : s.writer = .sending j) (transfer : s.dma = some dma) :
      Change s (.transfer bytes) { s with dma := some (dma.fetch (s.pool j).content bytes) }

variable {s u : Fs ι} {t : ι} {attempt : Attempt} {j : Fin fsPoolSize}

theorem lookup_change {i : Fin fsPoolSize} (at_lookup : (s.tasks t).pc = .lookup i)
    (free : s.vMutex i = none) : Change s (.run t attempt) (s.lookupStep t i) := by
  rw [Fs.lookupStep]
  split
  case h_1 page offset size call =>
    split
    case isTrue here =>
      simp only [Bool.and_eq_true, beq_iff_eq, bne_iff_ne] at here
      exact .readHit at_lookup call free here.1 here.2
    case isFalse other =>
      simp only [Bool.and_eq_true, beq_iff_eq, bne_iff_ne] at other
      exact .moves (at_lookup ▸ .readMiss call other)
  case h_2 page offset data call =>
    split
    case isTrue here =>
      have here := beq_iff_eq.mp here
      split
      case isTrue dirty => exact .waits at_lookup call free here dirty
      case isFalse clean => exact .writeHit at_lookup call free here (by simpa using clean)
    case isFalse other =>
      exact .moves (at_lookup ▸ .writeMiss call (by simpa using other))

theorem reserved_change {i useMin} (all : fsPoolSize ≤ i)
    (at_reserve : (s.tasks t).pc = .reserve i (some j) useMin) :
    Change s (.run t attempt) (s.reserved t j) := by
  rw [Fs.reserved]
  split
  case h_1 page offset size call => exact .tagRead at_reserve all call
  case h_2 page offset data call =>
    split
    case isTrue whole => exact .tagWrite (.inl ⟨i, useMin, all, at_reserve, whole⟩) call
    case isFalse part => exact .moves (at_reserve ▸ .loads all call part)

theorem loaded_change {ok} (at_loaded : (s.tasks t).pc = .loaded j ok) :
    Change s (.run t attempt) (s.loadedStep t j ok) := by
  rw [Fs.loadedStep]
  split
  case h_1 page offset size call =>
    cases ok with
    | true => exact .delivers at_loaded call
    | false => exact .fails at_loaded call
  case h_2 page offset data call =>
    split
    case isTrue ready =>
      obtain ⟨rfl, some_bytes⟩ := ready
      exact .tagWrite (.inr ⟨at_loaded, some_bytes⟩) call
    case isFalse nothing => exact .drops at_loaded call (by cases ok <;> simp_all)

theorem retry_next (s : Fs ι) (t : ι) (j : Fin fsPoolSize) (tries : Nat) :
    ∃ pc, (pc = .load j (tries + 1) ∨ pc = .loaded j false) ∧ s.retry t j tries = s.goto t pc := by
  rw [Fs.retry]
  split
  · exact ⟨_, .inl rfl, rfl⟩
  · exact ⟨_, .inr rfl, rfl⟩

theorem load_change {tries} (at_load : (s.tasks t).pc = .load j tries)
    (h : s.run t attempt = some u) : Change s (.run t attempt) u := by
  simp only [Fs.run, at_load, ite_none_right_eq_some] at h
  obtain ⟨free, h⟩ := h
  cases attempt with
  | refused =>
    obtain ⟨pc, next, eq⟩ := retry_next s t j tries
    obtain rfl : s.goto t pc = u := eq ▸ some.inj h
    refine .moves ?_
    rcases next with rfl | rfl
    · exact at_load ▸ .retries free
    · exact at_load ▸ .givesUp free
  | done => exact some.inj h ▸ .command at_load free
  | broken left => simp at h

theorem loading_change {tries} (at_loading : (s.tasks t).pc = .loading j tries)
    (h : s.run t attempt = some u) : Change s (.run t attempt) u := by
  simp only [Fs.run, at_loading] at h
  cases attempt with
  | refused => simp at h
  | done => exact some.inj h ▸ .loadDone at_loading
  | broken left =>
    obtain ⟨pc, next, eq⟩ :=
      retry_next { s.putBuffer j { s.pool j with content := left } with sdAccess := none } t j tries
    obtain rfl := eq ▸ some.inj h
    exact .loadBroken at_loading next

theorem run_change (h : s.run t attempt = some u) : Change s (.run t attempt) u := by
  cases pc : (s.tasks t).pc with
  | idle => simp [Fs.run, pc] at h
  | lookup i =>
    simp only [Fs.run, pc] at h
    split at h
    case isTrue lt =>
      obtain ⟨free, h⟩ := ite_none_right_eq_some.mp h
      exact some.inj h ▸ lookup_change pc free
    case isFalse all => exact some.inj h ▸ .moves (pc ▸ .missed (by omega))
  | content i =>
    simp only [Fs.run, pc] at h
    split at h
    case h_1 => simp at h
    case h_2 page offset data call =>
      obtain ⟨free, h⟩ := ite_none_right_eq_some.mp h
      cases h
      cases dirty : (s.pool i).dirty with
      | true => simpa [Fs.contentStep, dirty] using .rewrites pc call free dirty
      | false =>
        simpa [Fs.contentStep, dirty] using
          .dirties pc call free dirty
  | reserve i best useMin =>
    simp only [Fs.run, pc] at h
    split at h
    case isTrue lt =>
      obtain ⟨free, h⟩ := ite_none_right_eq_some.mp h
      cases h
      rw [Fs.reserveStep]
      split
      case isTrue good => exact .better pc free good.1 good.2
      case isFalse worse => exact .moves (pc ▸ .examined (i := ⟨i, lt⟩) worse)
    case isFalse all =>
      cases best with
      | none => exact some.inj h ▸ .moves (pc ▸ .allDirty (by omega))
      | some j => exact some.inj h ▸ reserved_change (by omega) pc
  | load j tries => exact load_change pc h
  | loading j tries => exact loading_change pc h
  | loaded j ok =>
    simp only [Fs.run, pc] at h
    exact some.inj h ▸ loaded_change pc
  | full =>
    simp only [Fs.run, pc] at h
    exact some.inj h ▸ .registers pc
  | blocked =>
    simp only [Fs.run, pc, ite_none_right_eq_some] at h
    exact some.inj h.2 ▸ .wakes pc h.1
  | woken =>
    simp only [Fs.run, pc] at h
    exact some.inj h ▸ .leaves pc

theorem write_change (h : s.write attempt = some u) : Change s (.write attempt) u := by
  cases pc : s.writer with
  | idle =>
    simp only [Fs.write, pc, ite_none_right_eq_some] at h
    exact some.inj h.2 ▸ .claims pc h.1
  | scan i best useMin =>
    simp only [Fs.write, pc] at h
    split at h
    case isTrue lt =>
      obtain ⟨free, h⟩ := ite_none_right_eq_some.mp h
      cases h
      rw [Fs.scanStep]
      split
      case isTrue good => exact .scanBetter (i := ⟨i, lt⟩) pc free good.1 good.2
      case isFalse worse => exact .scanNext (i := ⟨i, lt⟩) pc worse
    case isFalse all =>
      cases best with
      | none =>
        cases h
        exact pc ▸ .lost pc (by omega)
      | some j => exact some.inj h ▸ .chooses pc (by omega)
  | chosen j =>
    simp only [Fs.write, pc, ite_none_right_eq_some] at h
    exact some.inj h.2 ▸ .locks pc h.1
  | access j =>
    simp only [Fs.write, pc, ite_none_right_eq_some] at h
    obtain ⟨free, h⟩ := h
    cases attempt with
    | refused => exact some.inj h ▸ .refused pc free
    | done => exact some.inj h ▸ .accepted pc free
    | broken left => simp at h
  | sending j =>
    simp only [Fs.write, pc] at h
    split at h
    case h_1 => simp at h
    case h_2 dma transfer =>
      cases attempt with
      | refused => simp at h
      | done =>
        obtain ⟨complete, h⟩ := ite_none_right_eq_some.mp h
        exact some.inj h ▸ .stored pc transfer complete
      | broken left => exact some.inj h ▸ .broken pc transfer
  | failed j =>
    simp only [Fs.write, pc] at h
    exact some.inj h ▸ .givesBack pc
  | written j =>
    simp only [Fs.write, pc] at h
    exact some.inj h ▸ .releases pc

theorem step_change {a} (h : step s a = some u) : Change s a u := by
  obtain ⟨_, h⟩ := ite_none_left_eq_some.mp h
  cases a with
  | enter t call =>
    simp only at h
    split at h
    case h_1 idle =>
      obtain ⟨valid, h⟩ := ite_none_right_eq_some.mp h
      exact some.inj h ▸ .enter idle valid
    case h_2 => simp at h
  | run t attempt => exact run_change h
  | write attempt => exact write_change h
  | transfer bytes =>
    simp only [Fs.transfer] at h
    split at h
    case h_1 j dma sending transfer => exact some.inj h ▸ .transfers sending transfer
    case h_2 => simp at h

end PageTasks
