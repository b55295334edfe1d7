import OpenLab.IndexScan

/-!
# The page cache of the SD card

`fs_read`, `fs_write` and the write task of `lib/fat32/fs.c`, called by one task. A call that
finds all the buffers dirty waits and looks the page up again; it is modelled by its last round,
so it is not enabled before a buffer can be reserved.
-/

namespace PageCache

open Function List Option

abbrev fsPoolSize : Nat := 30

abbrev maxRetry : Nat := 3

def maxFailedAttempt : Nat := 10

def maxUse : Nat := 254

abbrev pageSize : Nat := 512

abbrev Block := Fin pageSize → UInt8

structure Buffer where
  content : Block
  dirty : Bool
  page : UInt32
  use : Nat

structure Cache where
  /-- `sd_get_type(sdio) == SDHC` -/
  sdhc : Bool
  pool : Fin fsPoolSize → Buffer
  /-- the blocks of the card, by the address in the command -/
  medium : UInt32 → Block
  dirtySem : Nat
  failedAttempt : Nat
  /-- the write task used `pool[-1]` -/
  fault : Bool

/-- What the card makes of one transfer of a block. -/
inductive Attempt
  | done
  /-- the command is refused and nothing is transferred -/
  | refused
  /-- the transfer ends with an error and leaves these bytes behind -/
  | broken (left : Block)

def Attempt.ok : Attempt → Bool
  | done => true
  | refused => false
  | broken _ => false

abbrev Attempts := Fin maxRetry → Attempt

/-- `cpy(buf, content + offset, s)` with the `s` bytes of `data` -/
def cpy (data : List UInt8) (content : Block) (offset : Nat) : Block := fun k =>
  if offset ≤ k.val then data.getD (k.val - offset) (content k) else content k

/-- `cpy(content + offset, buf, s)`: the bytes that `buf` holds afterwards -/
def bytes (content : Block) (offset s : Nat) : List UInt8 :=
  ((List.finRange pageSize).map content).drop offset |>.take s

namespace Cache

/-- `fs_init` on a card with these blocks. The content of the buffers is left as it was. -/
def fsInit (sdhc : Bool) (content : Fin fsPoolSize → Block) (medium : UInt32 → Block) : Cache where
  sdhc := sdhc
  pool := fun i => ⟨content i, false, 0, 0⟩
  medium := medium
  dirtySem := 0
  failedAttempt := 0
  fault := false

def address (c : Cache) (page : UInt32) : UInt32 := if c.sdhc then page else page * 512

def putBuffer (c : Cache) (i : Fin fsPoolSize) (b : Buffer) : Cache :=
  { c with pool := update c.pool i b }

def giveDirty (c : Cache) : Cache :=
  { c with dirtySem := if c.dirtySem < fsPoolSize then c.dirtySem + 1 else c.dirtySem }

def reserveBuffer (c : Cache) : Option (Fin fsPoolSize) :=
  IndexScan.least (fun i => (c.pool i).use) (fun i => !(c.pool i).dirty) (maxUse + 1)

def lookup (c : Cache) (page : UInt32) : Option (Fin fsPoolSize) :=
  IndexScan.first fun i => page == (c.pool i).page

def lookupUsed (c : Cache) (page : UInt32) : Option (Fin fsPoolSize) :=
  IndexScan.first fun i => page == (c.pool i).page && (c.pool i).use != 0

/-- `failed`; a card that cannot be initialised again halts the system. -/
def failed (counter : Nat) : Nat :=
  if counter + 1 > maxFailedAttempt then 0 else counter + 1

structure Loaded where
  ok : Bool
  content : Block
  failedAttempt : Nat

def load (block : Block) : List Attempt → Block → Nat → Loaded
  | [], content, counter => ⟨false, content, counter⟩
  | .done :: _, _, _ => ⟨true, block, 0⟩
  | .refused :: rest, content, counter => load block rest content (failed counter)
  | .broken left :: rest, _, counter => load block rest left (failed counter)

def loadPage (c : Cache) (page : UInt32) (j : Fin fsPoolSize) (attempts : Attempts) : Loaded :=
  load (c.medium (c.address page)) (List.ofFn attempts) (c.pool j).content c.failedAttempt

def used (b : Buffer) : Nat := if b.use < maxUse then b.use + 1 else b.use

structure Reply where
  count : Nat
  data : List UInt8
deriving DecidableEq

def fsWrite (c : Cache) (page : UInt32) (offset : Nat) (data : List UInt8)
    (attempts : Attempts) : Option (Cache × Reply) :=
  let s := min data.length (pageSize - offset)
  match c.lookup page with
  | some i =>
    let b := c.pool i
    let c' := c.putBuffer i
      { b with dirty := true, use := used b, content := cpy (data.take s) b.content offset }
    some (if b.dirty then c' else c'.giveDirty, ⟨s, []⟩)
  | none =>
    match c.reserveBuffer with
    | none => none
    | some j =>
      let b := c.pool j
      -- A full page need not be loaded first.
      let loaded :=
        if s = pageSize then ⟨true, b.content, c.failedAttempt⟩ else c.loadPage page j attempts
      let s := if loaded.ok then s else 0
      let c := { c with failedAttempt := loaded.failedAttempt }
      if s = 0 then
        some (c.putBuffer j { b with content := loaded.content }, ⟨s, []⟩)
      else
        let content := cpy (data.take s) loaded.content offset
        some ((c.putBuffer j ⟨content, true, page, 1⟩).giveDirty, ⟨s, []⟩)

/-- The loop of `fs_read`; `s` is set to 0 when a page cannot be loaded. -/
def fsReadLoop (page : UInt32) (offset : Nat) (attempts : Attempts) :
    Nat → Nat → Cache → Option (Cache × Reply)
  | 0, _, _ => none
  | rounds + 1, s, c =>
    match c.lookupUsed page with
    | some i =>
      let b := c.pool i
      some (c.putBuffer i { b with use := used b }, ⟨s, bytes b.content offset s⟩)
    | none =>
      match c.reserveBuffer with
      | none => none
      | some j =>
        let loaded := c.loadPage page j attempts
        fsReadLoop page offset attempts rounds (if loaded.ok then s else 0)
          { c.putBuffer j ⟨loaded.content, false, page, 1⟩ with
            failedAttempt := loaded.failedAttempt }

/-- `fs_read` of `size` bytes. Its second round finds the page that the first one loaded. -/
def fsRead (c : Cache) (page : UInt32) (offset size : Nat) (attempts : Attempts) :
    Option (Cache × Reply) :=
  fsReadLoop page offset attempts 2 (min size (pageSize - offset)) c

def leastDirty (c : Cache) : Option (Fin fsPoolSize) :=
  IndexScan.least (fun i => (c.pool i).use) (fun i => (c.pool i).dirty) (maxUse + 1)

def vWriteTask (c : Cache) (attempt : Attempt) : Option Cache :=
  if 0 < c.dirtySem then
    let c := { c with dirtySem := c.dirtySem - 1 }
    match c.leastDirty with
    | none => some { c with fault := true }
    | some j =>
      let b := c.pool j
      match attempt with
      | .done => some { c.putBuffer j { b with dirty := false, use := 1 } with
          medium := update c.medium (c.address b.page) b.content, failedAttempt := 0 }
      | .refused => some { c.giveDirty with failedAttempt := failed c.failedAttempt }
      -- The buffer is marked clean as soon as the command is accepted.
      | .broken left => some { (c.putBuffer j { b with dirty := false, use := 1 }).giveDirty with
          medium := update c.medium (c.address b.page) left,
          failedAttempt := failed c.failedAttempt }
  else none

end Cache

inductive Call
  | read (page : UInt32) (offset size : Nat)
  | write (page : UInt32) (offset : Nat) (data : List UInt8)

namespace Call

def page : Call → UInt32
  | read page _ _ => page
  | write page _ _ => page

def Valid : Call → Prop
  | read _ offset size => offset < pageSize ∧ offset + size ≤ pageSize
  | write _ offset data => offset < pageSize ∧ offset + data.length ≤ pageSize

instance : DecidablePred Valid := fun call => by cases call <;> unfold Valid <;> infer_instance

end Call

namespace Cache

def serve (c : Cache) (attempts : Attempts) : Call → Option (Cache × Reply)
  | .read page offset size => c.fsRead page offset size attempts
  | .write page offset data => c.fsWrite page offset data attempts

/-- The call has to load its page, and none of its attempts succeeds. -/
def Fails (c : Cache) (attempts : Attempts) : Call → Prop
  | .read page _ _ => c.lookupUsed page = none ∧ ∀ i, (attempts i).ok = false
  | .write page _ data =>
    c.lookup page = none ∧ data.length ≠ pageSize ∧ ∀ i, (attempts i).ok = false

instance (c : Cache) (attempts : Attempts) : DecidablePred (c.Fails attempts) := fun call => by
  cases call <;> unfold Fails <;> infer_instance

end Cache

section Bytes

variable {data : List UInt8} {x y : Block} {offset : Nat}

theorem cpy_outside {k} (h : k.val < offset ∨ offset + data.length ≤ k.val) :
    cpy data x offset k = x k := by
  unfold cpy
  split
  · rw [getD_eq_default]
    omega
  · rfl

theorem cpy_congr
    (h : ∀ k : Fin pageSize, k.val < offset ∨ offset + data.length ≤ k.val → x k = y k) :
    cpy data x offset = cpy data y offset := by
  funext k
  by_cases out : k.val < offset ∨ offset + data.length ≤ k.val
  · rw [cpy_outside out, cpy_outside out, h k out]
  · unfold cpy
    rw [if_pos (by omega), if_pos (by omega), getD_eq_getElem _ _ (by omega),
      getD_eq_getElem _ _ (by omega)]

theorem cpy_full (valid : offset + data.length ≤ pageSize) (full : data.length = pageSize) :
    cpy data x offset = cpy data y offset :=
  cpy_congr fun k out => by
    omega

@[simp] theorem cpy_nil : cpy [] x offset = x :=
  funext fun k => cpy_outside (by simp; omega)

@[simp] theorem bytes_zero : bytes x offset 0 = [] := by simp [bytes]

theorem bytes_one (x : Block) (k : Fin pageSize) : bytes x k.val 1 = [x k] := by
  unfold bytes
  rw [drop_eq_getElem_cons (by simp)]
  simp

end Bytes

namespace Cache

variable {c c' : Cache} {attempts : Attempts} {page : UInt32} {i j : Fin fsPoolSize}

theorem load_ok {block content} {tries} {n} :
    (load block tries content n).ok = true ↔ ∃ a ∈ tries, a.ok = true := by
  induction tries generalizing content n with
  | nil => simp [load]
  | cons a rest ih => cases a <;> simp [load, ih, Attempt.ok]

theorem load_content {block content} {tries} {n}
    (h : (load block tries content n).ok = true) :
    (load block tries content n).content = block := by
  induction tries generalizing content n with
  | nil => simp [load] at h
  | cons a rest ih =>
    cases a with
    | done => rfl
    | refused => exact ih h
    | broken left => exact ih h

theorem loadPage_ok : (c.loadPage page j attempts).ok = true ↔ ∃ i, (attempts i).ok = true := by
  rw [loadPage, load_ok]
  simp only [mem_ofFn, exists_exists_eq_and]

theorem loadPage_failed :
    (c.loadPage page j attempts).ok = false ↔ ∀ i, (attempts i).ok = false := by
  rw [← Bool.not_eq_true, loadPage_ok]
  simp

theorem loadPage_content (h : (c.loadPage page j attempts).ok = true) :
    (c.loadPage page j attempts).content = c.medium (c.address page) :=
  load_content h

theorem lookup_spec (h : c.lookup page = some i) :
    (c.pool i).page = page ∧ ∀ k, (c.pool k).page = page → i ≤ k := by
  obtain ⟨here, least⟩ := IndexScan.first_spec h
  exact ⟨(beq_iff_eq.mp here).symm, fun k eq => least k (beq_iff_eq.mpr eq.symm)⟩

theorem lookup_none : c.lookup page = none ↔ ∀ k, (c.pool k).page ≠ page := by
  rw [lookup, IndexScan.first_eq_none_iff]
  refine forall_congr' fun k => ?_
  rw [beq_eq_false_iff_ne, ne_comm]

theorem lookupUsed_spec (h : c.lookupUsed page = some i) :
    (c.pool i).page = page ∧ (c.pool i).use ≠ 0 := by
  have here := (IndexScan.first_spec h).1
  simp only [Bool.and_eq_true, beq_iff_eq, bne_iff_ne] at here
  exact ⟨here.1.symm, here.2⟩

theorem lookupUsed_none :
    c.lookupUsed page = none ↔ ∀ k, (c.pool k).use ≠ 0 → (c.pool k).page ≠ page := by
  rw [lookupUsed, IndexScan.first_eq_none_iff]
  refine forall_congr' fun k => ?_
  simp only [Bool.and_eq_false_iff, beq_eq_false_iff_ne, bne_eq_false_iff_eq]
  tauto

theorem lookupUsed_eq (here : (c.pool i).page = page) (used : (c.pool i).use ≠ 0)
    (alone : ∀ k, (c.pool k).use ≠ 0 → (c.pool k).page = page → k = i) :
    c.lookupUsed page = some i := by
  cases found : c.lookupUsed page with
  | none => exact absurd here (lookupUsed_none.mp found i used)
  | some k =>
    obtain ⟨kPage, kUsed⟩ := lookupUsed_spec found
    rw [alone k kUsed kPage]

theorem lookupUsed_put {b} (pool : c'.pool = update c.pool j b)
    (used : b.use ≠ 0) (alone : ∀ k, k ≠ j → (c.pool k).use ≠ 0 → (c.pool k).page ≠ b.page) :
    c'.lookupUsed b.page = some j := by
  have here : c'.pool j = b := by rw [pool, update_self]
  refine lookupUsed_eq (by rw [here]) (by rwa [here]) fun k kUsed kPage => ?_
  by_contra ne
  rw [pool, update_of_ne ne] at kUsed kPage
  exact alone k ne kUsed kPage

theorem reserveBuffer_spec (h : c.reserveBuffer = some j) :
    (c.pool j).dirty = false ∧ ∀ k, (c.pool k).dirty = false →
      (c.pool j).use ≤ (c.pool k).use ∧ ((c.pool k).use = (c.pool j).use → j ≤ k) := by
  simpa using IndexScan.least_spec h

inductive Served (c : Cache) (attempts : Attempts) : Call → Cache → Reply → Prop
  | readHit {page : UInt32} {offset size : Nat} {i : Fin fsPoolSize}
      (hit : c.lookupUsed page = some i) :
      Served c attempts (.read page offset size)
        (c.putBuffer i { c.pool i with use := used (c.pool i) })
        ⟨size, bytes (c.pool i).content offset size⟩
  | readLoad {page : UInt32} {offset size s : Nat} {j : Fin fsPoolSize} {l : Loaded}
      (miss : c.lookupUsed page = none) (victim : c.reserveBuffer = some j)
      (loaded : l = c.loadPage page j attempts) (count : s = if l.ok then size else 0) :
      Served c attempts (.read page offset size)
        { c.putBuffer j ⟨l.content, false, page, 2⟩ with failedAttempt := l.failedAttempt }
        ⟨s, bytes l.content offset s⟩
  | writeHit {page : UInt32} {offset : Nat} {data : List UInt8} {i : Fin fsPoolSize} {put : Cache}
      (hit : c.lookup page = some i)
      (eq : put = c.putBuffer i ⟨cpy data (c.pool i).content offset, true, page, used (c.pool i)⟩) :
      Served c attempts (.write page offset data)
        (if (c.pool i).dirty then put else put.giveDirty) ⟨data.length, []⟩
  | writeLoad {page : UInt32} {offset n : Nat} {data : List UInt8} {j : Fin fsPoolSize}
      {block : Block} (miss : c.lookup page = none) (victim : c.reserveBuffer = some j)
      (some_bytes : data ≠ [])
      (ready : data.length = pageSize ∨
        (∃ i, (attempts i).ok = true) ∧ block = c.medium (c.address page)) :
      Served c attempts (.write page offset data)
        ({ c with failedAttempt := n }.putBuffer j ⟨cpy data block offset, true, page, 1⟩).giveDirty
        ⟨data.length, []⟩
  | writeDrop {page : UInt32} {offset : Nat} {data : List UInt8} {j : Fin fsPoolSize} {l : Loaded}
      (miss : c.lookup page = none) (victim : c.reserveBuffer = some j)
      (loaded : l = c.loadPage page j attempts)
      (none : data = [] ∨ data.length ≠ pageSize ∧ l.ok = false) :
      Served c attempts (.write page offset data)
        ({ c with failedAttempt := l.failedAttempt }.putBuffer j
          { c.pool j with content := l.content }) ⟨0, []⟩

variable {offset : Nat}

theorem fsReadLoop_loaded {s rounds n} {block} (miss : c.lookupUsed page = none) :
    fsReadLoop page offset attempts (rounds + 1) s
        { c.putBuffer j ⟨block, false, page, 1⟩ with failedAttempt := n } =
      some ({ c.putBuffer j ⟨block, false, page, 2⟩ with failedAttempt := n },
        ⟨s, bytes block offset s⟩) := by
  have found : { c.putBuffer j ⟨block, false, page, 1⟩ with failedAttempt := n }.lookupUsed page =
      some j :=
    lookupUsed_put (c := c) (b := ⟨block, false, page, 1⟩) rfl (by simp) fun k _ =>
      lookupUsed_none.mp miss k
  rw [fsReadLoop, found]
  simp [putBuffer, used, maxUse]

theorem serve_read {size} {r} (valid : offset + size ≤ pageSize)
    (h : c.fsRead page offset size attempts = some (c', r)) :
    Served c attempts (.read page offset size) c' r := by
  have whole : min size (pageSize - offset) = size := by omega
  rw [fsRead, whole, fsReadLoop] at h
  split at h
  case h_1 i hit =>
    obtain ⟨rfl, rfl⟩ := Prod.mk.inj (some.inj h)
    exact .readHit hit
  case h_2 miss =>
    split at h
    case h_1 => simp at h
    case h_2 j victim =>
      rw [fsReadLoop_loaded miss] at h
      obtain ⟨rfl, rfl⟩ := Prod.mk.inj (some.inj h)
      exact .readLoad miss victim rfl rfl

theorem serve_write {data} {r} (valid : offset + data.length ≤ pageSize)
    (h : c.fsWrite page offset data attempts = some (c', r)) :
    Served c attempts (.write page offset data) c' r := by
  have whole : min data.length (pageSize - offset) = data.length := by omega
  simp only [fsWrite, whole] at h
  split at h
  case h_1 i hit =>
    obtain ⟨rfl, rfl⟩ := Prod.mk.inj (some.inj h)
    refine .writeHit hit ?_
    rw [← (lookup_spec hit).1, take_length]
  case h_2 miss =>
    split at h
    case h_1 => simp at h
    case h_2 j victim =>
      by_cases full : data.length = pageSize
      · have some_bytes : data.length ≠ 0 := full ▸ by decide
        simp only [if_pos full, if_true, if_neg some_bytes, take_length] at h
        obtain ⟨rfl, rfl⟩ := Prod.mk.inj (some.inj h)
        exact .writeLoad miss victim (ne_nil_of_length_pos (by omega)) (.inl full)
      · simp only [if_neg full] at h
        cases ok : (c.loadPage page j attempts).ok with
        | false =>
          simp only [ok, Bool.false_eq_true, if_false, if_true] at h
          obtain ⟨rfl, rfl⟩ := Prod.mk.inj (some.inj h)
          exact .writeDrop miss victim rfl (.inr ⟨full, ok⟩)
        | true =>
          simp only [ok, if_true, take_length] at h
          split at h
          case isTrue empty =>
            obtain ⟨rfl, rfl⟩ := Prod.mk.inj (some.inj h)
            rw [empty]
            exact .writeDrop miss victim rfl (.inl (length_eq_zero_iff.mp empty))
          case isFalse some_bytes =>
            obtain ⟨rfl, rfl⟩ := Prod.mk.inj (some.inj h)
            exact .writeLoad miss victim (mt length_eq_zero_iff.mpr some_bytes)
              (.inr ⟨loadPage_ok.mp ok, loadPage_content ok⟩)

theorem serve_change {call} {r} (valid : call.Valid)
    (h : c.serve attempts call = some (c', r)) : Served c attempts call c' r := by
  cases call with
  | read page offset size => exact serve_read valid.2 h
  | write page offset data => exact serve_write valid.2 h

theorem serve_goes (h : c.reserveBuffer ≠ none) (attempts : Attempts) (call : Call) :
    c.serve attempts call ≠ none := by
  obtain ⟨j, victim⟩ := ne_none_iff_exists'.mp h
  cases call with
  | read page offset size =>
    rw [serve, fsRead, fsReadLoop]
    cases hit : c.lookupUsed page with
    | some i => simp
    | none => simp [victim, fsReadLoop_loaded hit]
  | write page offset data =>
    simp only [serve, fsWrite]
    cases hit : c.lookup page with
    | some i => simp
    | none =>
      simp only [victim]
      rw [← apply_ite some]
      exact some_ne_none _

end Cache

end PageCache
