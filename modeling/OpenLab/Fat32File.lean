import OpenLab.Fat32

/-!
# Files

`file_create`, `file_open`, `file_write`, `file_read` and `file_close` of `lib/fat32/file.c`. The
state is the file and the disk, as an error return leaves them. `pvPortMalloc` always succeeds.
-/

namespace Fat32

open PageCache (Block cpy bytes pageSize)

structure File where
  currentCluster : UInt32
  currentSector : UInt32
  sectorIndex : UInt8
  pbuf : Block
  bufferIndex : Nat
  /-- `descriptor_sector` and `descriptor_index` -/
  descriptor : Slot
  dir : DirEntry

abbrev FileOp := EStateM Error (File × Disk)

def onDisk {α : Type} (op : Op α) : FileOp α := fun s =>
  match op s.2 with
  | .ok a d => .ok a (s.1, d)
  | .error e d => .error e (s.1, d)

def modifyFile (change : File → File) : FileOp Unit := fun s => .ok () (change s.1, s.2)

/-- The file that `file_create` and `file_open` set up for a directory entry. -/
def File.begin (fat : Fat) (pageBuffer : Block) (slot : Slot) (dir : DirEntry) : File where
  currentCluster := dir.startCluster
  currentSector := fat.firstSector dir.startCluster
  sectorIndex := 0
  pbuf := pageBuffer
  bufferIndex := 0
  descriptor := slot
  dir := dir

section Calls

variable (fat : Fat)

/-- `file_create`; `dir` is what the allocated record holds -/
def fileCreate (fuel : Nat) (filename : List UInt8) (pageBuffer : Block) (dir : DirEntry) :
    Op (Option File) := do
  match ← create fat fuel filename dir with
  | none => return none
  | some (slot, dir) => return some (.begin fat pageBuffer slot dir)

def fileOpen (fuel : Nat) (filename : List UInt8) (pageBuffer : Block) : Op (Option File) := do
  match ← fat32Open fat fuel filename with
  | none => return none
  | some (slot, dir) => return some (.begin fat pageBuffer slot dir)

def writeSize (f : File) : Op Unit :=
  writeBytes f.descriptor.sector (f.descriptor.index + 28) (write32 f.dir.size)

/-- The part of `file_write` that writes the full buffer and goes on to the next sector. -/
def flush : FileOp Unit := do
  let (f, _) ← get
  onDisk (writeBytes f.currentSector 0 (bytes f.pbuf 0 pageSize))
  onDisk (writeSize f)
  modifyFile fun f => { f with sectorIndex := f.sectorIndex + 1 }
  if f.sectorIndex + 1 = fat.sectPerClust then
    let tmp ← onDisk (findEmptyCluster fat)
    onDisk (setNextCluster fat f.currentCluster tmp)
    modifyFile fun f =>
      { f with currentCluster := tmp, currentSector := fat.firstSector tmp, sectorIndex := 0 }
  else
    modifyFile fun f => { f with currentSector := f.currentSector + 1 }

def File.fill (f : File) (buf : List UInt8) (l : Nat) : File :=
  { f with
    pbuf := cpy (buf.take l) f.pbuf f.bufferIndex
    dir := { f.dir with size := f.dir.size + UInt32.ofNat l }
    bufferIndex := f.bufferIndex + l }

def File.rewind (f : File) : File := { f with bufferIndex := 0 }

def fileWrite (buf : List UInt8) (s : File × Disk) : EStateM.Result Error (File × Disk) Unit :=
  let l := min buf.length (pageSize - s.1.bufferIndex)
  let f := s.1.fill buf l
  if l < buf.length then
    match flush fat (f, s.2) with
    | .ok _ t => fileWrite (buf.drop l) (t.1.rewind, t.2)
    | .error e t => .error e t
  else .ok () (f, s.2)
termination_by buf.length + s.1.bufferIndex
decreasing_by
  rename_i more
  simp only [List.length_drop, File.rewind, l, pageSize] at more ⊢
  omega

/-- The part of `file_read` that goes on to the next sector. -/
def advance : FileOp Unit := do
  let (f, _) ← get
  modifyFile fun f => { f with sectorIndex := f.sectorIndex + 1 }
  if f.sectorIndex + 1 = fat.sectPerClust then
    let next ← onDisk (getNextCluster fat f.currentCluster)
    modifyFile fun f =>
      { f with currentCluster := next, currentSector := fat.firstSector next, sectorIndex := 0 }
  else
    modifyFile fun f => { f with currentSector := f.currentSector + 1 }

/-- The part of `file_read` that loads the current sector, before the first `l` of its bytes are
used. -/
def fetch (l : Nat) : FileOp Unit := do
  let (f, _) ← get
  if l ≠ 0 ∧ f.bufferIndex = 0 then
    let content ← onDisk (readBytes f.currentSector 0 pageSize)
    modifyFile fun f => { f with pbuf := cpy content f.pbuf 0 }

/-- How many bytes the current sector gives, and the size that is left to read: at the end of the
file both are cut down. The test compares the size of the file with an offset in the sector. -/
def File.share (f : File) (size : Nat) : Nat × Nat :=
  let l := min size (pageSize - f.bufferIndex)
  if f.dir.size.toNat < f.bufferIndex + l then
    let l := (f.dir.size - UInt32.ofNat f.bufferIndex).toUInt16.toNat
    (l, l)
  else (l, size)

structure ReadReply where
  error : Option Error
  size : Nat
  data : List UInt8
deriving DecidableEq

theorem File.share_lt {f : File} {size : Nat} (h : (f.share size).1 < (f.share size).2) :
    f.share size = (min size (pageSize - f.bufferIndex), size) := by
  by_cases cut : f.dir.size.toNat < f.bufferIndex + min size (pageSize - f.bufferIndex)
  · simp [share, cut] at h
  · simp [share, cut]

def fileRead (size : Nat) (s : File × Disk) : ReadReply × (File × Disk) :=
  let l := (s.1.share size).1
  let left := (s.1.share size).2
  match fetch l s with
  | .error e t => (⟨some e, left, []⟩, t)
  | .ok _ (f, d) =>
    let data := bytes f.pbuf f.bufferIndex l
    let f := { f with bufferIndex := f.bufferIndex + l }
    if l < left then
      match advance fat (f, d) with
      | .error e t => (⟨some e, left, data⟩, t)
      | .ok _ t =>
        let (r, t) := fileRead (left - l) (t.1.rewind, t.2)
        (⟨r.error, r.size + l, data ++ r.data⟩, t)
    else (⟨none, left, data⟩, (f, d))
termination_by size + s.1.bufferIndex
decreasing_by
  rename_i more
  have share := File.share_lt more
  simp only [left, l, share, File.rewind, pageSize] at more ⊢
  omega

def fileClose (f : File) : Op Unit := do
  writeBytes f.currentSector 0 (bytes f.pbuf 0 pageSize)
  writeSize f

end Calls

end Fat32
