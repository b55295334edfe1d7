import OpenLab.PageCacheRefines

/-!
# The FAT32 volume

`lib/fat32/fat32.c` and `buf_util.c` over the pages of `fs_read` and `fs_write`. Every access may
fail and leaves the pages alone then. Loops along a chain of clusters have fuel; `none` stands for
a loop that has not ended. When `fat32_create` cannot read its entry back, the caller's record is
left as it was.
-/

namespace Fat32

open PageCache (Block PageArray cpy bytes pageSize)

inductive Error
  | notBootRecord
  | notFat32
  | fileNotFound
  | fileExists
  | noFreeCluster
  | wrongCluster
  | fsError
deriving DecidableEq

structure Fat where
  bootSect : UInt32
  numFat : UInt8
  sectPerFat : UInt32
  sectPerClust : UInt8
  numSect : UInt32
  maxClust : UInt32
  start : UInt16
  rootStart : UInt32
  dataStart : UInt32

structure DirEntry where
  name : List UInt8
  ext : List UInt8
  attrib : UInt8
  hour : UInt8
  minutes : UInt8
  seconds : UInt8
  ms : UInt8
  year : UInt8
  month : UInt8
  day : UInt8
  startCluster : UInt32
  size : UInt32

structure Slot where
  sector : UInt32
  index : Nat
deriving DecidableEq

structure Disk where
  pages : PageArray
  /-- `last_free_cluster` -/
  lastFreeCluster : UInt32
  /-- which of the accesses to come fail -/
  faults : Nat → Bool
  /-- page, offset and length of every `fs_write` so far, the last one first -/
  written : List (UInt32 × Nat × Nat)

abbrev Op := EStateM Error Disk

def read16 (buf : List UInt8) : UInt16 :=
  (buf.getD 0 0).toUInt16 ||| (buf.getD 1 0).toUInt16 <<< 8

def read32 (buf : List UInt8) : UInt32 :=
  (buf.getD 0 0).toUInt32 ||| (buf.getD 1 0).toUInt32 <<< 8 |||
    (buf.getD 2 0).toUInt32 <<< 16 ||| (buf.getD 3 0).toUInt32 <<< 24

def write32 (val : UInt32) : List UInt8 :=
  [val.toUInt8, (val >>> 8).toUInt8, (val >>> 16).toUInt8, (val >>> 24).toUInt8]

/-- The loop of `cmp`: how many bytes are equal before a terminator, `none` at a difference. -/
def cmpLoop : List UInt8 → List UInt8 → Option Nat
  | a :: as, b :: bs =>
    if b ≠ 0 ∧ a ≠ 0 then
      if b ≠ a then none else (cmpLoop as bs).map (· + 1)
    else some 0
  | _, _ => some 0

/-- `cmp` with `len > 0`, as it is always called -/
def cmp (a b : List UInt8) (len : Nat) : Bool := cmpLoop a b == some len

def space : UInt8 := 0x20

def dot : UInt8 := 0x2E

/-- The last loop of `split`, which has stopped at `.` or at the end of the name: it stores the
byte after each byte that it looks at, also a terminator. -/
def splitExt : Nat → List UInt8 → List UInt8
  | 0, _ => []
  | _ + 1, [] => []
  | n + 1, b :: rest => if b = 0 then [] else rest.headD 0 :: splitExt n rest

/-- The bytes of a field of `len` spaces and a terminator into which `bytes` have been stored. -/
def padded (len : Nat) (bytes : List UInt8) : List UInt8 :=
  bytes ++ List.replicate (len - bytes.length) space ++ [0]

/-- `split`: name and extension of a file name that ends at its first zero or with the list -/
def split (filename : List UInt8) : List UInt8 × List UInt8 :=
  (padded 8 ((filename.takeWhile fun b => b ≠ 0 ∧ b ≠ dot).take 8),
    padded 3 (splitExt 3 (filename.dropWhile fun b => b ≠ 0 ∧ b ≠ dot)))

namespace Disk

def tick (d : Disk) : Disk := { d with faults := fun n => d.faults (n + 1) }

def forget (d : Disk) : Disk := { d with lastFreeCluster := 0 }

end Disk

def fsRead (page : UInt32) (offset size : Nat) : Op (List UInt8) := fun d =>
  .ok (if d.faults 0 then [] else bytes (d.pages page) offset size) d.tick

def fsWrite (page : UInt32) (offset : Nat) (data : List UInt8) : Op Nat := fun d =>
  let s := min data.length (pageSize - offset)
  let d' := { d.tick with written := (page, offset, data.length) :: d.written }
  if d.faults 0 then .ok 0 d'
  else .ok s { d' with
    pages := Function.update d.pages page (cpy (data.take s) (d.pages page) offset) }

def readBytes (page : UInt32) (offset size : Nat) : Op (List UInt8) := do
  let buf ← fsRead page offset size
  if buf.length ≠ size then throw .fsError
  return buf

def writeBytes (page : UInt32) (offset : Nat) (data : List UInt8) : Op Unit := do
  let count ← fsWrite page offset data
  if count ≠ data.length then throw .fsError

namespace Fat

def entrySector (fat : Fat) (cluster : UInt32) : UInt32 := fat.start.toUInt32 + (cluster >>> 7)

def firstSector (fat : Fat) (cluster : UInt32) : UInt32 :=
  fat.dataStart + (cluster - 2) * fat.sectPerClust.toUInt32

/-- The sector of the root directory that a search starts with in a cluster. -/
def rootSector (fat : Fat) (cluster : UInt32) : UInt32 :=
  fat.rootStart + fat.sectPerClust.toUInt32 * (cluster - 2)

/-- The places that the two loops over a cluster of the root directory look at, in their order. -/
def slots (fat : Fat) (cluster : UInt32) : List Slot :=
  (List.range fat.sectPerClust.toNat).flatMap fun i => (List.range 16).map fun k =>
    ⟨fat.rootSector cluster + UInt32.ofNat i, 32 * k⟩

end Fat

def entryOffset (cluster : UInt32) : Nat := ((cluster &&& 0x7F) <<< 2).toNat

def endOfChain : UInt32 := 0x0FFFFFF8

def isEnd (value : UInt32) : Bool := value &&& 0x0FFFFFF8 == 0x0FFFFFF8

section Table

variable (fat : Fat)

def getNextCluster (cluster : UInt32) : Op UInt32 := do
  if cluster < 2 ∨ cluster > fat.maxClust then return 1
  let buf ← fsRead (fat.entrySector cluster) (entryOffset cluster) 4
  if buf.length ≠ 4 then return 1
  return read32 buf

def setNextCluster (cluster nextCluster : UInt32) : Op Unit := do
  if (cluster ≠ 0 ∧ (cluster < 2 ∨ cluster > fat.maxClust)) ∨ nextCluster = 1 ∨
      nextCluster > fat.maxClust then
    throw .wrongCluster
  writeBytes (fat.entrySector cluster) (entryOffset cluster) (write32 nextCluster)

def freeCluster (cluster : UInt32) : Op Unit := setNextCluster fat cluster 0

/-- The loop of `fat32_find_empty_cluster` over the entries of a sector. -/
def scanSector (sector : UInt32) : List Nat → Op (Option UInt32)
  | [] => return none
  | i :: rest => do
    let buf ← fsRead sector i 4
    if buf.length ≠ 4 then
      modify Disk.forget
      return some 1
    if read32 buf = 0 then
      let count ← fsWrite sector i (write32 endOfChain)
      if count ≠ 4 then
        modify Disk.forget
        return some 1
      return some (← get).lastFreeCluster
    modify fun d => { d with lastFreeCluster := d.lastFreeCluster + 1 }
    scanSector sector rest

def entryOffsets (idx : Nat) : List Nat :=
  (List.range ((pageSize - idx) / 4)).map fun k => idx + 4 * k

/-- The loop of `fat32_find_empty_cluster` over sectors; the first one is scanned at these
offsets. -/
def scanTable : List UInt32 → List Nat → Op UInt32
  | [], _ => do
    modify Disk.forget
    return 1
  | sector :: rest, offsets => do
    match ← scanSector sector offsets with
    | some cluster => return cluster
    | none => scanTable rest (entryOffsets 0)

def sectorsFrom (sector stop : UInt32) : List UInt32 :=
  (List.range (stop.toNat - sector.toNat)).map fun k => sector + UInt32.ofNat k

def findEmptyCluster : Op UInt32 := do
  let last := (← get).lastFreeCluster
  let sector := if last ≠ 0 then fat.entrySector last else fat.start.toUInt32
  let idx := if last ≠ 0 then entryOffset last else 0
  scanTable (sectorsFrom sector (fat.start.toUInt32 + fat.sectPerFat)) (entryOffsets idx)

end Table

/-- What `fat32_read_dir_entry` makes of the bytes that it reads. -/
def DirEntry.ofBytes (name ext attrib date high low size : List UInt8) : DirEntry where
  name := name ++ [0]
  ext := ext ++ [0]
  attrib := attrib.getD 0 0
  ms := date.getD 0 0 % 100
  seconds := date.getD 0 0 / 100 + (date.getD 1 0 &&& 0x1F) * 2
  minutes := date.getD 1 0 >>> 5 ||| (date.getD 2 0 &&& 0x7) <<< 3
  hour := date.getD 2 0 >>> 3
  day := date.getD 3 0 &&& 0x1F
  month := date.getD 3 0 >>> 5 ||| (date.getD 4 0 &&& 0x1) <<< 3
  year := date.getD 4 0 >>> 1
  startCluster := (read16 high).toUInt32 <<< 16 ||| (read16 low).toUInt32
  size := read32 size

def readDirEntry (slot : Slot) : Op DirEntry := do
  let name ← readBytes slot.sector slot.index 8
  let ext ← readBytes slot.sector (slot.index + 8) 3
  let attrib ← readBytes slot.sector (slot.index + 11) 1
  let date ← readBytes slot.sector (slot.index + 13) 5
  let high ← readBytes slot.sector (slot.index + 20) 2
  let low ← readBytes slot.sector (slot.index + 26) 2
  let size ← readBytes slot.sector (slot.index + 28) 4
  return .ofBytes name ext attrib date high low size

def deleted : UInt8 := 0xE5

/-- The test of `fat32_find`; it asks whether the name that is searched for, and not that of the
entry, starts with the mark of a deleted entry. -/
def DirEntry.matches (dir : DirEntry) (name ext : List UInt8) : Bool :=
  dir.attrib &&& 0x0F != 0x0F && name.headD 0 != deleted && cmp name dir.name 8 &&
    cmp ext dir.ext 3

def findIn (name ext : List UInt8) : List Slot → Op (Option (Slot × DirEntry))
  | [] => return none
  | slot :: rest => do
    let dir ← readDirEntry slot
    if dir.name.headD 0 = 0 then throw .fileNotFound
    if dir.matches name ext then return some (slot, dir)
    findIn name ext rest

section Directory

variable (fat : Fat)

/-- The loop of `fat32_find`. Its end is recognised by the number of the sector behind the
cluster, not by that of the next cluster. -/
def findFrom (name ext : List UInt8) : Nat → UInt32 → Op (Option (Slot × DirEntry))
  | 0, _ => return none
  | fuel + 1, cluster => do
    match ← findIn name ext (fat.slots cluster) with
    | some found => return some found
    | none =>
      let next ← getNextCluster fat cluster
      if isEnd (fat.rootSector cluster + fat.sectPerClust.toUInt32) then throw .fileNotFound
      findFrom name ext fuel next

def find (fuel : Nat) (name ext : List UInt8) : Op (Option (Slot × DirEntry)) :=
  findFrom fat name ext fuel 2

def fat32Open (fuel : Nat) (filename : List UInt8) : Op (Option (Slot × DirEntry)) :=
  find fat fuel (split filename).1 (split filename).2

def fileExists (fuel : Nat) (filename : List UInt8) : Op (Option Bool) := fun d =>
  match find fat fuel (split filename).1 (split filename).2 d with
  | .ok (some _) d => .ok (some true) d
  | .ok none d => .ok none d
  | .error _ d => .ok (some false) d

def freeChain : Nat → UInt32 → Op (Option Unit)
  | 0, _ => return none
  | fuel + 1, cluster => do
    let next ← getNextCluster fat cluster
    freeCluster fat cluster
    if isEnd next then return some ()
    freeChain fuel next

def delete (fuel : Nat) (filename : List UInt8) : Op (Option Unit) := do
  match ← find fat fuel (split filename).1 (split filename).2 with
  | none => return none
  | some (slot, dir) =>
    writeBytes slot.sector slot.index [deleted]
    freeChain fat fuel dir.startCluster

/-- The loops of `fat32_create` in one cluster. -/
def freeIn : List Slot → Op (Option Slot)
  | [] => return none
  | slot :: rest => do
    let buf ← readBytes slot.sector slot.index 1
    if buf.headD 0 = 0 ∨ buf.headD 0 = deleted then return some slot
    freeIn rest

/-- The loop of `fat32_create`. Without a free place in the directory it can end behind the last
entry of a sector. -/
def freeFrom : Nat → UInt32 → Op (Option Slot)
  | 0, _ => return none
  | fuel + 1, cluster => do
    match ← freeIn (fat.slots cluster) with
    | some slot => return some slot
    | none =>
      let next ← getNextCluster fat cluster
      let sector := fat.rootSector cluster + fat.sectPerClust.toUInt32
      if isEnd sector then return some ⟨sector, pageSize⟩
      freeFrom fuel next

def newEntry (name ext : List UInt8) (start : UInt32) : List UInt8 :=
  name.take 8 ++ (ext.take 3 ++ ([0x20, 0, 0, 0, 0, 0, 0, 0, 0,
    (start >>> 16).toUInt8, (start >>> 24).toUInt8, 0, 0, 0, 0,
    start.toUInt8, (start >>> 8).toUInt8, 0, 0, 0, 0] : List UInt8))

/-- Read a new entry back, without a look at the error; `dir` is what the caller's record holds. -/
def readBack (slot : Slot) (dir : DirEntry) : Op DirEntry := fun d =>
  match readDirEntry slot d with
  | .ok dir d => .ok dir d
  | .error _ d => .ok dir d

def create (fuel : Nat) (filename : List UInt8) (dir : DirEntry) :
    Op (Option (Slot × DirEntry)) := do
  match ← fileExists fat fuel filename with
  | none => return none
  | some true => throw .fileExists
  | some false =>
    match ← freeFrom fat fuel 2 with
    | none => return none
    | some slot =>
      let start ← findEmptyCluster fat
      if start = 1 then throw .noFreeCluster
      writeBytes slot.sector slot.index
        (newEntry (split filename).1 (split filename).2 start)
      let dir ← readBack slot dir
      return some (slot, dir)

end Directory

end Fat32
