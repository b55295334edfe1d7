import Mathlib

/-!
# The virtual FAT16 volume

`scsi_mmapfs.c`: a table of files is shown as a FAT16 volume, built when it is read. Each builder
runs through the files with 16-bit counters. Sectors are functions on their offsets; numbers are
reduced where the source stores them in 16 or 32 bits.
-/

namespace ScsiMmapfs

def lunSectorsize : Nat := 512
def lunSize : Nat := 256 * 1024 * 1024 / lunSectorsize
def mediaType : UInt8 := 0xf8
def sectorsize : Nat := lunSectorsize
def tracksize : Nat := 0x39
def heads : Nat := 9
def clustersize : Nat := 8
def reserved : Nat := 8
def fatNumberoffat : Nat := 1
def fatFatsize : Nat := lunSize / clustersize / (sectorsize / 2)
def fatFat1First : Nat := reserved
def fatFat1Last : Nat := fatFat1First + fatFatsize - 1
def fatFileDeleted : UInt8 := 0xE5
def fatDateDefault : Nat := 0x40d3
def directoryEntries : Nat := 0x200
def directoryEntrysize : Nat := 32
def directorySize : Nat := directoryEntries * directoryEntrysize / lunSectorsize
def directoryFirst : Nat := fatFat1Last + 1
def directoryLast : Nat := directoryFirst + directorySize - 1
def dataFirstSector : Nat := directoryLast + 1
def dataFirstCluster : Nat := dataFirstSector / clustersize
def dataFirstFatCluster : Nat := 3
def dataSectorSize : Nat := lunSize - dataFirstSector
def fatBadcluster : Nat := 0xFFF7
def fatEndofcluster : Nat := 0xFFFF

def clusterBytes : Nat := clustersize * sectorsize

def fatClusterToSector (fatcluster : Nat) : Nat := (fatcluster + dataFirstCluster - 2) * clustersize

abbrev Sector := Nat → UInt8

def store (sector : Sector) (offset : Nat) (bytes : List UInt8) : Sector := fun i =>
  if offset ≤ i ∧ i < offset + bytes.length then bytes.getD (i - offset) 0 else sector i

def write16 (sector : Sector) (offset val : Nat) : Sector :=
  store sector offset [UInt8.ofNat val, UInt8.ofNat (val / 2 ^ 8)]

def write32 (sector : Sector) (offset val : Nat) : Sector :=
  store sector offset [UInt8.ofNat val, UInt8.ofNat (val / 2 ^ 8), UInt8.ofNat (val / 2 ^ 16),
    UInt8.ofNat (val / 2 ^ 24)]

def zeros : Sector := fun _ => 0

/-- `mmap_entry_t`: the data of a file, and what its `info` callback reports if it has one. -/
structure File where
  name : List UInt8
  ext : List UInt8
  maxsize : Nat
  info : Option (Bool × Nat)
  deriving DecidableEq

def File.present (f : File) : Bool := (f.info.map Prod.fst).getD true

def File.size (f : File) : Nat := (f.info.map Prod.snd).getD f.maxsize

def File.csize (f : File) : Nat :=
  let csize := f.maxsize / clusterBytes % 2 ^ 16
  (csize + if csize * clusterBytes % 2 ^ 32 < f.maxsize then 1 else 0) % 2 ^ 16

/-- `c2size`, which compares `size` with a multiple of itself. -/
def File.c2size (f : File) : Nat :=
  let c2size := f.size / clusterBytes % 2 ^ 16
  (c2size + if f.size * clusterBytes % 2 ^ 32 < f.size then 1 else 0) % 2 ^ 16

structure Placed where
  index : Nat
  file : File
  cstart : Nat
  cend : Nat
  deriving DecidableEq

def place (index cstart cend : Nat) : List File → List Placed
  | [] => []
  | file :: rest =>
    let cend := (cend + file.csize) % 2 ^ 16
    ⟨index, file, cstart, cend⟩ :: place (index + 1) ((cend + 1) % 2 ^ 16) cend rest

def placed (files : List File) : List Placed :=
  place 0 dataFirstFatCluster (dataFirstFatCluster - 1) files

theorem map_index_place {files} {index cstart cend : Nat} :
    (place index cstart cend files).map Placed.index = List.range' index files.length := by
  induction files generalizing index cstart cend with
  | nil => rfl
  | cons file rest ih => simp [place, ih, List.range'_succ]

theorem placed_unique {files} {p q : Placed} (hp : p ∈ placed files) (hq : q ∈ placed files)
    (same : p.index = q.index) : p = q := by
  have nodup : ((placed files).map Placed.index).Nodup := by
    rw [placed, map_index_place]
    exact List.nodup_range'
  exact List.inj_on_of_nodup_map nodup hp hq same

def low (n : Nat) : UInt8 := UInt8.ofNat n

def bootSector : List UInt8 :=
  [0xEB, 0x3C, 0x90] ++ [109, 107, 100, 111, 115, 102, 115, 0] ++
  [low sectorsize, low (sectorsize / 2 ^ 8), low clustersize, low reserved, low (reserved / 2 ^ 8),
    low fatNumberoffat, low directoryEntries, low (directoryEntries / 2 ^ 8), 0, 0, mediaType,
    low fatFatsize, low (fatFatsize / 2 ^ 8), low tracksize, low (tracksize / 2 ^ 8), low heads,
    low (heads / 2 ^ 8), 0, 0, 0, 0, low dataSectorSize, low (dataSectorSize / 2 ^ 8),
    low (dataSectorSize / 2 ^ 16), low (dataSectorSize / 2 ^ 24), 0, 0, 0x29] ++
  [67, 111, 78, 102] ++ [72, 105, 75, 111, 66, 32, 32, 32, 32, 32, 32] ++
  [70, 65, 84, 49, 54, 32, 32, 32]

def buildBootsector (lba : Nat) : Sector :=
  if lba = 0 then store (store zeros 0 bootSector) 0x1FE [0x55, 0xAA] else zeros

structure FatWalk where
  sector : Sector
  fatSect : Nat
  fatOff : Nat

def mark (c c2end : Nat) : Nat :=
  if c < c2end then c else if c = c2end then fatEndofcluster else fatBadcluster

def putMark (lba : Nat) (w : FatWalk) (mk : Nat) : FatWalk :=
  let sector := if w.fatSect = lba then write16 w.sector w.fatOff mk else w.sector
  if sectorsize / 2 ≤ w.fatOff + 2 then ⟨sector, w.fatSect + 1, 0⟩
  else ⟨sector, w.fatSect, w.fatOff + 2⟩

def Placed.c2end (p : Placed) : Nat := (p.cstart + p.file.c2size + 2 ^ 16 - 1) % 2 ^ 16

def Placed.clusters (p : Placed) : List Nat := List.range' p.cstart (p.cend + 1 - p.cstart)

def fatFile (lba : Nat) (w : FatWalk) (p : Placed) : FatWalk :=
  (p.clusters.map fun c => mark c p.c2end).foldl (putMark lba) w

def emptyFat (lba : Nat) : Sector :=
  let sector : Sector := fun i => if i % 2 = 0 then low fatBadcluster
    else low (fatBadcluster / 2 ^ 8)
  if lba = 0 then
    store sector 0 [mediaType, 0xFF, low fatEndofcluster, low (fatEndofcluster / 2 ^ 8)]
  else sector

def buildFat (files : List File) (lba : Nat) : Sector :=
  ((placed files).foldl (fatFile lba) ⟨emptyFat lba, 0, dataFirstFatCluster * 2⟩).sector

def diskLabel : List UInt8 := [72, 105, 75, 111, 66, 32, 32, 32] ++ [32, 32, 32]

def labelSector : Sector :=
  let sector := store (store zeros 0 diskLabel) 0x0b [0x08]
  write16 (write16 (write16 sector 0x10 fatDateDefault) 0x12 fatDateDefault) 0x18 fatDateDefault

def putEntry (sector : Sector) (offset : Nat) (p : Placed) : Sector :=
  let sector := store sector offset (p.file.name.take 8)
  let sector := if p.file.present then sector else store sector offset [fatFileDeleted]
  let sector := store sector (offset + 8) (p.file.ext.take 3)
  let sector := write16 sector (offset + 0x10) fatDateDefault
  let sector := write16 sector (offset + 0x12) fatDateDefault
  let sector := write16 sector (offset + 0x18) fatDateDefault
  let sector := write16 sector (offset + 0x1A) p.cstart
  write32 sector (offset + 0x1C) p.file.size

def buildRootdirectory (files : List File) (lba : Nat) : Sector :=
  if lba = 0 then
    (placed files).foldl (fun sector p => putEntry sector (directoryEntrysize * (p.index + 1)) p)
      labelSector
  else zeros

/-- `build_rootdirectory` with `MMAPFS_CHECK`: the files that are unlinked. The variable
`offset` is not initialised here; `offset` is what it happens to hold. -/
def checkRootdirectory (files : List File) (lba offset : Nat) (sector : Sector) : List Nat :=
  if lba = 0 then
    ((placed files).filter fun p =>
      p.file.present && sector (offset + directoryEntrysize * p.index) = fatFileDeleted).map
        Placed.index
  else []

def Placed.sstart (p : Placed) : Nat := fatClusterToSector p.cstart

def Placed.send (p : Placed) : Nat := fatClusterToSector p.cend + clustersize - 1

/-- `build_data`: the file whose callback is called and its block, or none. -/
def buildData (files : List File) (lba : Nat) : Option (Nat × Nat) :=
  ((placed files).find? fun p => p.sstart ≤ lba ∧ lba ≤ p.send).map fun p =>
    (p.index, (lba - p.sstart) % 2 ^ 16)

inductive Content
  | bytes (sector : Sector)
  | file (index block : Nat)

/-- The sector `scsi_mmapfs_read10` puts into its buffer; the builders take a 16-bit `lba`. -/
def readSector (files : List File) (lba : Nat) : Content :=
  if lba < fatFat1First then .bytes (buildBootsector (lba % 2 ^ 16))
  else if lba ≤ fatFat1Last then .bytes (buildFat files ((lba - fatFat1First) % 2 ^ 16))
  else if lba ≤ directoryLast then
    .bytes (buildRootdirectory files ((lba - directoryFirst) % 2 ^ 16))
  else
    match buildData files (lba % 2 ^ 16) with
    | some (index, block) => .file index block
    | none => .bytes zeros

/-- The file and block to which `scsi_mmapfs_write10` passes a sector. -/
def writeSector (files : List File) (lba : Nat) : Option (Nat × Nat) :=
  if lba ≤ directoryLast then none else buildData files (lba % 2 ^ 16)

end ScsiMmapfs
