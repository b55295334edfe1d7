import OpenLab.ByteFields
import OpenLab.ScsiMmapfs

/-!
# SCSI commands of the mass storage class

`scsi.c`, with the block transfers of `scsi_sd.c` and `scsi_mmapfs.c`. What a handler stores
through its pointers is its `Result`, where `status` and `datalen` stay `none` if it does not
assign them. `indexed` lists the places of `scsi_lun` that are read. Log output is not modelled.
-/

namespace Scsi

open List Option

open ScsiMmapfs (Sector File store zeros lunSize fatFat1Last directoryLast readSector writeSector
  buildData)

inductive Status
  | good | checkCondition | conditionMet | busy | reservationConflict | taskSetFull
  | acaActive | taskAborted
  deriving DecidableEq

inductive CmdRet
  | done | partly | error
  deriving DecidableEq

def blocksize : Nat := 512

/-- A card with its size in blocks. A card that is not of type `SDHC` gives its size in a
12-bit and a 3-bit field, and has byte addresses. -/
structure SdCard where
  size : Nat
  sdhc : Bool
  block : Nat → Sector
  size_lt : size < 2 ^ 32
  size_le : sdhc = false → size ≤ 2 ^ 21

def SdCard.la (card : SdCard) (lba : Nat) : Nat :=
  if card.sdhc then lba else lba * blocksize % 2 ^ 32

def SdCard.blockAt (card : SdCard) (la : Nat) : Nat := if card.sdhc then la else la / blocksize

/-- The `info` of a unit; the blocks of a file come from its callback. -/
inductive Device
  | sd (card : SdCard)
  | mmapfs (files : List File) (fileBlock : Nat → Nat → Sector)

/-- Where a sector of a unit is kept: on a card, among the boot, FAT and directory sectors of
the volume, or in one of its files. -/
inductive Place
  | card (block : Nat)
  | system (sector : Nat)
  | file (index block : Nat)
  deriving DecidableEq

/-- `scsi_lun_t`: the flags tell which of the functions are not `NULL`. -/
structure Lun where
  device : Device
  readCapacity : Bool
  read10 : Bool
  write10 : Bool

/-- What the application configures; `beyond` is what is found behind the end of `scsi_lun`. -/
structure Config where
  luns : List Lun
  beyond : Nat → Lun
  vendor : List UInt8
  product : List UInt8
  rev : List UInt8
  some_lun : luns ≠ []

def Config.maxLun (cfg : Config) : Nat := cfg.luns.length - 1

def Config.lun (cfg : Config) (lun : UInt8) : Lun := cfg.luns.getD lun.toNat (cfg.beyond lun.toNat)

/-- `scsi_params_t`, without the two pointers for the results. -/
structure Params where
  cont : UInt8
  lun : UInt8
  cmd : Sector
  data : Sector
  datamax : Nat

/-- `unlinked` lists the files whose `unlink` is called, for each value that the variable
`offset` of `build_rootdirectory` may hold. -/
structure Result where
  ret : CmdRet
  status : Option Status
  datalen : Option Nat
  cmd : Sector
  data : Sector
  written : List (Place × List UInt8)
  unlinked : Nat → List Nat
  indexed : List Nat

def Params.leave (p : Params) (ret : CmdRet) : Result :=
  ⟨ret, none, none, p.cmd, p.data, [], fun _ => [], []⟩

def Result.assign (r : Result) (status : Status) : Result := { r with status := some status }

def Result.assignLen (r : Result) (datalen : Nat) : Result := { r with datalen := some datalen }

def Result.fill (r : Result) (offset : Nat) (bytes : List UInt8) : Result :=
  { r with data := store r.data offset bytes }

def beValue (bytes : List UInt8) : Nat := ByteFields.leValue bytes.reverse

def beBytes (n v : Nat) : List UInt8 := (ByteFields.leBytes n v).reverse

def cdbLba (cmd : Sector) : Nat := beValue [cmd 2, cmd 3, cmd 4, cmd 5]

def cdbLength (cmd : Sector) : Nat := beValue [cmd 7, cmd 8]

def setCdb (cmd : Sector) (lba length : Nat) : Sector :=
  store (store cmd 2 (beBytes 4 lba)) 7 (beBytes 2 length)

def beyondLimit (lba nblocks size : Nat) : Bool := size ≤ (lba + nblocks + (2 ^ 32 - 1)) % 2 ^ 32

/-- The `switch (nblocks)` at the end of the four transfers. -/
def Result.advance (r : Result) (lba nblocks : Nat) : Result :=
  match nblocks with
  | 0 => { r with ret := .error, status := some .checkCondition }
  | 1 => { r with ret := .done, status := some .good, datalen := some blocksize }
  | m + 2 => { r with
      ret := .partly, status := some .good, datalen := some blocksize,
      cmd := setCdb r.cmd (lba + 1) (m + 1) }

def Params.refused (p : Params) (size : Nat) : Option Result :=
  if beyondLimit (cdbLba p.cmd) (cdbLength p.cmd) size then
    some ((p.leave .done).assign .checkCondition)
  else if p.datamax < blocksize then some ((p.leave .error).assign .checkCondition)
  else none

/-- `scsi_sd_read10`; `fault` tells that the card reports an error. -/
def sdRead10 (card : SdCard) (fault : Bool) (p : Params) : Result :=
  (p.refused card.size).getD <|
    if fault then (p.leave .done).assign .checkCondition
    else
      let lba := cdbLba p.cmd
      Result.advance { p.leave .done with data := card.block (card.blockAt (card.la lba)) }
        lba (cdbLength p.cmd)

def sdWrite10 (card : SdCard) (fault : Bool) (p : Params) : Result :=
  (p.refused card.size).getD <|
    -- the first call only starts the transfer
    if p.cont = 0 then (p.leave .partly).assign .good
    else if fault then (p.leave .done).assign .checkCondition
    else
      let lba := cdbLba p.cmd
      Result.advance
        { p.leave .done with
          written := [(.card (card.blockAt (card.la lba)), (List.range blocksize).map p.data)] }
        lba (cdbLength p.cmd)

def mmapfsBlock (files : List File) (fileBlock : Nat → Nat → Sector) (lba : Nat) :
    Sector :=
  match readSector files lba with
  | .bytes sector => sector
  | .file index block => fileBlock index block

/-- `scsi_mmapfs_read10`; unlike the card's function it assigns `datalen` in every case. -/
def mmapfsRead10 (files : List File) (fileBlock : Nat → Nat → Sector) (p : Params) :
    Result :=
  (p.refused lunSize).getD <|
    let lba := cdbLba p.cmd
    Result.advance
      (Result.assignLen { p.leave .done with data := mmapfsBlock files fileBlock lba } p.datamax)
      lba (cdbLength p.cmd)

/-- What `scsi_mmapfs_write10` does with a sector: those of the boot area and of the FAT are
only logged, the directory is compared, and the others go to their file if there is one. -/
def mmapfsStore (files : List File) (p : Params) : Result :=
  let lba := cdbLba p.cmd
  let r := p.leave .done
  if lba ≤ fatFat1Last then r
  else if lba ≤ directoryLast then
    let sector := (lba - ScsiMmapfs.directoryFirst) % 2 ^ 16
    { r with unlinked := fun offset => ScsiMmapfs.checkRootdirectory files sector offset p.data }
  else
    -- `build_data` takes a 16-bit number, and clears the buffer when it finds no file
    match buildData files (lba % 2 ^ 16) with
    | some (index, block) =>
      { r with written := [(.file index block, (List.range blocksize).map p.data)] }
    | none => r.fill 0 (List.replicate blocksize 0)

def mmapfsWrite10 (files : List File) (p : Params) : Result :=
  (p.refused lunSize).getD <|
    if p.cont = 0 then (p.leave .partly).assign .good
    else (mmapfsStore files p).advance (cdbLba p.cmd) (cdbLength p.cmd)

def Device.size : Device → Nat
  | .sd card => card.size
  | .mmapfs _ _ => lunSize

def Device.read10 (d : Device) (fault : Bool) (p : Params) : Result :=
  match d with
  | .sd card => sdRead10 card fault p
  | .mmapfs files fileBlock => mmapfsRead10 files fileBlock p

def Device.write10 (d : Device) (fault : Bool) (p : Params) : Result :=
  match d with
  | .sd card => sdWrite10 card fault p
  | .mmapfs files _ => mmapfsWrite10 files p

def senseReplyFixedSize : Nat := 17
def senseReplySize : Nat := 8
def senseCachingReplySize : Nat := 19
def senseInfoexcReplySize : Nat := 12

def cmdDefaultHandler (p : Params) : Result :=
  let r := (p.leave .done).fill 0 (List.replicate senseReplyFixedSize 0)
  let r := ((r.fill 0 [0x80 ||| 0x70]).fill 2 [0x05]).fill 12 [0x20]
  (r.assignLen senseReplySize).assign .checkCondition

def inquiryAnswer : List UInt8 := [0x00, 0x80, 0x04, 0x02, 31, 0x00, 0x00, 0x00]

/-- The sizes are those of the arrays in which the application declares its strings. -/
def inqSize : Nat := 8 + 8 + 16 + 4

def cmdInquiry (cfg : Config) (p : Params) : Result :=
  let r := (p.leave .done).fill 0 inquiryAnswer
  let r := ((r.fill 8 (cfg.vendor.take 8)).fill 16 (cfg.product.take 16)).fill 32 (cfg.rev.take 4)
  (r.assignLen inqSize).assign .good

/-- The handler sets the two pointers of its own copy, not what they point to. -/
def cmdTestUnitReady (p : Params) : Result := p.leave .done

def cmdModeSelect6 (p : Params) : Result := p.leave .error

def cmdReadFormatCapacities (p : Params) : Result :=
  let allocationLength := ((p.cmd 7).toNat <<< 4) &&& (p.cmd 8).toNat
  if allocationLength = 0 then p.leave .done else p.leave .error

/-- Both branches of the handler return without a status. -/
def cmdStartStopUnit (p : Params) : Result := p.leave .done

def cmdModeSense6 (p : Params) : Result :=
  let dbd := (p.cmd 1 &&& 0x08) >>> 3
  let pc := (p.cmd 2 &&& 0xc0) >>> 6
  let pageCode := p.cmd 2 &&& 0x3f
  let subpageCode := p.cmd 3
  if dbd = 0 ∧ pc = 0 ∧ pageCode = 0x3f ∧ subpageCode = 0 then
    (((p.leave .done).fill 0 (List.replicate senseReplySize 0)).assignLen senseReplySize).assign
      .good
  else if dbd = 0 ∧ pc = 0 ∧ pageCode = 0x1C ∧ subpageCode = 0 then
    let r := (p.leave .done).fill 0 (List.replicate senseInfoexcReplySize 0)
    ((r.fill 0 [0x1C, 0x0A]).assignLen senseInfoexcReplySize).assign .good
  else if dbd = 0 ∧ pc = 0 ∧ pageCode = 0x08 ∧ subpageCode = 0 then
    let r := (p.leave .done).fill 0 (List.replicate senseCachingReplySize 0)
    let r := (((r.fill 0 [0x08, 0x12, 0x85]).fill 9 [0x02]).fill 11 [0x08]).fill 13 [0x08]
    (r.assignLen senseCachingReplySize).assign .good
  else (p.leave .error).assign .checkCondition

/-- Like `cmdTestUnitReady` it sets its copy of the pointer. -/
def cmdPreventAllowMediumRemoval (p : Params) : Result := p.leave .done

def cmdRequestSense (p : Params) : Result :=
  if p.cmd 1 &&& 0x1 = 0 then
    let r := (p.leave .done).fill 0 (List.replicate senseReplyFixedSize 0)
    let r := ((r.fill 0 [0x80 ||| 0x70]).fill 7 [0x0a]).fill 12 [0x00]
    (r.assignLen senseReplyFixedSize).assign .good
  else ((p.leave .done).assignLen 0).assign .checkCondition

def cmdReadCapacity10 (cfg : Config) (p : Params) : Result :=
  let lun := cfg.lun p.lun
  let bcount := if lun.readCapacity then lun.device.size else 0
  let bsize := if lun.readCapacity then blocksize else 0
  let r := (p.leave .done).fill 0 (beBytes 4 (bcount + (2 ^ 32 - 1)) ++ beBytes 4 bsize)
  { (r.assignLen 8).assign .good with indexed := [p.lun.toNat] }

def cmdRead10 (cfg : Config) (fault : Bool) (p : Params) : Result :=
  let lun := cfg.lun p.lun
  { (if lun.read10 then lun.device.read10 fault p
     else ((p.leave .done).assignLen 0).assign .checkCondition) with indexed := [p.lun.toNat] }

def cmdWrite10 (cfg : Config) (fault : Bool) (p : Params) : Result :=
  let lun := cfg.lun p.lun
  { (if lun.write10 then lun.device.write10 fault p
     else ((p.leave .done).assignLen 0).assign .checkCondition) with indexed := [p.lun.toNat] }

inductive CdbOp
  | inquiry | requestSense | testUnitReady | modeSense6 | preventAllowMediumRemoval
  | readCapacity10 | read10 | write10 | modeSelect6 | startStop | readFormatCapacities
  deriving DecidableEq

def CdbOp.code : CdbOp → UInt8
  | .inquiry => 0x12
  | .requestSense => 0x03
  | .testUnitReady => 0x00
  | .modeSense6 => 0x1a
  | .preventAllowMediumRemoval => 0x1e
  | .readCapacity10 => 0x25
  | .read10 => 0x28
  | .write10 => 0x2a
  | .modeSelect6 => 0x15
  | .startStop => 0x1b
  | .readFormatCapacities => 0x23

def cdbList : List CdbOp :=
  [.inquiry, .requestSense, .testUnitReady, .modeSense6, .preventAllowMediumRemoval,
    .readCapacity10, .read10, .write10, .modeSelect6, .startStop, .readFormatCapacities]

def CdbOp.cmd (cfg : Config) (fault : Bool) : CdbOp → Params → Result
  | .inquiry => cmdInquiry cfg
  | .requestSense => cmdRequestSense
  | .testUnitReady => cmdTestUnitReady
  | .modeSense6 => cmdModeSense6
  | .preventAllowMediumRemoval => cmdPreventAllowMediumRemoval
  | .readCapacity10 => cmdReadCapacity10 cfg
  | .read10 => cmdRead10 cfg fault
  | .write10 => cmdWrite10 cfg fault
  | .modeSelect6 => cmdModeSelect6
  | .startStop => cmdStartStopUnit
  | .readFormatCapacities => cmdReadFormatCapacities

def cdbOp (cmd : Sector) : Option CdbOp := cdbList.find? fun op => op.code = cmd 0

def processCommand (cfg : Config) (fault : Bool) (p : Params) : Result :=
  match cdbOp p.cmd with
  | some op => op.cmd cfg fault p
  | none => cmdDefaultHandler p

theorem beValue_beBytes (n v : Nat) : beValue (beBytes n v) = v % 256 ^ n := by
  rw [beValue, beBytes, reverse_reverse, ByteFields.leValue_leBytes]

theorem cdbLba_setCdb (cmd : Sector) {lba} (length : Nat) (small : lba < 2 ^ 32) :
    cdbLba (setCdb cmd lba length) = lba := by
  have bytes : [setCdb cmd lba length 2, setCdb cmd lba length 3, setCdb cmd lba length 4,
      setCdb cmd lba length 5] = beBytes 4 lba := rfl
  rw [cdbLba, bytes, beValue_beBytes]
  exact Nat.mod_eq_of_lt small

theorem cdbLength_setCdb (cmd : Sector) (lba : Nat) {length} (small : length < 2 ^ 16) :
    cdbLength (setCdb cmd lba length) = length := by
  have bytes : [setCdb cmd lba length 7, setCdb cmd lba length 8] = beBytes 2 length := rfl
  rw [cdbLength, bytes, beValue_beBytes]
  exact Nat.mod_eq_of_lt small

theorem cdb_lt (cmd : Sector) : cdbLba cmd < 2 ^ 32 ∧ cdbLength cmd < 2 ^ 16 := by
  have byte : ∀ i, (cmd i).toNat < 2 ^ 8 := fun i => (cmd i).toNat_lt
  have := byte 2
  have := byte 3
  have := byte 4
  have := byte 5
  have := byte 7
  have := byte 8
  simp only [cdbLba, cdbLength, beValue, reverse_cons, reverse_nil, nil_append,
    cons_append, ByteFields.leValue]
  omega

theorem Result.advance_good (r : Result) (lba : Nat) {nblocks} (some_block : 0 < nblocks) :
    (r.advance lba nblocks).status = some .good ∧
      (r.advance lba nblocks).datalen = some blocksize ∧
      (1 < nblocks → (r.advance lba nblocks).ret = .partly) := by
  match nblocks, some_block with
  | 1, _ => exact ⟨rfl, rfl, fun h => absurd h (by decide)⟩
  | m + 2, _ => exact ⟨rfl, rfl, fun _ => rfl⟩

theorem Result.advance_keeps (r : Result) (lba nblocks : Nat) :
    (r.advance lba nblocks).data = r.data ∧ (r.advance lba nblocks).written = r.written ∧
      (r.advance lba nblocks).cmd 0 = r.cmd 0 := by
  match nblocks with
  | 0 | 1 | m + 2 => exact ⟨rfl, rfl, rfl⟩

theorem Result.advance_cmd (r : Result) (lba nblocks : Nat) (more : 1 < nblocks)
    (small : lba + 1 < 2 ^ 32) (short : nblocks < 2 ^ 16) :
    cdbLba (r.advance lba nblocks).cmd = lba + 1 ∧
      cdbLength (r.advance lba nblocks).cmd = nblocks - 1 := by
  match nblocks, more with
  | m + 2, _ => exact ⟨cdbLba_setCdb _ _ small, cdbLength_setCdb _ _ (by omega)⟩

theorem SdCard.blockAt_la (card : SdCard) {lba} (inside : lba < card.size) :
    card.blockAt (card.la lba) = lba := by
  cases hc : card.sdhc with
  | true => simp [blockAt, la, hc]
  | false =>
    have size := card.size_le hc
    simp only [blockAt, la, hc, Bool.false_eq_true, if_false, blocksize]
    omega

def Device.block (d : Device) (lba : Nat) : Sector :=
  match d with
  | .sd card => card.block lba
  | .mmapfs files fileBlock => mmapfsBlock files fileBlock lba

/-- The place that a read takes a sector from, if the sector is not one of zeros. -/
def Device.source : Device → Nat → Option Place
  | .sd card, lba => some (.card (card.blockAt (card.la lba)))
  | .mmapfs files _, lba =>
    match readSector files lba with
    | .file index block => some (.file index block)
    | .bytes _ => if lba ≤ directoryLast then some (.system lba) else none

/-- The place that a write stores a sector in. -/
def Device.target : Device → Nat → Option Place
  | .sd card, lba => some (.card (card.blockAt (card.la lba)))
  | .mmapfs files _, lba =>
    (writeSector files lba).map fun (index, block) => .file index block

/-- The place where a sector belongs; on the volume its file is the one that spans it. -/
def Device.home : Device → Nat → Option Place
  | .sd _, lba => some (.card lba)
  | .mmapfs files _, lba =>
    if lba ≤ directoryLast then some (.system lba)
    else ((ScsiMmapfs.placed files).find? fun p => p.sstart ≤ lba ∧ lba ≤ p.send).map fun p =>
      .file p.index (lba - p.sstart)

/-- The 16-bit number with which the volume looks for the file of a sector finds the file of
no other sector. -/
def Device.Straight : Device → Nat → Prop
  | .sd _, _ => True
  | .mmapfs files _, lba =>
    2 ^ 16 ≤ lba → buildData files (lba % 2 ^ 16) = none

/-- A sector that a write stores where it belongs: any of a card, and on the volume those of the
files, below `2 ^ 16`. -/
def Device.Stored : Device → Nat → Prop
  | .sd _, _ => True
  | .mmapfs files _, lba => lba < 2 ^ 16 ∧ (writeSector files lba).isSome

theorem Device.size_lt (d : Device) : d.size < 2 ^ 32 := by
  cases d with
  | sd card => exact card.size_lt
  | mmapfs files fileBlock => show lunSize < 2 ^ 32; decide

structure Params.Fits (p : Params) (d : Device) : Prop where
  some_block : 0 < cdbLength p.cmd
  inside : cdbLba p.cmd + cdbLength p.cmd ≤ d.size
  room : blocksize ≤ p.datamax

variable {p : Params}

theorem Params.Fits.not_refused {d} (fits : p.Fits d) : p.refused d.size = none := by
  have h1 := fits.some_block
  have h2 := fits.inside
  have size := d.size_lt
  have last : (cdbLba p.cmd + cdbLength p.cmd + (2 ^ 32 - 1)) % 2 ^ 32 =
      cdbLba p.cmd + cdbLength p.cmd - 1 := by omega
  have below : beyondLimit (cdbLba p.cmd) (cdbLength p.cmd) d.size = false := by
    exact decide_eq_false (by omega)
  rw [refused, below, if_neg Bool.false_ne_true, if_neg (Nat.not_lt.mpr fits.room)]

theorem Device.read10_fits (d : Device) (fits : p.Fits d) :
    ∃ r : Result, d.read10 false p = r.advance (cdbLba p.cmd) (cdbLength p.cmd) ∧
      r.cmd = p.cmd ∧ r.data = d.block (cdbLba p.cmd) ∧ r.written = [] := by
  have inside : cdbLba p.cmd < d.size := by
    have := fits.some_block
    have := fits.inside
    omega
  have go := fits.not_refused
  cases d with
  | sd card =>
    refine ⟨{ p.leave .done with data := card.block (cdbLba p.cmd) }, ?_, rfl, rfl, rfl⟩
    rw [size] at go
    simp only [read10, sdRead10, go, getD_none, Bool.false_eq_true, if_false]
    rw [card.blockAt_la inside]
  | mmapfs files fileBlock =>
    refine ⟨Result.assignLen { p.leave .done with
      data := mmapfsBlock files fileBlock (cdbLba p.cmd) } p.datamax, ?_, rfl, rfl, rfl⟩
    rw [size] at go
    rw [read10, mmapfsRead10, go, getD_none]

theorem mmapfsStore_spec (files : List File) (fileBlock : Nat → Nat → Sector)
    (p : Params) : (mmapfsStore files p).datalen = none ∧ (mmapfsStore files p).cmd = p.cmd ∧
      (mmapfsStore files p).written = (((Device.mmapfs files fileBlock).target (cdbLba p.cmd)).map
        (·, (range blocksize).map p.data)).toList := by
  have area : fatFat1Last ≤ directoryLast := by decide
  unfold mmapfsStore Device.target writeSector
  dsimp only
  split_ifs with fat directory
  · exact ⟨rfl, rfl, rfl⟩
  · exact absurd (fat.trans area) directory
  · exact ⟨rfl, rfl, rfl⟩
  · cases buildData files (cdbLba p.cmd % 2 ^ 16) <;> exact ⟨rfl, rfl, rfl⟩

theorem Device.write10_fits (d : Device) (fits : p.Fits d) (later : p.cont ≠ 0) :
    ∃ r : Result, d.write10 false p = r.advance (cdbLba p.cmd) (cdbLength p.cmd) ∧
      r.cmd = p.cmd ∧
      r.written = ((d.target (cdbLba p.cmd)).map (·, (range blocksize).map p.data)).toList := by
  have go := fits.not_refused
  cases d with
  | sd card =>
    refine ⟨{ p.leave .done with written := [(.card (card.blockAt (card.la (cdbLba p.cmd))),
      (range blocksize).map p.data)] }, ?_, rfl, rfl⟩
    rw [size] at go
    simp only [write10, sdWrite10, go, getD_none, if_neg later, Bool.false_eq_true, if_false]
  | mmapfs files fileBlock =>
    rw [size] at go
    refine ⟨mmapfsStore files p, ?_, (mmapfsStore_spec files fileBlock p).2⟩
    rw [write10, mmapfsWrite10, go, getD_none, if_neg later]

theorem Device.write10_start (d : Device) (fault : Bool) (fits : p.Fits d) (start : p.cont = 0) :
    d.write10 fault p = (p.leave .partly).assign .good := by
  have go := fits.not_refused
  cases d with
  | sd card =>
    rw [size] at go
    rw [write10, sdWrite10, go, getD_none, if_pos start]
  | mmapfs files fileBlock =>
    rw [size] at go
    rw [write10, mmapfsWrite10, go, getD_none, if_pos start]

section Places

variable {files : List File} {fileBlock : Nat → Nat → Sector} {d : Device}
  {lba index block : Nat} {b : Place}

theorem Device.source_eq : (Device.mmapfs files fileBlock).source lba =
    if lba ≤ directoryLast then some (.system lba)
    else (buildData files (lba % 2 ^ 16)).map fun (index, block) =>
      .file index block := by
  have bounds : ScsiMmapfs.fatFat1First ≤ fatFat1Last ∧
      fatFat1Last ≤ directoryLast := by decide
  rw [source, readSector]
  by_cases system : lba ≤ directoryLast
  · simp only [system, if_true]
    split_ifs <;> rfl
  · rw [if_neg (by omega), if_neg (by omega)]
    simp only [system, if_false]
    cases buildData files (lba % 2 ^ 16) <;> rfl

theorem Device.source_of_target (stored : d.target lba = some b) : d.source lba = some b := by
  cases d with
  | sd card => exact stored
  | mmapfs files fileBlock =>
    rw [target, writeSector] at stored
    split_ifs at stored with system
    · cases stored
    · rwa [source_eq, if_neg system]

theorem Device.home_of_source (inside : lba < d.size) (straight : d.Straight lba)
    (read : d.source lba = some b) : d.home lba = some b := by
  cases d with
  | sd card => rwa [source, card.blockAt_la inside] at read
  | mmapfs files fileBlock =>
    rw [source_eq] at read
    rw [home]
    split_ifs at read ⊢ with system
    · exact read
    · have low : lba < 2 ^ 16 := by
        by_contra high
        rw [straight (Nat.le_of_not_lt high)] at read
        cases read
      rw [Nat.mod_eq_of_lt low, buildData, Option.map_map] at read
      rw [← read]
      congr 1
      funext p
      rw [Function.comp_apply, Nat.mod_eq_of_lt (by omega)]

/-- A block of a file belongs to one sector only. -/
theorem Device.home_unique (data : buildData files (lba % 2 ^ 16) = some (index, block))
    {j} (belongs : (Device.mmapfs files fileBlock).home j = some (.file index block)) :
    j = lba % 2 ^ 16 := by
  rw [home] at belongs
  split_ifs at belongs with system
  · cases belongs
  obtain ⟨p, found, same⟩ := map_eq_some_iff.mp belongs
  obtain ⟨p', found', same'⟩ := map_eq_some_iff.mp data
  obtain ⟨index_eq, block_eq⟩ := Place.file.inj same
  obtain ⟨index_eq', block_eq'⟩ := Prod.mk.inj same'
  have spans := find?_some found
  have spans' := find?_some found'
  simp only [decide_eq_true_eq] at spans spans'
  obtain rfl : p = p' := ScsiMmapfs.placed_unique (mem_of_find?_eq_some found)
    (mem_of_find?_eq_some found') (index_eq.trans index_eq'.symm)
  omega

theorem Device.stored_iff (inside : lba < d.size) :
    d.Stored lba ↔ ∃ b, d.target lba = some b ∧ d.home lba = some b := by
  cases d with
  | sd card =>
    refine iff_of_true trivial ⟨_, rfl, ?_⟩
    rw [card.blockAt_la inside]
    rfl
  | mmapfs files fileBlock =>
    constructor
    · rintro ⟨low, found⟩
      obtain ⟨place, found⟩ := isSome_iff_exists.mp found
      have stored : (Device.mmapfs files fileBlock).target lba = _ := congrArg (Option.map _) found
      exact ⟨_, stored, home_of_source inside (fun high => absurd low (Nat.not_lt.mpr high))
        (source_of_target stored)⟩
    · rintro ⟨b, stored, belongs⟩
      rw [target, writeSector] at stored
      split_ifs at stored with system
      · cases stored
      · obtain ⟨⟨index, block⟩, data, rfl⟩ := map_eq_some_iff.mp stored
        have low := home_unique data belongs
        refine ⟨by omega, ?_⟩
        rw [writeSector, if_neg system, data]
        rfl

end Places

end Scsi
