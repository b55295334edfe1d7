import OpenLab.UsbMsc

/-!
# Which commands have defined results

`usb_msc_scsi_handler` reads `status`, and `datalen` after a good call with a data phase; both
have no initial value. When has the handler of each entry of `scsi_cdb_list` assigned them, and
read `scsi_lun` only inside the array?
-/

namespace UsbMsc

open Scsi Option

structure Sound (transfer : Nat) (r : Result) : Prop where
  status_assigned : r.status ≠ none
  datalen_assigned : r.status = some .good → 0 < transfer → r.datalen ≠ none
  datalen_le : ∀ n ∈ r.datalen, n ≤ bufferSize

structure Defined (cfg : Config) (transfer : Nat) (r : Result) : Prop where
  lun_inside : ∀ i ∈ r.indexed, i ≤ cfg.maxLun
  sound : Sound transfer r

/-- A read of no block from the virtual volume, which returns the room as the length. -/
def Oversized (lun : Lun) (p : Params) : Prop :=
  lun.read10 = true ∧ (∃ files fileBlock, lun.device = .mmapfs files fileBlock) ∧
    p.refused ScsiMmapfs.lunSize = none ∧ cdbLength p.cmd = 0 ∧ bufferSize < p.datamax

/-- A write that is accepted by a call with `cont = 0`. -/
def Started (lun : Lun) (transfer : Nat) (p : Params) : Prop :=
  lun.write10 = true ∧ p.refused lun.device.size = none ∧ p.cont = 0 ∧ 0 < transfer

def Handled (cfg : Config) (transfer : Nat) (p : Params) : Prop :=
  match cdbOp p.cmd with
  | some .inquiry | some .requestSense | some .modeSense6 | none => True
  | some .readCapacity10 => p.lun.toNat ≤ cfg.maxLun
  | some .read10 => p.lun.toNat ≤ cfg.maxLun ∧ ¬ Oversized (cfg.lun p.lun) p
  | some .write10 => p.lun.toNat ≤ cfg.maxLun ∧ ¬ Started (cfg.lun p.lun) transfer p
  | some .testUnitReady | some .modeSelect6 | some .startStop
  | some .preventAllowMediumRemoval | some .readFormatCapacities => False

variable {cfg : Config} {transfer : Nat} {p : Params} {fault : Bool} {r : Result}

theorem sound_check (status : r.status = some .checkCondition)
    (small : ∀ n ∈ r.datalen, n ≤ bufferSize) : Sound transfer r := by
  constructor
  · rw [status]
    exact some_ne_none _
  · intro good
    rw [status] at good
    cases good
  · exact small

theorem sound_assigned {n} {st} (status : r.status = some st)
    (len : r.datalen = some n) (small : n ≤ bufferSize) : Sound transfer r := by
  constructor
  · rw [status]
    exact some_ne_none _
  · intro _ _
    rw [len]
    exact some_ne_none _
  · intro m hm
    obtain rfl : n = m := by simpa [len] using hm
    exact small

theorem defined_of_sound (none_read : r.indexed = []) (sound : Sound transfer r) :
    Defined cfg transfer r := by
  refine ⟨?_, sound⟩
  intro i hi
  rw [none_read] at hi
  cases hi

theorem modeSense6_defined : Defined cfg transfer (cmdModeSense6 p) := by
  unfold cmdModeSense6
  dsimp only
  split
  · exact defined_of_sound rfl (sound_assigned rfl rfl (by decide))
  · split
    · exact defined_of_sound rfl (sound_assigned rfl rfl (by decide))
    · split
      · exact defined_of_sound rfl (sound_assigned rfl rfl (by decide))
      · exact defined_of_sound rfl (sound_check rfl (fun _ hn => nomatch hn))

theorem requestSense_defined : Defined cfg transfer (cmdRequestSense p) := by
  unfold cmdRequestSense
  split <;> exact defined_of_sound rfl (sound_assigned rfl rfl (by decide))

theorem leave_undefined {ret} : ¬ Defined cfg transfer (p.leave ret) := fun defined =>
  defined.sound.status_assigned rfl

theorem readFormatCapacities_undefined : ¬ Defined cfg transfer (cmdReadFormatCapacities p) := by
  unfold cmdReadFormatCapacities
  dsimp only
  split <;> exact leave_undefined

theorem refused_sound {size} (h : p.refused size = some r) : Sound transfer r := by
  unfold Params.refused at h
  split at h
  · cases h
    exact sound_check rfl (fun _ hn => nomatch hn)
  · split at h
    · cases h
      exact sound_check rfl (fun _ hn => nomatch hn)
    · cases h

theorem advance_sound {lba nblocks} (small : nblocks = 0 → ∀ n ∈ r.datalen, n ≤ bufferSize) :
    Sound transfer (r.advance lba nblocks) := by
  match nblocks with
  | 0 => exact sound_check rfl (small rfl)
  | 1 => exact sound_assigned rfl rfl (by decide)
  | m + 2 => exact sound_assigned rfl rfl (by decide)

theorem fault_sound : Sound transfer ((p.leave .done).assign .checkCondition) :=
  sound_check rfl (fun _ hn => nomatch hn)

theorem sdRead10_sound (card : SdCard) : Sound transfer (sdRead10 card fault p) := by
  unfold sdRead10
  cases h : p.refused card.size with
  | some r => exact refused_sound h
  | none =>
    split
    · exact fault_sound
    · exact advance_sound (fun _ _ hn => nomatch hn)

theorem mmapfsRead10_sound_iff (files : List ScsiMmapfs.File)
    (fileBlock : Nat → Nat → ScsiMmapfs.Sector) :
    Sound transfer (mmapfsRead10 files fileBlock p) ↔
      ¬ (p.refused ScsiMmapfs.lunSize = none ∧ cdbLength p.cmd = 0 ∧ bufferSize < p.datamax) := by
  unfold mmapfsRead10
  cases h : p.refused ScsiMmapfs.lunSize with
  | some r =>
    simp [refused_sound h]
  | none =>
    constructor
    · rintro sound ⟨-, empty, large⟩
      rw [empty] at sound
      exact absurd (sound.datalen_le p.datamax rfl) (Nat.not_le.mpr large)
    · intro room
      refine advance_sound ?_
      intro empty n hn
      obtain rfl : p.datamax = n := some.inj hn
      exact Nat.not_lt.mp fun large => room ⟨rfl, empty, large⟩

theorem read10_sound_iff (lun : Lun) :
    Sound transfer (if lun.read10 then lun.device.read10 fault p
      else ((p.leave .done).assignLen 0).assign .checkCondition) ↔ ¬ Oversized lun p := by
  cases hr : lun.read10 with
  | false =>
    refine iff_of_true (sound_assigned rfl rfl (Nat.zero_le _)) ?_
    rintro ⟨yes, -⟩
    rw [hr] at yes
    cases yes
  | true =>
    rw [if_pos rfl]
    cases hd : lun.device with
    | sd card =>
      refine iff_of_true (sdRead10_sound card) ?_
      rintro ⟨-, ⟨files, fileBlock, other⟩, -⟩
      rw [hd] at other
      cases other
    | mmapfs files fileBlock =>
      refine (mmapfsRead10_sound_iff files fileBlock).trans (not_congr ?_)
      exact ⟨fun large => ⟨hr, ⟨files, fileBlock, hd⟩, large⟩, fun large => large.2.2⟩

theorem start_sound_iff {size} {rest} (later : Sound transfer rest) :
    Sound transfer ((p.refused size).getD
        (if p.cont = 0 then (p.leave .partly).assign .good else rest)) ↔
      ¬ (p.refused size = none ∧ p.cont = 0 ∧ 0 < transfer) := by
  cases h : p.refused size with
  | some r =>
    simp [refused_sound h]
  | none =>
    by_cases first : p.cont = 0
    · rw [if_pos first]
      constructor
      · rintro sound ⟨-, -, data⟩
        exact sound.datalen_assigned rfl data rfl
      · intro dataless
        have nothing : ¬ 0 < transfer := fun data => dataless ⟨rfl, first, data⟩
        exact ⟨some_ne_none _, fun _ data => absurd data nothing, fun _ hn => nomatch hn⟩
    · rw [if_neg first]
      exact iff_of_true later fun start => first start.2.1

theorem device_write10_sound_iff (d : Device) :
    Sound transfer (d.write10 fault p) ↔
      ¬ (p.refused d.size = none ∧ p.cont = 0 ∧ 0 < transfer) := by
  cases d with
  | sd card =>
    refine start_sound_iff ?_
    split
    · exact fault_sound
    · exact advance_sound (by simp [Params.leave])
  | mmapfs files fileBlock =>
    rw [Device.write10, mmapfsWrite10, Device.size]
    exact start_sound_iff (advance_sound (by simp [(mmapfsStore_spec files fileBlock p).1]))

theorem write10_sound_iff (lun : Lun) :
    Sound transfer (if lun.write10 then lun.device.write10 fault p
      else ((p.leave .done).assignLen 0).assign .checkCondition) ↔ ¬ Started lun transfer p := by
  cases hw : lun.write10 with
  | false =>
    refine iff_of_true (sound_assigned rfl rfl (Nat.zero_le _)) ?_
    rintro ⟨yes, -⟩
    rw [hw] at yes
    cases yes
  | true =>
    refine (device_write10_sound_iff lun.device).trans (not_congr ?_)
    exact ⟨fun start => ⟨hw, start⟩, fun start => start.2⟩

theorem defined_indexed_iff : Defined cfg transfer { r with indexed := [p.lun.toNat] } ↔
      p.lun.toNat ≤ cfg.maxLun ∧ Sound transfer r := by
  constructor
  · rintro ⟨inside, sound⟩
    exact ⟨inside _ List.mem_cons_self, ⟨sound.1, sound.2, sound.3⟩⟩
  · rintro ⟨inside, sound⟩
    refine ⟨?_, ⟨sound.1, sound.2, sound.3⟩⟩
    intro i hi
    rw [List.mem_singleton.mp hi]
    exact inside

theorem processCommand_defined_iff :
    Defined cfg transfer (processCommand cfg fault p) ↔ Handled cfg transfer p := by
  unfold processCommand Handled
  cases cdbOp p.cmd with
  | none => exact iff_of_true (defined_of_sound rfl (sound_assigned rfl rfl (by decide))) trivial
  | some op =>
    cases op with
    | inquiry =>
      exact iff_of_true (defined_of_sound rfl (sound_assigned rfl rfl (by decide))) trivial
    | requestSense => exact iff_of_true requestSense_defined trivial
    | modeSense6 => exact iff_of_true modeSense6_defined trivial
    | readCapacity10 =>
      refine defined_indexed_iff.trans ?_
      exact and_iff_left (sound_assigned rfl rfl (by decide))
    | read10 => exact defined_indexed_iff.trans (and_congr_right fun _ => read10_sound_iff _)
    | write10 => exact defined_indexed_iff.trans (and_congr_right fun _ => write10_sound_iff _)
    | readFormatCapacities => exact iff_of_false readFormatCapacities_undefined id
    | testUnitReady | modeSelect6 | startStop | preventAllowMediumRemoval =>
      exact iff_of_false leave_undefined id

/-- The call that `usb_msc_scsi_handler` makes. -/
def scsiCall (cfg : Config) (fault firstcall : Bool) (s : Sys) : Result :=
  processCommand cfg fault (scsiParams (count firstcall s))

/-- In every state of the transport, with any command in `cbw`, on any array of units and in a
first or a later call, the results are defined exactly for the commands in `Handled`. -/
theorem scsi_call_defined_iff (cfg : Config) (fault firstcall : Bool) (s : Sys) :
    Defined cfg s.cbw.dataTransferLength (scsiCall cfg fault firstcall s) ↔
      Handled cfg s.cbw.dataTransferLength (scsiParams (count firstcall s)) :=
  processCommand_defined_iff

def oneCard : Config where
  luns := [⟨.sd ⟨1024, true, fun _ => ScsiMmapfs.zeros, by decide, by decide⟩, true, true, true⟩]
  beyond := fun _ => ⟨.mmapfs [] fun _ _ => ScsiMmapfs.zeros, false, false, false⟩
  vendor := []
  product := []
  rev := []
  some_lun := List.cons_ne_nil _ _

def wrapper (length : Nat) (flags lun : UInt8) (cmd : List UInt8) : List UInt8 :=
  ByteFields.leBytes 4 cbwSignature ++ ByteFields.leBytes 4 7 ++ ByteFields.leBytes 4 length ++
    [flags, lun, 16] ++ cmd ++ List.replicate (16 - cmd.length) 0

theorem reached_by (packet : List UInt8) (P : Sys → Prop) [DecidablePred P]
    (h : (Schedules.exec (step oneCard) init [.out packet]).map (fun s => decide (P s)) =
      some true) : ∃ s, Schedules.Reach (step oneCard) init s ∧ P s := by
  obtain ⟨s, run, holds⟩ := Schedules.exec_observe _ _ _ h
  exact ⟨s, run, of_decide_eq_true holds⟩

/-- After TEST UNIT READY the status is undefined, READ CAPACITY for the unit 1 reads behind
the array, and the first call of a WRITE(10) leaves its length undefined. -/
theorem test_unit_ready_undefined :
    (∃ s, Schedules.Reach (step oneCard) init s ∧ s.state = .ready ∧
      (scsiCall oneCard false true s).status = none) ∧
    (∃ s, Schedules.Reach (step oneCard) init s ∧ s.state = .ready ∧
      (scsiCall oneCard false true s).indexed = [1] ∧ oneCard.maxLun = 0) ∧
    (∃ s, Schedules.Reach (step oneCard) init s ∧ s.state = .ready ∧
      0 < s.cbw.dataTransferLength ∧ (scsiCall oneCard false true s).status = some .good ∧
      (scsiCall oneCard false true s).datalen = none) := by
  refine ⟨?_, ?_, ?_⟩
  · exact reached_by (wrapper 0 0 0 [0x00]) (fun s => s.state = .ready ∧
      (scsiCall oneCard false true s).status = none) (by decide +kernel)
  · exact reached_by (wrapper 8 0x80 1 [0x25]) (fun s => s.state = .ready ∧
      (scsiCall oneCard false true s).indexed = [1] ∧ oneCard.maxLun = 0) (by decide +kernel)
  · exact reached_by (wrapper 512 0 0 [0x2a, 0, 0, 0, 0, 5, 0, 0, 1]) (fun s => s.state = .ready ∧
      0 < s.cbw.dataTransferLength ∧ (scsiCall oneCard false true s).status = some .good ∧
      (scsiCall oneCard false true s).datalen = none) (by decide +kernel)

end UsbMsc
