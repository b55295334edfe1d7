import OpenLab.Schedules
import OpenLab.Scsi

/-!
# The bulk-only transport

`msc.c`: the interrupts `usb_msc_data_in` and `usb_msc_data_out` post events, and
`usb_msc_ev_handler` runs later, once for each, on whatever state it finds. An endpoint has room
for one packet: the OUT packet stays until the next one overwrites it, the IN packet is taken by
the host before the interrupt. `MSC_BUFFER_COUNT` is 1, so the read and the write buffer are the
same. The event queue is not full.
-/

namespace UsbMsc

open Scsi ScsiMmapfs
open ByteFields (slice length_slice)

def bufferSize : Nat := 512
def endpointSize : Nat := 64

def cbwSignature : Nat := 0x43425355
def cswSignature : Nat := 0x53425355

structure Cbw where
  signature : Nat
  tag : Nat
  dataTransferLength : Nat
  flags : UInt8
  lun : UInt8
  cb : Sector

def cbwSize : Nat := 31

def byteAt (packet : List UInt8) (i : Nat) : UInt8 := packet.getD i 0

def wordAt (packet : List UInt8) (i : Nat) : Nat :=
  ByteFields.leValue [byteAt packet i, byteAt packet (i + 1), byteAt packet (i + 2),
    byteAt packet (i + 3)]

def Cbw.ofBytes (packet : List UInt8) : Cbw where
  signature := wordAt packet 0
  tag := wordAt packet 4
  dataTransferLength := wordAt packet 8
  flags := byteAt packet 12
  lun := byteAt packet 13
  cb := fun i => byteAt packet (15 + i)

inductive CswStatus
  | passed | failed
  deriving DecidableEq

def CswStatus.code : CswStatus → UInt8
  | .passed => 0x00
  | .failed => 0x01

def csw (tag : Nat) (status : CswStatus) : List UInt8 :=
  ByteFields.leBytes 4 cswSignature ++ ByteFields.leBytes 4 tag ++ ByteFields.leBytes 4 0 ++
    [status.code]

def cswSize : Nat := 13

inductive MscState
  | none | ready | dataIn | dataOut | status | statusSent
  deriving DecidableEq

inductive Event
  | ev | evIn | evOut
  deriving DecidableEq

/-- What `usb_recv_set_status` sets; the endpoint itself goes to `nak` with a packet. -/
inductive RxStat
  | valid | nak | stall
  deriving DecidableEq

structure Buff where
  data : Sector
  idx : Nat
  len : Nat

/-- The variables of `msc.c` with the event queue, the endpoints and two records of the
host: the packets it has `sent` and `received`. `overrun` is set when a packet is written
over one that waits, and `written` lists what is stored on the medium. -/
structure Sys where
  state : MscState
  cbw : Cbw
  cswStatus : CswStatus
  cnum : UInt8
  buff : Buff
  events : List Event
  outPacket : List UInt8
  outStat : RxStat
  inPacket : Option (List UInt8)
  overrun : Bool
  halted : Bool
  sent : List (List UInt8)
  received : List (List UInt8)
  written : List (Place × List UInt8)

/-- What a call finds outside: whether the medium fails, and the values that `status` and
`datalen` happen to have when nothing is assigned to them. -/
structure Env where
  fault : Bool
  status : Status
  datalen : Nat

variable (cfg : Config)

def usbMscCloseReadBuff (s : Sys) : Sys :=
  if s.buff.len ≠ 0 then s else { s with buff := ⟨s.buff.data, 0, 0⟩ }

def usbMscCloseWriteBuff (length : Nat) (s : Sys) : Sys :=
  if s.buff.len ≠ 0 then s else { s with buff := ⟨s.buff.data, 0, length % 2 ^ 16⟩ }

def usbSend (packet : List UInt8) (s : Sys) : Sys :=
  { s with inPacket := some packet, overrun := s.overrun || s.inPacket.isSome }

def usbMscSendDataToEndpoint (s : Sys) : Bool × Sys :=
  if s.buff.len = 0 then (true, s)
  else
    let len := min s.buff.len endpointSize
    let s := usbSend (slice s.buff.data s.buff.idx len) s
    let s := { s with buff := ⟨s.buff.data, (s.buff.idx + len) % 2 ^ 16, s.buff.len - len⟩ }
    if s.buff.len = 0 then (true, usbMscCloseReadBuff s) else (false, s)

/-- Returns true when the buffer is full or the packet is a short one. -/
def usbMscReadDataFromEndpoint (s : Sys) : Bool × Sys :=
  if s.buff.idx = bufferSize then (true, s)
  else
    let blen := (bufferSize + 2 ^ 16 - s.buff.idx) % 2 ^ 16
    let rlen := min s.outPacket.length blen
    let s := { s with
      buff := ⟨store s.buff.data s.buff.idx (s.outPacket.take rlen), (s.buff.idx + rlen) % 2 ^ 16,
        s.buff.len⟩
      outStat := .valid }
    if s.buff.idx = bufferSize ∨ rlen < endpointSize then
      (true, usbMscCloseWriteBuff s.buff.idx s)
    else (false, s)

/-- `usb_msc_build_csw`, the closing of the buffer and its transmission. -/
def sendCsw (s : Sys) : Sys :=
  let s := { s with buff := ⟨store s.buff.data 0 (csw s.cbw.tag s.cswStatus),
    s.buff.idx, s.buff.len⟩ }
  (usbMscSendDataToEndpoint (usbMscCloseWriteBuff cswSize s)).2

/-- `usb_msc_build_scsi_params`: outside of DATA_OUT the whole buffer is free. -/
def scsiParams (s : Sys) : Params where
  cont := s.cnum
  lun := s.cbw.lun
  cmd := s.cbw.cb
  data := s.buff.data
  datamax := if s.state = .dataOut then s.buff.len else bufferSize

def count (firstcall : Bool) (s : Sys) : Sys :=
  { s with cnum := if firstcall then 0 else s.cnum + 1 }

def goodIn (ret : CmdRet) (datalen : Nat) (s : Sys) : Nat × Sys :=
  let s := { s with cswStatus := .passed, state := .dataIn }
  let datalen := if s.cbw.dataTransferLength < datalen then s.cbw.dataTransferLength else datalen
  let total :=
    if datalen < s.cbw.dataTransferLength ∧ ret ≠ .partly then datalen
    else s.cbw.dataTransferLength
  let s := { s with cbw := { s.cbw with dataTransferLength := total - datalen } }
  (datalen, usbMscCloseWriteBuff datalen s)

def goodOut (datalen : Nat) (s : Sys) : Sys :=
  if s.state ≠ .dataOut then { s with cswStatus := .passed, state := .dataOut }
  else
    let total := if datalen ≠ s.buff.len then datalen else s.cbw.dataTransferLength
    let s := usbMscCloseReadBuff { s with buff := ⟨s.buff.data, s.buff.idx, 0⟩ }
    let left := (total + 2 ^ 32 - datalen) % 2 ^ 32
    let s := { s with cbw := { s.cbw with dataTransferLength := left }, cswStatus := .passed }
    if left = 0 then sendCsw { s with state := .statusSent } else { s with state := .dataOut }

/-- What is done with the results of a command; returns `handler_ret`. -/
def conclude (env : Env) (r : Result) (s : Sys) : Nat × Sys :=
  let s := { s with
    cbw := { s.cbw with cb := r.cmd }
    buff := ⟨r.data, s.buff.idx, s.buff.len⟩
    written := s.written ++ r.written }
  let datalen := r.datalen.getD (env.datalen % 2 ^ 32)
  if r.status.getD env.status = .good then
    if 0 < s.cbw.dataTransferLength then
      if s.cbw.flags &&& 0x80 ≠ 0 then goodIn r.ret datalen s else (0, goodOut datalen s)
    else (0, sendCsw { s with cswStatus := .passed, state := .statusSent })
  else (0, { s with cswStatus := .failed, state := .status, events := s.events ++ [.ev] })

def usbMscScsiHandler (env : Env) (firstcall : Bool) (s : Sys) : Nat × Sys :=
  conclude env (processCommand cfg env.fault (scsiParams (count firstcall s))) (count firstcall s)

def usbMscEvHandler (env : Env) (s : Sys) : Sys :=
  match s.state with
  | .none => s
  | .ready =>
    let (ret, s) := usbMscScsiHandler cfg env true s
    if ret ≠ 0 then
      let (sent, s) := usbMscSendDataToEndpoint s
      if sent then { s with state := .status } else s
    else s
  | .dataIn =>
    let (sent, s) := usbMscSendDataToEndpoint s
    if sent then
      if 0 < s.cbw.dataTransferLength then (usbMscScsiHandler cfg env false s).2
      else { s with state := .status }
    else s
  | .dataOut =>
    let (full, s) := usbMscReadDataFromEndpoint s
    if full then (usbMscScsiHandler cfg env false s).2 else s
  | .status => sendCsw { s with state := .statusSent }
  | .statusSent => { s with state := .none }

def usbMscDataIn (s : Sys) : Sys := { s with events := s.events ++ [.evIn] }

def usbMscDataOut (s : Sys) : Sys :=
  match s.state with
  | .none | .status | .statusSent =>
    if s.outPacket.length = cbwSize then
      let s := { s with cbw := Cbw.ofBytes s.outPacket }
      if s.cbw.signature = cbwSignature then
        { s with state := .ready, events := s.events ++ [.evOut], outStat := .valid }
      else { s with outStat := .stall }
    else { s with outStat := .stall }
  | .ready | .dataOut => { s with events := s.events ++ [.evOut] }
  | .dataIn => { s with state := .none, outStat := .stall, halted := true }

inductive Action
  | out (packet : List UInt8)
  | take
  | event (env : Env)

def step (s : Sys) : Action → Option Sys
  | .out packet =>
    if s.halted = false ∧ s.outStat = .valid then
      some (usbMscDataOut { s with
        outPacket := packet, outStat := .nak, sent := s.sent ++ [packet] })
    else none
  | .take =>
    match s.inPacket with
    | some packet =>
      if s.halted = false then
        some (usbMscDataIn { s with inPacket := none, received := s.received ++ [packet] })
      else none
    | none => none
  | .event env =>
    match s.events with
    | _ :: rest =>
      if s.halted = false then some (usbMscEvHandler cfg env { s with events := rest }) else none
    | [] => none

def init : Sys where
  state := .none
  cbw := ⟨0, 0, 0, 0, 0, zeros⟩
  cswStatus := .passed
  cnum := 0
  buff := ⟨zeros, 0, 0⟩
  events := []
  outPacket := []
  outStat := .valid
  inPacket := none
  overrun := false
  halted := false
  sent := []
  received := []
  written := []

section Helpers

variable {s : Sys}

theorem send_more (more : endpointSize < s.buff.len) (room : s.buff.idx + endpointSize < 2 ^ 16) :
    usbMscSendDataToEndpoint s = (false,
      { usbSend (slice s.buff.data s.buff.idx endpointSize) s with
        buff := ⟨s.buff.data, s.buff.idx + endpointSize, s.buff.len - endpointSize⟩ }) := by
  have some_left : s.buff.len ≠ 0 := by omega
  have full : min s.buff.len endpointSize = endpointSize := by omega
  have rest : s.buff.len - endpointSize ≠ 0 := by omega
  simp only [usbMscSendDataToEndpoint, if_neg some_left, full, usbSend, if_neg rest,
    Nat.mod_eq_of_lt room]

theorem send_last (some_left : s.buff.len ≠ 0) (last : s.buff.len ≤ endpointSize) :
    usbMscSendDataToEndpoint s = (true,
      { usbSend (slice s.buff.data s.buff.idx s.buff.len) s with
        buff := ⟨s.buff.data, 0, 0⟩ }) := by
  have all : min s.buff.len endpointSize = s.buff.len := Nat.min_eq_left last
  simp [usbMscSendDataToEndpoint, some_left, all, usbSend, usbMscCloseReadBuff]

theorem length_csw (tag : Nat) (status : CswStatus) : (csw tag status).length = cswSize := by
  simp [csw, cswSize]

theorem slice_store (data : Sector) (idx : Nat) (bytes : List UInt8) :
    slice (store data idx bytes) idx bytes.length = bytes := by
  apply List.ext_getElem
  · exact length_slice _ _ _
  · intro i h1 h2
    simp [slice, store, h2]

theorem sendCsw_empty (empty : s.buff.len = 0) :
    sendCsw s = { usbSend (csw s.cbw.tag s.cswStatus) s with
      buff := ⟨store s.buff.data 0 (csw s.cbw.tag s.cswStatus), 0, 0⟩ } := by
  have packet := slice_store s.buff.data 0 (csw s.cbw.tag s.cswStatus)
  rw [length_csw] at packet
  have size : cswSize % 2 ^ 16 = cswSize := rfl
  simp only [sendCsw, usbMscCloseWriteBuff, empty, ne_eq, not_true_eq_false, if_false, size]
  rw [send_last (show cswSize ≠ 0 by decide) (show cswSize ≤ endpointSize by decide)]
  simp [packet, usbSend]

theorem read_more (packet : s.outPacket.length = endpointSize)
    (more : s.buff.idx + endpointSize < bufferSize) :
    usbMscReadDataFromEndpoint s = (false, { s with
      buff := ⟨store s.buff.data s.buff.idx s.outPacket, s.buff.idx + endpointSize, s.buff.len⟩
      outStat := .valid }) := by
  unfold endpointSize bufferSize at more
  have blen : (bufferSize + 2 ^ 16 - s.buff.idx) % 2 ^ 16 = bufferSize - s.buff.idx := by
    unfold bufferSize
    omega
  have rlen : min s.outPacket.length (bufferSize - s.buff.idx) = endpointSize := by
    rw [packet]
    unfold endpointSize bufferSize
    omega
  have idx : (s.buff.idx + endpointSize) % 2 ^ 16 = s.buff.idx + endpointSize := by
    unfold endpointSize
    omega
  have room : s.buff.idx ≠ bufferSize := by
    unfold bufferSize
    omega
  have open_still : ¬ (s.buff.idx + endpointSize = bufferSize ∨ endpointSize < endpointSize) := by
    unfold endpointSize bufferSize
    omega
  have whole : s.outPacket.take endpointSize = s.outPacket := List.take_of_length_le packet.le
  simp only [usbMscReadDataFromEndpoint, if_neg room, blen, rlen, idx, whole, if_neg open_still]

theorem read_last (packet : s.outPacket.length = endpointSize)
    (last : s.buff.idx + endpointSize = bufferSize) (empty : s.buff.len = 0) :
    usbMscReadDataFromEndpoint s = (true, { s with
      buff := ⟨store s.buff.data s.buff.idx s.outPacket, 0, bufferSize⟩
      outStat := .valid }) := by
  unfold endpointSize bufferSize at last
  have blen : (bufferSize + 2 ^ 16 - s.buff.idx) % 2 ^ 16 = endpointSize := by
    unfold bufferSize endpointSize
    omega
  have rlen : min s.outPacket.length endpointSize = endpointSize := by rw [packet, Nat.min_self]
  have idx : (s.buff.idx + endpointSize) % 2 ^ 16 = bufferSize := by
    unfold endpointSize bufferSize
    omega
  have room : s.buff.idx ≠ bufferSize := by
    unfold bufferSize
    omega
  have whole : s.outPacket.take endpointSize = s.outPacket := List.take_of_length_le packet.le
  have size : bufferSize % 2 ^ 16 = bufferSize := rfl
  simp only [usbMscReadDataFromEndpoint, if_neg room, blen, rlen, idx, whole, true_or, if_true,
    usbMscCloseWriteBuff, empty, ne_eq, not_true_eq_false, if_false, size]

end Helpers

end UsbMsc
