import OpenLab.TdmaTypes
import OpenLab.LinkedCells

/-!
# One TDMA device: state, frame pool and slot table

`Device` holds the static data of `frame.c`, `slot.c`, `node.c` and `coord.c` and what runs them:
timers, event queues, the network task, the PHY and the calls in progress. Below are the bodies of
`frame.c` and the table and timing parts of `slot.c`; the ghost record only observes.
-/

namespace TdmaCore

open TdmaTypes LinkedCells

inductive AppliEvent
  | nodeTimeout
  | scanStart
  | nodeBeacon (frame : FrameId)
  | dataTx (frame : FrameId)
  | dataRx (frame : FrameId)
  | beaconTick
  | coordAssoc (frame : FrameId)
  deriving DecidableEq

/-- What an application handler still has to do after it released the mutex. -/
inductive Running
  | postScan
  | finishTx (next : Option FrameId) (ticket : Nat) (cb : Option Nat) (arg : Nat)
      (res : TdmaResult)
  deriving DecidableEq

inductive PhyKind
  | tx
  | rx
  | scan
  deriving DecidableEq

/-- An accepted `phy_tx` or `phy_rx` whose completion has not been reported. -/
structure PhyOp where
  kind : PhyKind
  frame : FrameId
  deriving DecidableEq

/-- A handler the network task has entered and in which it waits for the mutex. -/
inductive NetCall
  | slot
  | done (op : PhyOp) (ok : Bool)
  deriving DecidableEq

structure SendReq where
  length : UInt16
  data : Nat → UInt8
  dst : UInt16
  cb : Option Nat
  arg : Nat

/-- A `mac_tdma_send` call between its two critical sections. -/
structure Send where
  frame : FrameId
  req : SendReq
  filled : Bool

/-- One call of `phy_tx`, with the beacon table as `beacon_prepare` last read it. -/
structure TxStart where
  frame : FrameId
  ticket : Nat
  slot : UInt8
  slotTime : UInt32
  ok : Bool
  pkt : Packet
  prepared : Nat → UInt16

structure Report where
  ticket : Nat
  cb : Option Nat
  arg : Nat
  result : TdmaResult
  deriving DecidableEq

structure Delivery where
  src : UInt16
  length : UInt16
  data : Nat → UInt8

/-- Observations. `accepted` lists the accepted requests in order, a request is known
by its position, and `ticket f` is the one frame `f` was last accepted with. -/
structure Ghost where
  ticket : FrameId → Nat
  accepted : List SendReq
  txOk : List Nat
  txLog : List TxStart
  reports : List Report
  deliveries : List Delivery
  prepared : Nat → UInt16

structure Device where
  tdma : Tdma
  sf : SlotsFrame
  heap : FrameId → Frame
  frames : Option FrameId
  nbFrames : Nat
  slotsframeIsStatic : Bool
  slotTimer : Bool
  timeoutTimer : Bool
  beaconTimer : Bool
  slotEvents : Nat
  net : Option NetCall
  phy : Option PhyOp
  appli : List AppliEvent
  running : Option Running
  sends : List Send
  ghost : Ghost

/-- Answers of the hardware and of the packet pool to one handler. -/
structure Oracle where
  phyOk : Bool
  now : UInt32
  later : UInt32
  packetFree : Bool

theorem update_proj {β : Type} {heap : FrameId → Frame} {f a : FrameId} {fr : Frame}
    (proj : Frame → β) (h : proj fr = proj (heap f)) :
    proj (Function.update heap f fr a) = proj (heap a) := by
  by_cases ha : a = f
  · subst ha
    rw [Function.update_self, h]
  · rw [Function.update_of_ne ha]

namespace Device

def next (d : Device) (f : FrameId) : Option FrameId := (d.heap f).next

def update (d : Device) (f : FrameId) (g : Frame → Frame) : Device :=
  { d with heap := Function.update d.heap f (g (d.heap f)) }

def eventPost (d : Device) (e : AppliEvent) : Device := { d with appli := d.appli ++ [e] }

/-- `phy_sleep`, `phy_idle` and `phy_reset` cancel the operation in progress. -/
def phyStop (d : Device) : Device := { d with phy := none }

def framePrepare (d : Device) (f : FrameId) : Device :=
  d.update f fun fr => { fr with next := none, cb := none, arg := 0, status := .idle }

def setStatus (d : Device) (f : FrameId) (s : TdmaStatus) : Device :=
  d.update f fun fr => { fr with status := s }

def setNext (d : Device) (f : FrameId) (n : Option FrameId) : Device :=
  d.update f fun fr => { fr with next := n }

def setPkt (d : Device) (f : FrameId) (p : Packet) : Device :=
  d.update f fun fr => { fr with pkt := p }

theorem heap_update_of_ne (d : Device) {f a} (h : a ≠ f) (g : Frame → Frame) :
    (d.update f g).heap a = d.heap a :=
  Function.update_of_ne h _ _

theorem heap_update_self (d : Device) (f : FrameId) (g : Frame → Frame) :
    (d.update f g).heap f = g (d.heap f) :=
  Function.update_self _ _ _

end Device

/-- `tdma_frame_alloc`: keep at least `rem` frames in the list. -/
def tdmaFrameAlloc (d : Device) (rem : Nat) : Option FrameId × Device :=
  if d.nbFrames ≤ rem then (none, d)
  else match d.frames with
    | none => (none, d)
    | some res =>
      (some res, { d with frames := d.next res, nbFrames := d.nbFrames - 1 }.framePrepare res)

def tdmaFrameFree (d : Device) (f : FrameId) : Device :=
  { (d.setNext f d.frames) with frames := some f, nbFrames := d.nbFrames + 1 }

def frameCount : Nat := macTdmaMaxFrames + 2

/-- `tdma_frame_send`; `none` when there is no transmit slot. -/
def tdmaFrameSend (d : Device) (frame : FrameId) : Option Device :=
  if d.tdma.txSlots = 0 then none
  else
    let d := match d.tdma.txFrames with
      | some f => d.setNext (seek d.next (fun _ => true) frameCount f) (some frame)
      | none => { d with tdma := { d.tdma with txFrames := some frame } }
    some (d.setNext frame none)

/-- `tdma_slot_configure`; callers pass a sum truncated to `uint8_t`. -/
def tdmaSlotConfigure (t : Tdma) (id : UInt8) (owner : UInt16) : Tdma :=
  if tdmaMaxSlots ≤ id.toNat then t
  else
    let prev := t.slots id.toNat
    let txSlots := if owner = t.addr then t.txSlots + 1 else t.txSlots
    let txSlots := if prev = t.addr then txSlots - 1 else txSlots
    { t with txSlots := txSlots, slots := Function.update t.slots id.toNat owner }

def clearSlots (t : Tdma) : Tdma :=
  { t with
    txSlots := 0
    slots := fun i => if i < t.slotCount.toNat then 0 else t.slots i }

def slotOffset (t : Tdma) (index : UInt8) : UInt32 :=
  UInt32.ofNat (softTimerUsToTicks
    (tdmaSlotDurationFactorUs * t.slotDuration.toNat * index.toNat))

/-- `TIME_LT` compares the two times as signed numbers. -/
def timeLt (x y : UInt32) : Bool := x.toInt32 < y.toInt32

/-- The timing part of `tdma_slot_start`. A zero divisor leaves the dividend as
remainder, as the divider of the core does when division traps are off. -/
def slotStartTimes (t : Tdma) (start : UInt32) (o : Oracle) : SlotsFrame :=
  let frameDuration := slotOffset t t.slotCount
  let time := o.now - start
  let time := time - time % frameDuration
  let start := start + time
  let start :=
    if timeLt start (o.later + UInt32.ofNat (softTimerMsToTicks tdmaStartupDelayMs)) then
      start + frameDuration
    else start
  { frameDuration := frameDuration
    frameStart := start
    slotTime := start
    frame := none
    nextIndex := 0
    beaconBackoff := 0 }

/-- The first half of `handle_slot`: next index, frame start and slot time. -/
def slotAdvance (t : Tdma) (sf : SlotsFrame) : SlotsFrame :=
  let sf :=
    if t.slotCount.toNat ≤ 1 + sf.nextIndex.toNat then
      { sf with
        nextIndex := 0
        frameStart := sf.frameStart + sf.frameDuration
        beaconBackoff := if sf.beaconBackoff = 0 then 0 else sf.beaconBackoff - 1 }
    else { sf with nextIndex := sf.nextIndex + 1 }
  { sf with slotTime := slotOffset t sf.nextIndex + sf.frameStart }

/-- `tdma_slot_start`; the first component is false when it returns 1. -/
def tdmaSlotStart (d : Device) (start : UInt32) (o : Oracle) : Bool × Device :=
  if tdmaMaxSlots < d.tdma.slotCount.toNat then (false, d)
  else
    let d := { d with tdma := clearSlots d.tdma }
    let d := { d with sf := slotStartTimes d.tdma start o }
    (true, { d.phyStop with slotTimer := true })

def tdmaSlotUpdateFrameStart (sf : SlotsFrame) (time : UInt32) : SlotsFrame :=
  { sf with frameStart := time }

end TdmaCore
