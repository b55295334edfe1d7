import OpenLab.TdmaHandlers
import OpenLab.Schedules

/-!
# The TDMA device as a step system

One action is one handler body under the TDMA mutex, one stretch of a handler outside it, one
expiry of a timer or one completion of the PHY. A handler of the network task may wait for the
mutex (`net`). Priorities are left open, and an event queue never drops an event.
-/

namespace TdmaDevice

open TdmaTypes TdmaCore TdmaHandlers

def pushFrame (d : Device) (i : Fin macTdmaMaxFrames) : Device :=
  { d.setNext (.pool i) d.frames with frames := some (.pool i) }

def tdmaFrameInit (d : Device) : Device :=
  { (List.finRange macTdmaMaxFrames).foldl pushFrame { d with frames := none } with
    nbFrames := macTdmaMaxFrames }

/-- Zeroed static data. The handler pointers are NULL until a start function sets
them; nothing calls them before. -/
def blank (addr : UInt16) : Device where
  tdma := {
    addr := addr, panid := 0, coord := 0, slotDuration := 0, slotCount := 0, channel := 0
    bandwidth := 0, state := .idle, txFrames := none, beaconFrame := none
    rxHandler := .nodeRx, txHandler := .nodeTx, txSlots := 0, slots := fun _ => 0 }
  sf := {
    frameDuration := 0, frameStart := 0, slotTime := 0, frame := none, nextIndex := 0
    beaconBackoff := 0 }
  heap := fun _ => { status := .idle, next := none, cb := none, arg := 0, pkt := .empty }
  frames := none
  nbFrames := 0
  slotsframeIsStatic := false
  slotTimer := false
  timeoutTimer := false
  beaconTimer := false
  slotEvents := 0
  net := none
  phy := none
  appli := []
  running := none
  sends := []
  ghost := {
    ticket := fun _ => 0, accepted := [], txOk := [], txLog := [], reports := []
    deliveries := [], prepared := fun _ => 0 }

def macTdmaInit (addr : UInt16) : Device := tdmaFrameInit (blank addr)

/-- The address `mac_tdma_init` takes: the one of the platform, or one made of the six
halfwords of the unique identifier. -/
def macTdmaAddr (platformUid : UInt16) (uid16 : Fin 6 → UInt16) : UInt16 :=
  if platformUid = 0x0000 ∨ platformUid = 0xffff then
    let addr := uid16 0 ^^^ uid16 1 ^^^ uid16 2 ^^^ uid16 3 ^^^ uid16 4 ^^^ uid16 5
    if addr = 0x0000 ∨ addr = 0xffff then addr ^^^ 0x00ff else addr
  else platformUid

def ValidAddr (addr : UInt16) : Prop := addr ≠ 0x0000 ∧ addr ≠ 0xffff

theorem validAddr_macTdmaAddr (platformUid : UInt16) (uid16 : Fin 6 → UInt16) :
    ValidAddr (macTdmaAddr platformUid uid16) := by
  unfold macTdmaAddr
  split
  · dsimp only
    generalize uid16 0 ^^^ uid16 1 ^^^ uid16 2 ^^^ uid16 3 ^^^ uid16 4 ^^^ uid16 5 = addr
    split
    · next h =>
      rcases h with rfl | rfl <;> exact ⟨by decide, by decide⟩
    · next h => exact not_or.mp h
  · next h => exact not_or.mp h

structure NodeConfig where
  panid : UInt16
  channel : UInt8
  bandwidth : UInt8

def macTdmaStartNode (d : Device) (cfg : NodeConfig) : Device :=
  if d.tdma.state ≠ .idle then d
  else { d with tdma := { d.tdma with
      coord := 0
      panid := cfg.panid
      channel := cfg.channel
      bandwidth := cfg.bandwidth
      beaconFrame := none
      state := .scan
      rxHandler := .nodeRx
      txHandler := .nodeTx } }.eventPost .scanStart

structure CoordConfig where
  panid : UInt16
  slotDuration : UInt8
  slotCount : UInt8
  channel : UInt8
  slotsframe : Option (Nat → UInt16)

/-- The loop over slots 1 to `k` of a static slots-frame. -/
def configureStatic (owners : Nat → UInt16) : Nat → Tdma → Tdma
  | 0, t => t
  | k + 1, t => tdmaSlotConfigure (configureStatic owners k t) (UInt8.ofNat (k + 1))
      (owners (k + 1))

def broadcastSlots (owners : Nat → UInt16) (n : Nat) : Nat :=
  ((List.range (n - 1)).filter fun i => owners (i + 1) == 0xffff).length

def registerCoord (t : Tdma) (cfg : CoordConfig) : Tdma :=
  { t with
    coord := t.addr
    panid := cfg.panid
    slotDuration := cfg.slotDuration
    slotCount := cfg.slotCount
    channel := cfg.channel
    rxHandler := .coordRx
    txHandler := .coordTx }

def initBeacon (d : Device) : Device :=
  let d := d.framePrepare .beacon
  let p := (d.heap .beacon).pkt.headerPrepare .beacon d.tdma.panid d.tdma.addr 0xffff
  let p := ((p.setByte 1 d.tdma.slotDuration).setByte 0 d.tdma.slotCount).setByte 3 0
  d.setPkt .beacon { p with length := UInt8.ofNat (tdmaPktSizeHeader + tdmaPktSizeBeacon) }

/-- The table of a coordinator; false when the static slots-frame is refused. -/
def coordSlots (t : Tdma) (slotsframe : Option (Nat → UInt16)) : Bool × Tdma :=
  match slotsframe with
  | none =>
    let t := tdmaSlotConfigure t 0 t.addr
    (true, tdmaSlotConfigure t (t.slotCount / 2) 0xffff)
  | some owners =>
    if owners 0 ≠ t.addr then (false, t)
    else
      let t := tdmaSlotConfigure t 0 t.addr
      (broadcastSlots owners t.slotCount.toNat == 1,
        configureStatic owners (t.slotCount.toNat - 1) t)

def coordSetup (d : Device) (slotsframe : Option (Nat → UInt16)) : Device :=
  let d := initBeacon d
  let r := coordSlots d.tdma slotsframe
  let d := { d with slotsframeIsStatic := slotsframe.isSome, tdma := r.2 }
  if r.1 then
    { d.eventPost .beaconTick with
      beaconTimer := true
      tdma := { d.tdma with txFrames := none, beaconFrame := none, state := .coord } }
  else tdmaSlotStop d

def macTdmaStartCoord (d : Device) (cfg : CoordConfig) (o : Oracle) : Device :=
  if d.tdma.state ≠ .idle then d
  else
    match tdmaSlotStart { d with tdma := registerCoord d.tdma cfg } 0 o with
    | (false, d) => d
    | (true, d) => coordSetup d cfg.slotsframe

inductive Action
  | startNode (cfg : NodeConfig)
  | startCoord (cfg : CoordConfig) (o : Oracle)
  | sendAlloc (req : SendReq)
  | sendFill (k : Nat)
  | sendSubmit (k : Nat)
  | slotTimer
  | timeoutTimer
  | beaconTimer
  | netSlot
  | netPhy (ok : Bool) (rx : RxPacket)
  | netRun (o : Oracle)
  | appli (o : Oracle)

def phyDone (d : Device) (op : PhyOp) (ok : Bool) (rx : RxPacket) : Device :=
  let d := { d with phy := none, net := some (.done op ok) }
  match op.kind with
  | .tx =>
    if ok && op.frame.isPool then { d with ghost := { d.ghost with
      txOk := d.ghost.ticket op.frame :: d.ghost.txOk } }
    else d
  | _ => if ok then d.setPkt op.frame rx.pkt else d

def netHandler (d : Device) (o : Oracle) : NetCall → Option Device
  | .slot => some (handleSlot d o)
  | .done ⟨.tx, _⟩ ok => some (slotTxHandler d ok)
  | .done ⟨.rx, _⟩ ok => some (slotRxHandler d ok o)
  | .done ⟨.scan, _⟩ ok => slotScanHandler d ok o

def appliHandler (d : Device) (o : Oracle) : AppliEvent → Device
  | .nodeTimeout => nodeTimeout d
  | .scanStart => scanStart d o
  | .nodeBeacon f => nodeBeacon d f
  | .dataTx f => dataTxHandler d f
  | .dataRx f => dataRxHandler d f o
  | .beaconTick => beaconTick d
  | .coordAssoc f => coordAssoc d f

def appliResume (d : Device) : Running → Device
  | .postScan => { d with running := none }.eventPost .scanStart
  | .finishTx next ticket cb arg res => dataTxFinish d next ⟨ticket, cb, arg, res⟩

def step (d : Device) : Action → Option Device
  | .startNode cfg => some (macTdmaStartNode d cfg)
  | .startCoord cfg o => some (macTdmaStartCoord d cfg o)
  | .sendAlloc req => some (sendAlloc d req)
  | .sendFill k => match d.sends[k]? with
    | some s => if s.filled then none
      else some { sendFill d s with sends := d.sends.set k { s with filled := true } }
    | none => none
  | .sendSubmit k => match d.sends[k]? with
    | some s => if s.filled then some (sendSubmit { d with sends := d.sends.eraseIdx k } s)
      else none
    | none => none
  | .slotTimer =>
    if d.slotTimer then some { d with slotTimer := false, slotEvents := d.slotEvents + 1 }
    else none
  | .timeoutTimer =>
    if d.timeoutTimer then some ({ d with timeoutTimer := false }.eventPost .nodeTimeout)
    else none
  | .beaconTimer => if d.beaconTimer then some (d.eventPost .beaconTick) else none
  | .netSlot => match d.net, d.slotEvents with
    | none, k + 1 => some { d with slotEvents := k, net := some .slot }
    | _, _ => none
  | .netPhy ok rx => match d.net, d.phy with
    | none, some op => some (phyDone d op ok rx)
    | _, _ => none
  | .netRun o => match d.net with
    | some call => netHandler { d with net := none } o call
    | none => none
  | .appli o => match d.running, d.appli with
    | some r, _ => some (appliResume d r)
    | none, e :: rest => some (appliHandler { d with appli := rest } o e)
    | none, [] => none

end TdmaDevice
