import OpenLab.TdmaCore

/-!
# The handlers of the TDMA MAC

The bodies of `slot.c`, `node.c`, `coord.c` and `data.c` under the TDMA mutex. What a handler does
after it released the mutex is left in `running` or in `sends`.
-/

namespace TdmaHandlers

open TdmaTypes TdmaCore LinkedCells

def nodeTxHandler (d : Device) (f : FrameId) : Device :=
  if f = .node then d else d.eventPost (.dataTx f)

/-- `coord_tx_handler`: the packet type tells a beacon from a data frame. -/
def coordTxHandler (d : Device) (f : FrameId) : Device :=
  match (d.heap f).pkt.headerType with
  | .beacon =>
    let d := d.framePrepare .beacon
    let p := (d.heap f).pkt.headerPrepare .beacon d.tdma.panid d.tdma.addr 0xffff
    let p := (p.setByte 1 d.tdma.slotDuration).setByte 0 d.tdma.slotCount
    let d := d.setPkt f (p.setByte 2 0)
    d.setPkt .beacon
      { (d.heap .beacon).pkt with length := UInt8.ofNat (tdmaPktSizeHeader + tdmaPktSizeBeacon) }
  | .data => d.eventPost (.dataTx f)
  | _ => d

def txHandler (d : Device) (f : FrameId) : Device :=
  match d.tdma.txHandler with
  | .coordTx => coordTxHandler d f
  | .nodeTx => nodeTxHandler d f

def coordRxHandler (d : Device) (f : FrameId) : Device :=
  match (d.heap f).pkt.headerType with
  | .data => d.eventPost (.dataRx f)
  | .assoc =>
    if (d.heap f).pkt.length.toNat = tdmaPktSizeHeader + tdmaPktSizeAssoc then
      d.eventPost (.coordAssoc f)
    else tdmaFrameFree d f
  | _ => tdmaFrameFree d f

def nodeRxHandler (d : Device) (f : FrameId) : Device :=
  match (d.heap f).pkt.headerType with
  | .data => if d.tdma.state = .node then d.eventPost (.dataRx f) else tdmaFrameFree d f
  | .beacon =>
    if (d.heap f).pkt.length.toNat = (d.heap f).pkt.beaconLength then
      d.eventPost (.nodeBeacon f)
    else tdmaFrameFree d f
  | _ => tdmaFrameFree d f

def scanAccepts (t : Tdma) (p : Packet) : Bool :=
  p.isOk t.panid 0xffff && p.headerType == .beacon && p.length.toNat == p.beaconLength

/-- The first broadcast slot of a scanned beacon: 0xffff reads the same in both
byte orders, so the owners are not unpacked here. -/
def broadcastIndex (p : Packet) : Option Nat :=
  (List.range p.slotDescCnt.toNat).find? fun i => p.slotDescOwn i == 0xffff

/-- The slots `scan_handler` configures: one to receive beacons, and the broadcast slot
to send the association request in. -/
def scanTable (t : Tdma) (p : Packet) : Tdma :=
  let t := tdmaSlotConfigure t 0 t.coord
  match broadcastIndex p with
  | some i => tdmaSlotConfigure t (p.slotDescOff + UInt8.ofNat i) t.addr
  | none => t

def scanRegister (t : Tdma) (p : Packet) : Tdma :=
  { t with
    coord := p.src
    slotCount := p.slotCount
    slotDuration := p.slotDuration
    rxHandler := .nodeRx }

/-- `scan_handler` on an accepted beacon; the result of `tdma_slot_start` is ignored. -/
def scanAccept (d : Device) (p : Packet) (o : Oracle) : Device :=
  let d := { d with tdma := scanRegister d.tdma p }
  let d := (tdmaSlotStart d p.timestamp o).2
  { d with timeoutTimer := true, tdma := { scanTable d.tdma p with state := .wait } }

def scanHandler (d : Device) (f : FrameId) (o : Oracle) : Device :=
  if (d.heap f).status ≠ .recv then d.eventPost .scanStart
  else
    let d := d.setPkt f (d.heap f).pkt.headerDecode
    if scanAccepts d.tdma (d.heap f).pkt then scanAccept d (d.heap f).pkt o
    else d.eventPost .scanStart

def rxHandler (d : Device) (f : FrameId) (o : Oracle) : Device :=
  match d.tdma.rxHandler with
  | .coordRx => coordRxHandler d f
  | .nodeRx => nodeRxHandler d f
  | .scan => scanHandler d f o

def tdmaSlotStop (d : Device) : Device :=
  let frame := d.sf.frame
  let d := { d.phyStop with slotTimer := false, sf := { d.sf with frame := none } }
  match frame with
  | none => d
  | some f => if (d.heap f).status = .rx then tdmaFrameFree d f else txHandler d f

/-- `phy_tx` refuses a packet that is too long and a PHY that is not idle. -/
def phyTxOk (d : Device) (f : FrameId) (o : Oracle) : Bool :=
  o.phyOk && d.phy.isNone && (d.heap f).pkt.length.toNat ≤ 125

/-- The choice of `slot_tx`: a beacon unless data waits during the back-off. -/
def slotTxPick (d : Device) : Option (FrameId × Device) :=
  match d.tdma.beaconFrame, d.tdma.txFrames with
  | some b, none => some (b, { d with
      tdma := { d.tdma with beaconFrame := none }
      sf := { d.sf with beaconBackoff := tdmaBeaconBackoffCount + 1 } })
  | some b, some f =>
    if d.sf.beaconBackoff = 0 then some (b, { d with
      tdma := { d.tdma with beaconFrame := none }
      sf := { d.sf with beaconBackoff := tdmaBeaconBackoffCount + 1 } })
    else some (f, { d with tdma := { d.tdma with txFrames := d.next f } })
  | none, some f => some (f, { d with tdma := { d.tdma with txFrames := d.next f } })
  | none, none => none

def txEntry (d : Device) (f : FrameId) (slot : UInt8) (slotTime : UInt32) (o : Oracle) :
    TxStart :=
  ⟨f, d.ghost.ticket f, slot, slotTime, phyTxOk d f o, (d.heap f).pkt, d.ghost.prepared⟩

def logTx (d : Device) (entry : TxStart) : Device :=
  { d with ghost := { d.ghost with txLog := d.ghost.txLog ++ [entry] } }

def phyTx (d : Device) (f : FrameId) (ok : Bool) : Device :=
  if ok then { d with phy := some ⟨.tx, f⟩ }
  else txHandler ({ d with sf := { d.sf with frame := none } }.setStatus f .failed) f

def slotTxStart (d : Device) (f : FrameId) (slot : UInt8) (slotTime : UInt32) (o : Oracle) :
    Device :=
  let d := { d with sf := { d.sf with frame := some f } }.setNext f none
  let entry := txEntry d f slot slotTime o
  phyTx (logTx d entry) f entry.ok

def slotTx (d : Device) (slot : UInt8) (slotTime : UInt32) (o : Oracle) : Device :=
  match slotTxPick d with
  | none => d
  | some (f, d) => slotTxStart d f slot slotTime o

def slotRx (d : Device) (o : Oracle) : Device :=
  match tdmaFrameAlloc d 0 with
  | (none, d) => { d with sf := { d.sf with frame := none } }
  | (some f, d) =>
    let d := { d with sf := { d.sf with frame := some f } }.setStatus f .rx
    if o.phyOk && d.phy.isNone then { d with phy := some ⟨.rx, f⟩ }
    else tdmaFrameFree { d with sf := { d.sf with frame := none } } f

def handleSlot (d : Device) (o : Oracle) : Device :=
  let time := d.sf.slotTime
  let index := d.sf.nextIndex
  let d := { d with sf := slotAdvance d.tdma d.sf, slotTimer := true }
  if d.sf.frame.isSome then d
  else
    let owner := d.tdma.slots index.toNat
    if owner = 0 then d
    else if owner = d.tdma.addr then slotTx d index time o
    else slotRx d o

def slotTxHandler (d : Device) (ok : Bool) : Device :=
  match d.sf.frame with
  | none => d
  | some f =>
    let d := { d.phyStop with sf := { d.sf with frame := none } }
    txHandler (d.setStatus f (if ok then .sent else .failed)) f

def slotRxHandler (d : Device) (ok : Bool) (o : Oracle) : Device :=
  match d.sf.frame with
  | none => d
  | some f =>
    let d := { d.phyStop with sf := { d.sf with frame := none } }
    if ok then
      let d := (d.setStatus f .recv).setPkt f (d.heap f).pkt.headerDecode
      if (d.heap f).pkt.isOk d.tdma.panid d.tdma.addr then rxHandler d f o
      else tdmaFrameFree d f
    else tdmaFrameFree d f

def slotScan (d : Device) (f : FrameId) (o : Oracle) : Device :=
  let d := { d with sf := { d.sf with frame := some f } }.setStatus f .rx
  let d := d.phyStop
  if o.phyOk then { d with phy := some ⟨.scan, f⟩ }
  else rxHandler (d.setStatus f .failed) f o

/-- `slot_scan_handler` does not test the frame; `none` is the NULL dereference. -/
def slotScanHandler (d : Device) (ok : Bool) (o : Oracle) : Option Device :=
  match d.sf.frame with
  | none => none
  | some f =>
    let d := { d with sf := { d.sf with frame := none } }
    some (rxHandler (d.setStatus f (if ok then .recv else .failed)) f o)

/-- Number of slots to request: bandwidth times frame duration, rounded up, in 1..255. -/
def requestedSlots (t : Tdma) : UInt8 :=
  let n := (t.slotDuration.toNat * t.slotCount.toNat * t.bandwidth.toNat + 9999) / 10000
  UInt8.ofNat (if n > 255 then 255 else if n = 0 then 1 else n)

def sendAssociationRequest (d : Device) : Device :=
  let d := d.framePrepare .node
  let p := (d.heap .node).pkt.headerPrepare .assoc d.tdma.panid d.tdma.addr d.tdma.coord
  let p := { p.setByte 0 (requestedSlots d.tdma) with
    length := UInt8.ofNat (tdmaPktSizeHeader + tdmaPktSizeAssoc) }
  let d := d.setPkt .node p
  { d with
    timeoutTimer := true
    tdma := { d.tdma with txFrames := some .node, state := .assoc } }

/-- The loop of `node_timeout` that unlinks `node_frame` and fails the other frames;
`p` is the frame before `f`. -/
def unstack : Nat → Device → Option FrameId → Option FrameId → Device
  | 0, d, _, _ => d
  | _ + 1, d, _, none => d
  | fuel + 1, d, p, some f =>
    if f = .node then
      let after := d.next f
      let d := match p with
        | some q => d.setNext q after
        | none => { d with tdma := { d.tdma with txFrames := after } }
      unstack fuel (d.setNext .node none) p after
    else
      let d := d.setStatus f .failed
      unstack fuel d (some f) (d.next f)

/-- `node_timeout`; `scan_start` is posted after the mutex is released. -/
def nodeTimeout (d : Device) : Device :=
  if d.tdma.state = .wait then sendAssociationRequest d
  else
    let d := tdmaSlotStop d
    let d := unstack (frameCount + 1) d none d.tdma.txFrames
    let d := match d.tdma.txFrames with
      | some f => d.eventPost (.dataTx f)
      | none => d
    { d with
      tdma := { d.tdma with txFrames := none, coord := 0, state := .scan }
      running := some .postScan }

def scanStart (d : Device) (o : Oracle) : Device :=
  let d := { d with tdma := { d.tdma with rxHandler := .scan } }
  slotScan (d.framePrepare .node) .node o

def unpackOwners : Nat → Packet → Packet
  | 0, p => p
  | k + 1, p =>
    let p := unpackOwners k p
    p.setSlotDescOwn k (packerUint16Hton (p.slotDescOwn k))

/-- A node ignores the broadcast slot once it has a slot of its own. -/
def maskBroadcast (owner : UInt16) : UInt16 := if owner = 0xffff then 0 else owner

def configureOwners (p : Packet) : Nat → Tdma → Tdma
  | 0, t => t
  | k + 1, t => tdmaSlotConfigure (configureOwners p k t) (p.slotDescOff + UInt8.ofNat k)
      (maskBroadcast (p.slotDescOwn k))

/-- The state switch of `node_beacon`, on unpacked owners. The second component
tells whether the timeout was restarted. -/
def beaconSwitch (t : Tdma) (p : Packet) : Tdma × Bool :=
  let cnt := p.slotDescCnt.toNat
  match t.state with
  | .assoc =>
    if (List.range cnt).any fun i => t.addr == p.slotDescOwn i then
      (configureOwners p cnt { t with state := .node }, true)
    else (t, false)
  | .node => (configureOwners p cnt t, true)
  | _ => (t, false)

def nodeBeacon (d : Device) (f : FrameId) : Device :=
  let p := (d.heap f).pkt
  if d.tdma.coord = p.src then
    let d := { d with sf := tdmaSlotUpdateFrameStart d.sf p.timestamp }
    let p := unpackOwners p.slotDescCnt.toNat p
    let d := d.setPkt f p
    let r := beaconSwitch d.tdma p
    tdmaFrameFree { d with tdma := r.1, timeoutTimer := d.timeoutTimer || r.2 } f
  else tdmaFrameFree d f

def fillOwners (slots : Nat → UInt16) : Nat → Packet → Packet
  | 0, p => p
  | k + 1, p => (fillOwners slots k p).setSlotDescOwn k (packerUint16Hton (slots k))

def beaconPacket (t : Tdma) (p : Packet) : Packet :=
  let n := min t.slotCount.toNat 50
  let p := fillOwners t.slots n p
  let p := (p.setByte 3 0).setByte 2 (UInt8.ofNat n)
  { p with length := UInt8.ofNat (tdmaPktSizeHeader + tdmaPktSizeBeacon + 2 * n) }

def beaconPrepare (d : Device) : Device :=
  let d := d.setPkt .beacon (beaconPacket d.tdma (d.heap .beacon).pkt)
  { d with
    tdma := { d.tdma with beaconFrame := some .beacon }
    ghost := { d.ghost with prepared := d.tdma.slots } }

def beaconTick (d : Device) : Device :=
  if (d.heap .beacon).status ≠ .idle then d else beaconPrepare d

/-- The counting loop of `coord_assoc` from slot `i` with `left` slots to go:
the slots still missing and the last one found. -/
def countOwned (slots : Nat → UInt16) (addr : UInt16) : Nat → Nat → Nat → Nat → Nat × Nat
  | 0, _, request, id => (request, id)
  | left + 1, i, request, id =>
    if slots i = addr then
      if request - 1 = 0 then (0, i) else countOwned slots addr left (i + 1) (request - 1) i
    else countOwned slots addr left (i + 1) request id

/-- The search loop of `coord_assoc`: the first free slot from `id` on, or `base`
again when there is none. -/
def findFree (slots : Nat → UInt16) (n base : Nat) : Nat → Nat → Nat
  | 0, id => id
  | fuel + 1, id =>
    if slots id = 0 then id
    else
      let id := (id + 1) % n
      if id = base then id else findFree slots n base fuel id

/-- The allocation loop of `coord_assoc`: one slot for each of the `request` left. -/
def allocateSlots (addr : UInt16) (n delta : Nat) : Nat → Nat → Tdma → Tdma
  | 0, _, t => t
  | request + 1, id, t =>
    let base := (id + delta) % n
    let id := findFree t.slots n base n base
    if t.slots id ≠ 0 then t
    else allocateSlots addr n delta request id (tdmaSlotConfigure t (UInt8.ofNat id) addr)

/-- The table part of `coord_assoc`, after its checks. -/
def grantSlots (t : Tdma) (addr : UInt16) (request : Nat) : Tdma :=
  let n := t.slotCount.toNat
  let r := countOwned t.slots addr n 0 request 0
  allocateSlots addr n (n / request) r.1 r.2 t

def assocAccepted (d : Device) (p : Packet) : Bool :=
  !d.slotsframeIsStatic && p.src != 0x0000 && p.src != 0xffff && p.src != d.tdma.addr &&
    p.assocSlots != 0 && (d.heap .beacon).status == .idle

def coordAssoc (d : Device) (f : FrameId) : Device :=
  let p := (d.heap f).pkt
  let d := tdmaFrameFree d f
  if assocAccepted d p then
    beaconPrepare { d with tdma := grantSlots d.tdma p.src p.assocSlots.toNat }
  else d

/-- First critical section of `mac_tdma_send`: one frame stays for reception. -/
def sendAlloc (d : Device) (req : SendReq) : Device :=
  if tdmaPktSizePayload < req.length.toNat then d
  else match tdmaFrameAlloc d 1 with
    | (none, d) => d
    | (some f, d) => { d with sends := d.sends ++ [Send.mk f req false] }

def sendPacket (t : Tdma) (req : SendReq) (p : Packet) : Packet :=
  let dst := if req.dst = 0x0000 then t.coord else req.dst
  { p.headerPrepare .data t.panid t.addr dst with
    payload := fun k => if k < req.length.toNat then req.data k else p.payload k
    length := UInt8.ofNat (req.length.toNat + tdmaPktSizeHeader) }

def sendFill (d : Device) (s : Send) : Device :=
  d.update s.frame fun fr => { fr with
    cb := s.req.cb
    arg := s.req.arg
    pkt := sendPacket d.tdma s.req fr.pkt }

def macTdmaIsConnected (t : Tdma) : Bool := t.state == .node || t.state == .coord

/-- Second critical section of `mac_tdma_send`; an accepted frame gets its number. -/
def sendSubmit (d : Device) (s : Send) : Device :=
  if macTdmaIsConnected d.tdma then
    match tdmaFrameSend d s.frame with
    | none => tdmaFrameFree d s.frame
    | some d => { d with ghost := { d.ghost with
        ticket := Function.update d.ghost.ticket s.frame d.ghost.accepted.length
        accepted := d.ghost.accepted ++ [s.req] } }
  else tdmaFrameFree d s.frame

/-- `tdma_data_tx_handler` up to the release of the mutex. -/
def dataTxHandler (d : Device) (f : FrameId) : Device :=
  let fr := d.heap f
  let res := if fr.status = .sent then .ok else .failed
  { tdmaFrameFree d f with
    running := some (.finishTx fr.next (d.ghost.ticket f) fr.cb fr.arg res) }

/-- The end of `tdma_data_tx_handler`: schedule the next frame, call the callback. -/
def dataTxFinish (d : Device) (next : Option FrameId) (r : Report) : Device :=
  let d := match next with
    | some n => d.eventPost (.dataTx n)
    | none => d
  { d with running := none, ghost := { d.ghost with reports := d.ghost.reports ++ [r] } }

def dataRxHandler (d : Device) (f : FrameId) (o : Oracle) : Device :=
  let p := (d.heap f).pkt
  let length := p.length.toUInt16 - UInt16.ofNat tdmaPktSizeHeader
  if o.packetFree && length.toNat ≤ packetMaxSize then
    let d := tdmaFrameFree d f
    { d with ghost := { d.ghost with
      deliveries := d.ghost.deliveries ++ [Delivery.mk p.src length p.payload] } }
  else tdmaFrameFree d f

end TdmaHandlers
