import OpenLab.TdmaLedger
import OpenLab.TdmaTable

/-!
# The control state of a TDMA device

`Control` relates state, handlers, timers, PHY and pending events of a device to what its slot and
its transmit queue hold. With the books of `TdmaLedger` it is the invariant of the device, and
each handler keeps it.
-/

namespace TdmaControl

open TdmaTypes TdmaCore TdmaHandlers TdmaDevice TdmaTable TdmaLedger LinkedCells List Option

structure Mode where
  state : TdmaState
  rxHandler : RxHandler
  txHandler : TxHandler
  beaconFrame : Option FrameId
  timeoutTimer : Bool
  beaconTimer : Bool
  slotTimer : Bool
  slotEvents : Nat
  net : Option NetCall
  phy : Option PhyOp
  appli : List AppliEvent
  running : Option Running
  ticket : FrameId → Nat
  txOk : List Nat
  beaconType : TdmaType

def mode (d : Device) : Mode where
  state := d.tdma.state
  rxHandler := d.tdma.rxHandler
  txHandler := d.tdma.txHandler
  beaconFrame := d.tdma.beaconFrame
  timeoutTimer := d.timeoutTimer
  beaconTimer := d.beaconTimer
  slotTimer := d.slotTimer
  slotEvents := d.slotEvents
  net := d.net
  phy := d.phy
  appli := d.appli
  running := d.running
  ticket := d.ghost.ticket
  txOk := d.ghost.txOk
  beaconType := (d.heap .beacon).pkt.headerType

def nodeRole : TdmaState → Bool
  | .scan | .wait | .assoc | .node => true
  | _ => false

def scanOp : Option PhyOp → Nat
  | some ⟨.scan, _⟩ => 1
  | _ => 0

def scanDone : Option NetCall → Nat
  | some (.done op _) => scanOp (some op)
  | _ => 0

def scanNext : Option Running → Nat
  | some .postScan => 1
  | _ => 0

@[simp] theorem scanOp_none : scanOp none = 0 := rfl

@[simp] theorem scanDone_none : scanDone none = 0 := rfl

/-- Scans under way or to come: posted, about to be posted, in the PHY or completed. -/
def scanCount (m : Mode) : Nat :=
  m.appli.count .scanStart + scanNext m.running + scanOp m.phy + scanDone m.net

def scanLimit : TdmaState → Nat
  | .scan => 1
  | _ => 0

def EventFits (s : TdmaState) : AppliEvent → Prop
  | .nodeTimeout => nodeRole s
  | .scanStart => nodeRole s
  | .nodeBeacon _ => nodeRole s
  | .beaconTick => s = .coord
  | .coordAssoc _ => s = .coord
  | .dataTx _ => s ≠ .idle
  | .dataRx _ => s ≠ .idle

def QueueFits (s : TdmaState) : FrameId → Prop
  | .pool _ => s = .node ∨ s = .coord
  | .node => s = .assoc ∨ s = .node
  | .beacon => False

def SlotFits (s : TdmaState) (handler : RxHandler) : SlotUse → Prop
  | .empty => True
  | .rx _ => s ≠ .idle ∧ s ≠ .scan
  | .tx (.pool _) => s = .node ∨ s = .coord
  | .tx .node => s = .assoc ∨ s = .node
  | .tx .beacon => s = .coord
  | .scan => s = .scan ∧ handler = .scan

/-- A PHY operation is the one of the slot in progress. -/
def Current (u : SlotUse) (op : PhyOp) : Prop :=
  match op.kind with
  | .tx => u = .tx op.frame
  | .rx => u = .rx op.frame
  | .scan => u = .scan ∧ op.frame = .node

def Handlers (s : TdmaState) (rx : RxHandler) (tx : TxHandler) : Prop :=
  match s with
  | .idle => True
  | .coord => rx = .coordRx ∧ tx = .coordTx
  | .scan => rx ≠ .coordRx ∧ tx = .nodeTx
  | _ => rx = .nodeRx ∧ tx = .nodeTx

structure Control (m : Mode) (u : SlotUse) (queue : List FrameId) : Prop where
  phy : ∀ op, m.phy = some op → Current u op
  net : ∀ op ok, m.net = some (.done op ok) →
    (Current u op ∧ m.phy = none ∧
      (op.kind = .tx → op.frame.isPool → ok = true → m.ticket op.frame ∈ m.txOk)) ∨
    (m.state = .scan ∧ op.kind ≠ .scan)
  events : ∀ e ∈ m.appli, EventFits m.state e
  queue : ∀ f ∈ queue, QueueFits m.state f
  slot : SlotFits m.state m.rxHandler u
  scans : scanCount m ≤ scanLimit m.state
  timeout : m.timeoutTimer = true → nodeRole m.state = true
  beaconTimer : m.beaconTimer = true → m.state = .coord
  beacon : ∀ f, m.beaconFrame = some f → f = .beacon ∧ m.state = .coord
  beaconType : m.state = .coord → m.beaconType = .beacon
  handlers : Handlers m.state m.rxHandler m.txHandler
  idle : m.state = .idle → m.slotTimer = false ∧ m.slotEvents = 0 ∧ m.net = none ∧
    m.running = none

structure Kept (d : Device) (L : Ledger) : Prop where
  books : Books (holdings d) L
  control : Control (mode d) L.slot L.queue

/-- Between two steps no frame is in the hands of running code. -/
def Settled (d : Device) (u : SlotUse) (queue : List FrameId) : Prop :=
  ∃ L, Kept d L ∧ L.hand = [] ∧ L.load = [] ∧ L.slot = u ∧ L.queue = queue

def Sound (d : Device) : Prop := ∃ u queue, Settled d u queue

variable {d : Device} {L : Ledger} {f : FrameId} {u : SlotUse} {queue : List FrameId} {m : Mode}
  {e : AppliEvent}

theorem Settled.sound (h : Settled d u queue) : Sound d := ⟨u, queue, h⟩

theorem Kept.update (hK : Kept d L) (hf : stored (holdings d) L f = 0) (g : Frame → Frame)
    (hb : f = .beacon → (g (d.heap f)).pkt.headerType = (d.heap f).pkt.headerType) :
    Kept (d.update f g) L := by
  refine ⟨hK.books.setHeap hf _, ?_⟩
  have same : mode (d.update f g) = mode d := by
    have : (Function.update d.heap f (g (d.heap f)) .beacon).pkt.headerType =
        (d.heap .beacon).pkt.headerType := by
      by_cases h : f = .beacon
      · subst h
        simpa using hb rfl
      · rw [Function.update_of_ne (Ne.symm h)]
    simp [mode, Device.update, this]
  rw [same]
  exact hK.control

theorem Kept.hand_stored (hK : Kept d L) (hf : f ∈ L.hand ++ L.load) :
    stored (holdings d) L f = 0 :=
  hK.books.stored_of_hand hf

theorem settled_free (hK : Kept d L) (hand : L.hand = [f]) (load : L.load = [])
    (hp : f.isPool) : Settled (tdmaFrameFree d f) L.slot L.queue := by
  have hs := hK.hand_stored (f := f) (by simp [hand])
  have hU := hK.update hs (fun fr => { fr with next := d.frames }) (fun _ => rfl)
  refine ⟨{ L with free := f :: L.free, hand := [] }, ⟨?_, hU.control⟩, rfl, load, rfl, rfl⟩
  refine hU.books.putFree hand hp ?_
  simp [Holdings.next, holdings, Device.update]

theorem Control.post (hC : Control m u queue) (fits : EventFits m.state e) (he : e ≠ .scanStart) :
    Control { m with appli := m.appli ++ [e] } u queue := by
  refine { hC with events := fun e' he' => ?_, scans := ?_ }
  · rcases mem_append.mp he' with he' | he'
    · exact hC.events e' he'
    · rw [mem_singleton.mp he']
      exact fits
  · have hc := hC.scans
    have : [e].count .scanStart = 0 := count_eq_zero.mpr (by simpa using Ne.symm he)
    simp only [scanCount, count_append, this] at hc ⊢
    omega

theorem settled_post (hK : Kept d L) {l} (hand : L.hand = l) (load : L.load = [])
    (hh : Holds (holdings d) e l) (hn : chained (e, l) = []) (fits : EventFits d.tdma.state e)
    (he : e ≠ .scanStart) : Settled (d.eventPost e) L.slot L.queue :=
  ⟨_, ⟨hK.books.postHand hand hh hn, hK.control.post fits he⟩, rfl, load, rfl, rfl⟩

theorem settled_postTx (hK : Kept d L) (hand : L.hand = [])
    (hc : Chain d.next (some f) L.load) (done : AllDone (holdings d) L.load)
    (busy : d.tdma.state ≠ .idle) : Settled (d.eventPost (.dataTx f)) L.slot L.queue :=
  ⟨_, ⟨hK.books.postLoad ⟨hc, done⟩, hK.control.post busy (by simp)⟩, hand, rfl, rfl, rfl⟩

theorem Control.txNode (hC : Control m u queue) (h : nodeRole m.state = true) :
    m.txHandler = .nodeTx := by
  have := hC.handlers
  revert h this
  cases m.state <;> simp [Handlers, nodeRole]

theorem Control.coord (hC : Control m u queue) (h : m.state = .coord) :
    m.rxHandler = .coordRx ∧ m.txHandler = .coordTx := by
  have := hC.handlers
  rwa [h] at this

theorem Control.rxNode (hC : Control m u queue) (busy : m.state ≠ .idle) (noScan : m.state ≠ .scan)
    (noCoord : m.state ≠ .coord) : m.rxHandler = .nodeRx ∧ nodeRole m.state = true := by
  have := hC.handlers
  revert busy noScan noCoord this
  cases m.state <;> simp +contextual [Handlers, nodeRole]

/-- Which frames a transmit handler may be called with. -/
def TxFits (s : TdmaState) : FrameId → Prop
  | .pool _ => s ≠ .idle
  | .node => nodeRole s = true
  | .beacon => s = .coord

theorem settled_dropped (hK : Kept d L) (hand : ∀ g ∈ L.hand, g.isPool = false)
    (load : L.load = []) : Settled d L.slot L.queue :=
  ⟨_, ⟨hK.books.dropStatic hand, hK.control⟩, rfl, load, rfl, rfl⟩

theorem settled_coordTx_beacon (hK : Kept d L) (hand : L.hand = [.beacon])
    (load : L.load = []) (type : (d.heap .beacon).pkt.headerType = .beacon) :
    Settled (coordTxHandler d .beacon) L.slot L.queue := by
  have hs := hK.hand_stored (f := .beacon) (by simp [hand])
  rw [coordTxHandler, type]
  refine settled_dropped (Kept.update (Kept.update (Kept.update hK hs _ ?_) hs _ ?_) hs _ ?_)
    (by simp [hand, FrameId.isPool]) load
  · exact fun _ => rfl
  · intro _
    have prepared : ((d.framePrepare .beacon).heap .beacon).pkt.headerType = .beacon := by
      simpa [Device.framePrepare, Device.heap_update_self] using type
    exact (Packet.headerType_of_vt rfl (by simp)).trans prepared.symm
  · exact fun _ => rfl

theorem settled_txHandler (hK : Kept d L) (hand : L.hand = (SlotUse.tx f).plain)
    (load : L.load = (SlotUse.tx f).data) (fits : TxFits d.tdma.state f)
    (data : f.isPool → d.next f = none ∧
      ((d.heap f).status = .sent → d.ghost.ticket f ∈ d.ghost.txOk) ∧
      (d.heap f).pkt.headerType = .data ∧ Carries (holdings d) f) :
    Settled (txHandler d f) L.slot L.queue := by
  cases f with
  | node =>
    have tx : d.tdma.txHandler = .nodeTx := hK.control.txNode fits
    rw [txHandler, tx]
    exact settled_dropped hK (by simp [hand, SlotUse.plain, SlotUse.frames, FrameId.isPool]) load
  | beacon =>
    have tx : d.tdma.txHandler = .coordTx := (hK.control.coord fits).2
    rw [txHandler, tx]
    exact settled_coordTx_beacon hK hand load (hK.control.beaconType fits)
  | pool i =>
    obtain ⟨link, sent, type, own⟩ := data rfl
    have post : Settled (d.eventPost (.dataTx (.pool i))) L.slot L.queue := by
      refine settled_postTx hK hand ?_ ?_ fits
      · rw [load]
        exact chain_single link
      · intro g hg
        rw [load] at hg
        rw [mem_singleton.mp hg]
        exact ⟨rfl, sent, own⟩
    unfold txHandler
    split
    · rw [coordTxHandler, type]
      exact post
    · exact post

variable {o : Oracle} {op : PhyOp}

theorem settled_rxHandler (hK : Kept d L) (hand : L.hand = [f]) (load : L.load = []) (hp : f.isPool)
    (busy : d.tdma.state ≠ .idle) (noScan : d.tdma.state ≠ .scan) :
    Settled (rxHandler d f o) L.slot L.queue := by
  have free := settled_free hK hand load hp
  have post : ∀ e, Holds (holdings d) e [f] → chained (e, [f]) = [] →
      EventFits d.tdma.state e → e ≠ .scanStart → Settled (d.eventPost e) L.slot L.queue :=
    fun e => settled_post hK hand load
  have dataRx := post (.dataRx f) ⟨rfl, hp⟩ rfl busy (by simp)
  by_cases hc : d.tdma.state = .coord
  · have rx : d.tdma.rxHandler = .coordRx := (hK.control.coord hc).1
    rw [rxHandler, rx]
    simp only [coordRxHandler]
    split
    · exact dataRx
    · split
      · exact post (.coordAssoc f) ⟨rfl, hp⟩ rfl hc (by simp)
      · exact free
    · exact free
  · have role : d.tdma.rxHandler = .nodeRx ∧ nodeRole d.tdma.state = true :=
      hK.control.rxNode busy noScan hc
    rw [rxHandler, role.1]
    simp only [nodeRxHandler]
    split
    · split
      · exact dataRx
      · exact free
    · split
      · exact post (.nodeBeacon f) ⟨rfl, hp⟩ rfl role.2 (by simp)
      · exact free
    · exact free

theorem Current.ne_empty (h : Current u op) : u ≠ .empty := by
  rintro rfl
  rcases op with ⟨_ | _ | _, f⟩ <;> simp [Current] at h

theorem Control.phy_none (hC : Control m .empty queue) : m.phy = none := by
  cases hp : m.phy with
  | none => rfl
  | some op => exact absurd rfl (hC.phy op hp).ne_empty

/-- No completion is on its way, except one that a disconnection has made stale. -/
def NetIdle (d : Device) : Prop :=
  ∀ op ok, d.net = some (.done op ok) → d.tdma.state = .scan ∧ op.kind ≠ .scan

theorem netIdle_of_none (h : d.net = none) : NetIdle d := fun op ok hop => by
  rw [h] at hop
  cases hop

theorem Kept.phyStop (hK : Kept d L) (net : NetIdle d) : Kept d.phyStop L := by
  refine ⟨hK.books, { hK.control with phy := ?_, net := ?_, scans := ?_ }⟩
  · intro op hop
    simp [mode, Device.phyStop] at hop
  · exact fun op ok hop => .inr (net op ok hop)
  · have := hK.control.scans
    simp only [scanCount, mode, Device.phyStop, scanOp_none] at this ⊢
    omega

theorem Kept.endSlot (hK : Kept d L) (hand : L.hand = []) (load : L.load = [])
    (net : NetIdle d) (phy : d.phy = none) :
    Kept { d with sf := { d.sf with frame := none } }
      { L with slot := .empty, hand := L.slot.plain, load := L.slot.data } := by
  refine ⟨hK.books.clearSlot hand load, { hK.control with
    phy := ?_, net := ?_, slot := trivial }⟩
  · intro op hop
    simp [mode, phy] at hop
  · exact fun op ok hop => .inr (net op ok hop)

theorem Kept.beginSlot (hK : Kept d L) (empty : L.slot = .empty) (net : NetIdle d)
    (use : SlotUse) (hu : SlotHolds { holdings d with slot := some f } use)
    (hand : L.hand = use.plain) (load : L.load = use.data)
    (fits : SlotFits d.tdma.state d.tdma.rxHandler use) :
    Kept { d with sf := { d.sf with frame := some f } }
      { L with slot := use, hand := [], load := [] } := by
  have hC := hK.control
  rw [empty] at hC
  refine ⟨hK.books.fillSlot empty use hu hand load, { hC with
    phy := ?_, net := ?_, slot := fits }⟩
  · intro op hop
    have hop' : d.phy = some op := hop
    have hnone : d.phy = none := hC.phy_none
    rw [hnone] at hop'
    cases hop'
  · exact fun op ok hop => .inr (net op ok hop)

theorem Kept.startPhy (hK : Kept d L) (op : PhyOp) (net : NetIdle d)
    (cur : Current L.slot op) (kind : op.kind ≠ .scan) : Kept { d with phy := some op } L := by
  refine ⟨hK.books, { hK.control with phy := ?_, net := ?_, scans := ?_ }⟩
  · intro op' hop
    simp only [mode, some.injEq] at hop
    exact hop ▸ cur
  · exact fun op ok hop => .inr (net op ok hop)
  · have noScan : scanOp (some op) = 0 := by
      rcases op with ⟨_ | _ | _, g⟩
      · rfl
      · rfl
      · exact absurd rfl kind
    have := hK.control.scans
    simp only [scanCount, mode, noScan] at this ⊢
    omega

variable {s : TdmaState} {rx : RxHandler} {slot : UInt8} {time : UInt32}

theorem SlotFits.tx_fits (h : SlotFits s rx (.tx f)) : TxFits s f := by
  cases f with
  | pool i => rcases h with h | h <;> simp [TxFits, h]
  | node => rcases h with h | h <;> simp [TxFits, nodeRole, h]
  | beacon => exact h

theorem SlotUse.mem_hands : f ∈ (SlotUse.tx f).plain ++ (SlotUse.tx f).data := by
  cases f <;> simp [SlotUse.plain, SlotUse.data, SlotUse.frames]

/-- `slot_tx` after its choice: the slot is in progress, or the frame went to its
handler because the PHY refused it. -/
theorem sound_slotTxStart
    (logged : ∀ entry : TxStart, entry.frame = f → entry.ticket = d.ghost.ticket f →
      Kept (logTx d entry) L) (empty : L.slot = .empty) (hand : L.hand = (SlotUse.tx f).plain)
    (load : L.load = (SlotUse.tx f).data) (net : NetIdle d)
    (idle : f ≠ .beacon → (d.heap f).status = .idle)
    (data : f.isPool → (d.heap f).pkt.headerType = .data ∧ Carries (holdings d) f)
    (fits : SlotFits d.tdma.state d.tdma.rxHandler (.tx f)) :
    Sound (slotTxStart d f slot time o) := by
  simp only [slotTxStart]
  generalize hentry : txEntry _ f slot time o = entry
  have hK := logged entry (by rw [← hentry]; rfl) (by rw [← hentry]; rfl)
  have hU := hK.update (hK.hand_stored (by rw [hand, load]; exact SlotUse.mem_hands))
    (fun fr => { fr with next := none }) (fun _ => rfl)
  have hslot : SlotHolds { holdings ((logTx d entry).update f fun fr =>
      { fr with next := none }) with slot := some f } (.tx f) := by
    refine ⟨rfl, ?_, ?_, ?_⟩
    · simp [Holdings.next, holdings, Device.update]
    · simpa [holdings, Device.update, logTx] using idle
    · simpa [Carries, holdings, Device.update, logTx] using data
  have hF := hU.beginSlot empty net (.tx f) hslot hand load fits
  cases entry.ok with
  | true => exact ⟨_, _, _, hF.startPhy ⟨.tx, f⟩ net rfl (by simp), rfl, rfl, rfl, rfl⟩
  | false =>
    have phy : d.phy = none := by
      have := hU.control
      rw [empty] at this
      exact this.phy_none
    have hE := hF.endSlot rfl rfl net phy
    have hE' := hE.update (hE.hand_stored SlotUse.mem_hands)
      (fun fr => { fr with status := .failed }) (fun _ => rfl)
    refine (settled_txHandler hE' rfl rfl fits.tx_fits fun hp => ⟨?_, ?_, ?_⟩).sound
    · simp [Device.next, Device.update, logTx]
    · simp [Device.update]
    · simpa [Carries, holdings, Device.setStatus, Device.setNext, Device.update, logTx]
        using data hp

theorem mem_queue_of_txFrames (hK : Kept d L) (ht : d.tdma.txFrames = some f) :
    ∃ q, L.queue = f :: q := by
  have hq : Chain d.next d.tdma.txFrames L.queue := hK.books.queue
  rw [ht] at hq
  obtain ⟨q, hq, _⟩ := chain_some_iff.mp hq
  exact ⟨q, hq⟩

theorem sound_slotTx_beacon {backoff} (hK : Kept d L) (hand : L.hand = [])
    (load : L.load = []) (empty : L.slot = .empty) (net : NetIdle d)
    (hb : d.tdma.beaconFrame = some f) : Sound (slotTxStart { d with
      tdma := { d.tdma with beaconFrame := none }
      sf := { d.sf with beaconBackoff := backoff } } f slot time o) := by
  obtain ⟨rfl, coord⟩ := hK.control.beacon f hb
  have absent : stored (holdings d) L .beacon = 0 :=
    hK.books.stored_static rfl (fun hq => hK.control.queue _ hq) (by simp [empty])
  refine sound_slotTxStart (L := { L with hand := [.beacon] }) ?_ empty rfl load net
    (fun h => absurd rfl h) (fun h => by simp [FrameId.isPool] at h) coord
  intro entry frame _
  refine ⟨(hK.books.takeStatic hand rfl absent load).logStatic (by rw [frame]; rfl), ?_⟩
  exact { hK.control with beacon := fun _ h => by cases h }

theorem QueueFits.slotFits (h : QueueFits s f) : SlotFits s rx (.tx f) := by
  cases f with
  | beacon => exact absurd h id
  | _ => exact h

theorem sound_slotTx_data (hK : Kept d L) (hand : L.hand = []) (load : L.load = [])
    (empty : L.slot = .empty) (net : NetIdle d) (ht : d.tdma.txFrames = some f) :
    Sound (slotTxStart { d with tdma := { d.tdma with txFrames := d.next f } } f slot time o) := by
  obtain ⟨q, hq⟩ := mem_queue_of_txFrames hK ht
  have hf : f ∈ L.queue := hq ▸ mem_cons_self
  have queued := hK.books.queued f hf
  have fits := hK.control.queue f hf
  refine sound_slotTxStart
    (L := { L with queue := q, hand := (SlotUse.tx f).plain, load := (SlotUse.tx f).data })
    ?_ empty rfl rfl net (fun _ => queued.idle) ?_ fits.slotFits
  · intro entry frame ticket
    refine ⟨hK.books.popQueue hq hand load frame ticket, { hK.control with queue := ?_ }⟩
    exact fun a ha => hK.control.queue a (hq ▸ mem_cons_of_mem f ha)
  · intro hp
    rcases queued.kind with rfl | h
    · simp [FrameId.isPool] at hp
    · exact h.2

theorem sound_slotTx (hK : Kept d L) (hand : L.hand = []) (load : L.load = [])
    (empty : L.slot = .empty) (net : NetIdle d) : Sound (slotTx d slot time o) := by
  unfold slotTx slotTxPick
  cases hb : d.tdma.beaconFrame with
  | none =>
    cases ht : d.tdma.txFrames with
    | none => exact ⟨_, _, L, hK, hand, load, rfl, rfl⟩
    | some f => exact sound_slotTx_data hK hand load empty net ht
  | some b =>
    cases ht : d.tdma.txFrames with
    | none => exact sound_slotTx_beacon hK hand load empty net hb
    | some f =>
      simp only
      split
      · next heq =>
        split at heq <;> cases heq
      · next heq =>
        split at heq
        · cases heq
          exact sound_slotTx_beacon hK hand load empty net hb
        · cases heq
          exact sound_slotTx_data hK hand load empty net ht

theorem tdmaFrameAlloc_none {rem} {d'} (h : tdmaFrameAlloc d rem = (none, d')) :
    d' = d := by
  unfold tdmaFrameAlloc at h
  split at h
  · exact (Prod.mk.inj h).2.symm
  · split at h
    · exact (Prod.mk.inj h).2.symm
    · cases (Prod.mk.inj h).1

theorem tdmaFrameAlloc_some {rem} {d'}
    (h : tdmaFrameAlloc d rem = (some f, d')) : d.frames = some f ∧
      d' = { d with frames := d.next f, nbFrames := d.nbFrames - 1 }.framePrepare f := by
  unfold tdmaFrameAlloc at h
  split at h
  · cases (Prod.mk.inj h).1
  · split at h
    · cases (Prod.mk.inj h).1
    · next res hres =>
      obtain ⟨hf, hd⟩ := Prod.mk.inj h
      cases hf
      exact ⟨hres, hd.symm⟩

theorem Kept.alloc (hK : Kept d L) (hand : L.hand = []) (hf : d.frames = some f) :
    ∃ rest, f.isPool ∧
      Kept ({ d with frames := d.next f, nbFrames := d.nbFrames - 1 }.framePrepare f)
        { L with free := rest, hand := [f] } := by
  have hfree : Chain d.next d.frames L.free := hK.books.free
  rw [hf] at hfree
  obtain ⟨rest, hL, _⟩ := chain_some_iff.mp hfree
  have hT := hK.books.takeFree hL
  rw [hand] at hT
  have hK' : Kept { d with frames := d.next f, nbFrames := d.nbFrames - 1 }
      { L with free := rest, hand := [f] } := ⟨hT, hK.control⟩
  refine ⟨rest, hK.books.freePool f (hL ▸ mem_cons_self), ?_⟩
  exact hK'.update (hK'.hand_stored (by simp)) _ (fun _ => rfl)

theorem sound_slotRx (hK : Kept d L) (hand : L.hand = []) (load : L.load = [])
    (empty : L.slot = .empty) (net : NetIdle d) (busy : d.tdma.state ≠ .idle)
    (noScan : d.tdma.state ≠ .scan) : Sound (slotRx d o) := by
  have phy : d.phy = none := by
    have := hK.control
    rw [empty] at this
    exact this.phy_none
  unfold slotRx
  split
  · next d' h =>
    obtain rfl := tdmaFrameAlloc_none h
    have hE := hK.endSlot hand load net phy
    exact ⟨_, _, _, hE, by simp [empty, SlotUse.plain], by simp [empty], rfl, rfl⟩
  · next f d' h =>
    obtain ⟨hf, rfl⟩ := tdmaFrameAlloc_some h
    obtain ⟨rest, hp, hA⟩ := hK.alloc hand hf
    have hU := hA.update (f := f) (hA.hand_stored (by simp))
      (fun fr => { fr with status := .rx }) (fun _ => rfl)
    have hF := hU.beginSlot (f := f) empty net (.rx f)
      ⟨rfl, hp, by simp [holdings, Device.update]⟩ rfl load ⟨busy, noScan⟩
    simp only
    split
    · exact ⟨_, _, _, hF.startPhy ⟨.rx, f⟩ net rfl (by simp), rfl, rfl, rfl, rfl⟩
    · exact (settled_free (hF.endSlot rfl rfl net phy) rfl rfl hp).sound

theorem slotAdvance_frame (t : Tdma) (sf : SlotsFrame) : (slotAdvance t sf).frame = sf.frame := by
  unfold slotAdvance
  split <;> rfl

theorem Kept.advance (hK : Kept d L) (busy : d.tdma.state ≠ .idle) :
    Kept { d with sf := slotAdvance d.tdma d.sf, slotTimer := true } L := by
  refine ⟨?_, { hK.control with idle := fun h => absurd h busy }⟩
  have same : holdings { d with sf := slotAdvance d.tdma d.sf, slotTimer := true } =
      holdings d := by
    simp [holdings, slotAdvance_frame]
  rw [same]
  exact hK.books

/-- `handle_slot` in state SCAN must not start a reception. -/
def SlotTimely (d : Device) : Prop :=
  d.tdma.state = .scan → d.sf.frame ≠ none ∨ d.tdma.slots d.sf.nextIndex.toNat = 0 ∨
    d.tdma.slots d.sf.nextIndex.toNat = d.tdma.addr

theorem sound_handleSlot (hK : Kept d L) (hand : L.hand = []) (load : L.load = []) (net : NetIdle d)
    (busy : d.tdma.state ≠ .idle) (timely : SlotTimely d) : Sound (handleSlot d o) := by
  have hA := hK.advance busy
  unfold handleSlot
  dsimp only
  split
  · exact ⟨_, _, L, hA, hand, load, rfl, rfl⟩
  · next hframe =>
    rw [slotAdvance_frame, Bool.not_eq_true, isSome_eq_false_iff,
      isNone_iff_eq_none] at hframe
    have empty := hK.books.slot_empty hframe
    split
    · exact ⟨_, _, L, hA, hand, load, rfl, rfl⟩
    · next howner =>
      split
      · exact sound_slotTx hA hand load empty net
      · next haddr =>
        refine sound_slotRx hA hand load empty net busy fun hscan => ?_
        rcases timely hscan with h | h | h
        · exact h hframe
        · exact howner h
        · exact haddr h

theorem sound_slotTxHandler {ok} (hK : Kept d L) (hand : L.hand = []) (load : L.load = [])
    (net : NetIdle d) (use : L.slot = .empty ∨ L.slot = .scan ∨
      ∃ f, L.slot = .tx f ∧ (f.isPool → ok = true → d.ghost.ticket f ∈ d.ghost.txOk)) :
    Sound (slotTxHandler d ok) := by
  have hslot : SlotHolds (holdings d) L.slot := hK.books.slot
  have hfits : SlotFits d.tdma.state d.tdma.rxHandler L.slot := hK.control.slot
  have hE := (hK.phyStop net).endSlot hand load net rfl
  unfold slotTxHandler
  rcases use with hu | hu | ⟨f, hu, hok⟩
  · rw [hu] at hslot
    have hframe : d.sf.frame = none := hslot
    rw [hframe]
    exact ⟨_, _, L, hK, hand, load, rfl, rfl⟩
  · rw [hu] at hslot hfits hE
    have hframe : d.sf.frame = some .node := hslot
    rw [hframe]
    have hS := hE.update (f := .node) (hE.hand_stored (by simp [SlotUse.plain, SlotUse.frames]))
      (fun fr => { fr with status := if ok then .sent else .failed }) (fun h => by cases h)
    refine (settled_txHandler (f := .node) hS rfl rfl ?_ fun hp => ?_).sound
    · exact (by rw [hfits.1]; rfl : nodeRole d.tdma.state = true)
    · simp [FrameId.isPool] at hp
  · rw [hu] at hslot hfits hE
    obtain ⟨hframe, link, idle, data⟩ := hslot
    have hframe : d.sf.frame = some f := hframe
    rw [hframe]
    have hS := hE.update (f := f) (hE.hand_stored SlotUse.mem_hands)
      (fun fr => { fr with status := if ok then .sent else .failed }) (fun _ => rfl)
    refine (settled_txHandler hS rfl rfl hfits.tx_fits fun hp => ⟨?_, ?_, ?_⟩).sound
    · simpa [Device.next, Device.update, Device.phyStop, Holdings.next, holdings] using link
    · intro hsent
      refine hok hp ?_
      simp only [Device.update, Device.phyStop, Function.update_self] at hsent
      cases ok with
      | true => rfl
      | false => simp at hsent
    · simpa [Carries, Device.update, Device.phyStop, holdings] using data hp

theorem sound_slotRxHandler {ok} (hK : Kept d L) (hand : L.hand = []) (load : L.load = [])
    (net : NetIdle d) (use : L.slot = .empty ∨ ∃ f, L.slot = .rx f) :
    Sound (slotRxHandler d ok o) := by
  have hslot : SlotHolds (holdings d) L.slot := hK.books.slot
  have hfits : SlotFits d.tdma.state d.tdma.rxHandler L.slot := hK.control.slot
  have hE := (hK.phyStop net).endSlot hand load net rfl
  unfold slotRxHandler
  rcases use with hu | ⟨f, hu⟩
  · rw [hu] at hslot
    have hframe : d.sf.frame = none := hslot
    rw [hframe]
    exact ⟨_, _, L, hK, hand, load, rfl, rfl⟩
  · rw [hu] at hslot hfits hE
    obtain ⟨hframe, hp, _⟩ := hslot
    have hframe : d.sf.frame = some f := hframe
    rw [hframe]
    have hne : f ≠ .beacon := by
      rintro rfl
      simp [FrameId.isPool] at hp
    have hmem : f ∈ (SlotUse.rx f).plain ++ (SlotUse.rx f).data := by
      simp [SlotUse.plain, SlotUse.frames]
    cases ok with
    | false => exact (settled_free hE rfl rfl hp).sound
    | true =>
      have hS := hE.update (f := f) (hE.hand_stored hmem)
        (fun fr => { fr with status := .recv }) (fun _ => rfl)
      have hD := hS.update (f := f) (hS.hand_stored hmem)
        (fun fr => { fr with pkt := (d.heap f).pkt.headerDecode }) (fun h => absurd h hne)
      simp only [if_true]
      split
      · exact (settled_rxHandler hD rfl rfl hp hfits.1 hfits.2).sound
      · exact (settled_free hD rfl rfl hp).sound

section

variable (hC : Control m u queue) (scan : m.state = .scan)

include hC scan

theorem Control.postScan (zero : scanCount m = 0) :
    Control { m with appli := m.appli ++ [.scanStart] } u queue := by
  refine { hC with events := fun e he => ?_, scans := ?_ }
  · rcases mem_append.mp he with he | he
    · exact hC.events e he
    · rw [mem_singleton.mp he]
      exact (by rw [scan]; rfl : nodeRole m.state = true)
  · simp only [scanCount, count_append, count_singleton_self] at zero ⊢
    rw [scan, scanLimit]
    omega

theorem Control.scan_slot : u = .empty ∨ u = .scan := by
  have hs := hC.slot
  rw [scan] at hs
  rcases u with _ | f | f | _
  · exact .inl rfl
  · exact absurd rfl hs.2
  · cases f <;> simp [SlotFits] at hs
  · exact .inr rfl

theorem Control.scan_queue : queue = [] := by
  refine eq_nil_iff_forall_not_mem.mpr fun f hf => ?_
  have := hC.queue f hf
  rw [scan] at this
  cases f <;> simp [QueueFits] at this

theorem Control.scan_quiet (zero : scanCount m = 0) : m.phy = none ∧
      ∀ op ok, m.net = some (.done op ok) → op.kind ≠ .scan := by
  have current : ∀ op, Current u op → op.kind = .scan := by
    intro op hcur
    rcases hC.scan_slot scan with rfl | rfl
    · exact absurd rfl hcur.ne_empty
    · rcases op with ⟨_ | _ | _, f⟩ <;> simp [Current] at hcur ⊢
  have one : ∀ op : PhyOp, op.kind = .scan → scanOp (some op) = 1 := by
    rintro ⟨k, f⟩ h
    cases h
    rfl
  unfold scanCount at zero
  constructor
  · cases hp : m.phy with
    | none => rfl
    | some op =>
      rw [hp, one op (current op (hC.phy op hp))] at zero
      omega
  · intro op ok hop hkind
    rw [hop] at zero
    have : scanDone (some (.done op ok)) = scanOp (some op) := rfl
    rw [this, one op hkind] at zero
    omega

end

theorem sound_scanStart (hK : Kept d L) (hand : L.hand = []) (load : L.load = [])
    (scan : d.tdma.state = .scan) (zero : scanCount (mode d) = 0) : Sound (scanStart d o) := by
  have quiet := hK.control.scan_quiet scan zero
  have net : NetIdle d := fun op ok hop => ⟨scan, quiet.2 op ok hop⟩
  have hqueue : L.queue = [] := hK.control.scan_queue scan
  -- whatever the slot held was the node frame of an earlier scan
  have hE := hK.endSlot hand load net quiet.1
  have hplain : ∀ g ∈ L.slot.plain, g.isPool = false := by
    rcases hK.control.scan_slot scan with h | h <;>
      simp [h, SlotUse.plain, SlotUse.frames, FrameId.isPool]
  have hdata : L.slot.data = [] := by
    rcases hK.control.scan_slot scan with h | h <;> simp [h, SlotUse.data]
  have hD : Kept _ _ := ⟨hE.books.dropStatic hplain, hE.control⟩
  have absent := hD.books.stored_static (f := .node) rfl (by simp [hqueue]) (by simp)
  have hN : Kept { d with
      sf := { d.sf with frame := none }, tdma := { d.tdma with rxHandler := .scan } }
      { L with slot := .empty, hand := [.node], load := L.slot.data } := by
    refine ⟨hD.books.takeStatic rfl rfl absent hdata, { hE.control with
      slot := trivial, handlers := ?_ }⟩
    have htx := hK.control.txNode (by rw [show (mode d).state = .scan from scan]; rfl)
    rw [show (mode { d with sf := { d.sf with frame := none }, tdma := { d.tdma with
      rxHandler := .scan } }).state = .scan from scan]
    exact ⟨by simp [mode], htx⟩
  have hP := hN.update (f := .node) (hN.hand_stored (by simp))
    (fun fr => { fr with next := none, cb := none, arg := 0, status := .idle })
    (fun h => by cases h)
  have hR := hP.update (f := .node) (hP.hand_stored (by simp))
    (fun fr => { fr with status := .rx }) (fun h => by cases h)
  unfold scanStart slotScan
  split
  · have hS := (hR.phyStop net).beginSlot (f := .node) rfl net .scan rfl rfl hdata ⟨scan, rfl⟩
    refine ⟨_, _, _, ⟨hS.books, { hS.control with phy := ?_, net := ?_, scans := ?_ }⟩,
      rfl, rfl, rfl, rfl⟩
    · intro op hop
      simp only [mode, some.injEq] at hop
      rw [← hop]
      exact ⟨rfl, rfl⟩
    · exact fun op ok hop => .inr (net op ok hop)
    · change d.appli.count .scanStart + scanNext d.running + 1 + scanDone d.net ≤
        scanLimit d.tdma.state
      rw [scan, scanLimit]
      simp only [scanCount, mode] at zero
      omega
  · have hF := hR.update (f := .node) (hR.hand_stored (by simp))
      (fun fr => { fr with status := .failed }) (fun h => by cases h)
    have hS := (hF.phyStop net).beginSlot (f := .node) rfl net .scan rfl rfl hdata ⟨scan, rfl⟩
    have posted : ∀ D : Device, D.tdma.rxHandler = .scan → (D.heap .node).status = .failed →
        rxHandler D .node o = D.eventPost .scanStart := by
      intro D hrx hst
      rw [rxHandler, hrx]
      simp [scanHandler, hst]
    refine ⟨_, _, _, ⟨hS.books.postHand rfl rfl rfl, hS.control.postScan scan ?_⟩,
      rfl, rfl, rfl, rfl⟩
    simp only [scanCount, mode, Device.update, Device.phyStop, scanOp_none] at zero ⊢
    omega

theorem Kept.retable (hK : Kept d L) {t} (h : Retabled d.tdma t) :
    Kept { d with tdma := t } L := by
  obtain ⟨n, s, rfl⟩ := h
  exact ⟨hK.books, hK.control⟩

theorem Kept.slotStart (hK : Kept d L) (start : UInt32) (empty : L.slot = .empty) (net : NetIdle d)
    (busy : d.tdma.state ≠ .idle) : Kept (tdmaSlotStart d start o).2 L := by
  unfold tdmaSlotStart
  split
  · exact hK
  · have hP := (hK.retable (retabled_clear d.tdma)).phyStop net
    have hslot : SlotHolds (holdings d) L.slot := hK.books.slot
    rw [empty] at hslot
    have hslot : d.sf.frame = none := hslot
    refine ⟨?_, { hP.control with idle := fun h => absurd h busy }⟩
    have same : holdings { ({ d with tdma := clearSlots d.tdma } : Device).phyStop with
        sf := slotStartTimes (clearSlots d.tdma) start o, slotTimer := true } =
        holdings ({ d with tdma := clearSlots d.tdma } : Device).phyStop := by
      simp [holdings, Device.phyStop, hslot, slotStartTimes]
    exact same ▸ hP.books

theorem tdmaSlotStart_kept (d : Device) (start : UInt32) (o : Oracle) :
    (tdmaSlotStart d start o).2.appli = d.appli ∧
      (tdmaSlotStart d start o).2.running = d.running ∧
      (tdmaSlotStart d start o).2.net = d.net ∧
      Retabled d.tdma (tdmaSlotStart d start o).2.tdma := by
  unfold tdmaSlotStart
  split
  · exact ⟨rfl, rfl, rfl, .refl _⟩
  · exact ⟨rfl, rfl, rfl, retabled_clear _⟩

theorem EventFits.nodeRole {s'} (h : EventFits s e) (hs : nodeRole s = true)
    (hs' : TdmaControl.nodeRole s' = true) : EventFits s' e := by
  cases e with
  | dataTx f | dataRx f => rintro rfl; cases hs'
  | beaconTick | coordAssoc f => rw [show s = .coord from h] at hs; cases hs
  | _ => exact hs'

theorem Control.accept (hC : Control m .empty queue) (scan : m.state = .scan)
    (zero : scanCount m = 0) (net : m.net = none) (rx : m.rxHandler = .nodeRx) :
    Control { m with state := .wait, timeoutTimer := true } .empty queue := by
  have htx := hC.txNode (by rw [scan]; rfl)
  have hq := hC.scan_queue scan
  exact {
    phy := hC.phy
    net := fun op ok hop => by simp [net] at hop
    events := fun e he => (hC.events e he).nodeRole (by rw [scan]; rfl) rfl
    queue := fun f hf => by simp [hq] at hf
    slot := trivial
    scans := zero.le
    timeout := fun _ => rfl
    beaconTimer := fun h => by simpa [scan] using hC.beaconTimer h
    beacon := fun f h => by simpa [scan] using hC.beacon f h
    beaconType := fun h => by cases h
    handlers := ⟨rx, htx⟩
    idle := fun h => by cases h }

section

variable (hK : Kept d L) (hand : L.hand = [.node]) (load : L.load = []) (empty : L.slot = .empty)
  (net : d.net = none) (scan : d.tdma.state = .scan) (zero : scanCount (mode d) = 0)

include hK hand load empty net scan zero

theorem sound_scanAccept {p} : Sound (scanAccept d p o) := by
  obtain ⟨free, queue, slot, chain, events, _, _⟩ := L
  cases empty
  cases hand
  cases load
  have htx : d.tdma.txHandler = .nodeTx :=
    hK.control.txNode (by rw [show (mode d).state = _ from scan]; rfl)
  have hR : Kept { d with tdma := scanRegister d.tdma p }
      ⟨free, queue, .empty, chain, events, [.node], []⟩ := by
    refine ⟨hK.books, { hK.control with slot := trivial, handlers := ?_ }⟩
    change Handlers d.tdma.state .nodeRx d.tdma.txHandler
    rw [scan]
    exact ⟨by simp, htx⟩
  have hS := hR.slotStart p.timestamp (o := o) rfl (netIdle_of_none net)
    (by simp [scanRegister, scan])
  unfold scanAccept
  dsimp only
  obtain ⟨happli, hrunning, hnet, htdma⟩ :=
    tdmaSlotStart_kept { d with tdma := scanRegister d.tdma p } p.timestamp o
  generalize (tdmaSlotStart _ p.timestamp o).2 = d' at *
  have htable := retabled_scanTable d'.tdma p
  have hT := hS.retable htable
  have hzero : scanCount (mode { d' with tdma := scanTable d'.tdma p }) = 0 := by
    have hphy : d'.phy = none := hS.control.phy_none
    simp only [scanCount, mode, happli, hrunning, hnet, hphy, scanOp_none] at zero ⊢
    omega
  refine ⟨_, _, _, ⟨hT.books.dropStatic (by simp [FrameId.isPool]),
    hT.control.accept ?_ hzero (hnet.trans net) ?_⟩, rfl, rfl, rfl, rfl⟩
  · exact htable.state_eq.trans (htdma.state_eq.trans scan)
  · exact htable.rxHandler_eq.trans htdma.rxHandler_eq

theorem sound_scanHandler : Sound (scanHandler d .node o) := by
  have rescan : ∀ {d' : Device}, Kept d' L → d'.tdma.state = .scan → scanCount (mode d') = 0 →
      Sound (d'.eventPost .scanStart) := by
    intro d' hK' hscan hzero
    have hB := hK'.books.dropStatic (by simp [hand, FrameId.isPool])
    exact ⟨_, _, _, ⟨hB.postHand rfl rfl rfl, hK'.control.postScan hscan hzero⟩,
      rfl, load, rfl, rfl⟩
  have hU := hK.update (f := .node) (hK.hand_stored (by simp [hand]))
    (fun fr => { fr with pkt := (d.heap .node).pkt.headerDecode }) (fun h => by cases h)
  unfold scanHandler
  split
  · exact rescan hK scan zero
  · dsimp only
    split
    · exact sound_scanAccept hU hand load empty net scan zero
    · exact rescan hU scan zero

end

theorem sound_slotScanHandler {ok} {d'} (hK : Kept d L) (hand : L.hand = [])
    (load : L.load = []) (net : d.net = none) (phy : d.phy = none) (hu : L.slot = .scan)
    (zero : scanCount (mode d) = 0) (h : slotScanHandler d ok o = some d') : Sound d' := by
  obtain ⟨free, queue, slot, chain, events, _, _⟩ := L
  cases hu
  cases hand
  cases load
  have hframe : d.sf.frame = some .node := hK.books.slot
  obtain ⟨scan, hrx⟩ : d.tdma.state = .scan ∧ d.tdma.rxHandler = .scan := hK.control.slot
  have hE := hK.endSlot rfl rfl (netIdle_of_none net) phy
  have hS := hE.update (f := .node) (hE.hand_stored (by simp [SlotUse.plain, SlotUse.frames]))
    (fun fr => { fr with status := if ok then .recv else .failed }) (fun h => by cases h)
  unfold slotScanHandler at h
  rw [hframe] at h
  have hrun : ∀ D : Device, D.tdma.rxHandler = .scan →
      rxHandler D .node o = scanHandler D .node o := by
    intro D hD
    rw [rxHandler, hD]
  cases h
  rw [hrun _ (by exact hrx)]
  exact sound_scanHandler hS rfl rfl rfl net scan zero

theorem Control.move {queue'} (hC : Control m u queue)
    (role : nodeRole m.state = true) (noScan : m.state ≠ .scan) (role' : nodeRole s = true)
    (noScan' : s ≠ .scan) (slot : SlotFits s m.rxHandler u) (fits : ∀ f ∈ queue', QueueFits s f) :
    Control { m with state := s, timeoutTimer := true } u queue' := by
  have zero : scanLimit m.state = 0 := by
    revert noScan
    cases m.state <;> simp [scanLimit]
  have hnode : m.rxHandler = .nodeRx ∧ m.txHandler = .nodeTx := by
    have := hC.handlers
    revert role noScan this
    cases m.state <;> simp [Handlers, nodeRole]
  exact {
    phy := hC.phy
    net := fun op ok hop => by
      rcases hC.net op ok hop with h | h
      · exact .inl h
      · exact absurd h.1 noScan
    events := fun e he => (hC.events e he).nodeRole role role'
    queue := fits
    slot := slot
    scans := by
      have := hC.scans
      rw [zero] at this
      exact this.trans (Nat.zero_le _)
    timeout := fun _ => role'
    beaconTimer := fun h => by
      have := hC.beaconTimer h
      rw [this] at role
      cases role
    beacon := fun f h => by
      have := (hC.beacon f h).2
      rw [this] at role
      cases role
    beaconType := fun h => by
      rw [show s = .coord from h] at role'
      cases role'
    handlers := by
      revert role' noScan'
      cases s <;> simp [Handlers, nodeRole, hnode]
    idle := fun h => by
      rw [show s = .idle from h] at role'
      cases role' }

theorem SlotFits.connect (h : SlotFits .assoc rx u) : SlotFits .node rx u := by
  rcases u with _ | f | f | _
  · trivial
  · exact ⟨by simp, by simp⟩
  · cases f <;> simp [SlotFits] at h ⊢
  · simp [SlotFits] at h

theorem QueueFits.connect (h : QueueFits .assoc f) : QueueFits .node f := by
  cases f <;> simp [QueueFits] at h ⊢

theorem sound_nodeBeacon (hK : Kept d L) (hand : L.hand = [f]) (load : L.load = [])
    (hp : f.isPool) (role : nodeRole d.tdma.state = true) : Sound (nodeBeacon d f) := by
  have hne : f ≠ .beacon := by
    rintro rfl
    simp [FrameId.isPool] at hp
  unfold nodeBeacon
  dsimp only
  split
  · generalize hq : unpackOwners _ _ = q
    have hU := hK.update (f := f) (hK.hand_stored (by simp [hand]))
      (fun fr => { fr with pkt := q }) (fun h => absurd h hne)
    rcases beaconSwitch_eq d.tdma q with ⟨htable, htimer⟩ | ⟨hassoc, htimer, htable⟩
    · have hT := hU.retable htable
      refine (settled_free (d := { d.setPkt f q with
        sf := tdmaSlotUpdateFrameStart d.sf (d.heap f).pkt.timestamp
        tdma := (beaconSwitch d.tdma q).1
        timeoutTimer := d.timeoutTimer || (beaconSwitch d.tdma q).2 })
        ⟨hT.books, { hT.control with timeout := fun h => ?_ }⟩ hand load hp).sound
      exact (congrArg nodeRole htable.state_eq).trans role
    · have hM : Control _ L.slot L.queue :=
        hU.control.move (s := .node) role (by simp [mode, Device.update, hassoc]) rfl (by simp)
          ?_ ?_
      · obtain ⟨n, s, htable⟩ := htable
        refine (settled_free (d := { d.setPkt f q with
          sf := tdmaSlotUpdateFrameStart d.sf (d.heap f).pkt.timestamp
          tdma := (beaconSwitch d.tdma q).1
          timeoutTimer := d.timeoutTimer || (beaconSwitch d.tdma q).2 })
          ⟨?_, ?_⟩ hand load hp).sound
        · rw [htable]
          exact hU.books
        · rw [htable, htimer, Bool.or_true]
          exact hM
      · have hslot : SlotFits d.tdma.state d.tdma.rxHandler L.slot := hK.control.slot
        rw [hassoc] at hslot
        exact hslot.connect
      · intro g hg
        have hqueue : QueueFits d.tdma.state g := hK.control.queue g hg
        rw [hassoc] at hqueue
        exact hqueue.connect
  · exact (settled_free hK hand load hp).sound

theorem Control.wait_slot (hC : Control m u queue) (wait : m.state = .wait) :
    queue = [] ∧ (u = .empty ∨ ∃ f, u = .rx f) := by
  constructor
  · refine eq_nil_iff_forall_not_mem.mpr fun f hf => ?_
    have := hC.queue f hf
    rw [wait] at this
    cases f <;> simp [QueueFits] at this
  · have hs := hC.slot
    rw [wait] at hs
    rcases u with _ | f | f | _
    · exact .inl rfl
    · exact .inr ⟨f, rfl⟩
    · cases f <;> simp [SlotFits] at hs
    · simp [SlotFits] at hs

theorem sound_sendAssociationRequest (hK : Kept d L) (hand : L.hand = []) (load : L.load = [])
    (wait : d.tdma.state = .wait) : Sound (sendAssociationRequest d) := by
  obtain ⟨free, queue, slot, chain, events, _, _⟩ := L
  cases hand
  cases load
  obtain ⟨hq, hu⟩ := hK.control.wait_slot wait
  cases hq
  have hslot : SlotHolds (holdings d) slot := hK.books.slot
  have absent : stored (holdings d) ⟨free, [], slot, chain, events, [], []⟩ .node = 0 := by
    refine hK.books.stored_static rfl (by simp) ?_
    rcases hu with rfl | ⟨f, rfl⟩
    · simp
    · have hp : f.isPool := hslot.2.1
      simp only [SlotUse.frames, mem_singleton]
      rintro rfl
      simp [FrameId.isPool] at hp
  have hN : Kept d ⟨free, [], slot, chain, events, [.node], []⟩ :=
    ⟨hK.books.takeStatic rfl rfl absent rfl, hK.control⟩
  have hP := hN.update (f := .node) (hN.hand_stored (by simp))
    (fun fr => { fr with next := none, cb := none, arg := 0, status := .idle })
    (fun h => by cases h)
  unfold sendAssociationRequest
  dsimp only
  generalize ({ Packet.setByte _ 0 _ with length := _ } : Packet) = p
  have hU := hP.update (f := .node) (hP.hand_stored (by simp))
    (fun fr => { fr with pkt := p }) (fun h => by cases h)
  refine ⟨_, _, _, ⟨hU.books.putNode rfl rfl ?_ ?_, hU.control.move (s := .assoc) ?_ ?_ rfl
    (by simp) ?_ ?_⟩, rfl, rfl, rfl, rfl⟩
  · simp [Holdings.next, holdings, Device.update]
  · simp [holdings, Device.update]
  · exact (congrArg nodeRole wait).trans rfl
  · simp [mode, Device.update, wait]
  · rcases hu with rfl | ⟨f, rfl⟩
    · trivial
    · exact ⟨by simp, by simp⟩
  · simp [QueueFits]

theorem unlink_node {fuel} {pre rest}
    (hc : Chain d.next d.tdma.txFrames (pre ++ .node :: rest)) :
    ∃ d₂, unstack (fuel + 1) d pre.getLast? (some .node) =
        unstack fuel d₂ pre.getLast? rest.head? ∧
      (∃ heap₂ tx₂, d₂ = { d with heap := heap₂, tdma := { d.tdma with txFrames := tx₂ } }) ∧
      Chain d₂.next d₂.tdma.txFrames (pre ++ rest) ∧
      (∀ b, b ∉ pre → b ≠ .node → d₂.heap b = d.heap b) ∧
      (∀ b, (d₂.heap b).status = (d.heap b).status ∧ (d₂.heap b).cb = (d.heap b).cb ∧
        (d₂.heap b).arg = (d.heap b).arg) := by
  have hnodup := hc.nodup
  have hafter : d.next .node = rest.head? := hc.next_eq
  have hnode : .node ∉ pre ++ rest := by
    have : (.node :: (pre ++ rest)).Nodup := nodup_middle.mp hnodup
    exact (nodup_cons.mp this).1
  have keep : ∀ (D : Device) (b : FrameId), b ≠ .node → (D.setNext .node none).next b = D.next b :=
    fun D b hb => congrArg Frame.next (Device.heap_update_of_ne D hb _)
  rcases eq_nil_or_concat pre with rfl | ⟨pre', q, rfl⟩
  · have htail : Chain d.next rest.head? rest := hafter ▸ hc.tail
    refine ⟨({ d with tdma := { d.tdma with txFrames := d.next .node } } : Device).setNext .node
      none, ?_, ⟨_, _, rfl⟩, ?_, ?_, ?_⟩
    · simp [unstack, hafter]
    · rw [hafter]
      exact htail.frame fun b hb => keep _ b (by rintro rfl; simp [hb] at hnode)
    · exact fun b _ hb => Device.heap_update_of_ne _ hb _
    · exact fun b => ⟨update_proj Frame.status (by rfl), update_proj Frame.cb (by rfl),
        update_proj Frame.arg (by rfl)⟩
  · rw [concat_eq_append] at hc hnode hnodup ⊢
    obtain ⟨_, hs⟩ := hc.suffix
    have htail : Chain d.next rest.head? rest := hafter ▸ hs.tail
    have hq : q ≠ .node := by rintro rfl; simp at hnode
    have hqrest : q ∉ rest ∧ q ∉ pre' := by
      simp only [append_assoc, singleton_append] at hnodup
      have := nodup_middle.mp hnodup
      have := (nodup_cons.mp this).1
      simp only [mem_append, mem_cons, not_or] at this
      exact ⟨this.2.2, this.1⟩
    refine ⟨(d.setNext q (d.next .node)).setNext .node none, ?_, ⟨_, _, rfl⟩, ?_, ?_, ?_⟩
    · simp [unstack, hafter]
    · rw [append_assoc, singleton_append] at hc ⊢
      refine hc.redirect (r := rest.head?) (fun b hb => ?_) ?_ ?_
      · rw [keep _ b (by rintro rfl; simp [hb] at hnode)]
        exact congrArg Frame.next (Device.heap_update_of_ne d
          (by rintro rfl; exact hqrest.2 hb) _)
      · rw [keep _ q hq, ← hafter]
        simp [Device.next, Device.setNext, Device.heap_update_self]
      · refine htail.frame fun b hb => ?_
        rw [keep _ b (by rintro rfl; simp [hb] at hnode)]
        exact congrArg Frame.next (Device.heap_update_of_ne d
          (by rintro rfl; exact hqrest.1 hb) _)
    · intro b hb hbn
      refine (Device.heap_update_of_ne _ hbn _).trans (Device.heap_update_of_ne d ?_ _)
      rintro rfl
      simp at hb
    · exact fun b => ⟨(update_proj Frame.status (by rfl)).trans (update_proj Frame.status (by rfl)),
        (update_proj Frame.cb (by rfl)).trans (update_proj Frame.cb (by rfl)),
        (update_proj Frame.arg (by rfl)).trans (update_proj Frame.arg (by rfl))⟩

/-- The loop of `node_timeout` on a queue whose part `pre` it has passed: it unlinks
`node_frame`, fails the other frames and touches nothing else. -/
theorem unstack_spec {fuel} (pre : List FrameId) {rest}
    (hc : Chain d.next d.tdma.txFrames (pre ++ rest)) (enough : rest.length < fuel) :
    ∃ heap' tx', unstack fuel d pre.getLast? rest.head? =
        { d with heap := heap', tdma := { d.tdma with txFrames := tx' } } ∧
      Chain (fun a => (heap' a).next) tx' (pre ++ rest.filter (· ≠ .node)) ∧
      (∀ a, a ∉ pre ++ rest → heap' a = d.heap a) ∧
      (∀ a ∈ rest, a ≠ .node → (heap' a).status = .failed) ∧
      (∀ a ∈ pre, a ≠ .node → (heap' a).status = (d.heap a).status) ∧
      (∀ a, (heap' a).cb = (d.heap a).cb ∧ (heap' a).arg = (d.heap a).arg) := by
  induction rest generalizing fuel d pre with
  | nil =>
    obtain ⟨fuel, rfl⟩ : ∃ k, fuel = k + 1 := ⟨fuel - 1, by omega⟩
    exact ⟨d.heap, d.tdma.txFrames, rfl, hc, fun _ _ => rfl, by simp, fun _ _ _ => rfl,
      fun _ => ⟨rfl, rfl⟩⟩
  | cons a rest ih =>
    obtain ⟨fuel, rfl⟩ : ∃ k, fuel = k + 1 := ⟨fuel - 1, by omega⟩
    have hnodup := hc.nodup
    have hafter : d.next a = rest.head? := hc.next_eq
    have less : rest.length < fuel := by simpa using enough
    by_cases ha : a = .node
    · subst ha
      obtain ⟨d₂, hrun, hd₂, hchain, hother, hstatus⟩ : ∃ d₂,
          unstack (fuel + 1) d pre.getLast? (some .node) =
            unstack fuel d₂ pre.getLast? rest.head? ∧
          (∃ heap₂ tx₂, d₂ = { d with
            heap := heap₂, tdma := { d.tdma with txFrames := tx₂ } }) ∧
          Chain d₂.next d₂.tdma.txFrames (pre ++ rest) ∧
          (∀ b, b ∉ pre → b ≠ .node → d₂.heap b = d.heap b) ∧
          (∀ b, (d₂.heap b).status = (d.heap b).status ∧ (d₂.heap b).cb = (d.heap b).cb ∧
            (d₂.heap b).arg = (d.heap b).arg) :=
        unlink_node hc
      obtain ⟨heap', tx', heq, hch, hsame, hrest, hpre, hown⟩ := ih _ hchain less
      obtain ⟨heap₂, tx₂, rfl⟩ := hd₂
      refine ⟨heap', tx', hrun.trans heq, by simpa using hch, fun b hb => ?_, fun b hb hbn => ?_,
        fun b hb hbn => (hpre b hb hbn).trans (hstatus b).1,
        fun b => ⟨(hown b).1.trans (hstatus b).2.1, (hown b).2.trans (hstatus b).2.2⟩⟩
      · simp only [mem_append, mem_cons, not_or] at hb
        rw [hsame b (by simp [hb]), hother b hb.1 hb.2.1]
      · rcases mem_cons.mp hb with rfl | hb
        · exact absurd rfl hbn
        · exact hrest b hb hbn
    · have hnext : ∀ b, (d.setStatus a .failed).next b = d.next b := fun b =>
        update_proj Frame.next (by rfl)
      have hch' : Chain (d.setStatus a .failed).next (d.setStatus a .failed).tdma.txFrames
          ((pre ++ [a]) ++ rest) := by
        rw [append_assoc]
        exact hc.frame fun b _ => hnext b
      obtain ⟨heap', tx', heq, hch, hsame, hrest, hpre, hown⟩ := ih _ hch' less
      rw [getLast?_concat, ← hafter, ← hnext] at heq
      refine ⟨heap', tx', ?_, ?_, fun b hb => ?_, fun b hb hbn => ?_, fun b hb hbn => ?_,
        fun b => ⟨(hown b).1.trans (update_proj Frame.cb (by rfl)),
          (hown b).2.trans (update_proj Frame.arg (by rfl))⟩⟩
      · rw [head?_cons, unstack, if_neg ha]
        exact heq
      · rw [filter_cons_of_pos (by simpa using ha)]
        simpa using hch
      · simp only [mem_append, mem_cons, not_or] at hb
        rw [hsame b (by simp [hb])]
        exact Device.heap_update_of_ne d hb.2.1 _
      · rcases mem_cons.mp hb with rfl | hb
        · rw [hpre b (by simp) hbn]
          exact congrArg Frame.status (Device.heap_update_self d b _)
        · exact hrest b hb hbn
      · rw [hpre b (by simp [hb]) hbn]
        refine congrArg Frame.status (Device.heap_update_of_ne d ?_ _)
        rintro rfl
        exact (nodup_append.mp hnodup).2.2 b hb b mem_cons_self rfl

theorem txHandler_net (d : Device) (x : Option NetCall) (f : FrameId) :
    txHandler { d with net := x } f = { txHandler d f with net := x } := by
  simp only [txHandler]
  cases d.tdma.txHandler with
  | coordTx =>
    simp only [coordTxHandler]
    cases (d.heap f).pkt.headerType <;> rfl
  | nodeTx =>
    simp only [nodeTxHandler]
    split <;> rfl

theorem tdmaSlotStop_net (d : Device) (x : Option NetCall) :
    tdmaSlotStop { d with net := x } = { tdmaSlotStop d with net := x } := by
  simp only [tdmaSlotStop, Device.phyStop]
  cases d.sf.frame with
  | none => rfl
  | some f =>
    by_cases h : (d.heap f).status = .rx
    · simp only [h, if_true]
      rfl
    · simp only [h, if_false]
      exact txHandler_net { d with
        phy := none, slotTimer := false, sf := { d.sf with frame := none } } x f

theorem unstack_net (fuel : Nat) (d : Device) (x : Option NetCall) (p f : Option FrameId) :
    unstack fuel { d with net := x } p f = { unstack fuel d p f with net := x } := by
  induction fuel generalizing d p f with
  | zero => rfl
  | succ fuel ih =>
    cases f with
    | none => rfl
    | some f =>
      by_cases h : f = .node
      · simp only [unstack, h, if_true]
        cases p with
        | none =>
          exact ih (({ d with tdma := { d.tdma with txFrames := d.next .node } } : Device).setNext
            .node none) none _
        | some q => exact ih ((d.setNext q (d.next .node)).setNext .node none) (some q) _
      · simp only [unstack, h, if_false]
        exact ih (d.setStatus f .failed) (some f) _

theorem nodeTimeout_net (d : Device) (x : Option NetCall) :
    nodeTimeout { d with net := x } = { nodeTimeout d with net := x } := by
  unfold nodeTimeout
  dsimp only
  split
  · rfl
  · rw [tdmaSlotStop_net, unstack_net]
    cases (unstack _ _ _ _).tdma.txFrames <;> rfl

theorem txHandler_kept (d : Device) (f : FrameId) : (txHandler d f).tdma = d.tdma ∧
    (txHandler d f).net = d.net ∧ (txHandler d f).running = d.running := by
  unfold txHandler
  split
  · unfold coordTxHandler
    split <;> exact ⟨rfl, rfl, rfl⟩
  · unfold nodeTxHandler
    split <;> exact ⟨rfl, rfl, rfl⟩

theorem tdmaSlotStop_kept (d : Device) : (tdmaSlotStop d).tdma = d.tdma ∧
    (tdmaSlotStop d).net = d.net ∧ (tdmaSlotStop d).running = d.running := by
  unfold tdmaSlotStop
  dsimp only
  split
  · exact ⟨rfl, rfl, rfl⟩
  · split
    · exact ⟨rfl, rfl, rfl⟩
    · exact txHandler_kept _ _

theorem settled_slotStop (hK : Kept d L) (hand : L.hand = []) (load : L.load = [])
    (net : NetIdle d) (role : nodeRole d.tdma.state = true) (noScan : d.tdma.state ≠ .scan) :
    Settled (tdmaSlotStop d) .empty L.queue := by
  have hslot : SlotHolds (holdings d) L.slot := hK.books.slot
  have hfits : SlotFits d.tdma.state d.tdma.rxHandler L.slot := hK.control.slot
  have busy : d.tdma.state ≠ .idle := fun h => by rw [h] at role; cases role
  have hE : Kept { d.phyStop with slotTimer := false, sf := { d.sf with frame := none } }
      { L with slot := .empty, hand := L.slot.plain, load := L.slot.data } := by
    have hE := (hK.phyStop net).endSlot hand load net rfl
    exact ⟨hE.books, { hE.control with idle := fun h => absurd h busy }⟩
  unfold tdmaSlotStop
  cases hu : L.slot with
  | empty =>
    rw [hu] at hslot hE
    have hframe : d.sf.frame = none := hslot
    rw [hframe]
    exact ⟨_, hE, rfl, rfl, rfl, rfl⟩
  | rx f =>
    rw [hu] at hslot hE
    obtain ⟨hframe, hp, hstatus⟩ := hslot
    have hframe : d.sf.frame = some f := hframe
    have hstatus : (d.heap f).status = .rx := hstatus
    rw [hframe]
    simp only [Device.phyStop, hstatus, if_true]
    exact settled_free hE rfl rfl hp
  | tx f =>
    rw [hu] at hslot hE hfits
    obtain ⟨hframe, link, idle, data⟩ := hslot
    have hframe : d.sf.frame = some f := hframe
    have hne : f ≠ .beacon := by
      rintro rfl
      rw [show d.tdma.state = .coord from hfits] at role
      cases role
    have hstatus : (d.heap f).status = .idle := idle hne
    rw [hframe]
    simp only [Device.phyStop, hstatus, reduceCtorEq, if_false]
    refine settled_txHandler hE rfl rfl hfits.tx_fits fun hp => ⟨link, ?_, data hp⟩
    intro h
    rw [show (d.heap f).status = .sent from h] at hstatus
    cases hstatus
  | scan =>
    rw [hu] at hfits
    exact absurd hfits.1 noScan

theorem Control.zero_scans (hC : Control m u queue) (noScan : m.state ≠ .scan) :
    scanCount m = 0 := by
  have := hC.scans
  revert noScan this
  cases m.state <;> simp [scanLimit]

theorem Control.disconnect (hC : Control m .empty queue) (role : nodeRole m.state = true)
    (noScan : m.state ≠ .scan) (net : m.net = none) (idle : m.running = none) (type : TdmaType) :
    Control { m with state := .scan, running := some .postScan, beaconType := type } .empty [] where
  phy := hC.phy
  net := fun op ok hop => by simp [net] at hop
  events := fun e he => (hC.events e he).nodeRole role rfl
  queue := fun f hf => by cases hf
  slot := trivial
  scans := by
    have := hC.zero_scans noScan
    simp only [scanCount, idle, scanNext, scanLimit] at this ⊢
    omega
  timeout := fun _ => rfl
  beaconTimer := fun h => by
    have := hC.beaconTimer h
    rw [this] at role
    cases role
  beacon := fun f h => by
    have := (hC.beacon f h).2
    rw [this] at role
    cases role
  beaconType := fun h => by cases h
  handlers := by
    have := hC.handlers
    revert role noScan this
    cases m.state <;> simp +contextual [Handlers, nodeRole]
  idle := fun h => by cases h

section

variable (hK : Kept d L) (hand : L.hand = []) (load : L.load = [])
  (role : nodeRole d.tdma.state = true) (noScan : d.tdma.state ≠ .scan)

include hK hand load role noScan

theorem kept_disconnect (noWait : d.tdma.state ≠ .wait) (net : d.net = none)
    (idle : d.running = none) :
    Settled (nodeTimeout d) .empty [] ∧ (nodeTimeout d).tdma.state = .scan := by
  obtain ⟨⟨free, queue, slot, chain, events, _, _⟩, hS, rfl, rfl, rfl, -⟩ :=
    settled_slotStop hK hand load (netIdle_of_none net) role noScan
  obtain ⟨htdma, hnet, hrunning⟩ := tdmaSlotStop_kept d
  unfold nodeTimeout
  rw [if_neg noWait]
  dsimp only
  generalize tdmaSlotStop d = D at *
  have hq : Chain D.next D.tdma.txFrames queue := hS.books.queue
  obtain ⟨heap', tx', heq, hch, hsame, hfail, -, hown⟩ := unstack_spec [] hq
    (Nat.lt_succ_of_le (length_le_frameCount hq.nodup))
  rw [getLast?_nil, ← hq.head_eq] at heq
  rw [heq]
  have hfilter : queue.filter (· ≠ .node) = queue.filter FrameId.isPool := by
    refine filter_congr fun a ha => ?_
    rcases (hS.books.queued a ha).kind with rfl | ⟨h, -⟩
    · rfl
    · cases a <;> simp_all [FrameId.isPool]
  rw [nil_append, hfilter] at hch
  have role' : nodeRole D.tdma.state = true := htdma ▸ role
  have noScan' : D.tdma.state ≠ .scan := htdma ▸ noScan
  have hB := (hS.books.cutQueue heap' rfl rfl
    (fun a ha => hsame a (by simpa using ha))).dropStatic (by simp)
  have hB := hB.beginScan (hrunning.trans idle)
  have hC := hS.control.disconnect role' noScan' (hnet.trans net) (hrunning.trans idle)
    (heap' .beacon).pkt.headerType
  cases tx' with
  | none =>
    rw [chain_none_iff] at hch
    exact ⟨⟨_, ⟨hB, hC⟩, rfl, hch, rfl, rfl⟩, rfl⟩
  | some g =>
    have hdone : AllDone { holdings D with heap := heap' } (queue.filter FrameId.isPool) := by
      intro a ha
      obtain ⟨ha, hp⟩ := mem_filter.mp ha
      refine ⟨hp, fun hsent => ?_, ?_⟩
      · rw [hfail a ha (by rintro rfl; cases hp)] at hsent
        cases hsent
      · rcases (hS.books.queued a ha).kind with rfl | ⟨-, -, req, hreq, hcb, harg⟩
        · cases hp
        · exact ⟨req, hreq, hcb.trans (hown a).1.symm, harg.trans (hown a).2.symm⟩
    exact ⟨⟨_, ⟨hB.postLoad ⟨hch, hdone⟩, hC.post (by simp [EventFits]) (by simp)⟩, rfl, rfl,
      rfl, rfl⟩, rfl⟩

theorem sound_nodeTimeout (idle : d.running = none) : Sound (nodeTimeout d) := by
  by_cases wait : d.tdma.state = .wait
  · rw [nodeTimeout, if_pos wait]
    exact sound_sendAssociationRequest hK hand load wait
  · have zero := hK.control.zero_scans noScan
    have hK₀ : Kept { d with net := none } L :=
      ⟨hK.books, { hK.control with
        net := fun op ok hop => by cases hop
        scans := by
          have := hK.control.scans
          simp only [scanCount, mode, scanDone_none] at this ⊢
          omega
        idle := fun h => by
          rw [show d.tdma.state = .idle from h] at role
          cases role }⟩
    obtain ⟨⟨L', hS, hhand, hload, hslot, hqueue⟩, hscan⟩ :=
      kept_disconnect hK₀ hand load role noScan wait rfl idle
    -- a completion the network task waits in has become stale
    have stale : ∀ op ok, d.net = some (.done op ok) → op.kind ≠ .scan := by
      rintro ⟨k, f⟩ ok hop rfl
      have hone : scanDone d.net = 1 := by rw [hop]; rfl
      have hnet : (mode d).net = d.net := rfl
      unfold scanCount at zero
      rw [hnet, hone] at zero
      omega
    have hnone : (nodeTimeout { d with net := none }).net = none :=
      congrArg Device.net (nodeTimeout_net d none)
    have hback : nodeTimeout d = { nodeTimeout { d with net := none } with net := d.net } :=
      nodeTimeout_net { d with net := none } d.net
    have hdone : scanDone d.net = 0 := by
      have hnet : (mode d).net = d.net := rfl
      unfold scanCount at zero
      rw [hnet] at zero
      omega
    rw [hback]
    refine ⟨_, _, L', ⟨hS.books, { hS.control with net := ?_, scans := ?_, idle := ?_ }⟩,
      hhand, hload, rfl, rfl⟩
    · exact fun op ok hop => .inr ⟨hscan, stale op ok hop⟩
    · have := hS.control.scans
      simp only [scanCount, mode, hnone, hdone, scanDone_none] at this ⊢
      exact this
    · exact fun h => absurd (hscan.symm.trans h) (by simp)

end

theorem Kept.ticket_current (hK : Kept d L) (hf : f ∈ L.hand ++ L.load) (cur : Current L.slot op)
    (kind : op.kind = .tx) : op.frame ≠ f := by
  rintro rfl
  have := hK.hand_stored hf
  rcases op with ⟨k, g⟩
  cases kind
  have hslot : L.slot = .tx g := cur
  unfold stored at this
  rw [hslot] at this
  simp [SlotUse.frames] at this

theorem Current.busy (cur : Current u op) (hC : Control m u queue) : m.state ≠ .idle := by
  intro h
  have hs := hC.slot
  rw [h] at hs
  rcases u with _ | g | g | _
  · exact cur.ne_empty rfl
  · exact hs.1 rfl
  · cases g <;> simp [SlotFits] at hs
  · simp [SlotFits] at hs

theorem Control.complete (hC : Control m u queue) (ok : Bool) (txOk : List Nat)
    (phy : m.phy = some op) (net : m.net = none)
    (hok : op.kind = .tx → op.frame.isPool → ok = true → m.ticket op.frame ∈ txOk) :
    Control { m with phy := none, net := some (.done op ok), txOk := txOk } u queue := by
  have cur := hC.phy op phy
  exact { hC with
    phy := fun op' h => by cases h
    net := fun op' ok' h => by
      cases h
      exact .inl ⟨cur, rfl, hok⟩
    scans := by
      have := hC.scans
      simp only [scanCount, phy, net, scanOp_none, scanDone_none] at this ⊢
      exact this
    idle := fun h => absurd (show m.state = .idle from h) (cur.busy hC) }

end TdmaControl
