import OpenLab.TdmaTable

/-!
# What one step does to the slot table and the slot times

`Effect d a d'` lists everything an action can do to the slot table, the slot times, the started
transmissions and the state of the device.
-/

namespace TdmaEffects

open TdmaTypes TdmaCore TdmaHandlers TdmaDevice TdmaTable

structure SameTable (t t' : Tdma) : Prop where
  addr : t'.addr = t.addr
  slotDuration : t'.slotDuration = t.slotDuration
  slotCount : t'.slotCount = t.slotCount
  txSlots : t'.txSlots = t.txSlots
  slots : t'.slots = t.slots

structure SameTimes (s s' : SlotsFrame) : Prop where
  frameDuration : s'.frameDuration = s.frameDuration
  frameStart : s'.frameStart = s.frameStart
  slotTime : s'.slotTime = s.slotTime
  nextIndex : s'.nextIndex = s.nextIndex

theorem SameTable.refl (t : Tdma) : SameTable t t := ⟨rfl, rfl, rfl, rfl, rfl⟩

theorem SameTimes.refl (s : SlotsFrame) : SameTimes s s := ⟨rfl, rfl, rfl, rfl⟩

theorem SameTable.trans {t t' t''} (h : SameTable t t') (h' : SameTable t' t'') :
    SameTable t t'' where
  addr := h'.addr.trans h.addr
  slotDuration := h'.slotDuration.trans h.slotDuration
  slotCount := h'.slotCount.trans h.slotCount
  txSlots := h'.txSlots.trans h.txSlots
  slots := h'.slots.trans h.slots

theorem SameTimes.trans {s s' s''} (h : SameTimes s s') (h' : SameTimes s' s'') :
    SameTimes s s'' where
  frameDuration := h'.frameDuration.trans h.frameDuration
  frameStart := h'.frameStart.trans h.frameStart
  slotTime := h'.slotTime.trans h.slotTime
  nextIndex := h'.nextIndex.trans h.nextIndex

/-- A handler that leaves the table, the times, the state and the slot timer alone. -/
structure Steady (d d' : Device) : Prop where
  table : SameTable d.tdma d'.tdma
  times : SameTimes d.sf d'.sf
  log : d'.ghost.txLog = d.ghost.txLog
  state : d'.tdma.state = d.tdma.state
  timer : d'.slotTimer = d.slotTimer
  events : d'.slotEvents = d.slotEvents
  net : d'.net = d.net

variable {d d' d'' : Device}

theorem Steady.refl (d : Device) : Steady d d :=
  ⟨.refl _, .refl _, rfl, rfl, rfl, rfl, rfl⟩

theorem Steady.trans (h : Steady d d') (h' : Steady d' d'') : Steady d d'' where
  table := h.table.trans h'.table
  times := h.times.trans h'.times
  log := h'.log.trans h.log
  state := h'.state.trans h.state
  timer := h'.timer.trans h.timer
  events := h'.events.trans h.events
  net := h'.net.trans h.net

theorem steady_free (d : Device) (f : FrameId) : Steady d (tdmaFrameFree d f) :=
  ⟨.refl _, .refl _, rfl, rfl, rfl, rfl, rfl⟩

theorem steady_post (d : Device) (e : AppliEvent) : Steady d (d.eventPost e) :=
  ⟨.refl _, .refl _, rfl, rfl, rfl, rfl, rfl⟩

theorem steady_txHandler (d : Device) (f : FrameId) : Steady d (txHandler d f) := by
  unfold txHandler
  split
  · unfold coordTxHandler
    split
    · exact ⟨.refl _, .refl _, rfl, rfl, rfl, rfl, rfl⟩
    · exact steady_post d _
    · exact .refl d
  · unfold nodeTxHandler
    split
    · exact .refl d
    · exact steady_post d _

theorem steady_coordRx (d : Device) (f : FrameId) : Steady d (coordRxHandler d f) := by
  unfold coordRxHandler
  split
  · exact steady_post d _
  · split
    · exact steady_post d _
    · exact steady_free d f
  · exact steady_free d f

theorem steady_nodeRx (d : Device) (f : FrameId) : Steady d (nodeRxHandler d f) := by
  unfold nodeRxHandler
  split
  · split
    · exact steady_post d _
    · exact steady_free d f
  · split
    · exact steady_post d _
    · exact steady_free d f
  · exact steady_free d f

theorem steady_alloc {rem} {r} (h : tdmaFrameAlloc d rem = (r, d')) :
    Steady d d' := by
  unfold tdmaFrameAlloc at h
  split at h
  · obtain ⟨-, rfl⟩ := Prod.mk.inj h
    exact .refl d
  · split at h
    · obtain ⟨-, rfl⟩ := Prod.mk.inj h
      exact .refl d
    · obtain ⟨-, rfl⟩ := Prod.mk.inj h
      exact ⟨.refl _, .refl _, rfl, rfl, rfl, rfl, rfl⟩

theorem steady_slotRx (d : Device) (o : Oracle) : Steady d (slotRx d o) := by
  unfold slotRx
  split
  · next d' h =>
    exact (steady_alloc h).trans ⟨.refl _, ⟨rfl, rfl, rfl, rfl⟩, rfl, rfl, rfl, rfl, rfl⟩
  · next f d' h =>
    have hs := steady_alloc h
    dsimp only
    split <;> exact hs.trans ⟨.refl _, ⟨rfl, rfl, rfl, rfl⟩, rfl, rfl, rfl, rfl, rfl⟩

theorem steady_slotTxHandler (d : Device) (ok : Bool) : Steady d (slotTxHandler d ok) := by
  unfold slotTxHandler
  split
  · exact .refl d
  · refine Steady.trans ?_ (steady_txHandler _ _)
    exact ⟨.refl _, ⟨rfl, rfl, rfl, rfl⟩, rfl, rfl, rfl, rfl, rfl⟩

theorem steady_beaconPrepare (d : Device) : Steady d (beaconPrepare d) :=
  ⟨⟨rfl, rfl, rfl, rfl, rfl⟩, .refl _, rfl, rfl, rfl, rfl, rfl⟩

theorem steady_sendSubmit (d : Device) (s : Send) : Steady d (sendSubmit d s) := by
  unfold sendSubmit
  split
  · split
    · exact steady_free d _
    · next D h =>
      unfold tdmaFrameSend at h
      split at h
      · cases h
      · cases h
        split
        · exact ⟨.refl _, .refl _, rfl, rfl, rfl, rfl, rfl⟩
        · exact ⟨⟨rfl, rfl, rfl, rfl, rfl⟩, .refl _, rfl, rfl, rfl, rfl, rfl⟩
  · exact steady_free d _

theorem steady_sendAlloc (d : Device) (req : SendReq) : Steady d (sendAlloc d req) := by
  unfold sendAlloc
  split
  · exact .refl d
  · split
    · next h => exact steady_alloc h
    · next h =>
      exact (steady_alloc h).trans ⟨.refl _, .refl _, rfl, rfl, rfl, rfl, rfl⟩

theorem steady_dataRxHandler (d : Device) (f : FrameId) (o : Oracle) :
    Steady d (dataRxHandler d f o) := by
  unfold dataRxHandler
  dsimp only
  split
  · exact ⟨.refl _, .refl _, rfl, rfl, rfl, rfl, rfl⟩
  · exact steady_free d f

theorem steady_dataTxFinish (d : Device) (next : Option FrameId) (r : Report) :
    Steady d (dataTxFinish d next r) := by
  cases next <;> exact ⟨.refl _, .refl _, rfl, rfl, rfl, rfl, rfl⟩

theorem steady_slotStop (d : Device) :
    Steady { d with slotTimer := false } (tdmaSlotStop d) := by
  unfold tdmaSlotStop
  dsimp only
  split
  · exact ⟨.refl _, ⟨rfl, rfl, rfl, rfl⟩, rfl, rfl, rfl, rfl, rfl⟩
  · split
    · exact ⟨.refl _, ⟨rfl, rfl, rfl, rfl⟩, rfl, rfl, rfl, rfl, rfl⟩
    · refine Steady.trans ?_ (steady_txHandler _ _)
      exact ⟨.refl _, ⟨rfl, rfl, rfl, rfl⟩, rfl, rfl, rfl, rfl, rfl⟩

theorem steady_unstack (fuel : Nat) (d : Device) (p f : Option FrameId) :
    Steady d (unstack fuel d p f) := by
  induction fuel generalizing d p f with
  | zero => exact .refl d
  | succ fuel ih =>
    cases f with
    | none => exact .refl d
    | some f =>
      unfold unstack
      split
      · refine Steady.trans ?_ (ih _ _ _)
        cases p with
        | none => exact ⟨⟨rfl, rfl, rfl, rfl, rfl⟩, .refl _, rfl, rfl, rfl, rfl, rfl⟩
        | some q => exact ⟨.refl _, .refl _, rfl, rfl, rfl, rfl, rfl⟩
      · refine Steady.trans ?_ (ih _ _ _)
        exact ⟨.refl _, .refl _, rfl, rfl, rfl, rfl, rfl⟩

def scanTdma (t : Tdma) (p : Packet) : Tdma :=
  let t := scanRegister t p
  scanTable (if tdmaMaxSlots < t.slotCount.toNat then t else clearSlots t) p

def scanTimes (t : Tdma) (sf : SlotsFrame) (p : Packet) (o : Oracle) : SlotsFrame :=
  let t := scanRegister t p
  if tdmaMaxSlots < t.slotCount.toNat then sf else slotStartTimes t p.timestamp o

structure Accepted (d : Device) (p : Packet) (o : Oracle) (d' : Device) : Prop where
  table : SameTable (scanTdma d.tdma p) d'.tdma
  times : SameTimes (scanTimes d.tdma d.sf p o) d'.sf
  log : d'.ghost.txLog = d.ghost.txLog
  state : d'.tdma.state = .wait
  timer : d'.slotTimer = if tdmaMaxSlots < p.slotCount.toNat then d.slotTimer else true
  events : d'.slotEvents = d.slotEvents
  net : d'.net = d.net

variable {o : Oracle}

theorem Steady.accepted {p} (same : Steady d d') (ht : d'.tdma = d.tdma)
    (h : Accepted d' p o d'') : Accepted d p o d'' where
  table := ht ▸ h.table
  times := by
    refine SameTimes.trans ?_ (ht ▸ h.times)
    unfold scanTimes
    dsimp only
    split
    · exact same.times
    · exact .refl _
  log := h.log.trans same.log
  state := h.state
  timer := h.timer.trans (by rw [same.timer])
  events := h.events.trans same.events
  net := h.net.trans same.net

theorem accepted_scanAccept (d : Device) (p : Packet) (o : Oracle) :
    Accepted d p o (scanAccept d p o) := by
  unfold scanAccept tdmaSlotStart
  dsimp only
  by_cases hn : tdmaMaxSlots < (scanRegister d.tdma p).slotCount.toNat
  · rw [if_pos hn]
    refine ⟨?_, ?_, rfl, rfl, ?_, rfl, rfl⟩
    · simp only [scanTdma, if_pos hn]
      exact ⟨rfl, rfl, rfl, rfl, rfl⟩
    · simp only [scanTimes, if_pos hn]
      exact .refl _
    · exact (if_pos hn).symm
  · rw [if_neg hn]
    refine ⟨?_, ?_, rfl, rfl, ?_, rfl, rfl⟩
    · simp only [scanTdma, if_neg hn]
      exact ⟨rfl, rfl, rfl, rfl, rfl⟩
    · simp only [scanTimes, if_neg hn]
      exact .refl _
    · exact (if_neg hn).symm

theorem scanHandler_effect (d : Device) (f : FrameId) (o : Oracle) :
    Steady d (scanHandler d f o) ∨
      ((d.heap f).status = .recv ∧ scanAccepts d.tdma (d.heap f).pkt.headerDecode = true ∧
        Accepted d (d.heap f).pkt.headerDecode o (scanHandler d f o)) := by
  unfold scanHandler
  split
  · exact .inl (steady_post d _)
  · next hs =>
    have hpkt : ((d.setPkt f (d.heap f).pkt.headerDecode).heap f).pkt =
        (d.heap f).pkt.headerDecode := congrArg Frame.pkt (d.heap_update_self f _)
    dsimp only
    rw [hpkt]
    split
    · next ha =>
      have h := accepted_scanAccept (d.setPkt f (d.heap f).pkt.headerDecode)
        (d.heap f).pkt.headerDecode o
      have same : Steady d (d.setPkt f (d.heap f).pkt.headerDecode) :=
        ⟨.refl _, .refl _, rfl, rfl, rfl, rfl, rfl⟩
      exact .inr ⟨not_not.mp hs, ha, same.accepted rfl h⟩
    · exact .inl ⟨.refl _, .refl _, rfl, rfl, rfl, rfl, rfl⟩

theorem rxHandler_effect (d : Device) (f : FrameId) (o : Oracle) :
    Steady d (rxHandler d f o) ∨
      (d.tdma.rxHandler = .scan ∧ (d.heap f).status = .recv ∧
        scanAccepts d.tdma (d.heap f).pkt.headerDecode = true ∧
        Accepted d (d.heap f).pkt.headerDecode o (rxHandler d f o)) := by
  unfold rxHandler
  split
  · exact .inl (steady_coordRx d f)
  · exact .inl (steady_nodeRx d f)
  · next h => exact (scanHandler_effect d f o).imp_right fun ha => ⟨h, ha⟩

theorem slotTx_effect (d : Device) (slot : UInt8) (time : UInt32) (o : Oracle) :
    Steady d (slotTx d slot time o) ∨
      ∃ e : TxStart, e.slot = slot ∧ e.slotTime = time ∧
        Steady (logTx d e) (slotTx d slot time o) := by
  have start : ∀ (D : Device) (f : FrameId), Steady d D →
      ∃ e : TxStart, e.slot = slot ∧ e.slotTime = time ∧
        Steady (logTx d e) (slotTxStart D f slot time o) := by
    intro D f hD
    let E := { D with sf := { D.sf with frame := some f } }.setNext f none
    let e := txEntry E f slot time o
    have chosen : Steady (logTx d e) (logTx E e) :=
      ⟨hD.table, hD.times.trans ⟨rfl, rfl, rfl, rfl⟩, congrArg (· ++ [e]) hD.log, hD.state,
        hD.timer, hD.events, hD.net⟩
    have sent : Steady (logTx E e) (phyTx (logTx E e) f e.ok) := by
      unfold phyTx
      split
      · exact ⟨.refl _, .refl _, rfl, rfl, rfl, rfl, rfl⟩
      · refine Steady.trans ?_ (steady_txHandler _ _)
        exact ⟨.refl _, ⟨rfl, rfl, rfl, rfl⟩, rfl, rfl, rfl, rfl, rfl⟩
    exact ⟨e, rfl, rfl, chosen.trans sent⟩
  have beacon : Steady d { d with
      tdma := { d.tdma with beaconFrame := none }
      sf := { d.sf with beaconBackoff := tdmaBeaconBackoffCount + 1 } } :=
    ⟨⟨rfl, rfl, rfl, rfl, rfl⟩, ⟨rfl, rfl, rfl, rfl⟩, rfl, rfl, rfl, rfl, rfl⟩
  have data : ∀ f, Steady d { d with tdma := { d.tdma with txFrames := d.next f } } :=
    fun f => ⟨⟨rfl, rfl, rfl, rfl, rfl⟩, .refl _, rfl, rfl, rfl, rfl, rfl⟩
  unfold slotTx slotTxPick
  rcases d.tdma.beaconFrame with _ | b <;> rcases d.tdma.txFrames with _ | f
  · exact .inl (.refl d)
  · exact .inr (start _ f (data f))
  · exact .inr (start _ b beacon)
  · by_cases h : d.sf.beaconBackoff = 0
    · simp only [if_pos h]
      exact .inr (start _ b beacon)
    · simp only [if_neg h]
      exact .inr (start _ f (data f))

/-- A call of `handle_slot` is due: the slot timer runs, its event is queued, or the
network task has entered the handler. -/
def Ticking (d : Device) : Prop :=
  d.slotTimer = true ∨ 0 < d.slotEvents ∨ d.net = some .slot

/-- The beacon on which `scan_handler` leaves the scan in this step. A reception that
completes late has been decoded by `slot_rx_handler` already. -/
def scannedBeacon (d : Device) : Action → Option Packet
  | .netRun _ => match d.net, d.sf.frame, d.tdma.rxHandler with
    | some (.done ⟨.scan, _⟩ true), some f, .scan =>
      let p := (d.heap f).pkt.headerDecode
      if scanAccepts d.tdma p then some p else none
    | some (.done ⟨.rx, _⟩ true), some f, .scan =>
      let p := (d.heap f).pkt.headerDecode
      if p.isOk d.tdma.panid d.tdma.addr && scanAccepts d.tdma p.headerDecode then
        some p.headerDecode
      else none
    | _, _, _ => none
  | _ => none

/-- The beacon of its coordinator that `node_beacon` handles in this step, with its
owners unpacked. -/
def heardBeacon (d : Device) : Action → Option Packet
  | .appli _ => match d.running, d.appli with
    | none, .nodeBeacon f :: _ =>
      let p := (d.heap f).pkt
      if d.tdma.coord = p.src then some (unpackOwners p.slotDescCnt.toNat p) else none
    | _, _ => none
  | _ => none

def assocRequest (d : Device) : Action → Option Packet
  | .appli _ => match d.running, d.appli with
    | none, .coordAssoc f :: _ =>
      if assocAccepted d (d.heap f).pkt then some (d.heap f).pkt else none
    | _, _ => none
  | _ => none

inductive Effect (d : Device) (a : Action) (d' : Device) : Prop
  | quiet (table : SameTable d.tdma d'.tdma) (times : SameTimes d.sf d'.sf)
      (log : d'.ghost.txLog = d.ghost.txLog)
      (state : d'.tdma.state = d.tdma.state ∨ d.tdma.state = .idle ∧ d'.tdma.state = .scan ∨
        d.tdma.state = .wait ∧ d'.tdma.state = .assoc)
      (tick : Ticking d' ↔ Ticking d)
  | timeout (table : SameTable d.tdma d'.tdma) (times : SameTimes d.sf d'.sf)
      (log : d'.ghost.txLog = d.ghost.txLog) (event : AppliEvent.nodeTimeout ∈ d.appli)
      (state : d'.tdma.state = .scan) (tick : Ticking d' → Ticking d)
  | slot (due : Ticking d) (table : SameTable d.tdma d'.tdma)
      (times : SameTimes (slotAdvance d.tdma d.sf) d'.sf)
      (log : d'.ghost.txLog = d.ghost.txLog ∨ ∃ e : TxStart,
        d'.ghost.txLog = d.ghost.txLog ++ [e] ∧ e.slot = d.sf.nextIndex ∧
          e.slotTime = d.sf.slotTime ∧ d.tdma.slots d.sf.nextIndex.toNat = d.tdma.addr)
      (state : d'.tdma.state = d.tdma.state) (tick : Ticking d')
  | scan (p : Packet) (o : Oracle) (beacon : scannedBeacon d a = some p)
      (table : SameTable (scanTdma d.tdma p) d'.tdma)
      (times : SameTimes (scanTimes d.tdma d.sf p o) d'.sf)
      (log : d'.ghost.txLog = d.ghost.txLog) (state : d'.tdma.state = .wait)
      (tick : p.slotCount.toNat ≤ tdmaMaxSlots → Ticking d') (old : Ticking d' →
        p.slotCount.toNat ≤ tdmaMaxSlots ∨ Ticking d)
  | beacon (p : Packet) (heard : heardBeacon d a = some p)
      (table : SameTable (beaconSwitch d.tdma p).1 d'.tdma)
      (times : SameTimes (tdmaSlotUpdateFrameStart d.sf p.timestamp) d'.sf)
      (log : d'.ghost.txLog = d.ghost.txLog)
      (state : d'.tdma.state = (beaconSwitch d.tdma p).1.state) (tick : Ticking d' ↔ Ticking d)
  | assoc (p : Packet) (request : assocRequest d a = some p)
      (table : SameTable (grantSlots d.tdma p.src p.assocSlots.toNat) d'.tdma)
      (times : SameTimes d.sf d'.sf) (log : d'.ghost.txLog = d.ghost.txLog)
      (state : d'.tdma.state = d.tdma.state) (tick : Ticking d' ↔ Ticking d)
  | start (cfg : CoordConfig) (o : Oracle) (action : a = .startCoord cfg o)
      (idle : d.tdma.state = .idle) (result : d' = macTdmaStartCoord d cfg o)

variable {a : Action} {rest : List AppliEvent}

theorem assocRequest_accepted {p} (h : assocRequest d a = some p) :
    assocAccepted d p = true := by
  unfold assocRequest at h
  split at h
  · split at h
    · split at h
      · next ha => exact Option.some.inj h ▸ ha
      · cases h
    · cases h
  · cases h

theorem Steady.ticking (h : Steady d d') : Ticking d' ↔ Ticking d := by
  rw [Ticking, h.timer, h.events, h.net, Ticking]

theorem Steady.effect (h : Steady d d') : Effect d a d' :=
  .quiet h.table h.times h.log (.inl h.state) h.ticking

theorem Steady.effect_done {op} {ok} (net : d.net = some (.done op ok))
    (h : Steady { d with net := none } d') : Effect d a d' := by
  refine .quiet h.table h.times h.log (.inl h.state) (h.ticking.trans ?_)
  simp [Ticking, net]

theorem Steady.effect_event (h : Steady { d with appli := rest } d') : Effect d a d' :=
  .quiet h.table h.times h.log (.inl h.state) h.ticking

theorem Accepted.effect {p} (beacon : scannedBeacon d a = some p)
    (h : Accepted { d with net := none } p o d') : Effect d a d' := by
  refine .scan p o beacon h.table h.times h.log h.state (fun hn => ?_) fun ht => ?_
  · left
    rw [h.timer, if_neg (by omega)]
  · by_cases hn : p.slotCount.toNat ≤ tdmaMaxSlots
    · exact .inl hn
    · have htimer := h.timer
      have hevents := h.events
      have hnet := h.net
      rw [if_pos (by omega)] at htimer
      rw [Ticking, htimer, hevents, hnet] at ht
      right
      rcases ht with ht | ht | ht
      · exact .inl ht
      · exact .inr (.inl ht)
      · cases ht

theorem handleSlot_effect (d : Device) (o : Oracle) :
    Steady { d with sf := slotAdvance d.tdma d.sf, slotTimer := true } (handleSlot d o) ∨
      ∃ e : TxStart, e.slot = d.sf.nextIndex ∧ e.slotTime = d.sf.slotTime ∧
        d.tdma.slots d.sf.nextIndex.toNat = d.tdma.addr ∧
        Steady (logTx { d with sf := slotAdvance d.tdma d.sf, slotTimer := true } e)
          (handleSlot d o) := by
  unfold handleSlot
  dsimp only
  split
  · exact .inl (.refl _)
  · split
    · exact .inl (.refl _)
    · split
      · next own =>
        refine (slotTx_effect _ _ _ _).imp_right ?_
        rintro ⟨e, hslot, htime, hs⟩
        exact ⟨e, hslot, htime, own, hs⟩
      · exact .inl (steady_slotRx _ _)

theorem effect_slot (net : d.net = some .slot) :
    Effect d a (handleSlot { d with net := none } o) := by
  have due : Ticking d := .inr (.inr net)
  rcases handleSlot_effect { d with net := none } o with h | ⟨e, hslot, htime, own, h⟩
  · exact .slot due h.table h.times (.inl h.log) h.state (.inl h.timer)
  · exact .slot due h.table h.times (.inr ⟨e, h.log, hslot, htime, own⟩) h.state (.inl h.timer)

theorem effect_rxDone {op} {ok} (kind : op.kind = .rx)
    (net : d.net = some (.done op ok)) :
    Effect d (.netRun o) (slotRxHandler { d with net := none } ok o) := by
  unfold slotRxHandler
  split
  · exact (Steady.refl _).effect_done net
  · next f hf =>
    have hf : d.sf.frame = some f := hf
    have stopped : ∀ D, Steady { { d with net := none }.phyStop with
        sf := { d.sf with frame := none } } D → Steady { d with net := none } D := by
      intro D hD
      refine Steady.trans ?_ hD
      exact ⟨.refl _, ⟨rfl, rfl, rfl, rfl⟩, rfl, rfl, rfl, rfl, rfl⟩
    cases ok with
    | false => exact (stopped _ (steady_free _ _)).effect_done net
    | true =>
      dsimp only
      rw [if_pos rfl]
      generalize hD : Device.setPkt _ f _ = D
      have same : Steady { d with net := none } D := by
        rw [← hD]
        exact ⟨.refl _, ⟨rfl, rfl, rfl, rfl⟩, rfl, rfl, rfl, rfl, rfl⟩
      have hp : (D.heap f).pkt = (d.heap f).pkt.headerDecode := by
        rw [← hD, Device.setPkt, Device.heap_update_self]
        rfl
      have htdma : D.tdma = d.tdma := by
        rw [← hD]
        rfl
      split
      · next hok =>
        rcases rxHandler_effect D f o with h | ⟨hscan, -, ha, h⟩
        · exact (same.trans h).effect_done net
        · rw [hp, htdma] at hok ha
          rw [hp] at h
          rw [htdma] at hscan
          have hbeacon : scannedBeacon d (.netRun o) =
              some (d.heap f).pkt.headerDecode.headerDecode := by
            obtain ⟨kind', g⟩ := op
            obtain rfl : kind' = .rx := kind
            simp [scannedBeacon, net, hf, hscan, hok, ha]
          exact (same.accepted htdma h).effect hbeacon
      · exact (same.trans (steady_free _ _)).effect_done net

theorem effect_scanDone {op} {ok} (kind : op.kind = .scan)
    (net : d.net = some (.done op ok)) (h : slotScanHandler { d with net := none } ok o = some d') :
    Effect d (.netRun o) d' := by
  unfold slotScanHandler at h
  split at h
  · cases h
  · next f hf =>
    have hf : d.sf.frame = some f := hf
    cases h
    generalize hD : Device.setStatus _ f _ = D
    have same : Steady { d with net := none } D := by
      rw [← hD]
      exact ⟨.refl _, ⟨rfl, rfl, rfl, rfl⟩, rfl, rfl, rfl, rfl, rfl⟩
    have htdma : D.tdma = d.tdma := by
      rw [← hD]
      rfl
    have hfr : D.heap f = { d.heap f with status := if ok then .recv else .failed } := by
      rw [← hD, Device.setStatus, Device.heap_update_self]
    rcases rxHandler_effect D f o with h | ⟨hscan, hrecv, ha, h⟩
    · exact (same.trans h).effect_done net
    · rw [hfr] at hrecv ha h
      rw [htdma] at ha hscan
      have hok : ok = true := by
        cases ok with
        | true => rfl
        | false => cases hrecv
      have hbeacon : scannedBeacon d (.netRun o) = some (d.heap f).pkt.headerDecode := by
        obtain ⟨kind', g⟩ := op
        obtain rfl : kind' = .scan := kind
        subst hok
        simp [scannedBeacon, net, hf, hscan, ha]
      exact (same.accepted htdma h).effect hbeacon

theorem effect_netRun {call} (net : d.net = some call)
    (h : netHandler { d with net := none } o call = some d') : Effect d (.netRun o) d' := by
  rcases call with _ | ⟨⟨_ | _ | _, g⟩, ok⟩
  · cases h
    exact effect_slot net
  · cases h
    exact (steady_slotTxHandler _ _).effect_done net
  · cases h
    exact effect_rxDone rfl net
  · exact effect_scanDone rfl net h

theorem effect_nodeTimeout (queued : d.appli = .nodeTimeout :: rest) :
    Effect d a (nodeTimeout { d with appli := rest }) := by
  unfold nodeTimeout
  split
  · next wait =>
    exact .quiet ⟨rfl, rfl, rfl, rfl, rfl⟩ (.refl _) rfl (.inr (.inr ⟨wait, rfl⟩)) .rfl
  · dsimp only
    generalize hD : unstack _ _ _ _ = D
    have hs : Steady { d with slotTimer := false, appli := rest } D :=
      hD ▸ (steady_slotStop { d with appli := rest }).trans (steady_unstack _ _ _ _)
    have tick : Ticking D → Ticking d := by
      intro ht
      rcases hs.ticking.mp ht with ht | ht | ht
      · cases ht
      · exact .inr (.inl ht)
      · exact .inr (.inr ht)
    have event : AppliEvent.nodeTimeout ∈ d.appli := queued ▸ List.mem_cons_self
    rcases D.tdma.txFrames with _ | f <;>
      exact .timeout (hs.table.trans ⟨rfl, rfl, rfl, rfl, rfl⟩) hs.times hs.log event rfl tick

theorem effect_nodeBeacon {f} (idle : d.running = none)
    (queued : d.appli = .nodeBeacon f :: rest) :
    Effect d (.appli o) (nodeBeacon { d with appli := rest } f) := by
  unfold nodeBeacon
  dsimp only
  split
  · next own =>
    have heard : heardBeacon d (.appli o) =
        some (unpackOwners (d.heap f).pkt.slotDescCnt.toNat (d.heap f).pkt) := by
      simp [heardBeacon, idle, queued, own]
    have hstamp : ∀ k p, (unpackOwners k p).timestamp = p.timestamp := by
      intro k p
      induction k with
      | zero => rfl
      | succ k ih => exact ih
    refine .beacon _ heard (.refl _) ?_ rfl rfl .rfl
    rw [hstamp]
    exact .refl _
  · exact (steady_free _ f).effect_event

theorem effect_coordAssoc {f} (idle : d.running = none)
    (queued : d.appli = .coordAssoc f :: rest) :
    Effect d (.appli o) (coordAssoc { d with appli := rest } f) := by
  have hstatus : ((tdmaFrameFree { d with appli := rest } f).heap .beacon).status =
      (d.heap .beacon).status := update_proj Frame.status (by rfl)
  unfold coordAssoc
  dsimp only
  split
  · next ha =>
    have ha : assocAccepted d (d.heap f).pkt = true := by
      rw [assocAccepted, hstatus] at ha
      exact ha
    refine .assoc (d.heap f).pkt (by simp [assocRequest, idle, queued, ha]) ?_ (.refl _) rfl ?_ .rfl
    · exact ⟨rfl, rfl, rfl, rfl, rfl⟩
    · exact (retabled_grantSlots _ _ _).state_eq
  · exact (steady_free _ f).effect_event

theorem effect_scanStart : Effect d a (scanStart { d with appli := rest } o) := by
  unfold scanStart slotScan
  dsimp only
  split
  · exact .quiet ⟨rfl, rfl, rfl, rfl, rfl⟩ ⟨rfl, rfl, rfl, rfl⟩ rfl (.inl rfl) .rfl
  · generalize hD : Device.setStatus _ FrameId.node TdmaStatus.failed = D
    have same : Steady { d with appli := rest } D := by
      rw [← hD]
      exact ⟨⟨rfl, rfl, rfl, rfl, rfl⟩, ⟨rfl, rfl, rfl, rfl⟩, rfl, rfl, rfl, rfl, rfl⟩
    have failed : (D.heap .node).status = .failed := by
      rw [← hD, Device.setStatus, Device.heap_update_self]
    rcases rxHandler_effect D .node o with h | ⟨-, hrecv, -⟩
    · exact (same.trans h).effect_event
    · rw [failed] at hrecv
      cases hrecv

theorem effect_appliHandler {e} (idle : d.running = none)
    (queued : d.appli = e :: rest) :
    Effect d (.appli o) (appliHandler { d with appli := rest } o e) := by
  cases e with
  | nodeTimeout => exact effect_nodeTimeout queued
  | scanStart => exact effect_scanStart
  | nodeBeacon f => exact effect_nodeBeacon idle queued
  | dataTx f => exact .quiet (.refl _) (.refl _) rfl (.inl rfl) .rfl
  | dataRx f => exact (steady_dataRxHandler _ f o).effect_event
  | beaconTick =>
    unfold appliHandler beaconTick
    dsimp only
    split
    · exact (Steady.refl _).effect_event
    · exact (steady_beaconPrepare _).effect_event
  | coordAssoc f => exact effect_coordAssoc idle queued

theorem step_effect (h : step d a = some d') : Effect d a d' := by
  cases a with
  | startNode cfg =>
    cases h
    unfold macTdmaStartNode
    split
    · exact (Steady.refl d).effect
    · next idle =>
      exact .quiet ⟨rfl, rfl, rfl, rfl, rfl⟩ (.refl _) rfl
        (.inr (.inl ⟨not_not.mp idle, rfl⟩)) .rfl
  | startCoord cfg o =>
    cases h
    by_cases idle : d.tdma.state = .idle
    · exact .start cfg o rfl idle rfl
    · rw [macTdmaStartCoord, if_pos idle]
      exact (Steady.refl d).effect
  | sendAlloc req =>
    cases h
    exact (steady_sendAlloc d req).effect
  | sendFill k =>
    simp only [step] at h
    split at h
    · split at h
      · cases h
      · cases h
        exact .quiet (.refl _) (.refl _) rfl (.inl rfl) .rfl
    · cases h
  | sendSubmit k =>
    simp only [step] at h
    split at h
    · next s _ =>
      split at h
      · cases h
        have hs := steady_sendSubmit { d with sends := d.sends.eraseIdx k } s
        exact .quiet hs.table hs.times hs.log (.inl hs.state) hs.ticking
      · cases h
    · cases h
  | slotTimer =>
    simp only [step] at h
    split at h
    · next due =>
      cases h
      refine .quiet (.refl _) (.refl _) rfl (.inl rfl) ?_
      simp [Ticking, due]
    · cases h
  | timeoutTimer =>
    simp only [step] at h
    split at h
    · cases h
      exact .quiet (.refl _) (.refl _) rfl (.inl rfl) .rfl
    · cases h
  | beaconTimer =>
    simp only [step] at h
    split at h
    · cases h
      exact (steady_post d _).effect
    · cases h
  | netSlot =>
    simp only [step] at h
    split at h
    · next k net events =>
      cases h
      refine .quiet (.refl _) (.refl _) rfl (.inl rfl) ?_
      simp [Ticking, events]
    · cases h
  | netPhy ok rx =>
    simp only [step] at h
    split at h
    · next op net phy =>
      cases h
      have tick : Ticking { d with phy := none, net := some (.done op ok) } ↔ Ticking d := by
        simp [Ticking, net]
      unfold phyDone
      split
      · split
        · exact .quiet (.refl _) (.refl _) rfl (.inl rfl) tick
        · exact .quiet (.refl _) (.refl _) rfl (.inl rfl) tick
      · split
        · exact .quiet (.refl _) (.refl _) rfl (.inl rfl) tick
        · exact .quiet (.refl _) (.refl _) rfl (.inl rfl) tick
    · cases h
  | netRun o =>
    simp only [step] at h
    split at h
    · next call net => exact effect_netRun net h
    · cases h
  | appli o =>
    simp only [step] at h
    split at h
    · next r hr =>
      cases h
      cases r with
      | postScan => exact .quiet (.refl _) (.refl _) rfl (.inl rfl) .rfl
      | finishTx next ticket cb arg res => exact (steady_dataTxFinish d next _).effect
    · next e rest idle queued =>
      cases h
      exact effect_appliHandler idle queued
    · cases h

def coordTdma (t : Tdma) (cfg : CoordConfig) : Bool × Tdma :=
  coordSlots (clearSlots (registerCoord t cfg)) cfg.slotsframe

/-- A start of a coordinator that passed the count check; a refused static slots-frame
leaves its table behind. -/
structure Started (d : Device) (cfg : CoordConfig) (o : Oracle) (d' : Device) : Prop where
  count : cfg.slotCount.toNat ≤ tdmaMaxSlots
  table : SameTable (coordTdma d.tdma cfg).2 d'.tdma
  times : SameTimes (slotStartTimes (registerCoord d.tdma cfg) 0 o) d'.sf
  log : d'.ghost.txLog = d.ghost.txLog
  state : d'.tdma.state = if (coordTdma d.tdma cfg).1 then .coord else .idle
  timer : d'.slotTimer = (coordTdma d.tdma cfg).1
  events : d'.slotEvents = d.slotEvents
  net : d'.net = d.net

theorem coordSetup_effect (d : Device) (slotsframe : Option (Nat → UInt16)) :
    Steady (if (coordSlots d.tdma slotsframe).1 then
        { d with tdma := { (coordSlots d.tdma slotsframe).2 with state := .coord } }
      else { d with slotTimer := false, tdma := (coordSlots d.tdma slotsframe).2 })
      (coordSetup d slotsframe) := by
  have htdma : (initBeacon d).tdma = d.tdma := rfl
  unfold coordSetup
  dsimp only
  rw [htdma]
  generalize coordSlots d.tdma slotsframe = r
  split
  · exact ⟨⟨rfl, rfl, rfl, rfl, rfl⟩, .refl _, rfl, rfl, rfl, rfl, rfl⟩
  · refine Steady.trans ?_ (steady_slotStop _)
    exact ⟨.refl _, .refl _, rfl, rfl, rfl, rfl, rfl⟩

theorem startCoord_effect (cfg : CoordConfig) (o : Oracle) (idle : d.tdma.state = .idle) :
    (tdmaMaxSlots < cfg.slotCount.toNat ∧
      macTdmaStartCoord d cfg o = { d with tdma := registerCoord d.tdma cfg }) ∨
    Started d cfg o (macTdmaStartCoord d cfg o) := by
  rw [macTdmaStartCoord, if_neg (not_not.mpr idle), tdmaSlotStart]
  by_cases hn : tdmaMaxSlots < cfg.slotCount.toNat
  · left
    rw [if_pos (show tdmaMaxSlots < (registerCoord d.tdma cfg).slotCount.toNat from hn)]
    exact ⟨hn, rfl⟩
  · right
    rw [if_neg (show ¬tdmaMaxSlots < (registerCoord d.tdma cfg).slotCount.toNat from hn)]
    have hstate : (coordTdma d.tdma cfg).2.state = .idle :=
      (retabled_coordSlots _ _).state_eq.trans idle
    dsimp only
    generalize hD : Device.mk _ _ _ _ _ _ _ _ _ _ _ _ _ _ _ _ = D
    have hr : coordSlots D.tdma cfg.slotsframe = coordTdma d.tdma cfg := by rw [← hD]; rfl
    have hs := coordSetup_effect D cfg.slotsframe
    rw [hr] at hs
    cases ht : (coordTdma d.tdma cfg).1 with
    | true =>
      rw [ht, if_pos rfl] at hs
      rw [← hD] at hs ⊢
      have table : SameTable (coordTdma d.tdma cfg).2 (coordSetup _ cfg.slotsframe).tdma :=
        ⟨hs.table.addr, hs.table.slotDuration, hs.table.slotCount, hs.table.txSlots,
          hs.table.slots⟩
      exact ⟨by omega, table, hs.times, hs.log, hs.state.trans (by rw [ht]; rfl),
        hs.timer.trans ht.symm, hs.events, hs.net⟩
    | false =>
      rw [ht, if_neg Bool.false_ne_true] at hs
      rw [← hD] at hs ⊢
      exact ⟨by omega, hs.table, hs.times, hs.log, hs.state.trans (by rw [ht]; exact hstate),
        hs.timer.trans ht.symm, hs.events, hs.net⟩

end TdmaEffects
