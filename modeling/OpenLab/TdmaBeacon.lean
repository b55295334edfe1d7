import OpenLab.TdmaCoordinator

/-!
# Beacon integrity

A coordinator has one beacon frame, whose status says IDLE all the time. Beacons are intact in
every run in which neither `beacon_tick` nor `coord_assoc` runs while the frame is in the slot.
-/

namespace TdmaBeacon

open Schedules TdmaTypes TdmaCore TdmaHandlers TdmaDevice TdmaTable TdmaLedger TdmaControl List
open TdmaSteps TdmaEffects TdmaSlots TdmaScan TdmaCoordinator

variable {d d' : Device} {a : Action} {addr : UInt16} {f : FrameId} {o : Oracle}

/-- The packet describes a whole table of `n` slots. -/
structure Describes (slots : Nat → UInt16) (n : UInt8) (p : Packet) : Prop where
  off : p.slotDescOff = 0
  cnt : p.slotDescCnt = n
  length : p.length.toNat = tdmaPktSizeHeader + 4 + 2 * p.slotDescCnt.toNat
  own : ∀ i < n.toNat, p.slotDescOwn i = packerUint16Hton (slots i)

theorem fillOwners_own (slots : Nat → UInt16) (p : Packet) (k : Nat) {i} (hi : i < k) :
    (fillOwners slots k p).slotDescOwn i = packerUint16Hton (slots i) := by
  induction k with
  | zero => omega
  | succ k ih =>
    by_cases h : i = k
    · subst h
      exact Packet.slotDescOwn_set_self _ _ _
    · rw [fillOwners, Packet.slotDescOwn_set_of_ne _ h]
      exact ih (by omega)

theorem describes_beaconPacket (t : Tdma) (p : Packet) (hn : t.slotCount.toNat ≤ tdmaMaxSlots) :
    Describes t.slots t.slotCount (beaconPacket t p) := by
  have hmin : min t.slotCount.toNat 50 = t.slotCount.toNat := Nat.min_eq_left hn
  have hcnt : (beaconPacket t p).slotDescCnt = t.slotCount := by
    simp [beaconPacket, Packet.slotDescCnt, Packet.setByte, hmin]
  refine ⟨rfl, hcnt, ?_, fun i hi => ?_⟩
  · rw [hcnt, beaconPacket, hmin]
    exact UInt8.toNat_ofNat_of_lt' (by
      simp only [UInt8.size, tdmaPktSizeHeader, tdmaPktSizeBeacon]
      omega)
  · have bytes : (beaconPacket t p).slotDescOwn i =
        (fillOwners t.slots t.slotCount.toNat p).slotDescOwn i := by
      rw [beaconPacket, hmin]
      refine Eq.trans ?_ (Packet.slotDescOwn_setByte _ (k := 3) (by decide) 0 i)
      exact Packet.slotDescOwn_setByte _ (k := 2) (by decide) _ i
    rw [bytes]
    exact fillOwners_own _ _ _ hi

/-- The beacon frame of a coordinator: armed it is not in the slot and describes the table
as last prepared, and in the slot it is what `phy_tx` got. -/
structure Beacons (d : Device) : Prop where
  armed : d.tdma.beaconFrame ≠ none → d.sf.frame ≠ some .beacon ∧
    Describes d.ghost.prepared d.tdma.slotCount (d.heap .beacon).pkt
  onAir : d.sf.frame = some .beacon → ∃ e, d.ghost.txLog.getLast? = some e ∧
    e.frame = .beacon ∧ e.pkt = (d.heap .beacon).pkt
  described : ∀ e ∈ d.ghost.txLog, e.frame = .beacon →
    Describes e.prepared d.tdma.slotCount e.pkt

structure Aside (d d' : Device) : Prop where
  armed : d'.tdma.beaconFrame = d.tdma.beaconFrame
  count : d'.tdma.slotCount = d.tdma.slotCount
  prepared : d'.ghost.prepared = d.ghost.prepared
  pkt : (d'.heap .beacon).pkt = (d.heap .beacon).pkt
  slot : d'.sf.frame = some .beacon → d.sf.frame = some .beacon ∧ d'.ghost.txLog = d.ghost.txLog
  log : ∀ e ∈ d'.ghost.txLog, e.frame = .beacon → e ∈ d.ghost.txLog

theorem Aside.refl (d : Device) : Aside d d :=
  ⟨rfl, rfl, rfl, rfl, fun h => ⟨h, rfl⟩, fun _ he _ => he⟩

theorem Aside.trans {d''} (h : Aside d d') (h' : Aside d' d'') : Aside d d'' where
  armed := h'.armed.trans h.armed
  count := h'.count.trans h.count
  prepared := h'.prepared.trans h.prepared
  pkt := h'.pkt.trans h.pkt
  slot := fun hs =>
    have hs' := h'.slot hs
    have hs := h.slot hs'.1
    ⟨hs.1, hs'.2.trans hs.2⟩
  log := fun e he hb => h.log e (h'.log e he hb) hb

theorem Aside.keeps (h : Aside d d') (hB : Beacons d) : Beacons d' := by
  refine ⟨fun harmed => ?_, fun hs => ?_, fun e he hb => ?_⟩
  · rw [h.armed] at harmed
    obtain ⟨hfree, hdesc⟩ := hB.armed harmed
    refine ⟨fun hs => hfree (h.slot hs).1, ?_⟩
    rw [h.prepared, h.count, h.pkt]
    exact hdesc
  · obtain ⟨hs, hlog⟩ := h.slot hs
    rw [hlog, h.pkt]
    exact hB.onAir hs
  · rw [h.count]
    exact hB.described e (h.log e he hb) hb

theorem aside_free (d : Device) (f : FrameId) : Aside d (tdmaFrameFree d f) :=
  ⟨rfl, rfl, rfl, update_proj Frame.pkt (by rfl), fun h => ⟨h, rfl⟩, fun _ he _ => he⟩

theorem aside_post (d : Device) (e : AppliEvent) : Aside d (d.eventPost e) :=
  ⟨rfl, rfl, rfl, rfl, fun h => ⟨h, rfl⟩, fun _ he _ => he⟩

theorem ne_of_pool (hp : f.isPool) : FrameId.beacon ≠ f := by
  rintro rfl
  cases hp

theorem aside_update (d : Device) (hp : f.isPool) (g : Frame → Frame) : Aside d (d.update f g) :=
  ⟨rfl, rfl, rfl, congrArg Frame.pkt (d.heap_update_of_ne (ne_of_pool hp) g), fun h => ⟨h, rfl⟩,
    fun _ he _ => he⟩

theorem txHandler_rest (d : Device) (f : FrameId) :
    (txHandler d f).tdma = d.tdma ∧ (txHandler d f).sf = d.sf ∧
      (txHandler d f).ghost = d.ghost := by
  unfold txHandler
  split
  · unfold coordTxHandler
    split <;> exact ⟨rfl, rfl, rfl⟩
  · unfold nodeTxHandler
    split <;> exact ⟨rfl, rfl, rfl⟩

theorem txHandler_heap (data : (d.heap f).pkt.headerType = .data) :
    (txHandler d f).heap = d.heap := by
  unfold txHandler
  split
  · unfold coordTxHandler
    rw [data]
    rfl
  · unfold nodeTxHandler
    split <;> rfl

theorem aside_txHandler (data : (d.heap f).pkt.headerType = .data) : Aside d (txHandler d f) := by
  obtain ⟨htdma, hsf, hghost⟩ := txHandler_rest d f
  refine ⟨by rw [htdma], by rw [htdma], by rw [hghost], by rw [txHandler_heap data], ?_, ?_⟩
  · rw [hsf, hghost]
    exact fun h => ⟨h, rfl⟩
  · rw [hghost]
    exact fun e he _ => he

theorem slotRx_rest (d : Device) (o : Oracle) :
    (slotRx d o).tdma = d.tdma ∧ (slotRx d o).ghost = d.ghost ∧
      ((slotRx d o).sf.frame = none ∨ (slotRx d o).sf.frame = d.frames) := by
  unfold slotRx
  split
  · next d' h =>
    obtain rfl := tdmaFrameAlloc_none h
    exact ⟨rfl, rfl, .inl rfl⟩
  · next f d' h =>
    obtain ⟨hf, rfl⟩ := tdmaFrameAlloc_some h
    dsimp only
    split
    · exact ⟨rfl, rfl, .inr hf.symm⟩
    · exact ⟨rfl, rfl, .inl rfl⟩

theorem aside_slotRx (o : Oracle) (hp : d.frames ≠ some .beacon) : Aside d (slotRx d o) := by
  obtain ⟨htdma, hghost, hframe⟩ := slotRx_rest d o
  refine ⟨by rw [htdma], by rw [htdma], by rw [hghost], by rw [slotRx_beacon o hp], ?_, ?_⟩
  · intro hs
    rcases hframe with h | h
    · rw [h] at hs
      cases hs
    · exact absurd (h.symm.trans hs) hp
  · rw [hghost]
    exact fun e he _ => he

theorem slotTxStart_rest (d : Device) (f : FrameId) (slot : UInt8) (time : UInt32) (o : Oracle) :
    (slotTxStart d f slot time o).tdma = d.tdma ∧
      (slotTxStart d f slot time o).ghost.prepared = d.ghost.prepared ∧
      ((slotTxStart d f slot time o).sf.frame = none ∨
        (slotTxStart d f slot time o).sf.frame = some f ∧
          ((slotTxStart d f slot time o).heap .beacon).pkt = (d.heap .beacon).pkt) := by
  unfold slotTxStart phyTx
  dsimp only
  split
  · exact ⟨rfl, rfl, .inr ⟨rfl, update_proj Frame.pkt (by rfl)⟩⟩
  · refine ⟨?_, ?_, .inl ?_⟩
    · rw [(txHandler_rest _ _).1]
      rfl
    · rw [(txHandler_rest _ _).2.2]
      rfl
    · rw [(txHandler_rest _ _).2.1]
      rfl

theorem aside_slotTxStart (slot : UInt8) (time : UInt32) (o : Oracle) (hp : f.isPool)
    (data : (d.heap f).pkt.headerType = .data) : Aside d (slotTxStart d f slot time o) := by
  obtain ⟨htdma, hprep, hframe⟩ := slotTxStart_rest d f slot time o
  obtain ⟨e, hf, -, -, -, hlog⟩ := slotTxStart_log d f slot time o
  refine ⟨by rw [htdma], by rw [htdma], hprep, ?_, ?_, ?_⟩
  · unfold slotTxStart phyTx
    dsimp only
    split
    · exact update_proj Frame.pkt (by rfl)
    · rw [txHandler_heap]
      · exact (update_proj Frame.pkt (by rfl)).trans (update_proj Frame.pkt (by rfl))
      · refine Eq.trans ?_ data
        exact congrArg Packet.headerType
          ((update_proj Frame.pkt (by rfl)).trans (update_proj Frame.pkt (by rfl)))
  · intro hs
    rcases hframe with h | ⟨h, -⟩
    · rw [h] at hs
      cases hs
    · rw [h] at hs
      exact absurd (Option.some.inj hs).symm (ne_of_pool hp)
  · intro e' he' hb
    rw [hlog] at he'
    rcases mem_append.mp he' with he' | he'
    · exact he'
    · rw [mem_singleton.mp he', hf] at hb
      exact absurd hb.symm (ne_of_pool hp)

theorem beacons_slotTxStart (slot : UInt8) (time : UInt32) (o : Oracle)
    (off : d.tdma.beaconFrame = none)
    (desc : Describes d.ghost.prepared d.tdma.slotCount (d.heap .beacon).pkt)
    (old : ∀ e ∈ d.ghost.txLog, e.frame = .beacon → Describes e.prepared d.tdma.slotCount e.pkt) :
    Beacons (slotTxStart d .beacon slot time o) := by
  obtain ⟨htdma, hprep, hframe⟩ := slotTxStart_rest d .beacon slot time o
  obtain ⟨e, hf, -, hpkt, hprepared, hlog⟩ := slotTxStart_log d .beacon slot time o
  refine ⟨fun harmed => ?_, fun hs => ?_, fun e' he' hb => ?_⟩
  · rw [htdma, off] at harmed
    exact absurd rfl harmed
  · rcases hframe with h | ⟨-, hsame⟩
    · rw [h] at hs
      cases hs
    · exact ⟨e, by rw [hlog, getLast?_concat], hf, hpkt.trans hsame.symm⟩
  · rw [htdma]
    rw [hlog] at he'
    rcases mem_append.mp he' with he' | he'
    · exact old e' he' hb
    · rw [mem_singleton.mp he', hpkt, hprepared]
      exact desc

structure CoordFrames (d : Device) : Prop where
  free : d.frames ≠ some .beacon
  beacon : ∀ b, d.tdma.beaconFrame = some b → b = .beacon
  queue : ∀ f, d.tdma.txFrames = some f → f.isPool ∧ (d.heap f).pkt.headerType = .data
  sending : ∀ g, d.phy = some ⟨.tx, g⟩ ∨ (∃ ok, d.net = some (.done ⟨.tx, g⟩ ok)) →
    d.sf.frame = some g ∧ (g = .beacon ∨ g.isPool ∧ (d.heap g).pkt.headerType = .data)
  receiving : ∀ g, d.phy = some ⟨.rx, g⟩ ∨ (∃ ok, d.net = some (.done ⟨.rx, g⟩ ok)) →
    d.sf.frame = some g ∧ g.isPool
  noScan : ∀ g, d.phy ≠ some ⟨.scan, g⟩ ∧ ∀ ok, d.net ≠ some (.done ⟨.scan, g⟩ ok)
  sends : ∀ s ∈ d.sends, s.frame.isPool
  held : ∀ e ∈ d.appli, EventFits .coord e
  rxHandler : d.tdma.rxHandler = .coordRx

theorem coordFrames_of_sound (hd : Sound d) (coord : d.tdma.state = .coord) : CoordFrames d := by
  have free := frames_ne_beacon hd
  obtain ⟨rx, events⟩ := coord_handlers hd coord
  obtain ⟨u, queue, L, hK, -, -, rfl, rfl⟩ := hd
  have fits : SlotFits d.tdma.state d.tdma.rxHandler L.slot := hK.control.slot
  have holds : SlotHolds (holdings d) L.slot := hK.books.slot
  have current : ∀ op, d.phy = some op ∨ (∃ ok, d.net = some (.done op ok)) →
      Current L.slot op := by
    rintro op (h | ⟨ok, h⟩)
    · exact hK.control.phy op h
    · rcases hK.control.net op ok h with ⟨cur, -⟩ | ⟨scan, -⟩
      · exact cur
      · have scan : d.tdma.state = .scan := scan
        rw [coord] at scan
        cases scan
  rw [coord] at fits
  refine ⟨free, fun b hb => (hK.control.beacon b hb).1, fun f hf => ?_, fun g hg => ?_,
    fun g hg => ?_, fun g => ?_, fun s hs => (hK.books.sends s hs).pool, events, rx⟩
  · have head : (holdings d).txFrames = L.queue.head? := hK.books.queue.head_eq
    have mem : f ∈ L.queue := mem_of_head? (head.symm.trans hf)
    rcases (hK.books.queued f mem).kind with rfl | ⟨hp, data, -⟩
    · have bad : QueueFits d.tdma.state .node := hK.control.queue _ mem
      rw [coord] at bad
      rcases bad with h | h <;> cases h
    · exact ⟨hp, data⟩
  · have cur : L.slot = .tx g := current _ hg
    rw [cur] at holds fits
    refine ⟨holds.1, ?_⟩
    cases g with
    | beacon => exact .inl rfl
    | pool i => exact .inr ⟨rfl, (holds.2.2.2 rfl).1⟩
    | node =>
      rcases fits with h | h <;> cases h
  · have cur : L.slot = .rx g := current _ hg
    rw [cur] at holds
    exact ⟨holds.1, holds.2.1⟩
  · have none : ¬Current L.slot ⟨.scan, g⟩ := by
      rintro ⟨h, -⟩
      rw [h] at fits
      cases fits.1
    exact ⟨fun h => none (current _ (.inl h)), fun ok h => none (current _ (.inr ⟨ok, h⟩))⟩

/-- Every step of a coordinator leaves the beacon alone, hands an armed one to the radio,
completes one or, if `due`, prepares one. -/
inductive BeaconMove (due : Prop) (d d' : Device) : Prop
  | aside (same : Aside d d')
  | send {D : Device} (same : Aside d D) (armed : D.tdma.beaconFrame ≠ none) (slot : UInt8)
      (time : UInt32) (o : Oracle)
      (result : d' = slotTxStart { D with
        tdma := { D.tdma with beaconFrame := none }
        sf := { D.sf with beaconBackoff := tdmaBeaconBackoffCount + 1 } } .beacon slot time o)
  | complete {D : Device} (same : Aside d D) (ok : Bool) (frame : D.sf.frame = some .beacon)
      (result : d' = slotTxHandler D ok)
  | prepare {D : Device} (same : Aside d D) (now : due) (result : d' = beaconPrepare D)

variable {due : Prop}

theorem Aside.move {D} (h : Aside d D) (m : BeaconMove due D d') :
    BeaconMove due d d' := by
  cases m with
  | aside same => exact .aside (h.trans same)
  | send same armed slot time o result => exact .send (h.trans same) armed slot time o result
  | complete same ok frame result => exact .complete (h.trans same) ok frame result
  | prepare same now result => exact .prepare (h.trans same) now result

theorem move_slotTx (slot : UInt8) (time : UInt32) (o : Oracle)
    (hb : ∀ b, d.tdma.beaconFrame = some b → b = .beacon)
    (hq : ∀ f, d.tdma.txFrames = some f → f.isPool ∧ (d.heap f).pkt.headerType = .data) :
    BeaconMove due d (slotTx d slot time o) := by
  have data : ∀ f, d.tdma.txFrames = some f → BeaconMove due d (slotTxStart
      { d with tdma := { d.tdma with txFrames := d.next f } } f slot time o) := by
    intro f hf
    obtain ⟨hp, htype⟩ := hq f hf
    have unlinked : Aside d { d with tdma := { d.tdma with txFrames := d.next f } } :=
      ⟨rfl, rfl, rfl, rfl, fun h => ⟨h, rfl⟩, fun _ he _ => he⟩
    exact .aside (unlinked.trans (aside_slotTxStart slot time o hp htype))
  unfold slotTx slotTxPick
  cases hbf : d.tdma.beaconFrame with
  | none =>
    cases htx : d.tdma.txFrames with
    | none => exact .aside (.refl d)
    | some f => exact data f htx
  | some b =>
    obtain rfl := hb b hbf
    have harmed : d.tdma.beaconFrame ≠ none := by simp [hbf]
    cases htx : d.tdma.txFrames with
    | none => exact .send (.refl d) harmed slot time o rfl
    | some f =>
      by_cases hback : d.sf.beaconBackoff = 0
      · simp only [if_pos hback]
        exact .send (.refl d) harmed slot time o rfl
      · simp only [if_neg hback]
        exact data f htx

theorem move_handleSlot (hF : CoordFrames d) (o : Oracle) :
    BeaconMove due d (handleSlot d o) := by
  have advanced : Aside d { d with sf := slotAdvance d.tdma d.sf, slotTimer := true } :=
    ⟨rfl, rfl, rfl, rfl, fun h => ⟨(slotAdvance_frame _ _).symm.trans h, rfl⟩, fun _ he _ => he⟩
  unfold handleSlot
  dsimp only
  split
  · exact .aside advanced
  · split
    · exact .aside advanced
    · split
      · exact advanced.move (move_slotTx _ _ o hF.beacon hF.queue)
      · have free : ({ d with sf := slotAdvance d.tdma d.sf, slotTimer := true } : Device).frames ≠
            some .beacon := hF.free
        exact .aside (advanced.trans (aside_slotRx o free))

theorem move_slotTxHandler {g} (ok : Bool) (frame : d.sf.frame = some g)
    (kind : g = .beacon ∨ g.isPool ∧ (d.heap g).pkt.headerType = .data) :
    BeaconMove due d (slotTxHandler d ok) := by
  rcases kind with rfl | ⟨hp, data⟩
  · exact .complete (.refl d) ok frame rfl
  · have stopped : Aside d { d.phyStop with sf := { d.sf with frame := none } } :=
      ⟨rfl, rfl, rfl, rfl, fun h => (by cases h), fun _ he _ => he⟩
    unfold slotTxHandler
    simp only [frame]
    refine .aside ((stopped.trans (aside_update _ hp _)).trans (aside_txHandler ?_))
    refine Eq.trans (congrArg Packet.headerType ?_) data
    exact update_proj Frame.pkt (by rfl)

theorem aside_slotRxHandler {g} (ok : Bool) (o : Oracle) (frame : d.sf.frame = some g)
    (hp : g.isPool) (rx : d.tdma.rxHandler = .coordRx) : Aside d (slotRxHandler d ok o) := by
  have stopped : Aside d { d.phyStop with sf := { d.sf with frame := none } } :=
    ⟨rfl, rfl, rfl, rfl, fun h => (by cases h), fun _ he _ => he⟩
  unfold slotRxHandler
  simp only [frame]
  split
  · generalize hD : Device.setPkt _ g _ = D
    have hA : Aside d D := by
      rw [← hD]
      exact (stopped.trans (aside_update _ hp _)).trans (aside_update _ hp _)
    have htdma : D.tdma = d.tdma := by
      rw [← hD]
      rfl
    split
    · unfold rxHandler coordRxHandler
      rw [htdma, rx]
      dsimp only
      split
      · exact hA.trans (aside_post _ _)
      · split
        · exact hA.trans (aside_post _ _)
        · exact hA.trans (aside_free _ _)
      · exact hA.trans (aside_free _ _)
    · exact hA.trans (aside_free _ _)
  · exact stopped.trans (aside_free _ _)

def tickDue (d : Device) : Action → Bool
  | .appli _ => d.running.isNone && d.appli.head? == some .beaconTick
  | _ => false

theorem aside_sendAlloc (d : Device) (req : SendReq) : Aside d (sendAlloc d req) := by
  unfold sendAlloc
  split
  · exact .refl d
  · split
    · next h =>
      obtain rfl := tdmaFrameAlloc_none h
      exact .refl _
    · next f d' h =>
      obtain ⟨-, rfl⟩ := tdmaFrameAlloc_some h
      exact ⟨rfl, rfl, rfl, update_proj Frame.pkt (by rfl), fun h => ⟨h, rfl⟩, fun _ he _ => he⟩

theorem aside_sendSubmit (d : Device) (s : Send) : Aside d (sendSubmit d s) := by
  unfold sendSubmit
  split
  · split
    · exact aside_free d _
    · next D h =>
      unfold tdmaFrameSend at h
      split at h
      · cases h
      · cases h
        split
        · exact ⟨rfl, rfl, rfl, (update_proj Frame.pkt (by rfl)).trans
            (update_proj Frame.pkt (by rfl)), fun h => ⟨h, rfl⟩, fun _ he _ => he⟩
        · exact ⟨rfl, rfl, rfl, update_proj Frame.pkt (by rfl), fun h => ⟨h, rfl⟩,
            fun _ he _ => he⟩
  · exact aside_free d _

theorem aside_phyDone {op} {ok} {rx} (hF : CoordFrames d)
    (phy : d.phy = some op) : Aside d (phyDone d op ok rx) := by
  have entered : Aside d { d with phy := none, net := some (.done op ok) } :=
    ⟨rfl, rfl, rfl, rfl, fun h => ⟨h, rfl⟩, fun _ he _ => he⟩
  obtain ⟨kind, g⟩ := op
  cases kind with
  | tx =>
    unfold phyDone
    dsimp only
    split
    · exact ⟨rfl, rfl, rfl, rfl, fun h => ⟨h, rfl⟩, fun _ he _ => he⟩
    · exact entered
  | rx =>
    obtain ⟨-, hp⟩ := hF.receiving g (.inl phy)
    unfold phyDone
    dsimp only
    split
    · exact entered.trans (aside_update _ hp _)
    · exact entered
  | scan => exact absurd phy (hF.noScan g).1

theorem move_netRun {call} (hF : CoordFrames d) (net : d.net = some call)
    (h : netHandler { d with net := none } o call = some d') : BeaconMove due d d' := by
  have entered : Aside d { d with net := none } :=
    ⟨rfl, rfl, rfl, rfl, fun h => ⟨h, rfl⟩, fun _ he _ => he⟩
  rcases call with _ | ⟨⟨_ | _ | _, g⟩, ok⟩
  · cases h
    have hF' : CoordFrames { d with net := none } := {
      free := hF.free, beacon := hF.beacon, queue := hF.queue
      sending := fun g hg => hF.sending g (hg.imp_right fun ⟨ok, h⟩ => by cases h)
      receiving := fun g hg => hF.receiving g (hg.imp_right fun ⟨ok, h⟩ => by cases h)
      noScan := fun g => ⟨(hF.noScan g).1, fun ok h => by cases h⟩
      sends := hF.sends, held := hF.held, rxHandler := hF.rxHandler }
    exact entered.move (move_handleSlot hF' o)
  · cases h
    obtain ⟨frame, kind⟩ := hF.sending g (.inr ⟨ok, net⟩)
    exact entered.move (move_slotTxHandler ok frame kind)
  · cases h
    obtain ⟨frame, hp⟩ := hF.receiving g (.inr ⟨ok, net⟩)
    exact .aside (entered.trans (aside_slotRxHandler ok o frame hp hF.rxHandler))
  · exact absurd net ((hF.noScan g).2 ok)

/-- A beacon is prepared in this step: by `beacon_tick`, or by `coord_assoc` for a request
that it accepts. -/
def PrepareDue (d : Device) (a : Action) : Prop :=
  tickDue d a = true ∨ (assocRequest d a).isSome = true

theorem move_appli {e} {rest} (hF : CoordFrames d)
    (idle : d.running = none) (queued : d.appli = e :: rest) :
    BeaconMove (PrepareDue d (.appli o)) d (appliHandler { d with appli := rest } o e) := by
  have taken : Aside d { d with appli := rest } :=
    ⟨rfl, rfl, rfl, rfl, fun h => ⟨h, rfl⟩, fun _ he _ => he⟩
  have fits := hF.held e (queued ▸ mem_cons_self)
  cases e with
  | nodeTimeout | scanStart | nodeBeacon f => cases fits
  | dataTx f =>
    refine .aside (taken.trans ?_)
    exact ⟨rfl, rfl, rfl, update_proj Frame.pkt (by rfl), fun h => ⟨h, rfl⟩, fun _ he _ => he⟩
  | dataRx f =>
    refine .aside (taken.trans ?_)
    unfold appliHandler dataRxHandler
    dsimp only
    split
    · exact ⟨rfl, rfl, rfl, update_proj Frame.pkt (by rfl), fun h => ⟨h, rfl⟩, fun _ he _ => he⟩
    · exact aside_free _ f
  | beaconTick =>
    unfold appliHandler beaconTick
    dsimp only
    split
    · exact .aside taken
    · exact .prepare taken (.inl (by simp [tickDue, idle, queued])) rfl
  | coordAssoc f =>
    have hstatus : ((tdmaFrameFree { d with appli := rest } f).heap .beacon).status =
        (d.heap .beacon).status := update_proj Frame.status (by rfl)
    unfold appliHandler coordAssoc
    dsimp only
    split
    · next ha =>
      have ha : assocAccepted d (d.heap f).pkt = true := by
        rw [assocAccepted, hstatus] at ha
        exact ha
      obtain ⟨n, s, hgrant⟩ := retabled_grantSlots d.tdma (d.heap f).pkt.src
        (d.heap f).pkt.assocSlots.toNat
      have granted : Aside d { tdmaFrameFree { d with appli := rest } f with
          tdma := grantSlots d.tdma (d.heap f).pkt.src (d.heap f).pkt.assocSlots.toNat } :=
        ⟨by rw [hgrant], by rw [hgrant], rfl, update_proj Frame.pkt (by rfl),
          fun h => ⟨h, rfl⟩, fun _ he _ => he⟩
      exact .prepare granted (.inr (by simp [assocRequest, idle, queued, ha])) rfl
    · exact .aside (taken.trans (aside_free _ f))

theorem step_move (sound : Sound d) (coord : d.tdma.state = .coord) (h : step d a = some d') :
    BeaconMove (PrepareDue d a) d d' := by
  have hF := coordFrames_of_sound sound coord
  have busy : d.tdma.state ≠ .idle := by simp [coord]
  cases a with
  | startNode cfg =>
    cases h
    rw [macTdmaStartNode, if_pos busy]
    exact .aside (.refl d)
  | startCoord cfg o =>
    cases h
    rw [macTdmaStartCoord, if_pos busy]
    exact .aside (.refl d)
  | sendAlloc req =>
    cases h
    exact .aside (aside_sendAlloc d req)
  | sendFill k =>
    simp only [step] at h
    split at h
    · next s hs =>
      split at h
      · cases h
      · cases h
        have filled : Aside d (sendFill d s) :=
          aside_update d (hF.sends s (mem_of_getElem? hs)) _
        exact .aside ⟨filled.armed, filled.count, filled.prepared, filled.pkt, filled.slot,
          filled.log⟩
    · cases h
  | sendSubmit k =>
    simp only [step] at h
    split at h
    · next s _ =>
      split at h
      · cases h
        have taken : Aside d { d with sends := d.sends.eraseIdx k } :=
          ⟨rfl, rfl, rfl, rfl, fun h => ⟨h, rfl⟩, fun _ he _ => he⟩
        exact .aside (taken.trans (aside_sendSubmit _ s))
      · cases h
    · cases h
  | slotTimer | timeoutTimer | netSlot =>
    simp only [step] at h
    split at h
    · cases h
      exact .aside ⟨rfl, rfl, rfl, rfl, fun h => ⟨h, rfl⟩, fun _ he _ => he⟩
    · cases h
  | beaconTimer =>
    simp only [step] at h
    split at h
    · cases h
      exact .aside (aside_post d _)
    · cases h
  | netPhy ok rx =>
    simp only [step] at h
    split at h
    · next op net phy =>
      cases h
      exact .aside (aside_phyDone hF phy)
    · cases h
  | netRun o =>
    simp only [step] at h
    split at h
    · next call net => exact move_netRun hF net h
    · cases h
  | appli o =>
    simp only [step] at h
    split at h
    · next r hr =>
      cases h
      cases r with
      | postScan => exact .aside ⟨rfl, rfl, rfl, rfl, fun h => ⟨h, rfl⟩, fun _ he _ => he⟩
      | finishTx next ticket cb arg res =>
        cases next with
        | none => exact .aside ⟨rfl, rfl, rfl, rfl, fun h => ⟨h, rfl⟩, fun _ he _ => he⟩
        | some n => exact .aside ⟨rfl, rfl, rfl, rfl, fun h => ⟨h, rfl⟩, fun _ he _ => he⟩
    · next e rest idle queued =>
      cases h
      exact move_appli hF idle queued
    · cases h

theorem beacons_prepare (hB : Beacons d) (hn : d.tdma.slotCount.toNat ≤ tdmaMaxSlots)
    (hfree : d.sf.frame ≠ some .beacon) : Beacons (beaconPrepare d) := by
  refine ⟨fun _ => ⟨hfree, ?_⟩, fun hs => absurd hs hfree, hB.described⟩
  exact describes_beaconPacket d.tdma _ hn

theorem beacons_complete (hB : Beacons d) (ok : Bool) (frame : d.sf.frame = some .beacon) :
    Beacons (slotTxHandler d ok) := by
  have off : d.tdma.beaconFrame = none := by
    by_contra harmed
    exact (hB.armed harmed).1 frame
  unfold slotTxHandler
  simp only [frame]
  refine ⟨fun harmed => ?_, fun hs => ?_, ?_⟩
  · rw [(txHandler_rest _ _).1] at harmed
    exact absurd off harmed
  · rw [(txHandler_rest _ _).2.1] at hs
    cases hs
  · rw [(txHandler_rest _ _).2.2, (txHandler_rest _ _).1]
    exact hB.described

/-- No beacon is prepared while the beacon frame is in the slot. -/
def BeaconQuiet (d : Device) (a : Action) : Prop := PrepareDue d a → d.sf.frame ≠ some .beacon

instance (d : Device) (a : Action) : Decidable (BeaconQuiet d a) :=
  inferInstanceAs (Decidable (_ ∨ _ → _))

theorem beacons_move (hB : Beacons d) (hn : d.tdma.slotCount.toNat ≤ tdmaMaxSlots)
    (quiet : due → d.sf.frame ≠ some .beacon) (m : BeaconMove due d d') : Beacons d' := by
  cases m with
  | aside same => exact same.keeps hB
  | send same armed slot time o result =>
    subst result
    have hD := same.keeps hB
    exact beacons_slotTxStart slot time o rfl (hD.armed armed).2 hD.described
  | complete same ok frame result =>
    subst result
    exact beacons_complete (same.keeps hB) ok frame
  | prepare same now result =>
    subst result
    exact beacons_prepare (same.keeps hB) (same.count.symm ▸ hn) fun hs =>
      quiet now (same.slot hs).1

/-- A beacon in the slot is neither armed again nor rewritten, and every beacon that was
handed to the radio describes the table as it was last prepared. -/
structure BeaconIntact (d : Device) : Prop where
  armed : ¬(d.tdma.beaconFrame = some .beacon ∧ d.sf.frame = some .beacon)
  onAir : d.sf.frame = some .beacon → ∃ e, d.ghost.txLog.getLast? = some e ∧
    e.frame = .beacon ∧ e.pkt = (d.heap .beacon).pkt
  described : ∀ e ∈ d.ghost.txLog, e.frame = .beacon →
    Describes e.prepared d.tdma.slotCount e.pkt

theorem slotCount_of_effect (h : CoordEffect d a d') : d'.tdma.slotCount = d.tdma.slotCount := by
  cases h with
  | quiet table times log | slot table times log => exact table.slotCount
  | assoc p request table times log =>
    exact table.slotCount.trans (slotCount_of_retabled (retabled_grantSlots _ _ _))

/-- In every run of a coordinator that prepares no beacon while one is in the slot,
beacons are intact. -/
theorem beacons_intact {r : Device} {cfg : CoordConfig}
    (rest : Reach step (macTdmaInit addr) r) (idle : r.tdma.state = .idle)
    (started : (macTdmaStartCoord r cfg o).tdma.state = .coord)
    (run : Run step BeaconQuiet (macTdmaStartCoord r cfg o) d) : BeaconIntact d := by
  have hr := resting_of_reach rest idle
  obtain ⟨hs, -⟩ := started_of_coord hr started
  have fresh := unprepared_start hr started
  have start : Beacons (macTdmaStartCoord r cfg o) := by
    refine ⟨fun armed => absurd fresh.beacon armed, fun frame => ?_, fun e he => ?_⟩
    · rw [fresh.frame] at frame
      cases frame
    · rw [hs.log, hr.log] at he
      cases he
  have hcount : (macTdmaStartCoord r cfg o).tdma.slotCount.toNat ≤ tdmaMaxSlots := by
    rw [hs.table.slotCount, coordTdma, slotCount_of_retabled (retabled_coordSlots _ _)]
    exact hs.count
  have kept : Beacons d ∧ d.tdma.slotCount.toNat ≤ tdmaMaxSlots := by
    refine run.invariant_of (fun d => Sound d ∧ d.tdma.state = .coord)
      (fun d => Beacons d ∧ d.tdma.slotCount.toNat ≤ tdmaMaxSlots)
      (fun t ht => coord_reach hr started ht.reach) ?_ ⟨start, hcount⟩
    rintro t a u ⟨sound, coord⟩ ⟨hB, hn⟩ quiet h
    refine ⟨beacons_move hB hn quiet (step_move sound coord h), ?_⟩
    rw [slotCount_of_effect (coord_effect sound coord h).1]
    exact hn
  refine ⟨fun both => ?_, kept.1.onAir, kept.1.described⟩
  exact (kept.1.armed (by simp [both.1])).1 both.2

open TdmaPool in
def beaconRun : List Action :=
  [.appli calm] ++ handleSlotRun ++ completionRun true

theorem beacons_intact_after_beacon :
    ∃ d, Run step BeaconQuiet (macTdmaStartCoord (macTdmaInit 2) sampleCoord silent) d ∧
      d.ghost.txLog.map (·.frame) = [.beacon] ∧ BeaconIntact d := by
  obtain ⟨d, run, h⟩ :
      ∃ d, Run step BeaconQuiet (macTdmaStartCoord (macTdmaInit 2) sampleCoord silent) d ∧
        d.ghost.txLog.map (·.frame) = [.beacon] := by
    refine execIf_observe beaconRun _ _ ?_
    decide +kernel
  exact ⟨d, run, h, beacons_intact .start rfl (by decide +kernel) run⟩

open TdmaPool in
/-- The beacon timer expires while the beacon is sent; the completion then resets the
frame that was armed again, and slot 0 of the next slots-frame sends it. -/
def rearmRun : List Action :=
  let slot : List Action := [.slotTimer, .netSlot, .netRun silent]
  [.appli calm] ++ handleSlotRun ++ [.beaconTimer, .appli calm] ++ completionRun true ++
    slot ++ slot ++ slot ++ handleSlotRun

open TdmaPool in
/-- The beacon is armed while it is sent, and a beacon without any slot goes out. -/
theorem beacon_broken_by_tick :
    (∃ d, Reach step (macTdmaStartCoord (macTdmaInit 2) sampleCoord silent) d ∧
      d.tdma.beaconFrame = some .beacon ∧ d.sf.frame = some .beacon ∧ ¬BeaconIntact d) ∧
    ∃ d, Reach step (macTdmaStartCoord (macTdmaInit 2) sampleCoord silent) d ∧
      d.ghost.txLog.map (fun e => (e.frame, e.pkt.slotDescCnt)) = [(.beacon, 4), (.beacon, 0)] ∧
      ¬BeaconIntact d := by
  constructor
  · obtain ⟨d, run, h⟩ :
        ∃ d, Reach step (macTdmaStartCoord (macTdmaInit 2) sampleCoord silent) d ∧ _ = _ := by
      refine exec_observe ([.appli calm] ++ handleSlotRun ++ [.beaconTimer, .appli calm])
        (fun d => (d.tdma.beaconFrame, d.sf.frame)) (some .beacon, some .beacon) ?_
      decide +kernel
    simp only [Prod.mk.injEq] at h
    exact ⟨d, run, h.1, h.2, fun hi => hi.armed h⟩
  · obtain ⟨d, run, h⟩ :
        ∃ d, Reach step (macTdmaStartCoord (macTdmaInit 2) sampleCoord silent) d ∧ _ = _ := by
      refine exec_observe rearmRun
        (fun d => (d.tdma.slotCount, d.ghost.txLog.map fun e => (e.frame, e.pkt.slotDescCnt)))
        (4, [(.beacon, 4), (.beacon, 0)]) ?_
      decide +kernel
    simp only [Prod.mk.injEq] at h
    refine ⟨d, run, h.2, fun hi => ?_⟩
    have mem : (FrameId.beacon, (0 : UInt8)) ∈
        d.ghost.txLog.map fun e => (e.frame, e.pkt.slotDescCnt) := by
      rw [h.2]
      decide
    obtain ⟨e, he, hpair⟩ := mem_map.mp mem
    simp only [Prod.mk.injEq] at hpair
    have := (hi.described e he hpair.1).cnt
    rw [h.1, hpair.2] at this
    cases this

end TdmaBeacon
