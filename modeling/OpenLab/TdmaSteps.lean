import OpenLab.TdmaControl

/-!
# Every timely step keeps the books

An action that is `Timely` where it is taken preserves the invariant of `TdmaControl`. It is not
timely in three situations, all in state SCAN: the application runs a `node_timeout`,
`handle_slot` starts a reception, or a late reception handler finds the frame of the scan in the
slot.
-/

namespace TdmaSteps

open List

open Function TdmaTypes TdmaCore TdmaHandlers TdmaDevice TdmaTable TdmaLedger
  TdmaControl LinkedCells
open Schedules

variable {d : Device} {L : Ledger} {f : FrameId} {u : SlotUse} {queue : List FrameId} {o : Oracle}
  {d' : Device}

theorem fillOwners_vt (slots : Nat → UInt16) (n : Nat) (p : Packet) :
    (fillOwners slots n p).vt = p.vt := by
  induction n with
  | zero => rfl
  | succ n ih => exact ih

theorem beaconPacket_type (t : Tdma) (p : Packet) :
    (beaconPacket t p).headerType = p.headerType := by
  have : (beaconPacket t p).vt = p.vt := fillOwners_vt _ _ _
  simp [Packet.headerType, this]

theorem settled_beaconPrepare (hK : Kept d L) (hand : L.hand = []) (load : L.load = [])
    (coord : d.tdma.state = .coord) : Settled (beaconPrepare d) L.slot L.queue := by
  have hB := hK.books.setBeacon hand load (fun hq => hK.control.queue _ hq)
    (beaconPacket d.tdma (d.heap .beacon).pkt)
  refine ⟨L, ⟨hB, ?_⟩, hand, load, rfl, rfl⟩
  have htype : ((d.setPkt .beacon (beaconPacket d.tdma (d.heap .beacon).pkt)).heap
      .beacon).pkt.headerType = (d.heap .beacon).pkt.headerType := by
    simp [Device.setPkt, Device.heap_update_self, beaconPacket_type]
  exact { hK.control with
    beacon := fun g hg => by
      simp only [mode, beaconPrepare, Option.some.injEq] at hg
      exact ⟨hg.symm, coord⟩
    beaconType := fun _ => htype.trans (hK.control.beaconType coord) }

theorem sound_beaconTick (hK : Kept d L) (hand : L.hand = []) (load : L.load = [])
    (coord : d.tdma.state = .coord) : Sound (beaconTick d) := by
  unfold beaconTick
  split
  · exact ⟨_, _, L, hK, hand, load, rfl, rfl⟩
  · exact (settled_beaconPrepare hK hand load coord).sound

theorem sound_coordAssoc (hK : Kept d L) (hand : L.hand = [f]) (load : L.load = [])
    (hp : f.isPool) (coord : d.tdma.state = .coord) : Sound (coordAssoc d f) := by
  obtain ⟨L', hF, hhand, hload, -, -⟩ := settled_free hK hand load hp
  unfold coordAssoc
  dsimp only
  split
  · exact (settled_beaconPrepare (hF.retable (retabled_grantSlots _ _ _)) hhand hload
      ((retabled_grantSlots _ _ _).state_eq.trans coord)).sound
  · exact ⟨_, _, L', hF, hhand, hload, rfl, rfl⟩

theorem sound_dataRxHandler (hK : Kept d L) (hand : L.hand = [f]) (load : L.load = [])
    (hp : f.isPool) : Sound (dataRxHandler d f o) := by
  obtain ⟨L', hF, hhand, hload, -, -⟩ := settled_free hK hand load hp
  unfold dataRxHandler
  dsimp only
  split
  · exact ⟨_, _, L', ⟨hF.books, hF.control⟩, hhand, hload, rfl, rfl⟩
  · exact ⟨_, _, L', hF, hhand, hload, rfl, rfl⟩

theorem sound_dataTxHandler (hK : Kept d L) (hand : L.hand = [])
    (hh : Holds (holdings d) (.dataTx f) L.load) (idle : d.running = none)
    (busy : d.tdma.state ≠ .idle) : Sound (dataTxHandler d f) := by
  obtain ⟨hc, hdone⟩ := hh
  obtain ⟨rest, hload, -⟩ := chain_some_iff.mp hc
  rw [hload] at hc hdone
  have hf := hdone f mem_cons_self
  have hB := hK.books.beginReport (d.heap f).cb (d.heap f).arg
    (if (d.heap f).status = .sent then .ok else .failed) hload hand idle hc hdone
    ⟨hf.own, fun ok => hf.sent (by
      by_contra hne
      have hne : ¬(d.heap f).status = .sent := hne
      simp only [if_neg hne] at ok
      cases ok)⟩
  have hR : Kept { d with running := some (.finishTx (d.next f) (d.ghost.ticket f)
      (d.heap f).cb (d.heap f).arg (if (d.heap f).status = .sent then .ok else .failed)) }
      { L with load := [], chain := rest, hand := [f] } := by
    refine ⟨hB, { hK.control with scans := ?_, idle := fun h => absurd h busy }⟩
    have := hK.control.scans
    simp only [scanCount, mode, idle] at this ⊢
    exact this
  exact (settled_free hR rfl rfl hf.pool).sound

theorem sound_dataTxFinish {next} {r} (hK : Kept d L)
    (hand : L.hand = []) (load : L.load = [])
    (run : d.running = some (.finishTx next r.ticket r.cb r.arg r.result)) :
    Sound (dataTxFinish d next r) := by
  have busy : d.tdma.state ≠ .idle := fun h => by
    have hnone : d.running = none := (hK.control.idle h).2.2.2
    rw [hnone] at run
    cases run
  obtain ⟨hc, hdone, hB⟩ := hK.books.endReport load run
  have hR : Kept { d with
      running := none, ghost := { d.ghost with reports := d.ghost.reports ++ [r] } }
      { L with chain := [], load := L.chain } := by
    refine ⟨hB, { hK.control with scans := ?_, idle := fun h => absurd h busy }⟩
    have := hK.control.scans
    simp only [scanCount, mode, run] at this ⊢
    exact this
  cases next with
  | none =>
    rw [chain_none_iff] at hc
    exact ⟨_, _, _, hR, hand, hc, rfl, rfl⟩
  | some n => exact (settled_postTx hR hand hc hdone busy).sound

theorem sound_sendAlloc (hK : Kept d L) (hand : L.hand = []) (load : L.load = []) (req : SendReq) :
    Sound (sendAlloc d req) := by
  unfold sendAlloc
  split
  · exact ⟨_, _, L, hK, hand, load, rfl, rfl⟩
  · split
    · next d' h =>
      obtain rfl := tdmaFrameAlloc_none h
      exact ⟨_, _, L, hK, hand, load, rfl, rfl⟩
    · next f d' h =>
      obtain ⟨hf, rfl⟩ := tdmaFrameAlloc_some h
      obtain ⟨rest, hp, hA⟩ := hK.alloc hand hf
      have hS := hA.books.addSend (s := ⟨f, req, false⟩) rfl
        ⟨hp, by simp [holdings, Device.framePrepare, Device.heap_update_self],
          fun h => by cases h⟩
      have swap : (d.sends ++ [Send.mk f req false]).Perm (Send.mk f req false :: d.sends) :=
        perm_append_comm
      have hB := hS.permSends swap
      exact ⟨_, _, _, ⟨hB, hA.control⟩, rfl, load, rfl, rfl⟩

theorem sendPacket_type (t : Tdma) (req : SendReq) (p : Packet) :
    (sendPacket t req p).headerType = .data :=
  Packet.headerType_of_vt rfl (by simp)

theorem sound_sendFill {k} {s} (hK : Kept d L) (hand : L.hand = [])
    (load : L.load = []) (hs : d.sends[k]? = some s) :
    Sound { sendFill d s with sends := d.sends.set k { s with filled := true } } := by
  obtain ⟨hk, rfl⟩ := List.getElem?_eq_some_iff.mp hs
  obtain ⟨hB, hS⟩ := hK.books.takeSend (getElem_cons_eraseIdx_perm hk).symm hand
  have hT : Kept { d with sends := d.sends.eraseIdx k } { L with hand := [d.sends[k].frame] } :=
    ⟨hB, hK.control⟩
  have hU := hT.update (f := d.sends[k].frame) (hT.hand_stored (by simp))
    (fun fr => { fr with
      cb := d.sends[k].req.cb
      arg := d.sends[k].req.arg
      pkt := sendPacket d.tdma d.sends[k].req fr.pkt })
    (fun h => by
      have := hS.pool
      rw [h] at this
      cases this)
  have hA := hU.books.addSend (s := { d.sends[k] with filled := true }) rfl
    ⟨hS.pool, by simpa [holdings, Device.heap_update_self] using hS.idle,
      fun _ => by simp [holdings, Device.heap_update_self, sendPacket_type]⟩
  exact ⟨_, _, _, ⟨hA.permSends (set_perm_cons_eraseIdx hk _), hU.control⟩, rfl, load,
    rfl, rfl⟩

theorem relinked (heap : FrameId → Frame) (f : FrameId) (n : Option FrameId) (a : FrameId) :
    ∃ n', update heap f { heap f with next := n } a = { heap a with next := n' } := by
  by_cases ha : a = f
  · subst ha
    exact ⟨n, by simp⟩
  · exact ⟨(heap a).next, by simp [update_of_ne ha]⟩

theorem tdmaFrameSend_spec (hq : Chain d.next d.tdma.txFrames queue) (hf : f ∉ queue)
    (h : tdmaFrameSend d f = some d') :
    ∃ heap' tx', d' = { d with heap := heap', tdma := { d.tdma with txFrames := tx' } } ∧
      Chain (fun a => (heap' a).next) tx' (queue ++ [f]) ∧
      (∀ a, ∃ n, heap' a = { d.heap a with next := n }) ∧
      (∀ a, a ∉ queue → a ≠ f → heap' a = d.heap a) := by
  unfold tdmaFrameSend at h
  split at h
  · cases h
  · cases ht : d.tdma.txFrames with
    | none =>
      rw [ht] at h hq
      rw [chain_none_iff] at hq
      subst hq
      cases h
      refine ⟨_, _, rfl, ?_, fun a => ?_, fun a _ ha => ?_⟩
      · refine chain_single ?_
        simp
      · exact relinked _ _ _ _
      · exact update_of_ne ha _ _
    | some g =>
      rw [ht] at h hq
      obtain ⟨q, rfl, hq'⟩ := chain_some_iff.mp hq
      have hlen := length_le_frameCount hq.nodup
      obtain ⟨pre, hpre⟩ := seek_last frameCount hq'
        (by simp only [length_cons] at hlen; omega)
      dsimp only at h
      generalize seek d.next (fun _ => true) frameCount g = last at h hpre
      rw [hpre] at hq hf ⊢
      have hlast : last ≠ f := by rintro rfl; simp at hf
      cases h
      refine ⟨_, d.tdma.txFrames, rfl, ?_, fun a => ?_, fun a ha hne => ?_⟩
      · rw [append_assoc, singleton_append, ht]
        have hnodup := hq.nodup
        refine hq.redirect (r := some f) (fun a ha => ?_) ?_ (chain_single (by simp))
        · have haf : a ≠ f := by rintro rfl; simp [ha] at hf
          have hal : a ≠ last := by
            rintro rfl
            exact (nodup_append.mp hnodup).2.2 a ha a (by simp) rfl
          simp [Device.next, Device.setNext, Device.update, update_of_ne, haf, hal]
        · simp [Device.setNext, Device.update, update_of_ne, hlast]
      · obtain ⟨n, hn⟩ := relinked d.heap last (some f) a
        obtain ⟨n', hn'⟩ := relinked (d.setNext last (some f)).heap f none a
        exact ⟨n', hn'.trans (congrArg (fun fr : Frame => { fr with next := n' }) hn)⟩
      · refine (update_of_ne hne _ _).trans (update_of_ne ?_ _ _)
        rintro rfl
        simp at ha

theorem sound_accept {req} (hK : Kept d L) (hand : L.hand = [f]) (load : L.load = [])
    (hp : f.isPool) (idle : (d.heap f).status = .idle) (type : (d.heap f).pkt.headerType = .data)
    (cb : req.cb = (d.heap f).cb) (arg : req.arg = (d.heap f).arg)
    (conn : macTdmaIsConnected d.tdma = true) (h : tdmaFrameSend d f = some d') :
    Sound { d' with ghost := { d'.ghost with
      ticket := update d'.ghost.ticket f d'.ghost.accepted.length
      accepted := d'.ghost.accepted ++ [req] } } := by
  have hmem : f ∈ L.hand ++ L.load := by simp [hand]
  have hf : f ∉ L.queue := fun hm => by
    have := hK.hand_stored hmem
    have := count_pos_iff.mpr hm
    unfold stored at *
    omega
  have state : d.tdma.state = .node ∨ d.tdma.state = .coord := by
    simpa [macTdmaIsConnected] using conn
  obtain ⟨heap', tx', rfl, hch, hsame, hother⟩ := tdmaFrameSend_spec hK.books.queue hf h
  have same : ∀ a, (heap' a).status = (d.heap a).status ∧ (heap' a).pkt = (d.heap a).pkt ∧
      (heap' a).cb = (d.heap a).cb ∧ (heap' a).arg = (d.heap a).arg := by
    intro a
    obtain ⟨n, hn⟩ := hsame a
    rw [hn]
    exact ⟨rfl, rfl, rfl, rfl⟩
  have hB := hK.books.enqueue heap' tx' req hand load hp hch
    (fun a ha => ?_) (fun a ha => ?_) (fun a _ => (same a).2.2)
    ⟨cb.trans (same f).2.2.1.symm, arg.trans (same f).2.2.2.symm⟩ hother
  · refine ⟨_, _, _, ⟨hB, { hK.control with net := ?_, queue := ?_, beaconType := ?_ }⟩, rfl,
      load, rfl, rfl⟩
    · intro op ok hop
      rcases hK.control.net op ok hop with ⟨cur, phy, hok⟩ | h
      · refine .inl ⟨cur, phy, fun kind pool succ => ?_⟩
        have hne := hK.ticket_current hmem cur kind
        have : update d.ghost.ticket f d.ghost.accepted.length op.frame =
            d.ghost.ticket op.frame := update_of_ne hne _ _
        simp only [mode, this]
        exact hok kind pool succ
      · exact .inr h
    · intro g hg
      rcases mem_append.mp hg with hg | hg
      · exact hK.control.queue g hg
      · rw [mem_singleton.mp hg]
        cases f with
        | pool i => exact state
        | _ => cases hp
    · intro coord
      simp only [mode, Packet.headerType, (same .beacon).2.1]
      exact hK.control.beaconType coord
  · rw [(same a).1]
    rcases mem_append.mp ha with ha | ha
    · exact (hK.books.queued a ha).idle
    · rw [mem_singleton.mp ha]
      exact idle
  · rw [(same a).2.1]
    rcases mem_append.mp ha with ha | ha
    · exact (hK.books.queued a ha).kind.imp_right fun hk => ⟨hk.1, hk.2.1⟩
    · rw [mem_singleton.mp ha]
      exact .inr ⟨hp, type⟩

theorem sound_sendSubmit {k} {s} (hK : Kept d L) (hand : L.hand = [])
    (load : L.load = []) (hs : d.sends[k]? = some s) (filled : s.filled = true) :
    Sound (sendSubmit { d with sends := d.sends.eraseIdx k } s) := by
  obtain ⟨hk, rfl⟩ := List.getElem?_eq_some_iff.mp hs
  obtain ⟨hB, hS⟩ := hK.books.takeSend (getElem_cons_eraseIdx_perm hk).symm hand
  have hT : Kept { d with sends := d.sends.eraseIdx k } { L with hand := [d.sends[k].frame] } :=
    ⟨hB, hK.control⟩
  unfold sendSubmit
  split
  · next conn =>
    split
    · exact (settled_free hT rfl load hS.pool).sound
    · next d' h =>
      obtain ⟨type, cb, arg⟩ := hS.data filled
      exact sound_accept hT rfl load hS.pool hS.idle type cb arg conn h
  · exact (settled_free hT rfl load hS.pool).sound

theorem sound_phyDone {op} {ok} {rx} (hK : Kept d L)
    (hand : L.hand = []) (load : L.load = []) (phy : d.phy = some op) (net : d.net = none) :
    Sound (phyDone d op ok rx) := by
  have cur := hK.control.phy op phy
  have plain : (op.kind = .tx → ¬(ok && op.frame.isPool) = true) →
      Sound { d with phy := none, net := some (.done op ok) } := fun h =>
    ⟨_, _, L, ⟨hK.books, hK.control.complete ok _ phy net fun kind hp hok =>
      absurd (by rw [hok, hp]; rfl) (h kind)⟩, hand, load, rfl, rfl⟩
  -- a received packet lands in the frame of the slot
  have written : op.kind ≠ .tx → Sound ({ d with
      phy := none, net := some (.done op ok) }.setPkt op.frame rx.pkt) := by
    intro kind
    have hslot := hK.books.slot
    have hmem : op.frame ∈ L.slot.frames ∧ op.frame ≠ .beacon ∧
        SlotHolds { holdings d with
          heap := update d.heap op.frame { d.heap op.frame with pkt := rx.pkt } }
          L.slot := by
      rcases op with ⟨_ | _ | _, g⟩
      · exact absurd rfl kind
      · have hL : L.slot = .rx g := cur
        rw [hL] at hslot ⊢
        refine ⟨mem_singleton_self g, ?_, hslot.1, hslot.2.1, ?_⟩
        · rintro rfl
          cases hslot.2.1
        · simpa [holdings] using hslot.2.2
      · obtain ⟨hL, rfl⟩ : L.slot = .scan ∧ g = .node := cur
        rw [hL] at hslot ⊢
        exact ⟨mem_singleton_self _, by simp, hslot⟩
    refine ⟨_, _, L, ⟨hK.books.setSlotFrame hand load hmem.1 _ hmem.2.2, ?_⟩, hand, load, rfl, rfl⟩
    have hC := hK.control.complete ok d.ghost.txOk phy net
      (fun h => absurd h kind)
    have hbeacon : (({ d with phy := none, net := some (.done op ok) } : Device).setPkt op.frame
        rx.pkt).heap .beacon = d.heap .beacon :=
      Device.heap_update_of_ne _ hmem.2.1.symm _
    refine { hC with beaconType := fun h => ?_ }
    simp only [mode, hbeacon]
    exact hC.beaconType h
  unfold phyDone
  split
  · next kind =>
    split
    · refine ⟨_, _, L, ⟨hK.books.addOk _, hK.control.complete ok _ phy net fun _ _ _ => ?_⟩, hand,
        load, rfl, rfl⟩
      exact mem_cons_self
    · next hok => exact plain fun _ => hok
  · next kind =>
    split
    · exact written kind
    · exact plain fun h => absurd h kind

theorem Control.at_rest {m} (hC : Control m u queue) (idle : m.state = .idle) :
    u = .empty ∧ queue = [] ∧ m.appli = [] ∧ m.phy = none ∧ m.timeoutTimer = false ∧
      m.beaconTimer = false := by
  have hu : u = .empty := by
    have hs := hC.slot
    rw [idle] at hs
    rcases u with _ | g | g | _
    · rfl
    · exact absurd rfl hs.1
    · cases g <;> simp [SlotFits] at hs
    · simp [SlotFits] at hs
  refine ⟨hu, ?_, ?_, ?_, ?_, ?_⟩
  · refine eq_nil_iff_forall_not_mem.mpr fun f hf => ?_
    have := hC.queue f hf
    rw [idle] at this
    cases f <;> simp [QueueFits] at this
  · refine eq_nil_iff_forall_not_mem.mpr fun e he => ?_
    have := hC.events e he
    rw [idle] at this
    cases e <;> simp [EventFits, nodeRole] at this
  · subst hu
    exact hC.phy_none
  · refine Bool.eq_false_iff.mpr fun h => ?_
    have := hC.timeout h
    rw [idle] at this
    cases this
  · refine Bool.eq_false_iff.mpr fun h => ?_
    have := hC.beaconTimer h
    rw [idle] at this
    cases this

theorem sound_startNode {cfg} (hK : Kept d L) (hand : L.hand = [])
    (load : L.load = []) : Sound (macTdmaStartNode d cfg) := by
  unfold macTdmaStartNode
  split
  · exact ⟨_, _, L, hK, hand, load, rfl, rfl⟩
  · next hidle =>
    have idle : d.tdma.state = .idle := by simpa using hidle
    obtain ⟨hu, hq, happli, hphy, htimeout, hbeacon⟩ := Control.at_rest hK.control idle
    obtain ⟨_, _, hnet, hrunning⟩ := hK.control.idle idle
    simp only [mode] at happli hphy htimeout hbeacon hnet hrunning
    refine ⟨_, _, _, ⟨hK.books.postHand hand rfl rfl, ?_⟩, rfl, load, rfl, rfl⟩
    rw [hu, hq]
    exact {
      phy := fun op h => by simp [mode, Device.eventPost, hphy] at h
      net := fun op ok h => by simp [mode, Device.eventPost, hnet] at h
      events := fun e he => by
        simp only [mode, Device.eventPost, happli, nil_append, mem_singleton] at he
        rw [he]
        exact rfl
      queue := fun f hf => by cases hf
      slot := trivial
      scans := by
        simp [scanCount, mode, Device.eventPost, happli, hphy, hnet, hrunning, scanNext, scanLimit]
      timeout := fun _ => rfl
      beaconTimer := fun h => by simp [mode, Device.eventPost, hbeacon] at h
      beacon := fun f h => by cases h
      beaconType := fun h => by cases h
      handlers := ⟨by simp [mode, Device.eventPost], rfl⟩
      idle := fun h => by cases h }

theorem Control.of_rest {m} (state : m.state = .idle) (appli : m.appli = [])
    (phy : m.phy = none) (net : m.net = none) (running : m.running = none)
    (timeout : m.timeoutTimer = false) (beaconTimer : m.beaconTimer = false)
    (slotTimer : m.slotTimer = false) (slotEvents : m.slotEvents = 0)
    (beacon : m.beaconFrame = none) : Control m .empty [] where
  phy := fun op h => by simp [phy] at h
  net := fun op ok h => by simp [net] at h
  events := fun e he => by simp [appli] at he
  queue := fun f hf => by cases hf
  slot := trivial
  scans := by simp [scanCount, appli, phy, net, running, scanNext, scanLimit, state]
  timeout := fun h => by simp [timeout] at h
  beaconTimer := fun h => by simp [beaconTimer] at h
  beacon := fun f h => by simp [beacon] at h
  beaconType := fun h => by simp [state] at h
  handlers := by rw [state]; trivial
  idle := fun _ => ⟨slotTimer, slotEvents, net, running⟩

theorem Control.of_start {m} (state : m.state = .coord) (appli : m.appli = [.beaconTick])
    (phy : m.phy = none) (net : m.net = none) (running : m.running = none)
    (timeout : m.timeoutTimer = false) (beacon : m.beaconFrame = none)
    (type : m.beaconType = .beacon) (rx : m.rxHandler = .coordRx) (tx : m.txHandler = .coordTx) :
    Control m .empty [] where
  phy := fun op h => by simp [phy] at h
  net := fun op ok h => by simp [net] at h
  events := fun e he => by
    rw [appli, mem_singleton] at he
    rw [he]
    exact state
  queue := fun f hf => by cases hf
  slot := trivial
  scans := by simp [scanCount, appli, phy, net, running, scanNext, scanLimit, state]
  timeout := fun h => by simp [timeout] at h
  beaconTimer := fun _ => state
  beacon := fun f h => by simp [beacon] at h
  beaconType := fun _ => type
  handlers := by rw [state]; exact ⟨rx, tx⟩
  idle := fun h => by simp [state] at h

theorem initBeacon_spec (d : Device) : ∃ fr, initBeacon d =
    { d with heap := update d.heap .beacon fr } ∧ fr.pkt.headerType = .beacon := by
  refine ⟨(initBeacon d).heap .beacon, ?_, ?_⟩
  · simp [initBeacon, Device.framePrepare, Device.setPkt, Device.update]
  · exact Packet.headerType_of_vt rfl (by simp)

theorem sound_coordSetup {slotsframe} (hB : Books (holdings d) L)
    (hand : L.hand = []) (load : L.load = []) (hu : L.slot = .empty) (hq : L.queue = [])
    (idle : d.tdma.state = .idle) (happli : d.appli = []) (hphy : d.phy = none)
    (hnet : d.net = none) (hrunning : d.running = none) (htimeout : d.timeoutTimer = false)
    (hbeacon : d.beaconTimer = false) (hevents : d.slotEvents = 0)
    (hbf : d.tdma.beaconFrame = none) (hrx : d.tdma.rxHandler = .coordRx)
    (htx : d.tdma.txHandler = .coordTx) : Sound (coordSetup d slotsframe) := by
  obtain ⟨free, queue, slot, chain, events, _, _⟩ := L
  cases hand
  cases load
  cases hu
  cases hq
  have hframe : d.sf.frame = none := hB.slot
  have hqueue : d.tdma.txFrames = none := hB.queue.head_eq
  obtain ⟨fr, hinit, htype⟩ := initBeacon_spec d
  have absent := hB.stored_static (f := .beacon) rfl (by simp) (by simp)
  have hB := hB.setHeap absent fr
  unfold coordSetup
  rw [hinit]
  dsimp only
  obtain ⟨n, s, htable⟩ := retabled_coordSlots d.tdma slotsframe
  rw [htable]
  split
  · have hB := hB.postHand (e := .beaconTick) (l := []) rfl rfl rfl
    simp only [holdings, hframe, hqueue] at hB
    refine ⟨.empty, [], ⟨free, [], .empty, chain, events ++ [(.beaconTick, [])], [], []⟩,
      ⟨?_, ?_⟩, rfl, rfl, rfl, rfl⟩
    · simp only [holdings, Device.eventPost, hframe]
      exact hB
    · exact Control.of_start rfl (by simp [mode, Device.eventPost, happli]) hphy hnet hrunning
        htimeout rfl (by simpa [mode, Device.eventPost] using htype) hrx htx
  · simp only [tdmaSlotStop, Device.phyStop, hframe]
    simp only [holdings, hframe] at hB
    refine ⟨.empty, [], _, ⟨hB, ?_⟩, rfl, rfl, rfl, rfl⟩
    exact Control.of_rest idle happli rfl hnet hrunning htimeout hbeacon rfl hevents hbf

theorem sound_startCoord {cfg} (hK : Kept d L) (hand : L.hand = [])
    (load : L.load = []) : Sound (macTdmaStartCoord d cfg o) := by
  unfold macTdmaStartCoord
  split
  · exact ⟨_, _, L, hK, hand, load, rfl, rfl⟩
  · next hidle =>
    have idle : d.tdma.state = .idle := by simpa using hidle
    obtain ⟨free, queue, slot, chain, events, _, _⟩ := L
    cases hand
    cases load
    obtain ⟨hu, hq, happli, hphy, htimeout, hbeacon⟩ := Control.at_rest hK.control idle
    cases hu
    cases hq
    obtain ⟨htimer, hevents, hnet, hrunning⟩ := hK.control.idle idle
    have hframe : d.sf.frame = none := hK.books.slot
    have hbf : d.tdma.beaconFrame = none := by
      cases hb : d.tdma.beaconFrame with
      | none => rfl
      | some f => simpa [mode, idle] using (hK.control.beacon f hb).2
    by_cases hbig : tdmaMaxSlots < (registerCoord d.tdma cfg).slotCount.toNat
    · simp only [tdmaSlotStart, hbig, if_true]
      refine ⟨_, _, _, ⟨hK.books, ?_⟩, rfl, rfl, rfl, rfl⟩
      exact Control.of_rest idle happli hphy hnet hrunning htimeout hbeacon htimer hevents hbf
    · simp only [tdmaSlotStart, hbig, if_false]
      refine sound_coordSetup (L := ⟨free, [], .empty, chain, events, [], []⟩) ?_ rfl rfl rfl rfl
        idle happli rfl hnet hrunning htimeout hbeacon hevents hbf rfl rfl
      have hB := hK.books
      simp only [holdings, hframe] at hB
      exact hB

/-- What the network task must not meet in state SCAN. -/
def NetTimely (d : Device) : NetCall → Prop
  | .slot => SlotTimely d
  | .done op _ => op.kind = .rx → d.tdma.state = .scan → d.sf.frame ≠ some .node

/-- When an action may be taken: `node_timeout` must not run in state SCAN, and in that
state `handle_slot` must not start a reception and a late completion of a reception
must not find the frame of the scan in the slot. -/
def Timely (d : Device) : Action → Prop
  | .appli _ => d.running = none → d.appli.head? = some .nodeTimeout → d.tdma.state ≠ .scan
  | .netRun _ => ∀ call ∈ d.net, NetTimely d call
  | _ => True

instance (d : Device) : Decidable (SlotTimely d) := inferInstanceAs (Decidable (_ → _ ∨ _))

instance (d : Device) : DecidablePred (NetTimely d)
  | .slot => inferInstanceAs (Decidable (SlotTimely d))
  | .done _ _ => inferInstanceAs (Decidable (_ = _ → _ → _))

instance (d : Device) : DecidablePred (Timely d)
  | .appli _ => inferInstanceAs (Decidable (_ = _ → _ → _))
  | .netRun _ => inferInstanceAs (Decidable (∀ call ∈ d.net, NetTimely d call))
  | .startNode _ | .startCoord _ _ | .sendAlloc _ | .sendFill _ | .sendSubmit _ | .slotTimer
  | .timeoutTimer | .beaconTimer | .netSlot | .netPhy _ _ => .isTrue trivial

section

variable (hK : Kept d L) (hand : L.hand = []) (load : L.load = [])

include hK hand load

theorem sound_netRun {call} (net : d.net = some call) (timely : Timely d (.netRun o))
    (h : netHandler { d with net := none } o call = some d') : Sound d' := by
  have busy : d.tdma.state ≠ .idle := fun hidle => by
    have hnone : d.net = none := (hK.control.idle hidle).2.2.1
    rw [hnone] at net
    cases net
  have hK₀ : Kept { d with net := none } L := by
    refine ⟨hK.books, { hK.control with
      net := fun op ok hop => by cases hop
      scans := ?_
      idle := fun hidle => absurd hidle busy }⟩
    have := hK.control.scans
    simp only [scanCount, mode, scanDone_none] at this ⊢
    omega
  have idle₀ : NetIdle { d with net := none } := netIdle_of_none rfl
  have hframe : SlotHolds (holdings d) L.slot := hK.books.slot
  have timely := timely call net
  rcases call with _ | ⟨⟨_ | _ | _, f⟩, ok⟩
  · cases h
    exact sound_handleSlot hK₀ hand load idle₀ busy timely
  · cases h
    refine sound_slotTxHandler hK₀ hand load idle₀ ?_
    rcases hK.control.net _ _ net with ⟨cur, -, hok⟩ | ⟨hscan, -⟩
    · exact .inr (.inr ⟨f, cur, fun hp succ => hok rfl hp succ⟩)
    · exact (hK.control.scan_slot hscan).imp_right .inl
  · cases h
    refine sound_slotRxHandler hK₀ hand load idle₀ ?_
    rcases hK.control.net _ _ net with ⟨cur, -, -⟩ | ⟨hscan, -⟩
    · exact .inr ⟨f, cur⟩
    · rcases hK.control.scan_slot hscan with hu | hu
      · exact .inl hu
      · rw [hu] at hframe
        exact absurd hframe (timely rfl hscan)
  · rcases hK.control.net _ _ net with ⟨cur, phy, -⟩ | ⟨-, hkind⟩
    · refine sound_slotScanHandler hK₀ hand load rfl phy cur.1 ?_ h
      have hone : scanDone d.net = 1 := by rw [net]; rfl
      have hscan : scanLimit d.tdma.state ≤ 1 := by cases d.tdma.state <;> simp [scanLimit]
      have := hK.control.scans
      simp only [scanCount, mode, scanDone_none] at this ⊢
      omega
    · exact absurd rfl hkind

theorem sound_appliHandler {e} {rest} (he : d.appli = e :: rest) (running : d.running = none)
    (timely : e = .nodeTimeout → d.tdma.state ≠ .scan) :
    Sound (appliHandler { d with appli := rest } o e) := by
  obtain ⟨l, events, hh, L', hB, rfl⟩ := hK.books.popEvent he hand load
  have fits : EventFits d.tdma.state e := hK.control.events e (by simp [mode, he])
  have hC : Control (mode { d with appli := rest }) L.slot L.queue := by
    refine { hK.control with
      events := fun e' he' => hK.control.events e' (by simpa [mode, he] using .inr he')
      scans := ?_ }
    have hs := hK.control.scans
    simp only [scanCount, mode, he, count_cons] at hs ⊢
    omega
  have hP : Kept { d with appli := rest } { L with
      events := events, hand := unchained (e, l), load := chained (e, l) } := ⟨hB, hC⟩
  cases e with
  | nodeTimeout =>
    exact sound_nodeTimeout hP hh rfl fits (timely rfl) running
  | scanStart =>
    have hs := hK.control.scans
    have hlimit : scanCount (mode { d with appli := rest }) + 1 ≤ scanLimit d.tdma.state := by
      simp only [scanCount, mode, he, count_cons_self] at hs ⊢
      omega
    have hscan : d.tdma.state = .scan := by
      revert hlimit
      cases d.tdma.state <;> simp [scanLimit]
    refine sound_scanStart hP hh rfl hscan ?_
    rw [hscan, scanLimit] at hlimit
    omega
  | nodeBeacon f => exact sound_nodeBeacon hP hh.1 rfl hh.2 fits
  | dataTx f => exact sound_dataTxHandler hP rfl hh running fits
  | dataRx f => exact sound_dataRxHandler hP hh.1 rfl hh.2
  | beaconTick => exact sound_beaconTick hP hh rfl fits
  | coordAssoc f => exact sound_coordAssoc hP hh.1 rfl hh.2 fits

theorem sound_appliResume {r} (running : d.running = some r) : Sound (appliResume d r) := by
  cases r with
  | finishTx next ticket cb arg res =>
    exact sound_dataTxFinish (r := ⟨ticket, cb, arg, res⟩) hK hand load running
  | postScan =>
    have busy : d.tdma.state ≠ .idle := fun hidle => by
      have hnone : d.running = none := (hK.control.idle hidle).2.2.2
      rw [hnone] at running
      cases running
    have hs := hK.control.scans
    have hone : scanNext d.running = 1 := by rw [running]; rfl
    have hlimit : d.appli.count .scanStart + scanOp d.phy + scanDone d.net + 1 ≤
        scanLimit d.tdma.state := by
      simp only [scanCount, mode] at hs
      omega
    have hscan : d.tdma.state = .scan := by
      revert hlimit
      cases d.tdma.state <;> simp [scanLimit]
    rw [hscan, scanLimit] at hlimit
    have hzero : scanCount (mode { d with running := none }) = 0 := by
      simp only [scanCount, mode, scanNext]
      omega
    have hC : Control (mode { d with running := none }) L.slot L.queue :=
      { hK.control with
        scans := by rw [hzero]; exact Nat.zero_le _
        idle := fun hidle => absurd hidle busy }
    exact ⟨_, _, _, ⟨(hK.books.endScan running).postHand hand rfl rfl,
      hC.postScan hscan hzero⟩, rfl, load, rfl, rfl⟩

end

/-- The step theorem: every timely action of a sound device leaves it sound. -/
theorem sound_step {a} (hd : Sound d) (timely : Timely d a) (h : step d a = some d') :
    Sound d' := by
  obtain ⟨_, _, L, hK, hand, load, rfl, rfl⟩ := hd
  cases a with
  | startNode cfg =>
    cases h
    exact sound_startNode hK hand load
  | startCoord cfg o =>
    cases h
    exact sound_startCoord hK hand load
  | sendAlloc req =>
    cases h
    exact sound_sendAlloc hK hand load req
  | sendFill k =>
    simp only [step] at h
    split at h
    · next s hs =>
      split at h
      · cases h
      · cases h
        exact sound_sendFill hK hand load hs
    · cases h
  | sendSubmit k =>
    simp only [step] at h
    split at h
    · next s hs =>
      split at h
      · next hfilled =>
        cases h
        exact sound_sendSubmit hK hand load hs hfilled
      · cases h
    · cases h
  | slotTimer =>
    simp only [step] at h
    split at h
    · next ht =>
      cases h
      refine ⟨_, _, L, ⟨hK.books, { hK.control with idle := fun hidle => ?_ }⟩, hand, load,
        rfl, rfl⟩
      have : d.slotTimer = false := (hK.control.idle hidle).1
      rw [this] at ht
      cases ht
    · cases h
  | timeoutTimer =>
    simp only [step] at h
    split at h
    · next ht =>
      cases h
      have role := hK.control.timeout ht
      refine (settled_post (d := { d with timeoutTimer := false }) (e := .nodeTimeout) (l := [])
        ⟨hK.books, { hK.control with timeout := fun h => by cases h }⟩ hand load rfl rfl role
        (by simp)).sound
    · cases h
  | beaconTimer =>
    simp only [step] at h
    split at h
    · next ht =>
      cases h
      exact (settled_post (e := .beaconTick) (l := []) hK hand load rfl rfl
        (hK.control.beaconTimer ht) (by simp)).sound
    · cases h
  | netSlot =>
    simp only [step] at h
    split at h
    · next k hnet hk =>
      cases h
      refine ⟨_, _, L, ⟨hK.books, { hK.control with
        net := fun op ok hop => by cases hop
        scans := ?_
        idle := fun hidle => ?_ }⟩, hand, load, rfl, rfl⟩
      · have := hK.control.scans
        simp only [scanCount, mode, hnet] at this ⊢
        exact this
      · have : d.slotEvents = 0 := (hK.control.idle hidle).2.1
        omega
    · cases h
  | netPhy ok rx =>
    simp only [step] at h
    split at h
    · next op hnet hphy =>
      cases h
      exact sound_phyDone hK hand load hphy hnet
    · cases h
  | netRun o =>
    simp only [step] at h
    split at h
    · next call hnet => exact sound_netRun hK hand load hnet timely h
    · cases h
  | appli o =>
    simp only [step] at h
    split at h
    · next r hr =>
      cases h
      exact sound_appliResume hK hand load hr
    · next e rest hr he =>
      cases h
      refine sound_appliHandler hK hand load he hr fun hev => ?_
      subst hev
      exact timely hr (by rw [he]; rfl)
    · cases h

theorem chain_pushFrame (is : List (Fin macTdmaMaxFrames)) {l}
    (hc : Chain d.next d.frames l) (hn : (is.map FrameId.pool ++ l).Nodup) :
    Chain (is.foldl pushFrame d).next (is.foldl pushFrame d).frames
      ((is.map .pool).reverse ++ l) := by
  induction is generalizing d l with
  | nil => exact hc
  | cons i is ih =>
    have hn' := nodup_cons.mp hn
    have pushed : Chain (pushFrame d i).next (pushFrame d i).frames (.pool i :: l) := by
      refine .cons ?_
      have hnext : (pushFrame d i).next (.pool i) = d.frames := by
        simp [Device.next, pushFrame, Device.setNext, Device.heap_update_self]
      rw [hnext]
      refine hc.frame fun a ha => ?_
      have hne : a ≠ .pool i := by
        rintro rfl
        exact hn'.1 (mem_append_right _ ha)
      simp [Device.next, pushFrame, Device.setNext, Device.heap_update_of_ne d hne]
    have := ih pushed (nodup_middle.mpr hn)
    simpa using this

def initLedger : Ledger where
  free := ((List.finRange macTdmaMaxFrames).map .pool).reverse
  queue := []
  slot := .empty
  chain := []
  events := []
  hand := []
  load := []

theorem sound_init (addr : UInt16) : Sound (macTdmaInit addr) := by
  refine ⟨_, _, initLedger, ⟨?_, ?_⟩, rfl, rfl, rfl, rfl⟩
  · exact {
      free := by
        have := chain_pushFrame (d := blank addr) (finRange macTdmaMaxFrames) (l := [])
          .nil (by decide)
        rwa [append_nil] at this
      freePool := by decide
      count := rfl
      queue := .nil
      queued := fun f hf => by cases hf
      slot := rfl
      chain := rfl
      events := rfl
      held := fun p hp => by cases hp
      sends := fun s hs => by cases hs
      once := by
        change ∀ f, initLedger.free.count f ≤ 1
        decide
      pool := by
        change ∀ i, initLedger.free.count (.pool i) = 1
        decide
      carried := fun t => rfl
      reported := fun r hr => by cases hr
      ordered := .nil
      startedBelow := fun t ht => by cases ht }
  · exact Control.of_rest rfl rfl rfl rfl rfl rfl rfl rfl rfl rfl

theorem sound_run {addr} {d} (run : Run step Timely (macTdmaInit addr) d) :
    Sound d :=
  run.invariant Sound (fun _ _ _ hd timely h => sound_step hd timely h) (sound_init addr)

end TdmaSteps
