import OpenLab.TdmaBeacon

/-!
# A coordinator and its nodes

Nodes share the slots-frame of one coordinator, which only fills free entries of its table. A
connected node takes its whole table from a beacon, so it holds no slot that the coordinator did
not give it.
-/

namespace TdmaNetwork

open List

open Function Schedules TdmaTypes TdmaCore TdmaHandlers TdmaDevice TdmaTable TdmaControl TdmaEffects
open TdmaSteps TdmaSlots TdmaScan TdmaCoordinator TdmaBeacon

variable {d d' : Device} {a : Action} {o : Oracle} {n : UInt8} {s s' : Nat → UInt16}

theorem packerUint16Hton_hton (v : UInt16) : packerUint16Hton (packerUint16Hton v) = v := by
  apply UInt16.toBitVec_inj.mp
  ext i hi
  simp only [packerUint16Hton, UInt16.toBitVec_or, UInt16.toBitVec_and,
    UInt16.toBitVec_shiftRight, UInt16.toBitVec_shiftLeft]
  -- Bit by bit: each one is moved by eight places and back.
  interval_cases i <;> simp

/-- A table whose free entries may have been filled since. -/
def Grown (s s' : Nat → UInt16) : Prop := ∀ i, s' i = s i ∨ s i = 0

/-- The packet, in network order, gives a slot to nobody but its owner in the table of `n`
slots; it may leave slots out. -/
structure Announces (p : Packet) (n : UInt8) (s : Nat → UInt16) : Prop where
  off : p.slotDescOff = 0
  cnt : p.slotDescCnt = 0 ∨ p.slotDescCnt = n
  own : ∀ i < p.slotDescCnt.toNat,
    packerUint16Hton (p.slotDescOwn i) = 0 ∨ packerUint16Hton (p.slotDescOwn i) = s i

variable {p : Packet}

theorem Announces.grown (h : Announces p n s) (grown : Grown s s') : Announces p n s' := by
  refine ⟨h.off, h.cnt, fun i hi => ?_⟩
  rcases h.own i hi with free | own
  · exact .inl free
  · rcases grown i with same | free
    · exact .inr (own.trans same.symm)
    · exact .inl (own.trans free)

theorem announces_of_describes (h : Describes s n p) : Announces p n s := by
  refine ⟨h.off, .inr h.cnt, fun i hi => .inr ?_⟩
  rw [h.cnt] at hi
  rw [h.own i hi, packerUint16Hton_hton]

/-- A packet with the slot descriptions of another one. -/
def SameSlots (p q : Packet) : Prop :=
  p.slotDescOff = q.slotDescOff ∧ p.slotDescCnt = q.slotDescCnt ∧
    ∀ i < q.slotDescCnt.toNat, p.slotDescOwn i = q.slotDescOwn i

instance (p q : Packet) : Decidable (SameSlots p q) := inferInstanceAs (Decidable (_ ∧ _ ∧ _))

theorem Announces.same {q} (h : Announces q n s) (same : SameSlots p q) :
    Announces p n s := by
  obtain ⟨off, cnt, own⟩ := same
  refine ⟨off.trans h.off, cnt ▸ h.cnt, fun i hi => ?_⟩
  rw [cnt] at hi
  rw [own i hi]
  exact h.own i hi

/-- The armed beacon, and every beacon that was sent, is right about the table. -/
structure Announcing (d : Device) : Prop where
  armed : d.tdma.beaconFrame ≠ none →
    Announces (d.heap .beacon).pkt d.tdma.slotCount d.tdma.slots
  sent : ∀ e ∈ d.ghost.txLog, e.frame = .beacon →
    Announces e.pkt d.tdma.slotCount d.tdma.slots

theorem announces_txHandler (h : Announces (d.heap .beacon).pkt n s) :
    Announces ((txHandler d .beacon).heap .beacon).pkt n s := by
  unfold txHandler
  split
  · unfold coordTxHandler
    split
    · refine ⟨?_, .inl ?_, fun i hi => ?_⟩
      · simpa [Device.setPkt, Device.framePrepare, Device.update, Packet.slotDescOff,
          Packet.setByte, Packet.headerPrepare] using h.off
      · simp [Device.setPkt, Device.framePrepare, Device.update, Packet.slotDescCnt,
          Packet.setByte]
      · simp [Device.setPkt, Device.framePrepare, Device.update, Packet.slotDescCnt,
          Packet.setByte] at hi
    · exact h
    · exact h
  · exact h

theorem grown_coord (eff : CoordEffect d a d') : Grown d.tdma.slots d'.tdma.slots := by
  intro i
  cases eff with
  | quiet table times log | slot table times log => exact .inl (congrFun table.slots i)
  | assoc p request table times log =>
    rw [table.slots]
    exact (slots_grant d.tdma p.src p.assocSlots.toNat i).imp_right And.left

theorem announcing_step (hA : Announcing d) (sound : Sound d) (coord : d.tdma.state = .coord)
    (hn : d.tdma.slotCount.toNat ≤ tdmaMaxSlots) (h : step d a = some d') : Announcing d' := by
  have eff := (coord_effect sound coord h).1
  have grown := grown_coord eff
  have count := slotCount_of_effect eff
  have armed : d.tdma.beaconFrame ≠ none →
      Announces (d.heap .beacon).pkt d'.tdma.slotCount d'.tdma.slots := fun hb =>
    count ▸ (hA.armed hb).grown grown
  have sent : ∀ e ∈ d.ghost.txLog, e.frame = .beacon →
      Announces e.pkt d'.tdma.slotCount d'.tdma.slots := fun e he hb =>
    count ▸ (hA.sent e he hb).grown grown
  cases step_move sound coord h with
  | aside same =>
    refine ⟨fun hb => ?_, fun e he hb => sent e (same.log e he hb) hb⟩
    rw [same.pkt]
    exact armed (same.armed ▸ hb)
  | @send D same hb slot time o result =>
    generalize hE : ({ D with
      tdma := { D.tdma with beaconFrame := none }
      sf := { D.sf with beaconBackoff := tdmaBeaconBackoffCount + 1 } } : Device) = E at result
    have hpkt : (E.heap .beacon).pkt = (d.heap .beacon).pkt := by
      rw [← hE]
      exact same.pkt
    have hlog : E.ghost.txLog = D.ghost.txLog := by rw [← hE]
    obtain ⟨e, -, -, pkt, -, log⟩ := slotTxStart_log E .beacon slot time o
    obtain ⟨tdma, -, -⟩ := slotTxStart_rest E .beacon slot time o
    rw [← result] at log tdma
    refine ⟨fun hb' => ?_, fun e' he' hb' => ?_⟩
    · rw [tdma, ← hE] at hb'
      exact absurd rfl hb'
    · rw [log, hlog] at he'
      rcases mem_append.mp he' with he' | he'
      · exact sent e' (same.log e' he' hb') hb'
      · rw [mem_singleton.mp he', pkt, hpkt]
        exact armed (same.armed ▸ hb)
  | @complete D same ok frame result =>
    have heq : d' = txHandler (({ D.phyStop with sf := { D.sf with frame := none } } :
        Device).setStatus .beacon (if ok then .sent else .failed)) .beacon := by
      rw [result, slotTxHandler]
      simp [frame]
    generalize hE : Device.setStatus _ _ _ = E at heq
    have hpkt : (E.heap .beacon).pkt = (d.heap .beacon).pkt := by
      rw [← hE]
      exact Eq.trans (update_proj Frame.pkt (by rfl)) same.pkt
    obtain ⟨tdma, -, ghost⟩ := txHandler_rest E .beacon
    rw [← heq] at tdma ghost
    have htdma : d'.tdma = D.tdma := by rw [tdma, ← hE]; rfl
    have hghost : d'.ghost = D.ghost := by rw [ghost, ← hE]; rfl
    refine ⟨fun hb => ?_, fun e he hb => ?_⟩
    · rw [htdma, same.armed] at hb
      have := armed hb
      rw [← hpkt] at this
      rw [heq] at this ⊢
      exact announces_txHandler this
    · rw [hghost] at he
      exact sent e (same.log e he hb) hb
  | @prepare D same now result =>
    have hcount : D.tdma.slotCount.toNat ≤ tdmaMaxSlots := same.count ▸ hn
    subst result
    refine ⟨fun _ => ?_, fun e he hb => sent e (same.log e he hb) hb⟩
    exact announces_of_describes (describes_beaconPacket D.tdma _ hcount)

/-- A node holds no slot beyond the slots-frame and, once connected, none that the table of
the coordinator does not give it. -/
structure Licensed (n : UInt8) (s : Nat → UInt16) (t : Tdma) : Prop where
  inside : ∀ i, 0 < i → n.toNat ≤ i → t.slots i ≠ t.addr
  granted : t.state = .node → ∀ i, t.slots i = t.addr → s i = t.addr

variable {t : Tdma}

theorem Licensed.grown (h : Licensed n s t) (valid : t.addr ≠ 0) (grown : Grown s s') :
    Licensed n s' t := by
  refine ⟨h.inside, fun node i hi => ?_⟩
  have own := h.granted node i hi
  rcases grown i with same | free
  · exact same.trans own
  · exact absurd (own.symm.trans free) valid

theorem Licensed.keep {t'} (h : Licensed n s t) (table : SameTable t t')
    (state : t'.state = .node → t.state = .node) : Licensed n s t' := by
  refine ⟨fun i pos hi => ?_, fun node i hi => ?_⟩
  · rw [table.slots, table.addr]
    exact h.inside i pos hi
  · rw [table.slots, table.addr] at hi
    rw [table.addr]
    exact h.granted (state node) i hi

theorem slots_configure_of_ne {id} (owner : UInt16) {i} (h : i ≠ id.toNat) :
    (tdmaSlotConfigure t id owner).slots i = t.slots i := by
  unfold tdmaSlotConfigure
  split
  · rfl
  · exact update_of_ne h _ _

theorem slots_scanTdma {i} (off : p.slotDescOff = 0) (pos : 0 < i)
    (hi : p.slotDescCnt.toNat ≤ i) :
    (scanTdma t p).slots i = t.slots i ∨ (scanTdma t p).slots i = 0 := by
  have table : ∀ t, (scanTable t p).slots i = t.slots i := fun t => by
    have first : (tdmaSlotConfigure t 0 t.coord).slots i = t.slots i :=
      slots_configure_of_ne _ (Nat.ne_of_gt pos)
    unfold scanTable
    split
    · next k hk =>
      have hlt : k < p.slotDescCnt.toNat := mem_range.mp (mem_of_find?_eq_some hk)
      have hcnt := p.slotDescCnt.toNat_lt
      have hid : (p.slotDescOff + UInt8.ofNat k).toNat = k := by
        rw [off, UInt8.zero_add]
        exact UInt8.toNat_ofNat_of_lt' (by simp only [UInt8.size]; omega)
      rw [slots_configure_of_ne _ (by omega), first]
    · exact first
  unfold scanTdma
  rw [table]
  split
  · exact .inl rfl
  · unfold clearSlots
    dsimp only
    split
    · exact .inr rfl
    · exact .inl rfl

theorem slots_configureOwners (off : p.slotDescOff = 0) {k} (hk : k ≤ tdmaMaxSlots)
    (i : Nat) : (configureOwners p k t).slots i =
      if i < k then maskBroadcast (p.slotDescOwn i) else t.slots i := by
  rw [tdmaMaxSlots] at hk
  induction k with
  | zero => rfl
  | succ k ih =>
    have hid : (p.slotDescOff + UInt8.ofNat k).toNat = k := by
      rw [off, UInt8.zero_add]
      exact UInt8.toNat_ofNat_of_lt' (by simp only [UInt8.size]; omega)
    rw [configureOwners, slots_configure _ (by rw [hid, tdmaMaxSlots]; omega), hid, ih (by omega)]
    by_cases last : i = k
    · rw [if_pos last, if_pos (by omega), last]
    · rw [if_neg last]
      by_cases hi : i < k
      · rw [if_pos hi, if_pos (by omega)]
      · rw [if_neg hi, if_neg (by omega)]

theorem unpackOwners_low (p : Packet) (k : Nat) {j} (hj : j < 4) :
    (unpackOwners k p).payload j = p.payload j := by
  induction k with
  | zero => rfl
  | succ k ih =>
    have low : j ≠ 4 + 2 * k := by omega
    have high : j ≠ 5 + 2 * k := by omega
    simp only [unpackOwners, Packet.setSlotDescOwn, Packet.setByte, update_of_ne low,
      update_of_ne high]
    exact ih

theorem unpackOwners_own (p : Packet) (k i : Nat) : (unpackOwners k p).slotDescOwn i =
    if i < k then packerUint16Hton (p.slotDescOwn i) else p.slotDescOwn i := by
  induction k with
  | zero => rfl
  | succ k ih =>
    rw [unpackOwners]
    by_cases last : i = k
    · subst last
      rw [if_pos (by omega), Packet.slotDescOwn_set_self, ih, if_neg (lt_irrefl _)]
    · rw [Packet.slotDescOwn_set_of_ne _ last, ih]
      by_cases hi : i < k
      · rw [if_pos hi, if_pos (by omega)]
      · rw [if_neg hi, if_neg (by omega)]

/-- A beacon that is right about the table, with its owners in host order. -/
structure Unpacked (p : Packet) (n : UInt8) (s : Nat → UInt16) : Prop where
  off : p.slotDescOff = 0
  cnt : p.slotDescCnt = 0 ∨ p.slotDescCnt = n
  own : ∀ i < p.slotDescCnt.toNat, p.slotDescOwn i = 0 ∨ p.slotDescOwn i = s i

theorem Announces.unpack {q} (h : Announces q n s) :
    Unpacked (unpackOwners q.slotDescCnt.toNat q) n s := by
  have cnt : (unpackOwners q.slotDescCnt.toNat q).slotDescCnt = q.slotDescCnt :=
    unpackOwners_low q _ (by decide)
  refine ⟨(unpackOwners_low q _ (by decide)).trans h.off, by rw [cnt]; exact h.cnt, fun i hi => ?_⟩
  rw [cnt] at hi
  rw [unpackOwners_own, if_pos hi]
  exact h.own i hi

theorem licensed_owners (valid : t.addr ≠ 0) (hn : n.toNat ≤ tdmaMaxSlots) (heard : Unpacked p n s)
    (inside : ∀ i, 0 < i → n.toNat ≤ i → t.slots i ≠ t.addr) (all : p.slotDescCnt = n)
    (some : 0 < n.toNat) : Licensed n s (configureOwners p p.slotDescCnt.toNat t) := by
  have haddr : (configureOwners p p.slotDescCnt.toNat t).addr = t.addr :=
    addr_of_retabled (retabled_configureOwners _ _ _)
  have slots := slots_configureOwners (t := t) heard.off (all ▸ hn)
  have beyond : ∀ i, n.toNat ≤ i →
      (configureOwners p p.slotDescCnt.toNat t).slots i ≠ t.addr := fun i hi => by
    rw [slots, if_neg (by rw [all]; omega)]
    exact inside i (by omega) hi
  refine ⟨fun i _ hi => haddr.symm ▸ beyond i hi, fun _ i hi => ?_⟩
  rw [haddr] at hi ⊢
  by_cases h : i < n.toNat
  · rw [slots, if_pos (by rw [all]; exact h)] at hi
    unfold maskBroadcast at hi
    split at hi
    · exact absurd hi.symm valid
    · rcases heard.own i (by rw [all]; exact h) with free | own
      · exact absurd (hi.symm.trans free) valid
      · exact own.symm.trans hi
  · exact absurd hi (beyond i (by omega))

theorem licensed_beaconSwitch (valid : t.addr ≠ 0) (hn : n.toNat ≤ tdmaMaxSlots)
    (heard : Unpacked p n s) (hL : Licensed n s t) : Licensed n s (beaconSwitch t p).1 := by
  have full : ∀ t' : Tdma, t'.addr = t.addr → t'.slots = t.slots → p.slotDescCnt ≠ 0 →
      Licensed n s (configureOwners p p.slotDescCnt.toNat t') := by
    intro t' haddr hslots hcnt
    have all : p.slotDescCnt = n := heard.cnt.resolve_left hcnt
    have pos : 0 < n.toNat := by
      rw [← all]
      exact Nat.pos_of_ne_zero fun zero => hcnt (UInt8.toNat_inj.mp zero)
    apply licensed_owners (haddr ▸ valid) hn heard _ all pos
    rw [haddr, hslots]
    exact hL.inside
  unfold beaconSwitch
  dsimp only
  split
  · split
    · next own =>
      -- A beacon that names the node is not an empty one.
      apply full { t with state := .node } rfl rfl
      intro zero
      rw [zero] at own
      cases own
    · exact hL
  · next node =>
    by_cases zero : p.slotDescCnt = 0
    · rw [zero]
      exact hL
    · exact full t rfl rfl zero
  · exact hL

def beaconEvent (d : Device) : Action → Option Packet
  | .appli _ => match d.running, d.appli with
    | none, .nodeBeacon f :: _ => some (d.heap f).pkt
    | _, _ => none
  | _ => none

theorem heardBeacon_eq (h : heardBeacon d a = some p) :
    ∃ q, beaconEvent d a = some q ∧ p = unpackOwners q.slotDescCnt.toNat q := by
  unfold heardBeacon at h
  split at h
  · next o =>
    split at h
    · next f rest idle queued =>
      dsimp only at h
      split at h
      · refine ⟨(d.heap f).pkt, ?_, (Option.some.inj h).symm⟩
        simp [beaconEvent, idle, queued]
      · cases h
    · cases h
  · cases h

theorem licensed_step (hL : Licensed n s d.tdma) (valid : d.tdma.addr ≠ 0)
    (hn : n.toNat ≤ tdmaMaxSlots) (node : ∀ cfg o, a ≠ .startCoord cfg o)
    (heard : ∀ q ∈ beaconEvent d a, Announces q n s)
    (scanned : ∀ p ∈ scannedBeacon d a, Announces p n s) (h : step d a = some d') :
    Licensed n s d'.tdma := by
  cases step_effect h with
  | quiet table times log state tick =>
    refine hL.keep table fun node => ?_
    rcases state with same | ⟨-, scan⟩ | ⟨-, assoc⟩
    · exact same.symm.trans node
    · simp [scan] at node
    · simp [assoc] at node
  | timeout table times log event state tick =>
    exact hL.keep table fun node => by simp [state] at node
  | slot due table times log state tick => exact hL.keep table fun node => state.symm.trans node
  | scan p o beacon table times log state tick old =>
    have said := scanned p beacon
    have cnt : p.slotDescCnt.toNat ≤ n.toNat := by
      rcases said.cnt with zero | all
      · rw [zero]
        exact Nat.zero_le _
      · rw [all]
    refine ⟨fun i pos hi => ?_, fun node => ?_⟩
    · rw [table.slots, table.addr, scanTdma_addr]
      rcases slots_scanTdma said.off pos (cnt.trans hi) with same | free
      · rw [same]
        exact hL.inside i pos hi
      · rw [free]
        exact valid.symm
    · rw [state] at node
      cases node
  | beacon p heard' table times log state tick =>
    obtain ⟨q, event, rfl⟩ := heardBeacon_eq heard'
    have said := (heard q event).unpack
    exact (licensed_beaconSwitch valid hn said hL).keep table fun node => state.symm.trans node
  | assoc p request table times log state tick =>
    -- A device never gives itself a slot.
    have accepted := assocRequest_accepted request
    simp only [assocAccepted, Bool.and_eq_true, bne_iff_ne] at accepted
    have other : p.src ≠ d.tdma.addr := accepted.1.1.2
    have haddr : d'.tdma.addr = d.tdma.addr :=
      table.addr.trans (addr_of_retabled (retabled_grantSlots _ _ _))
    have same : ∀ i, d'.tdma.slots i = d'.tdma.addr → d.tdma.slots i = d.tdma.addr := by
      intro i hi
      rw [table.slots, haddr] at hi
      rcases slots_grant d.tdma p.src p.assocSlots.toNat i with same | ⟨-, granted⟩
      · exact same.symm.trans hi
      · exact absurd (granted.symm.trans hi) other
    refine ⟨fun i pos hi own => hL.inside i pos hi (same i own), fun node i own => ?_⟩
    rw [haddr]
    exact hL.granted (state.symm.trans node) i (same i own)
  | start cfg o action idle result => exact absurd action (node cfg o)

structure Network (ι : Type) where
  coord : Device
  node : ι → Device

inductive NetAction (ι : Type)
  | coord (a : Action)
  | node (i : ι) (a : Action)

variable {ι : Type} [DecidableEq ι]

def netStep (N : Network ι) : NetAction ι → Option (Network ι)
  | .coord a => (step N.coord a).map fun d => { N with coord := d }
  | .node i a => (step (N.node i) a).map fun d => { N with node := update N.node i d }

/-- The slot descriptions of a beacon that the coordinator sent, at any time before. -/
def Sent (d : Device) (p : Packet) : Prop :=
  ∃ e ∈ d.ghost.txLog, e.frame = .beacon ∧ SameSlots p e.pkt

instance (d : Device) (p : Packet) : Decidable (Sent d p) := List.decidableBEx _ _

def startsCoord : Action → Bool
  | .startCoord _ _ => true
  | _ => false

/-- Beacons may be lost, delayed, reordered and received by any node any number of times,
but no node receives one that the coordinator did not send. What the coordinator receives
is arbitrary. -/
def Delivered (N : Network ι) : NetAction ι → Prop
  | .coord _ => True
  | .node i a => startsCoord a = false ∧ (∀ q ∈ beaconEvent (N.node i) a, Sent N.coord q) ∧
      ∀ p ∈ scannedBeacon (N.node i) a, Sent N.coord p

instance (N : Network ι) (a : NetAction ι) : Decidable (Delivered N a) := by
  unfold Delivered
  split <;> infer_instance

/-- No slot is a transmit slot of two connected nodes, or of one and the coordinator. -/
structure Exclusive (N : Network ι) : Prop where
  nodes : ∀ i j k, i ≠ j → (N.node i).tdma.state = .node → (N.node j).tdma.state = .node →
    (N.node i).tdma.slots k = (N.node i).tdma.addr →
      (N.node j).tdma.slots k ≠ (N.node j).tdma.addr
  coord : ∀ i k, (N.node i).tdma.state = .node →
    (N.node i).tdma.slots k = (N.node i).tdma.addr → N.coord.tdma.slots k ≠ N.coord.tdma.addr

structure Lawful (c : UInt16) (addr : ι → UInt16) (N : Network ι) : Prop where
  sound : Sound N.coord
  coord : N.coord.tdma.state = .coord
  count : N.coord.tdma.slotCount.toNat ≤ tdmaMaxSlots
  announcing : Announcing N.coord
  coordAddr : N.coord.tdma.addr = c
  addr : ∀ i, (N.node i).tdma.addr = addr i
  licensed : ∀ i, Licensed N.coord.tdma.slotCount N.coord.tdma.slots (N.node i).tdma

theorem lawful_step {c : UInt16} {addr : ι → UInt16} {N N' : Network ι} {b : NetAction ι}
    (valid : ∀ i, ValidAddr (addr i)) (hN : Lawful c addr N) (delivered : Delivered N b)
    (h : netStep N b = some N') : Lawful c addr N' := by
  cases b with
  | coord a =>
    obtain ⟨d', hstep, rfl⟩ := Option.map_eq_some_iff.mp h
    obtain ⟨eff, coord⟩ := coord_effect hN.sound hN.coord hstep
    have count := slotCount_of_effect eff
    refine ⟨sound_step hN.sound (timely_of_coordRole (.inr hN.coord)) hstep, coord, ?_,
      announcing_step hN.announcing hN.sound hN.coord hN.count hstep,
      (addr_of_step hstep).trans hN.coordAddr, hN.addr, fun i => ?_⟩
    · exact count.symm ▸ hN.count
    · rw [count]
      apply (hN.licensed i).grown _ (grown_coord eff)
      rw [hN.addr i]
      exact (valid i).1
  | node i a =>
    obtain ⟨d', hstep, rfl⟩ := Option.map_eq_some_iff.mp h
    obtain ⟨node, heard, scanned⟩ := delivered
    have said : ∀ p, Sent N.coord p →
        Announces p N.coord.tdma.slotCount N.coord.tdma.slots := by
      rintro p ⟨e, he, hb, same⟩
      exact (hN.announcing.sent e he hb).same same
    refine ⟨hN.sound, hN.coord, hN.count, hN.announcing, hN.coordAddr, fun j => ?_, fun j => ?_⟩
    · by_cases hj : j = i
      · subst hj
        dsimp only
        rw [update_self, addr_of_step hstep]
        exact hN.addr j
      · dsimp only
        rw [update_of_ne hj]
        exact hN.addr j
    · by_cases hj : j = i
      · subst hj
        dsimp only
        rw [update_self]
        refine licensed_step (hN.licensed j) ?_ hN.count (fun cfg o start => ?_)
          (fun q hq => said q (heard q hq)) (fun p hp => said p (scanned p hp)) hstep
        · rw [hN.addr j]
          exact (valid j).1
        · rw [start] at node
          cases node
      · dsimp only
        rw [update_of_ne hj]
        exact hN.licensed j

def startNetwork (r : Device) (cfg : CoordConfig) (o : Oracle) (addr : ι → UInt16) : Network ι :=
  ⟨macTdmaStartCoord r cfg o, fun i => macTdmaInit (addr i)⟩

omit [DecidableEq ι] in
theorem lawful_start {c : UInt16} {addr : ι → UInt16} {r : Device} {cfg : CoordConfig}
    (valid : ∀ i, ValidAddr (addr i)) (rest : Reach step (macTdmaInit c) r)
    (idle : r.tdma.state = .idle) (started : (macTdmaStartCoord r cfg o).tdma.state = .coord) :
    Lawful c addr (startNetwork r cfg o addr) := by
  have hr := resting_of_reach rest idle
  obtain ⟨hs, -⟩ := started_of_coord hr started
  have fresh := unprepared_start hr started
  obtain ⟨sound, coord⟩ := coord_reach hr started .start
  have count : (macTdmaStartCoord r cfg o).tdma.slotCount.toNat ≤ tdmaMaxSlots := by
    rw [hs.table.slotCount, coordTdma, slotCount_of_retabled (retabled_coordSlots _ _)]
    exact hs.count
  refine ⟨sound, coord, count, ⟨fun armed => absurd fresh.beacon armed, fun e he => ?_⟩, ?_,
    fun _ => rfl, fun i => ⟨fun k _ _ => ?_, fun node => by cases node⟩⟩
  · have none : (macTdmaStartCoord r cfg o).ghost.txLog = [] := hs.log.trans hr.log
    rw [startNetwork, none] at he
    cases he
  · have step : step r (.startCoord cfg o) = some (macTdmaStartCoord r cfg o) := rfl
    exact (addr_of_step step).trans hr.addr
  · exact (valid i).1.symm

/-- In every run of a coordinator and its nodes, transmit slots are exclusive. -/
theorem slots_exclusive {c : UInt16} {addr : ι → UInt16} {r : Device} {cfg : CoordConfig}
    {N : Network ι} (valid : ∀ i, ValidAddr (addr i)) (distinct : Injective addr)
    (other : ∀ i, addr i ≠ c) (rest : Reach step (macTdmaInit c) r) (idle : r.tdma.state = .idle)
    (started : (macTdmaStartCoord r cfg o).tdma.state = .coord)
    (run : Run netStep Delivered (startNetwork r cfg o addr) N) : Exclusive N := by
  have hN : Lawful c addr N :=
    run.invariant (Lawful c addr) (fun _ _ _ hN ok h => lawful_step valid hN ok h)
      (lawful_start valid rest idle started)
  -- What a node holds, the coordinator has under the address of that node.
  have owner : ∀ i k, (N.node i).tdma.state = .node →
      (N.node i).tdma.slots k = (N.node i).tdma.addr → N.coord.tdma.slots k = addr i := by
    intro i k node own
    exact ((hN.licensed i).granted node k own).trans (hN.addr i)
  constructor
  · intro i j k hij nodei nodej owni ownj
    have := (owner i k nodei owni).symm.trans (owner j k nodej ownj)
    exact hij (distinct this)
  · intro i k node own same
    have := (owner i k node own).symm.trans (same.trans hN.coordAddr)
    exact other i this

open TdmaPool

def sampleRequest (src : UInt16) : RxPacket where
  pkt := { (Packet.empty.setByte 0 1).headerPrepare .assoc 7 src 2 with length := 12 }
  fits := show (12 : UInt8) ≤ 127 by decide

def fullBeacon : RxPacket :=
  ⟨(sampleBeacon 3).pkt.setSlotDescOwn 3 (packerUint16Hton 4), (sampleBeacon 3).fits⟩

def frameRun (src : UInt16) : List Action :=
  handleSlotRun ++ completionRun true ++ handleSlotRun ++ handleSlotRun ++
    [.netPhy true (sampleRequest src), .netRun calm, .appli calm] ++ handleSlotRun

def associateRun (rx : RxPacket) : List Action :=
  [.startNode ⟨7, 11, 1⟩, .appli calm, .netPhy true rx, .netRun calm, .timeoutTimer, .appli calm]

def connectRun (rx : RxPacket) : List Action :=
  handleSlotRun ++ [.netPhy true rx, .netRun calm, .appli calm]

def sampleRun : List (NetAction Bool) :=
  (Action.appli calm :: frameRun 3).map .coord ++
    (associateRun (sampleBeacon 0)).map (.node false) ++
    (frameRun 4).map .coord ++ (connectRun (sampleBeacon 3)).map (.node false) ++
    (associateRun (sampleBeacon 3)).map (.node true) ++
    (completionRun false ++ handleSlotRun).map .coord ++ (connectRun fullBeacon).map (.node true)

def sampleAddr (i : Bool) : UInt16 := if i then 4 else 3

theorem slots_exclusive_two_nodes :
    ∃ N, Run netStep Delivered (startNetwork (macTdmaInit 2) sampleCoord calm sampleAddr) N ∧
      (∀ i, (N.node i).tdma.state = .node) ∧ (N.node false).tdma.slots 1 = 3 ∧
      (N.node true).tdma.slots 3 = 4 ∧ Exclusive N := by
  obtain ⟨N, run, h⟩ :
      ∃ N, Run netStep Delivered (startNetwork (macTdmaInit 2) sampleCoord calm sampleAddr) N ∧
        _ = _ := by
    refine execIf_observe sampleRun (fun N => ((N.node false).tdma.state, (N.node true).tdma.state,
      (N.node false).tdma.slots 1, (N.node true).tdma.slots 3)) (.node, .node, 3, 4) ?_
    decide +kernel
  simp only [Prod.mk.injEq] at h
  refine ⟨N, run, ?_, h.2.2.1, h.2.2.2, ?_⟩
  · intro i
    cases i with
    | false => exact h.1
    | true => exact h.2.1
  · apply slots_exclusive _ _ _ .start rfl (by decide +kernel) run
    · exact fun i => show _ ∧ _ by revert i; decide
    · decide
    · decide

end TdmaNetwork
