import OpenLab.TdmaScan

/-!
# Runs of a coordinator

A coordinator stays one, and every run of it is timely. Its beacons mark the start of a slots-
frame exactly if the table gives it slot 0 alone.
-/

namespace TdmaCoordinator

open Schedules TdmaTypes TdmaCore TdmaHandlers TdmaDevice TdmaTable TdmaControl TdmaSteps List
open TdmaEffects TdmaSlots TdmaScan TdmaLedger

variable {d d' : Device} {a : Action} {addr : UInt16}

def CoordRole (s : TdmaState) : Prop := s = .idle ∨ s = .coord

theorem coordRole_of_step (h : step d a = some d') (role : CoordRole d'.tdma.state) :
    CoordRole d.tdma.state := by
  cases step_effect h with
  | quiet table times log state tick =>
    rcases state with same | ⟨-, scan⟩ | ⟨-, assoc⟩
    · exact same ▸ role
    · simp [CoordRole, scan] at role
    · simp [CoordRole, assoc] at role
  | timeout table times log event state tick | scan p o beacon table times log state tick old =>
    simp [CoordRole, state] at role
  | slot due table times log state tick | assoc p request table times log state tick =>
    exact state ▸ role
  | beacon p heard table times log state tick =>
    rw [state] at role
    rcases beaconSwitch_state d.tdma p with same | ⟨-, node⟩
    · exact same ▸ role
    · simp [CoordRole, node] at role
  | start cfg o action idle result => exact .inl idle

theorem timely_of_coordRole (role : CoordRole d.tdma.state) : Timely d a := by
  have noScan : d.tdma.state ≠ .scan := by
    rcases role with h | h <;> simp [h]
  cases a with
  | appli o => exact fun _ _ => noScan
  | netRun o =>
    intro call _
    cases call with
    | slot => exact fun scan => absurd scan noScan
    | done op ok => exact fun _ scan => absurd scan noScan
  | _ => trivial

theorem sound_of_coordRole (run : Reach step (macTdmaInit addr) d)
    (role : CoordRole d.tdma.state) : Sound d := by
  refine run.invariant (fun d => CoordRole d.tdma.state → Sound d) ?_
    (fun _ => sound_init addr) role
  intro t a u known _ h role
  have before := coordRole_of_step h role
  exact sound_step (known before) (timely_of_coordRole before) h

inductive CoordEffect (d : Device) (a : Action) (d' : Device) : Prop
  | quiet (table : SameTable d.tdma d'.tdma) (times : SameTimes d.sf d'.sf)
      (log : d'.ghost.txLog = d.ghost.txLog)
  | slot (table : SameTable d.tdma d'.tdma) (times : SameTimes (slotAdvance d.tdma d.sf) d'.sf)
      (log : d'.ghost.txLog = d.ghost.txLog ∨ ∃ e : TxStart,
        d'.ghost.txLog = d.ghost.txLog ++ [e] ∧ e.slot = d.sf.nextIndex ∧
          e.slotTime = d.sf.slotTime ∧ d.tdma.slots d.sf.nextIndex.toNat = d.tdma.addr)
  | assoc (p : Packet) (request : assocRequest d a = some p)
      (table : SameTable (grantSlots d.tdma p.src p.assocSlots.toNat) d'.tdma)
      (times : SameTimes d.sf d'.sf) (log : d'.ghost.txLog = d.ghost.txLog)

theorem coord_handlers (hd : Sound d) (coord : d.tdma.state = .coord) :
    d.tdma.rxHandler = .coordRx ∧ ∀ e ∈ d.appli, EventFits .coord e := by
  obtain ⟨_, _, L, hK, -⟩ := hd
  have handlers : Handlers d.tdma.state d.tdma.rxHandler d.tdma.txHandler := hK.control.handlers
  have events : ∀ e ∈ d.appli, EventFits d.tdma.state e := hK.control.events
  rw [coord] at handlers events
  exact ⟨handlers.1, events⟩

theorem scannedBeacon_handler {p} (h : scannedBeacon d a = some p) :
    d.tdma.rxHandler = .scan := by
  unfold scannedBeacon at h
  split at h
  · split at h
    · assumption
    · assumption
    · cases h
  · cases h

theorem heardBeacon_event {p} (h : heardBeacon d a = some p) :
    ∃ f, AppliEvent.nodeBeacon f ∈ d.appli := by
  unfold heardBeacon at h
  split at h
  · split at h
    · next f _ _ queued => exact ⟨f, queued ▸ mem_cons_self⟩
    · cases h
  · cases h

theorem coord_effect (hd : Sound d) (coord : d.tdma.state = .coord) (h : step d a = some d') :
    CoordEffect d a d' ∧ d'.tdma.state = .coord := by
  obtain ⟨rx, events⟩ := coord_handlers hd coord
  cases step_effect h with
  | quiet table times log state tick =>
    refine ⟨.quiet table times log, ?_⟩
    rcases state with same | ⟨idle, -⟩ | ⟨wait, -⟩
    · exact same.trans coord
    · simp [coord] at idle
    · simp [coord] at wait
  | timeout table times log event state tick => cases events _ event
  | slot due table times log state tick => exact ⟨.slot table times log, state.trans coord⟩
  | scan p o beacon table times log state tick old =>
    have := scannedBeacon_handler beacon
    simp [rx] at this
  | beacon p heard table times log state tick =>
    obtain ⟨f, hf⟩ := heardBeacon_event heard
    cases events _ hf
  | assoc p request table times log state tick =>
    exact ⟨.assoc p request table times log, state.trans coord⟩
  | start cfg o action idle result => simp [coord] at idle

theorem addr_of_step (h : step d a = some d') : d'.tdma.addr = d.tdma.addr := by
  cases step_effect h with
  | quiet table times log state tick | timeout table times log event state tick
  | slot due table times log state tick => exact table.addr
  | scan p o beacon table times log state tick old => exact table.addr.trans (scanTdma_addr _ p)
  | beacon p heard table times log state tick => exact table.addr.trans (beaconSwitch_addr _ p)
  | assoc p request table times log state tick =>
    exact table.addr.trans (addr_of_retabled (retabled_grantSlots _ _ _))
  | start cfg o action idle result =>
    subst result
    rcases startCoord_effect cfg o idle with ⟨-, refused⟩ | hs
    · rw [refused]
      rfl
    · exact hs.table.addr.trans ((addr_of_retabled (retabled_coordSlots _ _)).trans rfl)

structure Resting (addr : UInt16) (d : Device) : Prop where
  sound : Sound d
  idle : d.tdma.state = .idle
  addr : d.tdma.addr = addr
  log : d.ghost.txLog = []

theorem Resting.quiet (hr : Resting addr d) :
    d.slotEvents = 0 ∧ d.net = none ∧ d.running = none ∧ d.appli = [] := by
  obtain ⟨_, _, L, hK, -⟩ := hr.sound
  obtain ⟨-, events, net, running⟩ := hK.control.idle hr.idle
  have fits : ∀ e ∈ d.appli, EventFits d.tdma.state e := hK.control.events
  rw [hr.idle] at fits
  refine ⟨events, net, running, eq_nil_iff_forall_not_mem.mpr fun e he => ?_⟩
  have := fits e he
  cases e <;> simp [EventFits, nodeRole] at this

theorem idle_log (sound : Sound d) (idle : d.tdma.state = .idle) (h : step d a = some d') :
    d'.ghost.txLog = d.ghost.txLog := by
  cases step_effect h with
  | slot due table times log state tick =>
    obtain ⟨_, _, L, hK, -⟩ := sound
    obtain ⟨timer, events, net, -⟩ := hK.control.idle idle
    have timer : d.slotTimer = false := timer
    have events : d.slotEvents = 0 := events
    have net : d.net = none := net
    simp [Ticking, timer, events, net] at due
  | quiet table times log state tick | timeout table times log event state tick
  | scan p o beacon table times log state tick old | beacon p heard table times log state tick
  | assoc p request table times log state tick => exact log
  | start cfg o action idle result =>
    subst result
    rcases startCoord_effect cfg o idle with ⟨-, refused⟩ | hs
    · rw [refused]
    · exact hs.log

theorem resting_of_reach (run : Reach step (macTdmaInit addr) d) (idle : d.tdma.state = .idle) :
    Resting addr d := by
  have haddr : d.tdma.addr = addr :=
    run.invariant (fun d => d.tdma.addr = addr) (fun t a u ht _ h => (addr_of_step h).trans ht) rfl
  have hlog : d.tdma.state = .idle → d.ghost.txLog = [] := by
    refine run.invariant_of (fun d => CoordRole d.tdma.state → Sound d)
      (fun d => d.tdma.state = .idle → d.ghost.txLog = [])
      (fun t ht role => sound_of_coordRole ht role) ?_ (fun _ => rfl)
    intro t a u sound known _ h hu
    have role := coordRole_of_step h (.inl hu)
    rcases role with ht | ht
    · exact (idle_log (sound (.inl ht)) ht h).trans (known ht)
    · have := (coord_effect (sound (.inr ht)) ht h).2
      rw [hu] at this
      cases this
  exact ⟨sound_of_coordRole run (.inl idle), idle, haddr, hlog idle⟩

variable {r : Device} {cfg : CoordConfig} {o : Oracle}

theorem coord_reach (hr : Resting addr r)
    (started : (macTdmaStartCoord r cfg o).tdma.state = .coord)
    (run : Reach step (macTdmaStartCoord r cfg o) d) : Sound d ∧ d.tdma.state = .coord := by
  have first : Sound (macTdmaStartCoord r cfg o) :=
    sound_step hr.sound (timely_of_coordRole (.inl hr.idle)) (a := .startCoord cfg o) rfl
  refine run.invariant (fun d => Sound d ∧ d.tdma.state = .coord) ?_ ⟨first, started⟩
  rintro t a u ⟨sound, coord⟩ - h
  exact ⟨sound_step sound (timely_of_coordRole (.inr coord)) h, (coord_effect sound coord h).2⟩

theorem slots_static {owners} {t} (k : Nat)
    (hk : k + 1 ≤ t.slotCount.toNat) (hmax : t.slotCount.toNat ≤ tdmaMaxSlots) (i : Nat) :
    (configureStatic owners k t).slots i = if 0 < i ∧ i ≤ k then owners i else t.slots i := by
  induction k with
  | zero => rw [configureStatic, if_neg (by omega)]
  | succ k ih =>
    have hid : (UInt8.ofNat (k + 1)).toNat = k + 1 := by
      have := t.slotCount.toNat_lt
      exact UInt8.toNat_ofNat_of_lt' (by simp only [UInt8.size]; omega)
    rw [configureStatic, slots_configure _ (by omega), hid, ih (by omega)]
    by_cases hi : i = k + 1
    · rw [if_pos hi, if_pos (by omega), hi]
    · rw [if_neg hi]
      by_cases hin : 0 < i ∧ i ≤ k
      · rw [if_pos hin, if_pos (by omega)]
      · rw [if_neg hin, if_neg (by omega)]

/-- The configuration gives the coordinator no slot but slot 0. -/
def OwnsOnlySlotZero (cfg : CoordConfig) (addr : UInt16) : Prop :=
  match cfg.slotsframe with
  | none => True
  | some owners => ∀ i, 0 < i → i < cfg.slotCount.toNat → owners i ≠ addr

theorem coordTdma_slots {t} (ok : (coordTdma t cfg).1 = true)
    (hmax : cfg.slotCount.toNat ≤ tdmaMaxSlots) {i} (pos : 0 < i)
    (hi : i < cfg.slotCount.toNat) : (coordTdma t cfg).2.slots i = match cfg.slotsframe with
      | none => if i = cfg.slotCount.toNat / 2 then 0xffff else 0
      | some owners => owners i := by
  have cleared : (clearSlots (registerCoord t cfg)).slots i = 0 := if_pos hi
  have hcount : (clearSlots (registerCoord t cfg)).slotCount = cfg.slotCount := rfl
  unfold coordTdma coordSlots at ok ⊢
  generalize clearSlots (registerCoord t cfg) = c at *
  have zero : (tdmaSlotConfigure c 0 c.addr).slots i = 0 := by
    rw [slots_configure c.addr (by decide), if_neg (by simp; omega), cleared]
  have count := (slotCount_configure c 0 c.addr).trans hcount
  cases hsf : cfg.slotsframe with
  | none =>
    have half : (cfg.slotCount / 2).toNat = cfg.slotCount.toNat / 2 := UInt8.toNat_div _ _
    dsimp only
    rw [count, slots_configure _ (by omega), half, zero]
  | some owners =>
    rw [hsf] at ok
    dsimp only at ok ⊢
    split at ok
    · cases ok
    · next own =>
      rw [if_neg own, slots_static _ (by rw [count]; omega) (by rw [count]; exact hmax), count,
        if_pos (by omega)]

/-- The next slot of a coordinator that owns nothing but slot 0. -/
structure Aligned (d : Device) : Prop where
  own : ∀ i, 0 < i → i < d.tdma.slotCount.toNat → d.tdma.slots i ≠ d.tdma.addr
  index : d.sf.nextIndex = 0 ∨ d.sf.nextIndex.toNat < d.tdma.slotCount.toNat
  time : d.sf.slotTime = slotOffset d.tdma d.sf.nextIndex + d.sf.frameStart

theorem slotOffset_congr {t t'} (h : t'.slotDuration = t.slotDuration) (index : UInt8) :
    slotOffset t' index = slotOffset t index := by
  rw [slotOffset, h, slotOffset]

theorem slotOffset_zero (t : Tdma) : slotOffset t 0 = 0 :=
  (slotOffset_eq_zero_iff t 0).mpr (.inr rfl)

theorem slotAdvance_time (t : Tdma) (sf : SlotsFrame) :
    (slotAdvance t sf).slotTime =
      slotOffset t (slotAdvance t sf).nextIndex + (slotAdvance t sf).frameStart := by
  unfold slotAdvance
  split <;> rfl

theorem slotAdvance_inside (t : Tdma) (sf : SlotsFrame) :
    (slotAdvance t sf).nextIndex = 0 ∨
      (slotAdvance t sf).nextIndex.toNat < t.slotCount.toNat := by
  have hindex := slotAdvance_index t sf
  by_cases last : t.slotCount.toNat ≤ 1 + sf.nextIndex.toNat
  · rw [if_pos last] at hindex
    exact .inl (UInt8.toNat_inj.mp hindex)
  · rw [if_neg last] at hindex
    exact .inr (by omega)

theorem aligned_step (hA : Aligned d) (eff : CoordEffect d a d') : Aligned d' := by
  cases eff with
  | quiet table times log =>
    refine ⟨?_, ?_, ?_⟩
    · rw [table.slotCount, table.slots, table.addr]
      exact hA.own
    · rw [times.nextIndex, table.slotCount]
      exact hA.index
    · rw [times.slotTime, times.nextIndex, times.frameStart, slotOffset_congr table.slotDuration]
      exact hA.time
  | slot table times log =>
    refine ⟨?_, ?_, ?_⟩
    · rw [table.slotCount, table.slots, table.addr]
      exact hA.own
    · rw [times.nextIndex, table.slotCount]
      exact slotAdvance_inside _ _
    · rw [times.slotTime, times.nextIndex, times.frameStart, slotOffset_congr table.slotDuration]
      exact slotAdvance_time _ _
  | assoc p request table times log =>
    obtain ⟨n, s, hgrant⟩ := retabled_grantSlots d.tdma p.src p.assocSlots.toNat
    have haddr : d'.tdma.addr = d.tdma.addr := by rw [table.addr, hgrant]
    have hcount : d'.tdma.slotCount = d.tdma.slotCount := by rw [table.slotCount, hgrant]
    have hduration : d'.tdma.slotDuration = d.tdma.slotDuration := by
      rw [table.slotDuration, hgrant]
    refine ⟨fun i pos hi own => ?_, ?_, ?_⟩
    · rw [hcount] at hi
      rw [table.slots, haddr] at own
      rcases slots_grant d.tdma p.src p.assocSlots.toNat i with same | ⟨-, granted⟩
      · exact hA.own i pos hi (same ▸ own)
      · have accepted := assocRequest_accepted request
        simp only [assocAccepted, Bool.and_eq_true, bne_iff_ne] at accepted
        exact accepted.1.1.2 (granted.symm.trans own)
    · rw [times.nextIndex, hcount]
      exact hA.index
    · rw [times.slotTime, times.nextIndex, times.frameStart, slotOffset_congr hduration]
      exact hA.time

/-- Every beacon goes out in slot 0, at the start of the slots-frame in progress. -/
def BeaconsInSlotZero (start : Device) : Prop :=
  ∀ d a d' e, Reach step start d → step d a = some d' →
    d'.ghost.txLog = d.ghost.txLog ++ [e] → e.frame = .beacon →
      e.slot = 0 ∧ e.slotTime = d.sf.frameStart

theorem started_of_coord (hr : Resting addr r)
    (started : (macTdmaStartCoord r cfg o).tdma.state = .coord) :
    Started r cfg o (macTdmaStartCoord r cfg o) ∧
      (coordTdma r.tdma cfg).1 = true := by
  rcases startCoord_effect cfg o hr.idle with ⟨-, refused⟩ | hs
  · rw [refused] at started
    exact absurd (hr.idle.symm.trans started) (by simp)
  · refine ⟨hs, ?_⟩
    by_contra hfalse
    rw [hs.state, if_neg hfalse] at started
    cases started

section

variable (valid : ValidAddr addr) (hr : Resting addr r)
  (started : (macTdmaStartCoord r cfg o).tdma.state = .coord) (owns : OwnsOnlySlotZero cfg addr)

include valid hr started owns

theorem aligned_start : Aligned (macTdmaStartCoord r cfg o) := by
  obtain ⟨hs, ok⟩ := started_of_coord hr started
  obtain ⟨n, s, htab⟩ := retabled_coordSlots
    (clearSlots (registerCoord r.tdma cfg)) cfg.slotsframe
  have haddr : (coordTdma r.tdma cfg).2.addr = addr := by
    rw [coordTdma, htab]
    exact hr.addr
  have hcount : (coordTdma r.tdma cfg).2.slotCount = cfg.slotCount := by
    rw [coordTdma, htab]
    rfl
  refine ⟨fun i pos hi own => ?_, .inl ?_, ?_⟩
  · rw [hs.table.slotCount, hcount] at hi
    rw [hs.table.slots, hs.table.addr, haddr, coordTdma_slots ok hs.count pos hi] at own
    unfold OwnsOnlySlotZero at owns
    split at own
    · split at own
      · exact valid.2 own.symm
      · exact valid.1 own.symm
    · next owners hsf =>
      rw [hsf] at owns
      exact owns i pos hi own
  · rw [hs.times.nextIndex]
    rfl
  · rw [hs.times.slotTime, hs.times.nextIndex, hs.times.frameStart]
    have zero : (slotStartTimes (registerCoord r.tdma cfg) 0 o).nextIndex = 0 := rfl
    rw [zero, slotOffset_zero, UInt32.zero_add]
    rfl

theorem beaconsInSlotZero_of_owns : BeaconsInSlotZero (macTdmaStartCoord r cfg o) := by
  intro d a d' e run h hlog _
  have aligned : Aligned d := by
    refine run.invariant_of (fun d => Sound d ∧ d.tdma.state = .coord) Aligned
      (fun t ht => coord_reach hr started ht) ?_ (aligned_start valid hr started owns)
    rintro t a u ⟨sound, coord⟩ hA - hstep
    exact aligned_step hA (coord_effect sound coord hstep).1
  obtain ⟨sound, coord⟩ := coord_reach hr started run
  have added : ∀ l : List TxStart, l = d.ghost.txLog → d'.ghost.txLog ≠ l := by
    rintro l rfl same
    have := congrArg length (same.symm.trans hlog)
    simp at this
  cases (coord_effect sound coord h).1 with
  | quiet table times log | assoc p request table times log => exact absurd log (added _ rfl)
  | slot table times log =>
    rcases log with log | ⟨e', log, hslot, htime, own⟩
    · exact absurd log (added _ rfl)
    · obtain rfl : e = e' := by simpa using hlog.symm.trans log
      have zero : d.sf.nextIndex = 0 := by
        rcases aligned.index with zero | inside
        · exact zero
        · by_contra hne
          have pos : 0 < d.sf.nextIndex.toNat :=
            Nat.pos_of_ne_zero fun h => hne (UInt8.toNat_inj.mp h)
          exact aligned.own _ pos inside own
      refine ⟨hslot.trans zero, ?_⟩
      rw [htime, aligned.time, zero, slotOffset_zero, UInt32.zero_add]

end

/-- No packet arrives. Until `beacon_tick` is dispatched a coordinator has nothing to send:
dispatched just before a slot of its own other than slot 0, it sends the beacon there. -/
def silent : Oracle := ⟨false, 0, 0, true⟩

structure Unused (d d' : Device) : Prop where
  frame : d'.sf.frame = none
  tdma : d'.tdma = d.tdma
  appli : d'.appli = d.appli
  running : d'.running = d.running
  beacon : (d'.heap .beacon).status = (d.heap .beacon).status

theorem slotRx_beacon (o : Oracle) (hp : d.frames ≠ some .beacon) :
    (slotRx d o).heap .beacon = d.heap .beacon := by
  unfold slotRx
  split
  · next d' h =>
    obtain rfl := tdmaFrameAlloc_none h
    rfl
  · next f d' h =>
    obtain ⟨hf, rfl⟩ := tdmaFrameAlloc_some h
    have hne : FrameId.beacon ≠ f := by
      rintro rfl
      exact hp hf
    dsimp only
    split
    · simp [Device.setStatus, Device.framePrepare, Device.update, Function.update_of_ne hne]
    · simp [tdmaFrameFree, Device.setNext, Device.setStatus, Device.framePrepare, Device.update,
        Function.update_of_ne hne]

theorem unused_slotRx (hp : d.frames ≠ some .beacon) : Unused d (slotRx d silent) := by
  have beacon := congrArg Frame.status (slotRx_beacon silent hp)
  unfold slotRx at beacon ⊢
  split
  · next d' h =>
    obtain rfl := tdmaFrameAlloc_none h
    exact ⟨rfl, rfl, rfl, rfl, rfl⟩
  · next f d' h =>
    rw [h] at beacon
    obtain ⟨-, rfl⟩ := tdmaFrameAlloc_some h
    exact ⟨rfl, rfl, rfl, rfl, beacon⟩

theorem unused_handleSlot (hp : d.frames ≠ some .beacon) (frame : d.sf.frame = none)
    (beacon : d.tdma.beaconFrame = none) (queue : d.tdma.txFrames = none) :
    Unused d (handleSlot d silent) := by
  have hframe : (slotAdvance d.tdma d.sf).frame = none := (slotAdvance_frame _ _).trans frame
  unfold handleSlot
  dsimp only
  rw [hframe, if_neg (by simp)]
  split
  · exact ⟨hframe, rfl, rfl, rfl, rfl⟩
  · split
    · unfold slotTx slotTxPick
      simp only [beacon, queue]
      exact ⟨hframe, rfl, rfl, rfl, rfl⟩
    · have h := unused_slotRx (d := { d with sf := slotAdvance d.tdma d.sf, slotTimer := true }) hp
      exact { h with }

def atSlot (d : Device) : Device := { d with slotTimer := false, slotEvents := 0, net := none }

theorem reach_netSlot (timer : d.slotTimer = true) (events : d.slotEvents = 0)
    (net : d.net = none) : Reach step d { atSlot d with net := some .slot } := by
  have expired : step d .slotTimer = some { d with slotTimer := false, slotEvents := 1 } := by
    simp [step, timer, events]
  have entered : step { d with slotTimer := false, slotEvents := 1 } .netSlot =
      some { atSlot d with net := some .slot } := by
    simp [step, net, atSlot]
  exact .next _ (.next _ .start trivial expired) trivial entered

structure Unprepared (start d : Device) (j : Nat) : Prop where
  reach : Reach step start d
  table : SameTable start.tdma d.tdma
  index : d.sf.nextIndex.toNat = j
  frame : d.sf.frame = none
  beacon : d.tdma.beaconFrame = none
  queue : d.tdma.txFrames = none
  timer : d.slotTimer = true
  events : d.slotEvents = 0
  net : d.net = none
  appli : d.appli = [.beaconTick]
  running : d.running = none
  status : (d.heap .beacon).status = .idle

theorem frames_ne_beacon (hd : Sound d) : d.frames ≠ some .beacon := by
  intro h
  obtain ⟨_, _, L, hK, -⟩ := hd
  have head : (holdings d).frames = L.free.head? := hK.books.free.head_eq
  have mem : FrameId.beacon ∈ L.free := mem_of_head? (head.symm.trans h)
  cases hK.books.freePool _ mem

variable {start : Device}

theorem unprepared_next {j} (hU : Unprepared start d j) (sound : Sound d)
    (hj : j + 1 < start.tdma.slotCount.toNat) : ∃ d', Unprepared start d' (j + 1) := by
  have run := reach_netSlot hU.timer hU.events hU.net
  have hstep : step { atSlot d with net := some .slot } (.netRun silent) =
      some (handleSlot (atSlot d) silent) := rfl
  have hunused := unused_handleSlot (d := atSlot d)
    (show d.frames ≠ some .beacon from frames_ne_beacon sound) hU.frame hU.beacon hU.queue
  obtain ⟨times, timer, events, net⟩ :
      SameTimes (slotAdvance d.tdma d.sf) (handleSlot (atSlot d) silent).sf ∧
        (handleSlot (atSlot d) silent).slotTimer = true ∧
        (handleSlot (atSlot d) silent).slotEvents = 0 ∧
        (handleSlot (atSlot d) silent).net = none := by
    rcases handleSlot_effect (atSlot d) silent with h | ⟨e, -, -, -, h⟩ <;>
      exact ⟨h.times, h.timer, h.events, h.net⟩
  refine ⟨handleSlot (atSlot d) silent, (hU.reach.trans run).next _ trivial hstep,
    hunused.tdma ▸ hU.table, ?_, hunused.frame, hunused.tdma ▸ hU.beacon,
    hunused.tdma ▸ hU.queue, timer, events, net, hunused.appli.trans hU.appli,
    hunused.running.trans hU.running, hunused.beacon.trans hU.status⟩
  rw [times.nextIndex, slotAdvance_index, hU.table.slotCount, hU.index, if_neg (by omega)]

theorem unprepared_reaches {j} (hU : Unprepared start d 0)
    (sound : ∀ d, Reach step start d → Sound d) (hj : j < start.tdma.slotCount.toNat) :
    ∃ d', Unprepared start d' j := by
  induction j with
  | zero => exact ⟨d, hU⟩
  | succ j ih =>
    obtain ⟨d', hd'⟩ := ih (by omega)
    exact unprepared_next hd' (sound d' hd'.reach) hj

theorem slotTxStart_log (d : Device) (f : FrameId) (slot : UInt8) (time : UInt32) (o : Oracle) :
    ∃ e : TxStart, e.frame = f ∧ e.slot = slot ∧ e.pkt = (d.heap f).pkt ∧
      e.prepared = d.ghost.prepared ∧
      (slotTxStart d f slot time o).ghost.txLog = d.ghost.txLog ++ [e] := by
  let D := { d with sf := { d.sf with frame := some f } }.setNext f none
  have hpkt : (D.heap f).pkt = (d.heap f).pkt := update_proj Frame.pkt (by rfl)
  refine ⟨txEntry D f slot time o, rfl, rfl, hpkt, rfl, ?_⟩
  unfold slotTxStart phyTx
  dsimp only
  split
  · rfl
  · exact (steady_txHandler _ _).log

theorem unprepared_sends {j} (hU : Unprepared start d j)
    (own : start.tdma.slots j = start.tdma.addr) (nonzero : start.tdma.addr ≠ 0) :
    ∃ t u e, Reach step start t ∧ step t (.netRun silent) = some u ∧
      u.ghost.txLog = t.ghost.txLog ++ [e] ∧ e.frame = .beacon ∧ e.slot.toNat = j := by
  have prepared : step d (.appli silent) = some (beaconPrepare { d with appli := [] }) := by
    simp [step, hU.running, hU.appli, appliHandler, beaconTick, hU.status]
  have run := (hU.reach.next _ trivial prepared).trans
    (reach_netSlot (d := beaconPrepare { d with appli := [] }) hU.timer hU.events hU.net)
  let D := atSlot (beaconPrepare { d with appli := [] })
  have hframe : (slotAdvance D.tdma D.sf).frame = none := (slotAdvance_frame _ _).trans hU.frame
  have howner : D.tdma.slots D.sf.nextIndex.toNat = D.tdma.addr := by
    have : d.tdma.slots d.sf.nextIndex.toNat = d.tdma.addr := by
      rw [hU.table.slots, hU.index, hU.table.addr, own]
    exact this
  have hnonzero : D.tdma.slots D.sf.nextIndex.toNat ≠ 0 := by
    rw [howner]
    exact hU.table.addr.symm ▸ nonzero
  have hqueue : D.tdma.txFrames = none := hU.queue
  have hbeacon : D.tdma.beaconFrame = some .beacon := rfl
  obtain ⟨e, hf, hslot, -, -, hlog⟩ := slotTxStart_log { D with
      sf := { slotAdvance D.tdma D.sf with beaconBackoff := tdmaBeaconBackoffCount + 1 }
      slotTimer := true
      tdma := { D.tdma with beaconFrame := none } } .beacon D.sf.nextIndex D.sf.slotTime silent
  refine ⟨_, handleSlot D silent, e, run, rfl, ?_, hf, ?_⟩
  · refine Eq.trans ?_ hlog
    unfold handleSlot slotTx slotTxPick
    simp [hframe, howner, hqueue, hbeacon, if_neg (howner ▸ hnonzero)]
  · rw [hslot]
    exact hU.index

/-- The device with which `mac_tdma_start_coord` goes on once the slots-frame runs. -/
def slotsStarted (r : Device) (cfg : CoordConfig) (o : Oracle) : Device :=
  (tdmaSlotStart { r with tdma := registerCoord r.tdma cfg } 0 o).2

theorem startCoord_eq (hr : Resting addr r)
    (started : (macTdmaStartCoord r cfg o).tdma.state = .coord) : macTdmaStartCoord r cfg o =
      { (initBeacon (slotsStarted r cfg o)).eventPost .beaconTick with
        slotsframeIsStatic := cfg.slotsframe.isSome
        beaconTimer := true
        tdma := { (coordTdma r.tdma cfg).2 with
          txFrames := none, beaconFrame := none, state := .coord } } := by
  obtain ⟨hs, ok⟩ := started_of_coord hr started
  have fits : ¬tdmaMaxSlots < (registerCoord r.tdma cfg).slotCount.toNat :=
    Nat.not_lt.mpr hs.count
  have idle : ¬r.tdma.state ≠ .idle := not_not.mpr hr.idle
  have accepted : (coordSlots (initBeacon (slotsStarted r cfg o)).tdma cfg.slotsframe) =
      coordTdma r.tdma cfg := by
    rw [slotsStarted, tdmaSlotStart, if_neg fits]
    rfl
  have setup : macTdmaStartCoord r cfg o =
      coordSetup (slotsStarted r cfg o) cfg.slotsframe := by
    rw [macTdmaStartCoord, if_neg idle, slotsStarted, tdmaSlotStart, if_neg fits]
  rw [setup, coordSetup]
  rw [accepted, if_pos ok]
  rfl

theorem unprepared_start (hr : Resting addr r)
    (started : (macTdmaStartCoord r cfg o).tdma.state = .coord) :
    Unprepared (macTdmaStartCoord r cfg o)
      (macTdmaStartCoord r cfg o) 0 := by
  obtain ⟨hs, ok⟩ := started_of_coord hr started
  have heq := startCoord_eq hr started
  generalize macTdmaStartCoord r cfg o = d at hs heq
  obtain ⟨events, net, running, appli⟩ := hr.quiet
  have fits : ¬tdmaMaxSlots < (registerCoord r.tdma cfg).slotCount.toNat :=
    Nat.not_lt.mpr hs.count
  have frame : (slotsStarted r cfg o).sf.frame = none := by
    rw [slotsStarted, tdmaSlotStart, if_neg fits]
    rfl
  have happli : (slotsStarted r cfg o).appli = [] := by
    rw [slotsStarted, tdmaSlotStart, if_neg fits]
    exact appli
  have hrunning : (slotsStarted r cfg o).running = none := by
    rw [slotsStarted, tdmaSlotStart, if_neg fits]
    exact running
  refine ⟨.start, .refl _, ?_, ?_, ?_, ?_, hs.timer.trans ok, hs.events.trans events,
    hs.net.trans net, ?_, ?_, ?_⟩
  · rw [hs.times.nextIndex]
    rfl
  · rw [heq]
    exact frame
  · rw [heq]
  · rw [heq]
  · rw [heq]
    exact congrArg (· ++ [AppliEvent.beaconTick]) happli
  · rw [heq]
    exact hrunning
  · rw [heq]
    simp [initBeacon, Device.eventPost, Device.setPkt, Device.framePrepare, Device.update]

/-- A coordinator sends its beacons at the start of its slots-frames exactly if its
configuration gives it no slot but slot 0. -/
theorem beacons_in_slot_zero_iff {cfg : CoordConfig} {o : Oracle} (valid : ValidAddr addr)
    (run : Reach step (macTdmaInit addr) r) (idle : r.tdma.state = .idle)
    (started : (macTdmaStartCoord r cfg o).tdma.state = .coord) :
    BeaconsInSlotZero (macTdmaStartCoord r cfg o) ↔
      OwnsOnlySlotZero cfg addr := by
  have hr := resting_of_reach run idle
  refine ⟨fun zero => ?_, beaconsInSlotZero_of_owns valid hr started⟩
  obtain ⟨hs, ok⟩ := started_of_coord hr started
  have haddr : (macTdmaStartCoord r cfg o).tdma.addr = addr := by
    rw [hs.table.addr]
    exact (addr_of_retabled (retabled_coordSlots _ _)).trans hr.addr
  have hcount : (macTdmaStartCoord r cfg o).tdma.slotCount = cfg.slotCount := by
    rw [hs.table.slotCount]
    exact slotCount_of_retabled (retabled_coordSlots _ _)
  unfold OwnsOnlySlotZero
  cases hsf : cfg.slotsframe with
  | none => trivial
  | some owners =>
    intro i pos hi own
    have slots := coordTdma_slots ok hs.count pos hi
    rw [hsf] at slots
    have own' : (macTdmaStartCoord r cfg o).tdma.slots i =
        (macTdmaStartCoord r cfg o).tdma.addr := by
      rw [hs.table.slots, slots, haddr]
      exact own
    obtain ⟨d, hd⟩ := unprepared_reaches (unprepared_start hr started)
      (fun d run => (coord_reach hr started run).1) (hcount.symm ▸ hi)
    obtain ⟨t, u, e, run, hstep, hlog, hbeacon, hslot⟩ :=
      unprepared_sends hd own' (haddr.symm ▸ valid.1)
    have := (zero t _ u e run hstep hlog hbeacon).1
    rw [this] at hslot
    exact absurd hslot.symm (Nat.ne_of_gt pos)

def sampleCoord : CoordConfig := ⟨7, 100, 4, 11, none⟩

theorem beacons_in_slot_zero_dynamic :
    (macTdmaStartCoord (macTdmaInit 2) sampleCoord silent).tdma.state = .coord ∧
      BeaconsInSlotZero (macTdmaStartCoord (macTdmaInit 2) sampleCoord silent) := by
  have started : (macTdmaStartCoord (macTdmaInit 2) sampleCoord silent).tdma.state = .coord := by
    decide +kernel
  exact ⟨started, (beacons_in_slot_zero_iff ⟨by decide, by decide⟩ .start rfl started).mpr trivial⟩

def twoSlotCoord : CoordConfig :=
  ⟨7, 100, 4, 11, some fun i => if i = 1 then 3 else if i = 2 then 0xffff else 2⟩

def lateTickRun : List Action :=
  let slot : List Action := [.slotTimer, .netSlot, .netRun silent]
  slot ++ slot ++ slot ++ [.appli silent, .slotTimer, .netSlot]

/-- The configuration is accepted and the first beacon goes out in slot 3. -/
theorem beacon_in_slot_three :
    (macTdmaStartCoord (macTdmaInit 2) twoSlotCoord silent).tdma.state = .coord ∧
      ∃ d d' e, Reach step (macTdmaStartCoord (macTdmaInit 2) twoSlotCoord silent) d ∧
        step d (.netRun silent) = some d' ∧ d'.ghost.txLog = d.ghost.txLog ++ [e] ∧
        e.frame = .beacon ∧ e.slot = 3 ∧
        ¬BeaconsInSlotZero (macTdmaStartCoord (macTdmaInit 2) twoSlotCoord silent) := by
  refine ⟨by decide +kernel, ?_⟩
  obtain ⟨d, run, h⟩ : ∃ d, Reach step (macTdmaStartCoord (macTdmaInit 2) twoSlotCoord silent) d ∧
      _ = _ := by
    refine exec_observe lateTickRun (fun d => (d.ghost.txLog.length, (step d (.netRun silent)).map
      fun u => u.ghost.txLog.map fun e => (e.frame, e.slot))) (0, some [(.beacon, 3)]) ?_
    decide +kernel
  simp only [Prod.mk.injEq, length_eq_zero_iff, Option.map_eq_some_iff] at h
  obtain ⟨hd, d', hstep, hlog⟩ := h
  obtain ⟨e, rest, hcons, he, hrest⟩ := map_eq_cons_iff.mp hlog
  rw [map_eq_nil_iff] at hrest
  simp only [Prod.mk.injEq] at he
  have happend : d'.ghost.txLog = d.ghost.txLog ++ [e] := by
    rw [hcons, hrest, hd, nil_append]
  refine ⟨d, d', e, run, hstep, happend, he.1, he.2, fun zero => ?_⟩
  have := (zero d _ d' e run hstep happend he.1).1
  rw [he.2] at this
  cases this

end TdmaCoordinator
