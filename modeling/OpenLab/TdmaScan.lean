import OpenLab.TdmaSlots

/-!
# What a scanned beacon can do to a node

`scan_handler` passes the slot count and duration of a beacon to `tdma_slot_start` unchecked and
ignores its result. `Survives` says what the start-up needs, and `SoundBeacon` which beacons give
it.
-/

namespace TdmaScan

open Schedules TdmaTypes TdmaCore TdmaHandlers TdmaDevice TdmaTable TdmaEffects TdmaSlots

/-- The number by which `tdma_slot_start` divides: `frame_duration`, in ticks. -/
def startDivisor (t : Tdma) : UInt32 := slotOffset t t.slotCount

theorem slotOffset_eq_zero_iff (t : Tdma) (index : UInt8) :
    slotOffset t index = 0 ↔ t.slotDuration = 0 ∨ index = 0 := by
  have hd := t.slotDuration.toNat_lt
  have hi := index.toNat_lt
  have bound : t.slotDuration.toNat * index.toNat ≤ 255 * 255 :=
    Nat.mul_le_mul (by omega) (by omega)
  have zero : ∀ v : UInt8, v = 0 ↔ v.toNat = 0 := fun v => by
    rw [← UInt8.toNat_inj]
    rfl
  rw [zero, zero, ← Nat.mul_eq_zero, slotOffset, Nat.mul_assoc]
  -- One unit of duration is more than three ticks, so only a zero product rounds to zero.
  generalize t.slotDuration.toNat * index.toNat = x at bound
  have ticks : softTimerUsToTicks (tdmaSlotDurationFactorUs * x) = 100 * x * 32768 / 1000000 := rfl
  rw [ticks, ← UInt32.toNat_inj, UInt32.toNat_ofNat_of_lt' (by simp only [UInt32.size]; omega)]
  change 100 * x * 32768 / 1000000 = 0 ↔ x = 0
  omega

def scanned (d : Device) (p : Packet) : Device := { d with tdma := scanRegister d.tdma p }

/-- The count check passes and the divisor is zero. -/
def DividesByZero (d : Device) (p : Packet) : Prop :=
  (scanned d p).tdma.slotCount.toNat ≤ tdmaMaxSlots ∧ startDivisor (scanned d p).tdma = 0

/-- Accepting the beacon does not divide by zero, and a failing `tdma_slot_start` leaves
the node scanning. -/
structure Survives (d : Device) (p : Packet) (o : Oracle) : Prop where
  divides : ¬DividesByZero d p
  failure : (tdmaSlotStart (scanned d p) p.timestamp o).1 = false →
    (scanAccept d p o).tdma.state = .scan

/-- A beacon that describes a slots-frame the table can hold. -/
structure SoundBeacon (p : Packet) : Prop where
  count : 0 < p.slotCount
  bounded : p.slotCount.toNat ≤ tdmaMaxSlots
  duration : 0 < p.slotDuration

theorem slotStart_fails_iff (d : Device) (start : UInt32) (o : Oracle) :
    (tdmaSlotStart d start o).1 = false ↔ tdmaMaxSlots < d.tdma.slotCount.toNat := by
  unfold tdmaSlotStart
  split
  · next h => exact ⟨fun _ => h, fun _ => rfl⟩
  · next h => exact ⟨fun hf => (by cases hf), fun hlt => absurd hlt h⟩

theorem survives_iff (d : Device) (p : Packet) (o : Oracle) :
    Survives d p o ↔ SoundBeacon p := by
  have wait : (scanAccept d p o).tdma.state = .wait := (accepted_scanAccept d p o).state
  have divisor : startDivisor (scanned d p).tdma = 0 ↔ p.slotDuration = 0 ∨ p.slotCount = 0 :=
    slotOffset_eq_zero_iff _ _
  constructor
  · intro h
    have bounded : p.slotCount.toNat ≤ tdmaMaxSlots := by
      by_contra above
      have scan := h.failure ((slotStart_fails_iff _ _ _).mpr (Nat.not_le.mp above))
      cases scan
    have nonzero : ¬(p.slotDuration = 0 ∨ p.slotCount = 0) := fun hz =>
      h.divides ⟨bounded, divisor.mpr hz⟩
    rw [not_or] at nonzero
    exact ⟨UInt8.pos_iff_ne_zero.mpr nonzero.2, bounded, UInt8.pos_iff_ne_zero.mpr nonzero.1⟩
  · intro h
    constructor
    · rintro ⟨-, zero⟩
      rcases divisor.mp zero with hz | hz
      · exact UInt8.pos_iff_ne_zero.mp h.duration hz
      · exact UInt8.pos_iff_ne_zero.mp h.count hz
    · intro fails
      have above := (slotStart_fails_iff _ _ _).mp fails
      exact absurd h.bounded (Nat.not_le.mpr above)

instance (p : Packet) : Decidable (SoundBeacon p) :=
  decidable_of_iff (0 < p.slotCount ∧ p.slotCount.toNat ≤ tdmaMaxSlots ∧ 0 < p.slotDuration)
    ⟨fun h => ⟨h.1, h.2.1, h.2.2⟩, fun h => ⟨h.count, h.bounded, h.duration⟩⟩

/-- A beacon on which the scan ends in this step is sound. -/
def ScansSound (d : Device) (a : Action) : Prop := ∀ p ∈ scannedBeacon d a, SoundBeacon p

instance (d : Device) (a : Action) : Decidable (ScansSound d a) :=
  inferInstanceAs (Decidable (∀ p ∈ scannedBeacon d a, SoundBeacon p))

/-- While slots are handled the slots-frame fits the table, and the next slot is in it. -/
structure Indexed (d : Device) : Prop where
  bounded : Ticking d → d.tdma.slotCount.toNat ≤ tdmaMaxSlots
  index : d.sf.nextIndex.toNat < tdmaMaxSlots
  idle : d.tdma.state = .idle → ¬Ticking d

theorem slotCount_of_retabled {t t'} (h : Retabled t t') : t'.slotCount = t.slotCount := by
  obtain ⟨n, s, rfl⟩ := h
  rfl

theorem scanTdma_slotCount (t : Tdma) (p : Packet) : (scanTdma t p).slotCount = p.slotCount := by
  unfold scanTdma
  rw [slotCount_of_retabled (retabled_scanTable _ p)]
  split <;> rfl

theorem beaconSwitch_slotCount (t : Tdma) (p : Packet) :
    (beaconSwitch t p).1.slotCount = t.slotCount := by
  rcases beaconSwitch_eq t p with ⟨h, -⟩ | ⟨-, -, h⟩
  · exact slotCount_of_retabled h
  · exact (slotCount_of_retabled h).trans rfl

theorem indexed_step {d d'} {a} (hI : Indexed d) (sound : ScansSound d a)
    (h : step d a = some d') : Indexed d' := by
  cases step_effect h with
  | quiet table times log state tick =>
    refine ⟨fun ht => ?_, times.nextIndex ▸ hI.index, fun idle ht => ?_⟩
    · rw [table.slotCount]
      exact hI.bounded (tick.mp ht)
    · rcases state with same | ⟨-, scan⟩ | ⟨-, assoc⟩
      · exact hI.idle (same.symm.trans idle) (tick.mp ht)
      · simp [scan] at idle
      · simp [assoc] at idle
  | timeout table times log event state tick =>
    refine ⟨fun ht => ?_, times.nextIndex ▸ hI.index, fun idle => ?_⟩
    · rw [table.slotCount]
      exact hI.bounded (tick ht)
    · simp [state] at idle
  | slot due table times log state tick =>
    have bounded := hI.bounded due
    refine ⟨fun _ => table.slotCount ▸ bounded, ?_, fun idle _ => ?_⟩
    · rw [times.nextIndex, slotAdvance_index]
      split
      · decide
      · omega
    · exact hI.idle (state.symm.trans idle) due
  | scan p o beacon table times log state tick old =>
    have bounded := (sound p beacon).bounded
    refine ⟨fun _ => ?_, ?_, fun idle => ?_⟩
    · rw [table.slotCount, scanTdma_slotCount]
      exact bounded
    · have fits : ¬tdmaMaxSlots < (scanRegister d.tdma p).slotCount.toNat := Nat.not_lt.mpr bounded
      rw [times.nextIndex, scanTimes, if_neg fits]
      exact Nat.zero_lt_succ 49
    · simp [state] at idle
  | beacon p heard table times log state tick =>
    refine ⟨fun ht => ?_, times.nextIndex ▸ hI.index, fun idle ht => ?_⟩
    · rw [table.slotCount, beaconSwitch_slotCount]
      exact hI.bounded (tick.mp ht)
    · rw [state] at idle
      rcases beaconSwitch_state d.tdma p with same | ⟨-, node⟩
      · exact hI.idle (same.symm.trans idle) (tick.mp ht)
      · simp [node] at idle
  | assoc p request table times log state tick =>
    refine ⟨fun ht => ?_, times.nextIndex ▸ hI.index, fun idle ht => ?_⟩
    · rw [table.slotCount, slotCount_of_retabled (retabled_grantSlots _ _ _)]
      exact hI.bounded (tick.mp ht)
    · exact hI.idle (state.symm.trans idle) (tick.mp ht)
  | start cfg o action idle result =>
    subst result
    rcases startCoord_effect cfg o idle with ⟨-, refused⟩ | hs
    · rw [refused]
      exact ⟨fun ht => absurd ht (hI.idle idle), hI.index, fun _ => hI.idle idle⟩
    · refine ⟨fun _ => ?_, ?_, fun idle' ht => ?_⟩
      · have hcount : (coordTdma d.tdma cfg).2.slotCount = cfg.slotCount :=
          (slotCount_of_retabled (retabled_coordSlots _ _)).trans rfl
        rw [hs.table.slotCount, hcount]
        exact hs.count
      · rw [hs.times.nextIndex]
        exact Nat.zero_lt_succ 49
      · have refused : (coordTdma d.tdma cfg).1 = false := by
          by_contra accepted
          rw [Bool.not_eq_false] at accepted
          rw [hs.state, if_pos accepted] at idle'
          cases idle'
        apply hI.idle idle
        rw [Ticking, hs.timer, hs.events, hs.net, refused] at ht
        rcases ht with ht | ht
        · cases ht
        · exact .inr ht

theorem indexed_run {addr} {d}
    (run : Run step ScansSound (macTdmaInit addr) d) : Indexed d := by
  refine run.invariant Indexed (fun t a u hI sound h => indexed_step hI sound h) ?_
  have quiet : ¬Ticking (macTdmaInit addr) := by
    rintro (h | h | h)
    · cases h
    · cases h
    · cases h
  exact ⟨fun ht => absurd ht quiet, Nat.zero_lt_succ 49, fun _ => quiet⟩

/-- A node survives exactly the sound beacons; while it scans only those, every later
slot is looked up inside the table. -/
theorem beacons_survived (addr : UInt16) (d : Device) :
    (∀ (p : Packet) (o : Oracle), scanAccepts d.tdma p = true →
      (Survives d p o ↔ SoundBeacon p)) ∧
    (Run step ScansSound (macTdmaInit addr) d → d.sf.nextIndex.toNat < tdmaMaxSlots) :=
  ⟨fun p o _ => survives_iff d p o, fun run => (indexed_run run).index⟩

open TdmaPool in
theorem beacons_survived_after_report : ∃ d, Run step ScansSound (macTdmaInit 3) d ∧
    d.tdma.slotCount = 4 ∧ d.sf.nextIndex.toNat < tdmaMaxSlots := by
  obtain ⟨d, run, h⟩ : ∃ d, Run step ScansSound (macTdmaInit 3) d ∧ d.tdma.slotCount = 4 := by
    refine execIf_observe reportRun _ _ ?_
    decide +kernel
  exact ⟨d, run, h, (beacons_survived 3 d).2 run⟩

def counted (n : UInt8) (rx : RxPacket) : RxPacket := ⟨rx.pkt.setByte 0 n, rx.fits⟩

open TdmaPool in
def countedScanRun (n : UInt8) : List Action :=
  [.startNode ⟨7, 11, 1⟩, .appli calm, .netPhy true (counted n (sampleBeacon 0))]

open TdmaPool in
/-- A beacon without slots makes the node divide by zero; after one with 200 slots the
node waits for a slots-frame that was never started. -/
theorem beacons_not_survived :
    (∃ d, Reach step (macTdmaInit 3) d ∧ ∃ p ∈ scannedBeacon d (.netRun calm),
      p.slotCount = 0 ∧ ¬Survives d p calm) ∧
    ∃ d, Reach step (macTdmaInit 3) d ∧ ∃ p ∈ scannedBeacon d (.netRun calm),
      p.slotCount = 200 ∧ ¬Survives d p calm := by
  have bad : ∀ n, ((exec step (macTdmaInit 3) (countedScanRun n)).map fun d =>
        (scannedBeacon d (.netRun calm)).map (·.slotCount)) = some (some n) →
      (∀ p : Packet, p.slotCount = n → ¬SoundBeacon p) →
      ∃ d, Reach step (macTdmaInit 3) d ∧ ∃ p ∈ scannedBeacon d (.netRun calm),
        p.slotCount = n ∧ ¬Survives d p calm := by
    intro n hrun hbad
    obtain ⟨d, reach, h⟩ := exec_observe _ _ _ hrun
    obtain ⟨p, hp, hn⟩ := Option.map_eq_some_iff.mp h
    exact ⟨d, reach, p, hp, hn, fun hs => hbad p hn ((survives_iff d p calm).mp hs)⟩
  constructor
  · refine bad 0 (by decide +kernel) fun p hn sound => ?_
    have := sound.count
    rw [hn] at this
    cases this
  · refine bad 200 (by decide +kernel) fun p hn sound => ?_
    have := sound.bounded
    rw [hn] at this
    exact absurd this (by decide)

end TdmaScan
