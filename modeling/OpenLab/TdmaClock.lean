import OpenLab.TdmaCoordinator

/-!
# The slot times of a node

`handle_slot` computes the next slot from `frame_start`, which `node_beacon` overwrites with a
time stamp on the other task. `Clock` is what these two do to the slot times, in any interleaving,
and what an observer writes down.
-/

namespace TdmaClock

open List

open Function Schedules TdmaTypes TdmaCore TdmaHandlers TdmaDevice TdmaTable TdmaEffects TdmaSlots
open TdmaScan TdmaCoordinator

structure Scheduled where
  frame : Nat
  index : UInt8
  time : UInt32
  -- Whether the beacon of this very slots-frame had been processed by then.
  resynced : Bool
  deriving DecidableEq

structure Clock where
  sf : SlotsFrame
  -- The slots-frame to which the slot that is due belongs.
  frame : Nat
  -- Whether the last beacon received in a slot 0 has been processed.
  heard : Bool
  -- The start of each slots-frame, as its beacon corrected it.
  starts : Nat → UInt32
  -- The scheduled slots, the last one first.
  slots : List Scheduled

inductive ClockAction
  | slot
  | beacon (timestamp : UInt32)
  deriving DecidableEq

abbrev LastSlot (t : Tdma) (sf : SlotsFrame) : Prop :=
  t.slotCount.toNat ≤ 1 + sf.nextIndex.toNat

/-- The part of `handle_slot` that schedules the next slot. -/
def Clock.slot (t : Tdma) (c : Clock) : Clock :=
  let sf := slotAdvance t c.sf
  let heard := c.sf.nextIndex != 0 && c.heard
  if LastSlot t c.sf then
    { sf := sf
      frame := c.frame + 1
      heard := heard
      starts := update c.starts (c.frame + 1) (c.starts c.frame + c.sf.frameDuration)
      slots := ⟨c.frame + 1, sf.nextIndex, sf.slotTime, false⟩ :: c.slots }
  else
    { c with
      sf := sf
      heard := heard
      slots := ⟨c.frame, sf.nextIndex, sf.slotTime, heard⟩ :: c.slots }

/-- The slots-frame in whose slot 0 a beacon processed now was received: slot 0 of the
slots-frame that is due has not been handled. -/
def Clock.received (c : Clock) : Nat := if c.sf.nextIndex = 0 then c.frame - 1 else c.frame

/-- The part of `node_beacon` that corrects the slot times. -/
def Clock.beacon (c : Clock) (timestamp : UInt32) : Clock :=
  { c with
    sf := tdmaSlotUpdateFrameStart c.sf timestamp
    heard := true
    starts := update c.starts c.received timestamp }

def clockStep (t : Tdma) (c : Clock) : ClockAction → Option Clock
  | .slot => some (c.slot t)
  | .beacon timestamp => some (c.beacon timestamp)

/-- The clock as `tdma_slot_start` sets it: slot 0 is scheduled. -/
def Clock.start (sf : SlotsFrame) : Clock :=
  { sf := sf
    frame := 0
    heard := false
    starts := fun _ => sf.frameStart
    slots := [⟨0, sf.nextIndex, sf.slotTime, false⟩] }

/-- A beacon is processed after the slot 0 in which it was received, before the next
one, and once. -/
def Genuine (c : Clock) : ClockAction → Prop
  | .slot => True
  | .beacon _ => c.heard = false ∧ (c.sf.nextIndex ≠ 0 ∨ c.frame ≠ 0)

instance (c : Clock) (a : ClockAction) : Decidable (Genuine c a) := by
  unfold Genuine
  split <;> infer_instance

/-- The device keeps the slot times of the clock. -/
structure Follows (t : Tdma) (c : Clock) (d : Device) : Prop where
  slotCount : d.tdma.slotCount = t.slotCount
  slotDuration : d.tdma.slotDuration = t.slotDuration
  times : SameTimes c.sf d.sf

variable {t : Tdma} {c c' : Clock} {d d' : Device} {a : Action}

/-- The device starts its slots-frames anew: on a scanned beacon, or as a coordinator. -/
def Restarts (d : Device) (a : Action) : Prop :=
  (∃ cfg o, a = .startCoord cfg o) ∨ ∃ p, scannedBeacon d a = some p

variable {sf : SlotsFrame}

theorem slotAdvance_sameTimes {t'} {sf'} (count : t'.slotCount = t.slotCount)
    (duration : t'.slotDuration = t.slotDuration) (same : SameTimes sf sf') :
    SameTimes (slotAdvance t sf) (slotAdvance t' sf') := by
  have hoffset : ∀ i, slotOffset t' i = slotOffset t i := slotOffset_congr duration
  unfold slotAdvance
  dsimp only
  rw [count, same.nextIndex]
  split
  · constructor
    · exact same.frameDuration
    · rw [same.frameStart, same.frameDuration]
    · rw [hoffset, same.frameStart, same.frameDuration]
    · rfl
  · constructor
    · exact same.frameDuration
    · exact same.frameStart
    · rw [hoffset, same.frameStart]
    · rfl

theorem slotAdvance_frameStart (t : Tdma) (sf : SlotsFrame) : (slotAdvance t sf).frameStart =
    if LastSlot t sf then sf.frameStart + sf.frameDuration else sf.frameStart := by
  unfold slotAdvance
  split <;> rfl

theorem slotAdvance_frameDuration (t : Tdma) (sf : SlotsFrame) :
    (slotAdvance t sf).frameDuration = sf.frameDuration := by
  unfold slotAdvance
  split <;> rfl

theorem Clock.slot_sf (t : Tdma) (c : Clock) : (c.slot t).sf = slotAdvance t c.sf := by
  unfold Clock.slot
  split <;> rfl

theorem Follows.keep (hF : Follows t c d) (count : d'.tdma.slotCount = d.tdma.slotCount)
    (duration : d'.tdma.slotDuration = d.tdma.slotDuration) (times : SameTimes d.sf d'.sf) :
    Follows t c d' :=
  ⟨count.trans hF.slotCount, duration.trans hF.slotDuration, hF.times.trans times⟩

theorem slotDuration_of_retabled {t t'} (h : Retabled t t') :
    t'.slotDuration = t.slotDuration := by
  obtain ⟨n, s, rfl⟩ := h
  rfl

theorem beaconSwitch_slotDuration (t : Tdma) (p : Packet) :
    (beaconSwitch t p).1.slotDuration = t.slotDuration := by
  rcases beaconSwitch_eq t p with ⟨h, -⟩ | ⟨-, -, h⟩
  · exact slotDuration_of_retabled h
  · exact (slotDuration_of_retabled h).trans rfl

theorem scanTdma_slotDuration (t : Tdma) (p : Packet) :
    (scanTdma t p).slotDuration = p.slotDuration := by
  unfold scanTdma
  rw [slotDuration_of_retabled (retabled_scanTable _ p)]
  split <;> rfl

def scanClock (t : Tdma) (p : Packet) (o : Oracle) : Clock :=
  .start (slotStartTimes (scanRegister t p) p.timestamp o)

/-- Every step of a node leaves its slot times alone, is a step of its clock, or starts a
new clock. -/
theorem follows_step (hF : Follows t c d) (node : ∀ cfg o, a ≠ .startCoord cfg o)
    (h : step d a = some d') :
    Follows t c d' ∨ (∃ b c', clockStep t c b = some c' ∧ Follows t c' d') ∨
      ∃ p o, scannedBeacon d a = some p ∧ (p.slotCount.toNat ≤ tdmaMaxSlots →
        Follows (scanRegister d.tdma p) (scanClock d.tdma p o) d') := by
  cases step_effect h with
  | quiet table times log state tick | timeout table times log event state tick =>
    exact .inl (hF.keep table.slotCount table.slotDuration times)
  | assoc p request table times log state tick =>
    have grant := retabled_grantSlots d.tdma p.src p.assocSlots.toNat
    exact .inl (hF.keep (table.slotCount.trans (slotCount_of_retabled grant))
      (table.slotDuration.trans (slotDuration_of_retabled grant)) times)
  | slot due table times log state tick =>
    refine .inr (.inl ⟨.slot, c.slot t, rfl, table.slotCount.trans hF.slotCount,
      table.slotDuration.trans hF.slotDuration, ?_⟩)
    rw [Clock.slot_sf]
    exact (slotAdvance_sameTimes hF.slotCount hF.slotDuration hF.times).trans times
  | beacon p heard table times log state tick =>
    have same := hF.times
    refine .inr (.inl ⟨.beacon p.timestamp, c.beacon p.timestamp, rfl, ?_, ?_,
      SameTimes.trans ?_ times⟩)
    · rw [table.slotCount, beaconSwitch_slotCount]
      exact hF.slotCount
    · rw [table.slotDuration, beaconSwitch_slotDuration]
      exact hF.slotDuration
    · exact ⟨same.frameDuration, rfl, same.slotTime, same.nextIndex⟩
  | scan p o beacon table times log state tick old =>
    refine .inr (.inr ⟨p, o, beacon, fun count => ⟨?_, ?_, ?_⟩⟩)
    · exact table.slotCount.trans (scanTdma_slotCount _ _)
    · exact table.slotDuration.trans (scanTdma_slotDuration _ _)
    · have started : scanTimes d.tdma d.sf p o = (scanClock d.tdma p o).sf :=
        if_neg (Nat.not_lt.mpr count)
      exact started ▸ times
  | start cfg o action idle result => exact absurd action (node cfg o)

/-- The slot times of a device come from a run of its clock, from one start of the
slots-frames to the next. -/
theorem follows_run (start : Follows t c d) (run : Run step (fun d a => ¬Restarts d a) d d') :
    ∃ c', Reach (clockStep t) c c' ∧ Follows t c' d' := by
  induction run with
  | start => exact ⟨c, .start, start⟩
  | next a _ kept hstep ih =>
    obtain ⟨c', reach, hF⟩ := ih
    rcases follows_step hF (fun cfg o start => kept (.inl ⟨cfg, o, start⟩)) hstep with
      same | ⟨b, c'', move, hF'⟩ | ⟨p, o, scanned, -⟩
    · exact ⟨c', reach, same⟩
    · exact ⟨c'', .next b reach trivial move, hF'⟩
    · exact absurd (.inr ⟨p, scanned⟩) kept

/-- Ticks from the start of a slots-frame to the start of its slot `i`. -/
def slotTicks (t : Tdma) (i : Nat) : Nat :=
  softTimerUsToTicks (tdmaSlotDurationFactorUs * t.slotDuration.toNat * i)

/-- The length of slot `i`; rounding makes some slots one tick longer. -/
def slotLength (t : Tdma) (i : Nat) : Nat := slotTicks t (i + 1) - slotTicks t i

theorem slotTicks_succ (t : Tdma) (i : Nat) :
    slotTicks t (i + 1) = slotTicks t i + slotLength t i ∧ slotLength t i < 1024 ∧
      (t.slotDuration ≠ 0 → 0 < slotLength t i) := by
  have hd := t.slotDuration.toNat_lt
  have pos : t.slotDuration ≠ 0 → 0 < t.slotDuration.toNat := fun h =>
    Nat.pos_of_ne_zero fun zero => h (UInt8.toNat_inj.mp zero)
  have ticks : ∀ k, slotTicks t k = 100 * t.slotDuration.toNat * k * 32768 / 1000000 := fun _ => rfl
  have step : 100 * t.slotDuration.toNat * (i + 1) =
      100 * t.slotDuration.toNat * i + 100 * t.slotDuration.toNat := Nat.mul_succ _ _
  rw [slotLength, ticks, ticks, step]
  generalize 100 * t.slotDuration.toNat * i = x
  refine ⟨?_, ?_, fun h => ?_⟩
  · omega
  · omega
  · have := pos h
    omega

theorem slotTicks_zero (t : Tdma) : slotTicks t 0 = 0 := by
  simp [slotTicks, softTimerUsToTicks]

theorem slotOffset_eq (t : Tdma) (index : UInt8) :
    slotOffset t index = UInt32.ofNat (slotTicks t index.toNat) := rfl

/-- Whether or not the slots-frame comes to its end, the next slot starts where the one
that is due ends, counted from `frame_start`. -/
theorem slotAdvance_slotTime (inside : sf.nextIndex.toNat < t.slotCount.toNat)
    (duration : sf.frameDuration = slotOffset t t.slotCount) : (slotAdvance t sf).slotTime =
      UInt32.ofNat (slotTicks t (sf.nextIndex.toNat + 1)) + sf.frameStart := by
  rw [slotAdvance_time, slotOffset_eq, slotAdvance_index, slotAdvance_frameStart]
  by_cases last : LastSlot t sf
  · have count : t.slotCount.toNat = sf.nextIndex.toNat + 1 := by omega
    rw [if_pos last, if_pos last, duration, slotOffset_eq, count, UInt32.add_comm sf.frameStart,
      slotTicks_zero]
    exact UInt32.zero_add _
  · rw [if_neg last, if_neg last]

def Later (x y : UInt32) : Prop := 0 < (x - y).toNat ∧ (x - y).toNat < 2 ^ 31

def Forward (slots : List Scheduled) : Prop := slots.IsChain fun new old => Later new.time old.time

/-- The slots of a slots-frame are counted from the corrected start of the one before it,
until its own beacon is processed. -/
def Resynchronised (t : Tdma) (c : Clock) : Prop :=
  ∀ s ∈ c.slots, ∀ k, s.frame = k + 1 → s.resynced = false →
    s.time = c.starts k + c.sf.frameDuration + slotOffset t s.index

/-- A beacon is processed before the last slot of the slots-frame in which it was received
is handled, and does not move the slots-frame back by the length of the slot that is due. -/
def InFrame (t : Tdma) (c : Clock) : ClockAction → Prop
  | .slot => True
  | .beacon timestamp => c.sf.nextIndex ≠ 0 ∧
      ((timestamp - c.sf.frameStart).toNat < 2 ^ 30 ∨
        (c.sf.frameStart - timestamp).toNat < slotLength t c.sf.nextIndex.toNat)

instance (t : Tdma) (c : Clock) (a : ClockAction) : Decidable (InFrame t c a) := by
  unfold InFrame
  split <;> infer_instance

theorem later_of_shift {i} {s s'} (duration : t.slotDuration ≠ 0)
    (shift : (s' - s).toNat < 2 ^ 30 ∨ (s - s').toNat < slotLength t i) :
    Later (UInt32.ofNat (slotTicks t (i + 1)) + s') (UInt32.ofNat (slotTicks t i) + s) := by
  obtain ⟨next, short, pos⟩ := slotTicks_succ t i
  have hpos := pos duration
  have gap : UInt32.ofNat (slotTicks t (i + 1)) + s' - (UInt32.ofNat (slotTicks t i) + s) =
      UInt32.ofNat (slotLength t i) + (s' - s) := by
    rw [next, UInt32.ofNat_add]
    grind
  have hgap : (UInt32.ofNat (slotLength t i) + (s' - s)).toNat =
      (slotLength t i + (s' - s).toNat) % 2 ^ 32 := by
    rw [UInt32.toNat_add, UInt32.toNat_ofNat_of_lt' (by simp only [UInt32.size]; omega)]
  have hback : (s - s').toNat = (2 ^ 32 - (s' - s).toNat) % 2 ^ 32 := by
    have hs := s.toNat_lt
    have hs' := s'.toNat_lt
    rw [UInt32.toNat_sub, UInt32.toNat_sub]
    omega
  have range := (s' - s).toNat_lt
  rw [Later, gap, hgap]
  omega

theorem later_next (duration : t.slotDuration ≠ 0) (i : Nat) (s : UInt32) :
    Later (UInt32.ofNat (slotTicks t (i + 1)) + s) (UInt32.ofNat (slotTicks t i) + s) := by
  apply later_of_shift duration
  left
  rw [UInt32.sub_self]
  decide

structure InOrder (t : Tdma) (c : Clock) : Prop where
  inside : c.sf.nextIndex.toNat < t.slotCount.toNat
  duration : c.sf.frameDuration = slotOffset t t.slotCount
  start : c.starts c.frame = c.sf.frameStart
  -- Until the beacon of a slots-frame is processed, its start is counted from the last one.
  counted : c.sf.nextIndex = 0 ∨ c.heard = false → ∀ k, c.frame = k + 1 →
    c.starts (k + 1) = c.starts k + c.sf.frameDuration
  latest : ∃ s rest, c.slots = s :: rest ∧ s.time = c.sf.slotTime
  frames : ∀ s ∈ c.slots, s.frame ≤ c.frame
  due : c.heard = false → c.sf.slotTime = slotOffset t c.sf.nextIndex + c.sf.frameStart
  next : Later (UInt32.ofNat (slotTicks t (c.sf.nextIndex.toNat + 1)) + c.sf.frameStart)
    c.sf.slotTime
  forward : Forward c.slots
  resynced : Resynchronised t c

theorem InOrder.forward_cons (hC : InOrder t c) (frame : Nat) (index : UInt8) (resynced : Bool) :
    Forward (⟨frame, index, (slotAdvance t c.sf).slotTime, resynced⟩ :: c.slots) := by
  obtain ⟨s, rest, hslots, htime⟩ := hC.latest
  have hforward := hC.forward
  rw [hslots] at hforward ⊢
  refine isChain_cons_cons.mpr ⟨?_, hforward⟩
  rw [slotAdvance_slotTime hC.inside hC.duration, htime]
  exact hC.next

theorem next_slotAdvance (duration : t.slotDuration ≠ 0) (sf : SlotsFrame) :
    Later (UInt32.ofNat (slotTicks t ((slotAdvance t sf).nextIndex.toNat + 1)) +
      (slotAdvance t sf).frameStart) (slotAdvance t sf).slotTime := by
  exact later_next duration _ _

theorem inOrder_slot (duration : t.slotDuration ≠ 0) (hC : InOrder t c) : InOrder t (c.slot t) := by
  have hindex := slotAdvance_index t c.sf
  have htime := slotAdvance_time t c.sf
  have hstart := slotAdvance_frameStart t c.sf
  have hduration := slotAdvance_frameDuration t c.sf
  have inside := hC.inside
  by_cases last : LastSlot t c.sf
  · rw [if_pos last] at hindex hstart
    have other : ∀ k, k ≤ c.frame → update c.starts (c.frame + 1)
        (c.starts c.frame + c.sf.frameDuration) k = c.starts k := fun k hk =>
      update_of_ne (by omega) _ _
    rw [Clock.slot, if_pos last]
    constructor
    · dsimp only
      omega
    · exact hduration.trans hC.duration
    · dsimp only
      rw [update_self, hstart, hC.start]
    · rintro - k hk
      obtain rfl : k = c.frame := by
        dsimp only at hk
        omega
      dsimp only
      rw [update_self, other _ le_rfl, hduration]
    · exact ⟨_, _, rfl, rfl⟩
    · intro s hs
      rcases mem_cons.mp hs with rfl | hs
      · exact le_rfl
      · exact (hC.frames s hs).trans (Nat.le_succ _)
    · exact fun _ => htime
    · exact next_slotAdvance duration c.sf
    · exact hC.forward_cons _ _ _
    · intro s hs k hk hfresh
      dsimp only
      rcases mem_cons.mp hs with rfl | hs
      · obtain rfl : k = c.frame := by
          dsimp only at hk
          omega
        rw [other _ le_rfl, hduration, hC.start, htime, hstart, UInt32.add_comm]
      · have hframe := hC.frames s hs
        rw [other k (by omega), hduration]
        exact hC.resynced s hs k hk hfresh
  · rw [if_neg last] at hindex hstart
    have counted : (c.sf.nextIndex != 0 && c.heard) = false → ∀ k, c.frame = k + 1 →
        c.starts (k + 1) = c.starts k + c.sf.frameDuration := fun h => by
      apply hC.counted
      by_cases zero : c.sf.nextIndex = 0
      · exact .inl zero
      · exact .inr (by simpa [zero] using h)
    have positive : (slotAdvance t c.sf).nextIndex ≠ 0 := fun zero => by
      have : (slotAdvance t c.sf).nextIndex.toNat = 0 := congrArg UInt8.toNat zero
      omega
    rw [Clock.slot, if_neg last]
    constructor
    · dsimp only
      omega
    · exact hduration.trans hC.duration
    · exact hC.start.trans hstart.symm
    · rintro (zero | fresh) k hk
      · exact absurd zero positive
      · exact (counted fresh k hk).trans (by rw [hduration])
    · exact ⟨_, _, rfl, rfl⟩
    · intro s hs
      rcases mem_cons.mp hs with rfl | hs
      · exact le_rfl
      · exact hC.frames s hs
    · exact fun _ => htime
    · exact next_slotAdvance duration c.sf
    · exact hC.forward_cons _ _ _
    · intro s hs k hk hfresh
      rcases mem_cons.mp hs with rfl | hs
      · rw [hduration, ← counted hfresh k hk, ← hk, hC.start, htime, hstart, UInt32.add_comm]
      · rw [hduration]
        exact hC.resynced s hs k hk hfresh

theorem inOrder_beacon {timestamp} (duration : t.slotDuration ≠ 0) (hC : InOrder t c)
    (genuine : Genuine c (.beacon timestamp)) (inFrame : InFrame t c (.beacon timestamp)) :
    InOrder t (c.beacon timestamp) := by
  obtain ⟨fresh, -⟩ := genuine
  obtain ⟨positive, shift⟩ := inFrame
  have hreceived : c.received = c.frame := if_neg positive
  constructor
  · exact hC.inside
  · exact hC.duration
  · rw [Clock.beacon, hreceived]
    exact update_self _ _ _
  · rintro (zero | unheard)
    · exact absurd zero positive
    · cases unheard
  · exact hC.latest
  · exact hC.frames
  · intro unheard
    cases unheard
  · have hdue := hC.due fresh
    change Later (UInt32.ofNat (slotTicks t (c.sf.nextIndex.toNat + 1)) + timestamp) c.sf.slotTime
    rw [hdue, slotOffset_eq]
    exact later_of_shift duration shift
  · exact hC.forward
  · intro s hs k hk hfresh
    have hframe := hC.frames s hs
    have other : (c.beacon timestamp).starts k = c.starts k := by
      exact update_of_ne (by omega) _ _
    rw [other]
    exact hC.resynced s hs k hk hfresh

theorem inOrder_start (count : 0 < t.slotCount) (duration : t.slotDuration ≠ 0)
    (index : sf.nextIndex = 0) (frame : sf.frameDuration = slotOffset t t.slotCount)
    (time : sf.slotTime = sf.frameStart) : InOrder t (.start sf) := by
  have hdue : sf.slotTime = slotOffset t sf.nextIndex + sf.frameStart := by
    rw [index, slotOffset_zero, UInt32.zero_add]
    exact time
  constructor
  · change sf.nextIndex.toNat < _
    rw [index]
    exact UInt8.lt_iff_toNat_lt.mp count
  · exact frame
  · rfl
  · rintro - k hk
    cases hk
  · exact ⟨_, _, rfl, rfl⟩
  · intro s hs
    rw [mem_singleton.mp hs]
    exact le_rfl
  · exact fun _ => hdue
  · change Later _ sf.slotTime
    rw [hdue, slotOffset_eq]
    exact later_next duration _ _
  · exact List.IsChain.singleton _
  · intro s hs k hk
    rw [mem_singleton.mp hs] at hk
    cases hk

/-- As long as every beacon is processed in the slots-frame in which it was received, slot
times only go forward, and each slots-frame is counted from the last corrected start. -/
theorem slot_times_forward (count : 0 < t.slotCount) (duration : t.slotDuration ≠ 0) {s : UInt32}
    {o : Oracle} (run : Run (clockStep t) (fun c a => Genuine c a ∧ InFrame t c a)
      (.start (slotStartTimes t s o)) c) :
    Forward c.slots ∧ Resynchronised t c := by
  have order : InOrder t c := by
    refine run.invariant (InOrder t) ?_ (inOrder_start count duration rfl rfl rfl)
    rintro c a c' hC ⟨genuine, inFrame⟩ h
    cases a with
    | slot =>
      obtain rfl : c.slot t = c' := Option.some.inj h
      exact inOrder_slot duration hC
    | beacon timestamp =>
      obtain rfl : c.beacon timestamp = c' := Option.some.inj h
      exact inOrder_beacon duration hC genuine inFrame
  exact ⟨order.forward, order.resynced⟩

def sampleFrame : Tdma := { (macTdmaInit 3).tdma with slotCount := 4, slotDuration := 100 }

def sampleStart : Clock := .start (slotStartTimes sampleFrame 1000 TdmaPool.calm)

theorem slot_times_forward_early : ∃ c, Run (clockStep sampleFrame)
    (fun c a => Genuine c a ∧ InFrame sampleFrame c a) sampleStart c ∧
    c.slots.map Scheduled.time = [2637, 2310, 1983, 1655, 1341, 1014] ∧
    Forward c.slots ∧ Resynchronised sampleFrame c := by
  obtain ⟨c, run, h⟩ : ∃ c, Run (clockStep sampleFrame)
      (fun c a => Genuine c a ∧ InFrame sampleFrame c a) sampleStart c ∧
      c.slots.map Scheduled.time = [2637, 2310, 1983, 1655, 1341, 1014] := by
    refine execIf_observe [.slot, .beacon 1000, .slot, .slot, .slot, .slot] _ _ ?_
    decide +kernel
  exact ⟨c, run, h, slot_times_forward (by decide) (by decide) run⟩

open TdmaPool in
def lateBeaconRun : List Action :=
  joinRun ++ handleSlotRun ++ handleSlotRun ++ handleSlotRun ++ completionRun false ++ [.appli calm]

open TdmaPool in
/-- A beacon processed between the last slot and the next slot 0 takes the slots-frame
back, in the clock and in the device. -/
theorem slot_times_backward :
    (∃ c, Run (clockStep sampleFrame) Genuine sampleStart c ∧
      ¬Forward c.slots ∧ ¬Resynchronised sampleFrame c) ∧
    ∃ d, Reach step (macTdmaInit 3) d ∧ d.sf.slotTime = 2324 ∧
      (exec step d handleSlotRun).map (fun d => d.sf.slotTime) = some 1327 := by
  constructor
  · obtain ⟨c, run, h⟩ : ∃ c, Run (clockStep sampleFrame) Genuine sampleStart c ∧
        (c.slots, c.starts 0, c.sf.frameDuration) =
          ([⟨1, 1, 1327, false⟩, ⟨1, 0, 2324, false⟩, ⟨0, 3, 1997, false⟩, ⟨0, 2, 1669, false⟩,
            ⟨0, 1, 1341, false⟩, ⟨0, 0, 1014, false⟩], 1000, 1310) := by
      refine execIf_observe [.slot, .slot, .slot, .slot, .beacon 1000, .slot] _ _ ?_
      decide +kernel
    obtain ⟨hslots, hstart, hduration⟩ : _ ∧ _ ∧ _ := by simpa using h
    refine ⟨c, run, fun forward => ?_, fun resynced => ?_⟩
    · rw [Forward, hslots, isChain_cons_cons] at forward
      exact absurd forward.1.2 (by decide)
    · have first := resynced ⟨1, 1, 1327, false⟩ (by rw [hslots]; exact mem_cons_self) 0 rfl rfl
      rw [hstart, hduration] at first
      exact absurd first (by decide)
  · obtain ⟨d, run, h⟩ : ∃ d, Reach step (macTdmaInit 3) d ∧
        (d.sf.slotTime, (exec step d handleSlotRun).map (fun d => d.sf.slotTime)) =
          (2324, some 1327) := by
      refine exec_observe lateBeaconRun _ _ ?_
      decide +kernel
    exact ⟨d, run, Prod.mk.inj h⟩

end TdmaClock
