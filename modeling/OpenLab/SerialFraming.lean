import OpenLab.SerialRx

/-!
# Framing on the serial link

The bytes that `iotlab_serial_send_frame` puts on the line are received as one frame, after
any earlier bytes, once these are older than the timeout of the receiver.
-/

namespace IotlabSerial

open Function Schedules List

variable {packetMaxSize : Nat} {handlers : List Handler} {s t u v : Serial} {a : Action}
  {p q : PktId} {timestamp : UInt32} {c : UInt8} {B : UInt8 → Prop}

theorem wire_setHeader {pkt} (type : UInt8) (offset : pkt.offset = iotlabSerialHeaderSize)
    (small : pkt.length.toNat ≤ 254) :
    (setHeader type pkt).wire = syncByte :: (pkt.length.toUInt8 + 1) :: type :: pkt.payload := by
  have length : (pkt.length + 3).toNat = 3 + pkt.length.toNat := by
    simp [UInt16.toNat_add]
    omega
  have rest : ((range pkt.length.toNat).map fun i => (setHeader type pkt).rawData (3 + i)) =
      pkt.payload := by
    refine map_congr_left fun i _ => ?_
    rw [offset]
    simp only [setHeader, iotlabSerialHeaderSize]
    rw [update_of_ne (by omega), update_of_ne (by omega),
      update_of_ne (by omega)]
  calc (setHeader type pkt).wire
      = (range (3 + pkt.length.toNat)).map (setHeader type pkt).rawData := by
        rw [← length]
        rfl
    _ = (range 3).map (setHeader type pkt).rawData ++ pkt.payload := by
        rw [range_add, map_append, map_map, ← rest]
        rfl
    _ = syncByte :: (pkt.length.toUInt8 + 1) :: type :: pkt.payload := rfl

theorem initTxPacket_eq {pkt} (type : UInt8)
    (offset : pkt.offset = iotlabSerialHeaderSize)
    (small : pkt.length.toNat ≤ iotlabSerialDataMaxSize packetMaxSize) :
    iotlabSerialInitTxPacket packetMaxSize type pkt = (0, setHeader type pkt) := by
  unfold iotlabSerialDataMaxSize at small
  unfold iotlabSerialInitTxPacket
  rw [if_neg (by split at small <;> omega), if_neg (by omega)]

theorem NoByte.lengthBytes (quiet : NoByte s a) : LengthBytes B s a := by
  cases a with
  | charRx => exact quiet.elim
  | _ => trivial

theorem lengthBytes_true (s : Serial) (a : Action) : LengthBytes (fun _ => True) s a := by
  cases a with
  | charRx => exact fun _ _ => trivial
  | _ => trivial

/-- The bytes arrive one after the other, with any other steps between them. -/
inductive Receives (packetMaxSize : Nat) (handlers : List Handler) :
    Serial → List Stamped → Serial → Prop
  | nil (s : Serial) : Receives packetMaxSize handlers s [] s
  | byte {s t u v : Serial} {timestamp : UInt32} {c : UInt8} {rest : List Stamped} :
      Run (step packetMaxSize handlers) NoByte s t →
      step packetMaxSize handlers t (.charRx timestamp c) = some u →
      Receives packetMaxSize handlers u rest v →
      Receives packetMaxSize handlers s ((timestamp, c) :: rest) v

structure Untouched (s u : Serial) (p : PktId) : Prop where
  rxPkt : u.rxPkt = some p
  rxIndex : u.rxIndex = s.rxIndex
  lastStartTime : u.lastStartTime = s.lastStartTime
  packet : u.packet p = s.packet p
  bytes : u.ghost.bytes p = s.ghost.bytes p
  received : u.ghost.received = s.ghost.received
  lastByte : u.ghost.lastByte = s.ghost.lastByte

theorem untouched_change (once : Once s) (installed : s.rxPkt = some p) (quiet : NoByte s a)
    (c : Change packetMaxSize handlers s a u) : Untouched s u p := by
  have aside := aside_change quiet c
  have same : u.packet p = s.packet p := by
    cases c with
    | ignored | skipped | byte | frame => exact quiet.elim
    | install q rest irq isr free => rw [installed] at free; cases free
    | idleHook =>
      unfold idleHookUart
      split <;> rfl
    | call q taken =>
      have other : p ≠ q := by
        rintro rfl
        exact (once.rx_apart installed).2 (by rw [taken]; rfl)
      exact update_of_ne other _ _
    | result q cmdType result rawData length handling =>
      obtain ⟨pkt, fifo, eq, -⟩ := receivedResult_eq packetMaxSize s q cmdType result rawData length
      have other : p ≠ q := by
        rintro rfl
        exact (once.handling_apart handling).1 installed
      rw [eq]
      exact update_of_ne other _ _
    | start out rest now idle fifo =>
      exact txStart_packet (once.start_apart fifo (.inl installed))
    | free out done sending =>
      exact txFree_packet (once.free_apart sending (.inl installed))
    | noInstall | post | give | takeNone | take | sendFrame | done => rfl
  exact ⟨(aside.rxPkt (by simp [installed])).trans installed, aside.rxIndex, aside.lastStartTime,
    same, congrFun aside.bytes p, aside.received, aside.lastByte⟩

theorem Untouched.trans (first : Untouched s t p) (second : Untouched t u p) : Untouched s u p where
  rxPkt := second.rxPkt
  rxIndex := second.rxIndex.trans first.rxIndex
  lastStartTime := second.lastStartTime.trans first.lastStartTime
  packet := second.packet.trans first.packet
  bytes := second.bytes.trans first.bytes
  received := second.received.trans first.received
  lastByte := second.lastByte.trans first.lastByte

theorem Untouched.position (same : Untouched s u p) :
    rxPosition u timestamp = rxPosition s timestamp := by
  have timedOut : TimedOut u timestamp ↔ TimedOut s timestamp := by
    unfold TimedOut
    rw [same.lastStartTime]
  unfold rxPosition
  by_cases out : TimedOut s timestamp
  · rw [checkTimeout_of_timedOut out, checkTimeout_of_timedOut (timedOut.mpr out)]
  · rw [checkTimeout_of_not out, checkTimeout_of_not (mt timedOut.mp out)]
    exact same.rxIndex

theorem untouched_run (kept : Kept handlers B s) (installed : s.rxPkt = some p)
    (run : Run (step packetMaxSize handlers) NoByte s u) :
    Kept handlers B u ∧ Untouched s u p := by
  induction run with
  | start => exact ⟨kept, installed, rfl, rfl, rfl, rfl, rfl, rfl⟩
  | @next t u a _ quiet hstep ih =>
    have change := (step_change hstep).2
    exact ⟨kept_change ih.1 quiet.lengthBytes change,
      ih.2.trans (untouched_change ih.1.once ih.2.rxPkt quiet change)⟩

def Recent (s : Serial) : Prop :=
  s.rxIndex ≠ 0 → s.lastStartTime ≠ 0 → ∃ last, s.ghost.lastByte = some last ∧
    (last - s.lastStartTime).toNat ≤ softTimerMsToTicks 100

theorem not_timedOut_of_position (nonzero : rxPosition s timestamp ≠ 0) :
    ¬TimedOut s timestamp := by
  intro out
  unfold rxPosition at nonzero
  rw [checkTimeout_of_timedOut out] at nonzero
  exact nonzero rfl

theorem recent_change (recent : Recent s) (c : Change packetMaxSize handlers s a u) : Recent u := by
  rcases quiet_or_byte s a with quiet | ⟨timestamp, x, rfl⟩
  · have aside := aside_change quiet c
    unfold Recent
    rwa [aside.rxIndex, aside.lastStartTime, aside.lastByte]
  · cases c with
    | ignored | frame => exact fun nonzero => absurd rfl nonzero
    | skipped _ _ p installed zero => exact fun nonzero => absurd zero nonzero
    | byte _ _ p installed =>
      intro _ started
      refine ⟨timestamp, rfl, ?_⟩
      change (timestamp -
        if rxPosition s timestamp = 0 then timestamp else s.lastStartTime).toNat ≤ _
      by_cases zero : rxPosition s timestamp = 0
      · rw [if_pos zero, UInt32.sub_self]
        exact Nat.zero_le _
      · have inTime := not_timedOut_of_position zero
        have started : s.lastStartTime ≠ 0 := by
          simpa [saved, Serial.noted, zero] using started
        rw [if_neg zero]
        by_contra late
        exact inTime ⟨started, by omega⟩

theorem recent_run {memory}
    (run : Run (step packetMaxSize handlers) (LengthBytes B) (iotlabSerialStart memory) s) :
    Recent s := by
  refine run.invariant_of (Kept handlers B) Recent (fun t run => kept_run run) ?_
    (fun nonzero => absurd rfl nonzero)
  intro t a u kept recent _ hstep
  exact recent_change recent (step_change hstep).2

/-- After a gap of more than the timeout the next byte is taken as the first one of a frame,
if the frame in progress has a start time. -/
theorem resynchronised (recent : Recent s) (started : s.rxIndex ≠ 0 → s.lastStartTime ≠ 0)
    (gap : ∀ last, s.ghost.lastByte = some last →
      softTimerMsToTicks 100 < (timestamp - last).toNat ∧ (timestamp - last).toNat < 2 ^ 31) :
    rxPosition s timestamp = 0 := by
  by_contra nonzero
  have index := rxPosition_eq nonzero
  rw [index] at nonzero
  obtain ⟨last, eq, near⟩ := recent nonzero (started nonzero)
  obtain ⟨long, short⟩ := gap last eq
  have inTime : ¬TimedOut s timestamp := not_timedOut_of_position (by rwa [index])
  refine inTime ⟨started nonzero, ?_⟩
  have sum : timestamp - s.lastStartTime = (timestamp - last) + (last - s.lastStartTime) := by
    grind
  rw [sum, UInt32.toNat_add]
  omega

/-- The bytes `done` of a frame of `total` bytes have been received, the first one at
`start`; `received` are the frames before it. -/
structure Progress (s : Serial) (p : PktId) (start : UInt32) (done : List Stamped) (total : Nat)
    (received : List (List Stamped)) : Prop where
  rxPkt : s.rxPkt = some p
  rxIndex : s.rxIndex.toNat = done.length
  lastStartTime : s.lastStartTime = start
  bytes : s.ghost.bytes p = done
  length : 2 ≤ done.length → (s.packet p).length.toNat = total
  received : s.ghost.received = received

/-- The frame is complete and waits for `packet_received`. -/
structure Finished (s : Serial) (p : PktId) (frame : List Stamped)
    (received : List (List Stamped)) : Prop where
  readyPkt : s.readyPkt = some p
  bytes : s.ghost.bytes p = frame
  received : s.ghost.received = frame :: received
  irq : s.irq = true

variable {start : UInt32} {done : List Stamped} {total : Nat} {received : List (List Stamped)}

theorem Progress.untouched (h : Progress s p start done total received) (same : Untouched s u p) :
    Progress u p start done total received where
  rxPkt := same.rxPkt
  rxIndex := by rw [same.rxIndex]; exact h.rxIndex
  lastStartTime := same.lastStartTime.trans h.lastStartTime
  bytes := same.bytes.trans h.bytes
  length two := by rw [same.packet]; exact h.length two
  received := same.received.trans h.received

theorem saved_change (installed : s.rxPkt = some p)
    (sync : rxPosition s timestamp = 0 → c = syncByte)
    (change : Change packetMaxSize handlers s (.charRx timestamp c) u) :
    u = (saved packetMaxSize s p timestamp c).noted timestamp ∧ ¬Last s p timestamp c ∨
      u = (switchBuffers (saved packetMaxSize s p timestamp c) p).noted timestamp ∧
        Last s p timestamp c := by
  cases change with
  | ignored _ _ free => rw [installed] at free; cases free
  | skipped _ _ q _ zero other => exact absurd (sync zero) other
  | byte _ _ q installed' _ last =>
    obtain rfl : p = q := Option.some.inj (installed.symm.trans installed')
    exact .inl ⟨rfl, last⟩
  | frame _ _ q installed' _ last =>
    obtain rfl : p = q := Option.some.inj (installed.symm.trans installed')
    exact .inr ⟨rfl, last⟩

theorem progress_first (kept : Kept handlers B s) (installed : s.rxPkt = some p)
    (zero : rxPosition s timestamp = 0)
    (change : Change packetMaxSize handlers s (.charRx timestamp syncByte) u) :
    Progress u p timestamp [(timestamp, syncByte)] total s.ghost.received := by
  have position : Begun B (s.packet p) (s.ghost.bytes p) (rxPosition s timestamp) :=
    (kept.begun p installed).at_position
  have notLast : ¬Last s p timestamp syncByte := by
    rw [last_iff packetMaxSize position, zero]
    exact fun last => absurd last.1 (by decide)
  rcases saved_change installed (fun _ => rfl) change with ⟨rfl, -⟩ | ⟨-, last⟩
  · refine ⟨installed, ?_, ?_, ?_, fun two => absurd two (by simp), rfl⟩
    · simp [saved, Serial.noted, zero]
    · simp [saved, Serial.noted, zero]
    · simp [saved, Serial.noted, zero]
  · exact absurd last notLast

theorem progress_next (kept : Kept handlers B s) (h : Progress s p start done total received)
    (nonempty : 1 ≤ done.length) (inTime : (timestamp - start).toNat ≤ softTimerMsToTicks 100)
    (second : done.length = 1 → total = 2 + c.toNat)
    (change : Change packetMaxSize handlers s (.charRx timestamp c) u) :
    if done.length + 1 = total then Finished u p (done ++ [(timestamp, c)]) received
    else Progress u p start (done ++ [(timestamp, c)]) total received := by
  have running : ¬TimedOut s timestamp := by
    rintro ⟨-, late⟩
    rw [h.lastStartTime] at late
    omega
  have index : rxPosition s timestamp = s.rxIndex := by
    unfold rxPosition
    rw [checkTimeout_of_not running]
  have toNat : (rxPosition s timestamp).toNat = done.length := by rw [index, h.rxIndex]
  have nonzero : rxPosition s timestamp ≠ 0 := by
    intro zero
    rw [zero] at toNat
    change 0 = done.length at toNat
    omega
  have one : rxPosition s timestamp = 1 ↔ done.length = 1 := by
    rw [← toNat, ← UInt16.toNat_inj]
    rfl
  have position : Begun B (s.packet p) (s.ghost.bytes p) (rxPosition s timestamp) :=
    (kept.begun p h.rxPkt).at_position
  have length : ((saved packetMaxSize s p timestamp c).packet p).length.toNat = total := by
    simp only [saved, update_self]
    split
    · rw [announced_length, second (one.mp ‹_›)]
    · have : done.length ≠ 1 := mt one.mpr ‹_›
      exact h.length (by omega)
  have last : Last s p timestamp c ↔ done.length + 1 = total := by
    rw [last_iff packetMaxSize position, length, toNat]
    omega
  have bytes : (saved packetMaxSize s p timestamp c).ghost.bytes p = done ++ [(timestamp, c)] := by
    simp [saved, nonzero, h.bytes]
  rcases saved_change h.rxPkt (fun zero => absurd zero nonzero) change with
    ⟨rfl, notLast⟩ | ⟨rfl, isLast⟩
  · rw [if_neg (mt last.mpr notLast)]
    refine ⟨h.rxPkt, ?_, ?_, bytes, fun _ => length, h.received⟩
    · change (rxPosition s timestamp + 1).toNat = _
      rw [position.toNat_succ, toNat, length_append]
      rfl
    · change (if rxPosition s timestamp = 0 then timestamp else s.lastStartTime) = start
      rw [if_neg nonzero, h.lastStartTime]
  · rw [if_pos (last.mp isLast)]
    refine ⟨rfl, bytes, ?_, rfl⟩
    change (saved packetMaxSize s p timestamp c).ghost.bytes p :: s.ghost.received = _
    rw [bytes, h.received]

theorem progress_receives {rest} (receives : Receives packetMaxSize handlers s rest u)
    (two : 2 ≤ packetMaxSize) (bound : ∀ c, B c → c.toNat + 2 ≤ packetMaxSize)
    (kept : Kept handlers B s) (h : Progress s p start done total received)
    (nonempty : 1 ≤ done.length) (more : rest ≠ []) (sum : done.length + rest.length = total)
    (inTime : ∀ b ∈ rest, (b.1 - start).toNat ≤ softTimerMsToTicks 100)
    (second : done.length = 1 → ∀ b, rest.head? = some b → total = 2 + b.2.toNat ∧ B b.2) :
    Finished u p (done ++ rest) received ∧ Kept handlers B u ∧ u.overrun = false := by
  induction receives generalizing done with
  | nil => exact absurd rfl more
  | @byte s t u v timestamp c rest quiet hstep tail ih =>
    obtain ⟨keptT, same⟩ := untouched_run kept h.rxPkt quiet
    have ht := h.untouched same
    obtain ⟨safe, change⟩ := step_change hstep
    have known : LengthBytes B t (.charRx timestamp c) := by
      intro _ one
      have index := rxPosition_eq (by rw [one]; decide : rxPosition t timestamp ≠ 0)
      have length := ht.rxIndex
      rw [← index, one] at length
      exact (second length.symm _ rfl).2
    have keptU := kept_change keptT known change
    have now : (timestamp - start).toNat ≤ softTimerMsToTicks 100 :=
      inTime (timestamp, c) mem_cons_self
    have announced : done.length = 1 → total = 2 + c.toNat := fun one => (second one _ rfl).1
    have next := progress_next keptT ht nonempty now announced change
    rw [length_cons] at sum
    by_cases last : done.length + 1 = total
    · obtain rfl : rest = [] := length_eq_zero_iff.mp (by omega)
      cases tail
      rw [if_pos last] at next
      exact ⟨next, keptU, overrun_change keptT two bound safe change⟩
    · rw [if_neg last] at next
      have longer : (done ++ [(timestamp, c)]).length = done.length + 1 := length_append
      have := ih keptU next (by omega) (by rintro rfl; simp at sum; omega) (by omega)
        (fun b mem => inTime b (mem_cons_of_mem _ mem)) (fun one => by omega)
      rwa [append_assoc] at this

def callFor (handlers : List Handler) (s : Serial) (p : PktId) : Call :=
  let pkt := { s.packet p with length := (s.packet p).length - 3 }
  ⟨(s.packet p).rawData 2, iotlabSerialGetHandler handlers ((s.packet p).rawData 2), pkt.length,
    pkt.payload, s.ghost.bytes p⟩

/-- The packet `p` waits in `ready_pkt`, with the content and the calls of `s`. -/
structure Pending (s u : Serial) (p : PktId) : Prop where
  readyPkt : u.readyPkt = some p
  app : ∀ q, u.app = .taken q → q = p
  packet : u.packet p = s.packet p
  bytes : u.ghost.bytes p = s.ghost.bytes p
  calls : u.ghost.calls = s.ghost.calls

structure Called (handlers : List Handler) (s u : Serial) (p : PktId) : Prop where
  readyPkt : u.readyPkt = none
  app : ∀ q, u.app ≠ .taken q
  calls : u.ghost.calls = callFor handlers s p :: s.ghost.calls

theorem Pending.keep (h : Pending s u p) (ready : v.readyPkt = u.readyPkt)
    (app : ∀ q, v.app = .taken q → q = p) (packet : v.packet p = u.packet p)
    (ghost : v.ghost.bytes = u.ghost.bytes ∧ v.ghost.calls = u.ghost.calls) :
    Pending s v p where
  readyPkt := ready.trans h.readyPkt
  app := app
  packet := packet.trans h.packet
  bytes := by rw [ghost.1]; exact h.bytes
  calls := ghost.2.trans h.calls

theorem pending_change (once : Once u) (h : Pending s u p) (quiet : NoByte u a)
    (c : Change packetMaxSize handlers u a v) : Pending s v p ∨ Called handlers s v p := by
  cases c with
  | ignored | skipped | byte | frame => exact quiet.elim
  | call q taken =>
    obtain rfl := h.app q taken
    refine .inr ⟨rfl, nofun, ?_⟩
    change callFor handlers u q :: u.ghost.calls = _
    unfold callFor
    rw [h.packet, h.bytes, h.calls]
  | take q idle events ready =>
    refine .inl (h.keep rfl (fun q' taken => ?_) rfl ⟨rfl, rfl⟩)
    obtain rfl : q = q' := App.taken.inj taken
    exact Option.some.inj (ready.symm.trans h.readyPkt)
  | install q rest irq isr free queue =>
    have other := once.away (.inl (queue ▸ mem_cons_self : q ∈ u.queue))
      (.inr (.inl h.readyPkt))
    exact .inl (h.keep rfl h.app (update_of_ne other _ _) ⟨rfl, rfl⟩)
  | idleHook =>
    unfold idleHookUart
    split <;> exact .inl (h.keep rfl h.app rfl ⟨rfl, rfl⟩)
  | result q cmdType result rawData length handling =>
    obtain ⟨pkt, fifo, eq, -⟩ := receivedResult_eq packetMaxSize u q cmdType result rawData length
    have other : p ≠ q := by
      rintro rfl
      exact (once.handling_apart handling).2 h.readyPkt
    rw [eq]
    exact .inl (h.keep rfl nofun (update_of_ne other _ _) ⟨rfl, rfl⟩)
  | start out rest now idle fifo =>
    have apart := once.start_apart fifo (.inr (.inl h.readyPkt))
    unfold txStart
    split
    case h_1 => exact .inl (h.keep rfl h.app rfl ⟨rfl, rfl⟩)
    case h_2 q packet =>
      have other : p ≠ q := fun same => apart (by rw [packet, same])
      exact .inl (h.keep rfl h.app (update_of_ne other _ _) ⟨rfl, rfl⟩)
  | free out done sending =>
    have apart := once.free_apart sending (.inr (.inl h.readyPkt))
    unfold txFree
    split
    case h_1 => exact .inl (h.keep rfl h.app rfl ⟨rfl, rfl⟩)
    case h_2 q packet =>
      have other : p ≠ q := fun same => apart (by rw [packet, same])
      exact .inl (h.keep rfl h.app (update_of_ne other _ _) ⟨rfl, rfl⟩)
  | noInstall | post | give | takeNone | sendFrame | done =>
    exact .inl (h.keep rfl h.app rfl ⟨rfl, rfl⟩)

theorem called_change (h : Called handlers s u p) (quiet : NoByte u a)
    (c : Change packetMaxSize handlers u a v) : Called handlers s v p := by
  cases c with
  | ignored | skipped | byte | frame => exact quiet.elim
  | call q taken => exact absurd taken (h.app q)
  | take q idle events ready =>
    rw [h.readyPkt] at ready
    cases ready
  | idleHook =>
    unfold idleHookUart
    split <;> exact ⟨h.readyPkt, h.app, h.calls⟩
  | result q cmdType result rawData length =>
    obtain ⟨pkt, fifo, eq, -⟩ := receivedResult_eq packetMaxSize u q cmdType result rawData length
    rw [eq]
    exact ⟨h.readyPkt, nofun, h.calls⟩
  | start out rest now =>
    unfold txStart
    split <;> exact ⟨h.readyPkt, h.app, h.calls⟩
  | free out =>
    unfold txFree
    split <;> exact ⟨h.readyPkt, h.app, h.calls⟩
  | install | noInstall | post | give | takeNone | sendFrame | done =>
    exact ⟨h.readyPkt, h.app, h.calls⟩

theorem delivery_run (once : Once s) (ready : s.readyPkt = some p) (apart : ∀ q, s.app ≠ .taken q)
    (run : Run (step packetMaxSize handlers) NoByte s u) :
    Once u ∧ (Pending s u p ∨ Called handlers s u p) := by
  refine run.invariant (fun u => Once u ∧ (Pending s u p ∨ Called handlers s u p)) ?_
    ⟨once, .inl ⟨ready, fun q taken => absurd taken (apart q), rfl, rfl, rfl⟩⟩
  rintro t a u ⟨once, pending | called⟩ quiet hstep
  · have change := (step_change hstep).2
    exact ⟨once_change once change, pending_change once pending quiet change⟩
  · have change := (step_change hstep).2
    exact ⟨once_change once change, .inr (called_change called quiet change)⟩

theorem step_eq (safe : s.overrun = false) :
    step packetMaxSize handlers s a = act packetMaxSize handlers s a := by
  unfold step
  rw [if_neg (by simp [safe])]

section Delivered

variable (packetMaxSize handlers)

structure Alike (s u : Serial) : Prop where
  safe : u.overrun = false
  readyPkt : u.readyPkt = s.readyPkt
  app : u.app = s.app

theorem isr_ends (safe : s.overrun = false) : ∃ u, Run (step packetMaxSize handlers) NoByte s u ∧
    u.isr = .idle ∧ u.irq = s.irq ∧ Alike s u := by
  cases place : s.isr with
  | idle => exact ⟨s, .start, place, rfl, safe, rfl, rfl⟩
  | allocated =>
    have post : step packetMaxSize handlers s (.checkPost true) = some (checkPost s true) := by
      rw [step_eq safe]
      exact if_pos place
    have give : step packetMaxSize handlers (checkPost s true) .checkGive =
        some (checkGive (checkPost s true)) := step_eq safe
    exact ⟨_, .next .checkGive (.next (.checkPost true) .start trivial post) trivial give, rfl, rfl,
      safe, rfl, rfl⟩
  | posted =>
    have give : step packetMaxSize handlers s .checkGive = some (checkGive s) := by
      rw [step_eq safe]
      exact if_pos place
    exact ⟨_, .next .checkGive .start trivial give, rfl, rfl, safe, rfl, rfl⟩

theorem event_posted (safe : s.overrun = false) (irq : s.irq = true) (ready : s.readyPkt = some p) :
    ∃ u, Run (step packetMaxSize handlers) NoByte s u ∧ 0 < u.events ∧ Alike s u := by
  obtain ⟨t, run, idle, irqT, alike⟩ := isr_ends packetMaxSize handlers safe
  let t' : Serial := { allocateRxPacket t with irq := false, isr := .allocated }
  have allocate : step packetMaxSize handlers t .checkAllocate = some t' := by
    rw [step_eq alike.safe]
    exact if_pos ⟨irqT.trans irq, idle⟩
  have alike' : Alike s t' := by
    refine ⟨?_, ?_, ?_⟩ <;> unfold t' allocateRxPacket <;> split
    · exact alike.safe
    · exact alike.safe
    · exact alike.readyPkt
    · exact alike.readyPkt
    · exact alike.app
    · exact alike.app
  have post : step packetMaxSize handlers t' (.checkPost true) = some (checkPost t' true) := by
    rw [step_eq alike'.safe]
    rfl
  refine ⟨_, .next (.checkPost true) (.next .checkAllocate run trivial allocate) trivial post, ?_,
    alike'.safe, alike'.readyPkt, alike'.app⟩
  simp [checkPost, alike'.readyPkt, ready]

theorem handler_returns (safe : s.overrun = false) (apart : ∀ q, s.app ≠ .taken q) :
    ∃ u, Run (step packetMaxSize handlers) NoByte s u ∧ u.app = .idle ∧ u.overrun = false ∧
      u.readyPkt = s.readyPkt ∧ u.events = s.events := by
  cases place : s.app with
  | idle => exact ⟨s, .start, place, safe, rfl, rfl⟩
  | taken q => exact absurd place (apart q)
  | handling q cmdType =>
    obtain ⟨pkt, fifo, eq, -⟩ := receivedResult_eq packetMaxSize s q cmdType 0 (fun _ => 0) 0
    have result : step packetMaxSize handlers s (.receivedResult 0 (fun _ => 0) 0) =
        some (receivedResult packetMaxSize s q cmdType 0 (fun _ => 0) 0) := by
      rw [step_eq safe]
      simp [act, place]
    refine ⟨_, .next (.receivedResult 0 (fun _ => 0) 0) .start trivial result, ?_⟩
    rw [eq]
    exact ⟨rfl, safe, rfl, rfl⟩

theorem can_take (safe : s.overrun = false) (irq : s.irq = true) (ready : s.readyPkt = some p)
    (apart : ∀ q, s.app ≠ .taken q) :
    ∃ u, Run (step packetMaxSize handlers) NoByte s u ∧ u.overrun = false ∧ u.app = .taken p := by
  obtain ⟨t, run, event, alike⟩ := event_posted packetMaxSize handlers safe irq ready
  obtain ⟨t', run', idle, safe', ready', events'⟩ := handler_returns packetMaxSize
    handlers alike.safe (alike.app ▸ apart)
  have take : step packetMaxSize handlers t' .receivedTake = some (receivedTake t') := by
    rw [step_eq safe']
    exact if_pos ⟨idle, by omega⟩
  refine ⟨_, .next .receivedTake (run.trans run') trivial take, safe', ?_⟩
  simp [receivedTake, ready', alike.readyPkt, ready]

theorem can_deliver (once : Once s) (safe : s.overrun = false) (irq : s.irq = true)
    (ready : s.readyPkt = some p) (apart : ∀ q, s.app ≠ .taken q) :
    ∃ u, Run (step packetMaxSize handlers) NoByte s u ∧
      u.ghost.calls = callFor handlers s p :: s.ghost.calls := by
  obtain ⟨t, run, safeT, taken⟩ := can_take packetMaxSize handlers safe irq ready apart
  have call : step packetMaxSize handlers t .receivedCall = some (receivedCall handlers t p) := by
    rw [step_eq safeT]
    simp [act, taken]
  have run' : Run (step packetMaxSize handlers) NoByte s (receivedCall handlers t p) :=
    .next .receivedCall run trivial call
  rcases (delivery_run once ready apart run').2 with pending | called
  · cases pending.readyPkt
  · exact ⟨_, run', called.calls⟩

end Delivered

def LastStamp (s : Serial) : Prop := ∀ p, s.rxPkt = some p → s.rxIndex ≠ 0 →
  ∃ b, (s.ghost.bytes p).getLast? = some b ∧ s.ghost.lastByte = some b.1

theorem lastStamp_change (h : LastStamp s) (kept : Kept handlers B s)
    (c : Change packetMaxSize handlers s a u) : LastStamp u := by
  rcases quiet_or_byte s a with quiet | ⟨timestamp, x, rfl⟩
  · have aside := aside_change quiet c
    intro p installed nonzero
    rw [aside.rxIndex] at nonzero
    rw [aside.bytes, aside.lastByte]
    refine h p ?_ nonzero
    rw [← aside.rxPkt fun free => nonzero (kept.index free)]
    exact installed
  · cases c with
    | ignored => exact fun _ _ nonzero => absurd rfl nonzero
    | skipped _ _ p installed zero => exact fun _ _ nonzero => absurd zero nonzero
    | byte _ _ p installed =>
      intro q installed' _
      obtain rfl : p = q := Option.some.inj (installed.symm.trans installed')
      exact ⟨(timestamp, x), by simp [saved, Serial.noted], rfl⟩
    | frame =>
      rintro q ⟨⟩

theorem lastStamp_run {memory}
    (run : Run (step packetMaxSize handlers) (LengthBytes B) (iotlabSerialStart memory) s) :
    LastStamp s := by
  refine run.invariant_of (Kept handlers B) LastStamp (fun t run => kept_run run) ?_
    (fun _ _ nonzero => absurd rfl nonzero)
  intro t a u kept h _ hstep
  exact lastStamp_change h kept (step_change hstep).2

/-- The bytes `old` are at the start of the frame in progress, which has no start time, or
of a frame that was received after the frames `base`. -/
def Misframed (old : List Stamped) (base : List (List Stamped)) (s : Serial) : Prop :=
  (s.ghost.received = base ∧ ∃ p extra, s.rxPkt = some p ∧ s.rxIndex ≠ 0 ∧
      s.lastStartTime = 0 ∧ s.ghost.bytes p = old ++ extra) ∨
    ∃ later extra, s.ghost.received = later ++ (old ++ extra) :: base

variable {old : List Stamped} {base : List (List Stamped)}

theorem received_change (c : Change packetMaxSize handlers s a u) :
    u.ghost.received = s.ghost.received ∨ ∃ x, u.ghost.received = x :: s.ghost.received := by
  rcases quiet_or_byte s a with quiet | ⟨timestamp, x, rfl⟩
  · exact .inl (aside_change quiet c).received
  · cases c with
    | skipped =>
      unfold checkTimeout
      split <;> exact .inl rfl
    | frame => exact .inr ⟨_, rfl⟩
    | ignored | byte => exact .inl rfl

theorem misframed_byte (kept : Kept handlers B s) (h : Misframed old base s)
    (c' : Change packetMaxSize handlers s (.charRx timestamp c) u) : Misframed old base u := by
  rcases h with ⟨received, p, extra, installed, index, started, bytes⟩ | ⟨later, extra, received⟩
  · have running : ¬TimedOut s timestamp := fun out => out.1 started
    have same : rxPosition s timestamp = s.rxIndex := by
      unfold rxPosition
      rw [checkTimeout_of_not running]
    have nonzero : rxPosition s timestamp ≠ 0 := by rwa [same]
    have position : Begun B (s.packet p) (s.ghost.bytes p) (rxPosition s timestamp) :=
      (kept.begun p installed).at_position
    have bytes' : (saved packetMaxSize s p timestamp c).ghost.bytes p =
        old ++ (extra ++ [(timestamp, c)]) := by
      simp [saved, nonzero, bytes]
    rcases saved_change installed (fun zero => absurd zero nonzero) c' with ⟨rfl, -⟩ | ⟨rfl, -⟩
    · refine .inl ⟨received, p, _, installed, ?_, ?_, bytes'⟩
      · intro zero
        have succ := position.toNat_succ
        rw [show rxPosition s timestamp + 1 = 0 from zero] at succ
        exact absurd succ (by simp)
      · change (if rxPosition s timestamp = 0 then timestamp else s.lastStartTime) = 0
        rw [if_neg nonzero, started]
    · refine .inr ⟨[], extra ++ [(timestamp, c)], ?_⟩
      rw [nil_append, ← bytes', ← received]
      rfl
  · rcases received_change c' with eq | ⟨x, eq⟩
    · exact .inr ⟨later, extra, eq.trans received⟩
    · exact .inr ⟨x :: later, extra, by rw [eq, received, cons_append]⟩

theorem misframed_quiet (kept : Kept handlers B s) (h : Misframed old base s) (quiet : NoByte s a)
    (c : Change packetMaxSize handlers s a u) : Misframed old base u := by
  rcases h with ⟨received, p, extra, installed, index, started, bytes⟩ | ⟨later, extra, received⟩
  · have same := untouched_change kept.once installed quiet c
    exact .inl ⟨same.received.trans received, p, extra, same.rxPkt, by rwa [same.rxIndex],
      same.lastStartTime.trans started, same.bytes.trans bytes⟩
  · rcases received_change c with eq | ⟨x, eq⟩
    · exact .inr ⟨later, extra, eq.trans received⟩
    · exact .inr ⟨x :: later, extra, by rw [eq, received, cons_append]⟩

theorem misframed_receives {bytes}
    (receives : Receives packetMaxSize handlers s bytes u)
    (kept : Kept handlers (fun _ => True) s) (h : Misframed old base s) : Misframed old base u := by
  induction receives with
  | nil => exact h
  | @byte s t u v timestamp c rest quiet hstep _ ih =>
    have between : Kept handlers (fun _ => True) t ∧ Misframed old base t := by
      refine quiet.invariant (fun t => Kept handlers (fun _ => True) t ∧ Misframed old base t) ?_
        ⟨kept, h⟩
      rintro t a u ⟨kept, h⟩ quiet hstep
      have change := (step_change hstep).2
      exact ⟨kept_change kept (lengthBytes_true t a) change, misframed_quiet kept h quiet change⟩
    have change := (step_change hstep).2
    exact ih (kept_change between.1 (lengthBytes_true t _) change)
      (misframed_byte between.1 between.2 change)

section RoundTrip

variable {first : Stamped} {rest : List Stamped}

theorem stamp_ne {first last stamp : UInt32}
    (inTime : (stamp - first).toNat ≤ softTimerMsToTicks 100)
    (gap : softTimerMsToTicks 100 < (first - last).toNat ∧ (first - last).toNat < 2 ^ 31) :
    stamp ≠ last := by
  rintro rfl
  have sum : ((first - stamp) + (stamp - first)).toNat = 0 := by
    have : (first - stamp) + (stamp - first) = 0 := by grind
    rw [this]
    rfl
  rw [UInt32.toNat_add] at sum
  omega

theorem not_received_of_misframed (kept : Kept handlers (fun _ => True) s) (stamps : LastStamp s)
    (installed : s.rxPkt = some p) (index : s.rxIndex ≠ 0) (started : s.lastStartTime = 0)
    (inTime : ∀ b ∈ rest, (b.1 - first.1).toNat ≤ softTimerMsToTicks 100)
    (gap : ∀ last, s.ghost.lastByte = some last →
      softTimerMsToTicks 100 < (first.1 - last).toNat ∧ (first.1 - last).toNat < 2 ^ 31)
    (receives : Receives packetMaxSize handlers s (first :: rest) u) :
    u.ghost.received ≠ (first :: rest) :: s.ghost.received := by
  obtain ⟨b, isLast, stamp⟩ := stamps p installed index
  have here : Misframed (s.ghost.bytes p) s.ghost.received s :=
    .inl ⟨rfl, p, [], installed, index, started, (append_nil _).symm⟩
  intro eq
  rcases misframed_receives receives kept here with ⟨same, -⟩ | ⟨later, extra, received⟩
  · have := congrArg length (eq.symm.trans same)
    simp at this
  · have all := eq.symm.trans received
    have none_ : later = [] := by
      have := congrArg length all
      simp only [length_cons, length_append] at this
      exact length_eq_zero_iff.mp (by omega)
    subst none_
    have frame : first :: rest = s.ghost.bytes p ++ extra := (cons.inj all).1
    have mem : b ∈ first :: rest := by
      rw [frame]
      exact mem_append_left _ (mem_of_getLast? isLast)
    have near : (b.1 - first.1).toNat ≤ softTimerMsToTicks 100 := by
      rcases mem_cons.mp mem with rfl | mem
      · rw [UInt32.sub_self]
        exact Nat.zero_le _
      · exact inTime b mem
    exact stamp_ne near (gap b.1 stamp) rfl

theorem callFor_frame {type length} {payload} (kept : Kept handlers B s)
    (ready : s.readyPkt = some p)
    (bytes : (s.ghost.bytes p).map Prod.snd = syncByte :: length :: type :: payload) :
    (callFor handlers s p).cmdType = type ∧
      (callFor handlers s p).handler = iotlabSerialGetHandler handlers type ∧
      (callFor handlers s p).payload = payload := by
  obtain ⟨filled, c, -, eq⟩ := kept.whole p (.inl ready)
  have offset := kept.offset p (.inr (.inl ready))
  have of : (callFor handlers s p).Of handlers (s.packet p).rawData (2 + c.toUInt16) := by
    rw [← eq]
    exact ⟨filled, rfl, rfl, rfl, by simp [callFor, Packet.payload, offset]⟩
  have size : 3 ≤ 2 + c.toNat := by
    have := congrArg List.length (filled.symm.trans bytes)
    rw [length_map, length_range, eq, announced_length] at this
    simp only [length_cons] at this
    omega
  obtain ⟨-, cmdType, payload'⟩ := of.from_frame (by omega)
  change ((s.ghost.bytes p).map Prod.snd)[2]? = _ at cmdType
  change _ = ((s.ghost.bytes p).map Prod.snd).drop 3 at payload'
  rw [bytes] at cmdType payload'
  obtain rfl : type = (callFor handlers s p).cmdType := Option.some.inj cmdType
  exact ⟨rfl, of.handler, payload'⟩

theorem frame_finished {type length} {payload}
    (two : 2 ≤ packetMaxSize) (bound : ∀ c, B c → c.toNat + 2 ≤ packetMaxSize)
    (kept : Kept handlers B s) (installed : s.rxPkt = some p) (zero : rxPosition s first.1 = 0)
    (bytes : (first :: rest).map Prod.snd = syncByte :: length :: type :: payload)
    (announced : length.toNat = payload.length + 1) (fits : B length)
    (inTime : ∀ b ∈ rest, (b.1 - first.1).toNat ≤ softTimerMsToTicks 100)
    (receives : Receives packetMaxSize handlers s (first :: rest) u) :
    Finished u p (first :: rest) s.ghost.received ∧ Kept handlers B u ∧ u.overrun = false := by
  obtain ⟨sync, rest_⟩ := cons.inj bytes
  obtain ⟨start, c⟩ := first
  obtain rfl : c = syncByte := sync
  have more : rest.length = payload.length + 2 := by
    have := congrArg List.length rest_
    simpa using this
  cases receives with
  | @byte _ t u' _ _ _ _ quiet hstep tail =>
    obtain ⟨keptT, same⟩ := untouched_run kept installed quiet
    have change := (step_change hstep).2
    have zero' : rxPosition t start = 0 := same.position.trans zero
    have progress : Progress u' p start [(start, syncByte)] (payload.length + 3)
        t.ghost.received := progress_first keptT same.rxPkt zero' change
    rw [same.received] at progress
    have known : LengthBytes B t (.charRx start syncByte) :=
      fun _ one => absurd (zero'.symm.trans one) (by decide)
    have keptU := kept_change keptT known change
    refine progress_receives tail two bound keptU progress le_rfl (by rintro rfl; simp at more)
      (by rw [length_singleton]; omega) inTime (fun _ b head => ?_)
    obtain ⟨l, rfl⟩ : ∃ l, rest = b :: l := ⟨_, eq_cons_of_mem_head? head⟩
    obtain ⟨eq, -⟩ := cons.inj rest_
    rw [eq]
    exact ⟨by omega, fits⟩

/-- The bytes of a sent frame arrive in time, after any bytes that are older than the
timeout of the receiver. They are received as exactly one frame if and only if the frame in
progress, if any, has a start time; and then the handler is called once with the data that
was sent, unless `packet_received` is between its two statements when the last byte
arrives. -/
theorem frame_delivered (memory : PktId → Packet) (size : iotlabSerialHeaderSize ≤ packetMaxSize)
    (run : Run (step packetMaxSize handlers) (LengthBytes fun c => c.toNat + 2 ≤ packetMaxSize)
      (iotlabSerialStart memory) s)
    (installed : s.rxPkt ≠ none) (type : UInt8) (pkt : Packet)
    (offset : pkt.offset = iotlabSerialHeaderSize)
    (small : pkt.length.toNat ≤ iotlabSerialDataMaxSize packetMaxSize)
    (bytes : (first :: rest).map Prod.snd =
      (iotlabSerialInitTxPacket packetMaxSize type pkt).2.wire)
    (inTime : ∀ b ∈ rest, (b.1 - first.1).toNat ≤ softTimerMsToTicks 100)
    (gap : ∀ last, s.ghost.lastByte = some last →
      softTimerMsToTicks 100 < (first.1 - last).toNat ∧ (first.1 - last).toNat < 2 ^ 31)
    (receives : Receives packetMaxSize handlers s (first :: rest) u) :
    (u.ghost.received = (first :: rest) :: s.ghost.received ↔
      (s.rxIndex ≠ 0 → s.lastStartTime ≠ 0)) ∧
    ((s.rxIndex ≠ 0 → s.lastStartTime ≠ 0) → (∀ q, u.app ≠ .taken q) →
      ∃ call : Call, call.cmdType = type ∧ call.handler = iotlabSerialGetHandler handlers type ∧
        call.payload = pkt.payload ∧ call.frame = first :: rest ∧
        (∀ v, Run (step packetMaxSize handlers) NoByte u v →
          v.readyPkt ≠ none ∧ v.ghost.calls = u.ghost.calls ∨
            v.ghost.calls = call :: u.ghost.calls) ∧
        ∃ v, Run (step packetMaxSize handlers) NoByte u v ∧
          v.ghost.calls = call :: u.ghost.calls) := by
  obtain ⟨p, installed⟩ := Option.ne_none_iff_exists'.mp installed
  unfold iotlabSerialHeaderSize at size
  rw [initTxPacket_eq type offset small] at bytes
  have limits : pkt.length.toNat ≤ 254 ∧ pkt.length.toNat + 3 ≤ packetMaxSize := by
    unfold iotlabSerialDataMaxSize payloadMax iotlabSerialHeaderSize at small
    split at small <;> omega
  rw [wire_setHeader type offset limits.1] at bytes
  have announced : (pkt.length.toUInt8 + 1).toNat = pkt.payload.length + 1 := by
    simp [Packet.payload, UInt8.toNat_add]
    omega
  have finish : (s.rxIndex ≠ 0 → s.lastStartTime ≠ 0) →
      Finished u p (first :: rest) s.ghost.received ∧
        Kept handlers (fun c => c.toNat + 2 ≤ packetMaxSize) u ∧ u.overrun = false := by
    intro started
    refine frame_finished (by omega) (fun _ fits => fits) (kept_run run) installed
      (resynchronised (recent_run run) started gap) bytes announced ?_ inTime receives
    rw [announced]
    simp only [Packet.payload, length_map, length_range]
    omega
  refine ⟨⟨fun received index start => ?_, fun started => (finish started).1.received⟩, ?_⟩
  · have kept : Kept handlers (fun _ => True) s :=
      kept_run (run.weaken fun t a _ => lengthBytes_true t a)
    exact not_received_of_misframed kept (lastStamp_run run) installed index start inTime gap
      receives received
  · intro started apart
    obtain ⟨finished, kept, safe⟩ := finish started
    have frame := congrArg (map Prod.snd) finished.bytes
    rw [bytes] at frame
    obtain ⟨cmdType, handler, payload⟩ := callFor_frame kept finished.readyPkt frame
    refine ⟨callFor handlers u p, cmdType, handler, payload, finished.bytes, fun v quiet => ?_,
      can_deliver packetMaxSize handlers kept.once safe finished.irq finished.readyPkt apart⟩
    rcases (delivery_run kept.once finished.readyPkt apart quiet).2 with pending | called
    · exact .inl ⟨by simp [pending.readyPkt], pending.calls⟩
    · exact .inr called.calls

end RoundTrip

theorem receives_of_exec {bytes}
    (h : exec (step packetMaxSize handlers) s (bytes.map fun b => .charRx b.1 b.2) = some u) :
    Receives packetMaxSize handlers s bytes u := by
  induction bytes generalizing s with
  | nil =>
    obtain rfl : s = u := by simpa [exec] using h
    exact .nil s
  | cons b rest ih =>
    rw [map_cons, exec] at h
    split at h
    · cases h
    · exact .byte .start ‹_› (ih h)

def seven : Packet := ⟨fun i => if i = 3 then 7 else 0, 1, 3, 0, 0⟩

def sevenBytes : List Stamped := [(4000, 0x80), (4000, 2), (4000, 0x42), (4000, 7)]

theorem frame_delivered_after_sync : ∃ s u,
    Run (step 128 []) (LengthBytes fun c => c.toNat + 2 ≤ 128) (iotlabSerialStart blank) s ∧
      s.rxIndex = 1 ∧ Receives 128 [] s sevenBytes u ∧ u.ghost.received = [sevenBytes] ∧
      ∃ v, Run (step 128 []) NoByte u v ∧ v.ghost.calls.map (·.payload) = [[7]] := by
  have h : ((execIf (step 128 []) (LengthBytes fun c => c.toNat + 2 ≤ 128) (iotlabSerialStart blank)
      [.charRx 10 0x80]).bind fun s => (exec (step 128 []) s
        (sevenBytes.map fun b => .charRx b.1 b.2)).map fun u =>
        ((s.rxPkt.isSome, s.rxIndex, s.lastStartTime, s.ghost.lastByte),
          u.app, u.ghost.calls.length, s.ghost.received.length)) =
      some ((true, 1, 10, some 10), .idle, 0, 0) := by decide +kernel
  obtain ⟨s, hs, h⟩ := Option.bind_eq_some_iff.mp h
  obtain ⟨u, hu, eq⟩ := Option.map_eq_some_iff.mp h
  simp only [Prod.mk.injEq] at eq
  obtain ⟨⟨installed, index, started, last⟩, app, calls, received⟩ := eq
  have run := execIf_run hs
  have receives := receives_of_exec hu
  have inTime : ∀ b ∈ sevenBytes.tail, (b.1 - 4000).toNat ≤ softTimerMsToTicks 100 := by
    simp [sevenBytes]
  have delivered := frame_delivered blank (by decide) run
    (by rw [← Option.isSome_iff_ne_none]; exact installed) 0x42 seven rfl (by decide) rfl
    inTime (fun t eq => by
      obtain rfl : 10 = t := Option.some.inj (last.symm.trans eq)
      decide) receives
  have ok : s.rxIndex ≠ 0 → s.lastStartTime ≠ 0 := fun _ => by rw [started]; decide
  obtain ⟨call, -, -, payload, -, -, v, quiet, called⟩ := delivered.2 ok (by rw [app]; nofun)
  refine ⟨s, u, run, index, receives, ?_, v, quiet, ?_⟩
  · rw [delivered.1.mpr ok, length_eq_zero_iff.mp received]
    rfl
  · rw [called, length_eq_zero_iff.mp calls, map_singleton, payload]
    rfl

/-- The frame that was cut off started at the time 0: the next frame is taken as the rest of
it and is not received. -/
theorem frame_swallowed : ∃ s u,
    Run (step 128 []) (LengthBytes fun c => c.toNat + 2 ≤ 128) (iotlabSerialStart blank) s ∧
      s.rxPkt ≠ none ∧ s.ghost.lastByte = some 0 ∧ Receives 128 [] s sevenBytes u ∧
      u.ghost.received = [] ∧ u.rxIndex = 5 := by
  have h : ((execIf (step 128 []) (LengthBytes fun c => c.toNat + 2 ≤ 128) (iotlabSerialStart blank)
      [.charRx 0 0x80]).bind fun s => (exec (step 128 []) s
        (sevenBytes.map fun b => .charRx b.1 b.2)).map fun u =>
        (s.rxPkt.isSome, s.ghost.lastByte, u.ghost.received.length, u.rxIndex)) =
      some (true, some 0, 0, 5) := by decide +kernel
  obtain ⟨s, hs, h⟩ := Option.bind_eq_some_iff.mp h
  obtain ⟨u, hu, eq⟩ := Option.map_eq_some_iff.mp h
  simp only [Prod.mk.injEq] at eq
  obtain ⟨installed, last, received, index⟩ := eq
  exact ⟨s, u, execIf_run hs, by rw [← Option.isSome_iff_ne_none]; exact installed, last,
    receives_of_exec hu, length_eq_zero_iff.mp received, index⟩

end IotlabSerial
