import OpenLab.IotlabSerial

/-!
# The owners of the rx packets

Each rx packet is in the free queue, in `rx_pkt`, in `ready_pkt`, with `packet_received`, in the
tx fifo or being sent. A step may lose one, but none puts it into a second place.
-/

namespace IotlabSerial

open Schedules PacketQueue List

variable {packetMaxSize : Nat} {handlers : List Handler} {s u : Serial} {a : Action} {p q : PktId}

def App.packet : App → Option PktId
  | .idle => none
  | .taken p | .handling p _ => some p

def Tx.packet : Tx → Option PktId
  | .idle => none
  | .sending out _ => out.packet

def slot (o : Option PktId) (p : PktId) : Nat := if o = some p then 1 else 0

/-- `ready_pkt`, unless `packet_received` has already taken the packet from it. -/
def Serial.readySlot (s : Serial) (p : PktId) : Nat :=
  if s.app = .taken p then 0 else slot s.readyPkt p

def Serial.places (s : Serial) (p : PktId) : Nat :=
  s.queue.count p + slot s.rxPkt p + s.readySlot p + slot s.app.packet p +
    (s.fifo.map Outgoing.packet).count (some p) + slot s.tx.packet p

@[simp] theorem slot_none : slot none p = 0 := rfl

@[simp] theorem slot_self : slot (some p) p = 1 := if_pos rfl

theorem slot_of_ne (other : p ≠ q) : slot (some p) q = 0 := if_neg (by simpa using other)

theorem sendFrame_eq (packetMaxSize : Nat) (s : Serial) (type : UInt8) (p : PktId) (pkt : Packet) :
    iotlabSerialSendFrame packetMaxSize s type p pkt =
      if pkt.length.toNat ≤ payloadMax packetMaxSize ∧ iotlabSerialHeaderSize ≤ pkt.offset then
        { s.set p (setHeader type pkt) with
          fifo := prioInsert Outgoing.priority ⟨some p, pkt.priority⟩ s.fifo }
      else s.set p pkt := by
  unfold iotlabSerialSendFrame iotlabSerialInitTxPacket
  by_cases long : pkt.length.toNat > payloadMax packetMaxSize
  · rw [if_pos long, if_neg fun fits => absurd fits.1 (by omega)]
    rfl
  · by_cases low : pkt.offset < iotlabSerialHeaderSize
    · rw [if_neg long, if_pos low, if_neg fun fits => absurd fits.2 (by omega)]
      rfl
    · rw [if_neg long, if_neg low, if_pos ⟨by omega, by omega⟩]
      rfl

theorem receivedResult_eq (packetMaxSize : Nat) (s : Serial) (p : PktId) (cmdType : UInt8)
    (result : Int) (rawData : Nat → UInt8) (length : UInt16) :
    ∃ pkt fifo, receivedResult packetMaxSize s p cmdType result rawData length =
        { s.set p pkt with app := .idle, fifo := fifo } ∧
      (fifo = prioInsert Outgoing.priority ⟨some p, iotlabSerialAnswerPriority⟩ s.fifo ∨
        fifo = s.fifo) := by
  unfold receivedResult iotlabSerialSendResult
  rw [sendFrame_eq]
  split
  · exact ⟨_, _, rfl, .inl rfl⟩
  · exact ⟨_, _, rfl, .inr rfl⟩

theorem places_frame {timestamp} {c} (once : ∀ q, s.places q ≤ 1) (installed : s.rxPkt = some p)
    (eq : u = (switchBuffers (saved packetMaxSize s p timestamp c) p).noted timestamp) :
    u.places q ≤ s.places q := by
  subst eq
  have own := once p
  by_cases same : p = q
  · subst same
    have apart : slot s.app.packet p = 0 ∧ s.readySlot p = 0 := by
      unfold Serial.places at own
      rw [installed, slot_self] at own
      omega
    have notTaken : s.app ≠ .taken p := by
      intro taken
      simp [taken, App.packet] at apart
    have after : Serial.readySlot ((switchBuffers (saved packetMaxSize s p timestamp c) p).noted
        timestamp) p = 1 := (if_neg notTaken).trans slot_self
    unfold Serial.places
    rw [after, installed, slot_self, apart.2]
    rfl
  · have after : Serial.readySlot ((switchBuffers (saved packetMaxSize s p timestamp c) p).noted
        timestamp) q = 0 := by
      change (if s.app = .taken q then 0 else slot (some p) q) = 0
      rw [slot_of_ne same, ite_self]
    unfold Serial.places
    rw [after]
    change s.queue.count q + 0 + 0 + slot s.app.packet q +
      (s.fifo.map Outgoing.packet).count (some q) + slot s.tx.packet q ≤ _
    omega

theorem places_call (taken : s.app = .taken p) (eq : u = receivedCall handlers s p) :
    u.places q ≤ s.places q := by
  subst eq
  unfold Serial.places
  rw [taken]
  change s.queue.count q + slot s.rxPkt q + 0 + slot (some p) q +
    (s.fifo.map Outgoing.packet).count (some q) + slot s.tx.packet q ≤ _
  rw [show slot (App.taken p).packet q = slot (some p) q from rfl]
  omega

theorem places_result {cmdType : UInt8} {result} {rawData} {length}
    (handling : s.app = .handling p cmdType)
    (eq : u = receivedResult packetMaxSize s p cmdType result rawData length) :
    u.places q ≤ s.places q := by
  subst eq
  obtain ⟨pkt, fifo, eq, sent⟩ :=
    receivedResult_eq packetMaxSize s p cmdType result rawData length
  have count : (fifo.map Outgoing.packet).count (some q) ≤
      (s.fifo.map Outgoing.packet).count (some q) + slot (some p) q := by
    rcases sent with sent | failed
    · rw [sent, (perm_prioInsert.map Outgoing.packet).count_eq, map_cons, count_cons]
      simp [slot]
    · rw [failed]
      exact Nat.le_add_right _ _
  rw [eq]
  unfold Serial.places Serial.readySlot
  simp only [handling, App.packet, Serial.set, slot_none, reduceCtorEq, if_false]
  omega

theorem places_change (once : ∀ q, s.places q ≤ 1) (c : Change packetMaxSize handlers s a u) :
    u.places q ≤ s.places q := by
  cases c with
  | ignored timestamp c free | byte timestamp c p installed | noInstall irq isr none_ | post ok isr
  | give isr | takeNone idle events none_ => exact le_rfl
  | skipped timestamp c p installed =>
    unfold checkTimeout
    split <;> exact le_rfl
  | frame timestamp c p installed => exact places_frame once installed rfl
  | install p rest irq isr free queue =>
    unfold Serial.places
    simp only [slot, Serial.readySlot, Serial.set]
    grind
  | idleHook =>
    unfold idleHookUart
    split <;> exact le_rfl
  | take p idle events ready =>
    unfold Serial.places Serial.readySlot
    simp only [App.packet, slot]
    grind
  | call p taken => exact places_call taken rfl
  | result p cmdType result rawData length handling => exact places_result handling rfl
  | sendFrame priority =>
    unfold Serial.places
    rw [(perm_prioInsert.map Outgoing.packet).count_eq, map_cons,
      count_cons_of_ne (by simp)]
    rfl
  | start out rest now idle fifo =>
    have fields : (txStart s out rest now).places q = s.queue.count q + slot s.rxPkt q +
        s.readySlot q + slot s.app.packet q + (rest.map Outgoing.packet).count (some q) +
        slot out.packet q := by
      unfold txStart
      split <;> rfl
    rw [fields]
    unfold Serial.places
    simp only [Tx.packet, slot]
    grind
  | done out sending =>
    unfold Serial.places
    rw [sending]
    rfl
  | free out done sending ended =>
    unfold txFree Serial.places
    split
    · simp_all [Tx.packet, Serial.readySlot]
    · simp_all [Tx.packet, Serial.readySlot, Serial.set, count_cons, slot]
      omega

def Once (s : Serial) : Prop := ∀ q, s.places q ≤ 1

theorem once_start (memory : PktId → Packet) : Once (iotlabSerialStart memory) := by
  intro q
  fin_cases q <;> exact le_rfl

theorem once_change (once : Once s) (c : Change packetMaxSize handlers s a u) : Once u :=
  fun q => (places_change once c).trans (once q)

theorem Once.rx_apart (once : Once s) (installed : s.rxPkt = some p) :
    s.readyPkt ≠ some p ∧ s.app.packet ≠ some p := by
  have own := once p
  unfold Serial.places Serial.readySlot slot at own
  grind [App.packet]

theorem Once.away (once : Once s)
    (elsewhere : p ∈ s.queue ∨ some p ∈ s.fifo.map Outgoing.packet ∨ s.tx.packet = some p)
    (used : s.rxPkt = some q ∨ s.readyPkt = some q ∨ s.app.packet = some q) : q ≠ p := by
  rintro rfl
  have own := once q
  have count : 0 < s.queue.count q + (s.fifo.map Outgoing.packet).count (some q) +
      slot s.tx.packet q := by
    rcases elsewhere with free | queued | sending
    · have := count_pos_iff.mpr free
      omega
    · have := count_pos_iff.mpr queued
      omega
    · simp [sending]
  unfold Serial.places Serial.readySlot at own
  rcases used with rx | ready | app
  · rw [rx, slot_self] at own
    omega
  · rw [ready, slot_self] at own
    by_cases taken : s.app = .taken q
    · simp only [taken, App.packet, slot_self] at own
      omega
    · rw [if_neg taken] at own
      omega
  · rw [app, slot_self] at own
    omega

theorem Once.handling_apart {cmdType : UInt8} (once : Once s)
    (handling : s.app = .handling p cmdType) :
    s.rxPkt ≠ some p ∧ s.readyPkt ≠ some p := by
  have own := once p
  unfold Serial.places Serial.readySlot slot at own
  grind [App.packet]

section Transmitter

variable {out : Outgoing} {rest : List Outgoing} {now : UInt32} {done : Bool}

theorem Once.start_apart (once : Once s) (fifo : s.fifo = out :: rest)
    (used : s.rxPkt = some q ∨ s.readyPkt = some q ∨ s.app.packet = some q) :
    out.packet ≠ some q := by
  intro packet
  have queued : some q ∈ s.fifo.map Outgoing.packet := by
    rw [fifo, map_cons, packet]
    exact mem_cons_self
  exact once.away (.inr (.inl queued)) used rfl

theorem Once.free_apart (once : Once s) (sending : s.tx = .sending out done)
    (used : s.rxPkt = some q ∨ s.readyPkt = some q ∨ s.app.packet = some q) :
    out.packet ≠ some q := by
  intro packet
  have sent : s.tx.packet = some q := by
    rw [sending]
    exact packet
  exact once.away (.inr (.inr sent)) used rfl

theorem txStart_packet (other : out.packet ≠ some p) :
    (txStart s out rest now).packet p = s.packet p := by
  unfold txStart
  split
  case h_1 => rfl
  case h_2 q packet =>
    have apart : p ≠ q := fun same => other (by rw [packet, same])
    exact Function.update_of_ne apart _ _

theorem txFree_packet (other : out.packet ≠ some p) : (txFree s out).packet p = s.packet p := by
  unfold txFree
  split
  case h_1 => rfl
  case h_2 q packet =>
    have apart : p ≠ q := fun same => other (by rw [packet, same])
    exact Function.update_of_ne apart _ _

end Transmitter

def NoByte (_ : Serial) : Action → Prop
  | .charRx _ _ => False
  | _ => True

theorem quiet_or_byte (s : Serial) (a : Action) :
    NoByte s a ∨ ∃ timestamp c, a = .charRx timestamp c := by
  cases a with
  | charRx timestamp c => exact .inr ⟨timestamp, c, rfl⟩
  | _ => exact .inl trivial

structure Aside (s u : Serial) : Prop where
  rxIndex : u.rxIndex = s.rxIndex
  lastStartTime : u.lastStartTime = s.lastStartTime
  overrun : u.overrun = s.overrun
  bytes : u.ghost.bytes = s.ghost.bytes
  received : u.ghost.received = s.ghost.received
  lastByte : u.ghost.lastByte = s.ghost.lastByte
  /-- a packet for reception is only installed where there is none -/
  rxPkt : s.rxPkt ≠ none → u.rxPkt = s.rxPkt

theorem aside_change (quiet : NoByte s a) (c : Change packetMaxSize handlers s a u) :
    Aside s u := by
  cases c with
  | ignored | skipped | byte | frame => exact quiet.elim
  | install p rest irq isr free =>
      exact ⟨rfl, rfl, rfl, rfl, rfl, rfl, fun some => absurd free some⟩
  | idleHook =>
    unfold idleHookUart
    split <;> exact ⟨rfl, rfl, rfl, rfl, rfl, rfl, fun _ => rfl⟩
  | result p cmdType result rawData length =>
    obtain ⟨pkt, fifo, eq, -⟩ := receivedResult_eq packetMaxSize s p cmdType result rawData length
    rw [eq]
    exact ⟨rfl, rfl, rfl, rfl, rfl, rfl, fun _ => rfl⟩
  | start out rest now =>
    unfold txStart
    split <;> exact ⟨rfl, rfl, rfl, rfl, rfl, rfl, fun _ => rfl⟩
  | free out =>
    unfold txFree
    split <;> exact ⟨rfl, rfl, rfl, rfl, rfl, rfl, fun _ => rfl⟩
  | noInstall | post | give | takeNone | take | call | sendFrame | done =>
    exact ⟨rfl, rfl, rfl, rfl, rfl, rfl, fun _ => rfl⟩

end IotlabSerial
