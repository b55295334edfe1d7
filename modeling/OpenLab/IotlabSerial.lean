import OpenLab.PacketQueue
import OpenLab.Schedules

/-!
# The serial link of the nodes

`iotlab_serial.c`: `char_rx` assembles frames into one of two rx packets, `check_uart` installs a
new packet and posts `packet_received`, which calls the handler of the command and sends its
result.

`char_rx` and `tx_done_isr` interrupt everything else, so each action is one statement, or a group
of them that touches nothing the others read. The lists stand for the queues of `PacketQueue`, and
a section under the mutex of a queue is one step: `check_uart` takes the mutex of the rx queue with
`portMAX_DELAY`, and the schedules in which it interrupts the tx task inside `iotlab_packet_free`,
and waits for ever, are not among those of the model.
-/

namespace IotlabSerial

open Schedules PacketQueue Option
open Function (update)

def syncByte : UInt8 := 0x80
def ack : UInt8 := 0x0A
def nack : UInt8 := 0x02

def iotlabSerialHeaderSize : Nat := 3
abbrev iotlabSerialNumRxPkts : Nat := 2
def iotlabSerialAnswerPriority : Nat := 0x80

def payloadMax (packetMaxSize : Nat) : Nat := packetMaxSize - iotlabSerialHeaderSize

def iotlabSerialDataMaxSize (packetMaxSize : Nat) : Nat :=
  if payloadMax packetMaxSize < 254 then payloadMax packetMaxSize else 254

def softTimerMsToTicks (ms : Nat) : Nat := ms * 32768 / 1000

abbrev PktId := Fin iotlabSerialNumRxPkts

abbrev Stamped := UInt32 × UInt8

structure Packet where
  /-- The array `raw_data`; only the first `PACKET_MAX_SIZE` bytes belong to it. -/
  rawData : Nat → UInt8
  length : UInt16
  /-- The position of `data` in `raw_data`. -/
  offset : Nat
  timestamp : UInt32
  priority : Nat

def packetReset (pkt : Packet) (offset : Nat) : Packet := { pkt with offset := offset, length := 0 }

def iotlabPacketReset (pkt : Packet) : Packet := { packetReset pkt 0 with timestamp := 0 }

def Packet.payload (pkt : Packet) : List UInt8 :=
  (List.range pkt.length.toNat).map fun i => pkt.rawData (pkt.offset + i)

/-- The bytes that `uart_transfer_async` puts on the line. -/
def Packet.wire (pkt : Packet) : List UInt8 := (List.range pkt.length.toNat).map pkt.rawData

def setHeader (type : UInt8) (pkt : Packet) : Packet :=
  { pkt with
    rawData := update (update (update pkt.rawData 0 syncByte)
      1 (pkt.length.toUInt8 + 1)) 2 type
    length := pkt.length + 3 }

def iotlabSerialInitTxPacket (packetMaxSize : Nat) (type : UInt8) (pkt : Packet) : Nat × Packet :=
  if pkt.length.toNat > payloadMax packetMaxSize then (1, pkt)
  else if pkt.offset < iotlabSerialHeaderSize then (2, pkt)
  else (0, setHeader type pkt)

structure Handler where
  cmdType : UInt8
  id : Nat
  deriving DecidableEq

def iotlabSerialGetHandler (first : List Handler) (cmdType : UInt8) : Option Handler :=
  first.find? fun handler => handler.cmdType == cmdType

/-- One call of `iotlab_serial_call_handler`, as an observer sees it: the handler, the length
and the data it is given, and the bytes of the frame in the packet. -/
structure Call where
  cmdType : UInt8
  handler : Option Handler
  length : UInt16
  payload : List UInt8
  frame : List Stamped

/-- A frame in the tx fifo: an rx packet with a result, or a packet of another queue. -/
structure Outgoing where
  packet : Option PktId
  priority : Nat
  deriving DecidableEq

inductive App
  | idle
  /-- `ready_pkt` has been read and not yet cleared. -/
  | taken (packet : PktId)
  /-- The handler is running. -/
  | handling (packet : PktId) (cmdType : UInt8)
  deriving DecidableEq

inductive Tx
  | idle
  /-- Blocked on `tx_end_event`; `done` once `tx_done_isr` has run. -/
  | sending (out : Outgoing) (done : Bool)
  deriving DecidableEq

inductive Isr
  | idle
  | allocated
  | posted
  deriving DecidableEq

structure Ghost where
  /-- The bytes in each packet since its SYNC byte. -/
  bytes : PktId → List Stamped
  /-- The completed frames, the last one first. -/
  received : List (List Stamped)
  calls : List Call
  lastByte : Option UInt32

structure Serial where
  packet : PktId → Packet
  queue : List PktId
  rxPkt : Option PktId
  readyPkt : Option PktId
  rxIndex : UInt16
  lastStartTime : UInt32
  /-- The low-priority interrupt is pending. -/
  irq : Bool
  isr : Isr
  /-- The queued events `packet_received`. -/
  events : Nat
  app : App
  fifo : List Outgoing
  tx : Tx
  irqTriggered : Bool
  txEnd : Bool
  /-- `char_rx` has written outside of `raw_data`. -/
  overrun : Bool
  ghost : Ghost

def Serial.set (s : Serial) (p : PktId) (pkt : Packet) : Serial :=
  { s with packet := update s.packet p pkt }

def Serial.noted (s : Serial) (timestamp : UInt32) : Serial :=
  { s with ghost := { s.ghost with lastByte := some timestamp } }

/-- `if (last_start_time && (timestamp - last_start_time > soft_timer_ms_to_ticks(100)))` -/
def checkTimeout (s : Serial) (timestamp : UInt32) : Serial :=
  if s.lastStartTime ≠ 0 ∧
      (timestamp - s.lastStartTime).toNat > softTimerMsToTicks 100 then
    { s with rxIndex := 0, lastStartTime := 0 }
  else s

def startFrame (s : Serial) (p : PktId) (timestamp : UInt32) : Serial :=
  { s.set p { s.packet p with timestamp := timestamp } with
    lastStartTime := timestamp
    ghost := { s.ghost with bytes := update s.ghost.bytes p [] } }

def lengthByte (s : Serial) (p : PktId) (c : UInt8) : Serial :=
  s.set p { s.packet p with length := 2 + c.toUInt16 }

def saveByte (packetMaxSize : Nat) (s : Serial) (p : PktId) (timestamp : UInt32) (c : UInt8) :
    Serial :=
  { s.set p { s.packet p with rawData := update (s.packet p).rawData s.rxIndex.toNat c } with
    rxIndex := s.rxIndex + 1
    overrun := s.overrun || decide (packetMaxSize ≤ s.rxIndex.toNat)
    ghost := { s.ghost with
      bytes := update s.ghost.bytes p (s.ghost.bytes p ++ [(timestamp, c)]) } }

def switchBuffers (s : Serial) (p : PktId) : Serial :=
  { s with
    rxIndex := 0
    lastStartTime := 0
    readyPkt := some p
    rxPkt := none
    irq := true
    ghost := { s.ghost with received := s.ghost.bytes p :: s.ghost.received } }

def checkLength (s : Serial) (p : PktId) : Serial :=
  if s.rxIndex < 2 then s
  else if s.rxIndex = (s.packet p).length then switchBuffers s p
  else s

def charRx (packetMaxSize : Nat) (s : Serial) (timestamp : UInt32) (c : UInt8) : Serial :=
  match s.rxPkt with
  | none => { s with rxIndex := 0 }
  | some p =>
    let s := checkTimeout s timestamp
    if s.rxIndex = 0 then
      if c ≠ syncByte then s
      else checkLength (saveByte packetMaxSize (startFrame s p timestamp) p timestamp c) p
    else if s.rxIndex = 1 then
      checkLength (saveByte packetMaxSize (lengthByte s p c) p timestamp c) p
    else checkLength (saveByte packetMaxSize s p timestamp c) p

def allocateRxPacket (s : Serial) : Serial :=
  match s.rxPkt, s.queue with
  | none, p :: rest =>
    { s.set p (packetReset (s.packet p) iotlabSerialHeaderSize) with
      rxPkt := some p, queue := rest }
  | _, _ => s

/-- `check_uart` posts the event; `ok` is false if the event queue is full. -/
def checkPost (s : Serial) (ok : Bool) : Serial :=
  { s with isr := .posted, events := if s.readyPkt.isSome && ok then s.events + 1 else s.events }

def checkGive (s : Serial) : Serial :=
  { s with isr := .idle, irqTriggered := false, txEnd := s.txEnd || s.irqTriggered }

def idleHookUart (s : Serial) : Serial :=
  if s.readyPkt.isSome then { s with irq := true } else s

def receivedTake (s : Serial) : Serial :=
  { s with
    events := s.events - 1
    app := match s.readyPkt with
      | none => .idle
      | some p => .taken p }

/-- Clear `ready_pkt`, remove the header and call the handler. -/
def receivedCall (handlers : List Handler) (s : Serial) (p : PktId) : Serial :=
  let cmdType := (s.packet p).rawData 2
  let pkt := { s.packet p with length := (s.packet p).length - 3 }
  { s.set p pkt with
    readyPkt := none
    app := .handling p cmdType
    ghost := { s.ghost with
      calls := ⟨cmdType, iotlabSerialGetHandler handlers cmdType, pkt.length, pkt.payload,
        s.ghost.bytes p⟩ :: s.ghost.calls } }

/-- Send the packet `p` with the content `pkt`. -/
def iotlabSerialSendFrame (packetMaxSize : Nat) (s : Serial) (type : UInt8) (p : PktId)
    (pkt : Packet) : Serial :=
  match iotlabSerialInitTxPacket packetMaxSize type pkt with
  | (0, pkt) =>
    { s.set p pkt with fifo := prioInsert Outgoing.priority ⟨some p, pkt.priority⟩ s.fifo }
  | (_, pkt) => s.set p pkt

def resultPacket (pkt : Packet) (result : Int) : Packet :=
  { pkt with
    priority := iotlabSerialAnswerPriority
    length := 1
    rawData := update pkt.rawData pkt.offset (if result = 0 then ack else nack) }

def iotlabSerialSendResult (packetMaxSize : Nat) (s : Serial) (p : PktId) (pkt : Packet)
    (cmdType : UInt8) (result : Int) : Serial :=
  iotlabSerialSendFrame packetMaxSize s cmdType p (resultPacket pkt result)

/-- The handler has left `rawData` and `length` in the packet; send its result. -/
def receivedResult (packetMaxSize : Nat) (s : Serial) (p : PktId) (cmdType : UInt8)
    (result : Int) (rawData : Nat → UInt8) (length : UInt16) : Serial :=
  iotlabSerialSendResult packetMaxSize { s with app := .idle } p
    { s.packet p with rawData := rawData, length := length } cmdType result

/-- `packet_fifo_get` and the start of `send_packet`. -/
def txStart (s : Serial) (out : Outgoing) (rest : List Outgoing) (now : UInt32) : Serial :=
  match out.packet with
  | none => { s with fifo := rest, tx := .sending out false }
  | some p =>
    { s.set p { s.packet p with timestamp := now } with fifo := rest, tx := .sending out false }

/-- The tx task goes on after `tx_end_event` and frees the packet. -/
def txFree (s : Serial) (out : Outgoing) : Serial :=
  match out.packet with
  | none => { s with txEnd := false, tx := .idle }
  | some p =>
    { s.set p (iotlabPacketReset (s.packet p)) with
      txEnd := false, tx := .idle, queue := p :: s.queue }

inductive Action
  | charRx (timestamp : UInt32) (c : UInt8)
  | checkAllocate
  | checkPost (ok : Bool)
  | checkGive
  | idleHook
  | receivedTake
  | receivedCall
  | receivedResult (result : Int) (rawData : Nat → UInt8) (length : UInt16)
  /-- Another module sends a packet of its own. -/
  | sendFrame (priority : Nat)
  | txStart (now : UInt32)
  | txDone
  | txFree

/-- `iotlab_serial_start`, with arbitrary bytes in the packets. -/
def iotlabSerialStart (memory : PktId → Packet) : Serial :=
  allocateRxPacket
    { packet := fun p => iotlabPacketReset (memory p)
      queue := (List.finRange iotlabSerialNumRxPkts).reverse
      rxPkt := none
      readyPkt := none
      rxIndex := 0
      lastStartTime := 0
      irq := false
      isr := .idle
      events := 0
      app := .idle
      fifo := []
      tx := .idle
      irqTriggered := false
      txEnd := false
      overrun := false
      ghost := ⟨fun _ => [], [], [], none⟩ }

variable (packetMaxSize : Nat) (handlers : List Handler)

def act (s : Serial) : Action → Option Serial
  | .charRx timestamp c => some ((charRx packetMaxSize s timestamp c).noted timestamp)
  | .checkAllocate =>
    if s.irq = true ∧ s.isr = .idle then
      some { allocateRxPacket s with irq := false, isr := .allocated }
    else none
  | .checkPost ok => if s.isr = .allocated then some (checkPost s ok) else none
  | .checkGive => if s.isr = .posted then some (checkGive s) else none
  | .idleHook => some (idleHookUart s)
  | .receivedTake => if s.app = .idle ∧ 0 < s.events then some (receivedTake s) else none
  | .receivedCall => match s.app with
    | .taken p => some (receivedCall handlers s p)
    | _ => none
  | .receivedResult result rawData length => match s.app with
    | .handling p cmdType =>
      some (receivedResult packetMaxSize s p cmdType result rawData length)
    | _ => none
  | .sendFrame priority =>
    some { s with fifo := prioInsert Outgoing.priority ⟨none, priority⟩ s.fifo }
  | .txStart now => match s.tx, s.fifo with
    | .idle, out :: rest => some (txStart s out rest now)
    | _, _ => none
  | .txDone => match s.tx with
    | .sending out false =>
      some { s with tx := .sending out true, irqTriggered := true, irq := true }
    | _ => none
  | .txFree => match s.tx with
    | .sending out _ => if s.txEnd = true then some (txFree s out) else none
    | .idle => none

/-- Nothing is said about what happens after a write outside of `raw_data`. -/
def step (s : Serial) (a : Action) : Option Serial :=
  if s.overrun = true then none else act packetMaxSize handlers s a

variable {packetMaxSize handlers} {s u : Serial} {a : Action} {p : PktId} {timestamp : UInt32}
  {c : UInt8}

/-- The position of the next byte, after the test for the timeout. -/
def rxPosition (s : Serial) (timestamp : UInt32) : UInt16 := (checkTimeout s timestamp).rxIndex

/-- The state after a byte has been saved and before its test of the length. -/
def saved (packetMaxSize : Nat) (s : Serial) (p : PktId) (timestamp : UInt32)
    (c : UInt8) : Serial :=
  let i := rxPosition s timestamp
  { s with
    packet := update s.packet p { s.packet p with
      rawData := update (s.packet p).rawData i.toNat c
      length := if i = 1 then 2 + c.toUInt16 else (s.packet p).length
      timestamp := if i = 0 then timestamp else (s.packet p).timestamp }
    rxIndex := i + 1
    lastStartTime := if i = 0 then timestamp else s.lastStartTime
    overrun := s.overrun || decide (packetMaxSize ≤ i.toNat)
    ghost := { s.ghost with
      bytes := update s.ghost.bytes p
        ((if i = 0 then [] else s.ghost.bytes p) ++ [(timestamp, c)]) } }

def TimedOut (s : Serial) (timestamp : UInt32) : Prop :=
  s.lastStartTime ≠ 0 ∧ (timestamp - s.lastStartTime).toNat > softTimerMsToTicks 100

theorem checkTimeout_of_timedOut (out : TimedOut s timestamp) :
    checkTimeout s timestamp = { s with rxIndex := 0, lastStartTime := 0 } := if_pos out

theorem checkTimeout_of_not (inTime : ¬TimedOut s timestamp) : checkTimeout s timestamp = s :=
  if_neg inTime

theorem charRx_eq (installed : s.rxPkt = some p) :
    charRx packetMaxSize s timestamp c =
      if rxPosition s timestamp = 0 ∧ c ≠ syncByte then checkTimeout s timestamp
      else checkLength (saved packetMaxSize s p timestamp c) p := by
  unfold charRx
  simp only [installed]
  by_cases out : TimedOut s timestamp
  · have after := checkTimeout_of_timedOut out
    by_cases sync : c = syncByte <;>
      simp [after, rxPosition, sync, saved, saveByte, startFrame, Serial.set]
  · have after := checkTimeout_of_not out
    by_cases zero : s.rxIndex = 0
    · by_cases sync : c = syncByte <;>
        simp [after, rxPosition, zero, sync, saved, saveByte, startFrame, Serial.set]
    · by_cases one : s.rxIndex = 1 <;>
        simp [after, rxPosition, zero, one, saved, saveByte, lengthByte, Serial.set]

def Last (s : Serial) (p : PktId) (timestamp : UInt32) (c : UInt8) : Prop :=
  let i := rxPosition s timestamp
  ¬i + 1 < 2 ∧ i + 1 = if i = 1 then 2 + c.toUInt16 else (s.packet p).length

/-- What one step does, with the facts its guards establish. -/
inductive Change (packetMaxSize : Nat) (handlers : List Handler) (s : Serial) :
    Action → Serial → Prop
  | ignored (timestamp : UInt32) (c : UInt8) : s.rxPkt = none →
      Change packetMaxSize handlers s (.charRx timestamp c)
        (Serial.noted { s with rxIndex := 0 } timestamp)
  | skipped (timestamp : UInt32) (c : UInt8) (p : PktId) : s.rxPkt = some p →
      rxPosition s timestamp = 0 → c ≠ syncByte →
      Change packetMaxSize handlers s (.charRx timestamp c)
        ((checkTimeout s timestamp).noted timestamp)
  | byte (timestamp : UInt32) (c : UInt8) (p : PktId) : s.rxPkt = some p →
      (rxPosition s timestamp = 0 → c = syncByte) → ¬Last s p timestamp c →
      Change packetMaxSize handlers s (.charRx timestamp c)
        ((saved packetMaxSize s p timestamp c).noted timestamp)
  | frame (timestamp : UInt32) (c : UInt8) (p : PktId) : s.rxPkt = some p →
      (rxPosition s timestamp = 0 → c = syncByte) → Last s p timestamp c →
      Change packetMaxSize handlers s (.charRx timestamp c)
        ((switchBuffers (saved packetMaxSize s p timestamp c) p).noted timestamp)
  | install (p : PktId) (rest : List PktId) : s.irq = true → s.isr = .idle → s.rxPkt = none →
      s.queue = p :: rest →
      Change packetMaxSize handlers s .checkAllocate
        { s.set p (packetReset (s.packet p) iotlabSerialHeaderSize) with
          rxPkt := some p, queue := rest, irq := false, isr := .allocated }
  | noInstall : s.irq = true → s.isr = .idle → (s.rxPkt = none → s.queue = []) →
      Change packetMaxSize handlers s .checkAllocate { s with irq := false, isr := .allocated }
  | post (ok : Bool) : s.isr = .allocated →
      Change packetMaxSize handlers s (.checkPost ok) (checkPost s ok)
  | give : s.isr = .posted → Change packetMaxSize handlers s .checkGive (checkGive s)
  | idleHook : Change packetMaxSize handlers s .idleHook (idleHookUart s)
  | takeNone : s.app = .idle → 0 < s.events → s.readyPkt = none →
      Change packetMaxSize handlers s .receivedTake { s with events := s.events - 1 }
  | take (p : PktId) : s.app = .idle → 0 < s.events → s.readyPkt = some p →
      Change packetMaxSize handlers s .receivedTake
        { s with events := s.events - 1, app := .taken p }
  | call (p : PktId) : s.app = .taken p →
      Change packetMaxSize handlers s .receivedCall (receivedCall handlers s p)
  | result (p : PktId) (cmdType : UInt8) (result : Int) (rawData : Nat → UInt8) (length : UInt16) :
      s.app = .handling p cmdType →
      Change packetMaxSize handlers s (.receivedResult result rawData length)
        (receivedResult packetMaxSize s p cmdType result rawData length)
  | sendFrame (priority : Nat) :
      Change packetMaxSize handlers s (.sendFrame priority)
        { s with fifo := prioInsert Outgoing.priority ⟨none, priority⟩ s.fifo }
  | start (out : Outgoing) (rest : List Outgoing) (now : UInt32) : s.tx = .idle →
      s.fifo = out :: rest →
      Change packetMaxSize handlers s (.txStart now) (txStart s out rest now)
  | done (out : Outgoing) : s.tx = .sending out false →
      Change packetMaxSize handlers s .txDone
        { s with tx := .sending out true, irqTriggered := true, irq := true }
  | free (out : Outgoing) (done : Bool) : s.tx = .sending out done → s.txEnd = true →
      Change packetMaxSize handlers s .txFree (txFree s out)

theorem checkLength_saved (packetMaxSize : Nat) (s : Serial) (p : PktId) (timestamp : UInt32)
    (c : UInt8) :
    checkLength (saved packetMaxSize s p timestamp c) p = saved packetMaxSize s p timestamp c ∧
        ¬Last s p timestamp c ∨
      checkLength (saved packetMaxSize s p timestamp c) p =
          switchBuffers (saved packetMaxSize s p timestamp c) p ∧ Last s p timestamp c := by
  have length : ((saved packetMaxSize s p timestamp c).packet p).length =
      if rxPosition s timestamp = 1 then 2 + c.toUInt16 else (s.packet p).length := by
    simp [saved]
  unfold checkLength Last
  rw [length]
  by_cases short : rxPosition s timestamp + 1 < 2
  · exact .inl ⟨if_pos short, fun last => last.1 short⟩
  · by_cases last : rxPosition s timestamp + 1 =
        if rxPosition s timestamp = 1 then 2 + c.toUInt16 else (s.packet p).length
    · exact .inr ⟨(if_neg short).trans (if_pos last), short, last⟩
    · exact .inl ⟨(if_neg short).trans (if_neg last), fun h => last h.2⟩

theorem charRx_change : Change packetMaxSize handlers s (.charRx timestamp c)
    ((charRx packetMaxSize s timestamp c).noted timestamp) := by
  cases installed : s.rxPkt with
  | none =>
    have eq : charRx packetMaxSize s timestamp c = { s with rxIndex := 0 } := by
      simp [charRx, installed]
    rw [eq]
    exact .ignored timestamp c installed
  | some p =>
    rw [charRx_eq installed]
    by_cases skip : rxPosition s timestamp = 0 ∧ c ≠ syncByte
    · rw [if_pos skip]
      exact .skipped timestamp c p installed skip.1 skip.2
    · have sync : rxPosition s timestamp = 0 → c = syncByte := by
        intro zero
        by_contra other
        exact skip ⟨zero, other⟩
      rw [if_neg skip]
      rcases checkLength_saved packetMaxSize s p timestamp c with ⟨eq, last⟩ | ⟨eq, last⟩
      · rw [eq]
        exact .byte timestamp c p installed sync last
      · rw [eq]
        exact .frame timestamp c p installed sync last

theorem step_change (h : step packetMaxSize handlers s a = some u) :
    s.overrun = false ∧ Change packetMaxSize handlers s a u := by
  obtain ⟨sound, h⟩ := ite_none_left_eq_some.mp h
  refine ⟨by simpa using sound, ?_⟩
  cases a with
  | charRx timestamp c =>
    cases h
    exact charRx_change
  | checkAllocate =>
    obtain ⟨⟨irq, isr⟩, h⟩ := ite_none_right_eq_some.mp h
    cases h
    unfold allocateRxPacket
    split
    case h_1 free queue => exact .install _ _ irq isr free queue
    case h_2 other =>
      refine .noInstall irq isr fun free => ?_
      cases queue : s.queue with
      | nil => rfl
      | cons p rest => exact (other p rest free queue).elim
  | checkPost ok =>
    obtain ⟨isr, h⟩ := ite_none_right_eq_some.mp h
    cases h
    exact .post ok isr
  | checkGive =>
    obtain ⟨isr, h⟩ := ite_none_right_eq_some.mp h
    cases h
    exact .give isr
  | idleHook =>
    cases h
    exact .idleHook
  | receivedTake =>
    obtain ⟨⟨idle, events⟩, h⟩ := ite_none_right_eq_some.mp h
    cases h
    unfold receivedTake
    split
    · exact idle ▸ .takeNone idle events ‹_›
    · exact .take _ idle events ‹_›
  | receivedCall =>
    simp only [act] at h
    split at h
    · cases h
      exact .call _ ‹_›
    · cases h
  | receivedResult result rawData length =>
    simp only [act] at h
    split at h
    · cases h
      exact .result _ _ result rawData length ‹_›
    · cases h
  | sendFrame priority =>
    cases h
    exact .sendFrame priority
  | txStart now =>
    simp only [act] at h
    split at h
    · cases h
      exact .start _ _ now ‹_› ‹_›
    · cases h
  | txDone =>
    simp only [act] at h
    split at h
    · cases h
      exact .done _ ‹_›
    · cases h
  | txFree =>
    simp only [act] at h
    split at h
    · obtain ⟨ended, h⟩ := ite_none_right_eq_some.mp h
      cases h
      exact .free _ _ ‹_› ended
    · cases h

end IotlabSerial
