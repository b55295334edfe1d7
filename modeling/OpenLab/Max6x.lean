import OpenLab.Schedules

/-!
# The GPS receiver

The UBX decoder `max6x_parse`, one byte at a time, the encoder `max6x_send_msg`, and `max6x_read`,
which polls the receiver and feeds the decoder.
-/

namespace Max6x

open Schedules

inductive State
  | idle | header1 | header2 | cls | id | length1 | length2 | payload | ckA
  deriving DecidableEq

/-- A call of the handler; `sums` are the two bytes that ended the message. -/
structure Call where
  buf : List UInt8
  size : Nat
  sums : UInt8 × UInt8
  deriving DecidableEq

/-- The static variables of `max6x_parse`. -/
structure Parser where
  state : State := .idle
  readBytes : Nat := 0
  length : Nat := 0
  buf : Vector UInt8 1024 := .replicate 1024 0
  ckA : UInt8 := 0
  ckB : UInt8 := 0
  /-- the first checksum byte received -/
  first : UInt8 := 0
  /-- an access outside `buf` was made -/
  outside : Bool := false
  calls : List Call := []

/-- `buf[i] = c`, with the sums that follow it. -/
def Parser.store (p : Parser) (i : Nat) (c : UInt8) : Parser :=
  { p with
    buf := p.buf.setIfInBounds i c
    outside := p.outside || decide (1024 ≤ i)
    ckA := p.ckA + c
    ckB := p.ckB + (p.ckA + c) }

def classNav : UInt8 := 0x01

/-- `max6x_parse`; `hdl` says whether there is a handler. -/
def parse (hdl : Bool) (p : Parser) (c : UInt8) : Parser :=
  match p.state with
  | .idle => if c = 0xB5 then { p with state := .header1 } else p
  | .header1 =>
    if c = 0x62 then { p with ckA := 0, ckB := 0, state := .header2 } else { p with state := .idle }
  | .header2 => { p.store 0 c with state := .cls }
  | .cls => { p.store 1 c with state := .id }
  | .id => { p.store 2 c with length := c.toNat, state := .length1 }
  | .length1 =>
    { p.store 3 c with
      length := p.length ||| c.toNat <<< 8
      state := .length2
      readBytes := 0 }
  | .length2 =>
    let readBytes := (p.readBytes + 1) % 2 ^ 16
    { p.store (3 + readBytes) c with
      readBytes
      state := if readBytes = p.length then .payload else .length2 }
  | .payload =>
    if p.ckA = c then { p with state := .ckA, first := c }
    -- the message is logged
    else { p with state := .idle, outside := p.outside || decide (1024 < p.length + 3) }
  | .ckA =>
    if p.ckB = c ∧ p.buf[0] = classNav ∧ hdl then
      { p with
        state := .idle
        calls := p.calls ++ [⟨p.buf.toList, p.length + 3, p.first, c⟩] }
    else { p with state := .idle }

def feed (hdl : Bool) (p : Parser) (bytes : List UInt8) : Parser := bytes.foldl (parse hdl) p

theorem feed_append (hdl : Bool) (p : Parser) (bytes rest : List UInt8) :
    feed hdl p (bytes ++ rest) = feed hdl (feed hdl p bytes) rest :=
  List.foldl_append

/-- The 8-bit Fletcher sums. -/
def fletcher (bytes : List UInt8) : UInt8 × UInt8 :=
  bytes.foldl (fun s c => (s.1 + c, s.2 + (s.1 + c))) (0, 0)

section Sums

variable {p : Parser} {xs : List UInt8} {c : UInt8}

/-- `buf` starts with the bytes `xs`, and they are summed up. -/
def Holds (p : Parser) (xs : List UInt8) : Prop :=
  p.buf.toList.take xs.length = xs ∧ (p.ckA, p.ckB) = fletcher xs

theorem holds_nil (zero : p.ckA = 0 ∧ p.ckB = 0) : Holds p [] :=
  ⟨rfl, by rw [zero.1, zero.2]; rfl⟩

theorem Holds.store (h : Holds p xs) (room : xs.length < 1024) :
    Holds (p.store xs.length c) (xs ++ [c]) := by
  have inside : xs.length < p.buf.toList.length := by simpa using room
  constructor
  · simp only [Parser.store, Vector.toList_setIfInBounds, List.length_append,
      List.length_singleton]
    rw [List.take_add_one, List.take_set_of_le le_rfl, h.1, List.getElem?_set_self inside]
    rfl
  · rw [fletcher, List.foldl_append, ← fletcher, ← h.2]
    rfl

end Sums

section Safety

inductive Input
  /-- a byte of `max6x_read` or `max6x_data_decode` -/
  | byte (hdl : Bool) (c : UInt8)
  | reset

def step (p : Parser) : Input → Option Parser
  | .byte hdl c => some (parse hdl p c)
  /- `max6x_decoder_reset` -/
  | .reset => some { p with state := .idle }

def Call.Verified (call : Call) : Prop := call.sums = fletcher (call.buf.take (call.size + 1))

/-- No access was outside of `buf`, and the handler only got messages with the right sums. -/
def Safe (p : Parser) : Prop := p.outside = false ∧ ∀ call ∈ p.calls, call.Verified

/-- The length that a message announces is neither 0 nor too large for `buf`. -/
def Fits (p : Parser) : Input → Prop
  | .reset => True
  | .byte _ c => p.state = .length1 →
    0 < p.length ||| c.toNat <<< 8 ∧ p.length ||| c.toNat <<< 8 ≤ 1020

instance (p : Parser) : DecidablePred (Fits p)
  | .byte .. | .reset => by
    dsimp only [Fits]
    infer_instance

def Filled (p : Parser) (n : Nat) : Prop := ∃ xs, Holds p xs ∧ xs.length = n

/-- What the buffer holds in each state of the decoder. -/
def Progress (p : Parser) : Prop :=
  match p.state with
  | .idle | .header1 => True
  | .header2 => Filled p 0
  | .cls => Filled p 1
  | .id => Filled p 2
  | .length1 => Filled p 3
  | .length2 => Filled p (4 + p.readBytes) ∧ p.readBytes < p.length ∧ p.length ≤ 1020
  | .payload => Filled p (4 + p.length) ∧ p.length ≤ 1020
  | .ckA => Filled p (4 + p.length) ∧ p.length ≤ 1020 ∧ p.first = p.ckA

variable {p : Parser} {n : Nat} {c : UInt8}

theorem Filled.store (h : Filled p n) (room : n < 1024) : Filled (p.store n c) (n + 1) := by
  obtain ⟨xs, holds, rfl⟩ := h
  exact ⟨xs ++ [c], holds.store room, by simp⟩

theorem Filled.verified (h : Filled p (4 + p.length)) :
    Call.Verified ⟨p.buf.toList, p.length + 3, p.ckA, p.ckB⟩ := by
  obtain ⟨xs, holds, size⟩ := h
  rw [Call.Verified, holds.2]
  change fletcher xs = fletcher (p.buf.toList.take (p.length + 3 + 1))
  rw [show p.length + 3 + 1 = xs.length by omega, holds.1]

theorem parse_safe (safe : Safe p) (progress : Progress p) (hdl : Bool)
    (fits : Fits p (.byte hdl c)) : Safe (parse hdl p c) ∧ Progress (parse hdl p c) := by
  obtain ⟨inside, verified⟩ := safe
  have stores : ∀ n < 1024, Safe (p.store n c) := fun n room =>
    ⟨by simp [Parser.store, inside, room], verified⟩
  cases state : p.state <;> simp only [Progress, state] at progress <;> simp only [parse, state]
  case idle =>
    split
    · exact ⟨⟨inside, verified⟩, trivial⟩
    · exact ⟨⟨inside, verified⟩, by simp [Progress, state]⟩
  case header1 =>
    split
    · exact ⟨⟨inside, verified⟩, [], holds_nil ⟨rfl, rfl⟩, rfl⟩
    · exact ⟨⟨inside, verified⟩, trivial⟩
  case header2 | cls | id =>
    exact ⟨stores _ (by decide), progress.store (by decide)⟩
  case length1 =>
    exact ⟨stores _ (by decide), progress.store (by decide), fits state⟩
  case length2 =>
    obtain ⟨filled, less, small⟩ := progress
    have next : (p.readBytes + 1) % 2 ^ 16 = p.readBytes + 1 := by omega
    have stored := filled.store (c := c) (by omega)
    rw [next, show 3 + (p.readBytes + 1) = 4 + p.readBytes by omega]
    refine ⟨stores _ (by omega), ?_⟩
    by_cases last : p.readBytes + 1 = p.length
    · simp only [if_pos last]
      exact ⟨last ▸ stored, small⟩
    · simp only [if_neg last]
      exact ⟨stored, Nat.lt_of_le_of_ne less last, small⟩
  case payload =>
    obtain ⟨filled, small⟩ := progress
    split
    · next same => exact ⟨⟨inside, verified⟩, filled, small, same.symm⟩
    · exact ⟨⟨by simp [inside]; omega, verified⟩, trivial⟩
  case ckA =>
    obtain ⟨filled, -, first⟩ := progress
    split
    · next accepted =>
      refine ⟨⟨inside, fun call mem => ?_⟩, trivial⟩
      rcases List.mem_append.mp mem with old | new
      · exact verified call old
      · rw [List.mem_singleton.mp new, first, ← accepted.1]
        exact filled.verified
    · exact ⟨⟨inside, verified⟩, trivial⟩

/-- In a stream with resets whose messages all announce a length from 1 to 1020 no access is outside
the buffer, and the handler is called for messages with the right sums only. -/
theorem stream_safe (run : Run step Fits {} p) : Safe p := by
  have both : Safe p ∧ Progress p := by
    refine run.invariant (fun p => Safe p ∧ Progress p) ?_ ⟨⟨rfl, nofun⟩, trivial⟩
    intro p i q inv fits hstep
    cases i with
    | reset =>
      cases hstep
      exact ⟨inv.1, trivial⟩
    | byte hdl c =>
      cases hstep
      exact parse_safe inv.1 inv.2 hdl fits
  exact both.1

/-- A message is cut off by a reset, and the next one is handed out. -/
theorem stream_safe_reset : ∃ p, Run step Fits {} p ∧ p.calls.map (·.size) = [4] ∧ Safe p := by
  obtain ⟨p, run, calls⟩ : ∃ p, Run step Fits {} p ∧ p.calls.map (·.size) = [4] := by
    refine execIf_observe ([.byte true 0xB5, .byte true 0x62, .byte true 1, .reset] ++
      [0xB5, 0x62, 1, 3, 1, 0, 9, 14, 29].map (.byte true)) _ _ ?_
    decide +kernel
  exact ⟨p, run, calls, stream_safe run⟩

end Safety

section Messages

variable {p : Parser} (hdl : Bool) {xs : List UInt8}

theorem feed_header (idle : p.state = .idle) (cls id low high : UInt8) :
    ∃ q, feed hdl p [0xB5, 0x62, cls, id, low, high] = q ∧ q.state = .length2 ∧ q.readBytes = 0 ∧
      q.length = low.toNat ||| high.toNat <<< 8 ∧ Holds q [cls, id, low, high] ∧
      q.calls = p.calls := by
  refine ⟨_, rfl, ?_⟩
  simp only [feed, List.foldl, parse, idle, if_true, true_and]
  have start : Holds { p with ckA := 0, ckB := 0 } [] := holds_nil ⟨rfl, rfl⟩
  exact ⟨(((start.store (by simp)).store (by simp)).store (by simp)).store (by simp), rfl⟩

/-- After a length of 0 the decoder takes every byte for payload. -/
theorem feed_swallowed (bytes : List UInt8) (state : p.state = .length2) (empty : p.length = 0)
    (few : p.readBytes + bytes.length < 2 ^ 16) :
    (feed hdl p bytes).state = .length2 ∧
      (feed hdl p bytes).readBytes = p.readBytes + bytes.length := by
  induction bytes generalizing p with
  | nil => exact ⟨state, rfl⟩
  | cons c rest ih =>
    rw [List.length_cons] at few ⊢
    have next : (p.readBytes + 1) % 2 ^ 16 = p.readBytes + 1 := by omega
    have after : (parse hdl p c).state = .length2 ∧ (parse hdl p c).length = 0 ∧
        (parse hdl p c).readBytes = p.readBytes + 1 := by
      simp only [parse, state, next, empty, Parser.store, Nat.succ_ne_zero, if_false, and_self]
    rw [feed, List.foldl_cons, ← feed]
    have := ih (p := parse hdl p c) after.1 after.2.1 (by omega)
    exact ⟨this.1, by omega⟩

theorem reach_feed (bytes : List UInt8) : Reach step p (feed hdl p bytes) := by
  induction bytes generalizing p with
  | nil => exact .start
  | cons c rest ih => exact Run.trans (.next (.byte hdl c) .start trivial rfl) ih

def zeroLength : List UInt8 := [0xB5, 0x62, classNav, 0, 0, 0] ++ List.replicate 1020 0 ++ [0]

/-- A message with the length 0 is stored behind the buffer. -/
theorem zero_length_outside : ∃ p, Reach step {} p ∧ ¬Safe p := by
  refine ⟨_, reach_feed true zeroLength, ?_⟩
  obtain ⟨q, header, state, start, empty, -⟩ :=
    feed_header (p := {}) true rfl classNav 0 0 0
  obtain ⟨state', read⟩ := feed_swallowed true (List.replicate 1020 0) state empty
    (by rw [start, List.length_replicate]; decide)
  rw [start, List.length_replicate] at read
  rw [zeroLength, feed_append, feed_append, header]
  generalize feed true q (List.replicate 1020 0) = r at state' read
  intro safe
  simp [Safe, feed, parse, state', read, Parser.store] at safe

/-- The bytes that `max6x_send_msg` puts on the bus. -/
def sendMsg (cls id : UInt8) (msg : List UInt8) : List UInt8 :=
  let text := [cls, id, .ofNat (msg.length &&& 0xFF), .ofNat (msg.length >>> 8)] ++ msg
  [0xB5, 0x62] ++ text ++ [(fletcher text).1, (fletcher text).2]

structure Message where
  id : UInt8
  payload : List UInt8
  short : payload.length ≤ 247

namespace Message

variable (m : Message)

def sent : List UInt8 := sendMsg classNav m.id m.payload

def text : List UInt8 :=
  [classNav, m.id, .ofNat m.payload.length, 0] ++ m.payload

/-- The handler is called once, with the last byte, and gets the message. -/
def Received (p : Parser) : Prop :=
  (feed true p m.sent.dropLast).calls = p.calls ∧ (feed true p m.sent).state = .idle ∧
    ∃ call, (feed true p m.sent).calls = p.calls ++ [call] ∧ call.buf.take m.text.length = m.text

theorem sent_eq : m.sent = [0xB5, 0x62, classNav, m.id, .ofNat m.payload.length, 0] ++ m.payload ++
    [(fletcher m.text).1, (fletcher m.text).2] := by
  have length : ∀ n ≤ 247, n &&& 0xFF = n ∧ n >>> 8 = 0 := by decide +kernel
  obtain ⟨low, high⟩ := length _ m.short
  rw [sent, sendMsg, low, high]
  rfl

end Message

theorem feed_payload {rest : List UInt8} (state : p.state = .length2) (holds : Holds p xs)
    (size : xs.length = 4 + p.readBytes) (some : rest ≠ [])
    (whole : p.readBytes + rest.length = p.length) (small : p.length ≤ 1020) :
    ∃ q, feed hdl p rest = q ∧ q.state = .payload ∧ Holds q (xs ++ rest) ∧ q.calls = p.calls := by
  induction rest generalizing p xs with
  | nil => exact absurd rfl some
  | cons c rest ih =>
    rw [List.length_cons] at whole
    have next : (p.readBytes + 1) % 2 ^ 16 = p.readBytes + 1 := by omega
    have stored := holds.store (c := c) (by omega)
    have place : 3 + (p.readBytes + 1) = xs.length := by omega
    rw [feed, List.foldl_cons, ← feed, List.append_cons]
    simp only [parse, state, next, place]
    cases rest with
    | nil =>
      rw [List.append_nil]
      exact ⟨_, rfl, by simpa [feed] using whole, stored, rfl⟩
    | cons d rest =>
      have more : p.readBytes + 1 ≠ p.length := by simp at whole; omega
      simp only [if_neg more]
      exact ih rfl stored (by simp [size]; omega) nofun (by
        simp only [List.length_cons] at whole ⊢
        exact (by omega : p.readBytes + 1 + (rest.length + 1) = p.length)) small

theorem Message.received_iff (m : Message) (idle : p.state = .idle) :
    m.Received p ↔ m.payload ≠ [] := by
  obtain ⟨q, header, state, start, length, holds, calls⟩ :=
    feed_header true idle classNav m.id (.ofNat m.payload.length) 0
  have length : q.length = m.payload.length := by
    rw [length, UInt8.toNat_ofNat_of_lt' (m.short.trans_lt (by decide))]
    exact Nat.or_zero _
  rw [Received, m.sent_eq]
  constructor
  · rintro ⟨-, done, -⟩ empty
    rw [feed_append, feed_append, header, empty] at done
    have swallowed := feed_swallowed true [(fletcher m.text).1, (fletcher m.text).2] state
      (by rw [length, empty]; rfl) (by rw [start]; simp)
    cases swallowed.1.symm.trans done
  · intro nonempty
    obtain ⟨r, payload, state, holds, same⟩ := feed_payload true state holds (by rw [start]; rfl)
      nonempty (by rw [start, length, Nat.zero_add]) (by have := m.short; omega)
    change Holds r m.text at holds
    obtain ⟨first, second⟩ := Prod.ext_iff.mp holds.2
    have nav : r.buf[0] = classNav := by
      have head : (r.buf.toList.take m.text.length)[0]? = some classNav := by rw [holds.1]; rfl
      simpa [Message.text, Vector.getElem?_eq_getElem] using head
    have sums : feed true r [(fletcher m.text).1] = { r with state := .ckA, first := r.ckA } := by
      simp only [feed, List.foldl, parse, state, ← first, if_true]
    rw [List.append_cons, List.dropLast_concat, feed_append true p _ [(fletcher m.text).2],
      feed_append, feed_append, header, payload, sums]
    simp only [feed, List.foldl, parse, ← second, nav, and_self, if_true]
    exact ⟨same.trans calls, trivial, _, by rw [same, calls], holds.1⟩

/-- Each message is received in the state that those before it left. -/
def AllReceived (p : Parser) : List Message → Prop
  | [] => True
  | m :: rest => m.Received p ∧ AllReceived (feed true p m.sent) rest

/-- Messages sent one after the other are all received if and only if none has an empty payload. -/
theorem allReceived_iff (p : {p : Parser // p.state = .idle}) (ms : List Message) :
    AllReceived p ms ↔ ∀ m ∈ ms, m.payload ≠ [] := by
  obtain ⟨p, idle⟩ := p
  induction ms generalizing p with
  | nil => exact iff_of_true trivial nofun
  | cons m rest ih =>
    rw [List.forall_mem_cons, ← m.received_iff idle]
    exact and_congr_right fun received => ih _ received.2.1

theorem allReceived_two : AllReceived {} [⟨3, [9], by decide⟩, ⟨4, [7, 8], by decide⟩] :=
  (allReceived_iff ⟨{}, rfl⟩ _).mpr (by simp)

/-- The decoder waits for the payload of a message that has none, and takes what follows for it. -/
theorem empty_payload_lost : ¬AllReceived {} [⟨0, [], by decide⟩] := fun received =>
  (Message.received_iff ⟨0, [], by decide⟩ rfl).mp received.1 rfl

end Messages

section Polls

def pollSize : Nat := 1024

/-- What the receiver does in a poll: it announces a number of bytes and delivers them. -/
inductive Poll
  | notReady
  | ready (high low : UInt8) (bytes : List UInt8)
      (delivered : bytes.length = min (high.toNat <<< 8 ||| low.toNat) pollSize)

def Poll.delivered : Poll → List UInt8
  | .notReady => []
  | .ready _ _ bytes _ => bytes

/-- The buffer of `max6x_read`, the parser and the bytes it was given. -/
structure Reader where
  buf : List UInt8 := List.replicate pollSize 0
  parser : Parser := {}
  parsed : List UInt8 := []

def Reader.rx (r : Reader) (bytes : List UInt8) : Reader :=
  { r with buf := bytes ++ r.buf.drop bytes.length }

def max6xRead (hdl : Bool) (r : Reader) : Poll → Reader
  | .notReady => r
  | .ready high low bytes _ =>
    let r := r.rx [high, low]
    if min (high.toNat <<< 8 ||| low.toNat) pollSize ≠ 0 then
      let r := r.rx bytes
      -- all of the buffer is parsed
      { r with parser := feed hdl r.parser r.buf, parsed := r.parsed ++ r.buf }
    else r

/-- Nothing is announced, or a full buffer. -/
def Poll.Whole (p : Poll) : Prop := p.delivered.length = 0 ∨ p.delivered.length = pollSize

structure Exact (hdl : Bool) (polls : List Poll) : Prop where
  parsed : (polls.foldl (max6xRead hdl) {}).parsed = polls.flatMap Poll.delivered
  parser : (polls.foldl (max6xRead hdl) {}).parser = feed hdl {} (polls.flatMap Poll.delivered)

variable (hdl : Bool) {r : Reader}

theorem read_poll (full : r.buf.length = pollSize) (poll : Poll) :
    (max6xRead hdl r poll).buf.length = pollSize ∧ ∃ bytes,
      (max6xRead hdl r poll).parsed = r.parsed ++ bytes ∧
      (max6xRead hdl r poll).parser = feed hdl r.parser bytes ∧
      poll.delivered.length ≤ bytes.length ∧ (bytes = poll.delivered ↔ poll.Whole) := by
  cases poll with
  | notReady => exact ⟨full, [], (List.append_nil _).symm, rfl, le_rfl, iff_of_true rfl (.inl rfl)⟩
  | ready high low bytes delivered =>
    simp only [max6xRead, ← delivered]
    have most : bytes.length ≤ pollSize := delivered.trans_le (min_le_right _ _)
    split
    · next some =>
      have size : (bytes ++ ([high, low] ++ r.buf.drop 2).drop bytes.length).length = pollSize := by
        simp [full, pollSize] at most ⊢
        omega
      refine ⟨size, _, rfl, rfl, List.length_append ▸ Nat.le_add_right _ _, ?_⟩
      change _ = bytes ↔ bytes.length = 0 ∨ bytes.length = pollSize
      rw [or_iff_right some, ← size, List.length_append, left_eq_add, List.length_eq_zero_iff]
      exact List.append_right_eq_self
    · next none =>
      obtain rfl : bytes = [] := List.length_eq_zero_iff.mp (not_not.mp none)
      exact ⟨by simp [Reader.rx, full, pollSize], [], (List.append_nil _).symm, rfl, le_rfl,
        iff_of_true rfl (.inl rfl)⟩

theorem read_polls (polls : List Poll) (full : r.buf.length = pollSize) :
    ∃ bytes, (polls.foldl (max6xRead hdl) r).parsed = r.parsed ++ bytes ∧
      (polls.foldl (max6xRead hdl) r).parser = feed hdl r.parser bytes ∧
      (polls.flatMap Poll.delivered).length ≤ bytes.length ∧
      (bytes = polls.flatMap Poll.delivered ↔ ∀ poll ∈ polls, poll.Whole) := by
  induction polls generalizing r with
  | nil => exact ⟨[], (List.append_nil _).symm, rfl, le_rfl, iff_of_true rfl nofun⟩
  | cons poll polls ih =>
    obtain ⟨full, bytes, parsed, parser, least, whole⟩ := read_poll hdl full poll
    obtain ⟨rest, parsed', parser', least', whole'⟩ := ih full
    refine ⟨bytes ++ rest, by rw [List.foldl_cons, parsed', parsed, List.append_assoc],
      by rw [List.foldl_cons, parser', parser, feed_append], ?_, ?_⟩
    · simp only [List.flatMap_cons, List.length_append]
      exact Nat.add_le_add least least'
    · rw [List.forall_mem_cons, ← whole, ← whole', List.flatMap_cons]
      refine ⟨fun same => List.append_inj same ?_, fun same => by rw [same.1, same.2]⟩
      have := congrArg List.length same
      simp only [List.length_append] at this
      omega

/-- The decoder gets the stream if and only if every poll finds nothing or fills the buffer. -/
theorem exact_iff (hdl : Bool) (polls : List Poll) :
    Exact hdl polls ↔ ∀ poll ∈ polls, poll.Whole := by
  obtain ⟨bytes, parsed, parser, -, whole⟩ :=
    read_polls hdl (r := {}) polls List.length_replicate
  rw [← whole]
  exact ⟨fun h => parsed.symm.trans h.parsed, fun same => ⟨same ▸ parsed, same ▸ parser⟩⟩

theorem exact_full : Exact true [.notReady,
    .ready 4 0 (List.replicate pollSize 9) List.length_replicate, .ready 0 0 [] rfl] :=
  (exact_iff true _).mpr (by simp [Poll.Whole, Poll.delivered])

/-- Of one byte announced and delivered 1024 are parsed. -/
theorem one_byte_not_exact : ¬Exact true [.ready 0 1 [0xB5] (by decide)] := by
  intro h
  obtain ⟨bytes, parsed, -, -, whole⟩ := read_polls true (r := {})
    [.ready 0 1 [0xB5] (by decide)] List.length_replicate
  have := whole.mp (parsed.symm.trans h.parsed) _ (List.mem_singleton_self _)
  simp [Poll.Whole, Poll.delivered, pollSize] at this

end Polls

end Max6x
