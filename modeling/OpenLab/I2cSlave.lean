import OpenLab.ByteFields

/-!
# The I2C slave of the control node

`iotlab_i2c_slave.c`: a state machine that gets the events of the I2C driver. The states after the
header carry the handler that it has selected.
-/

namespace I2cSlave

open List

open ByteFields (slice)

inductive MsgType
  | tx | rx
  deriving DecidableEq

structure Handler where
  header : UInt8
  type : MsgType
  payloadLen : Nat
  deriving DecidableEq

def payloadSize : Nat := 32

structure Msg where
  payload : Nat → UInt8
  len : Nat
  timestamp : Nat

def Msg.push (m : Msg) (b : UInt8) : Msg :=
  ⟨fun j => if j = m.len then b else m.payload j, m.len + 1, m.timestamp⟩

structure Table where
  handlers : List Handler
  distinct : handlers.Pairwise fun g h => g.header ≠ h.header
  lengths : ∀ h ∈ handlers, 1 ≤ h.payloadLen ∧ h.payloadLen ≤ payloadSize

inductive Fsm
  | idle
  | getHeader
  | rxPayload (h : Handler)
  | rxWaitRxStop (h : Handler)
  | txWaitTxStart (h : Handler)
  | txPayload (h : Handler)
  | txWaitTxStop

/-- The events with what they bring along: the time at a start, the received byte, and at the
two events that may call a handler the message as that handler leaves it. -/
inductive Event
  | rxStart (time : Nat)
  | rxByte (byte : UInt8)
  | txStart (reply : Msg)
  | txByte
  | stop (reply : Msg)

structure Sys where
  fsm : Fsm
  msg : Msg
  calls : List (Handler × Msg)
  bytes : List UInt8

def error (ev : Event) (s : Sys) : Sys :=
  match ev with
  | .txByte => { s with fsm := .idle, bytes := s.bytes ++ [0xFF] }
  | _ => { s with fsm := .idle }

def decode (table : Table) (msgType : UInt8) : Option Handler :=
  table.handlers.find? fun h => h.header = msgType

/-- `i2c_slave_handler`: one case for each of the state functions, which all leave the other
events to `error`. -/
def step (table : Table) (s : Sys) (ev : Event) : Sys :=
  match s.fsm, ev with
  | .idle, .rxStart time => { s with msg := { s.msg with timestamp := time }, fsm := .getHeader }
  | .getHeader, .rxByte byte =>
    match decode table byte with
    | none => error ev s
    | some h =>
      match h.type with
      | .rx => { s with msg := { s.msg with len := 0 }, fsm := .rxPayload h }
      | .tx => { s with fsm := .txWaitTxStart h }
  | .rxPayload h, .rxByte byte =>
    { s with
      msg := s.msg.push byte
      fsm := if s.msg.len + 1 = h.payloadLen then .rxWaitRxStop h else .rxPayload h }
  | .rxWaitRxStop h, .stop reply =>
    { s with calls := s.calls ++ [(h, s.msg)], msg := reply, fsm := .idle }
  | .txWaitTxStart h, .txStart reply =>
    { s with
      calls := s.calls ++ [(h, s.msg)], msg := { reply with len := 0 }, fsm := .txPayload h }
  | .txPayload h, .txByte =>
    { s with
      bytes := s.bytes ++ [s.msg.payload s.msg.len]
      msg := { s.msg with len := s.msg.len + 1 }
      fsm := if s.msg.len + 1 = h.payloadLen then .txWaitTxStop else .txPayload h }
  | .txWaitTxStop, .stop _ => { s with fsm := .idle }
  | _, ev => error ev s

def runFrom (table : Table) (s : Sys) (l : List Event) : Sys := l.foldl (step table) s

def run (table : Table) (l : List Event) : Sys :=
  runFrom table ⟨.idle, ⟨fun _ => 0, 0, 0⟩, [], []⟩ l

structure RxTransaction (table : Table) where
  handler : Handler
  time : Nat
  payload : List UInt8
  reply : Msg
  registered : handler ∈ table.handlers
  type : handler.type = .rx
  length : payload.length = handler.payloadLen

def RxTransaction.received {table : Table} (x : RxTransaction table) : List Event :=
  .rxStart x.time :: .rxByte x.handler.header :: x.payload.map .rxByte

def RxTransaction.events {table : Table} (x : RxTransaction table) : List Event :=
  x.received ++ [.stop x.reply]

def RxTransaction.Delivers {table : Table} (x : RxTransaction table) (msg : Msg) : Prop :=
  slice msg.payload 0 msg.len = x.payload ∧ msg.timestamp = x.time

/-- A message from a TX handler, which leaves `reply` in the message. -/
structure TxTransaction (table : Table) where
  handler : Handler
  time : Nat
  reply : Msg
  stopReply : Msg
  registered : handler ∈ table.handlers
  type : handler.type = .tx

def TxTransaction.events {table : Table} (x : TxTransaction table) : List Event :=
  .rxStart x.time :: .rxByte x.handler.header :: .txStart x.reply ::
    (List.replicate x.handler.payloadLen .txByte ++ [.stop x.stopReply])

/-- What holds after the events `l`, whatever they are. -/
structure Serves (table : Table) (l : List Event) : Prop where
  index_lt : ∀ h, (run table l).fsm = .rxPayload h ∨ (run table l).fsm = .txPayload h →
    (run table l).msg.len < h.payloadLen ∧ h.payloadLen ≤ payloadSize
  stop_idle : ∀ reply, (run table (l ++ [.stop reply])).fsm = .idle
  rx_served : (run table l).fsm = .idle → ∀ x : RxTransaction table, ∃ msg, x.Delivers msg ∧
    (run table (l ++ x.received)).calls = (run table l).calls ∧
    (run table (l ++ x.events)).calls = (run table l).calls ++ [(x.handler, msg)]
  tx_served : (run table l).fsm = .idle → ∀ x : TxTransaction table, ∃ msg,
    (run table (l ++ x.events)).calls = (run table l).calls ++ [(x.handler, msg)] ∧
    (run table (l ++ x.events)).bytes =
      (run table l).bytes ++ slice x.reply.payload 0 x.handler.payloadLen
  rx_only_complete : ∀ ev h msg, h.type = .rx →
    (run table (l ++ [ev])).calls = (run table l).calls ++ [(h, msg)] →
    ∃ (x : RxTransaction table) (before : List Event),
      x.handler = h ∧ x.Delivers msg ∧ l ++ [ev] = before ++ x.events

variable {table : Table} {l : List Event} {s : Sys} {h : Handler}

theorem runFrom_append (l m : List Event) :
    runFrom table s (l ++ m) = runFrom table (runFrom table s l) m := foldl_append

theorem run_append (l m : List Event) : run table (l ++ m) = runFrom table (run table l) m :=
  runFrom_append l m

/-- The events end with the start of a message for an RX handler, up to the bytes in the buffer. -/
structure Receiving (table : Table) (l : List Event) (s : Sys) (h : Handler) : Prop where
  registered : h ∈ table.handlers
  type : h.type = .rx
  events : ∃ before, l = before ++ .rxStart s.msg.timestamp :: .rxByte h.header ::
    (slice s.msg.payload 0 s.msg.len).map .rxByte

def Matches (table : Table) (l : List Event) (s : Sys) : Prop :=
  match s.fsm with
  | .getHeader => ∃ before, l = before ++ [.rxStart s.msg.timestamp]
  | .rxPayload h => Receiving table l s h ∧ s.msg.len < h.payloadLen
  | .rxWaitRxStop h => Receiving table l s h ∧ s.msg.len = h.payloadLen
  | .txWaitTxStart h => h ∈ table.handlers ∧ h.type = .tx
  | .txPayload h => h ∈ table.handlers ∧ h.type = .tx ∧ s.msg.len < h.payloadLen
  | _ => True

theorem error_eq (ev : Event) (s : Sys) :
    (error ev s).fsm = .idle ∧ (error ev s).calls = s.calls := by
  cases ev <;> exact ⟨rfl, rfl⟩

theorem decode_some {b} (found : decode table b = some h) :
    h ∈ table.handlers ∧ h.header = b :=
  ⟨mem_of_find?_eq_some found, by simpa using find?_some found⟩

theorem decode_registered (registered : h ∈ table.handlers) :
    decode table h.header = some h := by
  have isSome : (decode table h.header).isSome :=
    find?_isSome.mpr ⟨h, registered, decide_eq_true rfl⟩
  obtain ⟨g, found⟩ := Option.isSome_iff_exists.mp isSome
  obtain ⟨member, same⟩ := decode_some found
  have : Std.Symm fun g h : Handler => g.header ≠ h.header := ⟨fun _ _ apart => apart.symm⟩
  have unique : g = h := by
    by_contra other
    exact table.distinct.forall member registered other same
  exact unique ▸ found

theorem Receiving.push {fsm} (b : UInt8) (receiving : Receiving table l s h) :
    Receiving table (l ++ [.rxByte b]) { s with msg := s.msg.push b, fsm := fsm } h := by
  obtain ⟨registered, type, before, eq⟩ := receiving
  refine ⟨registered, type, before, ?_⟩
  rw [show slice (s.msg.push b).payload 0 (s.msg.push b).len = _ from
    ByteFields.slice_snoc s.msg.payload s.msg.len b, eq]
  simp [Msg.push]

theorem matches_step (inv : Matches table l s) (ev : Event) :
    Matches table (l ++ [ev]) (step table s ev) := by
  unfold step
  split <;> rename_i state <;> simp only [Matches, state] at inv
  case h_1 => exact ⟨l, rfl⟩
  case h_2 =>
    obtain ⟨before, eq⟩ := inv
    split
    · exact trivial
    · next h found =>
      obtain ⟨registered, rfl⟩ := decode_some found
      split
      · exact ⟨⟨registered, ‹_›, before, by simp [eq, slice]⟩, (table.lengths h registered).1⟩
      · exact ⟨registered, ‹_›⟩
  case h_3 h b =>
    by_cases full : s.msg.len + 1 = h.payloadLen
    · rw [if_pos full]
      exact ⟨inv.1.push b, full⟩
    · rw [if_neg full]
      exact ⟨inv.1.push b, Nat.lt_of_le_of_ne inv.2 full⟩
  case h_5 h _ => exact ⟨inv.1, inv.2, (table.lengths h inv.1).1⟩
  case h_6 h =>
    by_cases full : s.msg.len + 1 = h.payloadLen
    · rw [if_pos full]
      exact trivial
    · rw [if_neg full]
      exact ⟨inv.1, inv.2.1, Nat.lt_of_le_of_ne inv.2.2 full⟩
  case h_8 =>
    unfold Matches
    rw [(error_eq _ s).1]
    exact trivial
  all_goals exact trivial

theorem matches_run (l : List Event) : Matches table l (run table l) := by
  induction l using reverseRecOn with
  | nil => exact trivial
  | append_singleton l ev ih =>
    rw [run_append]
    exact matches_step ih ev

theorem stop_idle (s : Sys) (reply : Msg) : (step table s (.stop reply)).fsm = .idle := by
  rcases state : s.fsm <;> simp only [step, state] <;> rfl

theorem step_calls (s : Sys) (ev : Event) : (step table s ev).calls = s.calls ∨
    ∃ h reply, (step table s ev).calls = s.calls ++ [(h, s.msg)] ∧
      (s.fsm = .txWaitTxStart h ∨ s.fsm = .rxWaitRxStop h ∧ ev = .stop reply) := by
  unfold step
  split <;> rename_i state
  case h_2 =>
    refine .inl ?_
    split
    · rfl
    · split <;> rfl
  case h_4 h reply => exact .inr ⟨h, reply, rfl, .inr ⟨state, rfl⟩⟩
  case h_5 h reply => exact .inr ⟨h, reply, rfl, .inl state⟩
  case h_8 => exact .inl (error_eq _ s).2
  all_goals exact .inl rfl

theorem called_complete {ev} {msg} (type : h.type = .rx)
    (grown : (run table (l ++ [ev])).calls = (run table l).calls ++ [(h, msg)]) :
    ∃ (x : RxTransaction table) (before : List Event),
      x.handler = h ∧ x.Delivers msg ∧ l ++ [ev] = before ++ x.events := by
  have inv : Matches table l (run table l) := matches_run l
  rw [run_append] at grown
  obtain same | ⟨g, reply, called, place⟩ :
      (step table (run table l) ev).calls = (run table l).calls ∨ _ := step_calls _ ev
  · exact absurd (same.symm.trans grown) (by simp)
  obtain ⟨rfl, rfl⟩ : g = h ∧ (run table l).msg = msg := by
    simpa using called.symm.trans grown
  rcases place with state | ⟨state, rfl⟩ <;> simp only [Matches, state] at inv
  · rw [type] at inv
    cases inv.2
  · obtain ⟨⟨registered, -, before, eq⟩, full⟩ := inv
    refine ⟨⟨g, (run table l).msg.timestamp,
      slice (run table l).msg.payload 0 (run table l).msg.len,
      reply, registered, type, by simp [full]⟩, before, rfl, ⟨rfl, rfl⟩, ?_⟩
    nth_rewrite 1 [eq]
    exact append_assoc ..

theorem runFrom_cons (ev : Event) (l : List Event) :
    runFrom table s (ev :: l) = runFrom table (step table s ev) l := rfl

theorem runFrom_bytes (payload : List UInt8) (s : Sys)
    (state : s.fsm = if s.msg.len = h.payloadLen then .rxWaitRxStop h else .rxPayload h)
    (rest : s.msg.len + payload.length = h.payloadLen) :
    runFrom table s (payload.map .rxByte) =
      { s with msg := payload.foldl Msg.push s.msg, fsm := .rxWaitRxStop h } := by
  induction payload generalizing s with
  | nil =>
    rw [if_pos (show s.msg.len = h.payloadLen from rest)] at state
    rw [← state]
    rfl
  | cons b payload ih =>
    rw [length_cons] at rest
    rw [if_neg (by omega)] at state
    have stepped : step table s (.rxByte b) = { s with
        msg := s.msg.push b
        fsm := if s.msg.len + 1 = h.payloadLen then .rxWaitRxStop h else .rxPayload h } := by
      simp [step, state]
    have rest' : s.msg.len + 1 + payload.length = h.payloadLen := by omega
    rw [map_cons, runFrom_cons, stepped]
    exact ih _ rfl rest'

theorem Msg.foldl_push (payload : List UInt8) (m : Msg) :
    slice (payload.foldl Msg.push m).payload 0 (payload.foldl Msg.push m).len =
        slice m.payload 0 m.len ++ payload ∧
      (payload.foldl Msg.push m).timestamp = m.timestamp := by
  induction payload generalizing m with
  | nil => simp
  | cons b payload ih =>
    obtain ⟨bytes, time⟩ := ih (m.push b)
    rw [show slice (m.push b).payload 0 (m.push b).len = _ from
      ByteFields.slice_snoc m.payload m.len b, append_assoc] at bytes
    exact ⟨bytes, time⟩

theorem runFrom_answer (n : Nat) (s : Sys)
    (state : s.fsm = if s.msg.len = h.payloadLen then .txWaitTxStop else .txPayload h)
    (rest : s.msg.len + n = h.payloadLen) :
    runFrom table s (List.replicate n .txByte) = { s with
      bytes := s.bytes ++ slice s.msg.payload s.msg.len n
      msg := { s.msg with len := h.payloadLen }
      fsm := .txWaitTxStop } := by
  induction n generalizing s with
  | zero =>
    have full : s.msg.len = h.payloadLen := rest
    rw [if_pos full] at state
    rw [← state, ← full]
    simp [slice, runFrom]
  | succ n ih =>
    rw [if_neg (by omega)] at state
    have stepped : step table s .txByte = { s with
        bytes := s.bytes ++ [s.msg.payload s.msg.len]
        msg := { s.msg with len := s.msg.len + 1 }
        fsm := if s.msg.len + 1 = h.payloadLen then .txWaitTxStop else .txPayload h } := by
      simp [step, state]
    have rest' : s.msg.len + 1 + n = h.payloadLen := by omega
    have bytes : slice s.msg.payload s.msg.len (n + 1) =
        [s.msg.payload s.msg.len] ++ slice s.msg.payload (s.msg.len + 1) n := by
      rw [Nat.add_comm n 1, ← ByteFields.slice_append]
      rfl
    rw [replicate_succ, runFrom_cons, stepped, bytes, ← append_assoc]
    exact ih _ rfl rest'

theorem runFrom_header (idle : s.fsm = .idle) (registered : h ∈ table.handlers) (time : Nat)
    (l : List Event) : runFrom table s (.rxStart time :: .rxByte h.header :: l) =
      runFrom table (match h.type with
        | .rx => { s with msg := ⟨s.msg.payload, 0, time⟩, fsm := .rxPayload h }
        | .tx => { s with msg := { s.msg with timestamp := time }, fsm := .txWaitTxStart h })
            l := by
  rw [runFrom_cons, runFrom_cons]
  congr 1
  simp [step, idle, decode_registered registered]

theorem rx_served (idle : (run table l).fsm = .idle) (x : RxTransaction table) :
    ∃ msg, x.Delivers msg ∧ (run table (l ++ x.received)).calls = (run table l).calls ∧
      (run table (l ++ x.events)).calls = (run table l).calls ++ [(x.handler, msg)] := by
  have some_byte := (table.lengths x.handler x.registered).1
  set s := run table l with hs
  have state : runFrom table s x.received = { s with
      msg := x.payload.foldl Msg.push ⟨s.msg.payload, 0, x.time⟩
      fsm := .rxWaitRxStop x.handler } := by
    rw [RxTransaction.received, runFrom_header idle x.registered, x.type]
    exact runFrom_bytes x.payload _ (if_neg (by show 0 ≠ _; omega)).symm
      ((Nat.zero_add _).trans x.length)
  refine ⟨_, Msg.foldl_push x.payload ⟨s.msg.payload, 0, x.time⟩, ?_, ?_⟩
  · rw [run_append, ← hs, state]
  · rw [RxTransaction.events, ← append_assoc, run_append, run_append, ← hs, state]
    rfl

theorem tx_served (idle : (run table l).fsm = .idle) (x : TxTransaction table) :
    ∃ msg, (run table (l ++ x.events)).calls = (run table l).calls ++ [(x.handler, msg)] ∧
      (run table (l ++ x.events)).bytes =
        (run table l).bytes ++ slice x.reply.payload 0 x.handler.payloadLen := by
  have some_byte := (table.lengths x.handler x.registered).1
  set s := run table l with hs
  set t : Sys := { s with
    calls := s.calls ++ [(x.handler, { s.msg with timestamp := x.time })]
    msg := { x.reply with len := 0 }
    fsm := .txPayload x.handler } with ht
  have answer : runFrom table t (replicate x.handler.payloadLen .txByte) = _ :=
    runFrom_answer (h := x.handler) _ t (if_neg (by show 0 ≠ _; omega)).symm (Nat.zero_add _)
  refine ⟨{ s.msg with timestamp := x.time }, ?_⟩
  rw [run_append, ← hs, TxTransaction.events, runFrom_header idle x.registered,
    x.type, runFrom_cons,
    runFrom_append, show step table _ (.txStart x.reply) = t from rfl, answer]
  exact ⟨rfl, rfl⟩

/-- Whatever events come, the slave stays within its buffer, is idle after a stop, serves
every complete transaction and calls an RX handler for nothing else. -/
theorem slave_serves (table : Table) (l : List Event) : Serves table l := by
  refine ⟨?_, ?_, rx_served, tx_served, ?_⟩
  · intro h state
    have inv : Matches table l (run table l) := matches_run l
    rcases state with state | state <;> simp only [Matches, state] at inv
    · exact ⟨inv.2, (table.lengths h inv.1.registered).2⟩
    · exact ⟨inv.2.2, (table.lengths h inv.1).2⟩
  · intro reply
    rw [run_append]
    exact stop_idle _ reply
  · intro ev h msg type grown
    exact called_complete type grown

def rxAndTx : Table where
  handlers := [⟨0x10, .rx, 2⟩, ⟨0x20, .tx, 3⟩]
  distinct := by decide
  lengths := by decide

def twoBytes : RxTransaction rxAndTx :=
  ⟨⟨0x10, .rx, 2⟩, 5, [1, 2], ⟨fun _ => 0, 0, 0⟩, by decide, rfl, rfl⟩

def threeBytes : TxTransaction rxAndTx :=
  ⟨⟨0x20, .tx, 3⟩, 9, ⟨fun j => UInt8.ofNat (7 + j), 3, 0⟩, ⟨fun _ => 0, 0, 0⟩, by decide, rfl⟩

theorem slave_serves_both : ∃ m m', twoBytes.Delivers m ∧
    (run rxAndTx (twoBytes.events ++ threeBytes.events)).calls =
      [(twoBytes.handler, m), (threeBytes.handler, m')] ∧
    (run rxAndTx (twoBytes.events ++ threeBytes.events)).bytes = [7, 8, 9] := by
  obtain ⟨m, delivers, -, first⟩ := (slave_serves rxAndTx []).rx_served rfl twoBytes
  have idle := (slave_serves rxAndTx twoBytes.received).stop_idle twoBytes.reply
  obtain ⟨m', second, bytes⟩ := (slave_serves rxAndTx twoBytes.events).tx_served idle threeBytes
  refine ⟨m, m', delivers, ?_, bytes.trans (by decide)⟩
  rw [second, ← nil_append twoBytes.events, first]
  rfl

end I2cSlave
