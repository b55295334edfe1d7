import OpenLab.MscRead
import OpenLab.ScsiRange

/-!
# WRITE(10) transfers

The host sends one WRITE(10) command and its data in packets of 64 bytes; the events are handled
at any later time. The calls are counted in the 8-bit `cnum`, for which 0 means the first call,
and the call for the 256th block has the count 0 again.
-/

namespace UsbMsc

open Scsi ScsiMmapfs Schedules List Option
open ByteFields (slice length_slice div_mod_next div_mod_last)

structure IsWrite (cfg : Config) (q : List UInt8) : Prop extends IsTransfer cfg q where
  code : (Cbw.ofBytes q).cb 0 = CdbOp.write10.code
  flags : (Cbw.ofBytes q).flags &&& 0x80 = 0
  write10 : (unit cfg q).write10 = true

/-- A command and its data; the bytes from `512 * blocks packet` on are not sent. -/
structure Write (cfg : Config) where
  packet : List UInt8
  data : Nat → UInt8
  isWrite : IsWrite cfg packet

namespace Write

variable {cfg : Config} (w : Write cfg)

def total : Nat := packetsPerBlock * blocks w.packet

def part (i : Nat) : List UInt8 := slice w.data (endpointSize * i) endpointSize

def script : Nat → List UInt8
  | 0 => w.packet
  | i + 1 => w.part i

def block (j : Nat) : List UInt8 := slice w.data (blocksize * j) blocksize

/-- What the unit makes of the first `k` blocks. -/
def stored (k : Nat) : List (Place × List UInt8) :=
  (List.range k).filterMap fun j =>
    ((unit cfg w.packet).device.target (lba w.packet + j)).map (·, w.block j)

/-- What the host asks for: each block in the place of its own sector. -/
def asked : List (Option Place × List UInt8) :=
  (List.range (blocks w.packet)).map fun j =>
    ((unit cfg w.packet).device.home (lba w.packet + j), w.block j)

def logged (l : List (Place × List UInt8)) : List (Option Place × List UInt8) :=
  l.map fun x => (some x.1, x.2)

def status : List UInt8 := csw (Cbw.ofBytes w.packet).tag .passed

/-- The host follows its script, and the medium works. -/
def Host (s : Sys) : Action → Prop
  | .out p => s.sent.length ≤ w.total ∧ p = w.script s.sent.length
  | .take => True
  | .event env => env.fault = false

structure Idle (s : Sys) : Prop where
  state : s.state = .none
  idx : s.buff.idx = 0
  len : s.buff.len = 0
  events : s.events = []
  outStat : s.outStat = .valid
  inPacket : s.inPacket = none
  halted : s.halted = false
  sent : s.sent = []
  received : s.received = []
  written : s.written = []

/-- The blocks are written in order and once, the status is sent once and after all of them,
and this is what the transfer comes to. -/
structure Stores (s : Sys) : Prop where
  in_order : logged s.written <+: w.asked
  status : delivered s = [] ∨ delivered s = [w.status] ∧ logged s.written = w.asked
  finishes : ∃ t, Run (step cfg) w.Host s t ∧ t.received = [w.status] ∧
    logged t.written = w.asked

structure Filling (i : Nat) (s : Sys) : Prop where
  state : s.state = .dataOut
  idx : s.buff.idx = endpointSize * (i % packetsPerBlock)
  len : s.buff.len = 0
  data : ∀ j < endpointSize * (i % packetsPerBlock),
    s.buff.data j = w.data (blocksize * (i / packetsPerBlock) + j)
  cnum : s.cnum.toNat = i / packetsPerBlock
  rest : Rest .write10 w.packet (i / packetsPerBlock) s.cbw
  written : s.written = w.stored (i / packetsPerBlock)
  inPacket : s.inPacket = none
  received : s.received = []
  halted : s.halted = false

variable {w} {i : Nat} {s : Sys}

theorem length_part (i : Nat) : (w.part i).length = endpointSize := length_slice _ _ _

theorem Filling.store_part (filling : w.Filling i s) {j}
    (inside : j < endpointSize * (i % packetsPerBlock + 1)) :
    store s.buff.data s.buff.idx (w.part i) j =
      w.data (blocksize * (i / packetsPerBlock) + j) := by
  have idx := filling.idx
  have split := Nat.div_add_mod i packetsPerBlock
  unfold packetsPerBlock at idx inside split
  unfold endpointSize at idx inside
  by_cases old : j < s.buff.idx
  · have outside : ¬ (s.buff.idx ≤ j ∧ j < s.buff.idx + (w.part i).length) := by omega
    rw [store, if_neg outside]
    exact filling.data j (by rw [← filling.idx]; exact old)
  · have here : s.buff.idx ≤ j ∧ j < s.buff.idx + (w.part i).length := by
      rw [length_part]
      unfold endpointSize
      omega
    have place : j - s.buff.idx < endpointSize := by
      unfold endpointSize
      omega
    have source : endpointSize * i + (j - s.buff.idx) =
        blocksize * (i / packetsPerBlock) + j := by
      unfold endpointSize blocksize packetsPerBlock
      omega
    rw [store, if_pos here, part, slice]
    simp [place, source]

theorem dataOut_more (env : Env) {t} (state : s.state = .dataOut)
    (read : usbMscReadDataFromEndpoint s = (false, t)) : usbMscEvHandler cfg env s = t := by
  simp [usbMscEvHandler, state, read]

theorem dataOut_full (env : Env) {t} (state : s.state = .dataOut)
    (read : usbMscReadDataFromEndpoint s = (true, t)) :
    usbMscEvHandler cfg env s = (usbMscScsiHandler cfg env false t).2 := by
  simp [usbMscEvHandler, state, read]

theorem Filling.inside (env : Env) (filling : w.Filling i s) (packet : s.outPacket = w.part i)
    (more : i % packetsPerBlock + 1 < packetsPerBlock) :
    ∃ b : Buff, usbMscEvHandler cfg env s = { s with buff := b, outStat := .valid } ∧
      w.Filling (i + 1) { s with buff := b, outStat := .valid } := by
  have room : s.buff.idx + endpointSize < bufferSize := by
    rw [filling.idx]
    unfold endpointSize bufferSize packetsPerBlock at *
    omega
  have read := read_more (by rw [packet]; exact length_part i) room
  refine ⟨_, dataOut_more env filling.state read, ?_⟩
  · obtain ⟨block, place⟩ := div_mod_next (p := packetsPerBlock) more
    refine ⟨filling.state, ?_, filling.len, ?_, ?_, ?_, ?_, filling.inPacket, filling.received,
      filling.halted⟩
    · rw [place, Nat.mul_add, Nat.mul_one, ← filling.idx]
    · rw [place, block, packet]
      intro j hj
      exact filling.store_part hj
    · rw [block]
      exact filling.cnum
    · rw [block]
      exact filling.rest
    · rw [block]
      exact filling.written

def full (s : Sys) : Sys :=
  { s with
    buff := ⟨store s.buff.data s.buff.idx s.outPacket, 0, bufferSize⟩
    outStat := .valid }

theorem Filling.ends (env : Env) (filling : w.Filling i s) (packet : s.outPacket = w.part i)
    (last : i % packetsPerBlock + 1 = packetsPerBlock) :
    usbMscEvHandler cfg env s = (usbMscScsiHandler cfg env false (full s)).2 := by
  have fills : s.buff.idx + endpointSize = bufferSize := by
    rw [filling.idx]
    unfold endpointSize bufferSize packetsPerBlock at *
    omega
  have read := read_last (by rw [packet]; exact length_part i) fills filling.len
  exact dataOut_full env filling.state read

theorem Filling.full_fits (filling : w.Filling i s)
    (some_left : i / packetsPerBlock < blocks w.packet) :
    (scsiParams (count false (full s))).Fits (unit cfg w.packet).device := by
  refine Rest.fits (s := count false (full s)) w.isWrite.toIsTransfer filling.rest some_left ?_
  show blocksize ≤ if s.state = .dataOut then bufferSize else _
  rw [if_pos filling.state]
  decide

theorem write_call {k} (rest : Rest .write10 w.packet k s.cbw) (fault : Bool) :
    processCommand cfg fault (scsiParams s) =
      { (unit cfg w.packet).device.write10 fault (scsiParams s) with
        indexed := [s.cbw.lun.toNat] } := by
  have op : cdbOp (scsiParams s).cmd = some .write10 := by
    have code : (scsiParams s).cmd 0 = 0x2a := rest.code
    rw [cdbOp, code]
    rfl
  have lun : cfg.lun (scsiParams s).lun = unit cfg w.packet := congrArg cfg.lun rest.lun
  simp only [processCommand, op, CdbOp.cmd, cmdWrite10, lun, w.isWrite.write10, if_true]
  rfl

theorem write_goes_out {k} (rest : Rest .write10 w.packet k s.cbw)
    (some_left : k < blocks w.packet) :
    (¬ s.cbw.flags &&& 0x80 ≠ 0) ∧ 0 < s.cbw.dataTransferLength := by
  constructor
  · rw [rest.flags]
    exact not_not.mpr w.isWrite.flags
  · rw [rest.left]
    unfold blocksize
    omega

theorem stored_succ (k : Nat) : w.stored (k + 1) = w.stored k ++
    (((unit cfg w.packet).device.target (lba w.packet + k)).map (·, w.block k)).toList := by
  rw [stored, range_succ, filterMap_append, ← stored]
  cases h : (unit cfg w.packet).device.target (lba w.packet + k) <;> simp [h]

def blockWritten (w : Write cfg) (c : Cbw) (data : Sector) (k : Nat) (s : Sys) : Sys :=
  { count false (full s) with
    cbw := { c with dataTransferLength := s.cbw.dataTransferLength }
    buff := ⟨data, 0, bufferSize⟩
    written := w.stored (k + 1) }

theorem Filling.stores_block (env : Env) (working : env.fault = false) (filling : w.Filling i s)
    (packet : s.outPacket = w.part i) (last : i % packetsPerBlock + 1 = packetsPerBlock)
    (some_left : i / packetsPerBlock < blocks w.packet) (counted : i / packetsPerBlock < 255) :
    ∃ (c : Cbw) (data : Sector), Rest .write10 w.packet (i / packetsPerBlock + 1) c ∧
      usbMscEvHandler cfg env s =
        goodOut blocksize (w.blockWritten c data (i / packetsPerBlock) s) := by
  set k := i / packetsPerBlock with hk
  have fits := filling.full_fits some_left
  have later : (scsiParams (count false (full s))).cont ≠ 0 := by
    show s.cnum + 1 ≠ 0
    intro zero
    have value : (s.cnum + 1).toNat = k + 1 := by
      rw [UInt8.toNat_add, filling.cnum, ← hk]
      exact Nat.mod_eq_of_lt (show k + 1 < 2 ^ 8 by omega)
    rw [zero] at value
    cases value
  obtain ⟨hlba, hlen⟩ := filling.rest.cdb some_left
  obtain ⟨r, hr, rcmd, rwritten⟩ := (unit cfg w.packet).device.write10_fits fits later
  have hr : (unit cfg w.packet).device.write10 false (scsiParams (count false (full s))) =
      r.advance (lba w.packet + k) (blocks w.packet - k) := by
    rw [hr, ← hlba, ← hlen]
    rfl
  have block : (range blocksize).map (scsiParams (count false (full s))).data = w.block k := by
    rw [Write.block, slice]
    refine map_congr_left ?_
    intro j hj
    show store s.buff.data s.buff.idx s.outPacket j = _
    rw [packet]
    refine filling.store_part ?_
    rw [last]
    exact mem_range.mp hj
  have rwritten : s.written ++ r.written = w.stored (k + 1) := by
    rw [stored_succ, filling.written, rwritten, block, ← hlba]
    rfl
  obtain ⟨status, datalen, -⟩ := r.advance_good (lba w.packet + k) (Nat.sub_pos_of_lt some_left)
  obtain ⟨data, written, -⟩ := r.advance_keeps (lba w.packet + k) (blocks w.packet - k)
  refine ⟨_, r.data, filling.rest.advance w.isWrite.toIsTransfer rcmd, ?_⟩
  obtain ⟨flags, positive⟩ := write_goes_out filling.rest some_left
  rw [filling.ends env packet last, usbMscScsiHandler,
    write_call (s := count false (full s)) filling.rest, working, hr]
  simp only [conclude, status, datalen, data, written, count, full, positive, flags,
    getD_some, if_true, if_false, rwritten]
  rfl

theorem goodOut_more (state : s.state = .dataOut) (len : s.buff.len = blocksize)
    (more : blocksize < s.cbw.dataTransferLength) (small : s.cbw.dataTransferLength < 2 ^ 32) :
    goodOut blocksize s = { s with
      buff := ⟨s.buff.data, 0, 0⟩
      cbw := { s.cbw with dataTransferLength := s.cbw.dataTransferLength - blocksize }
      cswStatus := .passed } := by
  have left : (s.cbw.dataTransferLength + 2 ^ 32 - blocksize) % 2 ^ 32 =
      s.cbw.dataTransferLength - blocksize := by
    omega
  have some_left : s.cbw.dataTransferLength - blocksize ≠ 0 := by omega
  simp only [goodOut, state, len, ne_eq, not_true_eq_false, if_false, usbMscCloseReadBuff, left,
    if_neg some_left]

/-- The status is sent when nothing is left, and also when the length is not that of the buffer:
the length is then taken for what is left, too. -/
theorem goodOut_closes {datalen} (state : s.state = .dataOut)
    (done : datalen ≠ s.buff.len ∨ s.cbw.dataTransferLength = datalen) :
    ∃ (b : Buff) (c : Cbw), goodOut datalen s = { usbSend (csw s.cbw.tag .passed) s with
      buff := b, cbw := c, cswStatus := .passed, state := .statusSent } ∧ b.len = 0 := by
  have total : (if datalen ≠ s.buff.len then datalen else s.cbw.dataTransferLength) = datalen := by
    by_cases other : datalen ≠ s.buff.len
    · exact if_pos other
    · exact (if_neg other).trans (done.resolve_left other)
  have left : (datalen + 2 ^ 32 - datalen) % 2 ^ 32 = 0 := by
    rw [Nat.add_sub_cancel_left, Nat.mod_self]
  refine ⟨⟨store s.buff.data 0 (csw s.cbw.tag .passed), 0, 0⟩,
    { s.cbw with dataTransferLength := 0 }, ?_, rfl⟩
  rw [goodOut, if_neg (not_not.mpr state)]
  simp only [total, left, usbMscCloseReadBuff, ne_eq, not_true_eq_false, if_false, if_true]
  rfl

theorem transfer_lt (w : Write cfg) (k : Nat) : blocksize * (blocks w.packet - k) < 2 ^ 32 := by
  have := blocks_lt w.packet
  unfold blocksize
  omega

theorem Filling.next_block (env : Env) (working : env.fault = false) (filling : w.Filling i s)
    (packet : s.outPacket = w.part i) (last : i % packetsPerBlock + 1 = packetsPerBlock)
    (more : i / packetsPerBlock + 1 < blocks w.packet) (counted : i / packetsPerBlock < 255) :
    ∃ (b : Buff) (c : Cbw), usbMscEvHandler cfg env s = { s with
        buff := b, cbw := c, cnum := s.cnum + 1, cswStatus := .passed, outStat := .valid,
        written := w.stored (i / packetsPerBlock + 1) } ∧
      w.Filling (i + 1) { s with
        buff := b, cbw := c, cnum := s.cnum + 1, cswStatus := .passed, outStat := .valid,
        written := w.stored (i / packetsPerBlock + 1) } := by
  obtain ⟨c, data, rest, eq⟩ := filling.stores_block env working packet last (by omega) counted
  obtain ⟨block, place⟩ := div_mod_last (p := packetsPerBlock) last
  have left := filling.rest.left
  have large : blocksize < s.cbw.dataTransferLength := by
    rw [left]
    unfold blocksize
    omega
  have small : s.cbw.dataTransferLength < 2 ^ 32 := by
    rw [left]
    exact transfer_lt w _
  refine ⟨⟨data, 0, 0⟩, c, ?_, ?_⟩
  · rw [eq, goodOut_more (s := w.blockWritten c data (i / packetsPerBlock) s) filling.state rfl
      large small]
    have transfer : s.cbw.dataTransferLength - blocksize = c.dataTransferLength := by
      rw [left, rest.left, ← Nat.mul_sub_one, Nat.sub_sub]
    simp only [blockWritten, transfer]
    rfl
  · refine ⟨filling.state, ?_, rfl, ?_, ?_, ?_, ?_, filling.inPacket, filling.received,
      filling.halted⟩
    · rw [place]
      rfl
    · rw [place]
      intro j hj
      exact absurd hj (Nat.not_lt_zero j)
    · rw [block]
      show (s.cnum + 1).toNat = _
      rw [UInt8.toNat_add, filling.cnum]
      exact Nat.mod_eq_of_lt (show i / packetsPerBlock + 1 < 2 ^ 8 by omega)
    · rw [block]
      exact rest
    · rw [block]

theorem Filling.last_block (env : Env) (working : env.fault = false) (filling : w.Filling i s)
    (packet : s.outPacket = w.part i) (all : i + 1 = w.total)
    (counted : i / packetsPerBlock < 255) :
    ∃ (b : Buff) (c : Cbw), usbMscEvHandler cfg env s = { usbSend w.status s with
        buff := b, cbw := c, cnum := s.cnum + 1, cswStatus := .passed, outStat := .valid,
        state := .statusSent, written := w.stored (blocks w.packet) } ∧ b.len = 0 := by
  have last : i % packetsPerBlock + 1 = packetsPerBlock := by
    unfold total packetsPerBlock at *
    omega
  have final : i / packetsPerBlock + 1 = blocks w.packet := by
    unfold total packetsPerBlock at *
    omega
  obtain ⟨c, data, rest, eq⟩ := filling.stores_block env working packet last (by omega) counted
  have left : s.cbw.dataTransferLength = blocksize := by
    have one : blocks w.packet - i / packetsPerBlock = 1 := by omega
    rw [filling.rest.left, one, Nat.mul_one]
  obtain ⟨b, c', closes, empty⟩ :=
    goodOut_closes (s := w.blockWritten c data (i / packetsPerBlock) s) filling.state (.inr left)
  refine ⟨b, c', ?_, empty⟩
  rw [eq, closes]
  have tag : csw c.tag .passed = w.status := by rw [rest.tag]; rfl
  simp only [blockWritten, tag, final]
  rfl

/-- The call for the block 255 has the count 0: nothing is written, and whatever is found in
`datalen`, unless it is the length of a block, ends the transfer with a good status. -/
theorem Filling.lost_block (env : Env) (filling : w.Filling i s) (packet : s.outPacket = w.part i)
    (last : i % packetsPerBlock + 1 = packetsPerBlock) (wraps : i / packetsPerBlock = 255)
    (some_left : i / packetsPerBlock < blocks w.packet)
    (other : env.datalen % 2 ^ 32 ≠ blocksize) :
    delivered (usbMscEvHandler cfg env s) = [w.status] ∧
      (usbMscEvHandler cfg env s).written = w.stored 255 := by
  have start : (scsiParams (count false (full s))).cont = 0 := by
    show s.cnum + 1 = 0
    apply UInt8.toNat_inj.mp
    rw [UInt8.toNat_add, filling.cnum, wraps]
    rfl
  have accepted := (unit cfg w.packet).device.write10_start env.fault
    (filling.full_fits some_left) start
  obtain ⟨flags, positive⟩ := write_goes_out filling.rest some_left
  have eq : usbMscEvHandler cfg env s =
      goodOut (env.datalen % 2 ^ 32) (count false (full s)) := by
    rw [filling.ends env packet last, usbMscScsiHandler,
      write_call (s := count false (full s)) filling.rest, accepted]
    simp only [conclude, Result.assign, Params.leave, getD_some, getD_none, if_true,
      count, full, positive, flags, if_false, append_nil]
    rfl
  obtain ⟨b, c, closes, -⟩ := goodOut_closes (s := count false (full s)) filling.state
    (.inl other)
  rw [eq, closes]
  refine ⟨?_, ?_⟩
  · show s.received ++ [csw s.cbw.tag .passed] = _
    rw [filling.received, filling.rest.tag]
    rfl
  · show s.written = _
    rw [filling.written, wraps]

/-- After `i` packets of the data were read: the next one has arrived or not. -/
inductive Arrived (w : Write cfg) (i : Nat) (s : Sys) (queue : List Event) : Prop
  | none (count : s.sent.length = i + 1) (valid : s.outStat = .valid) (empty : queue = [])
  | one (count : s.sent.length = i + 2) (nak : s.outStat = .nak)
      (packet : s.outPacket = w.part i) (posted : queue = [.evOut])

structure Accepted (w : Write cfg) (s : Sys) : Prop where
  state : s.state = .ready
  command : s.cbw = Cbw.ofBytes w.packet
  idx : s.buff.idx = 0
  len : s.buff.len = 0
  written : s.written = []
  inPacket : s.inPacket = none
  received : s.received = []
  halted : s.halted = false

structure Closed (w : Write cfg) (s : Sys) : Prop where
  count : s.sent.length = w.total + 1
  written : s.written = w.stored (blocks w.packet)
  status : delivered s = [w.status]
  halted : s.halted = false

inductive WritePhase (w : Write cfg) (s : Sys) : Prop
  | start (idle : Idle s)
  | ready (queue : List Event) (accepted : Accepted w s) (arrived : Arrived w 0 s queue)
      (events : s.events = .evOut :: queue)
  | data (i : Nat) (more : i < w.total) (filling : w.Filling i s) (arrived : Arrived w i s s.events)
  | closing (state : s.state = .statusSent) (token : Token s) (closed : Closed w s)
  | finished (state : s.state = .none) (events : s.events = []) (inPacket : s.inPacket = none)
      (closed : Closed w s)

theorem total_pos (w : Write cfg) : 0 < w.total :=
  Nat.mul_pos (by decide) w.isWrite.some_block

theorem Accepted.event (env : Env) (accepted : Accepted w s) :
    usbMscEvHandler cfg env s =
        { s with cnum := 0, cswStatus := .passed, state := .dataOut } ∧
      w.Filling 0 { s with cnum := 0, cswStatus := .passed, state := .dataOut } := by
  have rest : Rest .write10 w.packet 0 s.cbw := by
    rw [accepted.command]
    exact rest_zero w.isWrite.toIsTransfer w.isWrite.code
  have state := accepted.state
  have fits : (scsiParams (count true s)).Fits (unit cfg w.packet).device := by
    refine Rest.fits (s := count true s) w.isWrite.toIsTransfer rest w.isWrite.some_block ?_
    show blocksize ≤ if s.state = .dataOut then _ else bufferSize
    rw [state, if_neg (by decide)]
    decide
  have start := (unit cfg w.packet).device.write10_start env.fault fits rfl
  obtain ⟨flags, positive⟩ := write_goes_out rest w.isWrite.some_block
  have handler : usbMscScsiHandler cfg env true s =
      (0, { s with cnum := 0, cswStatus := .passed, state := .dataOut }) := by
    have other : s.state ≠ .dataOut := by
      rw [state]
      decide
    rw [usbMscScsiHandler, write_call (s := count true s) rest, start]
    simp only [conclude, Result.assign, Params.leave, getD_some, count, positive, flags,
      if_false, if_true, append_nil, goodOut, ne_eq, other, not_false_eq_true]
    rfl
  refine ⟨?_, ?_⟩
  · simp [usbMscEvHandler, state, handler]
  · refine ⟨rfl, accepted.idx, accepted.len, ?_, rfl, rest, accepted.written, accepted.inPacket,
      accepted.received, accepted.halted⟩
    intro j hj
    exact absurd hj (Nat.not_lt_zero j)

theorem out_part (state : s.state = .ready ∨ s.state = .dataOut) (halted : s.halted = false)
    (count : s.sent.length = i + 1) (valid : s.outStat = .valid) :
    step cfg s (.out (w.script s.sent.length)) = some { s with
      outPacket := w.part i, outStat := .nak, sent := s.sent ++ [w.part i],
      events := s.events ++ [.evOut] } := by
  rw [count]
  rcases state with state | state <;> simp [step, halted, valid, usbMscDataOut, state, script]

theorem Idle.accepts (idle : Idle s) :
    step cfg s (.out (w.script s.sent.length)) = some (accept w.packet s) := by
  rw [idle.sent]
  exact out_command w.isWrite.toIsTransfer idle.halted idle.outStat (.inl idle.state)

theorem arrives (count : s.sent.length = i + 1) {t} {queue}
    (ht : t.sent = s.sent ++ [w.part i]) (nak : t.outStat = .nak) (packet : t.outPacket = w.part i)
    (posted : queue = [.evOut]) : Arrived w i t queue := by
  refine .one ?_ nak packet posted
  rw [ht, length_append, count, length_singleton]

theorem phase_out {u} (phase : WritePhase w s) (host : s.sent.length ≤ w.total)
    (h : step cfg s (.out (w.script s.sent.length)) = some u) :
    WritePhase w u ∧ u.sent.length = s.sent.length + 1 ∧ u.received = s.received ∧
      u.events.length = s.events.length + 1 := by
  cases phase with
  | start idle =>
    obtain rfl := some.inj (idle.accepts.symm.trans h)
    have one : (s.sent ++ [w.packet]).length = 1 := by
      rw [idle.sent]
      rfl
    refine ⟨.ready [] ⟨rfl, rfl, idle.idx, idle.len, idle.written, idle.inPacket, idle.received,
      idle.halted⟩ (.none one rfl rfl) ?_, length_append, rfl, length_append⟩
    show s.events ++ _ = _
    rw [idle.events]
    rfl
  | ready queue accepted arrived events =>
    cases arrived with
    | one count nak packet posted => simp [step, nak] at h
    | none count valid empty =>
      rw [out_part (.inl accepted.state) accepted.halted count valid] at h
      cases h
      refine ⟨.ready [.evOut] { accepted with } (arrives count rfl rfl rfl rfl) ?_,
        length_append, rfl, length_append⟩
      show s.events ++ _ = _
      rw [events, empty]
      rfl
  | data i more filling arrived =>
    cases arrived with
    | one count nak packet posted => simp [step, nak] at h
    | none count valid empty =>
      rw [out_part (.inr filling.state) filling.halted count valid] at h
      cases h
      refine ⟨.data i more { filling with } (arrives count rfl rfl rfl ?_), length_append, rfl,
        length_append⟩
      show s.events ++ _ = _
      rw [empty]
      rfl
  | closing _ _ closed | finished _ _ _ closed =>
    have := closed.count
    omega

theorem Filling.event (env : Env) (working : env.fault = false) (filling : w.Filling i s)
    (packet : s.outPacket = w.part i) (more : i + 1 < w.total)
    (counted : i % packetsPerBlock + 1 = packetsPerBlock → i / packetsPerBlock < 255) :
    ∃ t, usbMscEvHandler cfg env s = t ∧ w.Filling (i + 1) t ∧ t.outStat = .valid ∧
      t.events = s.events ∧ t.sent = s.sent ∧ t.received = s.received := by
  by_cases inside : i % packetsPerBlock + 1 < packetsPerBlock
  · obtain ⟨b, eq, filling'⟩ := filling.inside env packet inside
    exact ⟨_, eq, filling', rfl, rfl, rfl, rfl⟩
  · have ends : i % packetsPerBlock + 1 = packetsPerBlock := by
      have := Nat.mod_lt i (show 0 < packetsPerBlock by decide)
      omega
    have blocks_left : i / packetsPerBlock + 1 < blocks w.packet := by
      unfold total packetsPerBlock at *
      omega
    obtain ⟨b, c, eq, filling'⟩ :=
      filling.next_block env working packet ends blocks_left (counted ends)
    exact ⟨_, eq, filling', rfl, rfl, rfl, rfl⟩

theorem phase_event {env} {u} (short : blocks w.packet ≤ 255)
    (working : env.fault = false) (phase : WritePhase w s)
    (h : step cfg s (.event env) = some u) :
    WritePhase w u ∧ u.sent = s.sent ∧ u.received = s.received ∧
      u.events.length + 1 = s.events.length := by
  cases phase with
  | start idle => simp [step, idle.events] at h
  | ready queue accepted arrived events =>
    obtain rfl := some.inj ((step_event cfg env events accepted.halted).symm.trans h)
    obtain ⟨eq, filling⟩ := Accepted.event (s := { s with events := queue }) env { accepted with }
    rw [eq, events]
    refine ⟨.data 0 w.total_pos filling ?_, rfl, rfl, rfl⟩
    cases arrived with
    | none count valid empty => exact .none count valid empty
    | one count nak packet posted => exact .one count nak packet posted
  | data i more filling arrived =>
    cases arrived with
    | none count valid empty => simp [step, empty] at h
    | one count nak packet posted =>
      obtain rfl := some.inj ((step_event cfg env posted filling.halted).symm.trans h)
      have counted : i / packetsPerBlock < 255 := by
        unfold total packetsPerBlock at *
        omega
      have filling : w.Filling i { s with events := [] } := { filling with }
      rw [posted]
      by_cases all : i + 1 = w.total
      · obtain ⟨b, c, eq, empty⟩ := filling.last_block env working packet all counted
        rw [eq]
        refine ⟨.closing rfl (.waits w.status rfl rfl) ⟨count.trans (by omega), rfl, ?_,
          filling.halted⟩, rfl, rfl, rfl⟩
        show s.received ++ _ = _
        rw [filling.received]
        rfl
      · obtain ⟨t, eq, filling', valid, events, sent, received⟩ :=
          filling.event env working packet (by omega) (fun _ => counted)
        rw [eq, events, sent, received]
        exact ⟨.data (i + 1) (by omega) filling' (.none (by rw [sent]; exact count) valid events),
          rfl, rfl, rfl⟩
  | closing state token closed =>
    cases token with
    | waits _ _ queue => simp [step, queue] at h
    | queued slot queue =>
      obtain rfl := some.inj ((step_event cfg env queue closed.halted).symm.trans h)
      have eq : usbMscEvHandler cfg env { s with events := [] } =
          { s with events := [], state := .none } := by
        simp [usbMscEvHandler, state]
      rw [eq, queue]
      exact ⟨.finished rfl rfl slot { closed with }, rfl, rfl, rfl⟩
  | finished _ events => simp [step, events] at h

theorem phase_take {u} (phase : WritePhase w s) (h : step cfg s .take = some u) :
    WritePhase w u ∧ u.sent = s.sent ∧ u.received = [w.status] ∧ s.received = [] ∧
      u.events.length = s.events.length + 1 := by
  cases phase with
  | start idle => simp [step, idle.inPacket] at h
  | ready _ accepted => simp [step, accepted.inPacket] at h
  | data _ _ filling => simp [step, filling.inPacket] at h
  | finished _ _ inPacket => simp [step, inPacket] at h
  | closing state token closed =>
    cases token with
    | queued slot => simp [step, slot] at h
    | waits packet slot queue =>
      obtain rfl : { s with
          inPacket := none, received := s.received ++ [packet], events := [.evIn] } = u := by
        simpa [step, slot, closed.halted, usbMscDataIn, queue] using h
      have status := closed.status
      rw [delivered, slot] at status
      have before : s.received = [] := by
        have := congrArg length status
        simpa using this
      rw [queue]
      refine ⟨.closing state (.queued rfl rfl) ⟨closed.1, closed.2, ?_, closed.4⟩, rfl, status,
        before, rfl⟩
      show (s.received ++ [packet]) ++ [] = _
      rw [append_nil]
      exact status

theorem phase_step {a} {u} (short : blocks w.packet ≤ 255) (phase : WritePhase w s)
    (host : w.Host s a) (h : step cfg s a = some u) : WritePhase w u := by
  cases a with
  | out p =>
    obtain ⟨more, rfl⟩ := host
    exact (phase_out phase more h).1
  | take => exact (phase_take phase h).1
  | event env => exact (phase_event short host phase h).1

theorem stored_extends (w : Write cfg) {k n} (le : k ≤ n) : w.stored k <+: w.stored n := by
  induction n, le using Nat.le_induction with
  | base => exact prefix_refl _
  | succ n _ ih =>
    rw [stored_succ]
    exact ih.trans (prefix_append _ _)

/-- What is left to do: a packet that is sent or taken queues one event, so it counts twice. -/
def left (w : Write cfg) (s : Sys) : Nat :=
  2 * (w.total + 1 - s.sent.length) + 2 * (1 - s.received.length) + s.events.length

theorem finishes (short : blocks w.packet ≤ 255) (phase : WritePhase w s) :
    ∃ t, Run (step cfg) w.Host s t ∧ t.received = [w.status] ∧
      t.written = w.stored (blocks w.packet) := by
  refine eventually (WritePhase w) _ w.left (fun s phase => ?_) phase
  have send {u} (host : s.sent.length ≤ w.total)
      (h : step cfg s (.out (w.script s.sent.length)) = some u) :
      ∃ a u, w.Host s a ∧ step cfg s a = some u ∧ WritePhase w u ∧ w.left u < w.left s := by
    obtain ⟨phase', sent, received, events⟩ := phase_out phase host h
    exact ⟨.out _, u, ⟨host, rfl⟩, h, phase', by rw [left, left, sent, received, events]; omega⟩
  have handle {u} (h : step cfg s (.event ⟨false, .good, 0⟩) = some u) :
      ∃ a u, w.Host s a ∧ step cfg s a = some u ∧ WritePhase w u ∧ w.left u < w.left s := by
    obtain ⟨phase', sent, received, events⟩ := phase_event short rfl phase h
    exact ⟨.event ⟨false, .good, 0⟩, u, rfl, h, phase', by rw [left, left, sent, received]; omega⟩
  cases phase with
  | start idle => exact .inr (send (by simp [idle.sent]) idle.accepts)
  | ready queue accepted arrived events =>
    exact .inr (handle (step_event cfg _ events accepted.halted))
  | data i more filling arrived =>
    cases arrived with
    | none count valid empty =>
      exact .inr (send (by omega) (out_part (.inr filling.state) filling.halted count valid))
    | one count nak packet posted =>
      exact .inr (handle (step_event cfg _ posted filling.halted))
  | closing state token closed =>
    have status := closed.status
    cases token with
    | queued slot queue =>
      rw [delivered, slot] at status
      exact .inl ⟨by simpa using status, closed.written⟩
    | waits packet slot queue =>
      obtain ⟨u, hu⟩ : ∃ u, step cfg s .take = some u := by simp [step, slot, closed.halted]
      obtain ⟨phase', sent, received, before, events⟩ :=
        phase_take (.closing state (.waits packet slot queue) closed) hu
      refine .inr ⟨.take, u, trivial, hu, phase', ?_⟩
      rw [left, left, sent, received, events, before, length_singleton, length_nil]
      omega
  | finished state events inPacket closed =>
    have status := closed.status
    rw [delivered, inPacket] at status
    exact .inl ⟨by simpa using status, closed.written⟩

theorem logged_filterMap_iff {α : Type} (l : List α) (f g : α → Option Place)
    (h : α → List UInt8) :
    logged (l.filterMap fun a => (f a).map (·, h a)) = l.map (fun a => (g a, h a)) ↔
      ∀ a ∈ l, ∃ b, f a = some b ∧ g a = some b := by
  induction l with
  | nil => simp [logged]
  | cons a l ih =>
    cases found : f a with
    | none =>
      -- one block less than asked for
      have short := length_filterMap_le (fun a => (f a).map (·, h a)) l
      refine iff_of_false (fun same => ?_) (by simp [found])
      have count := congrArg length same
      simp [logged, found] at count
      omega
    | some b =>
      rw [logged] at ih
      simp [logged, found, ih, eq_comm (a := some b)]

theorem logged_stored_iff : logged (w.stored (blocks w.packet)) = w.asked ↔
    ∀ j < blocks w.packet, (unit cfg w.packet).device.Stored (lba w.packet + j) := by
  rw [stored, asked, logged_filterMap_iff]
  simp only [mem_range]
  refine forall₂_congr fun j hj => (Device.stored_iff ?_).symm
  have := w.isWrite.inside
  omega

theorem stores_of_phase (short : blocks w.packet ≤ 255)
    (kept : ∀ j < blocks w.packet, (unit cfg w.packet).device.Stored (lba w.packet + j))
    (phase : WritePhase w s) : w.Stores s := by
  have all := logged_stored_iff.mpr kept
  have done : ∃ t, Run (step cfg) w.Host s t ∧ t.received = [w.status] ∧
      logged t.written = w.asked := by
    obtain ⟨t, run, received, written⟩ := finishes short phase
    exact ⟨t, run, received, written ▸ all⟩
  have early {k} (written : s.written = w.stored k) (le : k ≤ blocks w.packet)
      (received : s.received = []) (inPacket : s.inPacket = none) : w.Stores s :=
    ⟨written ▸ all ▸ (stored_extends w le).map _,
      .inl (by rw [delivered, received, inPacket]; rfl), done⟩
  cases phase with
  | start idle => exact early (k := 0) idle.written (Nat.zero_le _) idle.received idle.inPacket
  | ready queue accepted arrived events =>
    exact early (k := 0) accepted.written (Nat.zero_le _) accepted.received accepted.inPacket
  | data i more filling arrived =>
    refine early filling.written ?_ filling.received filling.inPacket
    unfold total packetsPerBlock at *
    omega
  | closing state token closed | finished state events inPacket closed =>
    have written := closed.written ▸ all
    exact ⟨written ▸ prefix_refl _, .inr ⟨closed.status, written⟩, done⟩

theorem Filling.next_part (filling : w.Filling i s) (more : i < w.total)
    (count : s.sent.length = i + 1) (valid : s.outStat = .valid) (events : s.events = []) :
    ∃ t, w.Host s (.out (w.script s.sent.length)) ∧
      step cfg s (.out (w.script s.sent.length)) = some t ∧ t.events = [.evOut] ∧
      w.Filling i { t with events := [] } ∧ t.outPacket = w.part i ∧ t.sent.length = i + 2 := by
  refine ⟨_, ⟨by omega, rfl⟩, out_part (.inr filling.state) filling.halted count valid, ?_, ?_, rfl,
    ?_⟩
  · show s.events ++ _ = _
    rw [events]
    rfl
  · exact { filling with }
  · show (s.sent ++ _).length = _
    rw [length_append, count]
    rfl

theorem reaches {s₀} (idle : Idle s₀) (more : i < w.total)
    (early : i < packetsPerBlock * 256) :
    ∃ s, Run (step cfg) w.Host s₀ s ∧ w.Filling i s ∧ s.sent.length = i + 1 ∧
      s.outStat = .valid ∧ s.events = [] := by
  let env : Env := ⟨false, .good, 0⟩
  induction i with
  | zero =>
    have events : (accept w.packet s₀).events = [.evOut] := by
      show s₀.events ++ _ = _
      rw [idle.events]
      rfl
    obtain ⟨eq, filling⟩ := Accepted.event (w := w) (s := { accept w.packet s₀ with events := [] })
      env ⟨rfl, rfl, idle.idx, idle.len, idle.written, idle.inPacket, idle.received, idle.halted⟩
    have handled := step_event cfg env events idle.halted
    rw [eq] at handled
    have host : w.Host s₀ (.out (w.script s₀.sent.length)) :=
      ⟨by rw [idle.sent]; exact Nat.zero_le _, rfl⟩
    refine ⟨_, .next (.event env) (.next (.out _) .start host idle.accepts) rfl handled,
      filling, ?_, rfl,
      rfl⟩
    show (s₀.sent ++ _).length = _
    rw [idle.sent]
    rfl
  | succ i ih =>
    obtain ⟨s, run, filling, count, valid, events⟩ := ih (by omega) (by omega)
    obtain ⟨t, host, arrives, posted, filling', packet, count'⟩ :=
      filling.next_part (by omega) count valid events
    obtain ⟨u, eq, filling'', valid', events', sent, -⟩ := filling'.event env rfl packet more (by
      unfold packetsPerBlock at *
      omega)
    have handled := step_event cfg env posted filling'.halted
    rw [eq] at handled
    refine ⟨u, .next (.event env) (.next (.out _) run host arrives) rfl handled,
      filling'', ?_, valid',
      events'⟩
    rw [sent]
    exact count'

theorem lost {s₀} (idle : Idle s₀) (long : 256 ≤ blocks w.packet) :
    ∃ s, Run (step cfg) w.Host s₀ s ∧ delivered s = [w.status] ∧ s.written = w.stored 255 := by
  let env : Env := ⟨false, .good, 0⟩
  have more : 2047 < w.total := by
    unfold total packetsPerBlock
    omega
  obtain ⟨s, run, filling, count, valid, events⟩ := reaches idle more (by decide)
  obtain ⟨t, host, arrives, posted, filling', packet, -⟩ :=
    filling.next_part more count valid events
  have some_left : 2047 / packetsPerBlock < blocks w.packet := by
    unfold packetsPerBlock
    omega
  obtain ⟨status, written⟩ := filling'.lost_block env packet rfl rfl some_left (by decide)
  have handled := step_event cfg env posted filling'.halted
  exact ⟨_, .next (.event env) (.next (.out _) run host arrives) rfl handled, status, written⟩

/-- In every run from an idle state the blocks are stored as the host has sent them. -/
def StoredFrom (w : Write cfg) (s₀ : Sys) : Prop := ∀ s, Run (step cfg) w.Host s₀ s → w.Stores s

/-- A transfer is stored in every run if and only if it has at most 255 blocks and each of them
is one that the unit stores. -/
theorem writes_stored_iff (w : Write cfg) (s₀ : Sys) (idle : Idle s₀) :
    w.StoredFrom s₀ ↔ blocks w.packet ≤ 255 ∧
      ∀ j < blocks w.packet, (unit cfg w.packet).device.Stored (lba w.packet + j) := by
  constructor
  · intro stored
    have short : blocks w.packet ≤ 255 := by
      by_contra long
      obtain ⟨s, run, status, written⟩ := lost (w := w) idle (by omega)
      rcases (stored s run).status with nothing | ⟨-, all⟩
      · rw [status] at nothing
        cases nothing
      · have count := congrArg length all
        have few : (w.stored 255).length ≤ (range 255).length := length_filterMap_le _ _
        rw [written, logged, asked, length_map, length_map, length_range] at count
        rw [length_range] at few
        omega
    obtain ⟨t, run, received, written⟩ := finishes short (.start idle)
    rcases (stored t run).status with nothing | ⟨-, all⟩
    · rw [delivered, received] at nothing
      cases nothing
    · exact ⟨short, logged_stored_iff.mp (written ▸ all)⟩
  · rintro ⟨short, kept⟩ s run
    refine stores_of_phase short kept ?_
    exact run.invariant (WritePhase w) (fun _ _ _ phase host h => phase_step short phase host h)
      (.start idle)

theorem idle_init : Idle init := ⟨rfl, rfl, rfl, rfl, rfl, rfl, rfl, rfl, rfl, rfl⟩

instance (cfg : Config) (q : List UInt8) : Decidable (IsWrite cfg q) :=
  decidable_of_iff
    (IsTransfer cfg q ∧ (Cbw.ofBytes q).cb 0 = CdbOp.write10.code ∧
      (Cbw.ofBytes q).flags &&& 0x80 = 0 ∧ (unit cfg q).write10 = true)
    ⟨fun ⟨a, b, c, d⟩ => ⟨a, b, c, d⟩, fun ⟨a, b, c, d⟩ => ⟨a, b, c, d⟩⟩

def oneVolume : Config :=
  { oneCard with luns := [⟨twoFiles, true, true, true⟩], some_lun := by simp }

/-- The last sector of the first file and the first one of the second. -/
def twoBlocks : Write oneVolume where
  packet := wrapper 1024 0 0 [0x2a, 0, 0, 0, 1, 0x37, 0, 0, 2]
  data := fun i => UInt8.ofNat i
  isWrite := by decide +kernel

theorem writes_stored_two : Idle init ∧ blocks twoBlocks.packet = 2 ∧
    twoBlocks.asked.map Prod.fst = [some (.file 0 7), some (.file 1 0)] ∧
      twoBlocks.StoredFrom init := by
  have two : blocks twoBlocks.packet = 2 := by decide +kernel
  refine ⟨idle_init, two, by decide +kernel, (writes_stored_iff twoBlocks init idle_init).mpr
    ⟨by decide +kernel, fun j hj => ?_⟩⟩
  obtain rfl | rfl : j = 0 ∨ j = 1 := by omega
  all_goals exact ⟨by decide +kernel, by decide +kernel⟩

def manyBlocks : Write oneCard where
  packet := wrapper (512 * 256) 0 0 [0x2a, 0, 0, 0, 0, 0, 0, 1, 0]
  data := fun i => UInt8.ofNat i
  isWrite := by decide +kernel

def bootBlock : Write oneVolume where
  packet := wrapper 512 0 0 [0x2a, 0, 0, 0, 0, 0, 0, 0, 1]
  data := fun i => UInt8.ofNat i
  isWrite := by decide +kernel

/-- The status of the transfer is good, and the last of its 256 blocks is not written. Nor is the
boot sector of a volume. -/
theorem write_lost :
    (∃ s, Run (step oneCard) manyBlocks.Host init s ∧ delivered s = [manyBlocks.status] ∧
      s.written.length = 255 ∧ blocks manyBlocks.packet = 256) ∧
    ∃ s, Run (step oneVolume) bootBlock.Host init s ∧ s.received = [bootBlock.status] ∧
      s.written = [] ∧ blocks bootBlock.packet = 1 := by
  have long : blocks manyBlocks.packet = 256 := by decide +kernel
  have one : blocks bootBlock.packet = 1 := by decide +kernel
  obtain ⟨s, run, status, written⟩ := lost (w := manyBlocks) idle_init long.ge
  have all : (manyBlocks.stored 255).length = (range 255).length :=
    filterMap_length_eq_length.mpr fun _ _ => rfl
  refine ⟨⟨s, run, status, by rw [written, all, length_range], long⟩, ?_⟩
  obtain ⟨t, run, received, written⟩ := finishes (w := bootBlock) (by omega) (.start idle_init)
  refine ⟨t, run, received, written.trans ?_, one⟩
  rw [one]
  rfl

end Write

end UsbMsc
