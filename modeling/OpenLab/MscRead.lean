import OpenLab.ScsiDefined

/-!
# READ(10) transfers

A host sends READ(10) commands, each after the status of the one before. Between two commands
there is one token: a packet in the IN endpoint or one queued event. A new command must find the
queue empty.
-/

namespace UsbMsc

open Scsi ScsiMmapfs Schedules List Option
open ByteFields (slice length_slice div_mod_next div_mod_last)

def lba (q : List UInt8) : Nat := cdbLba (Cbw.ofBytes q).cb

def blocks (q : List UInt8) : Nat := cdbLength (Cbw.ofBytes q).cb

def unit (cfg : Config) (q : List UInt8) : Lun := cfg.lun (Cbw.ofBytes q).lun

/-- A wrapper with a transfer of at least one block inside a unit. -/
structure IsTransfer (cfg : Config) (q : List UInt8) : Prop where
  size : q.length = cbwSize
  signature : (Cbw.ofBytes q).signature = cbwSignature
  some_block : 0 < blocks q
  inside : lba q + blocks q ≤ (unit cfg q).device.size
  length : (Cbw.ofBytes q).dataTransferLength = blocksize * blocks q

structure IsRead (cfg : Config) (q : List UInt8) : Prop extends IsTransfer cfg q where
  code : (Cbw.ofBytes q).cb 0 = CdbOp.read10.code
  flags : (Cbw.ofBytes q).flags &&& 0x80 ≠ 0
  read10 : (unit cfg q).read10 = true

instance (cfg : Config) (q : List UInt8) : Decidable (IsTransfer cfg q) :=
  decidable_of_iff
    (q.length = cbwSize ∧ (Cbw.ofBytes q).signature = cbwSignature ∧ 0 < blocks q ∧
      lba q + blocks q ≤ (unit cfg q).device.size ∧
      (Cbw.ofBytes q).dataTransferLength = blocksize * blocks q)
    ⟨fun ⟨a, b, c, d, e⟩ => ⟨a, b, c, d, e⟩, fun ⟨a, b, c, d, e⟩ => ⟨a, b, c, d, e⟩⟩

instance (cfg : Config) (q : List UInt8) : Decidable (IsRead cfg q) :=
  decidable_of_iff
    (IsTransfer cfg q ∧ (Cbw.ofBytes q).cb 0 = CdbOp.read10.code ∧
      (Cbw.ofBytes q).flags &&& 0x80 ≠ 0 ∧ (unit cfg q).read10 = true)
    ⟨fun ⟨a, b, c, d⟩ => ⟨a, b, c, d⟩, fun ⟨a, b, c, d⟩ => ⟨a, b, c, d⟩⟩

def packetsPerBlock : Nat := 8

def dataPacket (cfg : Config) (q : List UInt8) (i : Nat) : List UInt8 :=
  slice ((unit cfg q).device.block (lba q + i / packetsPerBlock))
    (endpointSize * (i % packetsPerBlock)) endpointSize

def dataPackets (cfg : Config) (q : List UInt8) (i : Nat) : List (List UInt8) :=
  (List.range i).map (dataPacket cfg q)

def answer (cfg : Config) (q : List UInt8) : List (List UInt8) :=
  dataPackets cfg q (packetsPerBlock * blocks q) ++ [csw (Cbw.ofBytes q).tag .passed]

def answers (cfg : Config) (sent : List (List UInt8)) : List (List UInt8) :=
  sent.flatMap (answer cfg)

def statusCount (packets : List (List UInt8)) : Nat :=
  (packets.filter fun p => p.length = cswSize).length

/-- A host that sends READ(10) commands and waits for each status; the medium works. -/
def ReadHost (cfg : Config) (s : Sys) : Action → Prop
  | .out q => IsRead cfg q ∧ statusCount s.received = s.sent.length
  | .take => True
  | .event env => env.fault = false

def QueueEmpty (s : Sys) : Action → Prop
  | .out _ => s.events = []
  | _ => True

instance (cfg : Config) (s : Sys) (a : Action) : Decidable (ReadHost cfg s a) := by
  cases a <;> unfold ReadHost <;> infer_instance

instance (s : Sys) (a : Action) : Decidable (QueueEmpty s a) := by
  cases a <;> unfold QueueEmpty <;> infer_instance

def ReadSafe (cfg : Config) (s : Sys) (a : Action) : Prop := ReadHost cfg s a ∧ QueueEmpty s a

instance (cfg : Config) (s : Sys) (a : Action) : Decidable (ReadSafe cfg s a) :=
  inferInstanceAs (Decidable (_ ∧ _))

theorem statusCount_append (l m : List (List UInt8)) :
    statusCount (l ++ m) = statusCount l + statusCount m := by
  simp [statusCount]

theorem statusCount_dataPackets (cfg : Config) (q : List UInt8) (i : Nat) :
    statusCount (dataPackets cfg q i) = 0 := by
  have none_is : ∀ p ∈ dataPackets cfg q i, p.length ≠ cswSize := by
    intro p hp
    obtain ⟨j, -, rfl⟩ := mem_map.mp hp
    rw [dataPacket, length_slice]
    decide
  simpa [statusCount] using none_is

theorem statusCount_answer (cfg : Config) (q : List UInt8) : statusCount (answer cfg q) = 1 := by
  rw [answer, statusCount_append, statusCount_dataPackets]
  simp [statusCount, length_csw]

theorem statusCount_answers (cfg : Config) (sent : List (List UInt8)) :
    statusCount (answers cfg sent) = sent.length := by
  induction sent with
  | nil => rfl
  | cons q rest ih =>
    rw [answers, flatMap_cons, statusCount_append, statusCount_answer, length_cons]
    rw [answers] at ih
    omega

theorem answers_append (cfg : Config) (prev : List (List UInt8)) (q : List UInt8) :
    answers cfg (prev ++ [q]) = answers cfg prev ++ answer cfg q := by
  simp [answers]

theorem dataPackets_succ (cfg : Config) (q : List UInt8) (i : Nat) :
    dataPackets cfg q (i + 1) = dataPackets cfg q i ++ [dataPacket cfg q i] := by
  simp [dataPackets, range_succ]

variable {q : List UInt8}

theorem dataPackets_extend {cfg} {i j} (le : i ≤ j) :
    dataPackets cfg q i <+: dataPackets cfg q j := by
  induction j, le using Nat.le_induction with
  | base => exact prefix_refl _
  | succ j _ ih =>
    rw [dataPackets_succ]
    exact ih.trans (prefix_append _ _)

variable {cfg : Config}

/-- The command in `cbw` is what is left of `q` after `k` blocks. -/
structure Rest (op : CdbOp) (q : List UInt8) (k : Nat) (c : Cbw) : Prop where
  tag : c.tag = (Cbw.ofBytes q).tag
  flags : c.flags = (Cbw.ofBytes q).flags
  lun : c.lun = (Cbw.ofBytes q).lun
  code : c.cb 0 = op.code
  left : c.dataTransferLength = blocksize * (blocks q - k)
  cdb : k < blocks q → cdbLba c.cb = lba q + k ∧ cdbLength c.cb = blocks q - k

theorem rest_zero {op} (hq : IsTransfer cfg q) (code : (Cbw.ofBytes q).cb 0 = op.code) :
    Rest op q 0 (Cbw.ofBytes q) :=
  ⟨rfl, rfl, rfl, code, hq.length, fun _ => ⟨rfl, rfl⟩⟩

theorem blocks_lt (q : List UInt8) : blocks q < 2 ^ 16 := (cdb_lt _).2

theorem Rest.advance {op : CdbOp} {k : Nat} {c : Cbw} {r : Result} (hq : IsTransfer cfg q)
    (rest : Rest op q k c) (rcmd : r.cmd = c.cb) : Rest op q (k + 1) { c with
      cb := (r.advance (lba q + k) (blocks q - k)).cmd
      dataTransferLength := c.dataTransferLength - blocksize } := by
  refine ⟨rest.tag, rest.flags, rest.lun, ?_, ?_, ?_⟩
  · show (r.advance _ _).cmd 0 = _
    rw [(r.advance_keeps _ _).2.2, rcmd]
    exact rest.code
  · show c.dataTransferLength - blocksize = _
    rw [rest.left, ← Nat.mul_sub_one, Nat.sub_sub]
  · intro more
    have inside := hq.inside
    have size := (unit cfg q).device.size_lt
    have short := blocks_lt q
    obtain ⟨hlba, hlen⟩ := r.advance_cmd (lba q + k) (blocks q - k)
      (by omega) (by omega) (by omega)
    exact ⟨hlba, by omega⟩

theorem Rest.fits {op} {k} {s} (hq : IsTransfer cfg q)
    (rest : Rest op q k s.cbw) (some_left : k < blocks q)
    (room : blocksize ≤ (scsiParams s).datamax) : (scsiParams s).Fits (unit cfg q).device := by
  obtain ⟨hlba, hlen⟩ := rest.cdb some_left
  have inside := hq.inside
  constructor
  · show 0 < cdbLength s.cbw.cb
    omega
  · show cdbLba s.cbw.cb + cdbLength s.cbw.cb ≤ _
    omega
  · exact room

theorem handler_reads {k : Nat} {s : Sys} (hq : IsRead cfg q) (env : Env)
    (working : env.fault = false) (firstcall : Bool) (some_left : k < blocks q)
    (rest : Rest .read10 q k s.cbw) (free : s.buff.len = 0) (phase : s.state ≠ .dataOut) :
    ∃ c : Cbw, Rest .read10 q (k + 1) c ∧
      usbMscScsiHandler cfg env firstcall s = (blocksize, { count firstcall s with
        cbw := c, cswStatus := .passed, state := .dataIn,
        buff := ⟨(unit cfg q).device.block (lba q + k), 0, blocksize⟩ }) := by
  have fits : (scsiParams (count firstcall s)).Fits (unit cfg q).device := by
    refine Rest.fits (s := count firstcall s) hq.toIsTransfer rest some_left ?_
    show blocksize ≤ if s.state = .dataOut then _ else bufferSize
    rw [if_neg phase]
    decide
  obtain ⟨hlba, hlen⟩ := rest.cdb some_left
  obtain ⟨r, hr, rcmd, rdata, rwritten⟩ := (unit cfg q).device.read10_fits fits
  have hr : (unit cfg q).device.read10 false (scsiParams (count firstcall s)) =
      r.advance (lba q + k) (blocks q - k) := by
    rw [hr, ← hlba, ← hlen]
    rfl
  have rdata : r.data = (unit cfg q).device.block (lba q + k) := by
    rw [rdata, ← hlba]
    rfl
  obtain ⟨status, datalen, ret⟩ := r.advance_good (lba q + k) (Nat.sub_pos_of_lt some_left)
  obtain ⟨data, written, -⟩ := r.advance_keeps (lba q + k) (blocks q - k)
  refine ⟨_, rest.advance hq.toIsTransfer rcmd, ?_⟩
  have call : processCommand cfg env.fault (scsiParams (count firstcall s)) =
      { r.advance (lba q + k) (blocks q - k) with indexed := [s.cbw.lun.toNat] } := by
    have op : cdbOp (scsiParams (count firstcall s)).cmd = some .read10 := by
      have code : (scsiParams (count firstcall s)).cmd 0 = 0x28 := rest.code
      rw [cdbOp, code]
      rfl
    have lun : cfg.lun (scsiParams (count firstcall s)).lun = unit cfg q :=
      congrArg cfg.lun rest.lun
    simp only [processCommand, op, CdbOp.cmd, cmdRead10, lun, hq.read10, if_true, working, hr]
    rfl
  have flags : s.cbw.flags &&& 0x80 ≠ 0 := by
    rw [rest.flags]
    exact hq.flags
  have total := rest.left
  have positive : 0 < s.cbw.dataTransferLength := by
    rw [total]
    unfold blocksize
    omega
  have enough : ¬ s.cbw.dataTransferLength < blocksize := by
    rw [total]
    unfold blocksize
    omega
  -- more than a block is only asked for when the command is done partly
  have kept : ¬ (blocksize < s.cbw.dataTransferLength ∧
      (r.advance (lba q + k) (blocks q - k)).ret ≠ .partly) := by
    rintro ⟨large, other⟩
    refine other (ret ?_)
    rw [total] at large
    unfold blocksize at large
    omega
  rw [usbMscScsiHandler, call]
  simp only [conclude, status, datalen, data, written, rdata, rwritten, count, positive, flags,
    goodIn, getD_some, if_true, if_neg enough, if_neg kept, ne_eq, not_true_eq_false,
    if_false, usbMscCloseWriteBuff, free, append_nil, not_false_eq_true]
  rfl

/-- After `i` packets of the answer to `q`: what is left of the block of the next one. -/
structure Filled (cfg : Config) (q : List UInt8) (i : Nat) (s : Sys) : Prop where
  data : s.buff.data = (unit cfg q).device.block (lba q + i / packetsPerBlock)
  idx : s.buff.idx = endpointSize * (i % packetsPerBlock)
  len : s.buff.len = blocksize - endpointSize * (i % packetsPerBlock)
  rest : Rest .read10 q (i / packetsPerBlock + 1) s.cbw
  passed : s.cswStatus = .passed

variable {q : List UInt8} {i : Nat} {s : Sys}

theorem Filled.packet (filled : Filled cfg q i s) :
    slice s.buff.data s.buff.idx endpointSize = dataPacket cfg q i := by
  rw [filled.data, filled.idx, dataPacket]

theorem Filled.send_inside (filled : Filled cfg q i s)
    (more : i % packetsPerBlock + 1 < packetsPerBlock) :
    ∃ b : Buff, usbMscSendDataToEndpoint s =
        (false, { usbSend (dataPacket cfg q i) s with buff := b }) ∧
      Filled cfg q (i + 1) { usbSend (dataPacket cfg q i) s with buff := b } := by
  have len := filled.len
  have idx := filled.idx
  unfold packetsPerBlock at more
  unfold endpointSize blocksize packetsPerBlock at len
  unfold endpointSize packetsPerBlock at idx
  have left : endpointSize < s.buff.len := by
    unfold endpointSize
    omega
  have room : s.buff.idx + endpointSize < 2 ^ 16 := by
    omega
  refine ⟨⟨s.buff.data, s.buff.idx + endpointSize, s.buff.len - endpointSize⟩, ?_, ?_⟩
  · rw [send_more left room, filled.packet]
  · obtain ⟨block, place⟩ := div_mod_next (p := packetsPerBlock) more
    refine ⟨?_, ?_, ?_, ?_, filled.passed⟩
    · rw [block]
      exact filled.data
    · rw [place, Nat.mul_add, Nat.mul_one, ← filled.idx]
    · show s.buff.len - endpointSize = _
      rw [place, filled.len]
      unfold endpointSize
      omega
    · rw [block]
      exact filled.rest

theorem Filled.send_end (filled : Filled cfg q i s)
    (last : i % packetsPerBlock + 1 = packetsPerBlock) :
    usbMscSendDataToEndpoint s = (true, { usbSend (dataPacket cfg q i) s with
      buff := ⟨s.buff.data, 0, 0⟩ }) := by
  have len : s.buff.len = endpointSize := by
    rw [filled.len]
    unfold endpointSize blocksize packetsPerBlock at *
    omega
  rw [send_last (by rw [len]; decide) len.le, len, filled.packet]

/-- A packet waits in the endpoint, or the event of its transmission is queued. -/
inductive Token (s : Sys) : Prop
  | waits (packet : List UInt8) (slot : s.inPacket = some packet) (queue : s.events = [])
  | queued (slot : s.inPacket = none) (queue : s.events = [.evIn])

def delivered (s : Sys) : List (List UInt8) := s.received ++ s.inPacket.toList

inductive Phase (cfg : Config) (s : Sys) : Prop
  | idle (state : s.state = .none) (queue : s.events = []) (slot : s.inPacket = none)
      (free : s.buff.len = 0) (complete : s.received = answers cfg s.sent)
  | ready (prev : List (List UInt8)) (q : List UInt8) (last : s.sent = prev ++ [q])
      (read : IsRead cfg q) (state : s.state = .ready) (queue : s.events = [.evOut])
      (slot : s.inPacket = none) (free : s.buff.len = 0) (command : s.cbw = Cbw.ofBytes q)
      (complete : s.received = answers cfg prev)
  | data (prev : List (List UInt8)) (q : List UInt8) (i : Nat) (last : s.sent = prev ++ [q])
      (read : IsRead cfg q) (more : i < packetsPerBlock * blocks q) (state : s.state = .dataIn)
      (token : Token s) (filled : Filled cfg q i s)
      (sofar : delivered s = answers cfg prev ++ dataPackets cfg q i)
  | status (prev : List (List UInt8)) (q : List UInt8) (last : s.sent = prev ++ [q])
      (state : s.state = .status) (token : Token s) (free : s.buff.len = 0)
      (tag : s.cbw.tag = (Cbw.ofBytes q).tag) (passed : s.cswStatus = .passed)
      (sofar : delivered s =
        answers cfg prev ++ dataPackets cfg q (packetsPerBlock * blocks q))
  | closing (state : s.state = .statusSent) (token : Token s) (free : s.buff.len = 0)
      (nonempty : s.sent ≠ []) (sofar : delivered s = answers cfg s.sent)

structure ReadInv (cfg : Config) (s : Sys) : Prop where
  no_overrun : s.overrun = false
  running : s.halted = false
  receiving : s.outStat = .valid
  phase : Phase cfg s

theorem readInv_init : ReadInv cfg init := ⟨rfl, rfl, rfl, .idle rfl rfl rfl rfl rfl⟩

theorem delivered_send {l} {p} {s t}
    (slot : s.inPacket = none) (sofar : delivered s = l) (received : t.received = s.received)
    (sent : t.inPacket = some p) : delivered t = l ++ [p] := by
  rw [delivered, slot, toList_none, append_nil] at sofar
  rw [delivered, received, sofar, sent, toList_some]

structure Quiet (s t : Sys) : Prop where
  overrun : t.overrun = false
  halted : t.halted = s.halted
  outStat : t.outStat = s.outStat
  sent : t.sent = s.sent
  received : t.received = s.received
  events : t.events = s.events

theorem dataIn_more (env : Env) {t} (state : s.state = .dataIn)
    (send : usbMscSendDataToEndpoint s = (false, t)) : usbMscEvHandler cfg env s = t := by
  simp [usbMscEvHandler, state, send]

variable {prev : List (List UInt8)} {u : Sys}

theorem data_event (env : Env) (working : env.fault = false) (last : s.sent = prev ++ [q])
    (read : IsRead cfg q) (more : i < packetsPerBlock * blocks q) (state : s.state = .dataIn)
    (queue : s.events = []) (slot : s.inPacket = none) (fresh : s.overrun = false)
    (filled : Filled cfg q i s) (sofar : delivered s = answers cfg prev ++ dataPackets cfg q i) :
    Phase cfg (usbMscEvHandler cfg env s) ∧ Quiet s (usbMscEvHandler cfg env s) := by
  set p := dataPacket cfg q i with hp
  have overrun : (s.overrun || s.inPacket.isSome) = false := by
    rw [fresh, slot]
    rfl
  have sofar' : ∀ t : Sys, t.received = s.received → t.inPacket = some p →
      delivered t = answers cfg prev ++ dataPackets cfg q (i + 1) := by
    intro t received sent
    rw [dataPackets_succ, ← append_assoc]
    exact delivered_send slot sofar received sent
  by_cases inside : i % packetsPerBlock + 1 < packetsPerBlock
  · obtain ⟨b, send, filled'⟩ := filled.send_inside inside
    rw [dataIn_more env state send]
    have more' : i + 1 < packetsPerBlock * blocks q := by
      unfold packetsPerBlock at *
      omega
    exact ⟨.data prev q (i + 1) last read more' state (.waits p rfl queue) filled'
      (sofar' _ rfl rfl), ⟨overrun, rfl, rfl, rfl, rfl, rfl⟩⟩
  · have ends : i % packetsPerBlock + 1 = packetsPerBlock := by
      have := Nat.mod_lt i (show 0 < packetsPerBlock by decide)
      omega
    obtain ⟨block, place⟩ := div_mod_last (p := packetsPerBlock) ends
    have send := filled.send_end ends
    set t : Sys := { usbSend p s with buff := ⟨s.buff.data, 0, 0⟩ } with ht
    have rest : Rest .read10 q (i / packetsPerBlock + 1) t.cbw := filled.rest
    by_cases go : i / packetsPerBlock + 1 < blocks q
    · have positive : 0 < t.cbw.dataTransferLength := by
        rw [rest.left]
        unfold blocksize
        omega
      have phase : t.state ≠ .dataOut := by
        show s.state ≠ _
        rw [state]
        decide
      obtain ⟨c, rest', handler⟩ := handler_reads read env working false go rest rfl phase
      have eq : usbMscEvHandler cfg env s = { count false t with
          cbw := c, cswStatus := .passed, state := .dataIn,
          buff := ⟨(unit cfg q).device.block (lba q + (i / packetsPerBlock + 1)), 0,
              blocksize⟩ } := by
        simp [usbMscEvHandler, state, send, positive, handler]
      rw [eq]
      have more' : i + 1 < packetsPerBlock * blocks q := by
        unfold packetsPerBlock at *
        omega
      refine ⟨.data prev q (i + 1) last read more' rfl (.waits p rfl queue) ?_ (sofar' _ rfl rfl),
        ⟨overrun, rfl, rfl, rfl, rfl, rfl⟩⟩
      refine ⟨?_, ?_, ?_, ?_, rfl⟩
      · rw [block]
      · rw [place]
        rfl
      · rw [place]
        rfl
      · rw [block]
        exact rest'
    · have all : i + 1 = packetsPerBlock * blocks q := by
        unfold packetsPerBlock at *
        omega
      have nothing : ¬ 0 < t.cbw.dataTransferLength := by
        rw [rest.left]
        have : blocks q - (i / packetsPerBlock + 1) = 0 := by omega
        rw [this]
        decide
      have eq : usbMscEvHandler cfg env s = { t with state := .status } := by
        simp [usbMscEvHandler, state, send, if_neg nothing]
      rw [eq]
      refine ⟨.status prev q last rfl (.waits p rfl queue) rfl rest.tag filled.passed ?_,
        ⟨overrun, rfl, rfl, rfl, rfl, rfl⟩⟩
      rw [← all]
      exact sofar' _ rfl rfl

theorem first_packet (env : Env) (working : env.fault = false) (read : IsRead cfg q)
    (state : s.state = .ready) (free : s.buff.len = 0) (command : s.cbw = Cbw.ofBytes q) :
    ∃ (c : Cbw) (b : Buff), usbMscEvHandler cfg env s = { usbSend (dataPacket cfg q 0) s with
        cnum := 0, cbw := c, cswStatus := .passed, state := .dataIn, buff := b } ∧
      Filled cfg q 1 { usbSend (dataPacket cfg q 0) s with
        cnum := 0, cbw := c, cswStatus := .passed, state := .dataIn, buff := b } := by
  have rest : Rest .read10 q 0 s.cbw := by
    rw [command]
    exact rest_zero read.toIsTransfer read.code
  have phase : s.state ≠ .dataOut := by
    rw [state]
    decide
  obtain ⟨c, rest', handler⟩ := handler_reads read env working true read.some_block rest free phase
  set t : Sys := { count true s with
    cbw := c, cswStatus := .passed, state := .dataIn,
    buff := ⟨(unit cfg q).device.block (lba q + 0), 0, blocksize⟩ } with ht
  have filled : Filled cfg q 0 t := ⟨rfl, rfl, rfl, rest', rfl⟩
  obtain ⟨b, send, filled'⟩ := filled.send_inside (by decide)
  refine ⟨c, b, ?_, filled'⟩
  simp only [usbMscEvHandler, state, handler, send, Bool.false_eq_true, if_false, blocksize,
    ne_eq, OfNat.ofNat_ne_zero, not_false_eq_true, if_true]
  rfl

theorem ready_event (env : Env) (working : env.fault = false) (last : s.sent = prev ++ [q])
    (read : IsRead cfg q) (state : s.state = .ready) (queue : s.events = [])
    (slot : s.inPacket = none) (free : s.buff.len = 0) (command : s.cbw = Cbw.ofBytes q)
    (fresh : s.overrun = false) (complete : s.received = answers cfg prev) :
    Phase cfg (usbMscEvHandler cfg env s) ∧ Quiet s (usbMscEvHandler cfg env s) := by
  obtain ⟨c, b, eq, filled⟩ := first_packet env working read state free command
  rw [eq]
  have overrun : (s.overrun || s.inPacket.isSome) = false := by
    rw [fresh, slot]
    rfl
  have some_block := read.some_block
  refine ⟨.data prev q 1 last read ?_ rfl (.waits _ rfl queue) filled ?_,
    ⟨overrun, rfl, rfl, rfl, rfl, rfl⟩⟩
  · unfold packetsPerBlock
    omega
  · rw [dataPackets_succ, ← append_assoc]
    refine delivered_send slot ?_ rfl rfl
    rw [delivered, slot, complete]
    rfl

theorem status_event (env : Env) (last : s.sent = prev ++ [q]) (state : s.state = .status)
    (queue : s.events = []) (slot : s.inPacket = none) (free : s.buff.len = 0)
    (tag : s.cbw.tag = (Cbw.ofBytes q).tag) (passed : s.cswStatus = .passed)
    (fresh : s.overrun = false)
    (sofar : delivered s = answers cfg prev ++ dataPackets cfg q (packetsPerBlock * blocks q)) :
    Phase cfg (usbMscEvHandler cfg env s) ∧ Quiet s (usbMscEvHandler cfg env s) := by
  have eq : usbMscEvHandler cfg env s = { usbSend (csw s.cbw.tag s.cswStatus) s with
      state := .statusSent
      buff := ⟨store s.buff.data 0 (csw s.cbw.tag s.cswStatus), 0, 0⟩ } := by
    simp only [usbMscEvHandler, state]
    exact sendCsw_empty free
  rw [eq]
  have overrun : (s.overrun || s.inPacket.isSome) = false := by
    rw [fresh, slot]
    rfl
  refine ⟨.closing rfl (.waits _ rfl queue) rfl ?_ ?_, ⟨overrun, rfl, rfl, rfl, rfl, rfl⟩⟩
  · show s.sent ≠ []
    rw [last]
    simp
  · show _ = answers cfg s.sent
    rw [last, answers_append, answer, ← append_assoc, ← tag, ← passed]
    exact delivered_send slot sofar rfl rfl

theorem step_event (cfg : Config) (env : Env) {e} {rest}
    (queue : s.events = e :: rest) (running : s.halted = false) :
    step cfg s (.event env) = some (usbMscEvHandler cfg env { s with events := rest }) := by
  simp only [step, queue]
  exact if_pos running

theorem Phase.queue_le (phase : Phase cfg s) : s.events.length ≤ 1 := by
  cases phase with
  | idle _ queue | ready _ _ _ _ _ queue => simp [queue]
  | data _ _ _ _ _ _ _ token | status _ _ _ _ token | closing _ token =>
    cases token with
    | waits _ _ queue | queued _ queue => simp [queue]

theorem Token.slot {e} (token : Token s) (queue : s.events = [e]) : s.inPacket = none := by
  cases token with
  | waits _ _ empty => simp [queue] at empty
  | queued slot => exact slot

theorem event_step {env} (working : env.fault = false) (inv : ReadInv cfg s)
    (h : step cfg s (.event env) = some u) :
    ReadInv cfg u ∧ u.sent = s.sent ∧ u.received = s.received ∧
      u.events.length < s.events.length := by
  -- the queue holds one event at most, and the handler posts none
  obtain ⟨e, queue⟩ : ∃ e, s.events = [e] := by
    have le := inv.phase.queue_le
    match events : s.events with
    | [] => simp [step, events] at h
    | [e] => exact ⟨e, rfl⟩
    | e :: f :: rest => simp [events] at le
  obtain rfl := some.inj ((step_event cfg env queue inv.running).symm.trans h)
  have handled : Phase cfg (usbMscEvHandler cfg env { s with events := [] }) ∧
      Quiet { s with events := [] } (usbMscEvHandler cfg env { s with events := [] }) := by
    cases inv.phase with
    | idle _ empty => simp [queue] at empty
    | ready prev q last read state _ slot free command complete =>
      exact ready_event env working last read state rfl slot free command inv.no_overrun complete
    | data prev q i last read more state token filled sofar =>
      exact data_event env working last read more state rfl (token.slot queue) inv.no_overrun
        { filled with } (by simpa [delivered] using sofar)
    | status prev q last state token free tag passed sofar =>
      exact status_event env last state rfl (token.slot queue) free tag passed inv.no_overrun sofar
    | closing state token free nonempty sofar =>
      have eq : usbMscEvHandler cfg env { s with events := [] } =
          { s with events := [], state := .none } := by
        simp [usbMscEvHandler, state]
      rw [eq]
      refine ⟨.idle rfl rfl (token.slot queue) free ?_, ⟨inv.no_overrun, rfl, rfl, rfl, rfl, rfl⟩⟩
      rw [delivered, token.slot queue] at sofar
      simpa using sofar
  obtain ⟨phase, quiet⟩ := handled
  refine ⟨⟨quiet.overrun, quiet.halted.trans inv.running, quiet.outStat.trans inv.receiving, phase⟩,
    quiet.sent, quiet.received, ?_⟩
  rw [quiet.events, queue]
  exact Nat.one_pos

theorem Phase.queue_of_slot {packet} (phase : Phase cfg s)
    (slot : s.inPacket = some packet) : s.events = [] := by
  cases phase with
  | idle _ _ none | ready _ _ _ _ _ _ none => simp [slot] at none
  | data _ _ _ _ _ _ _ token | status _ _ _ _ token | closing _ token =>
    cases token with
    | waits _ _ queue => exact queue
    | queued none => simp [slot] at none

theorem take_step (inv : ReadInv cfg s) (h : step cfg s .take = some u) :
    ReadInv cfg u ∧ u.sent = s.sent ∧ delivered u = delivered s ∧
      u.received.length = s.received.length + 1 ∧ u.events = [.evIn] := by
  obtain ⟨packet, slot⟩ : ∃ packet, s.inPacket = some packet := by
    cases slot : s.inPacket with
    | none => simp [step, slot] at h
    | some packet => exact ⟨packet, rfl⟩
  have queue := inv.phase.queue_of_slot slot
  obtain rfl : { s with
      inPacket := none, received := s.received ++ [packet], events := [.evIn] } = u := by
    simpa [step, slot, inv.running, usbMscDataIn, queue] using h
  have same : (s.received ++ [packet]) ++ [] = delivered s := by simp [delivered, slot]
  refine ⟨⟨inv.no_overrun, inv.running, inv.receiving, ?_⟩, rfl, same, length_append, rfl⟩
  cases inv.phase with
  | idle _ _ none | ready _ _ _ _ _ _ none => simp [slot] at none
  | data prev q i last read more state _ filled sofar =>
    exact .data prev q i last read more state (.queued rfl rfl)
      { filled with } (same.trans sofar)
  | status prev q last state _ free tag passed sofar =>
    exact .status prev q last state (.queued rfl rfl) free tag passed (same.trans sofar)
  | closing state _ free nonempty sofar =>
    exact .closing state (.queued rfl rfl) free nonempty (same.trans sofar)

/-- The host may send a command in two phases only: between two commands, and while the
event of the last status wrapper is queued. -/
theorem may_send (inv : ReadInv cfg s) (waited : statusCount s.received = s.sent.length) :
    (s.state = .none ∧ s.events = [] ∧ s.inPacket = none ∧ s.buff.len = 0 ∧
        s.received = answers cfg s.sent) ∨
      (s.state = .statusSent ∧ s.events = [.evIn] ∧ s.inPacket = none ∧ s.buff.len = 0) := by
  have counted : statusCount (delivered s) =
      statusCount s.received + statusCount s.inPacket.toList := statusCount_append _ _
  have early : ∀ (prev : List (List UInt8)) (q : List UInt8) (i : Nat), s.sent = prev ++ [q] →
      delivered s = answers cfg prev ++ dataPackets cfg q i → False := by
    intro prev q i last sofar
    rw [sofar, statusCount_append, statusCount_answers, statusCount_dataPackets, waited, last]
      at counted
    simp at counted
    omega
  cases inv.phase with
  | idle state queue slot free complete => exact .inl ⟨state, queue, slot, free, complete⟩
  | ready prev q last _ _ _ _ _ _ complete =>
    rw [complete, statusCount_answers, last] at waited
    simp at waited
  | data prev q i last _ _ _ _ _ sofar => exact (early prev q i last sofar).elim
  | status prev q last _ _ _ _ _ sofar => exact (early prev q _ last sofar).elim
  | closing state token free nonempty sofar =>
    cases token with
    | queued slot queue => exact .inr ⟨state, queue, slot, free⟩
    | waits packet slot queue =>
      -- the wrapper that waits is the last one, so the host has not received it
      exfalso
      obtain ⟨prev, q, last⟩ : ∃ prev q, s.sent = prev ++ [q] :=
        ⟨_, _, (dropLast_append_getLast nonempty).symm⟩
      rw [delivered, slot, last, answers_append, answer, ← append_assoc, toList_some]
        at sofar
      obtain ⟨before, -⟩ := append_inj' sofar rfl
      rw [before, statusCount_append, statusCount_answers, statusCount_dataPackets, last] at waited
      simp at waited

def accept (q : List UInt8) (s : Sys) : Sys :=
  { s with
    outPacket := q, outStat := .valid, sent := s.sent ++ [q], cbw := Cbw.ofBytes q,
    state := .ready, events := s.events ++ [.evOut] }

theorem out_command (read : IsTransfer cfg q) (running : s.halted = false)
    (valid : s.outStat = .valid)
    (phase : s.state = .none ∨ s.state = .statusSent) :
    step cfg s (.out q) = some (accept q s) := by
  rcases phase with phase | phase <;>
    simp [step, running, valid, usbMscDataOut, phase, read.size, read.signature, accept]

theorem out_step (inv : ReadInv cfg s) (read : IsRead cfg q)
    (waited : statusCount s.received = s.sent.length) (empty : s.events = [])
    (h : step cfg s (.out q) = some u) : ReadInv cfg u := by
  obtain ⟨state, queue, slot, free, complete⟩ | ⟨-, queue, -, -⟩ := may_send inv waited
  · rw [out_command read.toIsTransfer inv.running inv.receiving (.inl state)] at h
    cases h
    refine ⟨inv.no_overrun, inv.running, rfl,
      .ready s.sent q rfl read rfl ?_ slot free rfl complete⟩
    show s.events ++ _ = _
    rw [queue, nil_append]
  · rw [queue] at empty
    cases empty

theorem readInv_step {a} (inv : ReadInv cfg s) (safe : ReadSafe cfg s a)
    (h : step cfg s a = some u) : ReadInv cfg u := by
  cases a with
  | out q => exact out_step inv safe.1.1 safe.1.2 safe.2 h
  | take => exact (take_step inv h).1
  | event env => exact (event_step safe.1 inv h).1

theorem readInv_run (run : Run (step cfg) (ReadSafe cfg) init s) : ReadInv cfg s :=
  run.invariant (ReadInv cfg) (fun _ _ _ inv safe h => readInv_step inv safe h) readInv_init

theorem delivered_in_answers (inv : ReadInv cfg s) : delivered s <+: answers cfg s.sent := by
  cases inv.phase with
  | idle _ _ slot _ complete =>
    rw [delivered, slot, complete]
    simp
  | ready prev q last _ _ _ slot _ _ complete =>
    rw [delivered, slot, complete, last, answers_append]
    simp
  | data prev q i last _ more _ _ _ sofar =>
    rw [sofar, last, answers_append, answer, prefix_append_right_inj]
    refine List.IsPrefix.trans ?_ (prefix_append _ _)
    exact dataPackets_extend more.le
  | status prev q last _ _ _ _ _ sofar =>
    rw [sofar, last, answers_append, answer, prefix_append_right_inj]
    exact prefix_append _ _
  | closing _ _ _ _ sofar => rw [sofar]

theorem complete_of_still (inv : ReadInv cfg s) (queue : s.events = []) (slot : s.inPacket = none) :
    s.received = answers cfg s.sent := by
  have no_token : ¬ Token s := by
    rintro (⟨_, waits, -⟩ | ⟨-, queued⟩)
    · rw [slot] at waits
      cases waits
    · rw [queue] at queued
      cases queued
  cases inv.phase with
  | idle _ _ _ _ complete => exact complete
  | ready _ _ _ _ _ queued =>
    rw [queue] at queued
    cases queued
  | data _ _ _ _ _ _ _ token | status _ _ _ _ token | closing _ token => exact absurd token no_token

theorem completes (inv : ReadInv cfg s) :
    ∃ t, Run (step cfg) (ReadSafe cfg) s t ∧ t.sent = s.sent ∧
      t.received = answers cfg s.sent := by
  -- what is still to be taken counts twice: a packet that is taken queues an event
  refine eventually (fun t => ReadInv cfg t ∧ t.sent = s.sent) _
    (fun t => 2 * ((answers cfg t.sent).length - t.received.length) + t.events.length) ?_ ⟨inv, rfl⟩
  rintro t ⟨inv, known⟩
  cases slot : t.inPacket with
  | some packet =>
    obtain ⟨u, hu⟩ : ∃ u, step cfg t .take = some u := by simp [step, slot, inv.running]
    obtain ⟨inv', sent, same, received, queue⟩ := take_step inv hu
    have bound := (delivered_in_answers inv).length_le
    rw [delivered, slot, length_append] at bound
    simp only [toList_some, length_singleton] at bound
    refine .inr ⟨.take, u, ⟨trivial, trivial⟩, hu, ⟨inv', sent.trans known⟩, ?_⟩
    simp only [sent, received, queue, length_singleton]
    omega
  | none =>
    cases queue : t.events with
    | nil => exact .inl ⟨known, known ▸ complete_of_still inv queue slot⟩
    | cons e rest =>
      let env : Env := ⟨false, .good, 0⟩
      obtain ⟨u, hu⟩ : ∃ u, step cfg t (.event env) = some u := by simp [step, queue, inv.running]
      obtain ⟨inv', sent, received, fewer⟩ := event_step rfl inv hu
      refine .inr ⟨.event env, u, ⟨rfl, trivial⟩, hu, ⟨inv', sent.trans known⟩, ?_⟩
      simp only [sent, received, ← queue]
      omega

/-- A command that finds the last event in the queue is answered twice: that event sends the
first packet, and the event of the command sends the second one into the same slot. -/
theorem late_event_overruns (inv : ReadInv cfg s) (read : IsRead cfg q)
    (waited : statusCount s.received = s.sent.length) (busy : s.events ≠ [])
    (h : step cfg s (.out q) = some u) :
    ∃ t, Run (step cfg) (ReadHost cfg) u t ∧ t.overrun = true := by
  obtain ⟨-, queue, -, -⟩ | ⟨state, queue, slot, free⟩ := may_send inv waited
  · exact absurd queue busy
  · rw [out_command read.toIsTransfer inv.running inv.receiving (.inr state)] at h
    cases h
    have queue' : (accept q s).events = [.evIn, .evOut] := by
      show s.events ++ _ = _
      rw [queue]
      rfl
    have running : (accept q s).halted = false := inv.running
    let env : Env := ⟨false, .good, 0⟩
    let v : Sys := { accept q s with events := [.evOut] }
    obtain ⟨c, b, first, filled⟩ := first_packet (s := v) env rfl read rfl free rfl
    set x : Sys := { usbSend (dataPacket cfg q 0) v with
      cnum := 0, cbw := c, cswStatus := .passed, state := .dataIn, buff := b } with hx
    have filled' : Filled cfg q 1 { x with events := [] } :=
      { filled with }
    obtain ⟨b', send, -⟩ := filled'.send_inside (by decide)
    have step1 : step cfg (accept q s) (.event env) = some x :=
      (step_event cfg env queue' running).trans (congrArg some first)
    have step2 : step cfg x (.event env) = some
        { usbSend (dataPacket cfg q 1) { x with events := [] } with buff := b' } :=
      (step_event cfg env (show x.events = [.evOut] from rfl)
        (show x.halted = false from running)).trans (congrArg some (dataIn_more env rfl send))
    refine ⟨_, .next (.event env) (.next (.event env) .start rfl step1) rfl step2, ?_⟩
    show (x.overrun || isSome x.inPacket) = true
    rw [show x.inPacket = some (dataPacket cfg q 0) from rfl]
    simp

structure Exact (cfg : Config) (s : Sys) : Prop where
  in_order : delivered s <+: answers cfg s.sent
  no_overrun : s.overrun = false
  complete : s.events = [] → s.inPacket = none → s.received = answers cfg s.sent
  completes : ∃ t, Run (step cfg) (ReadSafe cfg) s t ∧ t.sent = s.sent ∧
    t.received = answers cfg s.sent

/-- As long as every command finds the event queue empty, the host receives the blocks and
the status of each command, in order and once, and no packet is overwritten. From a state of
such a run a command that finds an event in the queue leads to an overwritten packet. -/
theorem reads_exact (cfg : Config) {s : Sys} (run : Run (step cfg) (ReadSafe cfg) init s) :
    Exact cfg s ∧ ∀ q u, ReadHost cfg s (.out q) → step cfg s (.out q) = some u →
      (QueueEmpty s (.out q) ∨ ∃ t, Run (step cfg) (ReadHost cfg) u t ∧ t.overrun = true) := by
  have inv := readInv_run run
  refine ⟨⟨delivered_in_answers inv, inv.no_overrun, complete_of_still inv, completes inv⟩, ?_⟩
  rintro q u ⟨read, waited⟩ h
  by_cases busy : s.events = []
  · exact .inl busy
  · exact .inr (late_event_overruns inv read waited busy h)

def oneBlock : List UInt8 := wrapper 512 0x80 0 [0x28, 0, 0, 0, 0, 5, 0, 0, 1]

def oneRead : List Action :=
  .out oneBlock :: (List.replicate 9 [.event ⟨false, .good, 0⟩, .take]).flatten

theorem reads_exact_two : ∃ s, Run (step oneCard) (ReadSafe oneCard) init s ∧
    s.received.length = 18 ∧ Exact oneCard s := by
  obtain ⟨s, run, h⟩ : ∃ s, Run (step oneCard) (ReadSafe oneCard) init s ∧
      s.received.length = 18 :=
    execIf_observe (oneRead ++ [.event ⟨false, .good, 0⟩] ++ oneRead) _ 18 (by decide +kernel)
  exact ⟨s, run, h, (reads_exact oneCard run).1⟩

/-- The second command arrives before the event of the first status wrapper is handled. -/
theorem read_overruns : ∃ s, Run (step oneCard) (ReadHost oneCard) init s ∧
    s.overrun = true ∧ s.received.length = 9 ∧ s.sent.length = 2 := by
  obtain ⟨s, run, h⟩ : ∃ s, Run (step oneCard) (ReadHost oneCard) init s ∧
      decide (s.overrun = true ∧ s.received.length = 9 ∧ s.sent.length = 2) = true :=
    execIf_observe (oneRead ++ [.out oneBlock, .event ⟨false, .good, 0⟩, .event ⟨false, .good, 0⟩])
      _ true (by decide +kernel)
  exact ⟨s, run, of_decide_eq_true h⟩

end UsbMsc
