import OpenLab.Schedules
import OpenLab.RingWindow

/-!
# CDC-ACM output

`lib/usb/cdc_acm.c`: `cdc_acm_send` fills the ring `tx_buf`, and the task and the data-in
interrupt both run `cdc_acm_send_to_endpoint`. A step of the task is a critical section, one byte
of the copy loop or `usb_send`; the interrupt runs as a whole. The IN endpoint holds one packet.
The bytes are only moved, so their type is a variable.
-/

namespace CdcAcm

open RingWindow List Option

def txbufSize : Nat := 128
def datainSize : Nat := 16

variable {β : Type}

inductive Pc (β : Type)
  | idle
  /-- before the first section of `cdc_acm_send` -/
  | enter (buf : List β)
  /-- at the head of its copy loop -/
  | copy (buf : List β) (i txr txw txl : Nat)
  /-- before its second section -/
  | update (buf : List β) (i txw : Nat)
  /-- before the first section of `cdc_acm_send_to_endpoint` -/
  | snapshot
  /-- before its call of `usb_send` -/
  | send (txr txw txl : Nat)
  /-- before its second section -/
  | settle (len : Nat)

/-- The variables, the endpoint and the interrupt, and the streams of bytes that `cdc_acm_send`
has accepted and that the host has received. -/
structure Sys (β : Type) where
  txBuf : Nat → β
  txLen : Nat
  txWrite : Nat
  txRead : Nat
  slot : Option (List β)
  pending : Bool
  pc : Pc β
  accepted : List β
  received : List β

def packetLen (txr txw : Nat) : Nat :=
  let len := if txr < txw then txw - txr else txbufSize - txr
  if datainSize < len then datainSize else len

/-- `usb_send` with the bytes from `&tx_buf[txr]` on. -/
def usbSend (txr len : Nat) (s : Sys β) : Sys β :=
  { s with slot := some ((List.range len).map fun i => s.txBuf (txr + i)) }

def commit (len : Nat) (s : Sys β) : Sys β :=
  { s with
    txLen := (s.txLen + 2 ^ 16 - len) % 2 ^ 16
    txRead := if txbufSize ≤ s.txRead + len then 0 else s.txRead + len }

def dataIn (s : Sys β) : Sys β :=
  if s.txLen = 0 then s
  else commit (packetLen s.txRead s.txWrite) (usbSend s.txRead (packetLen s.txRead s.txWrite) s)

/-- After the first section of `cdc_acm_send`: the loop is entered if there is room. -/
def loopStart (buf : List β) (txr txw txl : Nat) : Pc β :=
  if (txl = 0 ∨ txw ≠ txr) ∧ 0 < buf.length then .copy buf 0 txr txw txl else .update buf 0 txw

def loopNext (buf : List β) (i txr txw txl : Nat) : Pc β :=
  if txw = txr ∨ buf.length ≤ i then .update buf i txw else .copy buf i txr txw txl

def task (s : Sys β) : Option (Sys β) :=
  match s.pc with
  | .idle => none
  | .enter buf => some { s with pc := loopStart buf s.txRead s.txWrite s.txLen }
  | .copy buf i txr txw txl =>
    match buf[i]? with
    | some b =>
      let txw' := if txbufSize ≤ txw + 1 then 0 else txw + 1
      some { s with txBuf := put s.txBuf txw b, pc := loopNext buf (i + 1) txr txw' txl }
    | none => none
  | .update buf i txw =>
    some { s with
      txWrite := txw, txLen := (s.txLen + i) % 2 ^ 16, accepted := s.accepted ++ buf.take i,
      pc := .snapshot }
  | .snapshot =>
    some { s with pc := if s.txLen = 0 then .idle else .send s.txRead s.txWrite s.txLen }
  | .send txr txw _ =>
    some { usbSend txr (packetLen txr txw) s with pc := .settle (packetLen txr txw) }
  | .settle len => some { commit len s with pc := .idle }

inductive Action (β : Type)
  | call (buf : List β)
  | task
  | take
  | interrupt

def step (s : Sys β) : Action β → Option (Sys β)
  | .call buf => match s.pc with
    | .idle => some { s with pc := .enter buf }
    | _ => none
  | .task => task s
  | .take => match s.slot with
    | some packet => some { s with slot := none, pending := true, received := s.received ++ packet }
    | none => none
  | .interrupt => if s.pending then some { dataIn s with pending := false } else none

def init (cells : Nat → β) : Sys β := ⟨cells, 0, 0, 0, none, false, .idle, [], []⟩

def ring (s : Sys β) : List β := window txbufSize s.txBuf s.txRead s.txLen

/-- Bytes that are sent and still counted in `tx_len`. -/
def inFlight : Pc β → Nat
  | .settle len => len
  | _ => 0

/-- The indices agree, and what was received, waits in the endpoint and is in the ring are the
accepted bytes, in order and once. -/
structure Reliable (s : Sys β) : Prop where
  read_lt : s.txRead < txbufSize
  len_le : s.txLen ≤ txbufSize
  write_eq : s.txWrite = (s.txRead + s.txLen) % txbufSize
  flight_le : inFlight s.pc ≤ s.txLen
  stream : s.received ++ s.slot.getD [] ++ (ring s).drop (inFlight s.pc) = s.accepted

/-- The task calls `usb_send` when the endpoint is empty and nothing was sent since it copied the
indices. -/
def CarefulAt (s : Sys β) : Pc β → Prop
  | .send _ _ txl => s.slot = none ∧ txl = s.txLen
  | _ => True

/-- The task is careful; the interrupt has nothing to send, or the endpoint is empty and the task is
not between its call of `usb_send` and the section after it. -/
def Careful (s : Sys β) : Action β → Prop
  | .task => CarefulAt s s.pc
  | .interrupt => s.txLen = 0 ∨ s.slot = none ∧ inFlight s.pc = 0
  | _ => True

/-- The indices `txr` and `txl` were copied before `txl - txLen` bytes were sent. -/
structure Copied (s : Sys β) (txr txl : Nat) : Prop where
  start_lt : txr < txbufSize
  less : s.txLen ≤ txl
  most : txl ≤ txbufSize
  read : s.txRead = (txr + (txl - s.txLen)) % txbufSize

/-- The first `i` bytes of `buf` stand in the ring behind its end. -/
structure Staged (s : Sys β) (buf : List β) (i txw : Nat) : Prop where
  count : i ≤ buf.length
  next : txw = (s.txWrite + i) % txbufSize
  room : s.txLen + i ≤ txbufSize
  bytes : window txbufSize s.txBuf s.txWrite i = buf.take i

def Local (s : Sys β) : Pc β → Prop
  | .idle | .enter _ | .snapshot => True
  | .copy buf i txr txw txl => Copied s txr txl ∧ txl + i < txbufSize ∧ i < buf.length ∧
      Staged s buf i txw
  | .update buf i txw => Staged s buf i txw
  | .send txr txw txl => Copied s txr txl ∧ 0 < txl ∧ txw = s.txWrite ∧
      ∃ old, s.accepted = old ++ window txbufSize s.txBuf txr txl
  | .settle len => 0 < len ∧ len = packetLen s.txRead s.txWrite ∧
      ∃ old, s.received ++ s.slot.getD [] = old ++ window txbufSize s.txBuf s.txRead len

/-- Whoever has bytes to send also has a reason to run. -/
def Moving (s : Sys β) : Prop :=
  s.txLen = 0 ∨ s.slot ≠ none ∨ s.pending = true ∨
    match s.pc with
    | .snapshot | .send _ _ _ => True
    | _ => False

structure Inv (s : Sys β) : Prop extends Reliable s where
  here : Local s s.pc
  moving : Moving s
  nonempty : ∀ packet, s.slot = some packet → packet ≠ []

theorem packetLen_bounds {r w l} (read : r < txbufSize) (len : l ≤ txbufSize)
    (write : w = (r + l) % txbufSize) (some_byte : 0 < l) :
    0 < packetLen r w ∧ packetLen r w ≤ l ∧ packetLen r w ≤ datainSize ∧
      r + packetLen r w ≤ txbufSize := by
  unfold packetLen txbufSize datainSize at *
  dsimp only
  split <;> split <;> omega

variable {s : Sys β} {len txr : Nat}

theorem commit_eq (most : s.txLen ≤ txbufSize) (le : len ≤ s.txLen)
    (straight : s.txRead + len ≤ txbufSize) : commit len s = { s with
      txLen := s.txLen - len, txRead := (s.txRead + len) % txbufSize } := by
  have small : (s.txLen + 2 ^ 16 - len) % 2 ^ 16 = s.txLen - len := by
    unfold txbufSize at most
    omega
  have wrap : (if txbufSize ≤ s.txRead + len then 0 else s.txRead + len) =
      (s.txRead + len) % txbufSize := by
    by_cases full : txbufSize ≤ s.txRead + len
    · rw [if_pos full, Nat.le_antisymm straight full, Nat.mod_self]
    · rw [if_neg full, Nat.mod_eq_of_lt (Nat.not_le.mp full)]
  rw [commit, small, wrap]

theorem usbSend_eq (straight : txr + len ≤ txbufSize) :
    usbSend txr len s = { s with slot := some (window txbufSize s.txBuf txr len) } := by
  rw [usbSend, window_straight straight]

namespace Reliable

variable (rel : Reliable s)

include rel

theorem bounds (some_byte : s.txLen ≠ 0) :
    0 < packetLen s.txRead s.txWrite ∧ packetLen s.txRead s.txWrite ≤ s.txLen ∧
      packetLen s.txRead s.txWrite ≤ datainSize ∧
      s.txRead + packetLen s.txRead s.txWrite ≤ txbufSize :=
  packetLen_bounds rel.read_lt rel.len_le rel.write_eq (Nat.pos_of_ne_zero some_byte)

theorem dataIn_eq (some_byte : s.txLen ≠ 0) : dataIn s = { s with
    slot := some (window txbufSize s.txBuf s.txRead (packetLen s.txRead s.txWrite))
    txLen := s.txLen - packetLen s.txRead s.txWrite
    txRead := (s.txRead + packetLen s.txRead s.txWrite) % txbufSize } := by
  obtain ⟨-, le, -, straight⟩ := rel.bounds some_byte
  rw [dataIn, if_neg some_byte, usbSend_eq straight]
  exact commit_eq (s := { s with slot := _ }) rel.len_le le straight

theorem count : s.received.length + (s.slot.getD []).length + (s.txLen - inFlight s.pc) =
    s.accepted.length := by
  have lengths := congrArg length rel.stream
  simpa [ring, Nat.add_assoc] using lengths

theorem advanced {len} (le : len ≤ s.txLen) :
    (s.txRead + len) % txbufSize < txbufSize ∧ s.txLen - len ≤ txbufSize ∧
      s.txWrite = ((s.txRead + len) % txbufSize + (s.txLen - len)) % txbufSize := by
  have write := rel.write_eq
  have most := rel.len_le
  unfold txbufSize at *
  omega

end Reliable

theorem split_ring (le : len ≤ s.txLen) :
    window txbufSize s.txBuf s.txRead len ++ (ring s).drop len = ring s := by
  rw [ring, ← take_window s.txRead le, take_append_drop]

theorem inv_init (cells : Nat → β) : Inv (init cells) :=
  ⟨⟨show 0 < txbufSize by decide, Nat.zero_le _, rfl, Nat.le_refl 0, rfl⟩, trivial, .inl rfl,
    fun _ h => nomatch h⟩

variable {buf : List β} {u : Sys β}

theorem inv_call (inv : Inv s) (h : step s (.call buf) = some u) : Inv u := by
  cases hpc : s.pc with
  | idle =>
    obtain rfl : { s with pc := .enter buf } = u := by simpa [step, hpc] using h
    have stream := inv.stream
    rw [hpc] at stream
    have moving := inv.moving
    rw [Moving, hpc] at moving
    exact ⟨⟨inv.read_lt, inv.len_le, inv.write_eq, Nat.zero_le _, stream⟩, trivial, moving,
      inv.nonempty⟩
  | _ => simp [step, hpc] at h

structure Advanced (s t : Sys β) (len : Nat) : Prop where
  le : len ≤ s.txLen
  lens : t.txLen = s.txLen - len
  reads : t.txRead = (s.txRead + len) % txbufSize
  writes : t.txWrite = s.txWrite
  cells : t.txBuf = s.txBuf
  accepted : t.accepted = s.accepted
  pc : t.pc = s.pc

variable {txl txw : Nat}

theorem Copied.advance {t} (copied : Copied s txr txl) (adv : Advanced s t len) :
    Copied t txr txl := by
  have less := copied.less
  have read := copied.read
  have le := adv.le
  have lens := adv.lens
  refine ⟨copied.start_lt, by omega, copied.most, ?_⟩
  rw [adv.reads, lens, read]
  unfold txbufSize
  omega

theorem Staged.advance {t} {i} (staged : Staged s buf i txw)
    (adv : Advanced s t len) : Staged t buf i txw := by
  have room := staged.room
  have lens := adv.lens
  refine ⟨staged.count, ?_, by omega, ?_⟩
  · rw [adv.writes]
    exact staged.next
  · rw [adv.writes, adv.cells]
    exact staged.bytes

/-- What holds where the task is survives an interrupt that does not find it in flight, and the
host. -/
theorem Local.advance {t} (here : Local s s.pc) (len : Nat) (adv : Advanced s t len)
    (settled : inFlight s.pc = 0 ∨ t.txRead = s.txRead ∧
      t.received ++ t.slot.getD [] = s.received ++ s.slot.getD []) : Local t t.pc := by
  rw [adv.pc]
  cases hpc : s.pc with
  | idle | enter _ | snapshot => trivial
  | copy buf i txr txw txl =>
    rw [hpc] at here
    obtain ⟨copied, more, inside, staged⟩ := here
    exact ⟨copied.advance adv, more, inside, staged.advance adv⟩
  | update buf i txw =>
    rw [hpc] at here
    exact Staged.advance here adv
  | send txr txw txl =>
    rw [hpc] at here
    obtain ⟨copied, positive, write, old, whole⟩ := here
    refine ⟨copied.advance adv, positive, write.trans adv.writes.symm, old, ?_⟩
    rw [adv.accepted, adv.cells]
    exact whole
  | settle len =>
    rw [hpc] at here settled
    obtain ⟨positive, eq, old, prior⟩ := here
    obtain ⟨read, same⟩ := settled.resolve_left positive.ne'
    refine ⟨positive, ?_, old, ?_⟩
    · rw [read, adv.writes]
      exact eq
    · rw [same, read, adv.cells]
      exact prior

theorem inv_take (inv : Inv s) (h : step s .take = some u) : Inv u := by
  cases hslot : s.slot with
  | none => simp [step, hslot] at h
  | some packet =>
    obtain rfl : { s with slot := none, pending := true, received := s.received ++ packet } =
        u := by
      simpa [step, hslot] using h
    have same : s.received ++ packet ++ (none : Option (List β)).getD [] =
        s.received ++ s.slot.getD [] := by
      rw [hslot]
      simp
    refine ⟨⟨inv.read_lt, inv.len_le, inv.write_eq, inv.flight_le, ?_⟩, ?_, .inr (.inr (.inl rfl)),
      fun _ h => nomatch h⟩
    · show s.received ++ packet ++ _ ++ (ring s).drop _ = _
      rw [same]
      exact inv.stream
    · exact inv.here.advance 0 ⟨Nat.zero_le _, rfl, (Nat.mod_eq_of_lt inv.read_lt).symm, rfl,
        rfl, rfl, rfl⟩ (.inr ⟨rfl, same⟩)

theorem interrupt_eq (h : step s .interrupt = some u) : { dataIn s with pending := false } = u := by
  cases hp : s.pending with
  | false => simp [step, hp] at h
  | true => simpa [step, hp] using h

theorem inv_interrupt (inv : Inv s) (careful : Careful s .interrupt)
    (h : step s .interrupt = some u) : Inv u := by
  obtain rfl := interrupt_eq h
  by_cases empty : s.txLen = 0
  · have nothing : dataIn s = s := if_pos empty
    rw [nothing]
    refine ⟨{ inv with }, ?_, .inl empty,
      inv.nonempty⟩
    exact inv.here.advance 0 ⟨Nat.zero_le _, rfl, (Nat.mod_eq_of_lt inv.read_lt).symm, rfl,
      rfl, rfl, rfl⟩ (.inr ⟨rfl, rfl⟩)
  · obtain ⟨slot, flight⟩ := careful.resolve_left empty
    obtain ⟨positive, le, -, -⟩ := inv.toReliable.bounds empty
    obtain ⟨read, most, write⟩ := inv.toReliable.advanced le
    rw [inv.toReliable.dataIn_eq empty]
    set len := packetLen s.txRead s.txWrite with hlen
    refine ⟨⟨read, most, write, ?_, ?_⟩, ?_, .inr (.inl (some_ne_none _)), ?_⟩
    · show inFlight s.pc ≤ _
      rw [flight]
      exact Nat.zero_le _
    · show s.received ++ window txbufSize s.txBuf s.txRead len ++
        (window txbufSize s.txBuf ((s.txRead + len) % txbufSize) (s.txLen - len)).drop
          (inFlight s.pc) = s.accepted
      have stream := inv.stream
      rw [flight, slot, drop_zero] at stream
      rw [flight, drop_zero, ← drop_window s.txRead le, append_assoc]
      exact (congrArg _ (split_ring le)).trans (by simpa using stream)
    · exact inv.here.advance len ⟨le, rfl, rfl, rfl, rfl, rfl, rfl⟩ (.inl flight)
    · intro packet hp empty_packet
      have lengths := congrArg length (some.inj hp)
      rw [empty_packet, length_window] at lengths
      exact positive.ne' lengths

theorem inv_enter (inv : Inv s) (hpc : s.pc = .enter buf) :
    Inv { s with pc := loopStart buf s.txRead s.txWrite s.txLen } := by
  have stream := inv.stream
  have moving := inv.moving
  rw [hpc] at stream
  rw [Moving, hpc] at moving
  have staged : Staged s buf 0 s.txWrite := by
    refine ⟨Nat.zero_le _, ?_, inv.len_le, rfl⟩
    rw [Nat.add_zero, inv.write_eq, Nat.mod_mod]
  unfold loopStart
  by_cases go : (s.txLen = 0 ∨ s.txWrite ≠ s.txRead) ∧ 0 < buf.length
  · rw [if_pos go]
    refine ⟨⟨inv.read_lt, inv.len_le, inv.write_eq, Nat.zero_le _, stream⟩, ?_,
      moving.imp_right (.imp_right (.imp_right False.elim)), inv.nonempty⟩
    refine ⟨⟨inv.read_lt, Nat.le_refl _, inv.len_le, ?_⟩, ?_, go.2,
      { staged with }⟩
    · rw [Nat.sub_self, Nat.add_zero, Nat.mod_eq_of_lt inv.read_lt]
    · -- a full ring has equal indices
      have write := inv.write_eq
      have read := inv.read_lt
      have most := inv.len_le
      unfold txbufSize at *
      omega
  · rw [if_neg go]
    exact ⟨⟨inv.read_lt, inv.len_le, inv.write_eq, Nat.zero_le _, stream⟩,
      { staged with },
      moving.imp_right (.imp_right (.imp_right False.elim)), inv.nonempty⟩

theorem Staged.next_byte {i} {b} (rel : Reliable s) (staged : Staged s buf i txw)
    (room : s.txLen + i < txbufSize) (byte : buf[i]? = some b) :
    ring { s with txBuf := put s.txBuf txw b } = ring s ∧
      Staged { s with txBuf := put s.txBuf txw b } buf (i + 1)
        (if txbufSize ≤ txw + 1 then 0 else txw + 1) := by
  have write := rel.write_eq
  have next := staged.next
  have inside : i < buf.length := (List.getElem?_eq_some_iff.mp byte).1
  refine ⟨?_, ⟨inside, ?_, room, ?_⟩⟩
  · refine window_put b ?_
    intro j (hj : j < s.txLen)
    show (s.txRead + j) % txbufSize ≠ txw
    unfold txbufSize at *
    omega
  · show (if txbufSize ≤ txw + 1 then 0 else txw + 1) = (s.txWrite + (i + 1)) % txbufSize
    unfold txbufSize at *
    split <;> omega
  · show window txbufSize (put s.txBuf txw b) s.txWrite (i + 1) = _
    rw [window_succ, window_put b, staged.bytes, ← next, put, if_pos rfl]
    · simp [take_add_one, byte]
    · intro j hj
      unfold txbufSize at *
      omega

theorem inv_copy {i} {b} (inv : Inv s) (hpc : s.pc = .copy buf i txr txw txl)
    (byte : buf[i]? = some b) : Inv { s with
      txBuf := put s.txBuf txw b
      pc := loopNext buf (i + 1) txr (if txbufSize ≤ txw + 1 then 0 else txw + 1) txl } := by
  have stream := inv.stream
  have moving := inv.moving
  have here := inv.here
  rw [hpc] at stream here
  rw [Moving, hpc] at moving
  obtain ⟨copied, more, -, staged⟩ := here
  have less := copied.less
  obtain ⟨same, staged'⟩ := staged.next_byte inv.toReliable (by omega) byte
  set txw' := if txbufSize ≤ txw + 1 then 0 else txw + 1 with htxw
  have stream' : s.received ++ s.slot.getD [] ++
      (ring { s with txBuf := put s.txBuf txw b }).drop 0 = s.accepted := by
    rw [same]
    exact stream
  unfold loopNext
  by_cases stop : txw' = txr ∨ buf.length ≤ i + 1
  · rw [if_pos stop]
    exact ⟨⟨inv.read_lt, inv.len_le, inv.write_eq, Nat.zero_le _, stream'⟩,
      { staged' with },
      moving.imp_right (.imp_right (.imp_right False.elim)), inv.nonempty⟩
  · rw [if_neg stop]
    refine ⟨⟨inv.read_lt, inv.len_le, inv.write_eq, Nat.zero_le _, stream'⟩, ?_,
      moving.imp_right (.imp_right (.imp_right False.elim)), inv.nonempty⟩
    refine ⟨{ copied with }, ?_, by omega,
      { staged' with }⟩
    -- the loop stops when the write index meets the copied read index
    have next : txw' = (s.txWrite + (i + 1)) % txbufSize := staged'.next
    have write := inv.write_eq
    have read := copied.read
    have start := copied.start_lt
    unfold txbufSize at *
    omega

theorem inv_update {i} (inv : Inv s) (hpc : s.pc = .update buf i txw) : Inv { s with
      txWrite := txw, txLen := (s.txLen + i) % 2 ^ 16, accepted := s.accepted ++ buf.take i,
      pc := .snapshot } := by
  have stream := inv.stream
  have staged := inv.here
  rw [hpc] at stream staged
  have room := staged.room
  have small : (s.txLen + i) % 2 ^ 16 = s.txLen + i := by
    unfold txbufSize at room
    omega
  rw [small]
  refine ⟨⟨inv.read_lt, room, ?_, Nat.zero_le _, ?_⟩, trivial, .inr (.inr (.inr trivial)),
    inv.nonempty⟩
  · show txw = (s.txRead + (s.txLen + i)) % txbufSize
    rw [staged.next, inv.write_eq, Nat.mod_add_mod, Nat.add_assoc]
  · show s.received ++ s.slot.getD [] ++
      (window txbufSize s.txBuf s.txRead (s.txLen + i)).drop 0 = _
    rw [drop_zero, ← window_append, ← inv.write_eq, staged.bytes, ← append_assoc]
    exact congrArg (· ++ buf.take i) stream

theorem inv_snapshot (inv : Inv s) (hpc : s.pc = .snapshot) :
    Inv { s with pc := if s.txLen = 0 then .idle else .send s.txRead s.txWrite s.txLen } := by
  have stream := inv.stream
  rw [hpc] at stream
  by_cases empty : s.txLen = 0
  · rw [if_pos empty]
    exact ⟨⟨inv.read_lt, inv.len_le, inv.write_eq, Nat.zero_le _, stream⟩, trivial, .inl empty,
      inv.nonempty⟩
  · rw [if_neg empty]
    refine ⟨⟨inv.read_lt, inv.len_le, inv.write_eq, Nat.zero_le _, stream⟩, ?_,
      .inr (.inr (.inr trivial)), inv.nonempty⟩
    refine ⟨⟨inv.read_lt, Nat.le_refl _, inv.len_le, ?_⟩, Nat.pos_of_ne_zero empty, rfl, _,
      stream.symm⟩
    rw [Nat.sub_self, Nat.add_zero, Nat.mod_eq_of_lt inv.read_lt]

theorem inv_send (inv : Inv s) (hpc : s.pc = .send txr txw txl) (slot : s.slot = none)
    (current : txl = s.txLen) :
    Inv { usbSend txr (packetLen txr txw) s with pc := .settle (packetLen txr txw) } := by
  have stream := inv.stream
  have here := inv.here
  rw [hpc] at stream here
  obtain ⟨copied, positive, write, -⟩ := here
  have read : s.txRead = txr := by
    rw [copied.read, current, Nat.sub_self, Nat.add_zero, Nat.mod_eq_of_lt copied.start_lt]
  have some_byte : s.txLen ≠ 0 := by omega
  obtain ⟨some_len, le, -, straight⟩ := inv.toReliable.bounds some_byte
  rw [write, ← read, usbSend_eq straight]
  set len := packetLen s.txRead s.txWrite with hlen
  rw [slot] at stream
  refine ⟨⟨inv.read_lt, inv.len_le, inv.write_eq, le, ?_⟩, ?_, .inr (.inl (some_ne_none _)), ?_⟩
  · show s.received ++ window txbufSize s.txBuf s.txRead len ++ (ring s).drop len = s.accepted
    rw [append_assoc, split_ring le]
    simpa [inFlight] using stream
  · exact ⟨some_len, hlen, s.received, rfl⟩
  · intro packet hp empty_packet
    have lengths := congrArg length (some.inj hp)
    rw [empty_packet, length_window] at lengths
    exact some_len.ne' lengths

theorem inv_settle (inv : Inv s) (hpc : s.pc = .settle len) :
    Inv { commit len s with pc := .idle } := by
  have stream := inv.stream
  have here := inv.here
  have flight := inv.flight_le
  have moving := inv.moving
  rw [hpc] at stream here flight
  rw [Moving, hpc] at moving
  obtain ⟨positive, eq, -⟩ := here
  have le : len ≤ s.txLen := flight
  have some_byte : s.txLen ≠ 0 := by omega
  obtain ⟨-, -, -, straight⟩ := inv.toReliable.bounds some_byte
  rw [← eq] at straight
  obtain ⟨read, most, write⟩ := inv.toReliable.advanced le
  rw [commit_eq inv.len_le le straight]
  refine ⟨⟨read, most, write, Nat.zero_le _, ?_⟩, trivial, ?_, inv.nonempty⟩
  · show s.received ++ s.slot.getD [] ++
      (window txbufSize s.txBuf ((s.txRead + len) % txbufSize) (s.txLen - len)).drop 0 = s.accepted
    rw [drop_zero, ← drop_window s.txRead le]
    exact stream
  · exact .inr (moving.resolve_left some_byte)

theorem inv_task (inv : Inv s) (careful : Careful s .task) (h : step s .task = some u) : Inv u := by
  have h : task s = some u := h
  cases hpc : s.pc with
  | idle => simp [task, hpc] at h
  | enter buf =>
    simp only [task, hpc] at h
    cases h
    exact inv_enter inv hpc
  | copy buf i txr txw txl =>
    cases byte : buf[i]? with
    | none => simp [task, hpc, byte] at h
    | some b =>
      simp only [task, hpc, byte] at h
      cases h
      exact inv_copy inv hpc byte
  | update buf i txw =>
    simp only [task, hpc] at h
    cases h
    exact inv_update inv hpc
  | snapshot =>
    simp only [task, hpc] at h
    cases h
    exact inv_snapshot inv hpc
  | send txr txw txl =>
    simp only [task, hpc] at h
    cases h
    rw [Careful, hpc] at careful
    exact inv_send inv hpc careful.1 careful.2
  | settle len =>
    simp only [task, hpc] at h
    cases h
    exact inv_settle inv hpc

theorem inv_step {a} (inv : Inv s) (careful : Careful s a) (h : step s a = some u) :
    Inv u := by
  cases a with
  | call buf => exact inv_call inv h
  | task => exact inv_task inv careful h
  | take => exact inv_take inv h
  | interrupt => exact inv_interrupt inv careful h

theorem not_nodup {b : β} {l m n : List β} (first : b ∈ l) (second : b ∈ m) :
    ¬ (l ++ m ++ n).Nodup := fun nodup =>
  disjoint_of_nodup_append nodup.of_append_left first second

theorem slot_eq_none (inv : Inv s) (nothing : (s.slot.getD []).length = 0) : s.slot = none := by
  cases hslot : s.slot with
  | none => rfl
  | some packet =>
    rw [hslot] at nothing
    exact absurd (length_eq_zero_iff.mp nothing) (inv.nonempty packet hslot)

theorem careful_of_send (inv : Inv s) (hpc : s.pc = .send txr txw txl) (distinct : s.accepted.Nodup)
    (rel : Reliable { usbSend txr (packetLen txr txw) s with pc := .settle (packetLen txr txw) }) :
    s.slot = none ∧ txl = s.txLen := by
  have here := inv.here
  have count := inv.toReliable.count
  have stream := inv.stream
  rw [hpc] at here count stream
  obtain ⟨copied, positive, write, old, whole⟩ := here
  have start := copied.start_lt
  have most := copied.most
  have less := copied.less
  have read := copied.read
  have ends : txw = (txr + txl) % txbufSize := by
    rw [write, inv.write_eq, read]
    unfold txbufSize
    omega
  obtain ⟨some_len, -, -, straight⟩ := packetLen_bounds start most ends positive
  set len := packetLen txr txw with hlen
  rw [usbSend_eq straight] at rel
  have flight : len ≤ s.txLen := rel.flight_le
  have count' : s.received.length + (window txbufSize s.txBuf txr len).length + (s.txLen - len) =
      s.accepted.length := rel.count
  rw [length_window] at count'
  have none_waits : s.slot = none := by
    refine slot_eq_none inv ?_
    have : inFlight (Pc.send txr txw txl : Pc β) = 0 := rfl
    omega
  refine ⟨none_waits, ?_⟩
  by_contra stale
  -- the bytes from `txr` on were sent by the interrupt, so the host has received the first one
  obtain ⟨d, hd⟩ : ∃ d, txl = d + s.txLen := ⟨txl - s.txLen, by omega⟩
  have split : window txbufSize s.txBuf txr txl = window txbufSize s.txBuf txr d ++ ring s := by
    have sent : txl - s.txLen = d := by omega
    rw [hd, ← window_append, ring, read, sent]
  have received : s.received = old ++ window txbufSize s.txBuf txr d := by
    rw [none_waits, whole, split, ← append_assoc] at stream
    have cancel : s.received ++ ring s = (old ++ window txbufSize s.txBuf txr d) ++ ring s := by
      simpa [inFlight] using stream
    exact append_cancel_right cancel
  have again : s.received ++ window txbufSize s.txBuf txr len ++ (ring s).drop len = s.accepted :=
    rel.stream
  rw [← again] at distinct
  refine not_nodup ?_ (mem_window_head txr some_len) distinct
  rw [received]
  exact mem_append_right _ (mem_window_head txr (by omega))

theorem careful_of_interrupt (inv : Inv s) (distinct : s.accepted.Nodup)
    (rel : Reliable { dataIn s with pending := false }) : Careful s .interrupt := by
  by_cases empty : s.txLen = 0
  · exact .inl empty
  · refine .inr ?_
    obtain ⟨some_len, le, -, -⟩ := inv.toReliable.bounds empty
    have count := inv.toReliable.count
    rw [inv.toReliable.dataIn_eq empty] at rel
    have flight : inFlight s.pc ≤ s.txLen - packetLen s.txRead s.txWrite := rel.flight_le
    have count' : s.received.length +
        (window txbufSize s.txBuf s.txRead (packetLen s.txRead s.txWrite)).length +
        (s.txLen - packetLen s.txRead s.txWrite - inFlight s.pc) = s.accepted.length := rel.count
    rw [length_window] at count'
    have none_waits : s.slot = none := slot_eq_none inv (by omega)
    refine ⟨none_waits, ?_⟩
    cases hpc : s.pc with
    | settle len =>
      -- the interrupt sends the packet that the host has received from the task
      have here := inv.here
      rw [hpc] at here
      obtain ⟨positive, eq, old, prior⟩ := here
      rw [none_waits] at prior
      have received : s.received = old ++ window txbufSize s.txBuf s.txRead len := by
        simpa using prior
      have again := rel.stream
      rw [← again] at distinct
      refine absurd distinct (not_nodup ?_ (mem_window_head s.txRead some_len))
      show _ ∈ s.received
      rw [received]
      exact mem_append_right _ (mem_window_head s.txRead positive)
    | _ => rfl

theorem careful_of_reliable {a} (inv : Inv s) (h : step s a = some u)
    (distinct : u.accepted.Nodup) (rel : Reliable u) : Careful s a := by
  cases a with
  | call buf | take => trivial
  | interrupt =>
    obtain rfl := interrupt_eq h
    have same : (dataIn s).accepted = s.accepted := by
      unfold dataIn
      split <;> rfl
    exact careful_of_interrupt inv (same ▸ distinct) rel
  | task =>
    have h : task s = some u := h
    cases hpc : s.pc with
    | send txr txw txl =>
      simp only [task, hpc] at h
      cases h
      rw [Careful, hpc]
      exact careful_of_send inv hpc distinct rel
    | _ =>
      rw [Careful, hpc]
      trivial

theorem inv_run {cells} (run : Schedules.Run step Careful (init cells) s) : Inv s :=
  run.invariant Inv (fun _ _ _ inv careful h => inv_step inv careful h) (inv_init cells)

/-- In every run of careful steps the output is reliable in every state, and complete when nothing
is going on. The step that is not careful breaks it, as is seen when the bytes are distinct. -/
theorem output_reliable (cells : Nat → β) (run : Schedules.Run step Careful (init cells) s) :
    Reliable s ∧
      (s.pc = .idle → s.slot = none → s.pending = false → s.received = s.accepted) ∧
      ∀ a u, step s a = some u →
        (Careful s a → Reliable u) ∧ (u.accepted.Nodup → Reliable u → Careful s a) := by
  have inv := inv_run run
  refine ⟨inv.toReliable, ?_, ?_⟩
  · intro idle slot quiet
    have moving := inv.moving
    rw [Moving, idle, slot, quiet] at moving
    have empty : s.txLen = 0 := by simpa using moving
    have stream := inv.stream
    rw [idle, slot, ring, empty] at stream
    simpa using stream
  · intro a u h
    exact ⟨fun careful => (inv_step inv careful h).toReliable,
      fun distinct rel => careful_of_reliable inv h distinct rel⟩

instance (s : Sys β) (pc : Pc β) : Decidable (CarefulAt s pc) := by
  cases pc <;> unfold CarefulAt <;> infer_instance

instance (s : Sys β) (a : Action β) : Decidable (Careful s a) := by
  cases a <;> unfold Careful <;> infer_instance

def sending (buf : List UInt8) : List (Action UInt8) :=
  .call buf :: List.replicate (buf.length + 5) .task

/-- Twenty bytes: the task sends the first packet and the interrupt the other one. -/
theorem output_reliable_two : ∃ s : Sys UInt8,
    Schedules.Run step Careful (init fun _ => 0) s ∧ s.received = (range 20).map UInt8.ofNat ∧
      Reliable s := by
  obtain ⟨s, run, h⟩ : ∃ s : Sys UInt8, Schedules.Run step Careful (init fun _ => 0) s ∧
      s.received = (range 20).map UInt8.ofNat :=
    Schedules.execIf_observe (sending ((range 20).map UInt8.ofNat) ++
      [.take, .interrupt, .take, .interrupt]) _ _ (by decide +kernel)
  exact ⟨s, run, h, (output_reliable _ run).1⟩

/-- Two calls in a row: the second packet is written over the first one. Next, one call whose
packet is taken, and followed by the interrupt, before the task has written back the indices:
the host receives the byte twice. -/
theorem output_lost_and_repeated :
    (∃ s : Sys UInt8, Schedules.Reach step (init fun _ => 0) s ∧
      s.accepted = [1, 2] ∧ s.received = [2] ∧ s.slot = none ∧ s.txLen = 0) ∧
    (∃ s : Sys UInt8, Schedules.Reach step (init fun _ => 0) s ∧
      s.accepted = [1] ∧ s.received = [1, 1]) := by
  constructor
  · obtain ⟨s, run, h⟩ : ∃ s : Sys UInt8, Schedules.Reach step (init fun _ => 0) s ∧
        decide (s.accepted = [1, 2] ∧ s.received = [2] ∧ s.slot = none ∧ s.txLen = 0) = true :=
      Schedules.exec_observe (sending [1] ++ sending [2] ++ [.take, .interrupt]) _ _
        (by decide +kernel)
    exact ⟨s, run, of_decide_eq_true h⟩
  · obtain ⟨s, run, h⟩ : ∃ s : Sys UInt8, Schedules.Reach step (init fun _ => 0) s ∧
        decide (s.accepted = [1] ∧ s.received = [1, 1]) = true :=
      Schedules.exec_observe
        (.call [1] :: replicate 5 .task ++ [.take, .interrupt, .take]) _ _ (by decide +kernel)
    exact ⟨s, run, of_decide_eq_true h⟩

end CdcAcm
