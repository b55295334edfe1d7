import OpenLab.SerialOwners

/-!
# The receiver of the serial link

The bytes of a frame are in the rx packet as they were received, and its length is the one the
length byte announces. `B` is what is known about that byte.
-/

namespace IotlabSerial

open Function Schedules List

variable {packetMaxSize : Nat} {handlers : List Handler} {s u : Serial} {a : Action} {p q : PktId}
  {timestamp : UInt32} {c : UInt8} {B : UInt8 → Prop}

/-- The first `k` bytes of the packet are the received bytes. -/
def Filled (pkt : Packet) (bytes : List Stamped) (k : Nat) : Prop :=
  bytes.map Prod.snd = (List.range k).map pkt.rawData

def Announced (B : UInt8 → Prop) (pkt : Packet) : Prop :=
  ∃ c, B c ∧ pkt.length = 2 + c.toUInt16

def Begun (B : UInt8 → Prop) (pkt : Packet) (bytes : List Stamped) (i : UInt16) : Prop :=
  i ≠ 0 → Filled pkt bytes i.toNat ∧
    (2 ≤ i.toNat → Announced B pkt ∧ i.toNat < pkt.length.toNat)

def Whole (B : UInt8 → Prop) (pkt : Packet) (bytes : List Stamped) : Prop :=
  Filled pkt bytes pkt.length.toNat ∧ Announced B pkt

structure Call.Of (handlers : List Handler) (call : Call) (rawData : Nat → UInt8)
    (size : UInt16) : Prop where
  frame : call.frame.map Prod.snd = (List.range size.toNat).map rawData
  cmdType : call.cmdType = rawData 2
  handler : call.handler = iotlabSerialGetHandler handlers call.cmdType
  length : call.length = size - 3
  payload : call.payload = (List.range (size - 3).toNat).map fun i => rawData (3 + i)

structure Kept (handlers : List Handler) (B : UInt8 → Prop) (s : Serial) : Prop where
  once : Once s
  index : s.rxPkt = none → s.rxIndex = 0
  offset : ∀ p, s.rxPkt = some p ∨ s.readyPkt = some p ∨ s.app.packet = some p →
    (s.packet p).offset = 3
  begun : ∀ p, s.rxPkt = some p → Begun B (s.packet p) (s.ghost.bytes p) s.rxIndex
  whole : ∀ p, s.readyPkt = some p ∨ s.app = .taken p → Whole B (s.packet p) (s.ghost.bytes p)
  calls : ∀ call ∈ s.ghost.calls, ∃ rawData c, B c ∧ call.Of handlers rawData (2 + c.toUInt16)

/-- What is known about the bytes at the second position of a frame. -/
def LengthBytes (B : UInt8 → Prop) (s : Serial) : Action → Prop
  | .charRx timestamp c => s.rxPkt ≠ none → rxPosition s timestamp = 1 → B c
  | _ => True

variable {pkt : Packet} {bytes : List Stamped}

theorem filled_append {k} {pkt'} (h : Filled pkt bytes k)
    (write : pkt'.rawData = update pkt.rawData k c) :
    Filled pkt' (bytes ++ [(timestamp, c)]) (k + 1) := by
  unfold Filled at h ⊢
  rw [map_append, h, range_succ, map_append, write]
  congr 1
  · refine map_congr_left fun i hi => ?_
    rw [update_of_ne (by have := mem_range.mp hi; omega)]
  · simp

theorem rxPosition_eq (nonzero : rxPosition s timestamp ≠ 0) :
    rxPosition s timestamp = s.rxIndex := by
  unfold rxPosition at nonzero ⊢
  by_cases out : TimedOut s timestamp
  · rw [checkTimeout_of_timedOut out] at nonzero
    exact absurd rfl nonzero
  · rw [checkTimeout_of_not out]

theorem announced_length (c : UInt8) : (2 + c.toUInt16).toNat = 2 + c.toNat := by
  have := c.toNat_lt
  simp [UInt16.toNat_add]
  omega

theorem Begun.at_position (h : Begun B pkt bytes s.rxIndex) :
    Begun B pkt bytes (rxPosition s timestamp) := by
  intro nonzero
  have eq := rxPosition_eq nonzero
  rw [eq] at nonzero ⊢
  exact h nonzero

theorem Begun.position_lt {i} (h : Begun B pkt bytes i) : i.toNat < 257 := by
  by_cases big : 2 ≤ i.toNat
  · have nonzero : i ≠ 0 := by
      rintro rfl
      simp at big
    obtain ⟨⟨c, -, length⟩, lt⟩ := (h nonzero).2 big
    rw [length, announced_length] at lt
    have := c.toNat_lt
    omega
  · omega

theorem Begun.toNat_succ {i} (h : Begun B pkt bytes i) : (i + 1).toNat = i.toNat + 1 := by
  have := h.position_lt
  simp [UInt16.toNat_add]
  omega

theorem saved_filled (packetMaxSize : Nat) (c : UInt8)
    (h : Begun B (s.packet p) (s.ghost.bytes p) (rxPosition s timestamp)) :
    Filled ((saved packetMaxSize s p timestamp c).packet p)
      ((saved packetMaxSize s p timestamp c).ghost.bytes p) (rxPosition s timestamp + 1).toNat := by
  rw [h.toNat_succ]
  simp only [saved, update_self]
  by_cases zero : rxPosition s timestamp = 0
  · have start : Filled (s.packet p) [] 0 := rfl
    simp only [zero, if_true]
    exact filled_append start rfl
  · simp only [zero, if_false]
    exact filled_append (h zero).1 rfl

theorem saved_announced (packetMaxSize : Nat)
    (h : Begun B (s.packet p) (s.ghost.bytes p) (rxPosition s timestamp))
    (known : rxPosition s timestamp = 1 → B c) (one : 1 ≤ (rxPosition s timestamp).toNat) :
    Announced B ((saved packetMaxSize s p timestamp c).packet p) ∧
      (rxPosition s timestamp).toNat + 1 ≤
        ((saved packetMaxSize s p timestamp c).packet p).length.toNat := by
  simp only [saved, update_self]
  by_cases second : rxPosition s timestamp = 1
  · rw [second]
    refine ⟨⟨c, known second, rfl⟩, ?_⟩
    simp only [if_true, announced_length]
    change 1 + 1 ≤ 2 + c.toNat
    omega
  · have nonzero : rxPosition s timestamp ≠ 0 := by
      intro zero
      simp [zero] at one
    have big : 2 ≤ (rxPosition s timestamp).toNat := by
      have : (rxPosition s timestamp).toNat ≠ 1 := fun eq => second (UInt16.toNat_inj.mp eq)
      omega
    obtain ⟨announced, lt⟩ := (h nonzero).2 big
    simp only [second, if_false]
    exact ⟨announced, by omega⟩

theorem last_iff (packetMaxSize : Nat)
    (h : Begun B (s.packet p) (s.ghost.bytes p) (rxPosition s timestamp)) :
    Last s p timestamp c ↔ 1 ≤ (rxPosition s timestamp).toNat ∧ (rxPosition s timestamp).toNat + 1 =
      ((saved packetMaxSize s p timestamp c).packet p).length.toNat := by
  have succ := h.toNat_succ
  have length : ((saved packetMaxSize s p timestamp c).packet p).length =
      if rxPosition s timestamp = 1 then 2 + c.toUInt16 else (s.packet p).length := by
    simp [saved]
  have short : rxPosition s timestamp + 1 < 2 ↔ (rxPosition s timestamp).toNat + 1 < 2 := by
    rw [UInt16.lt_iff_toNat_lt, succ]
    rfl
  constructor
  · rintro ⟨long, eq⟩
    rw [length, ← eq, succ]
    have := mt short.mpr long
    exact ⟨by omega, rfl⟩
  · rintro ⟨one, eq⟩
    refine ⟨fun lt => absurd (short.mp lt) (by omega), UInt16.toNat_inj.mp ?_⟩
    rw [succ, eq, length]

theorem Kept.same (h : Kept handlers B s) (once : Once u) (rx : u.rxPkt = s.rxPkt)
    (index : u.rxIndex = s.rxIndex) (ready : u.readyPkt = s.readyPkt) (app : u.app = s.app)
    (packet : ∀ q, s.rxPkt = some q ∨ s.readyPkt = some q ∨ s.app.packet = some q →
      u.packet q = s.packet q)
    (bytes : u.ghost.bytes = s.ghost.bytes) (calls : u.ghost.calls = s.ghost.calls) :
    Kept handlers B u where
  once := once
  index := by rw [rx, index]; exact h.index
  offset q used := by
    rw [rx, ready, app] at used
    rw [packet q used]
    exact h.offset q used
  begun q installed := by
    rw [rx] at installed
    rw [packet q (.inl installed), bytes, index]
    exact h.begun q installed
  whole q used := by
    rw [ready, app] at used
    have used' : s.readyPkt = some q ∨ s.app.packet = some q :=
      used.imp_right fun taken => by rw [taken]; rfl
    rw [packet q (.inr used'), bytes]
    exact h.whole q used
  calls := by rw [calls]; exact h.calls

theorem saved_offset (packetMaxSize : Nat) {k} (h : (s.packet q).offset = k) :
    ((saved packetMaxSize s p timestamp c).packet q).offset = k := by
  by_cases same : q = p
  · subst same
    simpa [saved] using h
  · simpa [saved, same] using h

section

variable (h : Kept handlers B s)

include h

theorem Kept.not_rx (installed : s.rxPkt = some p) (used : s.readyPkt = some q ∨ s.app = .taken q) :
    q ≠ p := by
  rintro rfl
  have apart := h.once.rx_apart installed
  rcases used with ready | taken
  · exact apart.1 ready
  · exact apart.2 (by rw [taken]; rfl)

theorem kept_byte {timestamp} {c} (known : LengthBytes B s (.charRx timestamp c))
    (installed : s.rxPkt = some p) (last : ¬Last s p timestamp c)
    (once : Once ((saved packetMaxSize s p timestamp c).noted timestamp)) :
    Kept handlers B ((saved packetMaxSize s p timestamp c).noted timestamp) := by
  have position : Begun B (s.packet p) (s.ghost.bytes p) (rxPosition s timestamp) :=
    (h.begun p installed).at_position
  rw [last_iff packetMaxSize position] at last
  refine ⟨once, fun free => ?_, fun q used => ?_, fun q installed' => ?_, fun q used => ?_,
    h.calls⟩
  · exact absurd (installed.symm.trans free) (by simp)
  · exact saved_offset packetMaxSize (h.offset q used)
  · obtain rfl : p = q := Option.some.inj (installed.symm.trans installed')
    intro _
    refine ⟨saved_filled packetMaxSize c position, fun two => ?_⟩
    change 2 ≤ (rxPosition s timestamp + 1).toNat at two
    rw [position.toNat_succ] at two
    obtain ⟨announced, le⟩ := saved_announced packetMaxSize position
      (known (by simp [installed])) (by omega)
    refine ⟨announced, ?_⟩
    change (rxPosition s timestamp + 1).toNat < _
    rw [position.toNat_succ]
    exact lt_of_le_of_ne le fun eq => last ⟨by omega, eq⟩
  · have whole := h.whole q used
    have other := h.not_rx installed used
    simpa [saved, Serial.noted, other] using whole

theorem kept_frame {timestamp} {c} (known : LengthBytes B s (.charRx timestamp c))
    (installed : s.rxPkt = some p) (last : Last s p timestamp c)
    (once : Once ((switchBuffers (saved packetMaxSize s p timestamp c) p).noted timestamp)) :
    Kept handlers B ((switchBuffers (saved packetMaxSize s p timestamp c) p).noted timestamp) := by
  have position : Begun B (s.packet p) (s.ghost.bytes p) (rxPosition s timestamp) :=
    (h.begun p installed).at_position
  rw [last_iff packetMaxSize position] at last
  obtain ⟨announced, -⟩ := saved_announced packetMaxSize position
    (known (by simp [installed])) last.1
  have filled := saved_filled packetMaxSize c position
  rw [position.toNat_succ, last.2] at filled
  refine ⟨once, fun _ => rfl, fun q used => ?_, fun q installed' => ?_, fun q used => ?_, h.calls⟩
  · refine saved_offset packetMaxSize (h.offset q ?_)
    rcases used with rx | ready | app
    · cases rx
    · exact .inl (installed.trans ready)
    · exact .inr (.inr app)
  · cases installed'
  · by_cases same : q = p
    · subst same
      exact ⟨filled, announced⟩
    · have taken : s.app = .taken q := by
        rcases used with ready | taken
        · exact absurd (Option.some.inj ready).symm same
        · exact taken
      have whole := h.whole q (.inr taken)
      simpa [saved, switchBuffers, Serial.noted, same] using whole

theorem kept_call (taken : s.app = .taken p) (once : Once (receivedCall handlers s p)) :
    Kept handlers B (receivedCall handlers s p) := by
  have apart : s.rxPkt ≠ some p := fun installed => h.not_rx installed (.inr taken) rfl
  obtain ⟨filled, c, known, length⟩ := h.whole p (.inr taken)
  have offset := h.offset p (.inr (.inr (by rw [taken]; rfl)))
  refine ⟨once, h.index, fun q used => ?_, fun q installed => ?_, fun q used => ?_, ?_⟩
  · by_cases same : q = p
    · subst same
      simpa [receivedCall, Serial.set] using offset
    · have installed : s.rxPkt = some q := by
        rcases used with rx | ready | app
        · exact rx
        · cases ready
        · exact absurd (Option.some.inj app).symm same
      have offset := h.offset q (.inl installed)
      simpa [receivedCall, Serial.set, same] using offset
  · have begun := h.begun q installed
    have other : q ≠ p := by
      rintro rfl
      exact apart installed
    simpa [receivedCall, Serial.set, other] using begun
  · rcases used with ready | taken'
    · cases ready
    · cases taken'
  · intro call mem
    rcases mem_cons.mp mem with rfl | old
    · refine ⟨(s.packet p).rawData, c, known, ?_⟩
      rw [← length]
      exact ⟨filled, rfl, rfl, rfl, by simp [Packet.payload, offset]⟩
    · exact h.calls call old

theorem kept_result {cmdType : UInt8} {result} {rawData} {length}
    (handling : s.app = .handling p cmdType)
    (once : Once (receivedResult packetMaxSize s p cmdType result rawData length)) :
    Kept handlers B (receivedResult packetMaxSize s p cmdType result rawData length) := by
  obtain ⟨pkt, fifo, eq, -⟩ := receivedResult_eq packetMaxSize s p cmdType result rawData length
  have apart := h.once.handling_apart handling
  rw [eq] at once ⊢
  have other : ∀ q, s.rxPkt = some q ∨ s.readyPkt = some q → q ≠ p := by
    rintro q used rfl
    exact used.elim apart.1 apart.2
  have same : ∀ q, s.rxPkt = some q ∨ s.readyPkt = some q →
      (s.set p pkt).packet q = s.packet q := fun q used => update_of_ne (other q used) _ _
  refine ⟨once, h.index, fun q used => ?_, fun q installed => ?_, fun q used => ?_, h.calls⟩
  · have used' : s.rxPkt = some q ∨ s.readyPkt = some q :=
      used.imp_right fun used => used.resolve_right (by simp [App.packet])
    refine (congrArg Packet.offset (same q used')).trans (h.offset q ?_)
    exact used'.imp_right .inl
  · have begun := h.begun q installed
    rwa [← same q (.inl installed)] at begun
  · have ready : s.readyPkt = some q := used.resolve_right (by simp)
    have whole := h.whole q (.inl ready)
    rwa [← same q (.inr ready)] at whole

theorem kept_change (known : LengthBytes B s a) (c : Change packetMaxSize handlers s a u) :
    Kept handlers B u := by
  have once := once_change h.once c
  cases c with
  | ignored timestamp c free =>
    refine ⟨once, fun _ => rfl, h.offset, ?_, h.whole, h.calls⟩
    intro q installed
    rw [show s.rxPkt = some q from installed] at free
    cases free
  | skipped timestamp c p installed zero =>
    by_cases out : TimedOut s timestamp
    · rw [checkTimeout_of_timedOut out] at once ⊢
      exact ⟨once, fun _ => rfl, h.offset, fun q _ nonzero => absurd rfl nonzero, h.whole, h.calls⟩
    · rw [checkTimeout_of_not out] at once ⊢
      exact h.same once rfl rfl rfl rfl (fun _ _ => rfl) rfl rfl
  | byte timestamp c p installed sync last => exact kept_byte h known installed last once
  | frame timestamp c p installed sync last => exact kept_frame h known installed last once
  | install p rest irq isr free queue =>
    have free_ : p ∈ s.queue := by rw [queue]; exact mem_cons_self
    refine ⟨once, nofun, fun q used => ?_, fun q _ nonzero => ?_, fun q used => ?_, h.calls⟩
    · by_cases same : q = p
      · subst same
        simp [Serial.set, packetReset, iotlabSerialHeaderSize]
      · have offset := h.offset q
          (.inr (used.resolve_left fun rx => same (Option.some.inj rx).symm))
        simpa [Serial.set, same] using offset
    · exact absurd (h.index free) nonzero
    · have whole := h.whole q used
      have other : q ≠ p := h.once.away (.inl free_) (.inr (used.imp_right fun taken => by
        rw [show s.app = .taken q from taken]; rfl))
      simpa [Serial.set, other] using whole
  | noInstall irq isr none_ | post ok isr | give isr | takeNone idle events none_
  | sendFrame priority | done out sending =>
    exact h.same once rfl rfl rfl rfl (fun _ _ => rfl) rfl rfl
  | idleHook =>
    unfold idleHookUart at once ⊢
    split
    · exact h.same (by simpa [‹_›] using once) rfl rfl rfl rfl (fun _ _ => rfl) rfl rfl
    · exact h
  | take p idle events ready =>
    refine ⟨once, h.index, fun q used => ?_, h.begun, fun q used => ?_, h.calls⟩
    · refine h.offset q (used.imp_right fun used => used.elim .inl fun taken => .inl ?_)
      rw [ready, ← taken]
      rfl
    · refine h.whole q (used.elim .inl fun taken => .inl ?_)
      obtain rfl : p = q := App.taken.inj taken
      exact ready
  | call p taken => exact kept_call h taken once
  | result p cmdType result rawData length handling => exact kept_result h handling once
  | start out rest now idle fifo =>
    unfold txStart at once ⊢
    split at once
    case h_1 => exact h.same once rfl rfl rfl rfl (fun _ _ => rfl) rfl rfl
    case h_2 p packet =>
      refine h.same once rfl rfl rfl rfl (fun q used => update_of_ne ?_ _ _) rfl rfl
      exact fun same => h.once.start_apart fifo used (by rw [packet, same])
  | free out done sending ended =>
    unfold txFree at once ⊢
    split at once
    case h_1 => exact h.same once rfl rfl rfl rfl (fun _ _ => rfl) rfl rfl
    case h_2 p packet =>
      refine h.same once rfl rfl rfl rfl (fun q used => update_of_ne ?_ _ _) rfl rfl
      exact fun same => h.once.free_apart sending used (by rw [packet, same])

end

theorem kept_start (handlers : List Handler) (B : UInt8 → Prop) (memory : PktId → Packet) :
    Kept handlers B (iotlabSerialStart memory) where
  once := once_start memory
  index := nofun
  offset p used := by
    have installed : (1 : PktId) = p := by
      rcases used with rx | ready | app
      · exact Option.some.inj rx
      · cases ready
      · cases app
    subst installed
    rfl
  begun _ _ nonzero := absurd rfl nonzero
  whole _ used := used.elim nofun nofun
  calls := nofun

theorem kept_run {memory}
    (run : Run (step packetMaxSize handlers) (LengthBytes B) (iotlabSerialStart memory) s) :
    Kept handlers B s := by
  refine run.invariant (Kept handlers B) ?_ (kept_start handlers B memory)
  intro t a u h known hstep
  exact kept_change h known (step_change hstep).2

theorem overrun_change (h : Kept handlers B s) (two : 2 ≤ packetMaxSize)
    (bound : ∀ c, B c → c.toNat + 2 ≤ packetMaxSize) (safe : s.overrun = false)
    (c : Change packetMaxSize handlers s a u) : u.overrun = false := by
  have inside : ∀ p timestamp, s.rxPkt = some p →
      (s.overrun || decide (packetMaxSize ≤ (rxPosition s timestamp).toNat)) = false := by
    intro p timestamp installed
    have position : Begun B (s.packet p) (s.ghost.bytes p) (rxPosition s timestamp) :=
      (h.begun p installed).at_position
    rw [safe, Bool.false_or, decide_eq_false_iff_not]
    by_cases big : 2 ≤ (rxPosition s timestamp).toNat
    · have nonzero : rxPosition s timestamp ≠ 0 := by
        intro zero
        simp [zero] at big
      obtain ⟨⟨c, known, length⟩, lt⟩ := (position nonzero).2 big
      rw [length, announced_length] at lt
      have := bound c known
      omega
    · omega
  rcases quiet_or_byte s a with quiet | ⟨timestamp, c', rfl⟩
  · exact (aside_change quiet c).overrun.trans safe
  · cases c with
    | ignored => exact safe
    | skipped =>
      unfold checkTimeout
      split <;> exact safe
    | byte _ _ p installed | frame _ _ p installed => exact inside p timestamp installed

/-- The length byte announces at least the type byte, and no more than the packet holds. -/
def Fits (packetMaxSize : Nat) (c : UInt8) : Prop := 1 ≤ c.toNat ∧ c.toNat + 2 ≤ packetMaxSize

theorem Call.Of.from_frame {call : Call} {rawData : Nat → UInt8}
    (h : call.Of handlers rawData (2 + c.toUInt16)) (one : 1 ≤ c.toNat) :
    call.length.toNat + 3 = call.frame.length ∧
      (call.frame.map Prod.snd)[2]? = some call.cmdType ∧
      call.payload = (call.frame.map Prod.snd).drop 3 := by
  have size : call.frame.length = 2 + c.toNat := by
    have := congrArg List.length h.frame
    rwa [length_map, length_map, length_range, announced_length] at this
  have rest : (2 + c.toUInt16 - 3).toNat + 3 = 2 + c.toNat := by
    have le : (3 : UInt16) ≤ 2 + c.toUInt16 := by
      rw [UInt16.le_iff_toNat_le, announced_length]
      change 3 ≤ 2 + c.toNat
      omega
    rw [UInt16.toNat_sub_of_le _ _ le, announced_length]
    change 2 + c.toNat - 3 + 3 = _
    omega
  refine ⟨by rw [h.length, rest, size], ?_, ?_⟩
  · rw [h.frame, announced_length, h.cmdType, getElem?_map, getElem?_range (by omega)]
    rfl
  · rw [h.payload, h.frame, announced_length, ← rest, Nat.add_comm _ 3, range_add,
      map_append, drop_left' (by simp), map_map]
    rfl

/-- In every run in which the length bytes fit, whatever the other bytes, their times and
the interleaving: `char_rx` stays inside of `raw_data`, and a handler gets exactly the
payload of the frame that its type byte belongs to. -/
theorem receiver_safe (memory : PktId → Packet) (size : iotlabSerialHeaderSize ≤ packetMaxSize)
    (run : Run (step packetMaxSize handlers) (LengthBytes (Fits packetMaxSize))
      (iotlabSerialStart memory) s) :
    s.overrun = false ∧ ∀ call ∈ s.ghost.calls,
      call.length.toNat + iotlabSerialHeaderSize = call.frame.length ∧
      (call.frame.map Prod.snd)[2]? = some call.cmdType ∧
      call.payload = (call.frame.map Prod.snd).drop iotlabSerialHeaderSize := by
  unfold iotlabSerialHeaderSize at size ⊢
  constructor
  · refine run.invariant_of (Kept handlers (Fits packetMaxSize)) (fun s => s.overrun = false)
      (fun t run => kept_run run) ?_ rfl
    intro t a u kept safe _ hstep
    exact overrun_change kept (by omega) (fun c fits => fits.2) safe (step_change hstep).2
  · intro call mem
    obtain ⟨rawData, c, fits, of⟩ := (kept_run run).calls call mem
    exact of.from_frame fits.1

instance (packetMaxSize : Nat) : DecidablePred (Fits packetMaxSize) := fun _ => by
  unfold Fits
  infer_instance

instance [DecidablePred B] (s : Serial) (a : Action) : Decidable (LengthBytes B s a) := by
  unfold LengthBytes
  split <;> infer_instance

def blank : PktId → Packet := fun _ => ⟨fun _ => 0, 0, 0, 0, 0⟩

theorem receiver_safe_command : ∃ s,
    Run (step 128 []) (LengthBytes (Fits 128)) (iotlabSerialStart blank) s ∧
      s.ghost.calls.map (·.cmdType) = [0x42] ∧ s.ghost.calls.map (·.payload) = [[7, 9]] ∧
      s.overrun = false := by
  obtain ⟨s, run, h⟩ : ∃ s, Run (step 128 []) (LengthBytes (Fits 128)) (iotlabSerialStart blank) s ∧
      (s.ghost.calls.map (·.cmdType), s.ghost.calls.map (·.payload)) = ([0x42], [[7, 9]]) := by
    refine execIf_observe [.charRx 50 0x80, .charRx 51 3, .charRx 52 0x42,
      .charRx 53 7, .charRx 54 9,
      .checkAllocate, .checkPost true, .checkGive, .receivedTake, .receivedCall] _ _ ?_
    decide +kernel
  obtain ⟨types, payloads⟩ := Prod.mk.inj h
  exact ⟨s, run, types, payloads, (receiver_safe blank (by decide) run).1⟩

/-- The length byte 255 makes `char_rx` write behind `raw_data`, for both sizes. -/
theorem overlong_frame_overruns :
    (∃ s, Reach (step 128 []) (iotlabSerialStart blank) s ∧ s.overrun = true) ∧
      (∃ s, Reach (step 256 []) (iotlabSerialStart blank) s ∧ s.overrun = true) ∧
      ∃ s, Reach (step 128 []) (iotlabSerialStart blank) s ∧
        s.ghost.calls.map (·.length) = [0xFFFF] := by
  refine ⟨?_, ?_, ?_⟩
  · refine exec_observe (.charRx 1 0x80 :: .charRx 1 0xFF :: replicate 127 (.charRx 1 0)) _ _ ?_
    decide +kernel
  · refine exec_observe (.charRx 1 0x80 :: .charRx 1 0xFF :: replicate 255 (.charRx 1 0)) _ _ ?_
    decide +kernel
  · refine exec_observe [.charRx 1 0x80, .charRx 1 0, .checkAllocate, .checkPost true, .checkGive,
      .receivedTake, .receivedCall] _ _ ?_
    decide +kernel

end IotlabSerial
