import OpenLab.CnConsumption

/-!
# The acks of consumption commands

One static configuration serves every posted event, so an ack packet is safe as long as no command
reaches the configuration while an event is pending.
-/

namespace CnConsumption

open IotlabSerial PacketQueue Schedules List
open Function (update update_of_ne update_self)

inductive Place
  | free | taken | linked
  deriving DecidableEq

/-- A packet is taken, appended once and returned, over and over; `none` after anything
else. -/
def follow : List Mark → Option Place
  | [] => some .free
  | mark :: rest =>
    match mark, follow rest with
    | .taken, some .free => some .taken
    | .appended, some .taken => some .linked
    | .returned, some .linked => some .free
    | _, _ => none

def ackBytes (pwConf : UInt8) : List UInt8 := [syncByte, 3, ackFrame, configConsumption, pwConf]

structure Good (s : Node) : Prop where
  /-- Between two takings every packet is appended once, and then returned. -/
  once : ∀ p, (follow (s.history p)).isSome
  /-- A packet that has not been appended is the one a posted event is going to send. -/
  kept : ∀ p, follow (s.history p) = some .taken → 0 < s.events ∧ s.conf.pkt = some p
  ordered : s.frames.reverse <+: (s.accepted.map fun command => ackBytes command.pwConf).reverse
  /-- The pending configuration is the one that was accepted last. -/
  unchanged : 0 < s.events → s.accepted.head?.map Accepted.conf = some s.conf

/-- A command of the right length arrives when no event is pending and does not take a
packet it cannot post; an inconsistent one may also come when it changes nothing. -/
def SafeCommand (s : Node) (status pwConf pwMeasRate : UInt8) (posted : Bool) : Prop :=
  if Inconsistent status pwConf then
    s.events = 0 ∨ settings s.conf status pwConf pwMeasRate = s.conf
  else s.events = 0 ∧ (s.acksQueue = [] ∨ posted = true)

instance (s : Node) (status pwConf pwMeasRate : UInt8) (posted : Bool) :
    Decidable (SafeCommand s status pwConf pwMeasRate posted) := by
  unfold SafeCommand
  infer_instance

def Safe (s : Node) : Action → Prop
  | .command data posted =>
    data.length = 3 → SafeCommand s (data.getD 0 0) (data.getD 1 0) (data.getD 2 0) posted
  | _ => True

instance (s : Node) (a : Action) : Decidable (Safe s a) := by
  cases a <;> unfold Safe <;> infer_instance

variable {pwConf : UInt8}

theorem safe_command {s} {status pwMeasRate} {posted} :
    Safe s (.command [status, pwConf, pwMeasRate] posted) ↔
      SafeCommand s status pwConf pwMeasRate posted := by
  simp [Safe]

structure Holds (pkt : Packet) (pwConf : UInt8) : Prop where
  offset : pkt.offset = 3
  length : pkt.length = 2
  type : pkt.rawData 3 = configConsumption
  byte : pkt.rawData 4 = pwConf

theorem pwAckFrame_holds (pkt : Packet) (pwConf : UInt8) :
    Holds (pwAckFrame pkt pwConf) pwConf where
  offset := rfl
  length := rfl
  type := rfl
  byte := rfl

theorem Holds.init {pkt} (h : Holds pkt pwConf) :
    iotlabSerialInitTxPacket packetMaxSize ackFrame pkt = (0, setHeader ackFrame pkt) := by
  have short : ¬pkt.length.toNat > payloadMax packetMaxSize := by
    rw [h.length]
    decide
  have header : ¬pkt.offset < iotlabSerialHeaderSize := by
    rw [h.offset]
    decide
  rw [iotlabSerialInitTxPacket, if_neg short, if_neg header]

theorem Holds.wire {pkt} (h : Holds pkt pwConf) :
    (setHeader ackFrame pkt).wire = ackBytes pwConf := by
  have length : (setHeader ackFrame pkt).length.toNat = 5 := by
    rw [setHeader, h.length]
    rfl
  have range : range 5 = [0, 1, 2, 3, 4] := rfl
  rw [Packet.wire, length, range]
  simp [setHeader, h.type, h.byte, h.length, ackBytes]

def acks (fifo : List Outgoing) : List AckId := fifo.filterMap Outgoing.packet

theorem acks_prioInsert_other {priority} {fifo} :
    acks (prioInsert Outgoing.priority ⟨none, priority⟩ fifo) = acks fifo := by
  induction fifo with
  | nil => rfl
  | cons out rest ih =>
    rw [prioInsert]
    split
    · rfl
    · cases packet : out.packet with
      | none => simpa [acks, packet] using ih
      | some p => simpa [acks, packet] using ih

theorem prioInsert_lowest {out} {fifo} (lowest : out.priority = 0) :
    prioInsert Outgoing.priority out fifo = fifo ++ [out] := by
  induction fifo with
  | nil => rfl
  | cons first rest ih =>
    rw [prioInsert, if_neg (by omega), ih, cons_append]

def waiting (s : Node) : List AckId := if s.events = 0 then [] else s.conf.pkt.toList

def sending (s : Node) : List AckId := (s.tx.bind Outgoing.packet).toList

def queued (s : Node) : List (List UInt8) := (acks s.fifo).map fun p => (s.packet p).wire

structure Sound (s : Node) : Prop where
  running : s.faulted = false
  /-- Every packet is in one place. -/
  spread : (s.acksQueue ++ (waiting s ++ (acks s.fifo ++ sending s))).Perm
    (List.finRange cnConsoNumAcks)
  free : ∀ p ∈ s.acksQueue, follow (s.history p) = some .free
  taken : ∀ p ∈ waiting s, follow (s.history p) = some .taken
  linked : ∀ p ∈ acks s.fifo ++ sending s, follow (s.history p) = some .linked
  priority : ∀ p, (s.packet p).priority = 0
  single : s.events ≤ 1
  pending : 0 < s.events → ∃ p pwConf before, s.conf.pkt = some p ∧ Holds (s.packet p) pwConf ∧
    s.accepted = ⟨pwConf, s.conf⟩ :: before
  sent : (queued s).reverse ++ s.frames =
    (s.accepted.drop s.events).map fun command => ackBytes command.pwConf

section Places

variable {s : Node} {p : AckId}

theorem Sound.nodup (h : Sound s) :
    (s.acksQueue ++ (waiting s ++ (acks s.fifo ++ sending s))).Nodup :=
  h.spread.nodup_iff.mpr (nodup_finRange _)

theorem Sound.mem (h : Sound s) (p : AckId) :
    p ∈ s.acksQueue ∨ p ∈ waiting s ∨ p ∈ acks s.fifo ++ sending s := by
  have all : p ∈ s.acksQueue ++ (waiting s ++ (acks s.fifo ++ sending s)) :=
    h.spread.mem_iff.mpr (mem_finRange p)
  simpa using all

theorem waiting_of_idle (idle : s.events = 0) : waiting s = [] := if_pos idle

theorem waiting_of_event (event : 0 < s.events) (pkt : s.conf.pkt = some p) : waiting s = [p] := by
  rw [waiting, if_neg (by omega), pkt]
  rfl

end Places

theorem Sound.good {s} (h : Sound s) : Good s where
  once p := by
    obtain free | taken | linked := h.mem p
    · rw [h.free p free]
      rfl
    · rw [h.taken p taken]
      rfl
    · rw [h.linked p linked]
      rfl
  kept p place := by
    obtain free | taken | linked := h.mem p
    · rw [h.free p free] at place
      cases place
    · -- A waiting packet is the one of the pending event.
      by_cases idle : s.events = 0
      · rw [waiting_of_idle idle] at taken
        cases taken
      · rw [waiting, if_neg idle, Option.mem_toList] at taken
        exact ⟨by omega, taken⟩
    · rw [h.linked p linked] at place
      cases place
  ordered := by
    have all : s.accepted.drop s.events <:+ s.accepted := drop_suffix _ _
    have newest : s.frames <:+ s.accepted.map fun command => ackBytes command.pwConf :=
      calc s.frames <:+ (queued s).reverse ++ s.frames := suffix_append _ _
        _ = _ := h.sent
        _ <:+ _ := all.map _
    exact reverse_prefix.mpr newest
  unchanged event := by
    obtain ⟨p, pwConf, before, -, -, accepted⟩ := h.pending event
    rw [accepted]
    rfl

section Steps

variable {s u : Node} {a : Action} {p : AckId} {status pwConf pwMeasRate : UInt8}

theorem wires_update {packet : AckId → Packet} {pkt : Packet} {l : List AckId} (other : p ∉ l) :
    l.map (fun q => (update packet p pkt q).wire) = l.map fun q => (packet q).wire := by
  refine map_congr_left fun q hq => ?_
  rw [update_of_ne (ne_of_mem_of_not_mem hq other)]

theorem follow_update {history : AckId → List Mark} {marks : List Mark} {l : List AckId}
    {place : Place} (before : ∀ q ∈ l, follow (history q) = some place) (other : p ∉ l) :
    ∀ q ∈ l, follow (update history p marks q) = some place := by
  intro q hq
  rw [update_of_ne (ne_of_mem_of_not_mem hq other)]
  exact before q hq

theorem priority_update {packet : AckId → Packet} {pkt : Packet}
    (before : ∀ q, (packet q).priority = 0) (now : pkt.priority = 0) (q : AckId) :
    (update packet p pkt q).priority = 0 := by
  by_cases same : q = p
  · subst same
    rwa [update_self]
  · rw [update_of_ne same]
    exact before q

section

variable (h : Sound s)

include h

theorem Sound.reconfigured (idle : s.events = 0) (conf : Config) :
    Sound { s with conf := conf } where
  running := h.running
  spread := by
    have same : waiting { s with conf := conf } = waiting s := by
      rw [waiting_of_idle idle]
      exact waiting_of_idle idle
    rw [same]
    exact h.spread
  free := h.free
  taken q hq := by
    rw [waiting_of_idle (s := { s with conf := conf }) idle] at hq
    cases hq
  linked := h.linked
  priority := h.priority
  single := h.single
  pending event := absurd idle (by simpa using event.ne')
  sent := h.sent

theorem Sound.accepted {rest : List AckId} (idle : s.events = 0) (queue : s.acksQueue = p :: rest) :
    Sound { taking s status pwConf pwMeasRate p rest with
      events := s.events + 1
      accepted := ⟨pwConf, asked s status pwConf pwMeasRate (some p)⟩ :: s.accepted } := by
  have spread := h.spread
  have nodup := h.nodup
  rw [queue, waiting_of_idle idle, nil_append] at spread nodup
  have fresh : p ∉ rest ∧ p ∉ acks s.fifo ++ sending s := by
    simpa [not_or] using (nodup_cons.mp nodup).1
  have notQueued : p ∉ acks s.fifo := fun mem => fresh.2 (mem_append_left _ mem)
  constructor
  case running => exact h.running
  case spread => exact perm_middle.trans spread
  case free =>
    refine follow_update (fun q hq => h.free q ?_) fresh.1
    rw [queue]
    exact mem_cons_of_mem _ hq
  case taken =>
    intro q hq
    obtain rfl : q = p := mem_singleton.mp hq
    have free : follow (s.history q) = some .free := h.free q (by simp [queue])
    simp [taking, Node.set, follow, free]
  case linked => exact follow_update h.linked fresh.2
  case priority => exact priority_update h.priority (h.priority p)
  case single => simp [idle]
  case pending =>
    refine fun _ => ⟨p, pwConf, s.accepted, rfl, ?_, rfl⟩
    simpa [taking, Node.set] using pwAckFrame_holds (s.packet p) pwConf
  case sent =>
    have sent := h.sent
    simpa [queued, taking, Node.set, wires_update notQueued, idle] using sent

theorem Sound.doConfig (event : 0 < s.events) : Sound (doConfigConsumptionMeasures s) := by
  obtain ⟨p, pwConf, before, pkt, holds, accepted⟩ := h.pending event
  have one : s.events = 1 := by
    have := h.single
    omega
  have spread := h.spread
  have nodup := h.nodup
  rw [waiting_of_event event pkt] at spread nodup
  have once : p ∉ s.acksQueue ∧ p ∉ acks s.fifo ∧ p ∉ sending s := by
    have moved := (perm_middle.nodup_iff).mp nodup
    simpa [not_or] using (nodup_cons.mp moved).1
  have lowest : (setHeader ackFrame (s.packet p)).priority = 0 := h.priority p
  have done : doConfigConsumptionMeasures s =
      { s.set p (setHeader ackFrame (s.packet p)) .appended with
        events := 0
        fifo := s.fifo ++ [⟨some p, 0⟩]
        curConfig := { s.conf with pkt := none } } := by
    simp only [doConfigConsumptionMeasures, pkt, holds.init, one]
    rw [lowest, prioInsert_lowest rfl]
    rfl
  have fifo : acks (s.fifo ++ [⟨some p, 0⟩]) = acks s.fifo ++ [p] := by simp [acks]
  rw [done]
  constructor
  case running => exact h.running
  case spread =>
    change (s.acksQueue ++
      ([] ++ (acks (s.fifo ++ [(⟨some p, 0⟩ : Outgoing)]) ++ sending s))).Perm _
    rw [fifo]
    refine List.Perm.trans (List.Perm.append_left _ ?_) spread
    simp
  case free => exact follow_update h.free once.1
  case taken =>
    intro q hq
    cases hq
  case linked =>
    intro q hq
    change q ∈ acks (s.fifo ++ [⟨some p, 0⟩]) ++ sending s at hq
    rw [fifo] at hq
    by_cases same : q = p
    · subst same
      have taken : follow (s.history q) = some .taken :=
        h.taken q (by simp [waiting_of_event event pkt])
      simp [Node.set, follow, taken]
    · have old : q ∈ acks s.fifo ++ sending s := by simpa [same] using hq
      simpa [Node.set, update_of_ne same] using h.linked q old
  case priority => exact priority_update h.priority lowest
  case single => exact Nat.zero_le 1
  case pending => exact fun event => absurd event (lt_irrefl 0)
  case sent =>
    have sent := h.sent
    rw [one, accepted] at sent
    rw [queued, fifo]
    simpa [Node.set, wires_update once.2.1, holds.wire, accepted, queued] using sent

theorem Sound.relinked {fifo} {tx} {frames}
    (moved : (acks fifo ++ (tx.bind Outgoing.packet).toList).Perm (acks s.fifo ++ sending s))
    (sent : ((acks fifo).map fun p => (s.packet p).wire).reverse ++ frames =
      (queued s).reverse ++ s.frames) :
    Sound { s with fifo := fifo, tx := tx, frames := frames } where
  running := h.running
  spread := ((moved.append_left _).append_left _).trans h.spread
  free := h.free
  taken := h.taken
  linked q hq := h.linked q (moved.mem_iff.mp hq)
  priority := h.priority
  single := h.single
  pending := h.pending
  sent := sent.trans h.sent

theorem Sound.sendFrame (priority : Nat) :
    Sound { s with fifo := prioInsert Outgoing.priority ⟨none, priority⟩ s.fifo } := by
  have same : acks (prioInsert Outgoing.priority ⟨none, priority⟩ s.fifo) = acks s.fifo :=
    acks_prioInsert_other
  refine h.relinked ?_ ?_
  · rw [same]
    rfl
  · rw [same]
    rfl

theorem Sound.txStart {out} {rest} (idle : s.tx = none) (first : s.fifo = out :: rest) :
    Sound (CnConsumption.txStart s out rest) := by
  have nothing : sending s = [] := by simp [sending, idle]
  refine h.relinked ?_ ?_
  · rw [nothing, append_nil, first]
    cases packet : out.packet with
    | none | some p => simp [acks, packet]
  · cases packet : out.packet with
    | none | some p => simp [queued, acks, first, packet]

theorem Sound.txFree {out : Outgoing} (tx : s.tx = some out) :
    Sound (CnConsumption.txFree s out) := by
  cases packet : out.packet with
  | none =>
    have nothing : sending s = [] := by simp [sending, tx, packet]
    rw [CnConsumption.txFree, packet]
    refine h.relinked ?_ rfl
    rw [nothing]
    rfl
  | some p =>
    have last : sending s = [p] := by simp [sending, tx, packet]
    have spread := h.spread
    have nodup := h.nodup
    rw [last] at spread nodup
    have comm : (s.acksQueue ++ (waiting s ++ (acks s.fifo ++ [p]))).Perm
        (p :: (s.acksQueue ++ (waiting s ++ acks s.fifo))) := by
      have rotated : (s.acksQueue ++ (waiting s ++ acks s.fifo) ++ [p]).Perm
        ([p] ++ (s.acksQueue ++ (waiting s ++ acks s.fifo))) := perm_append_comm
      simpa using rotated
    have once : p ∉ s.acksQueue ∧ p ∉ waiting s ∧ p ∉ acks s.fifo := by
      simpa [not_or] using (nodup_cons.mp (comm.nodup_iff.mp nodup)).1
    rw [CnConsumption.txFree, packet]
    constructor
    case running => exact h.running
    case spread =>
      refine List.Perm.trans ?_ (comm.symm.trans spread)
      change (p :: s.acksQueue ++ (waiting s ++ (acks s.fifo ++ []))).Perm _
      rw [append_nil]
      rfl
    case free =>
      intro q hq
      by_cases same : q = p
      · subst same
        have linked : follow (s.history q) = some .linked := h.linked q (by simp [last])
        simp [callFree, Node.set, follow, linked]
      · have old : q ∈ s.acksQueue := by simpa [callFree, same] using hq
        simpa [callFree, Node.set, update_of_ne same] using h.free q old
    case taken => exact follow_update h.taken once.2.1
    case linked =>
      change ∀ q ∈ acks s.fifo ++ [], _
      rw [append_nil]
      exact follow_update (fun q hq => h.linked q (mem_append_left _ hq)) once.2.2
    case priority => exact priority_update h.priority (h.priority p)
    case single => exact h.single
    case pending =>
      intro (event : 0 < s.events)
      obtain ⟨q, pwConf, before, pkt, holds, accepted⟩ := h.pending event
      have other : q ≠ p := by
        rintro rfl
        exact once.2.1 (by simp [waiting_of_event event pkt])
      refine ⟨q, pwConf, before, pkt, ?_, accepted⟩
      simpa [callFree, Node.set, update_of_ne other] using holds
    case sent =>
      have sent := h.sent
      simpa [callFree, Node.set, queued, wires_update once.2.2] using sent

theorem Sound.change (safe : Safe s a) (c : Change s a u) : Sound u := by
  cases c with
  | wrongLength => exact h
  | inconsistent bad =>
    rw [safe_command, SafeCommand, if_pos bad] at safe
    obtain idle | same := safe
    · exact h.reconfigured idle _
    · rw [same]
      exact h
  | noPacket good =>
    rw [safe_command, SafeCommand, if_neg good] at safe
    exact h.reconfigured safe.1 _
  | notPosted good queue =>
    rw [safe_command, SafeCommand, if_neg good, queue] at safe
    simp at safe
  | accepted good queue =>
    rw [safe_command, SafeCommand, if_neg good] at safe
    exact h.accepted safe.1 queue
  | doConfig event => exact h.doConfig event
  | sendFrame => exact h.sendFrame _
  | txStart idle first => exact h.txStart idle first
  | txFree tx => exact h.txFree tx

end

end Steps

section Breaks

variable {s u : Node} {a : Action}

theorem Sound.lost (h : Sound s) (event : 0 < s.events) {q} (pkt : s.conf.pkt = some q)
    (history : u.history q = s.history q) (other : u.conf.pkt ≠ some q) : ¬Good u := by
  intro good
  have taken : follow (u.history q) = some .taken := by
    rw [history]
    exact h.taken q (by simp [waiting_of_event event pkt])
  exact other (good.kept q taken).2

theorem Sound.head_ne {p q} {rest} (h : Sound s) (event : 0 < s.events)
    (pkt : s.conf.pkt = some q) (queue : s.acksQueue = p :: rest) : p ≠ q := by
  rintro rfl
  have free := h.free p (by simp [queue])
  rw [h.taken p (by simp [waiting_of_event event pkt])] at free
  cases free

theorem Sound.unsafe_breaks (h : Sound s) (broken : ¬Safe s a) (c : Change s a u) : ¬Good u := by
  cases c with
  | wrongLength length => exact absurd (fun same => absurd same length) broken
  | inconsistent bad =>
    rw [safe_command, SafeCommand, if_pos bad, not_or] at broken
    intro good
    have event : 0 < s.events := Nat.pos_of_ne_zero broken.1
    obtain ⟨p, pwConf, before, -, -, accepted⟩ := h.pending event
    have same := good.unchanged event
    simp only [accepted, head?_cons, Option.map_some, Option.some.injEq] at same
    exact broken.2 same.symm
  | noPacket good =>
    rw [safe_command, SafeCommand, if_neg good] at broken
    have event : 0 < s.events := by
      by_contra none
      exact broken ⟨by omega, .inl ‹_›⟩
    obtain ⟨q, _, _, pkt, -, -⟩ := h.pending event
    exact h.lost event pkt rfl (by simp [asked])
  | notPosted good queue =>
    by_cases idle : s.events = 0
    · -- The packet that was taken is nobody's.
      intro fine
      rename_i p rest
      have free : follow (s.history p) = some .free := h.free p (by simp [queue])
      have taken := fine.kept p (by simp [taking, Node.set, follow, free])
      exact absurd taken.1 (by simp [taking, Node.set, idle])
    · have event : 0 < s.events := Nat.pos_of_ne_zero idle
      obtain ⟨q, _, _, pkt, -, -⟩ := h.pending event
      have other := h.head_ne event pkt queue
      exact h.lost event pkt (update_of_ne other.symm _ _) (by simpa [taking, asked] using other)
  | accepted good queue =>
    rw [safe_command, SafeCommand, if_neg good] at broken
    have event : 0 < s.events := by
      by_contra none
      exact broken ⟨by omega, .inr rfl⟩
    obtain ⟨q, _, _, pkt, -, -⟩ := h.pending event
    have other := h.head_ne event pkt queue
    exact h.lost event pkt (update_of_ne other.symm _ _) (by simpa [taking, asked] using other)
  | doConfig | sendFrame | txStart | txFree => exact absurd trivial broken

end Breaks

theorem sound_start : Sound cnConsumptionStart where
  running := rfl
  spread := by
    have queue : cnConsumptionStart.acksQueue ++ [] = (finRange cnConsoNumAcks).reverse :=
      append_nil _
    exact queue ▸ reverse_perm _
  free _ _ := rfl
  taken := by simp [waiting, cnConsumptionStart]
  linked := by simp [acks, sending, cnConsumptionStart]
  priority _ := rfl
  single := Nat.zero_le 1
  pending event := absurd event (lt_irrefl 0)
  sent := rfl

theorem sound_run {s} (run : Run step Safe cnConsumptionStart s) : Sound s :=
  run.invariant Sound (fun _ _ _ h safe hstep => h.change safe (step_change hstep).2) sound_start

/-- While every command arrives safely, each ack packet is appended once for each time it
is taken, the frames are those of the accepted commands in order, and the pending
configuration is the accepted one. The first action that is not safe ends this. -/
theorem acks_sent_once {s : Node} (run : Run step Safe cnConsumptionStart s) :
    Good s ∧ ∀ a u, step s a = some u → (Good u ↔ Safe s a) := by
  have sound := sound_run run
  refine ⟨sound.good, fun a u hstep => ⟨fun good => ?_, fun safe => ?_⟩⟩
  · by_contra broken
    exact sound.unsafe_breaks broken (step_change hstep).2 good
  · exact (sound.change safe (step_change hstep).2).good

theorem acks_sent_once_two : ∃ s, Run step Safe cnConsumptionStart s ∧
    (Good s ∧ ∀ a u, step s a = some u → (Good u ↔ Safe s a)) ∧
    s.frames = [ackBytes 0x21, ackBytes 0x17] ∧ s.acksQueue = [0, 1] := by
  obtain ⟨s, run, seen⟩ : ∃ s, Run step Safe cnConsumptionStart s ∧
      (s.frames, s.acksQueue) = ([ackBytes 0x21, ackBytes 0x17], [0, 1]) :=
    execIf_observe [.command [1, 0x17, 0] true, .sendFrame 0x80, .doConfig, .txStart, .txFree,
      .txStart, .command [1, 0, 0] true, .command [1, 0x21, 0] true, .txFree, .doConfig,
      .txStart, .txFree] _ _ (by decide +kernel)
  obtain ⟨frames, queue⟩ := Prod.mk.inj seen
  exact ⟨s, run, acks_sent_once run, frames, queue⟩

/-- Two commands before the first event: the packet of the first one is never appended and
named by nothing, the other one is appended twice, and the first frame carries the byte
of the second command. A rejected command then changes the configuration of an accepted
one. -/
theorem acks_lost_and_doubled :
    (∃ s, Reach step cnConsumptionStart s ∧ s.accepted.map Accepted.pwConf = [0x21, 0x17] ∧
      s.history 1 = [.taken] ∧ s.events = 0 ∧ s.conf.pkt = some 0 ∧
      s.history 0 = [.appended, .appended, .taken] ∧ s.frames = [ackBytes 0x21]) ∧
    ∃ s, Reach step cnConsumptionStart s ∧ s.events = 1 ∧
      s.accepted.map (fun command => command.conf.period) = [3] ∧ s.conf.period = 5 := by
  constructor
  · obtain ⟨s, run, seen⟩ : ∃ s, Reach step cnConsumptionStart s ∧
        decide (s.accepted.map Accepted.pwConf = [0x21, 0x17] ∧ s.history 1 = [.taken] ∧
          s.events = 0 ∧ s.conf.pkt = some 0 ∧ s.history 0 = [.appended, .appended, .taken] ∧
          s.frames = [ackBytes 0x21]) = true :=
      exec_observe [.command [1, 0x17, 0] true, .command [1, 0x21, 0] true, .doConfig, .txStart,
        .doConfig] _ _ (by decide +kernel)
    exact ⟨s, run, of_decide_eq_true seen⟩
  · obtain ⟨s, run, seen⟩ : ∃ s, Reach step cnConsumptionStart s ∧
        (s.events, s.accepted.map (fun command => command.conf.period), s.conf.period) =
          (1, [3], 5) :=
      exec_observe [.command [1, 0x17, 3] true, .command [1, 0x10, 5] true] _ _ (by decide +kernel)
    simp only [Prod.mk.injEq] at seen
    exact ⟨s, run, seen⟩

end CnConsumption
