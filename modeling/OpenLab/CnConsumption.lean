import OpenLab.IotlabSerial

/-!
# Consumption commands

`cn_consumption.c`: a CONFIG_CONSUMPTION command is parsed into one static `conf`, takes a packet
for its ack frame and posts `do_config_consumption_measures`. Commands and events run in one task,
the serial tx task between them. Measures are other frames in the serial fifo.
-/

namespace CnConsumption

open Function IotlabSerial PacketQueue Schedules Option

def configConsumption : UInt8 := 0xCC
def ackFrame : UInt8 := 0xFA

def start : UInt8 := 1

def measurePower : UInt8 := 1
def measureVoltage : UInt8 := 2
def measureCurrent : UInt8 := 4
def pwSrc33V : UInt8 := 0x10
def pwSrc5V : UInt8 := 0x20
def pwSrcBatt : UInt8 := 0x40
def pwSrcMask : UInt8 := 0x70
def periodMask : UInt8 := 0x7
def averageMask : UInt8 := 0x70

def packetMaxSize : Nat := 256

abbrev cnConsoNumAcks : Nat := 2

abbrev AckId := Fin cnConsoNumAcks

inductive PowerSource
  | off | open3V | open5V | battery
  deriving DecidableEq

/-- `struct consumption_config`; nothing writes its `pw_conf_byte`. -/
structure Config where
  enable : Bool := false
  p : Bool := false
  v : Bool := false
  c : Bool := false
  measureSize : Nat := 0
  powerSource : PowerSource := .off
  period : UInt8 := 0
  average : UInt8 := 0
  pkt : Option AckId := none
  deriving DecidableEq

def powerSource (pwConf : UInt8) : Option PowerSource :=
  if pwConf &&& pwSrcMask = pwSrc33V then some .open3V
  else if pwConf &&& pwSrcMask = pwSrc5V then some .open5V
  else if pwConf &&& pwSrcMask = pwSrcBatt then some .battery
  else none

def measures (pwConf bit : UInt8) : Bool := pwConf &&& bit ≠ 0

def measureSize (p v c : Bool) : Nat := 4 + 4 * (p.toNat + v.toNat + c.toNat)

/-- What `parse_consumption_config` writes before it can return. -/
def settings (conf : Config) (status pwConf pwMeasRate : UInt8) : Config :=
  let p := measures pwConf measurePower
  let v := measures pwConf measureVoltage
  let c := measures pwConf measureCurrent
  { conf with
    enable := status = start
    powerSource := (powerSource pwConf).getD conf.powerSource
    p, v, c
    measureSize := measureSize p v c
    period := pwMeasRate &&& periodMask
    average := (pwMeasRate &&& averageMask) >>> 4 }

def Inconsistent (status pwConf : UInt8) : Prop :=
  status = start ∧ (powerSource pwConf = none ∨
    ¬(measures pwConf measurePower ∨ measures pwConf measureVoltage ∨
      measures pwConf measureCurrent))

instance (status pwConf : UInt8) : Decidable (Inconsistent status pwConf) := by
  unfold Inconsistent
  infer_instance

/-- A frame in the serial fifo: an ack, or a packet of another queue. -/
structure Outgoing where
  packet : Option AckId
  priority : Nat
  deriving DecidableEq

inductive Mark
  | taken | appended | returned
  deriving DecidableEq

structure Accepted where
  pwConf : UInt8
  conf : Config
  deriving DecidableEq

structure Node where
  packet : AckId → Packet
  acksQueue : List AckId
  /-- The static variable of `config_consumption_measures`. -/
  conf : Config := {}
  curConfig : Config := {}
  /-- Posted `do_config_consumption_measures`; all of them have the argument `&conf`. -/
  events : Nat := 0
  fifo : List Outgoing := []
  /-- The frame the tx task is sending. -/
  tx : Option Outgoing := none
  /-- NULL has been sent. -/
  faulted : Bool := false
  /-- The history of each packet, the accepted commands with their configuration and the
  bytes of the ack frames on the line; the last one is first. -/
  history : AckId → List Mark := fun _ => []
  accepted : List Accepted := []
  frames : List (List UInt8) := []

def Node.set (s : Node) (p : AckId) (pkt : Packet) (mark : Mark) : Node :=
  { s with
    packet := update s.packet p pkt
    history := update s.history p (mark :: s.history p) }

/-- `cn_consumption_start`: the packets are in static memory. -/
def cnConsumptionStart : Node where
  packet _ := ⟨fun _ => 0, 0, 0, 0, 0⟩
  acksQueue := (List.finRange cnConsoNumAcks).reverse

def pwAckFrame (pkt : Packet) (pwConfig : UInt8) : Packet :=
  let pkt := packetReset pkt iotlabSerialHeaderSize
  { pkt with
    rawData := update (update pkt.rawData pkt.offset configConsumption)
      (pkt.offset + 1) pwConfig
    length := 2 }

def allocPwAckFrame (s : Node) (pwConfig : UInt8) : Option AckId × Node :=
  match s.acksQueue with
  | [] => (none, s)
  | p :: rest =>
    (some p, { s.set p (pwAckFrame (s.packet p) pwConfig) .taken with acksQueue := rest })

def parseConsumptionConfig (s : Node) (status pwConf pwMeasRate : UInt8) : Nat × Node :=
  let s := { s with conf := settings s.conf status pwConf pwMeasRate }
  if Inconsistent status pwConf then (1, s)
  else
    match allocPwAckFrame s pwConf with
    | (none, s) => (1, { s with conf := { s.conf with pkt := none } })
    | (some p, s) => (0, { s with conf := { s.conf with pkt := some p } })

/-- `config_consumption_measures`, with the value it returns; `posted` is false if the event
queue is full. -/
def configConsumptionMeasures (s : Node) (data : List UInt8) (posted : Bool) : Nat × Node :=
  match data with
  | [status, pwConf, pwMeasRate] =>
    match parseConsumptionConfig s status pwConf pwMeasRate with
    | (0, s) =>
      if posted then
        (0, { s with events := s.events + 1, accepted := ⟨pwConf, s.conf⟩ :: s.accepted })
      else (1, s)
    | (ret, s) => (ret, s)
  | _ => (1, s)

def callFree (s : Node) (p : AckId) : Node :=
  { s.set p (iotlabPacketReset (s.packet p)) .returned with acksQueue := p :: s.acksQueue }

/-- `do_config_consumption_measures` after the flush, which is a frame of another queue. -/
def doConfigConsumptionMeasures (s : Node) : Node :=
  let s := { s with events := s.events - 1 }
  match s.conf.pkt with
  | none => { s with faulted := true }
  | some p =>
    match iotlabSerialInitTxPacket packetMaxSize ackFrame (s.packet p) with
    | (0, pkt) =>
      { s.set p pkt .appended with
        fifo := prioInsert Outgoing.priority ⟨some p, pkt.priority⟩ s.fifo
        curConfig := { s.conf with pkt := none } }
    | (_, _) => callFree s p

def txStart (s : Node) (out : Outgoing) (rest : List Outgoing) : Node :=
  { s with
    fifo := rest
    tx := some out
    frames := match out.packet with
      | none => s.frames
      | some p => (s.packet p).wire :: s.frames }

def txFree (s : Node) (out : Outgoing) : Node :=
  match out.packet with
  | none => { s with tx := none }
  | some p => { callFree s p with tx := none }

inductive Action
  | command (data : List UInt8) (posted : Bool)
  | doConfig
  /-- Another module sends a packet of its own. -/
  | sendFrame (priority : Nat)
  | txStart
  | txFree
  deriving DecidableEq

def act (s : Node) : Action → Option Node
  | .command data posted => some (configConsumptionMeasures s data posted).2
  | .doConfig => if 0 < s.events then some (doConfigConsumptionMeasures s) else none
  | .sendFrame priority =>
    some { s with fifo := prioInsert Outgoing.priority ⟨none, priority⟩ s.fifo }
  | .txStart =>
    match s.tx, s.fifo with
    | none, out :: rest => some (txStart s out rest)
    | _, _ => none
  | .txFree => s.tx.map (txFree s)

def step (s : Node) (a : Action) : Option Node := if s.faulted then none else act s a

/-- The configuration after an ack packet has been asked for. -/
def asked (s : Node) (status pwConf pwMeasRate : UInt8) (pkt : Option AckId) : Config :=
  { settings s.conf status pwConf pwMeasRate with pkt := pkt }

def taking (s : Node) (status pwConf pwMeasRate : UInt8) (p : AckId) (rest : List AckId) : Node :=
  { s.set p (pwAckFrame (s.packet p) pwConf) .taken with
    acksQueue := rest, conf := asked s status pwConf pwMeasRate (some p) }

inductive Change (s : Node) : Action → Node → Prop
  | wrongLength {data : List UInt8} {posted : Bool} (length : data.length ≠ 3) :
      Change s (.command data posted) s
  | inconsistent {status pwConf pwMeasRate : UInt8} {posted : Bool}
      (bad : Inconsistent status pwConf) :
      Change s (.command [status, pwConf, pwMeasRate] posted)
        { s with conf := settings s.conf status pwConf pwMeasRate }
  | noPacket {status pwConf pwMeasRate : UInt8} {posted : Bool}
      (good : ¬Inconsistent status pwConf) (empty : s.acksQueue = []) :
      Change s (.command [status, pwConf, pwMeasRate] posted)
        { s with conf := asked s status pwConf pwMeasRate none }
  | notPosted {status pwConf pwMeasRate : UInt8} {p : AckId} {rest : List AckId}
      (good : ¬Inconsistent status pwConf) (queue : s.acksQueue = p :: rest) :
      Change s (.command [status, pwConf, pwMeasRate] false)
        (taking s status pwConf pwMeasRate p rest)
  | accepted {status pwConf pwMeasRate : UInt8} {p : AckId} {rest : List AckId}
      (good : ¬Inconsistent status pwConf) (queue : s.acksQueue = p :: rest) :
      Change s (.command [status, pwConf, pwMeasRate] true)
        { taking s status pwConf pwMeasRate p rest with
          events := s.events + 1
          accepted := ⟨pwConf, asked s status pwConf pwMeasRate (some p)⟩ :: s.accepted }
  | doConfig (event : 0 < s.events) : Change s .doConfig (doConfigConsumptionMeasures s)
  | sendFrame {priority : Nat} : Change s (.sendFrame priority)
      { s with fifo := prioInsert Outgoing.priority ⟨none, priority⟩ s.fifo }
  | txStart {out : Outgoing} {rest : List Outgoing} (idle : s.tx = none)
      (first : s.fifo = out :: rest) : Change s .txStart (txStart s out rest)
  | txFree {out : Outgoing} (sending : s.tx = some out) : Change s .txFree (txFree s out)

variable {s u : Node} {a : Action}

section Parse

variable {status pwConf pwMeasRate : UInt8}

theorem parse_inconsistent (bad : Inconsistent status pwConf) :
    parseConsumptionConfig s status pwConf pwMeasRate =
      (1, { s with conf := settings s.conf status pwConf pwMeasRate }) := by
  rw [parseConsumptionConfig, if_pos bad]

theorem parse_noPacket (good : ¬Inconsistent status pwConf) (empty : s.acksQueue = []) :
    parseConsumptionConfig s status pwConf pwMeasRate =
      (1, { s with conf := asked s status pwConf pwMeasRate none }) := by
  rw [parseConsumptionConfig, if_neg good, allocPwAckFrame]
  simp only [empty]
  rfl

theorem parse_taking {p} {rest} (good : ¬Inconsistent status pwConf)
    (queue : s.acksQueue = p :: rest) :
    parseConsumptionConfig s status pwConf pwMeasRate =
      (0, taking s status pwConf pwMeasRate p rest) := by
  rw [parseConsumptionConfig, if_neg good, allocPwAckFrame]
  simp only [queue]
  rfl

end Parse

theorem command_change {data} {posted} :
    Change s (.command data posted) (configConsumptionMeasures s data posted).2 := by
  unfold configConsumptionMeasures
  split
  case h_2 other =>
    -- Only a list of three bytes has the form that is parsed.
    refine .wrongLength fun length => ?_
    obtain ⟨status, pwConf, pwMeasRate, rfl⟩ := List.length_eq_three.mp length
    exact other _ _ _ rfl
  case h_1 status pwConf pwMeasRate =>
    by_cases bad : Inconsistent status pwConf
    · rw [parse_inconsistent bad]
      exact .inconsistent bad
    · cases queue : s.acksQueue with
      | nil =>
        rw [parse_noPacket bad queue]
        exact .noPacket bad queue
      | cons p rest =>
        rw [parse_taking bad queue]
        cases posted with
        | false => exact .notPosted bad queue
        | true => exact .accepted bad queue

theorem step_change (h : step s a = some u) : s.faulted = false ∧ Change s a u := by
  rw [step, ite_none_left_eq_some] at h
  obtain ⟨running, h⟩ := h
  refine ⟨by simpa using running, ?_⟩
  cases a with
  | command data posted =>
    cases h
    exact command_change
  | doConfig =>
    rw [act, ite_none_right_eq_some] at h
    obtain ⟨event, done⟩ := h
    obtain rfl := some.inj done
    exact .doConfig event
  | sendFrame priority =>
    cases h
    exact .sendFrame
  | txStart =>
    rw [act] at h
    split at h
    case h_1 out rest idle first =>
      cases h
      exact .txStart idle first
    case h_2 => cases h
  | txFree =>
    obtain ⟨out, sending, rfl⟩ := map_eq_some_iff.mp h
    exact .txFree sending

end CnConsumption
