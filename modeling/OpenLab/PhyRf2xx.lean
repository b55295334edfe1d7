import OpenLab.Schedules

/-!
# The PHY of the RF2xx radios

One PHY as a state machine. The steps are the bodies between `take` and `give`, cut at their
waiting loops so that armed interrupts can fire, the interrupt routines, and what a task does
after `give`.

What the radio and the clock answer is in the action. Every `phy_rx` and `phy_tx` that stores a
handler gets a number for it and its operation; these numbers and the fields from `calls` on only
record a run.
-/

namespace PhyRf2xx

inductive PhyState
  | sleep | idle | rxWait | rx | txWait | tx | jamming
  deriving DecidableEq

/-- The states that `idle` leaves with a `platform_release_low_power`. -/
def PhyState.active : PhyState → Bool
  | .rxWait | .rx | .txWait | .tx => true
  | .sleep | .idle | .jamming => false

def PhyState.resting : PhyState → Bool
  | .sleep | .idle => true
  | _ => false

inductive Status
  | success | rxTimeoutError | rxCrcError | rxLengthError
  | errInvalidState | errTooLate | errInvalidLength | errInternal
  deriving DecidableEq

/-- The two causes of IRQ_STATUS and IRQ_MASK that the PHY uses. -/
structure Irq where
  rxStart : Bool := false
  trxEnd : Bool := false
  deriving DecidableEq

inductive Cause
  | rxStart | trxEnd
  deriving DecidableEq

def Irq.has (i : Irq) : Cause → Bool
  | .rxStart => i.rxStart
  | .trxEnd => i.trxEnd

def Irq.set (i : Irq) : Cause → Irq
  | .rxStart => { i with rxStart := true }
  | .trxEnd => { i with trxEnd := true }

/-- What the radio does, as far as it decides which interrupts it can raise. -/
inductive Mode
  | off | rxOn | pllOn | busyTx | jamming
  deriving DecidableEq

/-- The handler installed on the PHY's timer channel. -/
inductive Compare
  | rxStartHandler | txStartHandler | rxTimeoutHandler
  deriving DecidableEq

/-- The functions posted on the network event queue. -/
inductive Event
  | startRx | handleRxTimeout | handleRxEnd | handleIrq
  deriving DecidableEq

structure Posted where
  event : Event
  op : Nat
  deriving DecidableEq

inductive Origin
  | alarm (op : Nat)
  | frame (op : Nat)
  deriving DecidableEq

structure Completion where
  status : Status
  op : Nat
  origin : Origin
  deriving DecidableEq

structure HandlerCall where
  handler : Nat
  completion : Completion
  deriving DecidableEq

/-- Who is inside the mutex at a cut: `start_rx` and the measurement in their waiting
loops, `phy_tx` waiting for PLL_ON with its `last_state` and `launch_now`. -/
inductive Mutex
  | free
  | startRx
  | measure (ed : Bool)
  | tx (last : PhyState) (launchNow : Bool) (call : Nat)
  deriving DecidableEq

structure Phy where
  state : PhyState := .sleep
  pkt : Bool := false
  handler : Option Nat := none
  rxTimeout : UInt32 := 0
  timer : Option (Compare × Nat) := none
  irqEnabled : Bool := false
  irqMask : Irq := {}
  irqStatus : Irq := {}
  dig2Enabled : Bool := false
  radio : Mode := .off
  fifo : Option Nat := none
  lowPower : Int := 0
  mutex : Mutex := .free
  queue : List Posted := []
  /-- Tasks that left `phy_rx`'s body and have not entered `start_rx` yet. -/
  starting : Nat := 0
  /-- The completion between `give` and the handler call. -/
  calling : Option Completion := none
  halted : Bool := false
  calls : Nat := 0
  op : Nat := 0
  /-- The operation on the air when TRX_END was last raised. -/
  irqOp : Nat := 0
  accepted : List Nat := []
  cancelled : List Nat := []
  log : List HandlerCall := []
  deriving DecidableEq

def init : Phy := {}

def halt (s : Phy) : Phy := { s with halted := true }

def post (s : Phy) (event : Event) (op : Nat) : Phy :=
  { s with queue := s.queue ++ [⟨event, op⟩] }

def stored (notify : Bool) (call : Nat) : Option Nat :=
  if notify then some call else none

def idle (s : Phy) : Phy :=
  { s with
    irqEnabled := false
    timer := none
    lowPower := if s.state.active then s.lowPower - 1 else s.lowPower
    fifo := none
    radio := .off
    pkt := false
    state := .idle }

def sleep (s : Phy) : Phy :=
  { idle s with handler := none, pkt := false, state := .sleep }

def reset (s : Phy) : Phy :=
  sleep { s with
    timer := none
    fifo := none
    irqEnabled := false
    irqMask := {}
    irqStatus := {}
    dig2Enabled := false
    radio := .off }

/-- The way back of `phy_rx` and `phy_tx` when they give up. -/
def goBack (s : Phy) : Phy :=
  if s.state = .sleep then sleep s else idle s

def complete (s : Phy) (status : Status) (origin : Origin) : Phy :=
  { idle s with calling := some ⟨status, s.op, origin⟩ }

/-- What `phy_idle`, `phy_sleep` and `phy_reset` cancel: the operation in progress and
one whose handler has not been called yet. -/
def outstanding (s : Phy) : List Nat :=
  (if s.state.active then [s.op] else []) ++ (s.calling.map Completion.op).toList

def cancel (s : Phy) : Phy :=
  { s with cancelled := outstanding s ++ s.cancelled }

def phyIdle (s : Phy) : Phy := idle (cancel s)

def phySleep (s : Phy) : Phy := sleep (cancel s)

def phyReset (s : Phy) : Phy := reset (cancel s)

def delta (a b : UInt32) : Int16 := (a - b).toUInt16.toInt16

def tooLate (now rxTime timeoutTime : UInt32) : Bool :=
  (rxTime != 0 && delta rxTime now < 1) || (timeoutTime != 0 && delta timeoutTime now < 1)
    || (rxTime != 0 && timeoutTime != 0 && timeoutTime - rxTime < 1)

/-- `phy_rx` up to its `give`; `none` where it halts. -/
def phyRx (s : Phy) (now rxTime timeoutTime : UInt32) (pkt notify : Bool) :
    Option Status × Phy :=
  if !pkt then (none, halt s)
  else if !s.state.resting then (some .errInvalidState, s)
  else
    let call := s.calls
    let s := { s with
      calls := call + 1
      rxTimeout := timeoutTime
      pkt := true
      handler := stored notify call }
    if tooLate now rxTime timeoutTime then (some .errTooLate, goBack s)
    else
      let s := { s with
        state := .rxWait
        lowPower := s.lowPower + 1
        op := call
        accepted := call :: s.accepted }
      if rxTime != 0 then
        (some .success, { s with timer := some (.rxStartHandler, call) })
      else (some .success, { s with starting := s.starting + 1 })

/-- `PHY_TIMING__TX_OFFSET`: `soft_timer_us_to_ticks(16 + 192 + 9)`. -/
def txOffset : UInt32 := 7

def inTime (now txTime : UInt32) : Bool := 1 < delta (txTime - txOffset) now

def maxTxLength : UInt8 := 125

/-- `phy_tx` up to its waiting loop, or to its return. `length` is `pkt->length`,
`none` for a NULL packet; `none` as status: the call is now waiting for PLL_ON. -/
def phyTx (s : Phy) (now txTime : UInt32) (length : Option UInt8) (notify : Bool) :
    Option Status × Phy :=
  match length with
  | none => (some .errInternal, s)
  | some length =>
    if maxTxLength < length then (some .errInvalidLength, s)
    else if !s.state.resting then (some .errInvalidState, s)
    else
      let last := s.state
      let call := s.calls
      let s := { s with
        calls := call + 1
        pkt := true
        handler := stored notify call
        irqMask := { trxEnd := true }
        irqStatus := {}
        irqEnabled := true
        radio := .pllOn
        state := .txWait
        op := call }
      if txTime != 0 then
        if inTime now txTime then
          (none, { s with timer := some (.txStartHandler, call), mutex := .tx last false call })
        else (some .errTooLate, goBack { s with state := last })
      else (none, { s with mutex := .tx last true call })

/-- `tx_start_handler`, as interrupt or called by `phy_tx`. -/
def txStartHandler (s : Phy) : Phy :=
  if s.state = .txWait then { s with state := .tx, timer := none, radio := .busyTx } else s

def phyTxPllOn (s : Phy) (last : PhyState) (launchNow : Bool) (call : Nat)
    (expired : Bool) : Phy :=
  if expired then { goBack { s with state := last } with mutex := .free }
  else
    let s := { s with lowPower := s.lowPower + 1, accepted := call :: s.accepted }
    let s := if launchNow then txStartHandler s else s
    { s with mutex := .free }

/-- `phy_ed_cca_measure` up to its first waiting loop. -/
def phyMeasure (s : Phy) (ed : Bool) : Phy :=
  if s.state.resting then
    { s with irqEnabled := false, radio := .rxOn, mutex := .measure ed }
  else s

/-- The rest of `phy_ed_cca_measure`: a loop that expires leaves the radio in RX_ON. -/
def phyMeasured (s : Phy) (ed rxOnExpired resultExpired : Bool) : Phy :=
  let s := { s with mutex := .free }
  if rxOnExpired then s
  else
    let s := if ed then { s with irqMask := {}, irqStatus := {} } else s
    if resultExpired then s else { s with radio := .off }

def phyJam (s : Phy) : Phy :=
  if s.state.resting then
    { s with
      state := .jamming
      irqEnabled := false
      irqMask := {}
      irqStatus := {}
      radio := .jamming }
  else s

def startRx (dig2 : Bool) (s : Phy) : Phy :=
  if s.state ≠ .rxWait then s
  else if !s.pkt then halt s
  else
    { s with
      state := .rx
      irqMask := { rxStart := !dig2, trxEnd := true }
      irqStatus := {}
      irqEnabled := true
      dig2Enabled := dig2 || s.dig2Enabled
      radio := .rxOn
      mutex := .startRx }

def startRxOn (s : Phy) : Phy :=
  { s with
    timer := if s.rxTimeout != 0 then some (.rxTimeoutHandler, s.op) else none
    mutex := .free }

def handleRxStart (s : Phy) (crcValid lengthValid : Bool) : Phy :=
  if s.state ≠ .rx || !s.pkt then halt s
  else
    let s := { s with radio := .off }
    if !crcValid then complete { s with timer := none } .rxCrcError (.frame s.irqOp)
    else if !lengthValid then complete s .rxLengthError (.frame s.irqOp)
    else { s with fifo := some s.irqOp }

def handleRxEnd (s : Phy) (op : Nat) (slow : Bool) : Phy :=
  if s.state ≠ .rx then s
  else if !s.pkt then halt s
  else if slow then halt s
  else complete s .success (.frame op)

def handleRxTimeout (s : Phy) (op : Nat) : Phy :=
  if s.state ≠ .rxWait ∧ s.state ≠ .rx then s
  else complete s .rxTimeoutError (.alarm op)

/-- `handle_irq`: the read clears IRQ_STATUS, whose value is compared for equality. -/
def handleIrq (s : Phy) (crcValid lengthValid : Bool) : Phy :=
  let status := s.irqStatus
  let s := { s with irqStatus := {} }
  match s.state with
  | .rx =>
    if status = { rxStart := true } then s
    else if status = { trxEnd := true } then handleRxStart s crcValid lengthValid
    else s
  | .tx => if status = { trxEnd := true } then complete s .success (.frame s.irqOp) else s
  | _ => s

def alarm (s : Phy) : Compare × Nat → Phy
  | (.rxStartHandler, op) => post s .startRx op
  | (.txStartHandler, _) => txStartHandler s
  | (.rxTimeoutHandler, op) => post { s with timer := none } .handleRxTimeout op

def dig2CaptureHandler (s : Phy) : Phy :=
  if s.state ≠ .rx then halt s else { s with timer := none }

/-- `irq_handler`, which writes the end-of-packet time through the packet pointer. -/
def irqHandler (s : Phy) : Phy :=
  if !s.pkt then halt s else post s .handleIrq s.op

def Mode.raises : Mode → Cause → Bool
  | .rxOn, _ => true
  | .busyTx, .trxEnd => true
  | _, _ => false

/-- The radio raises a cause. One that is masked off does not show. The line rises with
the first cause in an empty IRQ_STATUS; for a further one `edge` tells whether the
interrupt controller sees another edge. -/
def raise (s : Phy) (cause : Cause) (edge : Bool) : Phy :=
  let rises := s.irqStatus = {} ∨ edge
  let s := { s with radio := if s.radio = Mode.busyTx then .pllOn else s.radio }
  if s.irqMask.has cause then
    let s := { s with
      irqStatus := s.irqStatus.set cause
      irqOp := if cause = Cause.trxEnd then s.op else s.irqOp }
    if s.irqEnabled ∧ rises then irqHandler s else s
  else s

inductive Action
  | phyReset | phySleep | phyIdle
  | phyRx (now rxTime timeoutTime : UInt32) (pkt notify : Bool)
  | phyTx (now txTime : UInt32) (length : Option UInt8) (notify : Bool)
  | phyMeasure (ed : Bool)
  | phyJam
  /-- `phy_set_channel` and `phy_set_power`, which write no field of this model. -/
  | phySet
  /-- The direct call of `start_rx` by a task that has left `phy_rx`'s body. -/
  | startRx
  /-- The waiting loop of `start_rx`, `phy_tx` or the measurement is over. -/
  | rxOn
  | pllOn (expired : Bool)
  | measured (rxOnExpired resultExpired : Bool)
  | alarm | dig2Capture | fifoReadDone
  | raise (cause : Cause) (edge : Bool)
  /-- The event task runs the first event of the queue. -/
  | event (crcValid lengthValid slow : Bool)
  /-- The event task reads the handler of a completed operation and calls it. -/
  | call
  deriving DecidableEq

def runEvent (dig2 : Bool) (s : Phy) (e : Posted) (crcValid lengthValid slow : Bool) : Phy :=
  match e.event with
  | .startRx => startRx dig2 s
  | .handleRxTimeout => handleRxTimeout s e.op
  | .handleRxEnd => handleRxEnd s e.op slow
  | .handleIrq => handleIrq s crcValid lengthValid

/-- `if (_phy->handler) _phy->handler(status)`. -/
def callHandler (s : Phy) (c : Completion) : Phy :=
  { s with
    calling := none
    log := match s.handler with
      | some handler => ⟨handler, c⟩ :: s.log
      | none => s.log }

def inMutex (s : Phy) (body : Phy → Phy) : Option Phy :=
  if s.mutex = .free then some (body s) else none

theorem inMutex_eq_some {s t} {body} :
    inMutex s body = some t ↔ s.mutex = .free ∧ body s = t := by
  simp [inMutex]

/-- One step of the instance; a halted one makes none. -/
def step (dig2 : Bool) (s : Phy) (a : Action) : Option Phy :=
  if s.halted then none
  else match a with
  | .phyReset => inMutex s PhyRf2xx.phyReset
  | .phySleep => inMutex s PhyRf2xx.phySleep
  | .phyIdle => inMutex s PhyRf2xx.phyIdle
  | .phyRx now rxTime timeoutTime pkt notify =>
    inMutex s fun s => (PhyRf2xx.phyRx s now rxTime timeoutTime pkt notify).2
  | .phyTx now txTime length notify =>
    inMutex s fun s => (PhyRf2xx.phyTx s now txTime length notify).2
  | .phyMeasure ed => inMutex s fun s => PhyRf2xx.phyMeasure s ed
  | .phyJam => inMutex s PhyRf2xx.phyJam
  | .phySet => inMutex s id
  | .startRx =>
    if s.starting = 0 then none
    else inMutex { s with starting := s.starting - 1 } (PhyRf2xx.startRx dig2)
  | .rxOn => if s.mutex = .startRx then some (startRxOn s) else none
  | .pllOn expired => match s.mutex with
    | .tx last launchNow call => some (phyTxPllOn s last launchNow call expired)
    | _ => none
  | .measured rxOnExpired resultExpired => match s.mutex with
    | .measure ed => some (phyMeasured s ed rxOnExpired resultExpired)
    | _ => none
  | .alarm => s.timer.map (PhyRf2xx.alarm s)
  | .dig2Capture =>
    if s.dig2Enabled ∧ s.radio = .rxOn then some (dig2CaptureHandler s) else none
  | .fifoReadDone => s.fifo.map (post { s with fifo := none } .handleRxEnd)
  | .raise cause edge =>
    if s.radio.raises cause then some (PhyRf2xx.raise s cause edge) else none
  | .event crcValid lengthValid slow =>
    if s.calling.isSome then none
    else match s.queue with
    | [] => none
    | e :: rest =>
      inMutex { s with queue := rest } fun s => runEvent dig2 s e crcValid lengthValid slow
  | .call => s.calling.map (callHandler s)

end PhyRf2xx
