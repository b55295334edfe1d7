import OpenLab.Schedules

/-!
# The CSMA MAC

`mac_csma.c` over a PHY whose completions belong to their operation. The steps are the mutex
bodies and what a task does between them. The two event tasks run one thing at a time, each from
its own queue; the reset timer posts on the application queue.
-/

namespace MacCsma

open Schedules Option

inductive CsmaState
  | rx | tx
  deriving DecidableEq

inductive PhyOp
  | none | rx | tx
  deriving DecidableEq

inductive PhyCall
  | idle | cca | setChannel | setPower | rx | tx
  deriving DecidableEq

inductive Event
  | enterRx | processRx
  deriving DecidableEq

/-- `phy_packet_t`: the bytes from `data` on and the length field. -/
structure Packet where
  data : List UInt8 := []
  length : UInt8 := 0
  deriving DecidableEq

/-- An event task: its queue, and whether it is past the mutex body of `csma_tx_done` or
`csma_process_rx` and about to call `csma_enter_rx`. -/
structure Task where
  queue : List Event := []
  reenters : Bool := false
  deriving DecidableEq

inductive Worker
  | network | appli
  deriving DecidableEq

structure Mac where
  localAddr : UInt16 := 0
  state : CsmaState := .rx
  rxPkt : Packet := {}
  txPkt : Packet := {}
  phy : PhyOp := .none
  resetRxTimer : Bool := false
  network : Task := { queue := [.enterRx] }
  appli : Task := {}
  /-- Senders that found the channel busy and have not posted their event yet. -/
  posting : Nat := 0
  /-- A send has returned 1 and its `csma_tx_done` has not come. -/
  sending : Bool := false
  calls : List PhyCall := []
  received : List (UInt16 × List UInt8) := []
  deriving DecidableEq

def Mac.task (m : Mac) : Worker → Task
  | .network => m.network
  | .appli => m.appli

def Mac.setTask (m : Mac) (w : Worker) (task : Task) : Mac :=
  match w with
  | .network => { m with network := task }
  | .appli => { m with appli := task }

/-- `event_post(EVENT_QUEUE_APPLI, event, NULL)`. -/
def Mac.post (m : Mac) (event : Event) : Mac :=
  { m with appli := { m.appli with queue := m.appli.queue ++ [event] } }

def init (localAddr : UInt16) : Mac := { localAddr }

def packerUint16Pack (value : UInt16) : List UInt8 :=
  [(value >>> 8 &&& 0xFF).toUInt8, (value &&& 0xFF).toUInt8]

def packerUint16Unpack (buffer : List UInt8) : UInt16 :=
  ((buffer.getD 0 0).toUInt16 <<< 8) + (buffer.getD 1 0).toUInt16

def maxTxLength : UInt8 := 125

/-- The frame `mac_csma_data_send` writes; its length is an 8-bit sum. -/
def frame (m : Mac) (dest : UInt16) (data : List UInt8) : Packet where
  data := packerUint16Pack m.localAddr ++ packerUint16Pack dest ++ data
  length := 4 + UInt8.ofNat data.length

/-- `mac_csma_data_send` up to its last `give`, with the value it returns. `clear` is
the result of the CCA, `pllOn` whether the radio gets ready for a packet that
`phy_tx` takes; the status of `phy_tx_now` is not looked at. -/
def macCsmaDataSend (m : Mac) (dest : UInt16) (data : List UInt8) (clear pllOn : Bool) :
    Nat × Mac :=
  if m.state = .tx then (0, m)
  else
    let m := { m with
      txPkt := frame m dest data
      phy := .none
      calls := .cca :: .idle :: m.calls }
    if clear then
      (1, { m with
        phy := if m.txPkt.length ≤ maxTxLength ∧ pllOn then .tx else .none
        calls := .tx :: m.calls
        state := .tx
        sending := true })
    else (0, { m with posting := m.posting + 1 })

def csmaEnterRx (m : Mac) : Mac :=
  { m with
    calls := [.rx, .setPower, .setChannel, .idle] ++ m.calls
    phy := .rx
    state := .rx
    resetRxTimer := true }

def csmaRxDone (m : Mac) (success : Bool) (pkt : Packet) : Mac :=
  let event := if success && !(pkt.length < 4) then .processRx else .enterRx
  { m with rxPkt := pkt }.post event

def csmaProcessRx (m : Mac) : Mac :=
  let srcAddr := packerUint16Unpack m.rxPkt.data
  let destAddr := packerUint16Unpack (m.rxPkt.data.drop 2)
  let payload := (m.rxPkt.data.drop 4).take (m.rxPkt.length - 4).toNat
  if destAddr = 0xFFFF ∨ destAddr = m.localAddr then
    { m with received := (srcAddr, payload) :: m.received }
  else m

inductive Action
  | send (dest : UInt16) (data : List UInt8) (clear pllOn : Bool)
  /-- The `event_post` of a sender that found the channel busy. -/
  | post
  | run (w : Worker)
  /-- The PHY ends a reception, or a transmission, and calls the handler. -/
  | rxDone (success : Bool) (pkt : Packet)
  | txDone
  | resetRxTimer
  deriving DecidableEq

/-- An event task goes on where it was, or takes its next event. -/
def runTask (m : Mac) (w : Worker) : Option Mac :=
  if (m.task w).reenters then
    some ((csmaEnterRx m).setTask w { m.task w with reenters := false })
  else match (m.task w).queue with
    | [] => none
    | .enterRx :: rest => some ((csmaEnterRx m).setTask w { queue := rest })
    | .processRx :: rest => some ((csmaProcessRx m).setTask w { queue := rest, reenters := true })

def step (m : Mac) : Action → Option Mac
  | .send dest data clear pllOn => some (macCsmaDataSend m dest data clear pllOn).2
  | .post =>
    if m.posting = 0 then none
    else some ({ m with posting := m.posting - 1 }.post .enterRx)
  | .run w => runTask m w
  | .rxDone success pkt =>
    if m.phy = .rx ∧ m.network.reenters = false then
      some (csmaRxDone { m with phy := .none } success pkt)
    else none
  | .txDone =>
    if m.phy = .tx ∧ m.network.reenters = false then
      some { m with
        phy := .none
        sending := false
        network := { m.network with reenters := true } }
    else none
  | .resetRxTimer =>
    if m.resetRxTimer then
      some ({ m with resetRxTimer := false }.post .enterRx)
    else none

/-- Until `csma_tx_done` the step calls nothing in the PHY, leaves the packet alone and
refuses further sends. -/
def Undisturbed (m : Mac) (a : Action) (m' : Mac) : Prop :=
  m.sending → a ≠ .txDone → m'.calls = m.calls ∧ m'.txPkt = m.txPkt ∧
    ∀ dest data clear pllOn, a = .send dest data clear pllOn →
      (macCsmaDataSend m dest data clear pllOn).1 = 0

/-- Nothing that leads to `csma_enter_rx` is queued or under way. -/
structure Clear (m : Mac) : Prop where
  network : m.network = {}
  appli : m.appli = {}
  posting : m.posting = 0

instance (m : Mac) : Decidable (Clear m) :=
  decidable_of_iff (m.network = {} ∧ m.appli = {} ∧ m.posting = 0)
    ⟨fun ⟨network, appli, posting⟩ => ⟨network, appli, posting⟩,
      fun ⟨network, appli, posting⟩ => ⟨network, appli, posting⟩⟩

theorem Clear.task {m} (h : Clear m) (w : Worker) : m.task w = {} := by
  cases w with
  | network => exact h.network
  | appli => exact h.appli

/-- A send that returns 1 starts with nothing queued, and the reset timer does not
expire during a transmission. -/
def Safe (m : Mac) : Action → Prop
  | .send _ _ clear _ => m.state = .rx → clear = true → Clear m
  | .resetRxTimer => m.sending = false
  | _ => True

instance (m : Mac) (a : Action) : Decidable (Safe m a) := by
  cases a <;> unfold Safe <;> infer_instance

/-- While a packet is out, nothing else is going on. -/
structure Quiet (m : Mac) : Prop where
  state : m.state = .tx
  phy : m.phy ≠ .rx
  clear : Clear m

section Runs

variable {m m' : Mac} {a : Action}

theorem send_busy (busy : m.state = .tx) (dest : UInt16) (data : List UInt8)
    (clear pllOn : Bool) : macCsmaDataSend m dest data clear pllOn = (0, m) := by
  simp [macCsmaDataSend, busy]

theorem quiet_step (quiet : Quiet m) (sending : m.sending = true) (safe : Safe m a)
    (hs : step m a = some m') :
    a = .txDone ∧ m'.sending = false ∨
      m' = m ∧ ∃ dest data clear pllOn, a = .send dest data clear pllOn := by
  obtain ⟨busy, phy, clear⟩ := quiet
  cases a with
  | send dest data clear pllOn =>
    simp only [step, send_busy busy, some.injEq] at hs
    exact .inr ⟨hs.symm, dest, data, clear, pllOn, rfl⟩
  | post => simp [step, clear.posting] at hs
  | run w => simp [step, runTask, clear.task w] at hs
  | rxDone success pkt => simp [step, phy] at hs
  | txDone =>
    simp only [step] at hs
    split at hs
    · cases hs
      exact .inl ⟨rfl, rfl⟩
    · cases hs
  | resetRxTimer => simp [Safe, sending] at safe

theorem sending_csmaProcessRx : (csmaProcessRx m).sending = m.sending := by
  unfold csmaProcessRx
  dsimp only
  split <;> rfl

theorem sending_setTask (w : Worker) (task : Task) : (m.setTask w task).sending = m.sending := by
  cases w <;> rfl

theorem sending_runTask {w} (h : runTask m w = some m') : m'.sending = m.sending := by
  unfold runTask at h
  split at h
  · cases h
    exact sending_setTask ..
  · split at h
    · cases h
    · cases h
      exact sending_setTask ..
    · cases h
      exact (sending_setTask ..).trans sending_csmaProcessRx

theorem sending_step (idle : m.sending = false) (hs : step m a = some m')
    (sending : m'.sending = true) :
    ∃ dest data pllOn, a = .send dest data true pllOn ∧ m.state = .rx ∧
      m' = (macCsmaDataSend m dest data true pllOn).2 := by
  cases a with
  | send dest data clear pllOn =>
    cases state : m.state with
    | tx =>
      simp only [step, send_busy state, some.injEq] at hs
      simp [← hs, idle] at sending
    | rx =>
      cases clear with
      | true => exact ⟨dest, data, pllOn, rfl, rfl, (some.inj hs).symm⟩
      | false =>
        simp only [step, macCsmaDataSend, state, reduceCtorEq, if_false, Bool.false_eq_true,
          some.injEq] at hs
        simp [← hs, idle] at sending
  | post =>
    simp only [step] at hs
    split at hs
    · cases hs
    · cases hs
      simp [Mac.post, idle] at sending
  | run w => simp [sending_runTask hs, idle] at sending
  | rxDone success pkt =>
    simp only [step] at hs
    split at hs
    · cases hs
      simp [csmaRxDone, Mac.post, idle] at sending
    · cases hs
  | txDone =>
    simp only [step] at hs
    split at hs
    · cases hs
      simp at sending
    · cases hs
  | resetRxTimer =>
    simp only [step] at hs
    split at hs
    · cases hs
      simp [Mac.post, idle] at sending
    · cases hs

theorem quiet_run {localAddr} (run : Run step Safe (init localAddr) m) :
    m.sending = true → Quiet m := by
  refine run.invariant (fun m => m.sending = true → Quiet m) ?_ (by simp [init])
  intro m a m' h safe hs sending
  cases before : m.sending with
  | true =>
    obtain ⟨_, done⟩ | ⟨same, _⟩ := quiet_step (h before) before safe hs
    · simp [done] at sending
    · exact same ▸ h before
  | false =>
    obtain ⟨dest, data, pllOn, rfl, receiving, rfl⟩ := sending_step before hs sending
    have clear : Clear m := safe receiving rfl
    refine ⟨by simp [macCsmaDataSend, receiving], ?_, ?_⟩
    · simp only [macCsmaDataSend, receiving, reduceCtorEq, if_false, if_true]
      split <;> simp
    · simp only [macCsmaDataSend, receiving, reduceCtorEq, if_false, if_true]
      exact ⟨clear.network, clear.appli, clear.posting⟩

theorem undisturbed_of_quiet (quiet : m.sending = true → Quiet m) (safe : Safe m a)
    (hs : step m a = some m') : Undisturbed m a m' := by
  intro sending other
  obtain ⟨done, _⟩ | ⟨same, _⟩ := quiet_step (quiet sending) sending safe hs
  · exact absurd done other
  · refine ⟨by rw [same], by rw [same], ?_⟩
    intro dest data clear pllOn _
    rw [send_busy (quiet sending).state]

end Runs

section Aborts

variable {m m' : Mac}

/-- A step that aborts the transmission in progress. -/
def Aborts (m : Mac) : Prop :=
  ∃ a m', step m a = some m' ∧ m.sending = true ∧ a ≠ .txDone ∧ m'.phy = .rx ∧
    m'.calls ≠ m.calls

theorem aborts_of_enterRx {w} (task : Task) (sending : m.sending = true)
    (runs : runTask m w = some ((csmaEnterRx m).setTask w task)) : Aborts m := by
  refine ⟨.run w, _, runs, sending, by simp, by cases w <;> rfl, fun same => ?_⟩
  have length : ((csmaEnterRx m).setTask w task).calls.length = m.calls.length + 4 := by
    cases w <;> simp [Mac.setTask, csmaEnterRx]
  rw [same] at length
  omega

theorem aborts_of_reenters {w} (sending : m.sending = true)
    (reenters : (m.task w).reenters = true) : Aborts m :=
  aborts_of_enterRx { m.task w with reenters := false } sending
    (by rw [runTask, if_pos reenters])

theorem aborts_of_task (w : Worker) (sending : m.sending = true) (busy : m.task w ≠ {}) :
    ∃ u, Reach step m u ∧ Aborts u := by
  cases reenters : (m.task w).reenters with
  | true => exact ⟨m, .start, aborts_of_reenters sending reenters⟩
  | false =>
    cases queue : (m.task w).queue with
    | nil => exact absurd (by rw [← queue, ← reenters]) busy
    | cons event rest =>
      cases event with
      | enterRx =>
        have runs : runTask m w = some ((csmaEnterRx m).setTask w { queue := rest }) := by
          simp [runTask, reenters, queue]
        exact ⟨m, .start, aborts_of_enterRx _ sending runs⟩
      | processRx =>
        have first : step m (.run w) =
            some ((csmaProcessRx m).setTask w { queue := rest, reenters := true }) := by
          simp [step, runTask, reenters, queue]
        refine ⟨_, .next (.run w) .start trivial first, aborts_of_reenters (w := w) ?_ ?_⟩
        · exact ((sending_setTask ..).trans sending_csmaProcessRx).trans sending
        · cases w <;> rfl

theorem aborts_of_post (event : Event) (sending : m.sending = true) :
    ∃ u, Reach step (m.post event) u ∧ Aborts u := by
  refine aborts_of_task .appli sending fun done => ?_
  have queue := congrArg Task.queue done
  simp [Mac.task, Mac.post] at queue

theorem aborts_of_not_clear (sending : m.sending = true) (busy : ¬ Clear m) :
    ∃ u, Reach step m u ∧ Aborts u := by
  by_cases network : m.network = {}
  · by_cases appli : m.appli = {}
    · have posting : m.posting ≠ 0 := fun none_ => busy ⟨network, appli, none_⟩
      have first : step m .post = some ({ m with posting := m.posting - 1 }.post .enterRx) := by
        simp [step, posting]
      have posted : Reach step m ({ m with posting := m.posting - 1 }.post .enterRx) :=
        .next .post .start trivial first
      obtain ⟨u, reach, aborts⟩ :=
        aborts_of_post (m := { m with posting := m.posting - 1 }) .enterRx sending
      exact ⟨u, posted.trans reach, aborts⟩
    · exact aborts_of_task .appli sending appli
  · exact aborts_of_task .network sending network

theorem aborts_of_not_safe {a} (unsafe_ : ¬ Safe m a) (hs : step m a = some m') :
    ∃ u, Reach step m' u ∧ Aborts u := by
  cases a with
  | send dest data clear pllOn =>
    obtain ⟨receiving, rfl, busy⟩ : m.state = .rx ∧ clear = true ∧ ¬ Clear m := by
      simpa [Safe] using unsafe_
    have after : m' = (macCsmaDataSend m dest data true pllOn).2 := (some.inj hs).symm
    refine aborts_of_not_clear (by simp [after, macCsmaDataSend, receiving]) fun clear => busy ?_
    rw [after] at clear
    simp only [macCsmaDataSend, receiving, reduceCtorEq, if_false, if_true] at clear
    exact ⟨clear.network, clear.appli, clear.posting⟩
  | resetRxTimer =>
    have sending : m.sending = true := by simpa [Safe] using unsafe_
    simp only [step] at hs
    split at hs
    · cases hs
      exact aborts_of_post (m := { m with resetRxTimer := false }) _ sending
    · cases hs
  | _ => exact absurd trivial unsafe_

end Aborts

/-- In a safe run every transmission is left alone until its `csma_tx_done`, which puts
the MAC back into reception; after the first step that is not safe some continuation
aborts the transmission. -/
theorem sends_undisturbed (localAddr : UInt16) :
    (∀ m, Run step Safe (init localAddr) m → ∀ a m', Safe m a → step m a = some m' →
      Undisturbed m a m' ∧
        (m.network.reenters = true → a = .run .network → m'.state = .rx ∧ m'.phy = .rx)) ∧
    ∀ m a m', Run step Safe (init localAddr) m → step m a = some m' → ¬ Safe m a →
      ∃ u, Reach step m' u ∧ Aborts u := by
  refine ⟨fun m run a m' safe hs => ⟨undisturbed_of_quiet (quiet_run run) safe hs, ?_⟩,
    fun m a m' _ hs bad => aborts_of_not_safe bad hs⟩
  rintro reenters rfl
  have runs : step m (.run .network) =
      some ((csmaEnterRx m).setTask .network { m.network with reenters := false }) :=
    if_pos reenters
  obtain rfl := some.inj (hs.symm.trans runs)
  exact ⟨rfl, rfl⟩

theorem sends_undisturbed_twice :
    ∃ m m', Run step Safe (init 1) m ∧ m.phy = .tx ∧ step m (.send 3 [8] true true) = some m' ∧
      m'.calls = m.calls ∧ m'.txPkt = m.txPkt := by
  obtain ⟨m, run, seen⟩ : ∃ m, Run step Safe (init 1) m ∧ (m.sending, m.phy) = (true, .tx) :=
    execIf_observe [.run .network, .send 2 [7] true true] _ _ (by decide +kernel)
  have sending : m.sending = true := congrArg Prod.fst seen
  have safe : Safe m (.send 3 [8] true true) := fun receiving =>
    absurd ((quiet_run run sending).state.symm.trans receiving) (by simp)
  have alone := ((sends_undisturbed 1).1 m run _ _ safe rfl).1 sending (by simp)
  exact ⟨m, _, run, congrArg Prod.snd seen, rfl, alone.1, alone.2.1⟩

/-- A packet was received just before the send: `csma_process_rx` is still queued, and
its `csma_enter_rx` puts the PHY back into reception with the packet half sent. -/
theorem send_aborted :
    ∃ m a m', Reach step (init 1) m ∧ m.phy = .tx ∧ step m a = some m' ∧ m'.phy = .rx ∧
      ¬ Undisturbed m a m' := by
  obtain ⟨m, run, seen⟩ : ∃ m, Reach step (init 1) m ∧
      (m.phy, m.sending, (m.task .appli).reenters) = (.tx, true, true) :=
    exec_observe [.run .network, .rxDone true ⟨[0, 2, 0, 1, 9], 5⟩, .send 2 [7] true true,
      .run .appli] _ _ (by decide +kernel)
  simp only [Prod.mk.injEq] at seen
  obtain ⟨phy, sending, reenters⟩ := seen
  obtain ⟨a, m', runs, _, other, receiving, calls⟩ := aborts_of_reenters sending reenters
  exact ⟨m, a, m', run, phy, runs, receiving, fun alone => calls (alone sending other).1⟩

end MacCsma
