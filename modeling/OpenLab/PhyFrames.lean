import OpenLab.PhyCompletions

/-!
# Received frames and IRQ_STATUS

`handle_irq` compares IRQ_STATUS for equality, so it takes a frame end only if nothing else is
pending. With DIG2 every frame end is taken; without it RX_START can be pending as well, and then
the frame is lost.
-/

namespace PhyRf2xx

open Schedules Option

structure Tuned (dig2 : Bool) (s : Phy) : Prop where
  enabled : s.irqEnabled = true
  mask : s.irqMask = { rxStart := !dig2, trxEnd := true }
  start : s.irqStatus.rxStart = true → dig2 = false
  posted : s.irqStatus ≠ {} → ∃ e ∈ s.queue, e.event = .handleIrq

/-- While the state is RX the line is enabled, and a pending cause has its event. -/
def Hears (dig2 : Bool) (s : Phy) : Prop := s.state = .rx → Tuned dig2 s

section Hears

variable {dig2 : Bool} {s t : Phy}

theorem hears_of_ne (other : s.state ≠ .rx) : Hears dig2 s := fun receiving =>
  absurd receiving other

section

variable (h : Hears dig2 s) (state : t.state = .rx → s.state = .rx)
  (enabled : t.irqEnabled = s.irqEnabled) (mask : t.irqMask = s.irqMask)

include h state enabled mask

theorem Hears.same (status : t.irqStatus = s.irqStatus) (queue : s.queue ⊆ t.queue) :
    Hears dig2 t := by
  intro receiving
  have tuned := h (state receiving)
  refine ⟨enabled.trans tuned.enabled, mask.trans tuned.mask, status ▸ tuned.start, ?_⟩
  intro pending
  obtain ⟨e, member, kind⟩ := tuned.posted (status ▸ pending)
  exact ⟨e, queue member, kind⟩

theorem hears_cleared (status : t.irqStatus = {}) : Hears dig2 t := by
  intro receiving
  have tuned := h (state receiving)
  exact ⟨enabled.trans tuned.enabled, mask.trans tuned.mask, by simp [status], by simp [status]⟩

end

theorem hears_txStartHandler (h : Hears dig2 s) : Hears dig2 (txStartHandler s) := by
  unfold txStartHandler
  split
  · exact hears_of_ne (by simp)
  · exact h

theorem hears_phyTxPllOn (h : Hears dig2 s) (last : PhyState) (launchNow : Bool) (call : Nat)
    (expired : Bool) : Hears dig2 (phyTxPllOn s last launchNow call expired) := by
  unfold phyTxPllOn
  split
  · exact hears_of_ne state_goBack_ne_rx
  · have taken : Hears dig2 { s with
        lowPower := s.lowPower + 1, accepted := call :: s.accepted, mutex := .free } :=
      h.same id rfl rfl rfl (fun _ => id)
    cases launchNow with
    | false => exact taken
    | true =>
      dsimp only
      rw [if_pos rfl, txStartHandler_mutex]
      exact hears_txStartHandler taken

theorem hears_raise (owned : Owned s) (h : Hears dig2 s) (cause : Cause) (edge : Bool) :
    Hears dig2 (raise s cause edge) := by
  intro receiving
  have state : s.state = .rx := by
    revert receiving
    unfold raise irqHandler post halt
    dsimp only
    repeat' split
    all_goals exact id
  have tuned := h state
  have packet : s.pkt = true := owned.packet (by simp [state, PhyState.active])
  unfold raise
  dsimp only
  split
  · rename_i shown
    have start : (s.irqStatus.set cause).rxStart = true → dig2 = false := by
      cases cause with
      | rxStart => simpa [tuned.mask, Irq.has] using fun _ => shown
      | trxEnd => exact tuned.start
    split
    · simp only [irqHandler, packet]
      exact ⟨tuned.enabled, tuned.mask, start, fun _ => ⟨⟨.handleIrq, s.op⟩, by simp [post], rfl⟩⟩
    · rename_i silent
      -- The line was high already, so an event for the earlier cause is still queued.
      have pending : s.irqStatus ≠ {} := by
        intro clear
        exact silent ⟨tuned.enabled, .inl clear⟩
      exact ⟨tuned.enabled, tuned.mask, start, fun _ => tuned.posted pending⟩
  · exact { tuned with }

theorem hears_outcome {e} {rest} (h : Hears dig2 s)
    (queue : s.queue = e :: rest) (outcome : Outcome dig2 { s with queue := rest } e t) :
    t.halted = true ∨ Hears dig2 t := by
  cases outcome with
  | ignored other =>
    refine .inr fun receiving => ?_
    have tuned := h receiving
    refine { tuned with posted := fun pending => ?_ }
    obtain ⟨e', member, kind⟩ := tuned.posted pending
    rw [queue, List.mem_cons] at member
    obtain rfl | later := member
    · exact absurd kind other
    · exact ⟨e', later, kind⟩
  | read | fetches => exact .inr (hears_cleared h id rfl rfl rfl)
  | halts _ _ _ _ _ eq => obtain rfl | rfl := eq <;> exact .inl rfl
  | listens => exact .inr fun _ => ⟨rfl, rfl, by simp [listening], by simp [listening]⟩
  | times | ends | closes => exact .inr (hears_of_ne (by simp [complete, idle]))

theorem hears_direct {op} (h : Hears dig2 s)
    (outcome : Outcome dig2 { s with starting := s.starting - 1 } ⟨.startRx, op⟩ t) :
    t.halted = true ∨ Hears dig2 t := by
  cases outcome with
  | ignored => exact .inr (h.same id rfl rfl rfl (fun _ => id))
  | halts _ _ _ _ _ eq => obtain rfl | rfl := eq <;> exact .inl rfl
  | listens => exact .inr fun _ => ⟨rfl, rfl, by simp [listening], by simp [listening]⟩
  | read kind | times kind | ends kind | closes _ kind | fetches kind => cases kind

end Hears

variable {s : Phy}

theorem phyRx_cases (now rxTime timeoutTime : UInt32) (pkt notify : Bool) :
    (phyRx s now rxTime timeoutTime pkt notify).2 = s ∨
      (phyRx s now rxTime timeoutTime pkt notify).2 = halt s ∨
      s.state.resting ∧ (phyRx s now rxTime timeoutTime pkt notify).2.state ≠ .rx := by
  obtain ⟨refused, _⟩ | stores := phyRx_stores (s := s) now rxTime timeoutTime pkt notify
  · have refused : (phyRx s now rxTime timeoutTime pkt notify).2 = s ∨
        (phyRx s now rxTime timeoutTime pkt notify).2 = halt s := by simpa using refused
    exact refused.imp_right .inl
  · exact .inr (.inr ⟨stores.resting, stores.waits⟩)

theorem phyTx_cases (now txTime : UInt32) (length : Option UInt8) (notify : Bool) :
    (phyTx s now txTime length notify).2 = s ∨
      s.state.resting ∧ (phyTx s now txTime length notify).2.state ≠ .rx := by
  obtain ⟨refused, _⟩ | stores := phyTx_stores (s := s) now txTime length notify
  · exact .inl refused
  · exact .inr ⟨stores.resting, stores.waits⟩

theorem state_phyMeasured (ed rxOnExpired resultExpired : Bool) :
    (phyMeasured s ed rxOnExpired resultExpired).state = s.state := by
  cases ed <;> cases rxOnExpired <;> cases resultExpired <;> rfl

theorem hears_step {dig2} {t} {a} (balanced : Balanced s) (owned : Owned s)
    (h : Hears dig2 s) (hs : step dig2 s a = some t) : t.halted = true ∨ Hears dig2 t := by
  cases step_change hs with
  | reset => exact .inr (hears_of_ne (by simp [phyReset, reset, sleep]))
  | sleep => exact .inr (hears_of_ne (by simp [phySleep, sleep]))
  | idle => exact .inr (hears_of_ne (by simp [phyIdle, idle]))
  | rx now rxTime timeoutTime pkt notify =>
    obtain same | halts | other := phyRx_cases (s := s) now rxTime timeoutTime pkt notify
    · rw [same]
      exact .inr h
    · rw [halts]
      exact .inl rfl
    · exact .inr (hears_of_ne other.2)
  | tx now txTime length notify =>
    obtain same | other := phyTx_cases (s := s) now txTime length notify
    · rw [same]
      exact .inr h
    · exact .inr (hears_of_ne other.2)
  | measure ed =>
    unfold phyMeasure
    split
    · exact .inr (hears_of_ne (resting_ne_rx ‹_›))
    · exact .inr h
  | jam =>
    unfold phyJam
    split
    · exact .inr (hears_of_ne (by simp))
    · exact .inr h
  | set => exact .inr h
  | direct _ _ _ _ outcome => exact hears_direct h outcome
  | rxOn | call => exact .inr (h.same id rfl rfl rfl (fun _ => id))
  | pllOn last launchNow call expired => exact .inr (hears_phyTxPllOn h last launchNow call expired)
  | measured ed rxOnExpired resultExpired held =>
    refine .inr (hears_of_ne ?_)
    rw [state_phyMeasured]
    exact resting_ne_rx (balanced.measure held).2
  | alarm timer =>
    obtain ⟨handler, op⟩ := timer
    cases handler with
    | rxStartHandler => exact .inr (h.same id rfl rfl rfl (by simp [alarm, post]))
    | txStartHandler => exact .inr (hears_txStartHandler h)
    | rxTimeoutHandler => exact .inr (h.same id rfl rfl rfl (by simp [alarm, post]))
  | capture =>
    unfold dig2CaptureHandler
    split
    · exact .inl rfl
    · exact .inr (h.same id rfl rfl rfl (fun _ => id))
  | fifoReadDone => exact .inr (h.same id rfl rfl rfl (by simp [post]))
  | raise cause edge => exact .inr (hears_raise owned h cause edge)
  | event _ _ _ e rest _ _ _ queue _ outcome => exact hears_outcome h queue outcome

theorem hears_reach {dig2} {t} (run : Reach (step dig2) init t)
    (running : t.halted = false) : Hears dig2 t := by
  have hears : t.halted = true ∨ Hears dig2 t := by
    refine run.invariant_of (fun t => Balanced t ∧ Owned t)
      (fun t => t.halted = true ∨ Hears dig2 t)
      (fun t run => ⟨balanced_reach run, owned_reach run⟩) ?_ (.inr (hears_of_ne (by simp [init])))
    intro s a t known h _ hs
    exact hears_step known.1 known.2 (h.resolve_left (by simp [step_running hs])) hs
  exact hears.resolve_left (by simp [running])

/-- Nobody cancels the operation, no API call finds the PHY at rest, and none passes NULL to
`phy_rx`, which halts. -/
def Undisturbed (s : Phy) : Action → Prop
  | .phyReset | .phySleep | .phyIdle => False
  | .phyRx _ _ _ pkt _ => s.state.active ∧ pkt
  | .phyTx .. | .phyMeasure _ | .phyJam | .phySet => s.state.active
  | _ => True

def Cause.other : Cause → Cause
  | .rxStart => .trxEnd
  | .trxEnd => .rxStart

/-- A cause that shows is raised only once the other one has been read. -/
def Apart (s : Phy) : Action → Prop
  | .raise cause _ => s.irqMask.has cause → s.irqStatus.has cause.other = false
  | _ => True

/-- `handle_rx_end` runs more than 500 ticks after the transfer began, and halts. -/
def Action.late : Action → Bool
  | .event _ _ slow => slow
  | _ => false

/-- The schedules on which a frame end is taken. -/
def Served (s : Phy) (a : Action) : Prop := Undisturbed s a ∧ Apart s a ∧ a.late = false

instance (s : Phy) : DecidablePred (Undisturbed s)
  | .phyReset | .phySleep | .phyIdle | .phyRx .. | .phyTx .. | .phyMeasure _ | .phyJam | .phySet
  | .startRx | .rxOn | .pllOn _ | .measured .. | .alarm | .dig2Capture | .fifoReadDone
  | .raise .. | .event .. | .call => by
    dsimp only [Undisturbed]
    infer_instance

instance (s : Phy) : DecidablePred (Apart s)
  | .phyReset | .phySleep | .phyIdle | .phyRx .. | .phyTx .. | .phyMeasure _ | .phyJam | .phySet
  | .startRx | .rxOn | .pllOn _ | .measured .. | .alarm | .dig2Capture | .fifoReadDone
  | .raise .. | .event .. | .call => by
    dsimp only [Apart]
    infer_instance

instance (s : Phy) : DecidablePred (Served s) := fun _ => instDecidableAnd

structure Quiescent (s : Phy) : Prop where
  free : s.mutex = .free
  queue : s.queue = []
  fifo : s.fifo = none
  calling : s.calling = none

def Work (s : Phy) : Prop :=
  s.fifo ≠ none ∨ (∃ e ∈ s.queue, e.event = .handleRxEnd) ∨ s.irqStatus = { trxEnd := true }

/-- The radio is off, so it raises nothing and captures nothing. -/
def Rests (s : Phy) : Prop := s.state = .idle ∧ s.radio = .off

/-- The reception `s₀` on the way from a frame end to its handler call. -/
inductive Progress (s₀ s : Phy) : Prop
  | receiving : s.state = .rx → s.calling = none → s.handler = s₀.handler → s.op = s₀.op →
      s.log = s₀.log → Work s → Progress s₀ s
  | ended (c : Completion) : Rests s → s.calling = some c → c.op = s₀.op →
      s.handler = s₀.handler → s.log = s₀.log → Progress s₀ s
  | called (c : Completion) : Rests s → s.calling = none → c.op = s₀.op →
      s.log = s₀.handler.toList.map (⟨·, c⟩) ++ s₀.log → Progress s₀ s

structure Still (s t : Phy) : Prop where
  state : t.state = s.state
  calling : t.calling = s.calling
  handler : t.handler = s.handler
  op : t.op = s.op
  log : t.log = s.log
  halted : t.halted = s.halted

section Progress

variable {dig2 : Bool} {s₀ s t : Phy} {a : Action}

theorem raise_shown {cause} (edge : Bool) (packet : s.pkt = true)
    (shown : s.irqMask.has cause = true) :
    ∃ more : List Posted, (more = [] ∨ more = [⟨.handleIrq, s.op⟩]) ∧
      raise s cause edge = { s with
        radio := if s.radio = Mode.busyTx then .pllOn else s.radio
        irqStatus := s.irqStatus.set cause
        irqOp := if cause = Cause.trxEnd then s.op else s.irqOp
        queue := s.queue ++ more } := by
  by_cases rises : s.irqEnabled ∧ (s.irqStatus = {} ∨ edge)
  · exact ⟨[⟨.handleIrq, s.op⟩], .inr rfl, by simp [raise, shown, rises, irqHandler, packet, post]⟩
  · exact ⟨[], .inl rfl, by simp [raise, shown, rises]⟩

theorem still_raise (packet : s.pkt = true) (cause : Cause) (edge : Bool) :
    Still s (raise s cause edge) := by
  by_cases shown : s.irqMask.has cause = true
  · obtain ⟨_, _, eq⟩ := raise_shown edge packet shown
    rw [eq]
    exact ⟨rfl, rfl, rfl, rfl, rfl, rfl⟩
  · simp only [raise, shown]
    exact ⟨rfl, rfl, rfl, rfl, rfl, rfl⟩

/-- An event that finds the PHY idle does nothing, and none halts. -/
theorem rests_outcome {r} {e} (outcome : Outcome dig2 r e t) (rest : Rests r) :
    Still r t ∧ t.radio = r.radio := by
  have rest : r.state = .idle := rest.1
  cases outcome with
  | ignored | read => exact ⟨⟨rfl, rfl, rfl, rfl, rfl, rfl⟩, rfl⟩
  | halts _ active => simp [rest, PhyState.active] at active
  | listens _ state | times _ state | ends _ state | closes _ _ _ state | fetches _ _ state =>
    simp [rest] at state

theorem rests_step (balanced : Balanced s) (rest : Rests s) (alone : Undisturbed s a)
    (hs : step dig2 s a = some t) :
    (∃ c, s.calling = some c ∧ t = callHandler s c) ∨ Still s t ∧ Rests t := by
  have notActive : ¬ s.state.active := by simp [rest.1, PhyState.active]
  have same : Still s s := ⟨rfl, rfl, rfl, rfl, rfl, rfl⟩
  cases step_change hs with
  | reset | sleep | idle => exact alone.elim
  | rx => exact absurd alone.1 notActive
  | tx | measure | jam | set => exact absurd alone notActive
  | direct _ _ _ _ outcome =>
    obtain ⟨still, radio⟩ := rests_outcome outcome rest
    exact .inr ⟨{ still with }, still.state.trans rest.1, radio.trans rest.2⟩
  | rxOn | fifoReadDone => exact .inr ⟨{ same with }, rest⟩
  | pllOn last launchNow call expired held =>
    simpa [rest.1] using (balanced.tx held).2.1
  | measured ed rxOnExpired resultExpired =>
    cases ed <;> cases rxOnExpired <;> cases resultExpired <;>
      exact .inr ⟨{ same with }, rest.1, by simp [phyMeasured, rest.2]⟩
  | alarm timer =>
    obtain ⟨handler, op⟩ := timer
    cases handler with
    | rxStartHandler | rxTimeoutHandler => exact .inr ⟨{ same with }, rest⟩
    | txStartHandler =>
      have unmoved : txStartHandler s = s := by simp [txStartHandler, rest.1]
      simp only [alarm, unmoved]
      exact .inr ⟨same, rest⟩
  | capture _ radio => simp [rest.2] at radio
  | raise cause edge raises => simp [rest.2, Mode.raises] at raises
  | event _ _ _ _ _ _ _ _ _ _ outcome =>
    obtain ⟨still, radio⟩ := rests_outcome outcome rest
    exact .inr ⟨{ still with }, still.state.trans rest.1, radio.trans rest.2⟩
  | call c pending => exact .inl ⟨c, pending, rfl⟩

theorem Work.mono (h : Work s) (fifo : t.fifo = s.fifo) (queue : s.queue ⊆ t.queue)
    (status : t.irqStatus = s.irqStatus) : Work t := by
  obtain reading | ⟨e, member, kind⟩ | ended := h
  · exact .inl (fifo ▸ reading)
  · exact .inr (.inl ⟨e, queue member, kind⟩)
  · exact .inr (.inr (status.trans ended))

theorem work_irqHandler (h : Work s) : Work (irqHandler s) := by
  unfold irqHandler
  split
  · exact h.mono rfl (fun _ => id) rfl
  · exact h.mono rfl (by simp [post]) rfl

theorem work_raise (h : Work s) (cause : Cause) (edge : Bool)
    (apart : Apart s (.raise cause edge)) : Work (raise s cause edge) := by
  have status : s.irqStatus = { trxEnd := true } → s.irqMask.has cause →
      s.irqStatus.set cause = { trxEnd := true } := by
    intro ended shown
    have other := apart shown
    cases cause with
    | rxStart => simp [Cause.other, Irq.has, ended] at other
    | trxEnd => simp [Irq.set, ended]
  unfold raise
  dsimp only
  split
  · rename_i shown
    have set : Work { s with
        radio := if s.radio = Mode.busyTx then .pllOn else s.radio
        irqStatus := s.irqStatus.set cause
        irqOp := if cause = Cause.trxEnd then s.op else s.irqOp } :=
      h.imp_right (Or.imp_right fun ended => status ended shown)
    split
    · exact work_irqHandler set
    · exact set
  · exact h.mono rfl (fun _ => id) rfl

theorem runEvent_running {e} (crcValid lengthValid : Bool) (receiving : s.state = .rx)
    (packet : s.pkt = true) (running : s.halted = false) :
    (runEvent dig2 s e crcValid lengthValid false).halted = false := by
  unfold runEvent
  split
  · simp [startRx, receiving, running]
  · simp [handleRxTimeout, receiving, complete, idle, running]
  · simp [handleRxEnd, receiving, packet, complete, idle, running]
  · simp only [handleIrq, handleRxStart, receiving, packet]
    repeat' split
    all_goals first | exact running | simp_all

theorem progress_event {e} {rest} (receiving : s.state = .rx)
    (handler : s.handler = s₀.handler) (calling : s.calling = none) (op : s.op = s₀.op)
    (log : s.log = s₀.log) (work : Work s) (queue : s.queue = e :: rest)
    (running : t.halted = false) (outcome : Outcome dig2 { s with queue := rest } e t) :
    Progress s₀ t := by
  have kept (other : e.event ≠ .handleRxEnd) (posted : ∃ e ∈ s.queue, e.event = .handleRxEnd) :
      ∃ e ∈ rest, e.event = .handleRxEnd := by
    obtain ⟨e', member, kind⟩ := posted
    rw [queue, List.mem_cons] at member
    obtain rfl | later := member
    · exact absurd kind other
    · exact ⟨e', later, kind⟩
  cases outcome with
  | ignored other unexpected =>
    have notEnd : e.event ≠ .handleRxEnd := by
      intro kind
      simp [kind, Expected, receiving] at unexpected
    exact .receiving receiving calling handler op log
      (work.imp_right (Or.imp_left (kept notEnd)))
  | read kind unexpected =>
    have notEnded : s.irqStatus ≠ { trxEnd := true } := by
      intro ended
      simp [Expected, receiving, ended] at unexpected
    obtain reading | posted | ended := work
    · exact .receiving receiving calling handler op log (.inl reading)
    · exact .receiving receiving calling handler op log
        (.inr (.inl (kept (by simp [kind]) posted)))
    · exact absurd ended notEnded
  | halts _ _ _ _ _ eq => obtain rfl | rfl := eq <;> simp [halt] at running
  | listens _ waiting => simp [receiving] at waiting
  | times | ends | closes => exact .ended _ ⟨rfl, rfl⟩ rfl op handler log
  | fetches => exact .receiving receiving calling handler op log (.inl (by simp [fetching]))

theorem receiving_step (balanced : Balanced s) (packet : s.pkt = true) (receiving : s.state = .rx)
    (calling : s.calling = none) (handler : s.handler = s₀.handler) (op : s.op = s₀.op)
    (log : s.log = s₀.log) (work : Work s) (served : Served s a)
    (hs : step dig2 s a = some t) : t.halted = false ∧ Progress s₀ t := by
  obtain ⟨alone, apart, timely⟩ := served
  have running : s.halted = false := step_running hs
  have busy : ¬ s.state.resting := by simp [receiving, PhyState.resting]
  have stays : Progress s₀ s := .receiving receiving calling handler op log work
  cases step_change hs with
  | reset | sleep | idle => exact alone.elim
  | rx now rxTime timeoutTime pkt notify =>
    have refused : (phyRx s now rxTime timeoutTime pkt notify).2 = s := by
      simp [phyRx, alone.2, busy]
    rw [refused]
    exact ⟨running, stays⟩
  | tx now txTime length notify =>
    obtain same | other := phyTx_cases (s := s) now txTime length notify
    · rw [same]
      exact ⟨running, stays⟩
    · exact absurd other.1 busy
  | measure ed =>
    rw [phyMeasure, if_neg busy]
    exact ⟨running, stays⟩
  | jam =>
    rw [phyJam, if_neg busy]
    exact ⟨running, stays⟩
  | set => exact ⟨running, stays⟩
  | direct _ _ _ _ outcome =>
    cases outcome with
    | ignored => exact ⟨running, .receiving receiving calling handler op log work⟩
    | halts waiting | listens _ waiting => simp [Expected, receiving] at waiting
    | read kind | times kind | ends kind | closes _ kind | fetches kind => cases kind
  | rxOn => exact ⟨running, .receiving receiving calling handler op log work⟩
  | pllOn last launchNow call expired held =>
    simpa [receiving] using (balanced.tx held).2.1
  | measured ed rxOnExpired resultExpired held =>
    exact absurd (balanced.measure held).2 busy
  | alarm timer =>
    obtain ⟨alarm_, op_⟩ := timer
    cases alarm_ with
    | rxStartHandler | rxTimeoutHandler =>
      exact ⟨running, .receiving receiving calling handler op log
        (work.mono rfl (by simp [alarm, post]) rfl)⟩
    | txStartHandler =>
      have same : txStartHandler s = s := by simp [txStartHandler, receiving]
      simp only [alarm, same]
      exact ⟨running, stays⟩
  | capture =>
    rw [dig2CaptureHandler, if_neg (by simp [receiving])]
    exact ⟨running, .receiving receiving calling handler op log work⟩
  | fifoReadDone reader =>
    exact ⟨running, .receiving receiving calling handler op log
      (.inr (.inl ⟨⟨.handleRxEnd, reader⟩, by simp [post], rfl⟩))⟩
  | raise cause edge =>
    have still := still_raise packet cause edge
    exact ⟨still.halted.trans running, .receiving (still.state.trans receiving)
      (still.calling.trans calling) (still.handler.trans handler) (still.op.trans op)
      (still.log.trans log) (work_raise work cause edge apart)⟩
  | event crcValid lengthValid slow e rest _ _ _ queue ran outcome =>
    have quick : slow = false := timely
    have runs : t.halted = false := by
      rw [ran, quick]
      exact runEvent_running crcValid lengthValid receiving packet running
    exact ⟨runs, progress_event receiving handler calling op log work queue runs outcome⟩
  | call c pending => simp [calling] at pending

theorem progress_step (balanced : Balanced s) (owned : Owned s) (h : Progress s₀ s)
    (served : Served s a) (hs : step dig2 s a = some t) : t.halted = false ∧ Progress s₀ t := by
  have running : s.halted = false := step_running hs
  cases h with
  | receiving receiving calling handler op log work =>
    have packet := owned.packet (by simp [receiving, PhyState.active])
    exact receiving_step balanced packet receiving calling handler op log work served hs
  | ended c rest pending op handler log =>
    obtain ⟨c', pending', rfl⟩ | ⟨still, rest⟩ := rests_step balanced rest served.1 hs
    · obtain rfl : c = c' := by simpa [pending] using pending'
      refine ⟨running, .called c rest rfl op ?_⟩
      cases given : s₀.handler <;> simp [callHandler, handler, given, log]
    · exact ⟨still.halted.trans running, .ended c rest (still.calling.trans pending) op
        (still.handler.trans handler) (still.log.trans log)⟩
  | called c rest calling op log =>
    obtain ⟨c', pending, rfl⟩ | ⟨still, rest⟩ := rests_step balanced rest served.1 hs
    · simp [calling] at pending
    · exact ⟨still.halted.trans running, .called c rest (still.calling.trans calling) op
        (still.log.trans log)⟩

theorem progress_raise {edge} (receiving : s.state = .rx) (tuned : Tuned dig2 s)
    (packet : s.pkt = true) (calling : s.calling = none)
    (apart : Apart s (.raise .trxEnd edge)) : Progress s (raise s .trxEnd edge) := by
  have shown : s.irqMask.has .trxEnd = true := by simp [tuned.mask, Irq.has]
  have alone : s.irqStatus.rxStart = false := apart shown
  obtain ⟨more, _, eq⟩ := raise_shown edge packet shown
  rw [eq]
  exact .receiving receiving calling rfl rfl rfl (.inr (.inr (by simp [Irq.set, alone])))

theorem Progress.quiescent (h : Progress s₀ t) (hears : Hears dig2 t) (quiet : Quiescent t) :
    t.state = .idle ∧ ∃ c : Completion, c.op = s₀.op ∧
      t.log = s₀.handler.toList.map (⟨·, c⟩) ++ s₀.log := by
  cases h with
  | receiving receiving _ _ _ _ work =>
    obtain reading | ⟨e, member, _⟩ | ended := work
    · exact absurd quiet.fifo reading
    · simp [quiet.queue] at member
    · obtain ⟨e, member, _⟩ := (hears receiving).posted (by simp [ended])
      simp [quiet.queue] at member
  | ended c _ pending => simp [quiet.calling] at pending
  | called c rest _ op log => exact ⟨rest.1, c, op, log⟩

end Progress

section Lost

variable {dig2 : Bool}

structure Plain (s : Phy) : Prop where
  receiving : s.state = .rx
  running : s.halted = false
  free : s.mutex = .free
  fifo : s.fifo = none
  calling : s.calling = none
  queue : ∀ e ∈ s.queue, e.event = .handleIrq ∨ e.event = .startRx

theorem event_lost (dig2 : Bool) {s} {e} {rest} (plain : Plain s)
    (queue : s.queue = e :: rest) (missed : s.irqStatus ≠ { trxEnd := true }) :
    ∃ status, step dig2 s (.event true true false) =
        some { s with queue := rest, irqStatus := status } ∧
      status ≠ { trxEnd := true } := by
  have kind := plain.queue e (by simp [queue])
  have run : step dig2 s (.event true true false) =
      some (runEvent dig2 { s with queue := rest } e true true false) := by
    simp [step, plain.running, plain.calling, queue, inMutex, plain.free]
  obtain irq | start := kind
  · refine ⟨{}, ?_, by simp⟩
    rw [run]
    simp [runEvent, irq, handleIrq, plain.receiving, missed]
  · refine ⟨s.irqStatus, ?_, missed⟩
    rw [run]
    simp [runEvent, start, startRx, plain.receiving]

theorem drains {s} (plain : Plain s) (missed : s.irqStatus ≠ { trxEnd := true }) :
    ∃ t, Run (step dig2) Served s t ∧ Quiescent t ∧ t.halted = false ∧ t.state = .rx ∧
      t.log = s.log := by
  generalize waiting : s.queue = queue
  induction queue generalizing s with
  | nil =>
    exact ⟨s, .start, ⟨plain.free, waiting, plain.fifo, plain.calling⟩, plain.running,
      plain.receiving, rfl⟩
  | cons e rest ih =>
    obtain ⟨status, run, missed⟩ := event_lost dig2 plain waiting missed
    have next : Plain { s with queue := rest, irqStatus := status } := { plain with
      queue := fun e' member => plain.queue e' (by simp [waiting, member]) }
    obtain ⟨t, more, quiet⟩ := ih next missed rfl
    have first : Run (step dig2) Served s { s with queue := rest, irqStatus := status } :=
      .next (.event true true false) .start ⟨trivial, trivial, rfl⟩ run
    exact ⟨t, first.trans more, quiet⟩

theorem plain_raise {s} {cause} {edge} (plain : Plain s)
    (packet : s.pkt = true) (shown : s.irqMask.has cause = true) :
    Plain (raise s cause edge) := by
  obtain ⟨more, post, eq⟩ := raise_shown edge packet shown
  rw [eq]
  refine { plain with queue := fun e member => ?_ }
  obtain old | new := List.mem_append.mp member
  · exact plain.queue e old
  · obtain rfl | rfl := post <;> simp at new
    exact .inl (by rw [new])

end Lost

theorem step_raise {dig2} {u} {cause} {edge}
    (h : step dig2 s (.raise cause edge) = some u) : u = raise s cause edge := by
  cases step_change h with
  | raise => rfl

/-- A frame end raised in RX halts nothing and leads to one handler call and an idle PHY, whatever
the schedule, as long as no cause is raised while the other one is unread and `handle_rx_end` runs
in time; with DIG2 the causes are always apart. With both causes pending, the frame is lost in every
reception that has nothing else under way. -/
theorem frame_completes (dig2 : Bool) :
    (∀ s edge u t, Reach (step dig2) init s → s.state = .rx → s.calling = none →
      Apart s (.raise .trxEnd edge) → step dig2 s (.raise .trxEnd edge) = some u →
      Run (step dig2) Served u t →
      t.halted = false ∧ (Quiescent t → t.state = .idle ∧ ∃ c : Completion, c.op = s.op ∧
        t.log = s.handler.toList.map (⟨·, c⟩) ++ s.log)) ∧
    (dig2 = true → ∀ s a, Reach (step dig2) init s → s.halted = false → s.state = .rx →
      Apart s a) ∧
    (∀ s cause edge u, Reach (step dig2) init s → Plain s →
      step dig2 s (.raise cause edge) = some u → ¬ Apart s (.raise cause edge) →
      ∃ t, Run (step dig2) Served u t ∧ Quiescent t ∧ t.halted = false ∧ t.state = .rx ∧
        t.log = s.log) := by
  refine ⟨?_, ?_, ?_⟩
  · intro s edge u t reach receiving calling apart raised run
    have tuned := hears_reach reach (step_running raised) receiving
    have packet := (owned_reach reach).packet (by simp [receiving, PhyState.active])
    have there : Reach (step dig2) init u := .next _ reach trivial raised
    have start : u.halted = false ∧ Progress s u := by
      rw [step_raise raised]
      exact ⟨(still_raise packet ..).halted.trans (step_running raised),
        progress_raise receiving tuned packet calling apart⟩
    have progress : t.halted = false ∧ Progress s t := by
      refine run.invariant_of (fun v => Balanced v ∧ Owned v)
        (fun t => t.halted = false ∧ Progress s t) (fun v toV =>
          ⟨balanced_reach (there.trans toV.reach), owned_reach (there.trans toV.reach)⟩) ?_ start
      intro v a w known h served hs
      exact progress_step known.1 known.2 h.2 served hs
    exact ⟨progress.1, progress.2.quiescent (hears_reach (there.trans run.reach) progress.1)⟩
  · rintro rfl s a reach running receiving
    have tuned := hears_reach reach running receiving
    cases a with
    | raise cause edge =>
      intro shown
      cases cause with
      | rxStart => simp [tuned.mask, Irq.has] at shown
      | trxEnd =>
        cases started : s.irqStatus.rxStart with
        | false => exact started
        | true => exact absurd (tuned.start started) (by simp)
    | _ => trivial
  · intro s cause edge u reach plain raised both
    have packet := (owned_reach reach).packet (by simp [plain.receiving, PhyState.active])
    obtain ⟨shown, other⟩ : s.irqMask.has cause = true ∧ s.irqStatus.has cause.other = true := by
      simpa [Apart] using both
    rw [step_raise raised]
    obtain ⟨more, _, eq⟩ := raise_shown edge packet shown
    have missed : (raise s cause edge).irqStatus ≠ { trxEnd := true } := by
      cases cause <;> simp_all [Irq.set, Irq.has, Cause.other]
    have log : (raise s cause edge).log = s.log := (still_raise packet cause edge).log
    obtain ⟨t, run, quiet, running, receiving, same⟩ :=
      drains (plain_raise plain packet shown) missed
    exact ⟨t, run, quiet, running, receiving, same.trans log⟩

def started (read : Bool) : Phy :=
  (exec (step false) init ([.phyRx 0 0 0 true true, .startRx, .rxOn, .raise .rxStart true] ++
    if read then [.event true true false] else [])).getD init

theorem frame_completes_read :
    ∃ u t, step false (started true) (.raise .trxEnd true) = some u ∧
      Run (step false) Served u t ∧ t.halted = false ∧ t.state = .idle ∧
      ∃ c : Completion, t.log = [⟨0, c⟩] := by
  have reached : exec (step false) init [.phyRx 0 0 0 true true, .startRx, .rxOn,
      .raise .rxStart true, .event true true false] = some (started true) := by decide +kernel
  have reach : Reach (step false) init (started true) := exec_reach reached
  obtain ⟨u, raised⟩ : ∃ u, step false (started true) (.raise .trxEnd true) = some u :=
    isSome_iff_exists.mp (by decide +kernel)
  have observed : (step false (started true) (.raise .trxEnd true)).bind (fun u =>
      (execIf (step false) Served u
        [.event true true false, .fifoReadDone, .event true true false, .call]).map fun t =>
          decide (t.mutex = .free ∧ t.queue = [] ∧ t.fifo = none ∧ t.calling = none)) =
      some true := by decide +kernel
  rw [raised, bind_some] at observed
  obtain ⟨t, run, seen⟩ := execIf_observe _ _ _ observed
  obtain ⟨free, queue, fifo, calling⟩ := of_decide_eq_true seen
  obtain ⟨running, ends⟩ := (frame_completes false).1 (started true) true u t reach
    (by decide +kernel) (by decide +kernel) (by decide +kernel) raised run
  obtain ⟨rest, c, _, log⟩ := ends ⟨free, queue, fifo, calling⟩
  have before : (started true).handler = some 0 ∧ (started true).log = [] := by decide +kernel
  exact ⟨u, t, raised, run, running, rest, c, by simpa [before] using log⟩

/-- The frame ends before `handle_irq` has read its start: both causes are pending at
the one read, the queue runs empty and the reception goes on without a handler call. -/
theorem frame_lost :
    ∃ u t, Reach (step false) init (started false) ∧ (started false).state = .rx ∧
      step false (started false) (.raise .trxEnd true) = some u ∧
      Run (step false) Served u t ∧ Quiescent t ∧ t.halted = false ∧ t.state = .rx ∧
      t.log = [] := by
  have reached : exec (step false) init [.phyRx 0 0 0 true true, .startRx, .rxOn,
      .raise .rxStart true] = some (started false) := by decide +kernel
  have reach : Reach (step false) init (started false) := exec_reach reached
  obtain ⟨u, raised⟩ : ∃ u, step false (started false) (.raise .trxEnd true) = some u :=
    isSome_iff_exists.mp (by decide +kernel)
  have observed : (step false (started false) (.raise .trxEnd true)).bind (fun u =>
      (execIf (step false) Served u [.event true true false, .event true true false]).map fun t =>
        decide ((t.mutex = .free ∧ t.queue = [] ∧ t.fifo = none ∧ t.calling = none) ∧
          t.halted = false ∧ t.state = .rx ∧ t.log = [])) = some true := by decide +kernel
  rw [raised, bind_some] at observed
  obtain ⟨t, run, seen⟩ := execIf_observe _ _ _ observed
  obtain ⟨⟨free, queue, fifo, calling⟩, lost⟩ := of_decide_eq_true seen
  exact ⟨u, t, reach, by decide +kernel, raised, run, ⟨free, queue, fifo, calling⟩, lost⟩

end PhyRf2xx
