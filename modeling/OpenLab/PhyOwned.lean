import OpenLab.PhyLowPower

/-!
# What the interrupts of the PHY act for

An armed alarm, a running transfer, the stored handler and the causes in IRQ_STATUS all belong to
the operation in progress.
-/

namespace PhyRf2xx

open Schedules

structure Owned (s : Phy) : Prop where
  timer : ∀ handler op, s.timer = some (handler, op) → s.state.active ∧ op = s.op
  fifo : ∀ op, s.fifo = some op → s.state = .rx ∧ op = s.op
  frame : s.state.active → s.state ≠ .rxWait → s.irqStatus.trxEnd → s.irqOp = s.op
  handler : s.state.active → s.handler = none ∨ s.handler = some s.op
  accepted : s.state.active →
    s.op ∈ s.accepted ∨ ∃ last launchNow, s.mutex = .tx last launchNow s.op
  sending : ∀ last launchNow call, s.mutex = .tx last launchNow call → call = s.op
  receiving : s.mutex = .startRx → s.state = .rx
  packet : s.state.active → s.pkt
  current : s.state.active → s.op < s.calls
  known : ∀ call ∈ s.accepted, call < s.calls

section Owned

variable {s t : Phy}

theorem owned_of_rest (timer : s.timer = none) (fifo : s.fifo = none)
    (rest : s.state.active = false) (free : s.mutex = .free)
    (known : ∀ call ∈ s.accepted, call < s.calls) : Owned s where
  timer := by simp [timer]
  fifo := by simp [fifo]
  frame := by simp [rest]
  handler := by simp [rest]
  accepted := by simp [rest]
  sending := by simp [free]
  receiving := by simp [free]
  packet := by simp [rest]
  current := by simp [rest]
  known := known

section

variable (free : s.mutex = .free) (known : ∀ call ∈ s.accepted, call < s.calls)

include free known

theorem owned_idle : Owned (idle s) := owned_of_rest rfl rfl rfl free known

theorem owned_sleep : Owned (sleep s) := owned_of_rest rfl rfl rfl free known

theorem owned_goBack : Owned (goBack s) := by
  unfold goBack
  split
  · exact owned_sleep free known
  · exact owned_idle free known

end

theorem owned_of_start {notify}
    (timer : ∀ handler op, s.timer = some (handler, op) → op = s.op)
    (fifo : s.fifo = none) (active : s.state.active)
    (clear : s.state = .rxWait ∨ s.irqStatus = {}) (handler : s.handler = stored notify s.op)
    (accepted : s.op ∈ s.accepted ∨ ∃ last launchNow, s.mutex = .tx last launchNow s.op)
    (sending : ∀ last launchNow call, s.mutex = .tx last launchNow call → call = s.op)
    (receiving : s.mutex ≠ .startRx) (packet : s.pkt) (current : s.op < s.calls)
    (known : ∀ call ∈ s.accepted, call < s.calls) : Owned s where
  timer handler op armed := ⟨active, timer handler op armed⟩
  fifo := by simp [fifo]
  frame _ notWaiting ended := by
    obtain waiting | clear := clear
    · exact absurd waiting notWaiting
    · simp [clear] at ended
  handler _ := by cases notify <;> simp [handler, stored]
  accepted _ := accepted
  sending := sending
  receiving held := absurd held receiving
  packet _ := packet
  current _ := current
  known := known

theorem Owned.timer_eq_none (h : Owned s) (rest : s.state.active = false) : s.timer = none := by
  cases armed : s.timer with
  | none => rfl
  | some timer => simp [(h.timer timer.1 timer.2 armed).1] at rest

theorem Owned.fifo_eq_none (h : Owned s) (other : s.state ≠ .rx) : s.fifo = none := by
  cases reading : s.fifo with
  | none => rfl
  | some op => exact absurd (h.fifo op reading).1 other

theorem resting_ne_rx {state : PhyState} (h : state.resting) : state ≠ .rx := by
  rintro rfl
  simp [PhyState.resting] at h

theorem owned_phyRx (free : s.mutex = .free) (h : Owned s) (now rxTime timeoutTime : UInt32)
    (pkt notify : Bool) : Owned (phyRx s now rxTime timeoutTime pkt notify).2 := by
  have known (call : Nat) (member : call ∈ s.accepted) : call < s.calls + 1 :=
    Nat.lt_succ_of_lt (h.known call member)
  unfold phyRx
  split
  · exact { h with }
  split
  · exact h
  rename_i resting
  have resting : s.state.resting := by simpa using resting
  have timer := h.timer_eq_none (not_active_of_resting resting)
  have fifo := h.fifo_eq_none (resting_ne_rx resting)
  split
  · exact owned_goBack free known
  split
  · exact owned_of_start (by simp) fifo rfl (.inl rfl) rfl (.inl (by simp)) (by simp [free])
      (by simp [free]) rfl (by simp) (by simpa using known)
  · exact owned_of_start (by simp [timer]) fifo rfl (.inl rfl) rfl (.inl (by simp))
      (by simp [free]) (by simp [free]) rfl (by simp) (by simpa using known)

theorem owned_phyTx (free : s.mutex = .free) (h : Owned s) (now txTime : UInt32)
    (length : Option UInt8) (notify : Bool) : Owned (phyTx s now txTime length notify).2 := by
  have known (call : Nat) (member : call ∈ s.accepted) : call < s.calls + 1 :=
    Nat.lt_succ_of_lt (h.known call member)
  unfold phyTx
  split
  · exact h
  split
  · exact h
  split
  · exact h
  rename_i resting
  have resting : s.state.resting := by simpa using resting
  have timer := h.timer_eq_none (not_active_of_resting resting)
  have fifo := h.fifo_eq_none (resting_ne_rx resting)
  split
  · split
    · exact owned_of_start (by simp) fifo rfl (.inr rfl) rfl (.inr ⟨_, _, rfl⟩) (by simp)
        (by simp) rfl (by simp) known
    · exact owned_goBack free known
  · exact owned_of_start (by simp [timer]) fifo rfl (.inr rfl) rfl (.inr ⟨_, _, rfl⟩) (by simp)
      (by simp) rfl (by simp) known

theorem owned_txStartHandler (h : Owned s) : Owned (txStartHandler s) := by
  unfold txStartHandler
  split
  · rename_i waiting
    have active : s.state.active := by simp [waiting, PhyState.active]
    have fifo := h.fifo_eq_none (by simp [waiting])
    exact { h with
      timer := by simp
      fifo := by simp [fifo]
      frame := fun _ _ => h.frame active (by simp [waiting])
      handler := fun _ => h.handler active
      accepted := fun _ => h.accepted active
      receiving := fun held => by simp [h.receiving held] at waiting
      packet := fun _ => h.packet active
      current := fun _ => h.current active }
  · exact h

theorem goBack_mutex (mutex : Mutex) :
    { goBack s with mutex := mutex } = goBack { s with mutex := mutex } := by
  unfold goBack
  split <;> rfl

theorem txStartHandler_mutex (mutex : Mutex) :
    { txStartHandler s with mutex := mutex } = txStartHandler { s with mutex := mutex } := by
  unfold txStartHandler
  split <;> rfl

theorem owned_phyTxPllOn {last} {launchNow} {call} (h : Owned s)
    (held : s.mutex = .tx last launchNow call) (active : s.state.active) (expired : Bool) :
    Owned (phyTxPllOn s last launchNow call expired) := by
  have current := h.sending _ _ _ held
  unfold phyTxPllOn
  split
  · rw [goBack_mutex]
    exact owned_goBack rfl h.known
  · have taken : Owned { s with
        lowPower := s.lowPower + 1, accepted := call :: s.accepted, mutex := .free } := { h with
      accepted := fun _ => .inl (by simp [current])
      sending := by simp
      receiving := by simp
      known := by simpa [current] using ⟨h.current active, h.known⟩ }
    cases launchNow with
    | false => exact taken
    | true =>
      dsimp only
      rw [if_pos rfl, txStartHandler_mutex]
      exact owned_txStartHandler taken

theorem owned_phyMeasure (h : Owned s) (ed : Bool) : Owned (phyMeasure s ed) := by
  unfold phyMeasure
  split
  · rename_i resting
    exact { h with
      accepted := fun active => by simp [not_active_of_resting resting] at active
      sending := by simp
      receiving := by simp }
  · exact h

theorem owned_phyMeasured (h : Owned s) (resting : s.state.resting)
    (ed rxOnExpired resultExpired : Bool) :
    Owned (phyMeasured s ed rxOnExpired resultExpired) := by
  have rest := not_active_of_resting resting
  have timer := h.timer_eq_none rest
  have fifo := h.fifo_eq_none (resting_ne_rx resting)
  cases ed <;> cases rxOnExpired <;> cases resultExpired <;>
    exact owned_of_rest timer fifo rest rfl h.known

theorem owned_phyJam (free : s.mutex = .free) (h : Owned s) : Owned (phyJam s) := by
  unfold phyJam
  split
  · rename_i resting
    exact owned_of_rest (h.timer_eq_none (not_active_of_resting resting))
      (h.fifo_eq_none (resting_ne_rx resting)) rfl free h.known
  · exact h

theorem owned_outcome {dig2} {e} (free : s.mutex = .free) (h : Owned s)
    (outcome : Outcome dig2 s e t) : Owned t := by
  cases outcome with
  | ignored => exact h
  | read => exact { h with frame := by simp }
  | halts _ _ _ _ _ eq =>
    obtain rfl | rfl := eq
    · exact { h with }
    · exact { h with frame := by simp [halt] }
  | listens _ waiting =>
    have active : s.state.active := by simp [waiting, PhyState.active]
    have fifo := h.fifo_eq_none (by simp [waiting])
    have accepted : s.op ∈ s.accepted := by simpa [free] using h.accepted active
    exact {
      timer := fun handler op armed => ⟨rfl, (h.timer handler op armed).2⟩
      fifo := by simp [listening, fifo]
      frame := by simp [listening]
      handler := fun _ => h.handler active
      accepted := fun _ => .inl accepted
      sending := by simp [listening]
      receiving := fun _ => rfl
      packet := fun _ => h.packet active
      current := fun _ => h.current active
      known := h.known }
  | times | ends | closes => exact owned_of_rest rfl rfl rfl free h.known
  | fetches _ ended receiving =>
    have owner : s.irqOp = s.op :=
      h.frame (by simp [receiving, PhyState.active]) (by simp [receiving]) (by simp [ended])
    exact { h with
      fifo := fun op reading => ⟨receiving, (Option.some.inj reading).symm.trans owner⟩
      frame := by simp [fetching] }

theorem owned_irqHandler (h : Owned s) : Owned (irqHandler s) := by
  unfold irqHandler
  split <;> exact { h with }

theorem owned_raise (h : Owned s) (cause : Cause) (edge : Bool) : Owned (raise s cause edge) := by
  unfold raise
  dsimp only
  split
  · have set : Owned { s with
        radio := if s.radio = Mode.busyTx then .pllOn else s.radio
        irqStatus := s.irqStatus.set cause
        irqOp := if cause = Cause.trxEnd then s.op else s.irqOp } := { h with
      frame := by
        intro active notWaiting ended
        cases cause with
        | rxStart => exact h.frame active notWaiting ended
        | trxEnd => rfl }
    split
    · exact owned_irqHandler set
    · exact set
  · exact { h with }

end Owned

theorem owned_step {dig2} {s t} {a} (balanced : Balanced s) (h : Owned s)
    (hs : step dig2 s a = some t) : Owned t := by
  cases step_change hs with
  | reset free | sleep free | idle free => exact owned_of_rest rfl rfl rfl free h.known
  | rx now rxTime timeoutTime pkt notify free => exact owned_phyRx free h ..
  | tx now txTime length notify free => exact owned_phyTx free h ..
  | measure ed => exact owned_phyMeasure h ed
  | jam free => exact owned_phyJam free h
  | set => exact h
  | direct _ op free _ outcome =>
    exact owned_outcome (s := { s with starting := s.starting - 1 }) free { h with } outcome
  | rxOn held =>
    have active : s.state.active := by simp [h.receiving held, PhyState.active]
    have accepted : s.op ∈ s.accepted := by simpa [held] using h.accepted active
    exact { h with
      timer := by
        intro handler op armed
        refine ⟨active, ?_⟩
        simp only [startRxOn] at armed ⊢
        split at armed
        · exact (Prod.mk.inj (Option.some.inj armed)).2.symm
        · cases armed
      accepted := fun _ => .inl accepted
      sending := by simp [startRxOn]
      receiving := by simp [startRxOn] }
  | pllOn last launchNow call expired held =>
    refine owned_phyTxPllOn h held ?_ expired
    obtain waiting | sending := (balanced.tx held).2.1 <;> simp [PhyState.active, *]
  | measured ed rxOnExpired resultExpired held =>
    exact owned_phyMeasured h (balanced.measure held).2 ..
  | alarm timer =>
    obtain ⟨handler, op⟩ := timer
    cases handler with
    | rxStartHandler => exact { h with }
    | txStartHandler => exact owned_txStartHandler h
    | rxTimeoutHandler => exact { h with timer := by simp [alarm, post] }
  | capture =>
    unfold dig2CaptureHandler
    split
    · exact { h with }
    · exact { h with timer := by simp }
  | fifoReadDone => exact { h with fifo := by simp [post] }
  | raise cause edge => exact owned_raise h cause edge
  | event _ _ _ e rest _ free _ _ _ outcome =>
    exact owned_outcome (s := { s with queue := rest }) free { h with } outcome
  | call => exact { h with }

theorem owned_reach {dig2} {t} (run : Reach (step dig2) init t) : Owned t :=
  run.invariant_of Balanced Owned (fun _ => balanced_reach)
    (fun _ _ _ balanced h _ hs => owned_step balanced h hs)
    (owned_of_rest rfl rfl rfl rfl (by simp [init]))

end PhyRf2xx
