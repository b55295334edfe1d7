import OpenLab.PhyRf2xx

/-!
# What one step of the PHY can do

The inversion of the step function: every invariant of the PHY is proved by cases on `Change`.
-/

namespace PhyRf2xx

def listening (dig2 : Bool) (s : Phy) : Phy :=
  { s with
    state := .rx
    irqMask := { rxStart := !dig2, trxEnd := true }
    irqStatus := {}
    irqEnabled := true
    dig2Enabled := dig2 || s.dig2Enabled
    radio := .rxOn
    mutex := .startRx }

def fetching (s : Phy) : Phy :=
  { s with irqStatus := {}, radio := .off, fifo := some s.irqOp }

def Expected (s : Phy) : Event → Prop
  | .startRx => s.state = .rxWait
  | .handleRxTimeout => s.state = .rxWait ∨ s.state = .rx
  | .handleRxEnd => s.state = .rx
  | .handleIrq => (s.state = .rx ∨ s.state = .tx) ∧ s.irqStatus = { trxEnd := true }

inductive Outcome (dig2 : Bool) (s : Phy) (e : Posted) : Phy → Prop
  | ignored : e.event ≠ .handleIrq → ¬ Expected s e.event → Outcome dig2 s e s
  | read : e.event = .handleIrq → ¬ Expected s .handleIrq →
      Outcome dig2 s e { s with irqStatus := {} }
  | halts : Expected s e.event → s.state.active → e.event ≠ .handleRxTimeout →
      (e.event = .handleRxEnd ∨ s.pkt = false) → (u : Phy) →
      u = halt s ∨ u = halt { s with irqStatus := {} } → Outcome dig2 s e u
  | listens : e.event = .startRx → s.state = .rxWait → s.pkt → Outcome dig2 s e (listening dig2 s)
  | times : e.event = .handleRxTimeout → s.state = .rxWait ∨ s.state = .rx →
      Outcome dig2 s e (complete s .rxTimeoutError (.alarm e.op))
  | ends : e.event = .handleRxEnd → s.state = .rx →
      Outcome dig2 s e (complete s .success (.frame e.op))
  | closes (status : Status) : e.event = .handleIrq → s.irqStatus = { trxEnd := true } →
      (s.state = .rx ∨ s.state = .tx) → status ≠ .rxTimeoutError →
      Outcome dig2 s e (complete { s with irqStatus := {} } status (.frame s.irqOp))
  | fetches : e.event = .handleIrq → s.irqStatus = { trxEnd := true } → s.state = .rx →
      s.pkt → Outcome dig2 s e (fetching s)

section Events

variable {dig2 : Bool} {s : Phy} {e : Posted}

theorem startRx_outcome (h : e.event = .startRx) : Outcome dig2 s e (startRx dig2 s) := by
  unfold startRx
  split
  · rename_i other
    exact .ignored (by simp [h]) (by simpa [Expected, h] using other)
  · rename_i waiting
    have waiting : s.state = .rxWait := by simpa using waiting
    split
    · rename_i null
      exact .halts (by simp [Expected, h, waiting]) (by simp [waiting, PhyState.active])
        (by simp [h]) (.inr (by simpa using null)) _ (.inl rfl)
    · rename_i pkt
      exact .listens h waiting (by simpa using pkt)

theorem handleRxTimeout_outcome (h : e.event = .handleRxTimeout) :
    Outcome dig2 s e (handleRxTimeout s e.op) := by
  unfold handleRxTimeout
  split
  · rename_i other
    exact .ignored (by simp [h]) (by simpa [Expected, h] using other)
  · rename_i waiting
    exact .times h (by tauto)

theorem handleRxEnd_outcome (h : e.event = .handleRxEnd) (slow : Bool) :
    Outcome dig2 s e (handleRxEnd s e.op slow) := by
  unfold handleRxEnd
  split
  · rename_i other
    exact .ignored (by simp [h]) (by simpa [Expected, h] using other)
  · rename_i receiving
    have receiving : s.state = .rx := by simpa using receiving
    have stop : Outcome dig2 s e (halt s) :=
      .halts (by simp [Expected, h, receiving]) (by simp [receiving, PhyState.active])
        (by simp [h]) (.inl h) _ (.inl rfl)
    split
    · exact stop
    split
    · exact stop
    · exact .ends h receiving

theorem handleRxStart_outcome (h : e.event = .handleIrq) (receiving : s.state = .rx)
    (ended : s.irqStatus = { trxEnd := true }) (crcValid lengthValid : Bool) :
    Outcome dig2 s e (handleRxStart { s with irqStatus := {} } crcValid lengthValid) := by
  have closes (status : Status) (other : status ≠ .rxTimeoutError) :
      Outcome dig2 s e (complete { s with irqStatus := {} } status (.frame s.irqOp)) :=
    .closes status h ended (.inl receiving) other
  unfold handleRxStart
  split
  · rename_i null
    have null : s.pkt = false := by simpa [receiving] using null
    exact .halts (by simp [Expected, h, receiving, ended])
      (by simp [receiving, PhyState.active]) (by simp [h]) (.inr null) _ (.inr rfl)
  · rename_i pkt
    split
    · exact closes .rxCrcError (by simp)
    split
    · exact closes .rxLengthError (by simp)
    · exact .fetches h ended receiving (by simpa [receiving] using pkt)

theorem handleIrq_outcome (h : e.event = .handleIrq) (crcValid lengthValid : Bool) :
    Outcome dig2 s e (handleIrq s crcValid lengthValid) := by
  unfold handleIrq
  dsimp only
  split
  · rename_i receiving
    split
    · rename_i started
      exact .read h (by simp [Expected, started])
    split
    · rename_i ended
      exact handleRxStart_outcome h receiving ended crcValid lengthValid
    · rename_i other
      exact .read h (by simp [Expected, other])
  · rename_i sending
    split
    · rename_i ended
      exact .closes .success h ended (.inr sending) (by simp)
    · rename_i other
      exact .read h (by simp [Expected, other])
  · rename_i notRx notTx
    exact .read h (fun expected => expected.1.elim notRx notTx)

theorem runEvent_outcome (crcValid lengthValid slow : Bool) :
    Outcome dig2 s e (runEvent dig2 s e crcValid lengthValid slow) := by
  unfold runEvent
  split
  · exact startRx_outcome ‹_›
  · exact handleRxTimeout_outcome ‹_›
  · exact handleRxEnd_outcome ‹_› slow
  · exact handleIrq_outcome ‹_› crcValid lengthValid

end Events

inductive Change (dig2 : Bool) (s : Phy) : Action → Phy → Prop
  | reset : s.mutex = .free → Change dig2 s .phyReset (phyReset s)
  | sleep : s.mutex = .free → Change dig2 s .phySleep (phySleep s)
  | idle : s.mutex = .free → Change dig2 s .phyIdle (phyIdle s)
  | rx (now rxTime timeoutTime : UInt32) (pkt notify : Bool) : s.mutex = .free →
      Change dig2 s (.phyRx now rxTime timeoutTime pkt notify)
        (phyRx s now rxTime timeoutTime pkt notify).2
  | tx (now txTime : UInt32) (length : Option UInt8) (notify : Bool) : s.mutex = .free →
      Change dig2 s (.phyTx now txTime length notify) (phyTx s now txTime length notify).2
  | measure (ed : Bool) : s.mutex = .free → Change dig2 s (.phyMeasure ed) (phyMeasure s ed)
  | jam : s.mutex = .free → Change dig2 s .phyJam (phyJam s)
  | set : s.mutex = .free → Change dig2 s .phySet s
  | direct (u : Phy) (op : Nat) : s.mutex = .free → 0 < s.starting →
      Outcome dig2 { s with starting := s.starting - 1 } ⟨.startRx, op⟩ u →
      Change dig2 s .startRx u
  | rxOn : s.mutex = .startRx → Change dig2 s .rxOn (startRxOn s)
  | pllOn (last : PhyState) (launchNow : Bool) (call : Nat) (expired : Bool) :
      s.mutex = .tx last launchNow call →
      Change dig2 s (.pllOn expired) (phyTxPllOn s last launchNow call expired)
  | measured (ed rxOnExpired resultExpired : Bool) : s.mutex = .measure ed →
      Change dig2 s (.measured rxOnExpired resultExpired)
        (phyMeasured s ed rxOnExpired resultExpired)
  | alarm (timer : Compare × Nat) : s.timer = some timer →
      Change dig2 s .alarm (alarm s timer)
  | capture : s.dig2Enabled → s.radio = .rxOn →
      Change dig2 s .dig2Capture (dig2CaptureHandler s)
  | fifoReadDone (op : Nat) : s.fifo = some op →
      Change dig2 s .fifoReadDone (post { s with fifo := none } .handleRxEnd op)
  | raise (cause : Cause) (edge : Bool) : s.radio.raises cause →
      Change dig2 s (.raise cause edge) (raise s cause edge)
  | event (crcValid lengthValid slow : Bool) (e : Posted) (rest : List Posted) (u : Phy) :
      s.mutex = .free → s.calling = none → s.queue = e :: rest →
      u = runEvent dig2 { s with queue := rest } e crcValid lengthValid slow →
      Outcome dig2 { s with queue := rest } e u →
      Change dig2 s (.event crcValid lengthValid slow) u
  | call (c : Completion) : s.calling = some c → Change dig2 s .call (callHandler s c)

theorem step_running {dig2} {s t} {a} (h : step dig2 s a = some t) :
    s.halted = false := by
  unfold step at h
  split at h
  · cases h
  · rename_i running
    simpa using running

theorem step_change {dig2} {s t} {a} (h : step dig2 s a = some t) :
    Change dig2 s a t := by
  have running : ¬ s.halted = true := by simp [step_running h]
  unfold step at h
  rw [if_neg running] at h
  cases a with
  | phyReset =>
    obtain ⟨free, rfl⟩ := inMutex_eq_some.mp h
    exact .reset free
  | phySleep =>
    obtain ⟨free, rfl⟩ := inMutex_eq_some.mp h
    exact .sleep free
  | phyIdle =>
    obtain ⟨free, rfl⟩ := inMutex_eq_some.mp h
    exact .idle free
  | phyRx now rxTime timeoutTime pkt notify =>
    obtain ⟨free, rfl⟩ := inMutex_eq_some.mp h
    exact .rx now rxTime timeoutTime pkt notify free
  | phyTx now txTime length notify =>
    obtain ⟨free, rfl⟩ := inMutex_eq_some.mp h
    exact .tx now txTime length notify free
  | phyMeasure ed =>
    obtain ⟨free, rfl⟩ := inMutex_eq_some.mp h
    exact .measure ed free
  | phyJam =>
    obtain ⟨free, rfl⟩ := inMutex_eq_some.mp h
    exact .jam free
  | phySet =>
    obtain ⟨free, rfl⟩ := inMutex_eq_some.mp h
    exact .set free
  | startRx =>
    simp only at h
    split at h
    · cases h
    · rename_i some_
      obtain ⟨free, rfl⟩ := inMutex_eq_some.mp h
      exact .direct _ 0 free (Nat.pos_of_ne_zero some_) (startRx_outcome rfl)
  | rxOn =>
    simp only at h
    split at h
    · cases h
      exact .rxOn ‹_›
    · cases h
  | pllOn expired =>
    simp only at h
    split at h
    · cases h
      exact .pllOn _ _ _ expired ‹_›
    · cases h
  | measured rxOnExpired resultExpired =>
    simp only at h
    split at h
    · cases h
      exact .measured _ rxOnExpired resultExpired ‹_›
    · cases h
  | alarm =>
    obtain ⟨timer, armed, rfl⟩ := Option.map_eq_some_iff.mp h
    exact .alarm timer armed
  | dig2Capture =>
    simp only at h
    split at h
    · rename_i able
      cases h
      exact .capture able.1 able.2
    · cases h
  | fifoReadDone =>
    obtain ⟨op, reading, rfl⟩ := Option.map_eq_some_iff.mp h
    exact .fifoReadDone op reading
  | raise cause edge =>
    simp only at h
    split at h
    · cases h
      exact .raise cause edge ‹_›
    · cases h
  | event crcValid lengthValid slow =>
    simp only at h
    split at h
    · cases h
    · rename_i idle
      split at h
      · cases h
      · obtain ⟨free, rfl⟩ := inMutex_eq_some.mp h
        exact .event crcValid lengthValid slow _ _ _ free (by simpa using idle) ‹_› rfl
          (runEvent_outcome ..)
  | call =>
    obtain ⟨c, pending, rfl⟩ := Option.map_eq_some_iff.mp h
    exact .call c pending

end PhyRf2xx
