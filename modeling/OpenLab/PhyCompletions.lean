import OpenLab.PhyOwned

/-!
# Completions and the operations they belong to

The posted events outlive their operation and are checked against the state alone, and the handler
is read after the mutex was given back. So a handler call belongs to its operation only as long as
nothing comes in between.
-/

namespace PhyRf2xx

open Schedules List

/-- The completion is the end of the operation the handler was given to, and that
operation's own alarm or frame ended it. -/
def Own (handler : Nat) (c : Completion) : Prop :=
  c.op = handler ∧
    c.origin = if c.status = .rxTimeoutError then .alarm handler else .frame handler

/-- The handler calls made so far belong to their operations. -/
structure Faithful (s : Phy) : Prop where
  once : (s.log.map HandlerCall.handler).Nodup
  accepted : ∀ call ∈ s.log, call.handler ∈ s.accepted
  kept : ∀ call ∈ s.log, call.handler ∉ s.cancelled
  own : ∀ call ∈ s.log, Own call.handler call.completion

structure Due (s : Phy) (c : Completion) : Prop where
  handler : s.handler = some c.op
  rest : s.state.active = false
  kept : c.op ∉ s.cancelled
  accepted : c.op ∈ s.accepted
  own : Own c.op c

structure Trusted (s : Phy) : Prop extends Faithful s where
  running : s.state.active → s.op ∉ s.cancelled ∧ s.op ∉ s.log.map HandlerCall.handler
  ended : ∀ c, s.calling = some c → c.op < s.calls ∧ c.op ∉ s.log.map HandlerCall.handler ∧
    (s.handler = none ∨ Due s c)
  past : ∀ call ∈ s.cancelled, call < s.calls

section Trusted

variable {s t : Phy}

theorem Trusted.mono (h : Trusted s) (log : t.log = s.log) (cancelled : t.cancelled = s.cancelled)
    (calling : t.calling = s.calling) (handler : t.handler = none ∨ t.handler = s.handler)
    (accepted : s.accepted ⊆ t.accepted) (calls : s.calls ≤ t.calls)
    (active : t.state.active → s.state.active ∧ t.op = s.op) : Trusted t where
  once := by simpa [log] using h.once
  accepted := by simpa [log] using fun call member => accepted (h.accepted call member)
  kept := by simpa [log, cancelled] using h.kept
  own := by simpa [log] using h.own
  running := by
    intro on
    obtain ⟨on, op⟩ := active on
    simpa [log, cancelled, op] using h.running on
  ended := by
    intro c pending
    obtain ⟨old, fresh, due⟩ := h.ended c (calling ▸ pending)
    refine ⟨Nat.lt_of_lt_of_le old calls, by simpa [log] using fresh, ?_⟩
    obtain none_ | same := handler
    · exact .inl none_
    · refine due.imp (fun none_ => same.trans none_) (fun due => ?_)
      exact {
        handler := same.trans due.handler
        rest := by simpa [due.rest] using active
        kept := cancelled ▸ due.kept
        accepted := accepted due.accepted
        own := due.own }
  past := by
    rw [cancelled]
    exact fun call member => Nat.lt_of_lt_of_le (h.past call member) calls

theorem Trusted.store (h : Trusted s) (owned : Owned s) (log : t.log = s.log)
    (cancelled : t.cancelled = s.cancelled) (calling : t.calling = s.calling)
    (quiet : s.calling = none ∨ t.handler = none) (accepted : s.accepted ⊆ t.accepted)
    (calls : t.calls = s.calls + 1) (op : t.state.active → t.op = s.calls) : Trusted t where
  once := by simpa [log] using h.once
  accepted := by simpa [log] using fun call member => accepted (h.accepted call member)
  kept := by simpa [log, cancelled] using h.kept
  own := by simpa [log] using h.own
  running := by
    intro on
    rw [op on, log, cancelled]
    constructor
    · intro member
      exact Nat.lt_irrefl _ (h.past _ member)
    · intro member
      obtain ⟨call, member, eq⟩ := mem_map.mp member
      exact Nat.lt_irrefl _ (eq ▸ owned.known _ (h.accepted call member))
  ended := by
    intro c pending
    rw [calling] at pending
    obtain ⟨old, fresh, _⟩ := h.ended c pending
    refine ⟨by omega, by simpa [log] using fresh, .inl ?_⟩
    simpa [pending] using quiet
  past := by
    rw [cancelled, calls]
    exact fun call member => Nat.lt_succ_of_lt (h.past call member)

theorem Trusted.cancel (h : Trusted s) (owned : Owned s) (log : t.log = s.log)
    (cancelled : t.cancelled = outstanding s ++ s.cancelled) (calling : t.calling = s.calling)
    (quiet : s.calling = none ∨ t.handler = none) (accepted : t.accepted = s.accepted)
    (calls : t.calls = s.calls) (rest : t.state.active = false) : Trusted t where
  once := by simpa [log] using h.once
  accepted := by simpa [log, accepted] using h.accepted
  kept := by
    intro call member
    rw [log] at member
    have logged : call.handler ∈ s.log.map HandlerCall.handler := mem_map_of_mem member
    rw [cancelled, mem_append]
    rintro (out | before)
    · rw [outstanding, mem_append] at out
      obtain now | pending := out
      · split at now
        · rename_i on
          have eq : call.handler = s.op := by simpa using now
          exact (h.running on).2 (eq ▸ logged)
        · simp at now
      · obtain ⟨c, pending, eq⟩ : ∃ c, s.calling = some c ∧ c.op = call.handler := by
          simpa using pending
        exact (h.ended c pending).2.1 (eq ▸ logged)
    · exact h.kept call member before
  own := by simpa [log] using h.own
  running := by simp [rest]
  ended := by
    intro c pending
    rw [calling] at pending
    obtain ⟨old, fresh, _⟩ := h.ended c pending
    refine ⟨by omega, by simpa [log] using fresh, .inl ?_⟩
    simpa [pending] using quiet
  past := by
    rw [cancelled, calls]
    intro call member
    obtain out | before := mem_append.mp member
    · rw [outstanding, mem_append] at out
      obtain now | pending := out
      · split at now
        · rename_i on
          have eq : call = s.op := by simpa using now
          exact eq ▸ owned.current on
        · simp at now
      · obtain ⟨c, pending, eq⟩ : ∃ c, s.calling = some c ∧ c.op = call := by
          simpa using pending
        exact eq ▸ (h.ended c pending).1
    · exact h.past call before

theorem Trusted.complete (h : Trusted s) (owned : Owned s) (free : s.mutex = .free)
    (active : s.state.active) (status : Status) (origin : Origin)
    (own : s.handler = none ∨ Own s.op ⟨status, s.op, origin⟩) :
    Trusted (complete s status origin) where
  once := h.once
  accepted := h.accepted
  kept := h.kept
  own := h.own
  running := by simp [PhyRf2xx.complete, idle, PhyState.active]
  ended := by
    rintro c ⟨⟩
    have accepted : s.op ∈ s.accepted := by simpa [free] using owned.accepted active
    refine ⟨owned.current active, (h.running active).2, ?_⟩
    obtain none_ | stored := owned.handler active
    · exact .inl none_
    · exact .inr {
        handler := stored
        rest := rfl
        kept := (h.running active).1
        accepted := accepted
        own := by simpa [stored] using own }
  past := h.past

theorem Trusted.call {c} (h : Trusted s) (pending : s.calling = some c) :
    Trusted (callHandler s c) := by
  obtain ⟨_, fresh, none_ | due⟩ := h.ended c pending
  · have silent : callHandler s c = { s with calling := none } := by simp [callHandler, none_]
    rw [silent]
    exact { h with ended := by simp }
  · have called : callHandler s c = { s with calling := none, log := ⟨c.op, c⟩ :: s.log } := by
      simp [callHandler, due.handler]
    rw [called]
    exact {
      once := by simpa using ⟨by simpa using fresh, h.once⟩
      accepted := by simpa using ⟨due.accepted, h.accepted⟩
      kept := by simpa using ⟨due.kept, h.kept⟩
      own := by simpa using ⟨due.own, h.own⟩
      running := by simp [due.rest]
      ended := by simp
      past := h.past }

end Trusted

/-- The event was posted for an earlier operation and would end the present one. -/
def stale (s : Phy) (e : Posted) (slow : Bool) : Bool :=
  e.op ≠ s.op && match e.event with
    | .handleRxTimeout => s.state = .rxWait || s.state = .rx
    | .handleRxEnd => s.state = .rx && !slow
    | _ => false

/-- The call leaves a handler of its own in the PHY, or cancels with one stored. -/
def intrudes (s : Phy) : Action → Bool
  | .phyRx now rxTime timeoutTime pkt notify => pkt && notify &&
      (s.state = .idle || s.state = .sleep && !tooLate now rxTime timeoutTime)
  | .phyTx now txTime length notify => notify && length.any (· ≤ maxTxLength) &&
      (s.state = .idle || s.state = .sleep && (txTime = 0 || inTime now txTime))
  | .phyIdle => s.handler.isSome
  | _ => false

/-- No event of an earlier operation ends one that has a handler, and no task comes in
between the end of an operation and its handler call. -/
def Safe (s : Phy) : Action → Prop
  | .event _ _ slow => s.handler = none ∨ ∀ e ∈ s.queue.head?, stale s e slow = false
  | a => s.calling = none ∨ intrudes s a = false

instance (s : Phy) (a : Action) : Decidable (Safe s a) := by
  cases a <;> unfold Safe <;> infer_instance

section Calls

variable {s : Phy}

@[simp] theorem calling_goBack : (goBack s).calling = s.calling := by
  unfold goBack
  split <;> rfl

@[simp] theorem calls_goBack : (goBack s).calls = s.calls := by
  unfold goBack
  split <;> rfl

@[simp] theorem accepted_goBack : (goBack s).accepted = s.accepted := by
  unfold goBack
  split <;> rfl

@[simp] theorem cancelled_goBack : (goBack s).cancelled = s.cancelled := by
  unfold goBack
  split <;> rfl

@[simp] theorem log_goBack : (goBack s).log = s.log := by
  unfold goBack
  split <;> rfl

@[simp] theorem active_goBack : (goBack s).state.active = false := by
  unfold goBack
  split <;> rfl

theorem handler_goBack : (goBack s).handler = if s.state = .sleep then none else s.handler := by
  unfold goBack
  split <;> rfl

theorem state_goBack_ne_rx : (goBack s).state ≠ .rx := by
  unfold goBack
  split <;> simp [sleep, idle]

theorem halted_goBack : (goBack s).halted = s.halted := by
  unfold goBack
  split <;> rfl

theorem resting_cases {state : PhyState} (h : state.resting) : state = .sleep ∨ state = .idle := by
  cases state <;> simp [PhyState.resting] at h ⊢

/-- What `phy_rx` and `phy_tx` do when they pass their checks: they have stored their
handler, and keep it unless they fall back to sleep. -/
structure Stores (s : Phy) (keeps : Bool) (t : Phy) : Prop where
  resting : s.state.resting
  waits : t.state ≠ .rx
  log : t.log = s.log
  cancelled : t.cancelled = s.cancelled
  calling : t.calling = s.calling
  halted : t.halted = s.halted
  handler : t.handler = stored keeps s.calls
  accepted : s.accepted ⊆ t.accepted
  calls : t.calls = s.calls + 1
  op : t.state.active → t.op = s.calls

theorem intrudes_phyRx (now rxTime timeoutTime : UInt32) (pkt notify : Bool) :
    intrudes s (.phyRx now rxTime timeoutTime pkt notify) = (pkt && notify &&
      (s.state = .idle || s.state = .sleep && !tooLate now rxTime timeoutTime)) := rfl

theorem intrudes_phyTx (now txTime : UInt32) (length : Option UInt8) (notify : Bool) :
    intrudes s (.phyTx now txTime length notify) = (notify && length.any (· ≤ maxTxLength) &&
      (s.state = .idle || s.state = .sleep && (txTime = 0 || inTime now txTime))) := rfl

theorem phyRx_stores (now rxTime timeoutTime : UInt32) (pkt notify : Bool) :
    ((phyRx s now rxTime timeoutTime pkt notify).2 ∈ [s, halt s] ∧
        intrudes s (.phyRx now rxTime timeoutTime pkt notify) = false) ∨
      Stores s (intrudes s (.phyRx now rxTime timeoutTime pkt notify))
        (phyRx s now rxTime timeoutTime pkt notify).2 := by
  rw [intrudes_phyRx]
  generalize keeps : (pkt && notify &&
    (s.state = .idle || s.state = .sleep && !tooLate now rxTime timeoutTime)) = k
  unfold phyRx
  split
  · rename_i null
    have null : pkt = false := by simpa using null
    exact .inl ⟨by simp, by simpa [null] using keeps.symm⟩
  rename_i given
  have given : pkt = true := by simpa using given
  split
  · rename_i busy
    refine .inl ⟨by simp, ?_⟩
    cases state : s.state <;> simp_all [PhyState.resting]
  rename_i resting
  have awake : s.state.resting := by simpa using resting
  have resting := resting_cases awake
  refine .inr ?_
  split
  · rename_i late
    refine ⟨awake, state_goBack_ne_rx, by simp, by simp, by simp, by simp [halted_goBack], ?_,
      by simp, by simp, by simp⟩
    obtain asleep | awake := resting
    · have none_ : k = false := by simpa [asleep, late] using keeps.symm
      simp [handler_goBack, asleep, none_, stored]
    · have kept : k = notify := by simpa [awake, given] using keeps.symm
      simp [handler_goBack, awake, kept]
  rename_i early
  have kept : k = notify := by
    obtain asleep | awake := resting
    · simpa [asleep, given, early] using keeps.symm
    · simpa [awake, given] using keeps.symm
  rw [kept]
  split <;> exact ⟨awake, by simp, rfl, rfl, rfl, rfl, rfl, by simp, rfl, fun _ => rfl⟩

theorem phyTx_stores (now txTime : UInt32) (length : Option UInt8) (notify : Bool) :
    ((phyTx s now txTime length notify).2 = s ∧
        intrudes s (.phyTx now txTime length notify) = false) ∨
      Stores s (intrudes s (.phyTx now txTime length notify))
        (phyTx s now txTime length notify).2 := by
  rw [intrudes_phyTx]
  generalize keeps : (notify && length.any (· ≤ maxTxLength) &&
    (s.state = .idle || s.state = .sleep && (txTime = 0 || inTime now txTime))) = k
  unfold phyTx
  split
  · exact .inl ⟨rfl, by simpa using keeps.symm⟩
  rename_i length
  split
  · rename_i long
    have long : ¬ length ≤ maxTxLength := by simpa using long
    exact .inl ⟨rfl, by simpa [long] using keeps.symm⟩
  rename_i short
  have short : length ≤ maxTxLength := by simpa using short
  split
  · rename_i busy
    refine .inl ⟨rfl, ?_⟩
    cases state : s.state <;> simp_all [PhyState.resting]
  rename_i resting
  have awake : s.state.resting := by simpa using resting
  have resting := resting_cases awake
  refine .inr ?_
  split
  · rename_i delayed
    have delayed : txTime ≠ 0 := by simpa using delayed
    split
    · rename_i early
      have kept : k = notify := by
        obtain asleep | awake := resting
        · simpa [asleep, short, early] using keeps.symm
        · simpa [awake, short] using keeps.symm
      rw [kept]
      exact ⟨awake, by simp, rfl, rfl, rfl, rfl, rfl, by simp, rfl, fun _ => rfl⟩
    · rename_i late
      refine ⟨awake, state_goBack_ne_rx, by simp, by simp, by simp, by simp [halted_goBack], ?_,
      by simp, by simp, by simp⟩
      obtain asleep | awake := resting
      · have none_ : k = false := by simpa [asleep, late, delayed] using keeps.symm
        simp [handler_goBack, asleep, none_, stored]
      · have kept : k = notify := by simpa [awake, short] using keeps.symm
        simp [handler_goBack, awake, kept]
  · rename_i atOnce
    have zero : txTime = 0 := by simpa using atOnce
    have kept : k = notify := by
      obtain asleep | awake := resting
      · simpa [asleep, short, zero] using keeps.symm
      · simpa [awake, short] using keeps.symm
    rw [kept]
    exact ⟨awake, by simp, rfl, rfl, rfl, rfl, rfl, by simp, rfl, fun _ => rfl⟩

theorem trusted_store {a} {t} (owned : Owned s) (h : Trusted s)
    (quiet : s.calling = none ∨ intrudes s a = false) (stores : Stores s (intrudes s a) t) :
    Trusted t := by
  refine h.store owned stores.log stores.cancelled stores.calling ?_ stores.accepted stores.calls
    stores.op
  exact quiet.imp_right fun silent => by simp [stores.handler, silent, stored]

theorem trusted_outcome {dig2} {e} {t} (owned : Owned s) (h : Trusted s)
    (free : s.mutex = .free) (slow : Bool)
    (quick : e.event = .handleRxEnd → s.state = .rx → t.halted = false → slow = false)
    (safe : s.handler = none ∨ stale s e slow = false) (running : s.halted = false)
    (outcome : Outcome dig2 s e t) : Trusted t := by
  have mine (which : e.op ≠ s.op → stale s e slow = true) : s.handler = none ∨ e.op = s.op := by
    obtain none_ | fresh := safe
    · exact .inl none_
    · refine .inr (not_not.mp fun other => ?_)
      simp [which other] at fresh
  cases outcome with
  | ignored => exact h
  | read => exact { h with
      ended := fun c pending => by
        obtain ⟨old, fresh, due⟩ := h.ended c pending
        exact ⟨old, fresh, due.imp_right fun due => { due with }⟩ }
  | halts _ _ _ _ _ eq =>
    obtain rfl | rfl := eq <;>
      exact h.mono rfl rfl rfl (.inr rfl) (fun _ => id) le_rfl fun on => ⟨on, rfl⟩
  | listens _ waiting =>
    exact h.mono rfl rfl rfl (.inr rfl) (fun _ => id) le_rfl
      fun _ => ⟨by simp [waiting, PhyState.active], rfl⟩
  | times kind waiting =>
    have active : s.state.active := by
      obtain waiting | receiving := waiting <;> simp [PhyState.active, *]
    refine h.complete owned free active _ _ ?_
    refine (mine fun other => ?_).imp_right fun same => ⟨rfl, by simp [same]⟩
    obtain waiting | receiving := waiting <;> simp [stale, *]
  | ends kind receiving =>
    have active : s.state.active := by simp [receiving, PhyState.active]
    have quick := quick kind receiving running
    refine h.complete owned free active _ _ ?_
    refine (mine fun other => ?_).imp_right fun same => ⟨rfl, by simp [same]⟩
    simp [stale, other, kind, receiving, quick]
  | closes status kind ended state status_ =>
    have active : s.state.active := by
      obtain receiving | sending := state <;> simp [PhyState.active, *]
    have owner : s.irqOp = s.op :=
      owned.frame active (by obtain receiving | sending := state <;> simp [*]) (by simp [ended])
    have cleared : Trusted { s with irqStatus := {} } :=
      h.mono rfl rfl rfl (.inr rfl) (fun _ => id) le_rfl fun on => ⟨on, rfl⟩
    exact cleared.complete { owned with frame := by simp } free active _ _
      (.inr ⟨rfl, by simp [owner, status_]⟩)
  | fetches =>
    exact h.mono rfl rfl rfl (.inr rfl) (fun _ => id) le_rfl fun on => ⟨on, rfl⟩

theorem quick_of_running {dig2} {e} {crcValid lengthValid slow}
    (kind : e.event = .handleRxEnd) (receiving : s.state = .rx)
    (running : (runEvent dig2 s e crcValid lengthValid slow).halted = false) : slow = false := by
  cases slow with
  | false => rfl
  | true =>
    have halts : (runEvent dig2 s e crcValid lengthValid true).halted = true := by
      simp [runEvent, kind, handleRxEnd, receiving, halt]
    simp [halts] at running

end Calls

variable {s : Phy}

theorem Trusted.same {t} (h : Trusted s) (log : t.log = s.log)
    (cancelled : t.cancelled = s.cancelled) (calling : t.calling = s.calling)
    (handler : t.handler = s.handler) (accepted : t.accepted = s.accepted)
    (calls : t.calls = s.calls) (active : t.state.active → s.state.active) (op : t.op = s.op) :
    Trusted t :=
  h.mono log cancelled calling (.inr handler) (by simp [accepted]) calls.ge
    fun on => ⟨active on, op⟩

theorem trusted_txStartHandler (h : Trusted s) : Trusted (txStartHandler s) := by
  unfold txStartHandler
  split
  · rename_i waiting
    exact h.same rfl rfl rfl rfl rfl rfl (by simp [waiting, PhyState.active]) rfl
  · exact h

theorem trusted_phyTxPllOn (h : Trusted s) (last : PhyState) (launchNow : Bool) (call : Nat)
    (expired : Bool) : Trusted (phyTxPllOn s last launchNow call expired) := by
  unfold phyTxPllOn
  split
  · refine h.mono (by simp) (by simp) (by simp) ?_ (by simp) (by simp) (by simp)
    simp only [handler_goBack]
    split <;> simp
  · have taken : Trusted { s with
        lowPower := s.lowPower + 1, accepted := call :: s.accepted, mutex := .free } :=
      h.mono rfl rfl rfl (.inr rfl) (by simp) le_rfl fun on => ⟨on, rfl⟩
    cases launchNow with
    | false => exact taken
    | true =>
      dsimp only
      rw [if_pos rfl, txStartHandler_mutex]
      exact trusted_txStartHandler taken

theorem trusted_raise (h : Trusted s) (cause : Cause) (edge : Bool) :
    Trusted (raise s cause edge) := by
  unfold raise irqHandler post halt
  dsimp only
  repeat' split
  all_goals exact h.same rfl rfl rfl rfl rfl rfl id rfl

theorem trusted_step {dig2} {t} {a} (owned : Owned s) (h : Trusted s)
    (safe : Safe s a) (hs : step dig2 s a = some t) : Trusted t := by
  have running := step_running hs
  cases step_change hs with
  | reset | sleep => exact h.cancel owned rfl rfl rfl (.inr rfl) rfl rfl rfl
  | idle =>
    refine h.cancel owned rfl rfl rfl ?_ rfl rfl rfl
    refine safe.imp_right fun silent => ?_
    have gone : s.handler.isSome = false := silent
    have none_ : s.handler = none := by simpa using gone
    exact none_
  | rx now rxTime timeoutTime pkt notify =>
    obtain ⟨refused, _⟩ | stores := phyRx_stores (s := s) now rxTime timeoutTime pkt notify
    · obtain same | halts : (phyRx s now rxTime timeoutTime pkt notify).2 = s ∨
          (phyRx s now rxTime timeoutTime pkt notify).2 = halt s := by simpa using refused
      · rw [same]
        exact h
      · rw [halts]
        exact h.same rfl rfl rfl rfl rfl rfl id rfl
    · exact trusted_store owned h safe stores
  | tx now txTime length notify =>
    obtain ⟨refused, _⟩ | stores := phyTx_stores (s := s) now txTime length notify
    · rw [refused]
      exact h
    · exact trusted_store owned h safe stores
  | measure ed =>
    unfold phyMeasure
    split
    · exact h.same rfl rfl rfl rfl rfl rfl id rfl
    · exact h
  | jam =>
    unfold phyJam
    split
    · exact h.same rfl rfl rfl rfl rfl rfl (by simp [PhyState.active]) rfl
    · exact h
  | set => exact h
  | direct _ op free _ outcome =>
    have started : Trusted { s with starting := s.starting - 1 } :=
      h.same rfl rfl rfl rfl rfl rfl id rfl
    exact trusted_outcome (s := { s with starting := s.starting - 1 }) { owned with } started
      free false (by simp) (.inr (by simp [stale])) running outcome
  | rxOn | fifoReadDone => exact h.same rfl rfl rfl rfl rfl rfl id rfl
  | pllOn last launchNow call expired => exact trusted_phyTxPllOn h last launchNow call expired
  | measured ed rxOnExpired resultExpired =>
    cases ed <;> cases rxOnExpired <;> cases resultExpired <;>
      exact h.same rfl rfl rfl rfl rfl rfl id rfl
  | alarm timer =>
    obtain ⟨handler, op⟩ := timer
    cases handler with
    | rxStartHandler => exact h.same rfl rfl rfl rfl rfl rfl id rfl
    | txStartHandler => exact trusted_txStartHandler h
    | rxTimeoutHandler => exact h.same rfl rfl rfl rfl rfl rfl id rfl
  | capture =>
    unfold dig2CaptureHandler
    split <;> exact h.same rfl rfl rfl rfl rfl rfl id rfl
  | raise cause edge => exact trusted_raise h cause edge
  | event crcValid lengthValid slow e rest u free _ queue eq outcome =>
    have popped : Trusted { s with queue := rest } := h.same rfl rfl rfl rfl rfl rfl id rfl
    refine trusted_outcome (s := { s with queue := rest }) { owned with } popped free slow
      ?_ ?_ running outcome
    · intro kind receiving halted
      exact quick_of_running kind receiving (eq ▸ halted)
    · exact safe.imp_right fun fresh => by simpa [stale] using fresh e (by simp [queue])
  | call c pending => exact h.call pending

theorem trusted_run {dig2} {t} (run : Run (step dig2) Safe init t) : Trusted t :=
  run.invariant_of Owned Trusted (fun _ run => owned_reach run.reach)
    (fun _ _ _ owned h safe hs => trusted_step owned h safe hs)
    { once := by simp [init]
      accepted := by simp [init]
      kept := by simp [init]
      own := by simp [init]
      running := by simp [init, PhyState.active]
      ended := by simp [init]
      past := by simp [init] }

section Exact

variable {dig2 : Bool} {s t : Phy} {c : Completion}

theorem step_call (running : s.halted = false) (pending : s.calling = some c) :
    step dig2 s .call = some (callHandler s c) := by
  simp [step, running, pending]

theorem not_faithful_of_call {handler} (running : s.halted = false)
    (pending : s.calling = some c) (installed : s.handler = some handler)
    (foreign : ¬ Own handler c ∨ handler ∈ s.cancelled) :
    ∃ u, step dig2 s .call = some u ∧ ¬ Faithful u := by
  refine ⟨_, step_call running pending, fun faithful => ?_⟩
  have logged : (⟨handler, c⟩ : HandlerCall) ∈ (callHandler s c).log := by
    simp [callHandler, installed]
  obtain other | cancelled := foreign
  · exact other (faithful.own _ logged)
  · exact faithful.kept _ logged cancelled

theorem not_faithful_of_stores {a} (h : Trusted s) (running : s.halted = false)
    (pending : s.calling = some c) (intrudes_ : intrudes s a = true)
    (stores : Stores s (intrudes s a) t) : ∃ u, step dig2 t .call = some u ∧ ¬ Faithful u := by
  have installed : t.handler = some s.calls := by simp [stores.handler, intrudes_, stored]
  refine not_faithful_of_call (stores.halted.trans running) (stores.calling.trans pending)
    installed (.inl fun own => ?_)
  exact Nat.lt_irrefl _ (own.1 ▸ (h.ended c pending).1)

theorem not_faithful_of_stale {e} {crcValid lengthValid slow}
    (owned : Owned s) (running : s.halted = false) (installed : s.handler ≠ none)
    (old : stale s e slow = true) :
    ∃ u, step dig2 (runEvent dig2 s e crcValid lengthValid slow) .call = some u ∧
      ¬ Faithful u := by
  have other : e.op ≠ s.op := by
    intro same
    simp [stale, same] at old
  have ends (active : s.state.active) (status : Status) (origin : Origin)
      (foreign : ¬ Own s.op ⟨status, s.op, origin⟩) :
      ∃ u, step dig2 (complete s status origin) .call = some u ∧ ¬ Faithful u := by
    have handler : s.handler = some s.op := (owned.handler active).resolve_left installed
    exact not_faithful_of_call running rfl handler (.inl foreign)
  cases kind : e.event with
  | startRx | handleIrq => simp [stale, kind] at old
  | handleRxTimeout =>
    have state : s.state = .rxWait ∨ s.state = .rx := by simpa [stale, kind, other] using old
    have body : runEvent dig2 s e crcValid lengthValid slow =
        complete s .rxTimeoutError (.alarm e.op) := by
      obtain waiting | receiving := state <;> simp [runEvent, handleRxTimeout, *]
    rw [body]
    refine ends ?_ _ _ fun own => other (by simpa using own.2)
    obtain waiting | receiving := state <;> simp [PhyState.active, *]
  | handleRxEnd =>
    have state : s.state = .rx ∧ slow = false := by simpa [stale, kind, other] using old
    have body : runEvent dig2 s e crcValid lengthValid slow =
        complete s .success (.frame e.op) := by
      have pkt := owned.packet (by simp [state.1, PhyState.active])
      simp [runEvent, kind, handleRxEnd, state.1, state.2, pkt]
    rw [body]
    refine ends ?_ _ _ fun own => other (by simpa using own.2)
    simp [state.1, PhyState.active]

/-- Whatever is not safe leads, with the next handler call, to one that belongs to no
operation of its own. -/
theorem exposed_of_not_safe {a} (owned : Owned s) (h : Trusted s) (bad : ¬ Safe s a)
    (hs : step dig2 s a = some t) : ∃ u, step dig2 t .call = some u ∧ ¬ Faithful u := by
  have running := step_running hs
  have change := step_change hs
  cases a with
  | event crcValid lengthValid slow =>
    cases change with
    | event _ _ _ e rest _ free _ queue eq =>
      have bad : s.handler ≠ none ∧ stale s e slow = true := by
        simpa [Safe, queue] using bad
      rw [eq]
      exact not_faithful_of_stale (s := { s with queue := rest }) { owned with } running bad.1 bad.2
  | phyRx now rxTime timeoutTime pkt notify =>
    obtain ⟨waiting, enters⟩ := not_or.mp bad
    obtain ⟨c, pending⟩ := Option.ne_none_iff_exists'.mp waiting
    cases change with
    | rx =>
      obtain ⟨_, refused⟩ | stores := phyRx_stores (s := s) now rxTime timeoutTime pkt notify
      · exact absurd refused enters
      · exact not_faithful_of_stores h running pending (by simpa using enters) stores
  | phyTx now txTime length notify =>
    obtain ⟨waiting, enters⟩ := not_or.mp bad
    obtain ⟨c, pending⟩ := Option.ne_none_iff_exists'.mp waiting
    cases change with
    | tx =>
      obtain ⟨_, refused⟩ | stores := phyTx_stores (s := s) now txTime length notify
      · exact absurd refused enters
      · exact not_faithful_of_stores h running pending (by simpa using enters) stores
  | phyIdle =>
    obtain ⟨waiting, enters⟩ := not_or.mp bad
    obtain ⟨c, pending⟩ := Option.ne_none_iff_exists'.mp waiting
    have installed : s.handler ≠ none := by
      intro none_
      have gone : s.handler.isSome = false := by simp [none_]
      exact enters gone
    have due := (h.ended c pending).2.2.resolve_left installed
    cases change with
    | idle =>
      refine not_faithful_of_call (s := phyIdle s) running pending due.handler (.inr ?_)
      simp [phyIdle, cancel, idle, outstanding, pending]
  | _ => exact absurd (.inr rfl) bad

end Exact

/-- In every run whose steps are all safe the handler calls belong to their operations,
and the first step that is not safe makes the next handler call a wrong one. -/
theorem completions_belong (dig2 : Bool) :
    (∀ t, Run (step dig2) Safe init t → Faithful t) ∧
      ∀ s a t, Run (step dig2) Safe init s → step dig2 s a = some t →
        (Safe s a ↔ ∀ u, step dig2 t .call = some u → Faithful u) := by
  refine ⟨fun t run => (trusted_run run).toFaithful, fun s a t run hs => ⟨fun safe u call => ?_,
    fun faithful => ?_⟩⟩
  · exact (trusted_run (.next .call (.next a run safe hs) (.inr rfl) call)).toFaithful
  · by_contra bad
    obtain ⟨u, call, wrong⟩ :=
      exposed_of_not_safe (owned_reach run.reach) (trusted_run run) bad hs
    exact wrong (faithful u call)

def reception : List Action :=
  [.phyRx 0 0 0 true true, .startRx, .rxOn, .raise .rxStart true, .event true true false,
    .raise .trxEnd true, .event true true false, .fifoReadDone, .event true true false, .call]

theorem completions_belong_reception :
    ∃ t, Run (step false) Safe init t ∧ t.log = [⟨0, .success, 0, .frame 0⟩] ∧ Faithful t := by
  obtain ⟨t, run, log⟩ : ∃ t, Run (step false) Safe init t ∧
      t.log = [⟨0, .success, 0, .frame 0⟩] :=
    execIf_observe reception _ _ (by decide +kernel)
  exact ⟨t, run, log, (completions_belong false).1 t run⟩

/-- The timeout alarm of a reception fires, the reception is cancelled and a second one
without any timeout started before the event task comes to the event: the second one
ends with a timeout. And a task that starts a second reception between the end of the
first and its handler call has its own handler called for both. -/
theorem completions_misattributed :
    (∃ t, Reach (step false) init t ∧ t.log = [⟨1, .rxTimeoutError, 1, .alarm 0⟩] ∧
      ¬ Faithful t) ∧
    ∃ t, Reach (step false) init t ∧
      t.log = [⟨1, .rxCrcError, 1, .frame 1⟩, ⟨1, .rxCrcError, 0, .frame 0⟩] ∧ ¬ Faithful t := by
  constructor
  · obtain ⟨t, run, log⟩ : ∃ t, Reach (step false) init t ∧
        t.log = [⟨1, .rxTimeoutError, 1, .alarm 0⟩] :=
      exec_observe [.phyRx 0 0 100 true true, .startRx, .rxOn, .alarm, .phyIdle,
        .phyRx 0 0 0 true true, .startRx, .rxOn, .event true true false, .call] _ _
        (by decide +kernel)
    refine ⟨t, run, log, fun faithful => ?_⟩
    have own := (faithful.own ⟨1, .rxTimeoutError, 1, .alarm 0⟩ (by simp [log])).2
    simp at own
  · obtain ⟨t, run, log⟩ : ∃ t, Reach (step false) init t ∧
        t.log = [⟨1, .rxCrcError, 1, .frame 1⟩, ⟨1, .rxCrcError, 0, .frame 0⟩] :=
      exec_observe [.phyRx 0 0 0 true true, .startRx, .rxOn, .raise .trxEnd true,
        .event false true false, .phyRx 0 0 0 true true, .call, .startRx, .rxOn,
        .raise .trxEnd true, .event false true false, .call] _ _ (by decide +kernel)
    refine ⟨t, run, log, fun faithful => ?_⟩
    have once := faithful.once
    simp [log] at once

end PhyRf2xx
