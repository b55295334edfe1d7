import OpenLab.PhySteps

/-!
# The low-power count of the PHY

The count is raised by `phy_rx` and `phy_tx` and lowered by `idle`, by the state it finds. Inside
`phy_tx` the count is still zero while the state is set; the error paths are right because
`last_state` is a resting one.
-/

namespace PhyRf2xx

open Schedules

/-- What the state is worth in `platform_prevent_low_power` calls. -/
def PhyState.weight (state : PhyState) : Int := if state.active then 1 else 0

def Balanced (s : Phy) : Prop :=
  match s.mutex with
  | .free | .startRx => s.lowPower = s.state.weight
  | .measure _ => s.lowPower = 0 ∧ s.state.resting
  | .tx last _ _ => s.lowPower = 0 ∧ (s.state = .txWait ∨ s.state = .tx) ∧ last.resting

theorem weight_of_resting {state : PhyState} (h : state.resting) : state.weight = 0 := by
  cases state <;> simp [PhyState.resting, PhyState.weight, PhyState.active] at h ⊢

theorem not_active_of_resting {state : PhyState} (h : state.resting) : state.active = false := by
  cases state <;> simp [PhyState.resting, PhyState.active] at h ⊢

/-- The count is what the state is worth, the mutex aside. -/
def Even (s : Phy) : Prop := s.lowPower = s.state.weight

theorem balanced_free {s} (free : s.mutex = .free) : Balanced s ↔ Even s := by
  simp [Balanced, Even, free]

theorem Balanced.tx {s} {last} {now} {call} (h : Balanced s) (held : s.mutex = .tx last now call) :
    s.lowPower = 0 ∧ (s.state = .txWait ∨ s.state = .tx) ∧ last.resting := by
  simpa [Balanced, held] using h

theorem Balanced.measure {s} {ed} (h : Balanced s) (held : s.mutex = .measure ed) :
    s.lowPower = 0 ∧ s.state.resting := by
  simpa [Balanced, held] using h

section Bodies

variable {s : Phy}

theorem even_idle (h : Even s) : Even (idle s) := by
  have weight : s.lowPower = if s.state.active then 1 else 0 := h
  change (if s.state.active then s.lowPower - 1 else s.lowPower) = 0
  rw [weight]
  split <;> rfl

theorem even_sleep (h : Even s) : Even (sleep s) := by
  have lowered : (idle s).lowPower = 0 := even_idle h
  simpa [Even, sleep, PhyState.weight, PhyState.active] using lowered

theorem even_reset (h : Even s) : Even (reset s) := even_sleep h

theorem even_goBack (h : Even s) : Even (goBack s) := by
  unfold goBack
  split
  · exact even_sleep h
  · exact even_idle h

theorem even_complete (h : Even s) (status : Status) (origin : Origin) :
    Even (complete s status origin) := even_idle h

@[simp] theorem mutex_goBack : (goBack s).mutex = s.mutex := by
  unfold goBack
  split <;> rfl

theorem balanced_phyRx (free : s.mutex = .free) (h : Even s) (now rxTime timeoutTime : UInt32)
    (pkt notify : Bool) : Balanced (phyRx s now rxTime timeoutTime pkt notify).2 := by
  unfold phyRx
  split
  · exact (balanced_free free).mpr h
  split
  · exact (balanced_free free).mpr h
  rename_i resting
  have rest : s.lowPower = 0 := h.trans (weight_of_resting (by simpa using resting))
  split
  · exact (balanced_free (by simpa using free)).mpr (even_goBack h)
  split <;>
  · refine (balanced_free ?_).mpr ?_
    · exact free
    · simp [Even, PhyState.weight, PhyState.active, rest]

theorem balanced_phyTx (free : s.mutex = .free) (h : Even s) (now txTime : UInt32)
    (length : Option UInt8) (notify : Bool) : Balanced (phyTx s now txTime length notify).2 := by
  unfold phyTx
  split
  · exact (balanced_free free).mpr h
  split
  · exact (balanced_free free).mpr h
  split
  · exact (balanced_free free).mpr h
  rename_i resting
  have resting : s.state.resting := by simpa using resting
  have rest : s.lowPower = 0 := h.trans (weight_of_resting resting)
  split
  · split
    · exact ⟨rest, .inl rfl, resting⟩
    · exact (balanced_free (by simpa using free)).mpr (even_goBack h)
  · exact ⟨rest, .inl rfl, resting⟩

theorem even_txStartHandler (h : Even s) : Even (txStartHandler s) := by
  unfold txStartHandler
  split
  · rename_i waiting
    simpa [Even, waiting, PhyState.weight, PhyState.active] using h
  · exact h

theorem balanced_txStartHandler (h : Balanced s) : Balanced (txStartHandler s) := by
  unfold txStartHandler
  split
  · rename_i waiting
    cases held : s.mutex <;>
      simp_all [Balanced, PhyState.weight, PhyState.active, PhyState.resting]
  · exact h

theorem balanced_phyTxPllOn {last : PhyState} (rest : s.lowPower = 0)
    (sending : s.state = .txWait ∨ s.state = .tx) (resting : last.resting)
    (launchNow : Bool) (call : Nat) (expired : Bool) :
    Balanced (phyTxPllOn s last launchNow call expired) := by
  unfold phyTxPllOn
  split
  · refine (balanced_free rfl).mpr (even_goBack (s := { s with state := last }) ?_)
    exact rest.trans (weight_of_resting resting).symm
  · refine (balanced_free rfl).mpr ?_
    have held : Even { s with lowPower := s.lowPower + 1, accepted := call :: s.accepted } := by
      obtain waiting | sending := sending <;>
        simp [Even, PhyState.weight, PhyState.active, *]
    cases launchNow with
    | true => exact even_txStartHandler held
    | false => exact held

theorem balanced_phyMeasure (free : s.mutex = .free) (h : Even s) (ed : Bool) :
    Balanced (phyMeasure s ed) := by
  unfold phyMeasure
  split
  · rename_i resting
    exact ⟨h.trans (weight_of_resting resting), resting⟩
  · exact (balanced_free free).mpr h

theorem balanced_phyMeasured (rest : s.lowPower = 0) (resting : s.state.resting)
    (ed rxOnExpired resultExpired : Bool) :
    Balanced (phyMeasured s ed rxOnExpired resultExpired) := by
  have even : s.lowPower = s.state.weight := rest.trans (weight_of_resting resting).symm
  cases ed <;> cases rxOnExpired <;> cases resultExpired <;> exact even

theorem balanced_phyJam (free : s.mutex = .free) (h : Even s) : Balanced (phyJam s) := by
  unfold phyJam
  split
  · rename_i resting
    refine (balanced_free ?_).mpr ?_
    · exact free
    · exact h.trans (weight_of_resting resting)
  · exact (balanced_free free).mpr h

theorem balanced_outcome {dig2} {e} {t} (free : s.mutex = .free)
    (h : Even s) (outcome : Outcome dig2 s e t) : Balanced t := by
  cases outcome with
  | ignored => exact (balanced_free free).mpr h
  | read => exact (balanced_free (s := { s with irqStatus := {} }) free).mpr h
  | halts _ _ _ _ _ eq =>
    obtain rfl | rfl := eq
    · exact (balanced_free (s := halt s) free).mpr h
    · exact (balanced_free (s := halt { s with irqStatus := {} }) free).mpr h
  | listens _ waiting =>
    simpa [Even, Balanced, listening, waiting, PhyState.weight, PhyState.active] using h
  | times | ends => exact (balanced_free (s := complete s _ _) free).mpr (even_complete h _ _)
  | closes =>
    have even : Even { s with irqStatus := {} } := h
    exact (balanced_free (s := complete { s with irqStatus := {} } _ _) free).mpr
      (even_complete even _ _)
  | fetches => exact (balanced_free (s := fetching s) free).mpr h

theorem balanced_raise (h : Balanced s) (cause : Cause) (edge : Bool) :
    Balanced (raise s cause edge) := by
  unfold raise irqHandler
  dsimp only
  split
  · split
    · split <;> exact h
    · exact h
  · exact h

end Bodies

theorem balanced_step {dig2} {s t} {a} (h : Balanced s)
    (hs : step dig2 s a = some t) : Balanced t := by
  have even (free : s.mutex = .free) : Even s := (balanced_free free).mp h
  cases step_change hs with
  | reset free =>
    exact (balanced_free (s := phyReset s) free).mpr (even_reset (s := cancel s) (even free))
  | sleep free =>
    exact (balanced_free (s := phySleep s) free).mpr (even_sleep (s := cancel s) (even free))
  | idle free =>
    exact (balanced_free (s := phyIdle s) free).mpr (even_idle (s := cancel s) (even free))
  | rx now rxTime timeoutTime pkt notify free => exact balanced_phyRx free (even free) ..
  | tx now txTime length notify free => exact balanced_phyTx free (even free) ..
  | measure ed free => exact balanced_phyMeasure free (even free) ed
  | jam free => exact balanced_phyJam free (even free)
  | set | fifoReadDone | call => exact h
  | direct _ op free _ outcome =>
    exact balanced_outcome (s := { s with starting := s.starting - 1 }) free (even free) outcome
  | rxOn held =>
    have even : s.lowPower = s.state.weight := by simpa [Balanced, held] using h
    exact even
  | pllOn last launchNow call expired held =>
    obtain ⟨zero, sending, resting⟩ := h.tx held
    exact balanced_phyTxPllOn zero sending resting ..
  | measured ed rxOnExpired resultExpired held =>
    obtain ⟨zero, resting⟩ := h.measure held
    exact balanced_phyMeasured zero resting ..
  | alarm timer =>
    obtain ⟨handler, op⟩ := timer
    cases handler with
    | rxStartHandler => exact h
    | txStartHandler => exact balanced_txStartHandler h
    | rxTimeoutHandler => exact h
  | capture =>
    unfold dig2CaptureHandler
    split <;> exact h
  | raise cause edge => exact balanced_raise h cause edge
  | event _ _ _ e rest _ free _ _ _ outcome =>
    exact balanced_outcome (s := { s with queue := rest }) free (even free) outcome

theorem balanced_reach {dig2} {t} (run : Reach (step dig2) init t) : Balanced t :=
  run.invariant Balanced (fun _ _ _ h _ hs => balanced_step h hs) rfl

/-- In every run the count is what the state is worth whenever the mutex is free, and
never leaves `0` and `1`. -/
theorem low_power_balance (dig2 : Bool) (t : Phy) (run : Reach (step dig2) init t) :
    (t.mutex = .free → t.lowPower = if t.state.active then 1 else 0) ∧
      0 ≤ t.lowPower ∧ t.lowPower ≤ 1 := by
  have balanced := balanced_reach run
  refine ⟨fun free => (balanced_free free).mp balanced, ?_⟩
  have bounds : 0 ≤ t.state.weight ∧ t.state.weight ≤ 1 := by
    unfold PhyState.weight
    split <;> decide
  cases held : t.mutex <;> simp only [Balanced, held] at balanced <;> omega

theorem low_power_balance_sending :
    ∃ t, Reach (step true) init t ∧ t.state = .tx ∧ t.lowPower = 1 := by
  obtain ⟨t, run, seen⟩ : ∃ t, Reach (step true) init t ∧ (t.mutex, t.state) = (.free, .tx) :=
    exec_observe [.phyTx 0 100 (some 20) true, .alarm, .pllOn false] _ _ (by decide +kernel)
  have free : t.mutex = .free := congrArg Prod.fst seen
  have sending : t.state = .tx := congrArg Prod.snd seen
  refine ⟨t, run, sending, ?_⟩
  simpa [sending, PhyState.active] using (low_power_balance true t run).1 free

end PhyRf2xx
