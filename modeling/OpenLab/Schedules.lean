import Mathlib

/-!
# Schedules of a partial step function

A system is a partial step function on labelled actions; all nondeterminism is in the action, so
one list of actions is one interleaving. A run may be restricted to actions that meet a condition
in their state.
-/

namespace Schedules

universe u v
variable {σ : Type u} {α : Type v}

def exec (step : σ → α → Option σ) : σ → List α → Option σ
  | s, [] => some s
  | s, a :: rest => match step s a with
    | none => none
    | some s' => exec step s' rest

/-- Runs whose actions all meet `ok` where they are taken. -/
inductive Run (step : σ → α → Option σ) (ok : σ → α → Prop) (s : σ) : σ → Prop
  | start : Run step ok s s
  | next {t u : σ} (a : α) : Run step ok s t → ok t a → step t a = some u →
      Run step ok s u

def execIf (step : σ → α → Option σ) (ok : σ → α → Prop) [∀ s a, Decidable (ok s a)] :
    σ → List α → Option σ
  | s, [] => some s
  | s, a :: rest => if ok s a then
      match step s a with
      | none => none
      | some s' => execIf step ok s' rest
    else none

abbrev Reach (step : σ → α → Option σ) : σ → σ → Prop :=
  Run step (fun _ _ => True)

variable {step : σ → α → Option σ} {ok ok' : σ → α → Prop} {s t u : σ}

theorem Run.invariant (I : σ → Prop)
    (keep : ∀ t a u, I t → ok t a → step t a = some u → I u)
    (run : Run step ok s t) (init : I s) : I t := by
  induction run with
  | start => exact init
  | next a _ hok hstep ih => exact keep _ a _ ih hok hstep

theorem Run.invariant_of (J I : σ → Prop) (known : ∀ t, Run step ok s t → J t)
    (keep : ∀ t a u, J t → I t → ok t a → step t a = some u → I u)
    (run : Run step ok s t) (init : I s) : I t := by
  induction run with
  | start => exact init
  | next a prior hok hstep ih => exact keep _ a _ (known _ prior) ih hok hstep

theorem Run.weaken (run : Run step ok s t) (imp : ∀ t a, ok t a → ok' t a) :
    Run step ok' s t := by
  induction run with
  | start => exact .start
  | next a _ hok hstep ih => exact .next a ih (imp _ a hok) hstep

theorem Run.trans (first : Run step ok s t) (second : Run step ok t u) :
    Run step ok s u := by
  induction second with
  | start => exact first
  | next a _ hok hstep ih => exact .next a ih hok hstep

/-- A run that keeps `I` and lowers a measure comes to the goal. -/
theorem eventually (I goal : σ → Prop) (μ : σ → Nat)
    (progress : ∀ s, I s → goal s ∨ ∃ a u, ok s a ∧ step s a = some u ∧ I u ∧ μ u < μ s)
    (init : I s) : ∃ t, Run step ok s t ∧ goal t := by
  induction measure : μ s using Nat.strong_induction_on generalizing s with
  | _ m ih =>
    rcases progress s init with done | ⟨a, u, hok, hstep, next, less⟩
    · exact ⟨s, .start, done⟩
    · obtain ⟨t, run, done⟩ := ih (μ u) (measure ▸ less) next rfl
      exact ⟨t, Run.trans (.next a .start hok hstep) run, done⟩

theorem Run.reach (run : Run step ok s t) : Reach step s t :=
  run.weaken (fun _ _ _ => trivial)

theorem exec_reach {schedule} (h : exec step s schedule = some t) :
    Reach step s t := by
  induction schedule generalizing s with
  | nil =>
    obtain rfl : s = t := by simpa [exec] using h
    exact .start
  | cons a rest ih =>
    cases hs : step s a with
    | none => simp [exec, hs] at h
    | some s' =>
      have tail : Reach step s' t := ih (by simpa [exec, hs] using h)
      exact Run.trans (.next a .start trivial hs) tail

theorem execIf_run [∀ s a, Decidable (ok s a)] {schedule}
    (h : execIf step ok s schedule = some t) : Run step ok s t := by
  induction schedule generalizing s with
  | nil =>
    obtain rfl : s = t := by simpa [execIf] using h
    exact .start
  | cons a rest ih =>
    by_cases hok : ok s a
    · cases hs : step s a with
      | none => simp [execIf, hok, hs] at h
      | some s' =>
        have tail : Run step ok s' t := ih (by simpa [execIf, hok, hs] using h)
        exact Run.trans (.next a .start hok hs) tail
    · simp [execIf, hok] at h

theorem exec_observe {β : Type v} (schedule : List α) (f : σ → β) (b : β)
    (h : (exec step s schedule).map f = some b) : ∃ t, Reach step s t ∧ f t = b := by
  obtain ⟨t, ht, hf⟩ := Option.map_eq_some_iff.mp h
  exact ⟨t, exec_reach ht, hf⟩

theorem execIf_observe [∀ s a, Decidable (ok s a)] {β : Type v} (schedule : List α) (f : σ → β)
    (b : β) (h : (execIf step ok s schedule).map f = some b) :
    ∃ t, Run step ok s t ∧ f t = b := by
  obtain ⟨t, ht, hf⟩ := Option.map_eq_some_iff.mp h
  exact ⟨t, execIf_run ht, hf⟩

end Schedules
