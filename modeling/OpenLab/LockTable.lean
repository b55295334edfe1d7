import Mathlib

/-!
# Mutexes and their owners

A family of mutexes, seen from the table of the mutexes and from the control states of the
parties, each of which keeps at most one.
-/

namespace LockTable

open Function

variable {ω κ : Type} {held : ω → Option κ} {table : κ → Option ω} {o p : ω} {j k : κ}

/-- The mutex `k` is taken by `o` exactly when `o` keeps it. -/
def Locks (held : ω → Option κ) (table : κ → Option ω) : Prop :=
  ∀ o k, held o = some k ↔ table k = some o

namespace Locks

theorem unique (h : Locks held table) (ho : held o = some k) (hp : held p = some k) : o = p :=
  Option.some.inj (((h o k).mp ho).symm.trans ((h p k).mp hp))

theorem not_held (h : Locks held table) (free : table k = none) (o : ω) : held o ≠ some k := by
  intro keeps
  rw [(h o k).mp keeps] at free
  exact Option.some_ne_none o free

variable [DecidableEq ω]

theorem keep {v} (h : Locks held table) (same : held o = v) :
    Locks (update held o v) table := by
  rw [← same, update_eq_self]
  exact h

variable [DecidableEq κ]

theorem take (h : Locks held table) (without : held o = none) (free : table k = none) :
    Locks (update held o (some k)) (update table k (some o)) := by
  intro p l
  by_cases hp : p = o
  · by_cases hl : l = k
    · simp [hp, hl]
    · have := h o l
      simp_all [eq_comm]
  · by_cases hl : l = k
    · have := h.not_held free p
      simp_all [eq_comm]
    · simp [hp, hl, h p l]

theorem give (h : Locks held table) (keeps : held o = some k) :
    Locks (update held o none) (update table k none) := by
  intro p l
  by_cases hp : p = o
  · by_cases hl : l = k
    · simp [hp, hl]
    · have := h o l
      simp_all [eq_comm]
  · by_cases hl : l = k
    · have : held p ≠ some k := fun keeps' => hp (h.unique keeps' keeps)
      simp_all
    · simp [hp, hl, h p l]

theorem swap (h : Locks held table) (keeps : held o = some j) (free : table k = none) :
    Locks (update held o (some k))
      (update (update table j none) k (some o)) := by
  have ne : k ≠ j := by
    rintro rfl
    exact h.not_held free o keeps
  have given := (h.give keeps).take (o := o) (k := k) (update_self ..)
    (by rw [update_of_ne ne, free])
  rwa [update_idem] at given

end Locks

end LockTable
