import Mathlib

/-!
# Counting tasks

The number of tasks of a finite family whose control state satisfies a predicate, and how
it changes when one task moves.
-/

namespace Tally

open Function

variable {ι σ : Type} [Fintype ι] (P : σ → Prop) [DecidablePred P]

def tally (f : ι → σ) : Nat := (Finset.univ.filter fun i => P (f i)).card

variable {P} {f : ι → σ} {i : ι} {v : σ}

theorem tally_pos_iff : 0 < tally P f ↔ ∃ i, P (f i) := by
  simp [tally, Finset.card_pos, Finset.Nonempty]

theorem tally_pos (h : P (f i)) : 0 < tally P f := tally_pos_iff.mpr ⟨i, h⟩

theorem tally_eq_zero_iff : tally P f = 0 ↔ ∀ i, ¬P (f i) := by
  simp [tally, Finset.filter_eq_empty_iff]

theorem tally_le_card : tally P f ≤ Fintype.card ι := Finset.card_le_univ _

variable [DecidableEq ι]

theorem tally_update (f : ι → σ) (i : ι) (v : σ) :
    tally P (update f i v) + (if P (f i) then 1 else 0) =
      tally P f + if P v then 1 else 0 := by
  have rest : (∑ j ∈ Finset.univ.erase i, if P (update f i v j) then 1 else 0) =
      ∑ j ∈ Finset.univ.erase i, if P (f j) then 1 else 0 := by
    refine Finset.sum_congr rfl fun j hj => ?_
    rw [update_of_ne (Finset.ne_of_mem_erase hj)]
  rw [tally, tally, Finset.card_filter, Finset.card_filter,
    ← Finset.add_sum_erase _ _ (Finset.mem_univ i), rest,
    ← Finset.add_sum_erase _ (fun j => if P (f j) then 1 else 0) (Finset.mem_univ i),
    update_self]
  omega

theorem tally_enter (before : ¬P (f i)) (after : P v) :
    tally P (update f i v) = tally P f + 1 := by
  simpa [before, after] using tally_update (P := P) f i v

theorem tally_leave (before : P (f i)) (after : ¬P v) :
    tally P (update f i v) + 1 = tally P f := by
  simpa [before, after] using tally_update (P := P) f i v

theorem tally_keep (same : P (f i) ↔ P v) : tally P (update f i v) = tally P f := by
  have := tally_update (P := P) f i v
  simp only [same] at this
  omega

end Tally
