import Mathlib

/-!
# Scans over a table

Loops over the indices of a table: the first index with a property, and the index of the least
key, where a later one has to be strictly better.
-/

namespace IndexScan

open List

variable {n : Nat} {p ok : Fin n → Bool} {key : Fin n → Nat} {bound : Nat} {i : Fin n}

def first (p : Fin n → Bool) : Option (Fin n) := (List.finRange n).find? p

theorem first_eq_none_iff : first p = none ↔ ∀ i, p i = false := by
  simp [first]

theorem first_spec (h : first p = some i) : p i = true ∧ ∀ k, p k = true → i ≤ k := by
  obtain ⟨found, before, after, split, skipped⟩ := find?_eq_some_iff_append.mp h
  refine ⟨found, fun k hk => ?_⟩
  have sorted := pairwise_lt_finRange n
  have mem : k ∈ before ++ i :: after := split ▸ mem_finRange k
  rw [split] at sorted
  rcases mem_append.mp mem with early | late
  · have := skipped k early
    simp [hk] at this
  · rcases mem_cons.mp late with rfl | later
    · exact le_rfl
    · exact (rel_of_pairwise_cons (pairwise_append.mp sorted).2.1 later).le

/-- One round of the search for the least key: the least key so far, and its index. -/
def better (key : Fin n → Nat) (ok : Fin n → Bool) (best : Nat × Option (Fin n)) (i : Fin n) :
    Nat × Option (Fin n) :=
  if ok i = true ∧ key i < best.1 then (key i, some i) else best

/-- The index of the least key below `bound`, among the indices with the property. -/
def least (key : Fin n → Nat) (ok : Fin n → Bool) (bound : Nat) : Option (Fin n) :=
  ((List.finRange n).foldl (better key ok) (bound, none)).2

def Best (key : Fin n → Nat) (ok : Fin n → Bool) (bound : Nat) (seen : List (Fin n)) :
    Nat × Option (Fin n) → Prop
  | (low, none) => low = bound ∧ ∀ i ∈ seen, ok i = true → bound ≤ key i
  | (low, some j) => low = key j ∧ ok j = true ∧ j ∈ seen ∧
      ∀ i ∈ seen, ok i = true → key j ≤ key i ∧ (key i = key j → j ≤ i)

theorem best_round {seen} {best}
    (h : Best key ok bound seen best) (later : ∀ k ∈ seen, k < i) :
    Best key ok bound (seen ++ [i]) (better key ok best i) := by
  obtain ⟨low, index⟩ := best
  unfold better
  split
  case isTrue found =>
    -- All indices seen so far have greater keys.
    have above : ∀ k ∈ seen, ok k = true → key i < key k := by
      intro k mem good
      cases index with
      | none => exact lt_of_lt_of_le (h.1 ▸ found.2) (h.2 k mem good)
      | some j => exact lt_of_lt_of_le (h.1 ▸ found.2) (h.2.2.2 k mem good).1
    refine ⟨rfl, found.1, by simp, fun k mem good => ?_⟩
    rcases mem_append.mp mem with old | new
    · have := above k old good
      exact ⟨this.le, fun eq => by omega⟩
    · obtain rfl := mem_singleton.mp new
      exact ⟨le_rfl, fun _ => le_rfl⟩
  case isFalse skip =>
    have notLess : ok i = true → low ≤ key i := fun good => by
      by_contra less
      exact skip ⟨good, by omega⟩
    cases index with
    | none =>
      refine ⟨h.1, fun k mem good => ?_⟩
      rcases mem_append.mp mem with old | new
      · exact h.2 k old good
      · obtain rfl := mem_singleton.mp new
        exact h.1 ▸ notLess good
    | some j =>
      refine ⟨h.1, h.2.1, mem_append_left _ h.2.2.1, fun k mem good => ?_⟩
      rcases mem_append.mp mem with old | new
      · exact h.2.2.2 k old good
      · obtain rfl := mem_singleton.mp new
        exact ⟨h.1 ▸ notLess good, fun _ => (later j h.2.2.1).le⟩

theorem best_scan {seen rest} {best}
    (h : Best key ok bound seen best) (sorted : (seen ++ rest).Pairwise (· < ·)) :
    Best key ok bound (seen ++ rest) (rest.foldl (better key ok) best) := by
  induction rest generalizing seen best with
  | nil => rwa [append_nil]
  | cons i rest ih =>
    have later : ∀ k ∈ seen, k < i := fun k mem =>
      (pairwise_append.mp sorted).2.2 k mem i mem_cons_self
    rw [append_cons] at sorted ⊢
    exact ih (best_round h later) sorted

theorem best_least (key : Fin n → Nat) (ok : Fin n → Bool) (bound : Nat) :
    Best key ok bound (List.finRange n)
        ((List.finRange n).foldl (better key ok) (bound, none)) := by
  have start : Best key ok bound [] (bound, none) := ⟨rfl, by simp⟩
  exact best_scan start (pairwise_lt_finRange n)

theorem least_spec (h : least key ok bound = some i) :
    ok i = true ∧ ∀ k, ok k = true → key i ≤ key k ∧ (key k = key i → i ≤ k) := by
  have best := best_least key ok bound
  unfold least at h
  generalize (finRange n).foldl (better key ok) (bound, none) = result at best h
  obtain ⟨low, index⟩ := result
  obtain rfl : index = some i := h
  exact ⟨best.2.1, fun k good => best.2.2.2 k (mem_finRange k) good⟩

theorem least_none (h : least key ok bound = none) : ∀ k, ok k = true → bound ≤ key k := by
  have best := best_least key ok bound
  unfold least at h
  generalize (finRange n).foldl (better key ok) (bound, none) = result at best h
  obtain ⟨low, index⟩ := result
  obtain rfl : index = none := h
  exact fun k good => best.2 k (mem_finRange k) good

def upto (key : Fin n → Nat) (ok : Fin n → Bool) (bound i : Nat) : Nat × Option (Fin n) :=
  ((List.finRange n).take i).foldl (better key ok) (bound, none)

theorem upto_succ (i : Fin n) :
    upto key ok bound (i + 1) = better key ok (upto key ok bound i) i := by
  have round : (finRange n).take (i + 1) = (finRange n).take i ++ [i] := by
    rw [take_succ_eq_append_getElem (by simp), getElem_finRange]
    rfl
  rw [upto, round, foldl_append]
  rfl

theorem upto_all : (upto key ok bound n).2 = least key ok bound := by
  rw [upto, least, take_of_length_le (by simp)]

theorem upto_lt {m} (le : m ≤ n) (h : (upto key ok bound m).2 = some i) : i.val < m := by
  induction m with
  | zero => cases h
  | succ m ih =>
    have round : upto key ok bound (m + 1) = better key ok (upto key ok bound m) ⟨m, le⟩ :=
      upto_succ ⟨m, le⟩
    rw [round, better] at h
    split at h
    · have : i.val = m := by rw [← Option.some.inj h]
      omega
    · have := ih (by omega) h
      omega

end IndexScan
