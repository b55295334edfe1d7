import OpenLab.LinkedCells

/-!
# Chains with owners

Each owner has a pointer to a chain of cells of its own, and no cell is in two chains.
-/

namespace ChainLedger

open LinkedCells List
open Function (update update_of_ne update_self update_eq_self)

universe u v
variable {α : Type u} {ω : Type v}

structure Ledger (next : α → Option α) (head : ω → Option α) (cells : ω → List α) : Prop where
  chain : ∀ o, Chain next (head o) (cells o)
  apart : ∀ o o', o ≠ o' → (cells o).Disjoint (cells o')

namespace Ledger

variable {next next' : α → Option α} {head : ω → Option α} {cells : ω → List α} {o : ω} {a z : α}
  {pre : List α}

theorem frame (h : Ledger next head cells) (same : ∀ o, ∀ a ∈ cells o, next' a = next a) :
    Ledger next' head cells :=
  ⟨fun o => (h.chain o).frame (same o), h.apart⟩

theorem owner_eq (h : Ledger next head cells) {o'} (mem : a ∈ cells o) (mem' : a ∈ cells o') :
    o = o' := by
  by_contra ne
  exact h.apart o o' ne mem mem'

variable [DecidableEq ω]

theorem replace {p} {l} (h : Ledger next head cells)
    (chain : Chain next' p l) (others : ∀ o', o' ≠ o → ∀ a ∈ cells o', next' a = next a)
    (new : ∀ a ∈ l, ∀ o', o' ≠ o → a ∉ cells o') :
    Ledger next' (update head o p) (update cells o l) := by
  constructor
  · intro o'
    rcases eq_or_ne o' o with rfl | ne
    · rw [update_self, update_self]
      exact chain
    · rw [update_of_ne ne, update_of_ne ne]
      exact (h.chain o').frame (others o' ne)
  · intro o₁ o₂ differ a mem₁ mem₂
    rcases eq_or_ne o₁ o with rfl | ne₁
    · rw [update_self] at mem₁
      rw [update_of_ne differ.symm] at mem₂
      exact new a mem₁ o₂ differ.symm mem₂
    · rw [update_of_ne ne₁] at mem₁
      rcases eq_or_ne o₂ o with rfl | ne₂
      · rw [update_self] at mem₂
        exact new a mem₂ o₁ ne₁ mem₁
      · rw [update_of_ne ne₂] at mem₂
        exact h.apart o₁ o₂ differ mem₁ mem₂

theorem release (h : Ledger next head cells)
    (others : ∀ o', o' ≠ o → ∀ a ∈ cells o', next' a = next a) :
    Ledger next' (update head o none) (update cells o []) :=
  h.replace .nil others fun _ mem => absurd mem not_mem_nil

variable [DecidableEq α]

theorem claim (h : Ledger next head cells) (free : ∀ o, a ∉ cells o) :
    Ledger (update next a none) (update head o (some a))
      (update cells o [a]) := by
  refine h.replace (chain_single (update_self ..)) ?_ ?_
  · intro o' _ b mem
    exact update_of_ne (ne_of_mem_of_not_mem mem (free o')) _ _
  · intro b mem o' _
    rw [mem_singleton.mp mem]
    exact free o'

theorem extend (h : Ledger next head cells) (free : ∀ o, a ∉ cells o)
    (last : cells o = pre ++ [z]) :
    Ledger (update (update next a none) z (some a)) head
      (update cells o (pre ++ [z, a])) := by
  have chain := h.chain o
  rw [last] at chain
  have terminal : next z = none := chain.next_eq
  have spliced := chain.splice (a := a) (last ▸ free o)
  rw [terminal] at spliced
  have replaced := h.replace (o := o) spliced ?_ ?_
  · rwa [update_eq_self] at replaced
  · intro o' ne b mem
    have apart_z : b ≠ z := by
      rintro rfl
      exact h.apart o' o ne mem (by rw [last]; simp)
    rw [update_of_ne apart_z,
      update_of_ne (ne_of_mem_of_not_mem mem (free o'))]
  · intro b mem o' ne mem'
    rcases mem_append.mp mem with early | late
    · exact h.apart o o' ne.symm (by rw [last]; simp [early]) mem'
    · rcases mem_cons.mp late with rfl | late
      · exact h.apart o o' ne.symm (by rw [last]; simp) mem'
      · exact free o' (mem_singleton.mp late ▸ mem')

end Ledger

end ChainLedger
