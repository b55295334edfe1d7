import Mathlib

/-!
# Intrusive singly linked lists

`Chain next head l`: following `next` from `head` visits exactly the cells `l` and stops at NULL,
so the chain is finite and acyclic. `seek` is the loop `for (; x->next && p(x->next); x =
x->next)` with fuel.
-/

namespace LinkedCells

open List

open Function (update update_of_ne update_self)

universe u
variable {α : Type u} {next next' : α → Option α}

inductive Chain (next : α → Option α) : Option α → List α → Prop
  | nil : Chain next none []
  | cons {a : α} {l : List α} : Chain next (next a) l → Chain next (some a) (a :: l)

variable {l post : List α} {h : Option α}

@[simp] theorem chain_none_iff : Chain next none l ↔ l = [] := by
  constructor
  · intro h; cases h; rfl
  · rintro rfl; exact .nil

theorem chain_some_iff {a} :
    Chain next (some a) l ↔ ∃ tail, l = a :: tail ∧ Chain next (next a) tail := by
  constructor
  · intro h
    cases h with
    | cons h => exact ⟨_, rfl, h⟩
  · rintro ⟨tail, rfl, h⟩
    exact .cons h

theorem Chain.head_eq (hc : Chain next h l) : h = l.head? := by
  cases hc <;> rfl

theorem Chain.tail {a} (hc : Chain next h (a :: l)) : Chain next (next a) l := by
  cases hc with
  | cons hc => exact hc

theorem chain_single {a} (h : next a = none) : Chain next (some a) [a] :=
  .cons (by rw [h]; exact .nil)

theorem Chain.unique {l'} (hc : Chain next h l) (hc' : Chain next h l') : l = l' := by
  induction hc generalizing l' with
  | nil => cases hc'; rfl
  | cons _ ih =>
    cases hc' with
    | cons h' => rw [ih h']

theorem Chain.frame (hc : Chain next h l) (same : ∀ a ∈ l, next' a = next a) : Chain next' h l := by
  induction hc with
  | nil => exact .nil
  | @cons a l _ ih =>
    refine .cons ?_
    rw [same a mem_cons_self]
    exact ih (fun b hb => same b (mem_cons_of_mem a hb))

theorem Chain.suffix {pre} (hc : Chain next h (pre ++ post)) :
    ∃ h', Chain next h' post := by
  induction pre generalizing h with
  | nil => exact ⟨h, hc⟩
  | cons a pre ih =>
    cases hc with
    | cons hc => exact ih hc

theorem Chain.nodup (hc : Chain next h l) : l.Nodup := by
  induction hc with
  | nil => exact nodup_nil
  | @cons a l hc ih =>
    refine nodup_cons.mpr ⟨fun ha => ?_, ih⟩
    obtain ⟨pre, post, rfl⟩ := append_of_mem ha
    obtain ⟨h', hs⟩ := hc.suffix
    cases hs with
    | cons hs =>
      have hlen := congrArg length (hc.unique hs)
      simp only [length_append, length_cons] at hlen
      omega

theorem Chain.redirect {r} {pre post'} {z}
    (hc : Chain next h (pre ++ z :: post)) (same : ∀ a ∈ pre, next' a = next a) (hz : next' z = r)
    (tail : Chain next' r post') : Chain next' h (pre ++ z :: post') := by
  induction pre generalizing h with
  | nil =>
    cases hc with
    | cons _ => exact .cons (by rw [hz]; exact tail)
  | cons a pre ih =>
    cases hc with
    | cons hc =>
      refine .cons ?_
      rw [same a mem_cons_self]
      exact ih hc (fun b hb => same b (mem_cons_of_mem a hb))

theorem Chain.next_eq {pre} {z} (hc : Chain next h (pre ++ z :: post)) :
    next z = post.head? := by
  obtain ⟨h', hs⟩ := hc.suffix
  cases hs with
  | cons hs => exact hs.head_eq

section Splice

variable [DecidableEq α] {h : Option α} {l pre post : List α} {a z : α}

theorem Chain.push (hc : Chain next h l) (fresh : a ∉ l) :
    Chain (update next a h) (some a) (a :: l) := by
  refine .cons ?_
  rw [update_self]
  exact hc.frame fun b hb => update_of_ne (ne_of_mem_of_not_mem hb fresh) _ _

theorem Chain.splice (hc : Chain next h (pre ++ z :: post)) (fresh : a ∉ pre ++ z :: post) :
    Chain (update (update next a (next z)) z (some a)) h
      (pre ++ z :: a :: post) := by
  have nodup := hc.nodup
  have fresh' : a ∉ pre ∧ a ≠ z ∧ a ∉ post := by simpa using fresh
  have apart : z ∉ pre ∧ z ∉ post := by
    have := nodup_middle.mp nodup
    simpa using (nodup_cons.mp this).1
  have tail : Chain next (next z) post := by
    obtain ⟨h', hs⟩ := hc.suffix
    exact hs.tail
  refine hc.redirect (fun b hb => ?_) (update_self _ _ _) (.cons ?_)
  · rw [update_of_ne (ne_of_mem_of_not_mem hb apart.1),
      update_of_ne (ne_of_mem_of_not_mem hb fresh'.1)]
  · rw [update_of_ne fresh'.2.1, update_self]
    refine tail.frame fun b hb => ?_
    rw [update_of_ne (ne_of_mem_of_not_mem hb apart.2),
      update_of_ne (ne_of_mem_of_not_mem hb fresh'.2.2)]

theorem Chain.unlink (hc : Chain next h (pre ++ z :: a :: post)) :
    Chain (update next z (next a)) h (pre ++ z :: post) := by
  have apart : z ∉ pre ∧ z ∉ a :: post := by
    have := nodup_middle.mp hc.nodup
    simpa using (nodup_cons.mp this).1
  have tail : Chain next (next a) post := by
    obtain ⟨h', hs⟩ := hc.suffix
    exact hs.tail.tail
  refine hc.redirect (fun b hb => ?_) (update_self _ _ _) (tail.frame fun b hb => ?_)
  · exact update_of_ne (ne_of_mem_of_not_mem hb apart.1) _ _
  · exact update_of_ne (ne_of_mem_of_not_mem (mem_cons_of_mem _ hb) apart.2) _ _

def reaches (next : α → Option α) (a : α) : Nat → Option α → Bool
  | 0, _ => false
  | _ + 1, none => false
  | fuel + 1, some x => if x = a then true else reaches next a fuel (next x)

theorem Chain.reaches_iff {fuel} (hc : Chain next h l) (enough : l.length ≤ fuel) :
    reaches next a fuel h = true ↔ a ∈ l := by
  induction hc generalizing fuel with
  | nil => cases fuel <;> simp [reaches]
  | @cons x l _ ih =>
    obtain ⟨fuel, rfl⟩ : ∃ k, fuel = k + 1 := ⟨fuel - 1, by simp at enough; omega⟩
    rw [reaches, mem_cons]
    by_cases same : x = a
    · simp [same]
    · rw [if_neg same, ih (by simpa using enough)]
      exact ⟨.inr, fun h => h.resolve_left fun e => same e.symm⟩

end Splice

def trace (next : α → Option α) : Nat → Option α → List α
  | 0, _ => []
  | _ + 1, none => []
  | fuel + 1, some a => a :: trace next fuel (next a)

theorem Chain.trace_eq {fuel} (hc : Chain next h l) (enough : l.length ≤ fuel) :
    trace next fuel h = l := by
  induction hc generalizing fuel with
  | nil => cases fuel <;> rfl
  | @cons a l _ ih =>
    obtain ⟨fuel, rfl⟩ : ∃ k, fuel = k + 1 := ⟨fuel - 1, by simp at enough; omega⟩
    rw [trace, ih (by simpa using enough)]

/-- Walk while the next cell exists and satisfies `p`. -/
def seek (next : α → Option α) (p : α → Bool) : Nat → α → α
  | 0, x => x
  | fuel + 1, x => match next x with
    | none => x
    | some y => if p y then seek next p fuel y else x

/-- With fuel for the whole chain the walk stops at the last cell of the maximal
run of cells satisfying `p`, and its pointer is the first cell that does not. -/
theorem seek_spec {p} {fuel} {x} (hc : Chain next (next x) l)
    (enough : l.length ≤ fuel) : ∃ pre, x :: l.takeWhile p = pre ++ [seek next p fuel x] ∧
      next (seek next p fuel x) = (l.dropWhile p).head? := by
  induction fuel generalizing x l with
  | zero =>
    obtain rfl : l = [] := length_eq_zero_iff.mp (by omega)
    exact ⟨[], by simp [seek], by simpa [seek] using hc.head_eq⟩
  | succ fuel ih =>
    cases hn : next x with
    | none =>
      rw [hn, chain_none_iff] at hc
      subst hc
      exact ⟨[], by simp [seek, hn], by simp [seek, hn]⟩
    | some y =>
      rw [hn, chain_some_iff] at hc
      obtain ⟨tail, rfl, hc⟩ := hc
      by_cases hp : p y = true
      · obtain ⟨pre, hpre, hnext⟩ := ih hc (by simpa using enough)
        refine ⟨x :: pre, ?_, ?_⟩
        · simpa [seek, hn, hp] using hpre
        · simpa [seek, hn, hp] using hnext
      · refine ⟨[], ?_, ?_⟩
        · simp [seek, hn, hp]
        · simp [seek, hn, hp]

theorem seek_last (fuel : Nat) {x} (hc : Chain next (next x) l) (enough : l.length ≤ fuel) :
    ∃ pre, x :: l = pre ++ [seek next (fun _ => true) fuel x] := by
  obtain ⟨pre, hpre, _⟩ := seek_spec (p := fun _ => true) hc enough
  exact ⟨pre, by rwa [takeWhile_eq_self_iff.mpr (fun _ _ => rfl)] at hpre⟩

end LinkedCells
