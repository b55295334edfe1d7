import OpenLab.PageCache
import OpenLab.Tally

/-!
# The buffers of the page cache and the pages they stand for

Each used buffer holds its page of an array of pages, and each page without a dirty buffer is on
the card.
-/

namespace PageCache

open Tally
open Function (update update_of_ne update_self)

abbrev PageArray := UInt32 → Block

namespace Cache

/-- The address of the page is its own: without `SDHC` there are addresses for 2^23 pages. -/
def Addressable (c : Cache) (page : UInt32) : Prop := c.sdhc = true ∨ page < 8388608

instance (c : Cache) : DecidablePred c.Addressable := fun page => by
  unfold Addressable
  infer_instance

/-- A buffer that was never used, and is taken for page 0, has the rest of that page. -/
def HoldsRest (c : Cache) (page : UInt32) (offset size : Nat) : Prop :=
  ∀ i, c.lookup page = some i → (c.pool i).use = 0 → ∀ k : Fin pageSize,
    k.val < offset ∨ offset + size ≤ k.val → (c.pool i).content k = c.medium (c.address page) k

end Cache

def dirtyCount (pool : Fin fsPoolSize → Buffer) : Nat := tally (fun b => b.dirty = true) pool

structure Coherent (c : Cache) (pages : PageArray) : Prop where
  sound : c.fault = false
  use_le : ∀ i, (c.pool i).use ≤ maxUse
  /-- the buffers are taken into use in the order of the pool -/
  packed : ∀ i j, i < j → (c.pool j).use ≠ 0 → (c.pool i).use ≠ 0
  unused : ∀ i, (c.pool i).use = 0 → (c.pool i).page = 0 ∧ (c.pool i).dirty = false
  apart : ∀ i j, (c.pool i).use ≠ 0 → (c.pool j).use ≠ 0 → (c.pool i).page = (c.pool j).page → i = j
  loaded : ∀ i, (c.pool i).use ≠ 0 → (c.pool i).content = pages (c.pool i).page
  addressable : ∀ i, (c.pool i).use ≠ 0 → c.Addressable (c.pool i).page
  stored : ∀ page, c.Addressable page → (∀ i, (c.pool i).dirty = true → (c.pool i).page ≠ page) →
    c.medium (c.address page) = pages page
  counted : c.dirtySem = dirtyCount c.pool

namespace Coherent

variable {c c' : Cache} {pages pages' : PageArray} {page : UInt32} {i j : Fin fsPoolSize}
  {b : Buffer}

theorem init (sdhc : Bool) (content : Fin fsPoolSize → Block) (medium : UInt32 → Block) :
    Coherent (.fsInit sdhc content medium)
      (fun page => medium ((Cache.fsInit sdhc content medium).address page)) where
  sound := rfl
  use_le := fun _ => Nat.zero_le _
  packed := fun _ _ _ h => absurd rfl h
  unused := fun _ _ => ⟨rfl, rfl⟩
  apart := fun _ _ h => absurd rfl h
  loaded := fun _ h => absurd rfl h
  addressable := fun _ h => absurd rfl h
  stored := fun _ _ _ => rfl
  counted := by
    refine Eq.symm (tally_eq_zero_iff.mpr fun i => ?_)
    simp [Cache.fsInit]

theorem used_of_dirty (h : Coherent c pages) (dirty : (c.pool i).dirty = true) :
    (c.pool i).use ≠ 0 := by
  intro zero
  simp [(h.unused i zero).2] at dirty

theorem stored_of_miss (h : Coherent c pages) (own : c.Addressable page)
    (miss : ∀ i, (c.pool i).use ≠ 0 → (c.pool i).page ≠ page) :
    c.medium (c.address page) = pages page :=
  h.stored page own fun i dirty => miss i (h.used_of_dirty dirty)

theorem before_victim (h : Coherent c pages) (victim : c.reserveBuffer = some j) :
    ∀ i, i < j → (c.pool i).use ≠ 0 := by
  intro i less zero
  have first := (Cache.reserveBuffer_spec victim).2 i (h.unused i zero).2
  omega

theorem hit_first (h : Coherent c pages) (hit : c.lookup page = some i) :
    (∀ k, k < i → (c.pool k).use ≠ 0) ∧
      ∀ k, k ≠ i → (c.pool k).use ≠ 0 → (c.pool k).page ≠ page := by
  obtain ⟨here, first⟩ := Cache.lookup_spec hit
  by_cases zero : (c.pool i).use = 0
  · constructor
    · -- An unused buffer before it would have been found instead.
      intro k less kZero
      have same : (c.pool k).page = page := by
        rw [(h.unused k kZero).1, ← here, (h.unused i zero).1]
      have := first k same
      omega
    · intro k ne kUsed same
      exact h.packed i k (lt_of_le_of_ne (first k same) ne.symm) kUsed zero
  · exact ⟨fun k less => h.packed k i less zero,
      fun k ne kUsed same => ne (h.apart k i kUsed zero (same.trans here.symm))⟩

theorem dirtySem_lt (h : Coherent c pages) (clean : (c.pool i).dirty = false) :
    c.dirtySem < fsPoolSize := by
  have more : dirtyCount (update c.pool i ⟨(c.pool i).content, true, 0, 0⟩) =
      dirtyCount c.pool + 1 := tally_enter (by simp [clean]) rfl
  have most : dirtyCount (update c.pool i ⟨(c.pool i).content, true, 0, 0⟩) ≤
      fsPoolSize := tally_le_card.trans_eq (Fintype.card_fin _)
  rw [h.counted]
  omega

/-- Buffer `j` gets the page of `b`, which may be new on the card and in the array. -/
structure Installs (c c' : Cache) (pages pages' : PageArray) (j : Fin fsPoolSize) (b : Buffer) :
    Prop where
  sdhc : c'.sdhc = c.sdhc
  fault : c'.fault = c.fault
  pool : c'.pool = update c.pool j b
  counted : c'.dirtySem = dirtyCount c'.pool
  used : b.use ≠ 0
  use_le : b.use ≤ maxUse
  addressable : c.Addressable b.page
  content : b.content = pages' b.page
  pages_else : ∀ page, page ≠ b.page → pages' page = pages page
  medium_else : ∀ page, c.Addressable page → page ≠ b.page →
    c'.medium (c.address page) = c.medium (c.address page)
  before : ∀ i, i < j → (c.pool i).use ≠ 0
  alone : ∀ i, i ≠ j → (c.pool i).use ≠ 0 → (c.pool i).page ≠ b.page
  /-- no dirty page is dropped -/
  dirty : (c.pool j).dirty = true → (c.pool j).page = b.page
  clean : b.dirty = false → c'.medium (c.address b.page) = pages' b.page

theorem install (h : Coherent c pages) (new : Installs c c' pages pages' j b) :
    Coherent c' pages' := by
  have address_eq : c'.address = c.address := by
    funext page
    rw [Cache.address, Cache.address, new.sdhc]
  have own_eq : c'.Addressable = c.Addressable := by
    funext page
    rw [Cache.Addressable, Cache.Addressable, new.sdhc]
  have here : c'.pool j = b := by rw [new.pool, update_self]
  have other : ∀ i, i ≠ j → c'.pool i = c.pool i := fun i ne => by
    rw [new.pool, update_of_ne ne]
  refine ⟨new.fault.trans h.sound, fun i => ?_, fun i k less kUsed => ?_, fun i zero => ?_,
    fun i k iUsed kUsed same => ?_, fun i iUsed => ?_, fun i iUsed => ?_,
    fun page own free => ?_, new.counted⟩
  · by_cases eq : i = j
    · rw [eq, here]
      exact new.use_le
    · rw [other i eq]
      exact h.use_le i
  · by_cases eq : i = j
    · rw [eq, here]
      exact new.used
    · rw [other i eq]
      by_cases kEq : k = j
      · exact new.before i (kEq ▸ less)
      · exact h.packed i k less (other k kEq ▸ kUsed)
  · by_cases eq : i = j
    · rw [eq, here] at zero
      exact absurd zero new.used
    · rw [other i eq] at zero ⊢
      exact h.unused i zero
  · by_cases eq : i = j <;> by_cases kEq : k = j
    · rw [eq, kEq]
    · rw [eq, here, other k kEq] at same
      exact absurd same.symm (new.alone k kEq (other k kEq ▸ kUsed))
    · rw [kEq, here, other i eq] at same
      exact absurd same (new.alone i eq (other i eq ▸ iUsed))
    · rw [other i eq] at same iUsed
      rw [other k kEq] at same kUsed
      exact h.apart i k iUsed kUsed same
  · by_cases eq : i = j
    · rw [eq, here]
      exact new.content
    · rw [other i eq] at iUsed ⊢
      rw [h.loaded i iUsed, new.pages_else _ (new.alone i eq iUsed)]
  · rw [own_eq]
    by_cases eq : i = j
    · rw [eq, here]
      exact new.addressable
    · rw [other i eq] at iUsed ⊢
      exact h.addressable i iUsed
  · rw [own_eq] at own
    rw [address_eq]
    by_cases eq : page = b.page
    · rw [eq]
      refine new.clean (Bool.eq_false_iff.mpr fun bDirty => ?_)
      exact free j (here ▸ bDirty) (here ▸ eq.symm)
    · rw [new.medium_else page own eq, new.pages_else page eq]
      refine h.stored page own fun i iDirty same => ?_
      by_cases iEq : i = j
      · subst iEq
        exact eq (same.symm.trans (new.dirty iDirty))
      · exact free i (other i iEq ▸ iDirty) (other i iEq ▸ same)

theorem scratch {n} {block} (h : Coherent c pages)
    (free : (c.pool j).use ≠ 0 → block = (c.pool j).content) :
    Coherent ({ c with failedAttempt := n }.putBuffer j { c.pool j with content := block })
      pages := by
  have same : ∀ i, ∃ x, update c.pool j { c.pool j with content := block } i =
      { c.pool i with content := x } ∧ ((c.pool i).use ≠ 0 → x = (c.pool i).content) := by
    intro i
    by_cases eq : i = j
    · subst eq
      exact ⟨block, update_self .., free⟩
    · exact ⟨_, update_of_ne eq .., fun _ => rfl⟩
  choose x eq keep using same
  have count : dirtyCount (update c.pool j { c.pool j with content := block }) =
      dirtyCount c.pool := tally_keep Iff.rfl
  refine ⟨h.sound, fun i => ?_, fun i k less => ?_, fun i => ?_, fun i k => ?_, fun i iUsed => ?_,
    fun i => ?_, fun page own => ?_, h.counted.trans count.symm⟩ <;>
    simp only [Cache.putBuffer, eq] at *
  · exact h.use_le i
  · exact h.packed i k less
  · exact h.unused i
  · exact h.apart i k
  · rw [keep i iUsed]
    exact h.loaded i iUsed
  · exact h.addressable i
  · exact h.stored page own

theorem address_inj {q} (own : c.Addressable page) (own' : c.Addressable q)
    (eq : c.address page = c.address q) : page = q := by
  unfold Cache.address at eq
  unfold Cache.Addressable at own own'
  by_cases h : c.sdhc = true
  · simpa [h] using eq
  · simp only [h, Bool.false_eq_true, if_false, false_or] at eq own own'
    have bound := UInt32.lt_iff_toNat_lt.mp own
    have bound' := UInt32.lt_iff_toNat_lt.mp own'
    have words := congrArg UInt32.toNat eq
    simp only [UInt32.toNat_mul, UInt32.reduceToNat] at bound bound' words
    exact UInt32.toNat_inj.mp (by omega)

theorem leastDirty_found (h : Coherent c pages) (dirty : 0 < c.dirtySem) : c.leastDirty ≠ none := by
  intro none
  obtain ⟨i, iDirty⟩ := tally_pos_iff.mp (h.counted ▸ dirty)
  have := IndexScan.least_none none i iDirty
  have := h.use_le i
  omega

theorem written (h : Coherent c pages) (dirty : (c.pool j).dirty = true)
    (sdhc : c'.sdhc = c.sdhc) (fault : c'.fault = c.fault)
    (pool : c'.pool = update c.pool j { c.pool j with dirty := false, use := 1 })
    (medium : c'.medium =
      update c.medium (c.address (c.pool j).page) (c.pool j).content)
    (taken : c'.dirtySem + 1 = c.dirtySem) : Coherent c' pages := by
  have used := h.used_of_dirty dirty
  have own := h.addressable j used
  have fewer : dirtyCount c'.pool + 1 = dirtyCount c.pool := by
    rw [pool]
    exact tally_leave dirty (by simp)
  refine h.install ⟨sdhc, fault, pool, ?_, by simp, by simp [maxUse], own, h.loaded j used,
    fun _ _ => rfl, fun page pageOwn ne => ?_, fun i less => h.packed i j less used,
    fun i ne iUsed same => ne (h.apart i j iUsed used same), fun _ => rfl, fun _ => ?_⟩
  · have := h.counted
    omega
  · rw [medium, update_of_ne (mt (address_inj pageOwn own) ne)]
  · rw [medium, update_self]
    exact h.loaded j used

theorem vWriteTask_done (h : Coherent c pages) (task : c.vWriteTask .done = some c') :
    Coherent c' pages ∧ ∃ j, (c'.pool j).dirty = false := by
  obtain ⟨positive, task⟩ := Option.ite_none_right_eq_some.mp task
  dsimp only at task
  split at task
  case h_1 none => exact absurd none (h.leastDirty_found positive)
  case h_2 j found =>
    have dirty : (c.pool j).dirty = true := (IndexScan.least_spec found).1
    obtain rfl := Option.some.inj task
    exact ⟨h.written dirty rfl rfl rfl rfl (Nat.sub_add_cancel positive),
      j, by simp [Cache.putBuffer]⟩

theorem vWriteTask_goes (dirty : 0 < c.dirtySem) : c.vWriteTask .done ≠ none := by
  unfold Cache.vWriteTask
  rw [if_pos dirty]
  dsimp only
  split <;> exact Option.some_ne_none _

theorem used_ne_zero {b} : Cache.used b ≠ 0 := by
  unfold Cache.used maxUse
  split <;> omega

theorem used_le {b} (h : b.use ≤ maxUse) : Cache.used b ≤ maxUse := by
  unfold Cache.used
  split <;> omega

theorem readHit (h : Coherent c pages) (hit : c.lookupUsed page = some i) :
    Coherent (c.putBuffer i { c.pool i with use := Cache.used (c.pool i) }) pages := by
  obtain ⟨-, used⟩ := Cache.lookupUsed_spec hit
  have own := h.addressable i used
  have alone : ∀ k, (c.pool k).use ≠ 0 → (c.pool k).page = (c.pool i).page → k = i :=
    fun k kUsed same => h.apart k i kUsed used same
  refine h.install (j := i) (b := { c.pool i with use := Cache.used (c.pool i) })
    ⟨rfl, rfl, rfl, ?_, used_ne_zero, used_le (h.use_le i), own, h.loaded i used, fun _ _ => rfl,
      fun _ _ _ => rfl, fun k less => h.packed k i less used,
      fun k ne kUsed same => ne (alone k kUsed same), fun _ => rfl, fun clean => ?_⟩
  · exact h.counted.trans (Eq.symm (tally_keep Iff.rfl))
  · refine h.stored _ own fun k kDirty same => ?_
    rw [alone k (h.used_of_dirty kDirty) same] at kDirty
    simp [show (c.pool i).dirty = false from clean] at kDirty

theorem readLoad {n} (h : Coherent c pages) (own : c.Addressable page)
    (miss : c.lookupUsed page = none) (victim : c.reserveBuffer = some j) :
    Coherent { c.putBuffer j ⟨c.medium (c.address page), false, page, 2⟩ with failedAttempt := n }
      pages := by
  have miss := Cache.lookupUsed_none.mp miss
  have clean := (Cache.reserveBuffer_spec victim).1
  have onCard := h.stored_of_miss own miss
  refine h.install (j := j) (b := ⟨c.medium (c.address page), false, page, 2⟩)
    ⟨rfl, rfl, rfl, ?_, by simp, by simp [maxUse], own, onCard, fun _ _ => rfl, fun _ _ _ => rfl,
      h.before_victim victim, fun k _ => miss k, by simp [clean], fun _ => onCard⟩
  exact h.counted.trans (Eq.symm (tally_keep (by simp [clean])))

theorem dirtySem_give (h : Coherent c pages) (clean : (c.pool i).dirty = false)
    (dirty : b.dirty = true) :
    (if c.dirtySem < fsPoolSize then c.dirtySem + 1 else c.dirtySem) =
      dirtyCount (update c.pool i b) := by
  rw [if_pos (h.dirtySem_lt clean), h.counted]
  exact Eq.symm (tally_enter (by simp [clean]) dirty)

variable {data : List UInt8}

theorem hit_rest {offset} (h : Coherent c pages) (own : c.Addressable page)
    (hit : c.lookup page = some i) (rest : c.HoldsRest page offset data.length) :
    cpy data (c.pool i).content offset = cpy data (pages page) offset := by
  by_cases zero : (c.pool i).use = 0
  · have onCard := h.stored_of_miss own fun k kUsed =>
      (h.hit_first hit).2 k (fun eq => kUsed (eq ▸ zero)) kUsed
    refine cpy_congr fun k out => ?_
    rw [rest i hit zero k out, onCard]
  · rw [h.loaded i zero, (Cache.lookup_spec hit).1]

theorem writeHit {offset} {put} (h : Coherent c pages) (own : c.Addressable page)
    (hit : c.lookup page = some i) (rest : c.HoldsRest page offset data.length)
    (eq : put = c.putBuffer i
      ⟨cpy data (c.pool i).content offset, true, page, Cache.used (c.pool i)⟩) :
    Coherent (if (c.pool i).dirty then put else put.giveDirty)
      (update pages page (cpy data (pages page) offset)) := by
  obtain ⟨before, alone⟩ := h.hit_first hit
  subst eq
  refine h.install (j := i)
    (b := ⟨cpy data (c.pool i).content offset, true, page, Cache.used (c.pool i)⟩)
    ⟨?_, ?_, ?_, ?_, used_ne_zero, used_le (h.use_le i), own, ?_, fun _ ne =>
      update_of_ne ne .., ?_, before, alone,
      fun _ => (Cache.lookup_spec hit).1, by simp⟩
  · split <;> rfl
  · split <;> rfl
  · split <;> rfl
  · split
    case isTrue dirty => exact h.counted.trans (Eq.symm (tally_keep (by simp [dirty])))
    case isFalse clean => exact h.dirtySem_give (Bool.eq_false_iff.mpr clean) rfl
  · rw [update_self]
    exact h.hit_rest own hit rest
  · intro page' _ _
    split <;> rfl

theorem writeLoad {offset n} {block} (h : Coherent c pages) (own : c.Addressable page)
    (miss : c.lookup page = none) (victim : c.reserveBuffer = some j)
    (same : cpy data block offset = cpy data (c.medium (c.address page)) offset) :
    Coherent ({ c with failedAttempt := n }.putBuffer j
        ⟨cpy data block offset, true, page, 1⟩).giveDirty
      (update pages page (cpy data (pages page) offset)) := by
  have miss := Cache.lookup_none.mp miss
  have clean := (Cache.reserveBuffer_spec victim).1
  have onCard := h.stored_of_miss own fun k _ => miss k
  refine h.install (j := j) (b := ⟨cpy data block offset, true, page, 1⟩)
    ⟨rfl, rfl, rfl, h.dirtySem_give clean rfl, by simp, by simp [maxUse], own, ?_,
      fun _ ne => update_of_ne ne .., fun _ _ _ => rfl, h.before_victim victim,
      fun k _ _ => miss k, by simp [clean], by simp⟩
  rw [update_self, same, onCard]

end Coherent

end PageCache
