import OpenLab.Fat32Directory
import OpenLab.ChainLedger

/-!
# Consistent volumes

The root directory and the files own chains of clusters. In a consistent volume the chains have no
cluster in common and lie inside the volume, and all other clusters are free.
-/

namespace Fat32

open PageCache (Block PageArray cpy bytes pageSize)
open LinkedCells ChainLedger List
open Function (update update_of_ne update_self)

abbrev Owner := Option Slot

def DirEntry.head (dir : DirEntry) : Option UInt32 :=
  if dir.isFile = true ∧ dir.startCluster ≠ 0 then some dir.startCluster else none

def headOf (fat : Fat) (pages : PageArray) : Owner → Option UInt32
  | none => some 2
  | some slot => if slot ∈ directory fat pages then (dirAt pages slot).head else none

structure Consistent (fat : Fat) (pages : PageArray) (cells : Owner → List UInt32) : Prop where
  ledger : Ledger (nextOf (entry fat pages)) (headOf fat pages) cells
  inside : ∀ o, ∀ c ∈ cells o, fat.Inside c
  free : ∀ c, fat.Inside c → (∀ o, c ∉ cells o) → entry fat pages c = 0
  reserved : entry fat pages 0 ≠ 0 ∧ entry fat pages 1 ≠ 0

/-- A sector that is neither in the file allocation table nor in the root directory. -/
def Clear (fat : Fat) (root : List UInt32) (page : UInt32) : Prop :=
  ¬fat.InTable page ∧ ∀ c ∈ root, ¬fat.InCluster c page

section Chains

variable {fat : Fat} {pages : PageArray} {cells : Owner → List UInt32} {c : UInt32} {o : Owner}

theorem isEnd_endOfChain : isEnd endOfChain = true := by decide

theorem nextOf_update {table} {v} :
    nextOf (update table c v) =
      update (nextOf table) c (if isEnd v then none else some v) := by
  funext c'
  rcases eq_or_ne c' c with rfl | ne
  · simp [nextOf]
  · simp [nextOf, update_of_ne ne]

theorem Fat.Inside.not_isEnd (h : fat.Inside c) (valid : fat.Valid) : isEnd c = false := by
  by_contra mark
  rw [Bool.not_eq_false, isEnd, beq_iff_eq] at mark
  have low : (c &&& 0x0FFFFFF8).toNat ≤ c.toNat := by
    exact Nat.and_le_left
  rw [mark] at low
  have := h.2
  have := valid.marks
  have : (0x0FFFFFF8 : UInt32).toNat = 0x0FFFFFF8 := rfl
  omega

theorem Fat.Inside.not_low (h : fat.Inside c) : ¬(c = 0 ∨ c = 1) := by
  have low := h.1
  rintro (rfl | rfl) <;> simp at low

theorem Fat.Valid.indexed_low (valid : fat.Valid) (low : c = 0 ∨ c = 1) : fat.Indexed c := by
  have covers := valid.covers
  have room := valid.root
  unfold Indexed
  rcases low with rfl | rfl
  · rw [UInt32.toNat_zero]
    omega
  · rw [UInt32.toNat_one]
    omega

theorem length_le_maxClust {l : List UInt32} (nodup : l.Nodup) (inside : ∀ c ∈ l, fat.Inside c) :
    l.length ≤ fat.maxClust.toNat := by
  have numbers : (l.map UInt32.toNat).Nodup :=
    nodup.map fun _ _ same => UInt32.toNat_inj.mp same
  have subset : l.map UInt32.toNat ⊆ range fat.maxClust.toNat := by
    intro n mem
    obtain ⟨c, here, rfl⟩ := mem_map.mp mem
    exact mem_range.mpr (inside c here).2
  simpa using (numbers.subperm subset).length_le

theorem root_eq {head : Owner → Option UInt32}
    (ledger : Ledger (nextOf (entry fat pages)) head cells) (start : head none = some 2)
    (inside : ∀ c ∈ cells none, fat.Inside c) : root fat pages = cells none := by
  have chain := ledger.chain none
  rw [start] at chain
  exact chain.trace_eq (length_le_maxClust chain.nodup inside)

theorem entry_ne_zero_of_chain {head} {l}
    (chain : Chain (nextOf (entry fat pages)) head l) (inside : ∀ c ∈ l, fat.Inside c)
    (mem : c ∈ l) : entry fat pages c ≠ 0 := by
  obtain ⟨pre, post, split⟩ := append_of_mem mem
  rw [split] at chain
  have next := chain.next_eq
  intro zero
  have plain : nextOf (entry fat pages) c = some 0 := by
    simp only [nextOf, zero]
    rfl
  rw [plain] at next
  have mem' : (0 : UInt32) ∈ l := by
    rw [split]
    exact mem_append_right _ (mem_cons_of_mem _ (mem_of_mem_head? next.symm))
  have := (inside 0 mem').1
  simp at this

namespace Consistent

section

variable (h : Consistent fat pages cells)

include h

theorem root_eq : root fat pages = cells none :=
  Fat32.root_eq h.ledger rfl (h.inside none)

theorem mem_directory (valid : fat.Valid) {slot} : slot ∈ directory fat pages ↔
      (∃ c ∈ cells none, fat.InCluster c slot.sector) ∧ slot.Aligned := by
  rw [directory, h.root_eq, mem_flatMap]
  constructor
  · rintro ⟨c, mem, here⟩
    obtain ⟨sector, aligned⟩ := (mem_slots valid).mp here
    exact ⟨⟨c, mem, sector⟩, aligned⟩
  · rintro ⟨⟨c, mem, sector⟩, aligned⟩
    exact ⟨c, mem, (mem_slots valid).mpr ⟨sector, aligned⟩⟩

theorem entry_ne_zero (mem : c ∈ cells o) : entry fat pages c ≠ 0 :=
  entry_ne_zero_of_chain (h.ledger.chain o) (h.inside o) mem

theorem not_owned (zero : entry fat pages c = 0) (o : Owner) : c ∉ cells o :=
  fun mem => h.entry_ne_zero mem zero

theorem ne_reserved (zero : entry fat pages c = 0) : c ≠ 0 ∧ c ≠ 1 := by
  constructor
  · rintro rfl
    exact h.reserved.1 zero
  · rintro rfl
    exact h.reserved.2 zero

theorem clear (valid : fat.Valid) {slot} {page} (mem : c ∈ cells (some slot))
    (here : fat.InCluster c page) : Clear fat (cells none) page := by
  have inside := h.inside _ c mem
  refine ⟨here.not_inTable inside valid, fun c' mem' here' => ?_⟩
  obtain rfl := here.unique here' inside (h.inside none c' mem') valid
  exact Option.some_ne_none slot (h.ledger.owner_eq mem mem')

end

end Consistent

end Chains

section Steps

variable {fat : Fat} {d : Disk} {cells : Owner → List UInt32} {c : UInt32} {slot : Slot}
  {page : UInt32} {offset : Nat} {data : List UInt8} {pages pages' : PageArray}

theorem sector_not_inTable (h : Consistent fat d.pages cells) (valid : fat.Valid)
    (mem : slot ∈ directory fat d.pages) : ¬fat.InTable slot.sector := by
  obtain ⟨⟨r, root, here⟩, _⟩ := (h.mem_directory valid).mp mem
  exact here.not_inTable (h.inside none r root) valid

theorem dirAt_setEntry {v} (indexed : fat.Indexed c) (outside : ¬fat.InTable slot.sector) :
    dirAt (d.setEntry fat c v).pages slot = dirAt d.pages slot :=
  dirAt_put fun same => absurd (same ▸ indexed.inTable) outside

theorem Consistent.of_ledger {cells'} (h : Consistent fat pages cells)
    (head' : Owner → Option UInt32) (root : cells' none = cells none) (start : head' none = some 2)
    (heads : ∀ slot, head' (some slot) =
      if slot ∈ directory fat pages then (dirAt pages' slot).head else none)
    (ledger : Ledger (nextOf (entry fat pages')) head' cells')
    (inside : ∀ o, ∀ c ∈ cells' o, fat.Inside c)
    (free : ∀ c, fat.Inside c → (∀ o, c ∉ cells' o) → entry fat pages' c = 0)
    (reserved : entry fat pages' 0 ≠ 0 ∧ entry fat pages' 1 ≠ 0) :
    Consistent fat pages' cells' := by
  have places : directory fat pages' = directory fat pages := by
    rw [directory, directory, h.root_eq, Fat32.root_eq ledger start (inside none), root]
  have same : headOf fat pages' = head' := by
    funext o
    cases o with
    | none => exact start.symm
    | some slot => rw [heads, headOf, places]
  refine ⟨?_, inside, free, reserved⟩
  rw [same]
  exact ledger

theorem Consistent.reserved_of (h : Consistent fat pages cells)
    (same : ∀ c, c = 0 ∨ c = 1 → entry fat pages' c = entry fat pages c) :
    entry fat pages' 0 ≠ 0 ∧ entry fat pages' 1 ≠ 0 := by
  rw [same 0 (.inl rfl), same 1 (.inr rfl)]
  exact h.reserved

theorem Consistent.congr (h : Consistent fat pages cells) (valid : fat.Valid)
    (table : ∀ c, c.toNat < fat.maxClust.toNat → entry fat pages' c = entry fat pages c)
    (entries : ∀ slot ∈ directory fat pages, (dirAt pages' slot).head = (dirAt pages slot).head) :
    Consistent fat pages' cells := by
  have room := valid.root
  refine h.of_ledger (headOf fat pages) rfl rfl ?_ (h.ledger.frame ?_) h.inside ?_
    (h.reserved_of ?_)
  · intro slot
    by_cases mem : slot ∈ directory fat pages
    · rw [headOf, if_pos mem, if_pos mem, entries slot mem]
    · rw [headOf, if_neg mem, if_neg mem]
  · intro o c mem
    rw [nextOf, nextOf, table c (h.inside o c mem).2]
  · intro c inside unowned
    rw [table c inside.2]
    exact h.free c inside unowned
  · rintro c (rfl | rfl)
    · exact table 0 (by simp; omega)
    · exact table 1 (by simp; omega)

theorem Consistent.put (h : Consistent fat d.pages cells) (valid : fat.Valid)
    (clear : Clear fat (cells none) page) :
    Consistent fat (d.put page offset data).pages cells := by
  refine h.congr valid
    (fun c low => entry_put (lt_of_lt_of_le low valid.covers) clear.1) fun slot mem => ?_
  obtain ⟨⟨r, root, here⟩, _⟩ := (h.mem_directory valid).mp mem
  have same : dirAt (d.put page offset data).pages slot = dirAt d.pages slot :=
    dirAt_put fun same => absurd (same ▸ here) (clear.2 r root)
  rw [same]

theorem dirAt_put_ne {slot'} (aligned : slot.Aligned) (aligned' : slot'.Aligned)
    (ne : slot' ≠ slot) (low : slot.index ≤ offset)
    (high : offset + data.length ≤ slot.index + 32) :
    dirAt (d.put slot.sector offset data).pages slot' = dirAt d.pages slot' := by
  refine dirAt_put fun same => ?_
  have := aligned'.apart aligned ne same.symm
  omega

theorem Consistent.putSize {v} (h : Consistent fat d.pages cells) (valid : fat.Valid)
    (mem : slot ∈ directory fat d.pages) :
    Consistent fat (d.put slot.sector (slot.index + 28) (write32 v)).pages cells := by
  have outside := sector_not_inTable h valid mem
  refine h.congr valid
    (fun c low => entry_put (lt_of_lt_of_le low valid.covers) outside) fun slot' mem' => ?_
  rcases eq_or_ne slot' slot with rfl | ne
  · rw [dirAt_size (aligned_of_mem valid mem).fits]
    generalize dirAt d.pages slot' = dir
    rfl
  · rw [dirAt_put_ne (aligned_of_mem valid mem) (aligned_of_mem valid mem') ne (by omega)
      (by rw [length_write32])]

theorem Consistent.beyond (h : Consistent fat d.pages cells) (valid : fat.Valid)
    (indexed : fat.Indexed c) (high : fat.maxClust.toNat ≤ c.toNat) :
    Consistent fat (d.allot fat c).pages cells := by
  refine h.congr valid (fun c' low => entry_setEntry_ne ?_) fun slot mem => ?_
  · rintro rfl
    omega
  · have same : dirAt (d.allot fat c).pages slot = dirAt d.pages slot :=
      dirAt_setEntry indexed (sector_not_inTable h valid mem)
    rw [same]

section Link

variable {pre : List UInt32} {z : UInt32}

theorem entry_link : entry fat ((d.allot fat c).setEntry fat z c).pages =
    update (update (entry fat d.pages) c endOfChain) z c := by
  have allot : entry fat (d.allot fat c).pages =
      update (entry fat d.pages) c endOfChain := entry_setEntry
  rw [entry_setEntry, allot]

theorem Consistent.link (h : Consistent fat d.pages cells) (valid : fat.Valid)
    (inside : fat.Inside c) (zero : entry fat d.pages c = 0)
    (last : cells (some slot) = pre ++ [z]) :
    Consistent fat ((d.allot fat c).setEntry fat z c).pages
      (update cells (some slot) (pre ++ [z, c])) := by
  have inside_z : fat.Inside z := h.inside (some slot) z (by rw [last]; simp)
  have table : ∀ c', c' ≠ c → c' ≠ z →
      entry fat ((d.allot fat c).setEntry fat z c).pages c' = entry fat d.pages c' := by
    intro c' ne_c ne_z
    rw [entry_link, update_of_ne ne_z, update_of_ne ne_c]
  have next : nextOf (entry fat ((d.allot fat c).setEntry fat z c).pages) =
      update (update (nextOf (entry fat d.pages)) c none) z (some c) := by
    rw [entry_link, nextOf_update, nextOf_update, if_pos isEnd_endOfChain,
      inside.not_isEnd valid]
    rfl
  refine h.of_ledger (headOf fat d.pages) (update_of_ne (by simp) _ _) rfl ?_ ?_ ?_ ?_
    (h.reserved_of ?_)
  · intro slot'
    by_cases mem : slot' ∈ directory fat d.pages
    · have outside := sector_not_inTable h valid mem
      have allot : dirAt (d.allot fat c).pages slot' = dirAt d.pages slot' :=
        dirAt_setEntry (inside.indexed valid) outside
      rw [headOf, if_pos mem, if_pos mem, dirAt_setEntry (inside_z.indexed valid) outside, allot]
    · rw [headOf, if_neg mem, if_neg mem]
  · rw [next]
    exact h.ledger.extend (h.not_owned zero) last
  · intro o c' mem
    rcases eq_or_ne o (some slot) with rfl | ne
    · rw [update_self] at mem
      rcases mem_append.mp mem with early | late
      · exact h.inside (some slot) c' (by rw [last]; simp [early])
      · rcases mem_cons.mp late with rfl | late
        · exact inside_z
        · exact mem_singleton.mp late ▸ inside
    · rw [update_of_ne ne] at mem
      exact h.inside o c' mem
  · intro c' inside' unowned
    have own := unowned (some slot)
    rw [update_self] at own
    have ne_c : c' ≠ c := fun same => own (by rw [same]; simp)
    have ne_z : c' ≠ z := fun same => own (by rw [same]; simp)
    rw [table c' ne_c ne_z]
    refine h.free c' inside' fun o mem => ?_
    rcases eq_or_ne o (some slot) with rfl | ne
    · rw [last] at mem
      refine own ?_
      rcases mem_append.mp mem with early | late
      · exact mem_append_left _ early
      · exact absurd (mem_singleton.mp late) ne_z
    · have := unowned o
      rw [update_of_ne ne] at this
      exact this mem
  · intro c' low
    exact table c' (fun same => inside.not_low (same ▸ low))
      fun same => inside_z.not_low (same ▸ low)

end Link

theorem Consistent.cells_nil (h : Consistent fat d.pages cells)
    (none : (dirAt d.pages slot).head = none) : cells (some slot) = [] := by
  have chain := h.ledger.chain (some slot)
  have head : headOf fat d.pages (some slot) = .none := by
    rw [headOf, none, ite_self]
  rwa [head, chain_none_iff] at chain

theorem startCluster_of_head {dir : DirEntry} (h : dir.head = some c) : dir.startCluster = c := by
  unfold DirEntry.head at h
  split at h
  · exact Option.some.inj h
  · cases h

theorem head_of_not_isFile {dir : DirEntry} (h : dir.isFile = false) : dir.head = none := by
  rw [DirEntry.head, if_neg (by simp [h])]

theorem isFile_of_unused (h : unused pages slot = true) : (dirAt pages slot).isFile = false := by
  unfold unused at h
  rw [Bool.or_eq_true, beq_iff_eq, beq_iff_eq] at h
  rcases h with mark | mark <;> simp [DirEntry.isFile, mark]

theorem Consistent.enter (h : Consistent fat d.pages cells) (valid : fat.Valid)
    (inside : fat.Inside c) (zero : entry fat d.pages c = 0)
    (mem : slot ∈ directory fat d.pages) (empty : (dirAt d.pages slot).isFile = false)
    (low : slot.index ≤ offset) (high : offset + data.length ≤ slot.index + 32)
    (head : (dirAt ((d.allot fat c).put slot.sector offset data).pages slot).head = some c) :
    Consistent fat ((d.allot fat c).put slot.sector offset data).pages
      (update cells (some slot) [c]) := by
  have outside := sector_not_inTable h valid mem
  have indexed := inside.indexed valid
  have table : ∀ c', fat.Indexed c' → entry fat ((d.allot fat c).put slot.sector offset data).pages
      c' = update (entry fat d.pages) c endOfChain c' := by
    intro c' indexed'
    rw [entry_put indexed' outside]
    exact congrFun entry_setEntry c'
  have chains : Ledger (nextOf (entry fat ((d.allot fat c).put slot.sector offset data).pages))
      (update (headOf fat d.pages) (some slot) (some c))
      (update cells (some slot) [c]) := by
    refine (h.ledger.claim (h.not_owned zero)).frame fun o c' mem' => ?_
    have inside' : fat.Inside c' := by
      rcases eq_or_ne o (some slot) with rfl | ne
      · rw [update_self] at mem'
        exact mem_singleton.mp mem' ▸ inside
      · rw [update_of_ne ne] at mem'
        exact h.inside o c' mem'
    have next : nextOf (update (entry fat d.pages) c endOfChain) =
        update (nextOf (entry fat d.pages)) c none := by
      rw [nextOf_update, if_pos isEnd_endOfChain]
    rw [← next, nextOf, nextOf, table c' (inside'.indexed valid)]
  refine h.of_ledger (update (headOf fat d.pages) (some slot) (some c))
    (update_of_ne (by simp) _ _) (update_of_ne (by simp) _ _) ?_ chains ?_ ?_
    (h.reserved_of ?_)
  · intro slot'
    rcases eq_or_ne slot' slot with rfl | ne
    · rw [update_self, if_pos mem, head]
    · rw [update_of_ne (by simpa using ne), headOf]
      by_cases mem' : slot' ∈ directory fat d.pages
      · have allot : dirAt (d.allot fat c).pages slot' = dirAt d.pages slot' :=
          dirAt_setEntry indexed (sector_not_inTable h valid mem')
        rw [if_pos mem', if_pos mem', dirAt_put_ne (aligned_of_mem valid mem)
          (aligned_of_mem valid mem') ne low high, allot]
      · rw [if_neg mem', if_neg mem']
  · intro o c' mem'
    rcases eq_or_ne o (some slot) with rfl | ne
    · rw [update_self] at mem'
      exact mem_singleton.mp mem' ▸ inside
    · rw [update_of_ne ne] at mem'
      exact h.inside o c' mem'
  · intro c' inside' unowned
    have own := unowned (some slot)
    rw [update_self, mem_singleton] at own
    rw [table c' (inside'.indexed valid), update_of_ne own]
    refine h.free c' inside' fun o mem' => ?_
    rcases eq_or_ne o (some slot) with rfl | ne
    · rw [h.cells_nil (head_of_not_isFile empty)] at mem'
      exact not_mem_nil mem'
    · have := unowned o
      rw [update_of_ne ne] at this
      exact this mem'
  · intro c' low'
    have ne : c' ≠ c := fun same => inside.not_low (same ▸ low')
    rw [table c' (valid.indexed_low low'), update_of_ne ne]

def Disk.freeAll (d : Disk) (fat : Fat) (l : List UInt32) : Disk :=
  l.foldl (fun d c => d.setEntry fat c 0) d

variable {l : List UInt32}

theorem entry_freeAll {c'} :
    entry fat (d.freeAll fat l).pages c' = if c' ∈ l then 0 else entry fat d.pages c' := by
  induction l generalizing d with
  | nil => simp [Disk.freeAll]
  | cons c l ih =>
    change entry fat ((d.setEntry fat c 0).freeAll fat l).pages c' = _
    rw [ih, entry_setEntry]
    by_cases later : c' ∈ l
    · simp [later]
    · rcases eq_or_ne c' c with rfl | ne
      · simp
      · simp [later, ne]

theorem dirAt_freeAll (indexed : ∀ c ∈ l, fat.Indexed c) (outside : ¬fat.InTable slot.sector) :
    dirAt (d.freeAll fat l).pages slot = dirAt d.pages slot := by
  induction l generalizing d with
  | nil => rfl
  | cons c l ih =>
    change dirAt ((d.setEntry fat c 0).freeAll fat l).pages slot = _
    rw [ih fun c' mem => indexed c' (mem_cons_of_mem c mem),
      dirAt_setEntry (indexed c mem_cons_self) outside]

theorem Disk.Sound.freeAll (h : d.Sound) : (d.freeAll fat l).Sound := by
  induction l generalizing d with
  | nil => exact h
  | cons c l ih => exact ih (d := d.setEntry fat c 0) h

theorem mark_deleted (fits : slot.index + 32 ≤ pageSize) :
    (dirAt (d.put slot.sector slot.index [deleted]).pages slot).mark = deleted := by
  have back : bytes (cpy [deleted] (d.pages slot.sector) slot.index) slot.index 1 = [deleted] :=
    PageCache.bytes_cpy_self (by simp; omega)
  rw [mark_eq fits, Disk.put_self, back]
  rfl

theorem Consistent.remove (h : Consistent fat d.pages cells) (valid : fat.Valid)
    (mem : slot ∈ directory fat d.pages) :
    Consistent fat ((d.put slot.sector slot.index [deleted]).freeAll fat (cells (some slot))).pages
      (update cells (some slot) []) := by
  have outside := sector_not_inTable h valid mem
  have indexed : ∀ c ∈ cells (some slot), fat.Indexed c := fun c own =>
    (h.inside (some slot) c own).indexed valid
  have table : ∀ c', fat.Indexed c' →
    entry fat ((d.put slot.sector slot.index [deleted]).freeAll fat
      (cells (some slot))).pages c' =
      if c' ∈ cells (some slot) then 0 else entry fat d.pages c' := by
    intro c' indexed'
    rw [entry_freeAll, entry_put indexed' outside]
  refine h.of_ledger (update (headOf fat d.pages) (some slot) none)
    (update_of_ne (by simp) _ _) (update_of_ne (by simp) _ _) ?_
    (h.ledger.release ?_) ?_ ?_ (h.reserved_of ?_)
  · intro slot'
    rcases eq_or_ne slot' slot with rfl | ne
    · have gone : (dirAt (d.put slot'.sector slot'.index [deleted]).pages slot').isFile =
          false := by
        simp [DirEntry.isFile, mark_deleted (aligned_of_mem valid mem).fits]
      rw [update_self, if_pos mem, dirAt_freeAll indexed outside, head_of_not_isFile gone]
    · rw [update_of_ne (by simpa using ne), headOf]
      by_cases mem' : slot' ∈ directory fat d.pages
      · rw [if_pos mem', if_pos mem', dirAt_freeAll indexed (sector_not_inTable h valid mem'),
          dirAt_put_ne (aligned_of_mem valid mem) (aligned_of_mem valid mem') ne le_rfl (by simp)]
      · rw [if_neg mem', if_neg mem']
  · intro o ne c' mem'
    have other : c' ∉ cells (some slot) := fun own => ne (h.ledger.owner_eq mem' own)
    rw [nextOf, nextOf, table c' ((h.inside o c' mem').indexed valid), if_neg other]
  · intro o c' mem'
    rcases eq_or_ne o (some slot) with rfl | ne
    · rw [update_self] at mem'
      exact absurd mem' not_mem_nil
    · rw [update_of_ne ne] at mem'
      exact h.inside o c' mem'
  · intro c' inside' unowned
    rw [table c' (inside'.indexed valid)]
    split
    · rfl
    · rename_i other
      refine h.free c' inside' fun o mem' => ?_
      rcases eq_or_ne o (some slot) with rfl | ne
      · exact other mem'
      · have := unowned o
        rw [update_of_ne ne] at this
        exact this mem'
  · intro c' low'
    have other : c' ∉ cells (some slot) := fun own => (h.inside _ c' own).not_low low'
    rw [table c' (valid.indexed_low low'), if_neg other]

end Steps

end Fat32
