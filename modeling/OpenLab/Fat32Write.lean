import OpenLab.Fat32Calls

/-!
# Writing a file

`file_write` on a consistent volume. A call for which no cluster is found has already counted the
sector up, and the next call goes on behind the cluster.
-/

namespace Fat32

open PageCache (Block PageArray cpy bytes pageSize length_bytes_of_le)
open Function LinkedCells ChainLedger List

def after {ε σ α : Type} : EStateM.Result ε σ α → σ
  | .ok _ s => s
  | .error _ s => s

def Disk.flushed (d : Disk) (f : File) : Disk :=
  (d.put f.currentSector 0 (bytes f.pbuf 0 pageSize)).put f.descriptor.sector
    (f.descriptor.index + 28) (write32 f.dir.size)

namespace File

def enter (f : File) (fat : Fat) (c : UInt32) : File :=
  { f with currentCluster := c, currentSector := fat.firstSector c, sectorIndex := 0 }

def next (f : File) : File :=
  { f with sectorIndex := f.sectorIndex + 1, currentSector := f.currentSector + 1 }

/-- The file has counted a sector that it could not leave. -/
def stuck (f : File) : File := { f with sectorIndex := f.sectorIndex + 1 }

def flushes (f : File) (size : Nat) : Nat := (f.bufferIndex + size - 1) / pageSize

/-- The file stands in its current cluster, at the sector that it has counted. -/
def Placed (fat : Fat) (f : File) : Prop :=
  f.sectorIndex.toNat < fat.sectPerClust.toNat ∧
    f.currentSector = fat.firstSector f.currentCluster + UInt32.ofNat f.sectorIndex.toNat

end File

namespace Fat

variable (fat : Fat)

/-- The sectors that a file writes before it reserves a cluster, from a sector and its number on. -/
def ahead : Nat → UInt8 → UInt32 → List UInt32
  | 0, _, _ => []
  | k + 1, index, sector =>
    sector :: if index + 1 = fat.sectPerClust then [] else ahead k (index + 1) (sector + 1)

/-- How many clusters a file reserves for a number of sectors. -/
def allocations : Nat → UInt8 → Nat
  | 0, _ => 0
  | k + 1, index =>
    if index + 1 = fat.sectPerClust then allocations k 0 + 1 else allocations k (index + 1)

end Fat

variable {fat : Fat} {d : Disk} {cells : Owner → List UInt32} {f : File}

/-- The outcomes of writing a full sector when no access fails. -/
inductive Flushed (fat : Fat) (f : File) (d : Disk) : EStateM.Result Error (File × Disk) Unit → Prop
  | next : f.sectorIndex + 1 ≠ fat.sectPerClust → Flushed fat f d (.ok () (f.next, d.flushed f))
  | linked {c : UInt32} {rest : List UInt32} : f.sectorIndex + 1 = fat.sectPerClust →
      vacant fat (d.flushed f) = c :: rest → c.toNat ≤ fat.maxClust.toNat →
      Flushed fat f d (.ok () (f.enter fat c,
        ((d.flushed f).allot fat c).setEntry fat f.currentCluster c))
  | full : f.sectorIndex + 1 = fat.sectPerClust → vacant fat (d.flushed f) = [] →
      Flushed fat f d (.error .wrongCluster (f.stuck, (d.flushed f).forget))
  | beyond {c : UInt32} {rest : List UInt32} : f.sectorIndex + 1 = fat.sectPerClust →
      vacant fat (d.flushed f) = c :: rest → fat.maxClust.toNat < c.toNat →
      Flushed fat f d (.error .wrongCluster (f.stuck, (d.flushed f).allot fat c))

variable {s : File × Disk} {c : UInt32}

theorem onDisk_ok {α : Type} {op : Op α} {a : α} {d : Disk} (h : op s.2 = .ok a d) :
    onDisk op s = .ok a (s.1, d) := by
  simp [onDisk, h]

theorem onDisk_error {α : Type} {op : Op α} {e : Error} {d : Disk} (h : op s.2 = .error e d) :
    onDisk op s = .error e (s.1, d) := by
  simp [onDisk, h]

theorem setNextCluster_refused {v} (h : v = 1 ∨ fat.maxClust.toNat < v.toNat) :
    setNextCluster fat c v d = .error .wrongCluster d := by
  have refused : (c ≠ 0 ∧ (c < 2 ∨ c > fat.maxClust)) ∨ v = 1 ∨ v > fat.maxClust := by
    rcases h with one | high
    · exact .inr (.inl one)
    · exact .inr (.inr (UInt32.lt_iff_toNat_lt.mpr high))
  rw [setNextCluster, if_pos refused]
  rfl

theorem flush_start (sound : d.Sound) (aligned : f.descriptor.Aligned) :
    flush fat (f, d) = (do
      if f.sectorIndex + 1 = fat.sectPerClust then
        let tmp ← onDisk (findEmptyCluster fat)
        onDisk (setNextCluster fat f.currentCluster tmp)
        modifyFile fun f =>
          { f with currentCluster := tmp, currentSector := fat.firstSector tmp, sectorIndex := 0 }
      else
        modifyFile fun f => { f with currentSector := f.currentSector + 1 } : FileOp Unit)
      (f.stuck, d.flushed f) := by
  have fits := aligned.fits
  have page : onDisk (writeBytes f.currentSector 0 (bytes f.pbuf 0 pageSize)) (f, d) =
      .ok () (f, d.put f.currentSector 0 (bytes f.pbuf 0 pageSize)) :=
    onDisk_ok (writeBytes_sound sound (by rw [length_bytes_of_le (by simp)]; simp))
  have size : onDisk (writeSize f) (f, d.put f.currentSector 0 (bytes f.pbuf 0 pageSize)) =
      .ok () (f, d.flushed f) :=
    onDisk_ok (writeBytes_sound sound.put (by rw [length_write32]; omega))
  change (onDisk _ >>= _) (f, d) = _
  rw [bind_ok page, bind_ok size]
  rfl

theorem flush_next (sound : d.Sound) (aligned : f.descriptor.Aligned)
    (more : f.sectorIndex + 1 ≠ fat.sectPerClust) :
    flush fat (f, d) = .ok () (f.next, d.flushed f) := by
  rw [flush_start sound aligned, if_neg more]
  rfl

theorem flush_sound (valid : fat.Valid) (sound : d.Sound) (aligned : f.descriptor.Aligned)
    (cluster : fat.Inside f.currentCluster)
    (reserved : entry fat (d.flushed f).pages 1 ≠ 0) :
    Flushed fat f d (flush fat (f, d)) := by
  have sound' : (d.flushed f).Sound := sound.put.put
  by_cases last : f.sectorIndex + 1 = fat.sectPerClust
  · rw [flush_start sound aligned, if_pos last]
    cases clusters : vacant fat (d.flushed f) with
    | nil =>
      have search : onDisk (findEmptyCluster fat) (f.stuck, d.flushed f) =
          .ok 1 (f.stuck, (d.flushed f).forget) :=
        onDisk_ok (findEmptyCluster_none valid sound' clusters)
      rw [bind_ok search, bind_error (onDisk_error (setNextCluster_refused (.inl rfl)))]
      exact .full last clusters
    | cons c rest =>
      have search : onDisk (findEmptyCluster fat) (f.stuck, d.flushed f) =
          .ok c (f.stuck, (d.flushed f).allot fat c) :=
        onDisk_ok (findEmptyCluster_some valid sound' clusters)
      rw [bind_ok search]
      by_cases high : fat.maxClust.toNat < c.toNat
      · rw [bind_error (onDisk_error (setNextCluster_refused (.inr high)))]
        exact .beyond last clusters high
      · have zero := ((mem_vacant valid).mp (clusters ▸ mem_cons_self)).2.2
        have other : c ≠ 1 := by
          rintro rfl
          exact reserved zero
        rw [bind_ok (onDisk_ok (setNextCluster_sound sound'.allot cluster other (by omega)))]
        exact .linked last clusters (by omega)
  · rw [flush_next sound aligned last]
    exact .next last

/-- The file stands in the last cluster of its chain. -/
structure File.Tracks (cells : Owner → List UInt32) (f : File) : Prop where
  last : ∃ pre, cells (some f.descriptor) = pre ++ [f.currentCluster]
  fits : f.bufferIndex ≤ pageSize

theorem File.Tracks.own (tracks : f.Tracks cells) :
    f.currentCluster ∈ cells (some f.descriptor) := by
  obtain ⟨pre, last⟩ := tracks.last
  rw [last]
  simp

/-- What a call on one file keeps: the volume stays consistent, and nobody else's clusters
change. -/
structure Kept (fat : Fat) (cells cells' : Owner → List UInt32) (s t : File × Disk) : Prop where
  sound : t.2.Sound
  consistent : Consistent fat t.2.pages cells'
  tracks : t.1.Tracks cells'
  descriptor : t.1.descriptor = s.1.descriptor
  others : ∀ o, o ≠ some s.1.descriptor → cells' o = cells o
  reserved : ∀ c, c = 0 ∨ c = 1 → entry fat t.2.pages c = entry fat s.2.pages c

variable {cells' : Owner → List UInt32} {t : File × Disk}

theorem Kept.trans {cells''} {u}
    (first : Kept fat cells cells' s t) (second : Kept fat cells' cells'' t u) :
    Kept fat cells cells'' s u where
  sound := second.sound
  consistent := second.consistent
  tracks := second.tracks
  descriptor := second.descriptor.trans first.descriptor
  others := fun o ne => by
    rw [second.others o (by rwa [first.descriptor]), first.others o ne]
  reserved := fun c low => (second.reserved c low).trans (first.reserved c low)

namespace Consistent

theorem mem_of_owner (h : Consistent fat d.pages cells) {slot} {c}
    (mem : c ∈ cells (some slot)) : slot ∈ directory fat d.pages := by
  by_contra absent
  have chain := h.ledger.chain (some slot)
  rw [headOf, if_neg absent, chain_none_iff] at chain
  rw [chain] at mem
  exact not_mem_nil mem

theorem flushed (h : Consistent fat d.pages cells) (valid : fat.Valid)
    (mem : f.descriptor ∈ directory fat d.pages)
    (clear : Clear fat (cells none) f.currentSector) :
    Consistent fat (d.flushed f).pages cells := by
  have page : Consistent fat (d.put f.currentSector 0 (bytes f.pbuf 0 pageSize)).pages cells :=
    h.put valid clear
  exact page.putSize valid ((page.mem_directory valid).mpr ((h.mem_directory valid).mp mem))

end Consistent

theorem entry_flushed (indexed : fat.Indexed c) (outside : ¬fat.InTable f.currentSector)
    (outside' : ¬fat.InTable f.descriptor.sector) :
    entry fat (d.flushed f).pages c = entry fat d.pages c := by
  rw [Disk.flushed, entry_put indexed outside', entry_put indexed outside]

theorem vacant_flushed (valid : fat.Valid) (outside : ¬fat.InTable f.currentSector)
    (outside' : ¬fat.InTable f.descriptor.sector) :
    vacant fat (d.flushed f) = vacant fat d :=
  vacant_congr valid rfl fun c indexed => by rw [entry_flushed indexed outside outside']

inductive Proceeds (fat : Fat) (f : File) (d : Disk) (cells cells' : Owner → List UInt32) :
    File × Disk → Prop
  | next {d' : Disk} : f.sectorIndex + 1 ≠ fat.sectPerClust → cells' = cells →
      vacant fat d' = vacant fat d → Proceeds fat f d cells cells' (f.next, d')
  | enter {d' : Disk} {c : UInt32} {rest : List UInt32} : f.sectorIndex + 1 = fat.sectPerClust →
      vacant fat d = c :: rest → vacant fat d' = rest →
      cells' (some f.descriptor) = cells (some f.descriptor) ++ [c] →
      Proceeds fat f d cells cells' (f.enter fat c, d')

theorem flush_keeps (valid : fat.Valid) (sound : d.Sound) (h : Consistent fat d.pages cells)
    (tracks : f.Tracks cells) (clear : Clear fat (cells none) f.currentSector)
    (slack : f.sectorIndex + 1 = fat.sectPerClust → fat.maxClust ∉ (vacant fat d).take 1) :
    ∃ cells', Kept fat cells cells' (f, d) (after (flush fat (f, d))) ∧
      ∀ t, flush fat (f, d) = .ok () t → Proceeds fat f d cells cells' t := by
  obtain ⟨pre, last⟩ := tracks.last
  have own := tracks.own
  have mem := h.mem_of_owner own
  have outside := sector_not_inTable h valid mem
  have flushed := h.flushed valid mem clear
  have vacant := vacant_flushed (d := d) (f := f) valid clear.1 outside
  have table : ∀ c, fat.Indexed c → entry fat (d.flushed f).pages c = entry fat d.pages c :=
    fun c indexed => entry_flushed indexed clear.1 outside
  have reserved : ∀ c, c = 0 ∨ c = 1 → entry fat (d.flushed f).pages c = entry fat d.pages c :=
    fun c low => table c (valid.indexed_low low)
  have sound' : (d.flushed f).Sound := sound.put.put
  have outcome := flush_sound valid sound (aligned_of_mem valid mem) (h.inside _ _ own)
    flushed.reserved.2
  generalize result : flush fat (f, d) = r at outcome
  cases outcome with
  | next more =>
    refine ⟨cells, ⟨sound', flushed, ⟨⟨pre, last⟩, tracks.fits⟩, rfl, fun _ _ => rfl, reserved⟩, ?_⟩
    rintro t done
    obtain rfl := (EStateM.Result.ok.inj done).2
    exact .next more rfl vacant
  | full end_of_cluster none =>
    refine ⟨cells, ⟨sound', flushed, ⟨⟨pre, last⟩, tracks.fits⟩, rfl, fun _ _ => rfl, reserved⟩, ?_⟩
    intro t done
    cases done
  | @beyond c rest end_of_cluster some high =>
    have indexed := ((mem_vacant valid).mp (some ▸ mem_cons_self)).2.1
    refine ⟨cells, ⟨sound'.allot, flushed.beyond valid indexed high.le, ⟨⟨pre, last⟩, tracks.fits⟩,
      rfl, fun _ _ => rfl, ?_⟩, ?_⟩
    · intro c' low
      have ne : c' ≠ c := by
        rintro rfl
        have := valid.root
        rcases low with rfl | rfl <;> simp at high
        omega
      rw [← reserved c' low]
      exact entry_setEntry_ne ne
    · intro t done
      cases done
  | @linked c rest end_of_cluster some le =>
    obtain ⟨_, indexed, zero⟩ := (mem_vacant valid).mp (some ▸ mem_cons_self)
    have ne_max : c ≠ fat.maxClust := by
      rintro rfl
      refine slack end_of_cluster ?_
      rw [← vacant, some]
      simp
    have inside : fat.Inside c := by
      obtain ⟨ne_zero, ne_one⟩ := flushed.ne_reserved zero
      have : c.toNat ≠ fat.maxClust.toNat := fun same => ne_max (UInt32.toNat_inj.mp same)
      have : c.toNat ≠ 0 := fun same => ne_zero (UInt32.toNat_inj.mp same)
      have : c.toNat ≠ 1 := fun same => ne_one (UInt32.toNat_inj.mp same)
      exact ⟨by omega, by omega⟩
    have linked := flushed.link valid inside zero last
    refine ⟨_, ⟨sound'.allot.setEntry, linked, ⟨⟨pre ++ [f.currentCluster], ?_⟩, tracks.fits⟩, rfl,
      ?_, ?_⟩, ?_⟩
    · change update cells (Option.some f.descriptor) _ (Option.some f.descriptor) = _
      rw [update_self, append_assoc]
      rfl
    · intro o ne
      exact update_of_ne ne _ _
    · intro c' low
      have ne : c' ≠ c := fun same => inside.not_low (same ▸ low)
      have ne' : c' ≠ f.currentCluster := fun same => (h.inside _ _ own).not_low (same ▸ low)
      rw [← reserved c' low]
      change entry fat (((d.flushed f).allot fat c).setEntry fat f.currentCluster c).pages c' = _
      rw [entry_link, update_of_ne ne', update_of_ne ne]
    · intro t done
      obtain rfl := (EStateM.Result.ok.inj done).2
      refine .enter end_of_cluster (vacant ▸ some) ?_ ?_
      · have ne : f.currentCluster ≠ c := ne_of_mem_of_not_mem own (flushed.not_owned zero _)
        rw [← vacant_allot valid some]
        refine vacant_congr valid rfl fun c' _ => ?_
        rcases eq_or_ne c' f.currentCluster with rfl | other
        · have before : entry fat ((d.flushed f).allot fat c).pages f.currentCluster ≠ 0 := by
            change entry fat ((d.flushed f).setEntry fat c endOfChain).pages _ ≠ 0
            rw [entry_setEntry_ne ne]
            exact flushed.entry_ne_zero own
          rw [entry_setEntry_self]
          exact ⟨fun zero' => absurd zero' (flushed.ne_reserved zero).1, fun zero' =>
            absurd zero' before⟩
        · rw [entry_setEntry_ne other]
      · rw [update_self, last, append_assoc]
        rfl

theorem flushes_succ {size} (fits : f.bufferIndex ≤ pageSize)
    (more : min size (pageSize - f.bufferIndex) < size) :
    f.flushes size = (size - min size (pageSize - f.bufferIndex) - 1) / pageSize + 1 := by
  unfold File.flushes pageSize at *
  omega

theorem flushes_rewind {size} : f.rewind.flushes size = (size - 1) / pageSize := by
  unfold File.flushes File.rewind
  rw [Nat.zero_add]

/-- A file that stands in its cluster writes to no other cluster before it reserves one. -/
theorem ahead_placed {page} {k} : ∀ (index : UInt8),
    index.toNat < fat.sectPerClust.toNat →
    page ∈ fat.ahead k index (fat.firstSector c + UInt32.ofNat index.toNat) →
    fat.InCluster c page := by
  induction k with
  | zero =>
    intro index _ mem
    exact absurd mem not_mem_nil
  | succ k ih =>
    intro index low mem
    rw [Fat.ahead, mem_cons] at mem
    rcases mem with rfl | later
    · exact ⟨index.toNat, low, rfl⟩
    · split at later
      · exact absurd later not_mem_nil
      · rename_i more
        have small := fat.sectPerClust.toNat_lt
        have next : (index + 1).toNat = index.toNat + 1 := by
          rw [UInt8.toNat_add, UInt8.toNat_one, Nat.mod_eq_of_lt]
          omega
        have different : index.toNat + 1 ≠ fat.sectPerClust.toNat := by
          rw [← next]
          exact fun same => more (UInt8.toNat_inj.mp same)
        refine ih (index + 1) (by omega) ?_
        rw [next, UInt32.ofNat_add, ← UInt32.add_assoc]
        exact later

theorem ahead_first {page} {k} (valid : fat.Valid)
    (mem : page ∈ fat.ahead k 0 (fat.firstSector c)) : fat.InCluster c page := by
  have start : fat.firstSector c + UInt32.ofNat (0 : UInt8).toNat = fat.firstSector c := by simp
  rw [← start] at mem
  exact ahead_placed 0 valid.clusters mem

variable {buf : List UInt8}

theorem Kept.of_fill {l} (kept : Kept fat cells cells' (s.1.fill buf l, s.2) t) :
    Kept fat cells cells' s t :=
  { kept with }

theorem Kept.rewind (kept : Kept fat cells cells' s t) :
    Kept fat cells cells' s (t.1.rewind, t.2) :=
  ⟨kept.sound, kept.consistent, ⟨kept.tracks.last, Nat.zero_le _⟩, kept.descriptor, kept.others,
    kept.reserved⟩

theorem File.Tracks.fill (tracks : f.Tracks cells) :
    (f.fill buf (min buf.length (pageSize - f.bufferIndex))).Tracks cells := by
  refine ⟨tracks.last, ?_⟩
  have := tracks.fits
  change f.bufferIndex + min buf.length (pageSize - f.bufferIndex) ≤ pageSize
  omega

/-- What a call that is to write `size` bytes may rely on: it writes neither to the table nor to
the directory, and it reserves no entry right behind the last cluster. -/
structure Harmless (fat : Fat) (s : File × Disk) (size : Nat) : Prop where
  clear : ∀ p ∈ fat.ahead (s.1.flushes size) s.1.sectorIndex s.1.currentSector,
    Clear fat (root fat s.2.pages) p
  slack : fat.maxClust ∉
    (vacant fat s.2).take (fat.allocations (s.1.flushes size) s.1.sectorIndex)

theorem flush_harmless (valid : fat.Valid) (sound : s.2.Sound) (h : Consistent fat s.2.pages cells)
    (tracks : s.1.Tracks cells) (harmless : Harmless fat s buf.length) {l}
    (share : l = min buf.length (pageSize - s.1.bufferIndex)) (more : l < buf.length) :
    ∃ cells', Kept fat cells cells' s (after (flush fat (s.1.fill buf l, s.2))) ∧
      ∀ t, flush fat (s.1.fill buf l, s.2) = .ok () t →
        Harmless fat (t.1.rewind, t.2) (buf.drop l).length := by
  subst share
  obtain ⟨clear, slack⟩ := harmless
  rw [flushes_succ tracks.fits more] at clear slack
  rw [h.root_eq] at clear
  have first : s.1.sectorIndex + 1 = fat.sectPerClust → fat.maxClust ∉ (vacant fat s.2).take 1 := by
    intro last mem
    rw [Fat.allocations, if_pos last] at slack
    exact slack (take_subset_take_left _ (by omega) mem)
  obtain ⟨cells', kept, proceeds⟩ :=
    flush_keeps valid sound h tracks.fill (clear _ mem_cons_self) first
  refine ⟨cells', kept.of_fill, fun t done => ?_⟩
  rw [done] at kept
  have count : t.1.rewind.flushes (buf.drop (min buf.length (pageSize - s.1.bufferIndex))).length =
      (buf.length - min buf.length (pageSize - s.1.bufferIndex) - 1) / pageSize := by
    rw [flushes_rewind, length_drop]
  constructor
  · rw [count, show root fat t.2.pages = _ from kept.consistent.root_eq]
    cases proceeds t done with
    | next other same vacant_eq =>
      intro p mem
      have other : s.1.sectorIndex + 1 ≠ fat.sectPerClust := other
      refine same ▸ clear p ?_
      rw [Fat.ahead, if_neg other]
      exact mem_cons_of_mem _ mem
    | @enter d' c rest last found vacant_eq own =>
      intro p mem
      exact kept.consistent.clear valid (by rw [own]; simp) (ahead_first valid mem)
  · rw [count]
    cases proceeds t done with
    | next other same vacant_eq =>
      have other : s.1.sectorIndex + 1 ≠ fat.sectPerClust := other
      rw [Fat.allocations, if_neg other] at slack
      rw [vacant_eq]
      exact slack
    | @enter d' c rest last found vacant_eq own =>
      have last : s.1.sectorIndex + 1 = fat.sectPerClust := last
      rw [Fat.allocations, if_pos last, found] at slack
      rw [vacant_eq]
      exact fun mem => slack (mem_cons_of_mem _ mem)

theorem fileWrite_short (short : f.bufferIndex + buf.length ≤ pageSize) :
    fileWrite fat buf (f, d) = .ok () (f.fill buf buf.length, d) := by
  have whole : min buf.length (pageSize - f.bufferIndex) = buf.length := by omega
  rw [fileWrite]
  simp [whole]

theorem fileWrite_keeps (valid : fat.Valid) (buf : List UInt8) (s : File × Disk)
    (sound : s.2.Sound) (h : Consistent fat s.2.pages cells) (tracks : s.1.Tracks cells)
    (harmless : Harmless fat s buf.length) :
    ∃ cells', Kept fat cells cells' s (after (fileWrite fat buf s)) := by
  fun_induction fileWrite fat buf s generalizing cells with
  | case1 buf s l f more _ t done =>
    rename_i ih
    obtain ⟨cells', kept, rest⟩ := flush_harmless valid sound h tracks harmless rfl more
    rw [show flush fat (s.1.fill buf l, s.2) = _ from done] at kept
    obtain ⟨cells'', kept'⟩ := ih kept.sound kept.consistent kept.rewind.tracks (rest t done)
    exact ⟨cells'', kept.rewind.trans kept'⟩
  | case2 buf s l f more e t =>
    rename_i failed
    obtain ⟨cells', kept, _⟩ := flush_harmless valid sound h tracks harmless rfl more
    rw [show flush fat (s.1.fill buf l, s.2) = _ from failed] at kept
    exact ⟨cells', kept⟩
  | case3 buf s l f =>
    exact ⟨cells, ⟨sound, h, tracks.fill, rfl, fun _ _ => rfl, fun _ _ => rfl⟩⟩

end Fat32
