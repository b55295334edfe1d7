import OpenLab.Fat32Integrity

/-!
# Writing again after an error

Calls of `file_write` and `file_close` on one file when any access may fail, between calls on
other files. As long as nothing is written to a file that could not get a cluster, its current
sector is in its chain.
-/

namespace Fat32

open PageCache (Block PageArray cpy bytes pageSize length_bytes_of_le)
open Function LinkedCells Schedules List

variable {fat : Fat} {d d' : Disk} {f : File} {c : UInt32}

section Accesses

variable {page : UInt32} {offset : Nat} {data : List UInt8}

structure Tried (page : UInt32) (offset : Nat) (data : List UInt8) (stored : Bool) (d d' : Disk) :
    Prop where
  pages : d'.pages = if stored then (d.put page offset data).pages else d.pages
  written : d'.written = (page, offset, data.length) :: d.written
  last : d'.lastFreeCluster = d.lastFreeCluster

theorem fsWrite_tried (d : Disk) (page : UInt32) (fits : offset + data.length ≤ pageSize) :
    ∃ stored d', Tried page offset data stored d d' ∧
      fsWrite page offset data d = .ok (if stored then data.length else 0) d' := by
  have whole : min data.length (pageSize - offset) = data.length := by omega
  cases fault : d.faults 0 with
  | true =>
    refine ⟨false, _, ⟨?_, ?_, ?_⟩, by simp only [fsWrite, fault, if_true]; rfl⟩ <;> rfl
  | false =>
    refine ⟨true, _, ⟨?_, ?_, ?_⟩, by
      simp only [fsWrite, fault, Bool.false_eq_true, if_false, whole, take_length]; rfl⟩ <;> rfl

theorem writeBytes_tried (d : Disk) (page : UInt32) (fits : offset + data.length ≤ pageSize)
    (some : 0 < data.length) :
    ∃ stored d', Tried page offset data stored d d' ∧
      writeBytes page offset data d = if stored then .ok () d' else .error .fsError d' := by
  obtain ⟨stored, d', tried, result⟩ := fsWrite_tried d page fits
  refine ⟨stored, d', tried, ?_⟩
  rw [writeBytes, bind_ok result]
  cases stored with
  | true =>
    simp only [if_true, ne_eq, not_true_eq_false, if_false]
    rfl
  | false =>
    have short : (0 : Nat) ≠ data.length := by omega
    simp only [Bool.false_eq_true, if_false, ne_eq, short, not_false_eq_true, if_true]
    rfl

theorem writeBytes_passes (passes : d.faults 0 = false) (fits : offset + data.length ≤ pageSize) :
    writeBytes page offset data d = .ok () (d.tick.put page offset data) := by
  have whole : min data.length (pageSize - offset) = data.length := by omega
  have stored : fsWrite page offset data d = .ok data.length (d.tick.put page offset data) := by
    simp only [fsWrite, passes, Bool.false_eq_true, if_false, whole, take_length]
    rfl
  rw [writeBytes, bind_ok stored, if_neg (not_not.mpr rfl)]
  rfl

theorem buffer_tried (f : File) (d : Disk) :
    ∃ stored d', Tried f.currentSector 0 (bytes f.pbuf 0 pageSize) stored d d' ∧
      writeBytes f.currentSector 0 (bytes f.pbuf 0 pageSize) d =
        if stored then .ok () d' else .error .fsError d' := by
  have length : (bytes f.pbuf 0 pageSize).length = pageSize := length_bytes_of_le (by simp)
  exact writeBytes_tried d _ (by rw [length]; simp) (by rw [length]; decide)

theorem size_tried (aligned : f.descriptor.Aligned) (d : Disk) :
    ∃ stored d', Tried f.descriptor.sector (f.descriptor.index + 28) (write32 f.dir.size) stored d
        d' ∧ writeSize f d = if stored then .ok () d' else .error .fsError d' := by
  have fits := aligned.fits
  exact writeBytes_tried d _ (by rw [length_write32]; omega) (Nat.zero_lt_succ 3)

theorem fsRead_tick (d : Disk) (page : UInt32) (offset size : Nat) :
    ∃ buf, fsRead page offset size d = .ok buf d.tick ∧
    (buf = bytes (d.pages page) offset size ∨ buf = []) := by
  refine ⟨_, rfl, ?_⟩
  cases d.faults 0 with
  | true => exact .inr rfl
  | false => exact .inl rfl

end Accesses

/-- Entries of the table that are in use stay, and only the table, the size of the file and the
sector where it stands are written. -/
structure Quiet (fat : Fat) (f : File) (d d' : Disk) : Prop where
  table : ∀ c, fat.Indexed c → entry fat d.pages c ≠ 0 → entry fat d'.pages c = entry fat d.pages c
  log : ∀ w ∈ d'.written, w ∈ d.written ∨ fat.InTable w.1 ∨
    w = (f.descriptor.sector, f.descriptor.index + 28, 4) ∨ w.1 = f.currentSector

namespace Quiet

theorem trans {d''} (first : Quiet fat f d d') (second : Quiet fat f d' d'') :
    Quiet fat f d d'' where
  table c indexed used := by
    have same := first.table c indexed used
    rw [second.table c indexed (by rwa [same]), same]
  log w mem := by
    rcases second.log w mem with early | new
    · exact first.log w early
    · exact .inr new

theorem of_same (pages : d'.pages = d.pages) (written : d'.written = d.written) :
    Quiet fat f d d' :=
  ⟨fun _ _ _ => by rw [pages], fun _ mem => .inl (by rwa [written] at mem)⟩

theorem of_tried {page} {offset} {data} {stored}
    (tried : Tried page offset data stored d d') (outside : ¬fat.InTable page)
    (own : (page, offset, data.length) = (f.descriptor.sector, f.descriptor.index + 28, 4) ∨
      page = f.currentSector) : Quiet fat f d d' where
  table c indexed _ := by
    rw [tried.pages]
    split
    · exact entry_put indexed outside
    · rfl
  log w mem := by
    rw [tried.written, mem_cons] at mem
    rcases mem with rfl | early
    · exact .inr (.inr own)
    · exact .inl early

theorem of_entry {v} {stored} (indexed : fat.Indexed c)
    (tried : Tried (fat.entrySector c) (entryOffset c) (write32 v) stored d d')
    (free : stored = true → entry fat d.pages c = 0) : Quiet fat f d d' where
  table c' _ used := by
    rw [tried.pages]
    split
    · rename_i kept
      have ne : c' ≠ c := by
        rintro rfl
        exact used (free kept)
      exact entry_setEntry_ne ne
    · rfl
  log w mem := by
    rw [tried.written, mem_cons] at mem
    rcases mem with rfl | early
    · exact .inr (.inl indexed.inTable)
    · exact .inl early

end Quiet

def Searched (fat : Fat) (f : File) (d d' : Disk) (c : UInt32) : Prop :=
  Quiet fat f d d' ∧
    (c = 1 ∨ fat.Indexed c ∧ entry fat d.pages c = 0 ∧ entry fat d'.pages c = endOfChain)

theorem scanEntries_searched (numbers : 128 * fat.sectPerFat.toNat ≤ 2 ^ 32) {k} :
    ∀ {n : Nat} {d : Disk}, n + k ≤ 128 * fat.sectPerFat.toNat →
      d.lastFreeCluster = UInt32.ofNat n →
      ∃ c d', Searched fat f d d' c ∧
        scanEntries fat ((List.range' n k).map UInt32.ofNat) d = .ok c d' := by
  induction k with
  | zero =>
    intro n d _ _
    exact ⟨1, d.forget, ⟨.of_same rfl rfl, .inl rfl⟩, rfl⟩
  | succ k ih =>
    intro n d within last
    obtain ⟨buf, read, content⟩ := fsRead_tick d (fat.entrySector (UInt32.ofNat n))
      (entryOffset (UInt32.ofNat n)) 4
    rw [range'_succ, map_cons, scanEntries, bind_ok read]
    rcases content with rfl | rfl
    · rw [if_neg (not_not.mpr (length_bytes_of_le (entryOffset_fits _))),
        ← show entry fat d.pages (UInt32.ofNat n) = read32 _ from rfl]
      have indexed : fat.Indexed (UInt32.ofNat n) := by
        rw [Fat.Indexed, toNat_ofNat (by omega)]
        omega
      by_cases free : entry fat d.pages (UInt32.ofNat n) = 0
      · have fits : entryOffset (UInt32.ofNat n) + (write32 endOfChain).length ≤ pageSize :=
          entryOffset_fits _
        obtain ⟨stored, d', tried, result⟩ :=
          fsWrite_tried d.tick (fat.entrySector (UInt32.ofNat n)) fits
        have read_only : Quiet fat f d d.tick := .of_same rfl rfl
        have quiet : Quiet fat f d d' := read_only.trans (.of_entry indexed tried fun _ => free)
        rw [if_pos free, bind_ok result]
        cases stored with
        | true =>
          refine ⟨UInt32.ofNat n, d', ⟨quiet, .inr ⟨indexed, free, ?_⟩⟩, ?_⟩
          · rw [tried.pages]
            exact entry_setEntry_self
          · change EStateM.Result.ok d'.lastFreeCluster d' = _
            rw [tried.last]
            exact congrArg (EStateM.Result.ok · d') last
        | false =>
          exact ⟨1, d'.forget, ⟨quiet.trans (.of_same rfl rfl), .inl rfl⟩, rfl⟩
      · rw [if_neg free]
        have passed : Quiet fat f d { d.tick with lastFreeCluster := d.lastFreeCluster + 1 } :=
          .of_same rfl rfl
        obtain ⟨c, d', ⟨quiet, end_⟩, result⟩ :=
          ih (n := n + 1) (d := { d.tick with lastFreeCluster := d.lastFreeCluster + 1 }) (by omega)
            (by rw [last, UInt32.ofNat_add]; rfl)
        exact ⟨c, d', ⟨passed.trans quiet, end_⟩, result⟩
    · exact ⟨1, d.tick.forget, ⟨.of_same rfl rfl, .inl rfl⟩, rfl⟩

theorem findEmptyCluster_searched (valid : fat.Valid) (f : File) (d : Disk) :
    ∃ c d', Searched fat f d d' c ∧ findEmptyCluster fat d = .ok c d' := by
  rw [findEmptyCluster_eq valid, entriesFrom]
  by_cases low : d.lastFreeCluster.toNat ≤ 128 * fat.sectPerFat.toNat
  · exact scanEntries_searched valid.numbers (by omega) UInt32.ofNat_toNat.symm
  · have none : 128 * fat.sectPerFat.toNat - d.lastFreeCluster.toNat = 0 := by omega
    rw [none]
    exact ⟨1, d.forget, ⟨.of_same rfl rfl, .inl rfl⟩, rfl⟩

/-- A number that can be linked to, with an entry of its own. -/
structure Fat.Usable (fat : Fat) (c : UInt32) : Prop where
  low : 2 ≤ c.toNat
  high : c.toNat ≤ fat.maxClust.toNat
  indexed : fat.Indexed c

inductive Outcome (fat : Fat) (f : File) (d : Disk) : EStateM.Result Error (File × Disk) Unit → Prop
  | failed {e : Error} {d' : Disk} : Quiet fat f d d' → Outcome fat f d (.error e (f, d'))
  | next {d' : Disk} : f.sectorIndex + 1 ≠ fat.sectPerClust → Quiet fat f d d' →
      Outcome fat f d (.ok () (f.next, d'))
  | stuck {e : Error} {d' : Disk} : f.sectorIndex + 1 = fat.sectPerClust → Quiet fat f d d' →
      Outcome fat f d (.error e (f.stuck, d'))
  | linked {c : UInt32} {d₁ d₂ : Disk} : f.sectorIndex + 1 = fat.sectPerClust →
      Quiet fat f d d₁ → fat.Usable c → entry fat d.pages c = 0 →
      entry fat d₁.pages c = endOfChain →
      Tried (fat.entrySector f.currentCluster) (entryOffset f.currentCluster)
        (write32 c) true d₁ d₂ →
      Outcome fat f d (.ok () (f.enter fat c, d₂))

theorem setNextCluster_tried (usable : fat.Usable c) {v} :
    setNextCluster fat c v d = .error .wrongCluster d ∨ v ≠ 1 ∧ v.toNat ≤ fat.maxClust.toNat ∧
      ∃ stored d', Tried (fat.entrySector c) (entryOffset c) (write32 v) stored d d' ∧
        setNextCluster fat c v d = if stored then .ok () d' else .error .fsError d' := by
  have range : ¬(c ≠ 0 ∧ (c < 2 ∨ c > fat.maxClust)) := by
    simp only [gt_iff_lt, UInt32.lt_iff_toNat_lt]
    have := usable.low
    have := usable.high
    have two : (2 : UInt32).toNat = 2 := rfl
    omega
  by_cases refused : v = 1 ∨ fat.maxClust.toNat < v.toNat
  · exact .inl (setNextCluster_refused refused)
  · refine .inr ⟨fun one => refused (.inl one), by omega, ?_⟩
    have accepted : ¬((c ≠ 0 ∧ (c < 2 ∨ c > fat.maxClust)) ∨ v = 1 ∨ v > fat.maxClust) := by
      exact fun h => h.elim range refused
    rw [setNextCluster, if_neg accepted]
    exact writeBytes_tried d _ (entryOffset_fits c) (Nat.zero_lt_succ 3)

theorem flush_outcome (valid : fat.Valid) (aligned : f.descriptor.Aligned)
    (outside : ¬fat.InTable f.descriptor.sector) (clear : ¬fat.InTable f.currentSector)
    (cluster : fat.Usable f.currentCluster)
    (reserved : entry fat d.pages 0 ≠ 0 ∧ entry fat d.pages 1 ≠ 0) :
    Outcome fat f d (flush fat (f, d)) := by
  obtain ⟨stored, d₁, tried, page⟩ := buffer_tried f d
  have quiet₁ : Quiet fat f d d₁ := .of_tried tried clear (.inr rfl)
  change Outcome fat f d ((onDisk _ >>= _) (f, d))
  cases stored with
  | false =>
    rw [bind_error (onDisk_error page)]
    exact .failed quiet₁
  | true =>
  rw [bind_ok (onDisk_ok page)]
  obtain ⟨stored, d₂, tried, size⟩ := size_tried aligned d₁
  have quiet₂ : Quiet fat f d d₂ := quiet₁.trans (.of_tried tried outside (.inl rfl))
  cases stored with
  | false =>
    rw [bind_error (onDisk_error size)]
    exact .failed quiet₂
  | true =>
  rw [bind_ok (onDisk_ok size)]
  change Outcome fat f d ((if f.sectorIndex + 1 = fat.sectPerClust then _ else _ : FileOp Unit)
    (f.stuck, d₂))
  by_cases last : f.sectorIndex + 1 = fat.sectPerClust
  · rw [if_pos last]
    obtain ⟨c, d₃, ⟨quiet, found⟩, search⟩ := findEmptyCluster_searched valid f d₂
    rw [bind_ok (onDisk_ok search)]
    rcases setNextCluster_tried (d := d₃) (v := c) cluster
      with refused | ⟨one, high, stored, d₄, tried, link⟩
    · rw [bind_error (onDisk_error refused)]
      exact .stuck last (quiet₂.trans quiet)
    · obtain ⟨indexed, zero, reserved_c⟩ := found.resolve_left one
      cases stored with
      | false =>
        rw [bind_error (onDisk_error link)]
        refine .stuck last ((quiet₂.trans quiet).trans (.of_entry cluster.indexed tried ?_))
        intro stored
        cases stored
      | true =>
        rw [bind_ok (onDisk_ok link)]
        have free : entry fat d.pages c = 0 := by
          by_contra used
          exact used (by rw [← quiet₂.table c indexed used, zero])
        have low : 2 ≤ c.toNat := by
          have zero_used : c ≠ 0 := fun same => reserved.1 (same ▸ free)
          have : c.toNat ≠ 0 := fun same => zero_used (UInt32.toNat_inj.mp same)
          have : c.toNat ≠ 1 := fun same => one (UInt32.toNat_inj.mp same)
          omega
        exact .linked last (quiet₂.trans quiet) ⟨low, high, indexed⟩ free reserved_c tried
  · rw [if_neg last]
    exact .next last quiet₂

/-- A write to the table, to the size of the file, or to one of these clusters. -/
def Owned (fat : Fat) (slot : Slot) (chain : List UInt32) (w : UInt32 × Nat × Nat) : Prop :=
  fat.InTable w.1 ∨ w = (slot.sector, slot.index + 28, 4) ∨ ∃ c ∈ chain, fat.InCluster c w.1

theorem Owned.mono {slot} {chain chain'} {w}
    (h : Owned fat slot chain w) (subset : chain ⊆ chain') : Owned fat slot chain' w := by
  rcases h with inTable | size | ⟨c, mem, here⟩
  · exact .inl inTable
  · exact .inr (.inl size)
  · exact .inr (.inr ⟨c, subset mem, here⟩)

/-- The cluster behind the last one can be numbered, too. -/
structure Fat.Roomy (fat : Fat) : Prop where
  sectors : fat.dataStart.toNat + (fat.maxClust.toNat - 1) * fat.sectPerClust.toNat < 2 ^ 32
  marks : fat.maxClust.toNat < 0x0FFFFFF8

/-- The file has counted the last sector of its cluster, and it has no other one. -/
def File.Stuck (fat : Fat) (f : File) : Prop :=
  f.sectorIndex = fat.sectPerClust ∧ f.bufferIndex = pageSize ∧
    f.currentSector + 1 = fat.firstSector f.currentCluster + fat.sectPerClust.toUInt32

/-- The directory entry and the first cluster of a file, which no call changes. -/
def File.identity (f : File) : Slot × UInt32 := (f.descriptor, f.dir.startCluster)

/-- A file that stands in a cluster of its chain, between these ones, and what it has written. -/
structure Keeps (fat : Fat) (s : File × Disk) (pre post : List UInt32) : Prop where
  chain : Chain (nextOf (entry fat s.2.pages)) (some s.1.dir.startCluster)
    (pre ++ s.1.currentCluster :: post)
  usable : ∀ c ∈ pre ++ s.1.currentCluster :: post, fat.Usable c
  reserved : entry fat s.2.pages 0 ≠ 0 ∧ entry fat s.2.pages 1 ≠ 0
  aligned : s.1.descriptor.Aligned
  outside : ¬fat.InTable s.1.descriptor.sector
  fits : s.1.bufferIndex ≤ pageSize
  log : ∀ w ∈ s.2.written, Owned fat s.1.descriptor (pre ++ [s.1.currentCluster]) w
  stands : s.1.Placed fat ∨ s.1.Stuck fat

section Geometry

variable {page : UInt32}

section

variable (h : fat.Usable c) (roomy : fat.Roomy)

include h roomy

theorem Fat.Usable.fits :
    fat.dataStart.toNat + (c.toNat - 2) * fat.sectPerClust.toNat + fat.sectPerClust.toNat <
      2 ^ 32 := by
  have low := h.low
  have high := h.high
  have le : (c.toNat - 2 + 1) * fat.sectPerClust.toNat ≤
      (fat.maxClust.toNat - 1) * fat.sectPerClust.toNat :=
    Nat.mul_le_mul_right _ (by omega)
  rw [Nat.succ_mul] at le
  have sectors := roomy.sectors
  omega

theorem Fat.Usable.not_isEnd : isEnd c = false := by
  by_contra mark
  rw [Bool.not_eq_false, isEnd, beq_iff_eq] at mark
  have le : (c &&& 0x0FFFFFF8).toNat ≤ c.toNat := by
    exact Nat.and_le_left
  rw [mark] at le
  have := h.high
  have := roomy.marks
  have : (0x0FFFFFF8 : UInt32).toNat = 0x0FFFFFF8 := rfl
  omega

theorem Fat.Usable.not_inTable (valid : fat.Valid) (here : fat.InCluster c page) :
    ¬fat.InTable page := by
  obtain ⟨i, low, rfl⟩ := here
  have table := valid.table
  rw [InTable, toNat_sector_of_fits h.low (h.fits roomy).le low]
  omega

theorem Fat.Usable.behind (valid : fat.Valid) :
    ¬fat.InTable (fat.firstSector c + fat.sectPerClust.toUInt32) ∧ ∀ c', fat.Usable c' →
      (fat.InCluster c' (fat.firstSector c + fat.sectPerClust.toUInt32) ↔ c' = c + 1) := by
  have fits := h.fits roomy
  have positive := valid.clusters
  have low := h.low
  have first := toNat_sector_of_fits low fits.le positive
  rw [Nat.add_zero, show UInt32.ofNat 0 = 0 from rfl, UInt32.add_zero] at first
  have number : (fat.firstSector c + fat.sectPerClust.toUInt32).toNat =
      fat.dataStart.toNat + (c.toNat - 2) * fat.sectPerClust.toNat + fat.sectPerClust.toNat := by
    rw [UInt32.toNat_add, first, UInt8.toNat_toUInt32, Nat.mod_eq_of_lt fits]
  have table := valid.table
  constructor
  · rw [InTable, number]
    omega
  · intro c' h'
    have marks := valid.marks
    have high := h.high
    have succ : (c + 1).toNat = c.toNat + 1 := by
      rw [UInt32.toNat_add, UInt32.toNat_one, Nat.mod_eq_of_lt]
      omega
    constructor
    · rintro ⟨i, small, same⟩
      have equal := congrArg UInt32.toNat same
      rw [number, toNat_sector_of_fits h'.low (h'.fits roomy).le small] at equal
      have quotient := congrArg (· / fat.sectPerClust.toNat)
        (show (c.toNat - 2 + 1) * fat.sectPerClust.toNat =
          (c'.toNat - 2) * fat.sectPerClust.toNat + i by rw [Nat.succ_mul]; omega)
      simp only [Nat.mul_div_cancel _ positive] at quotient
      rw [Nat.mul_comm, Nat.mul_add_div positive, Nat.div_eq_of_lt small, Nat.add_zero] at quotient
      apply UInt32.toNat_inj.mp
      omega
    · rintro rfl
      refine ⟨0, positive, ?_⟩
      apply UInt32.toNat_inj.mp
      rw [number, toNat_sector_of_fits h'.low (h'.fits roomy).le positive, succ,
        show c.toNat + 1 - 2 = c.toNat - 2 + 1 by omega, Nat.succ_mul]
      omega

end

end Geometry

theorem File.in_cluster (valid : fat.Valid) (stands : f.Placed fat ∨ f.Stuck fat) :
    fat.InCluster f.currentCluster f.currentSector := by
  have positive := valid.clusters
  rcases stands with ⟨low, sector⟩ | ⟨_, _, sector⟩
  · exact ⟨_, low, sector⟩
  · refine ⟨fat.sectPerClust.toNat - 1, by omega, ?_⟩
    have last : fat.sectPerClust.toUInt32 = UInt32.ofNat (fat.sectPerClust.toNat - 1) + 1 := by
      have small := fat.sectPerClust.toNat_lt
      apply UInt32.toNat_inj.mp
      rw [UInt32.toNat_add, toNat_ofNat (by omega), UInt32.toNat_one, UInt8.toNat_toUInt32,
        Nat.mod_eq_of_lt] <;> omega
    rw [last, ← UInt32.add_assoc] at sector
    exact (UInt32.add_left_inj 1).mp sector

namespace Keeps

variable {pre post : List UInt32} {s : File × Disk}

section

variable (h : Keeps fat s pre post)

include h

theorem used (mem : c ∈ pre ++ s.1.currentCluster :: post) : entry fat s.2.pages c ≠ 0 := by
  obtain ⟨before, later, split⟩ := append_of_mem mem
  have chain := h.chain
  rw [split] at chain
  have next := chain.next_eq
  intro zero
  have plain : nextOf (entry fat s.2.pages) c = some 0 := by
    simp only [nextOf, zero]
    rfl
  rw [plain] at next
  have mem' : (0 : UInt32) ∈ pre ++ s.1.currentCluster :: post := by
    rw [split]
    exact mem_append_right _ (mem_cons_of_mem _ (mem_of_mem_head? next.symm))
  have := (h.usable 0 mem').low
  simp at this

theorem usable_current : fat.Usable s.1.currentCluster :=
  h.usable _ (by simp)

theorem quiet (valid : fat.Valid) {f} (quiet : Quiet fat s.1 s.2 d)
    (start : f.dir.startCluster = s.1.dir.startCluster) (slot : f.descriptor = s.1.descriptor)
    (same : f.currentCluster = s.1.currentCluster) (fits : f.bufferIndex ≤ pageSize)
    (stands : f.Placed fat ∨ f.Stuck fat) : Keeps fat (f, d) pre post := by
  have table : ∀ c, fat.Indexed c → entry fat s.2.pages c ≠ 0 →
      entry fat d.pages c = entry fat s.2.pages c := quiet.table
  have kept : ∀ c ∈ pre ++ s.1.currentCluster :: post,
      entry fat d.pages c = entry fat s.2.pages c := fun c mem =>
    table c (h.usable c mem).indexed (h.used mem)
  refine ⟨?_, ?_, ?_, slot ▸ h.aligned, slot ▸ h.outside, fits, ?_, stands⟩
  · rw [start, same]
    exact h.chain.frame fun c mem => by rw [nextOf, nextOf, kept c mem]
  · rw [same]
    exact h.usable
  · rw [table 0 (valid.indexed_low (.inl rfl)) h.reserved.1,
      table 1 (valid.indexed_low (.inr rfl)) h.reserved.2]
    exact h.reserved
  · intro w mem
    rw [slot, same]
    rcases quiet.log w mem with early | inTable | size | here
    · exact h.log w early
    · exact .inl inTable
    · exact .inr (.inl size)
    · exact .inr (.inr ⟨s.1.currentCluster, by simp, here ▸ File.in_cluster valid h.stands⟩)

theorem flush (valid : fat.Valid) (roomy : fat.Roomy) (placed : s.1.Placed fat)
    (full : s.1.bufferIndex = pageSize) : ∃ pre' post', Keeps fat (after (flush fat s)) pre' post' ∧
      (after (Fat32.flush fat s)).1.identity = s.1.identity ∧
      ∀ t, Fat32.flush fat s = .ok () t → t.1.Placed fat := by
  have low := placed.1
  have small := fat.sectPerClust.toNat_lt
  have next : (s.1.sectorIndex + 1).toNat = s.1.sectorIndex.toNat + 1 := by
    rw [UInt8.toNat_add, UInt8.toNat_one, Nat.mod_eq_of_lt]
    omega
  have cluster := h.usable_current
  have here := File.in_cluster valid h.stands
  have outcome := flush_outcome valid h.aligned h.outside (cluster.not_inTable roomy valid here)
    cluster h.reserved
  generalize Fat32.flush fat s = r at outcome
  cases outcome with
  | failed quiet =>
    exact ⟨pre, post, h.quiet valid quiet rfl rfl rfl h.fits h.stands, rfl,
      fun t done => by cases done⟩
  | next more quiet =>
    have stays : s.1.next.Placed fat := by
      have different : s.1.sectorIndex.toNat + 1 ≠ fat.sectPerClust.toNat := by
        rw [← next]
        exact fun same => more (UInt8.toNat_inj.mp same)
      refine ⟨by change (s.1.sectorIndex + 1).toNat < _; omega, ?_⟩
      change s.1.currentSector + 1 = fat.firstSector s.1.currentCluster +
        UInt32.ofNat (s.1.sectorIndex + 1).toNat
      rw [placed.2, next, UInt32.ofNat_add, ← UInt32.add_assoc]
      rfl
    refine ⟨pre, post, h.quiet valid quiet rfl rfl rfl h.fits (.inl stays), rfl,
      fun t done => ?_⟩
    obtain rfl := (EStateM.Result.ok.inj done).2
    exact stays
  | stuck last quiet =>
    have stuck : s.1.stuck.Stuck fat := by
      refine ⟨last, full, ?_⟩
      change s.1.currentSector + 1 = fat.firstSector s.1.currentCluster + _
      rw [placed.2, ← last, UInt32.add_assoc]
      congr 1
      apply UInt32.toNat_inj.mp
      rw [UInt32.toNat_add, toNat_ofNat (by omega), UInt32.toNat_one, UInt8.toNat_toUInt32, next,
        Nat.mod_eq_of_lt]
      omega
    exact ⟨pre, post, h.quiet valid quiet rfl rfl rfl h.fits (.inr stuck), rfl,
      fun t done => by cases done⟩
  | @linked c d₁ d₂ last quiet usable free reserved tried =>
    have before := h.quiet (f := s.1) valid quiet rfl rfl rfl h.fits h.stands
    have stays : (s.1.enter fat c).Placed fat := ⟨valid.clusters, by simp [File.enter]⟩
    refine ⟨pre ++ [s.1.currentCluster], [], ?_, rfl, fun t done => ?_⟩
    · have table : entry fat d₂.pages =
          update (entry fat d₁.pages) s.1.currentCluster c := by
        rw [tried.pages]
        exact entry_setEntry
      have fresh : c ∉ pre ++ s.1.currentCluster :: post := fun mem => h.used mem free
      have ne : c ≠ s.1.currentCluster := fun same => fresh (by simp [same])
      have not_pre : s.1.currentCluster ∉ pre := by
        have := nodup_middle.mp h.chain.nodup
        exact fun mem => (nodup_cons.mp this).1 (mem_append_left _ mem)
      have ends : nextOf (entry fat d₂.pages) c = none := by
        rw [nextOf, table, update_of_ne ne, reserved, if_pos isEnd_endOfChain]
      have link : nextOf (entry fat d₂.pages) s.1.currentCluster = some c := by
        rw [nextOf, table, update_self, usable.not_isEnd roomy]
        rfl
      have kept : ∀ c', c' ≠ s.1.currentCluster →
          entry fat d₂.pages c' = entry fat d₁.pages c' := fun c' other => by
        rw [table, update_of_ne other]
      refine ⟨?_, ?_, ?_, h.aligned, h.outside, h.fits, ?_, .inl stays⟩
      · change Chain (nextOf (entry fat d₂.pages)) (some s.1.dir.startCluster)
          (pre ++ [s.1.currentCluster] ++ [c])
        rw [append_assoc]
        refine before.chain.redirect (fun c' mem => ?_) link (chain_single ends)
        rw [nextOf, nextOf, kept c' (ne_of_mem_of_not_mem mem not_pre)]
      · intro c' mem
        rcases mem_append.mp mem with early | late
        · exact h.usable c' (by
            rcases mem_append.mp early with first | current
            · exact mem_append_left _ first
            · simp [mem_singleton.mp current])
        · exact mem_singleton.mp late ▸ usable
      · have low := cluster.low
        change entry fat d₂.pages 0 ≠ 0 ∧ entry fat d₂.pages 1 ≠ 0
        rw [kept 0 (by rintro same; simp [← same] at low),
          kept 1 (by rintro same; simp [← same] at low)]
        exact before.reserved
      · intro w mem
        have mem : w ∈ d₂.written := mem
        rw [tried.written, mem_cons] at mem
        rcases mem with rfl | early
        · exact .inl cluster.indexed.inTable
        · exact (before.log w early).mono (subset_append_left ..)
    · obtain rfl := (EStateM.Result.ok.inj done).2
      exact stays

theorem fill (placed : s.1.Placed fat) {buf} :
    Keeps fat (s.1.fill buf (min buf.length (pageSize - s.1.bufferIndex)), s.2) pre post := by
  refine ⟨h.chain, h.usable, h.reserved, h.aligned, h.outside, ?_, h.log, .inl placed⟩
  have := h.fits
  change s.1.bufferIndex + min buf.length (pageSize - s.1.bufferIndex) ≤ pageSize
  omega

theorem rewind (placed : s.1.Placed fat) : Keeps fat (s.1.rewind, s.2) pre post :=
  ⟨h.chain, h.usable, h.reserved, h.aligned, h.outside, Nat.zero_le _, h.log, .inl placed⟩

theorem full {buf} (more : min buf.length (pageSize - s.1.bufferIndex) < buf.length) :
    (s.1.fill buf (min buf.length (pageSize - s.1.bufferIndex))).bufferIndex = pageSize := by
  have := h.fits
  change s.1.bufferIndex + min buf.length (pageSize - s.1.bufferIndex) = pageSize
  omega

end

theorem write (valid : fat.Valid) (roomy : fat.Roomy) (buf : List UInt8)
    (h : Keeps fat s pre post) (placed : s.1.Placed fat) :
    ∃ pre' post', Keeps fat (after (fileWrite fat buf s)) pre' post' ∧
      (after (fileWrite fat buf s)).1.identity = s.1.identity := by
  fun_induction fileWrite fat buf s generalizing pre post with
  | case1 buf s l f more _ t =>
    rename_i done ih
    obtain ⟨pre', post', kept, same, stays⟩ :=
      (h.fill placed).flush valid roomy placed (h.full more)
    rw [show Fat32.flush fat (s.1.fill buf l, s.2) = _ from done] at kept same
    obtain ⟨pre'', post'', kept', same'⟩ := ih (kept.rewind (stays t done)) (stays t done)
    exact ⟨pre'', post'', kept', same'.trans same⟩
  | case2 buf s l f more e =>
    rename_i t failed
    obtain ⟨pre', post', kept, same, _⟩ := (h.fill placed).flush valid roomy placed (h.full more)
    rw [show Fat32.flush fat (s.1.fill buf l, s.2) = _ from failed] at kept same
    exact ⟨pre', post', kept, same⟩
  | case3 buf s l => exact ⟨pre, post, h.fill placed, rfl⟩

theorem close (h : Keeps fat s pre post) (valid : fat.Valid) (roomy : fat.Roomy) :
    Keeps fat (s.1, after (fileClose s.1 s.2)) pre post := by
  have here := File.in_cluster valid h.stands
  obtain ⟨stored, d₁, tried, page⟩ := buffer_tried s.1 s.2
  have quiet₁ : Quiet fat s.1 s.2 d₁ :=
    .of_tried tried (h.usable_current.not_inTable roomy valid here) (.inr rfl)
  refine h.quiet valid ?_ rfl rfl rfl h.fits h.stands
  rw [fileClose]
  cases stored with
  | false =>
    rw [bind_error page]
    exact quiet₁
  | true =>
    obtain ⟨stored, d₂, tried, size⟩ := size_tried h.aligned d₁
    have quiet₂ : Quiet fat s.1 s.2 d₂ := quiet₁.trans (.of_tried tried h.outside (.inl rfl))
    rw [bind_ok page, size]
    cases stored with
    | false => exact quiet₂
    | true => exact quiet₂

end Keeps

namespace Retry

inductive Action
  | write (buf : List UInt8)
  | close
  /-- calls on other files, which leave these pages and this `last_free_cluster` behind -/
  | others (pages : PageArray) (last : UInt32)

def step (fat : Fat) (s : File × Disk) : Action → Option (File × Disk)
  | .write buf => some (after (fileWrite fat buf s))
  | .close => some (s.1, after (fileClose s.1 s.2))
  | .others pages last => some (s.1, { s.2 with pages := pages, lastFreeCluster := last })

def IsChain (fat : Fat) (s : File × Disk) (chain : List UInt32) : Prop :=
  Chain (nextOf (entry fat s.2.pages)) (some s.1.dir.startCluster) chain

/-- Nothing is written to a file that has not got the cluster that it needs, and calls on other
files leave the clusters of the file and the first two entries alone. -/
def Patient (fat : Fat) (s : File × Disk) : Action → Prop
  | .write buf => buf = [] ∨ s.1.sectorIndex ≠ fat.sectPerClust
  | .close => True
  | .others pages _ => (∀ chain, IsChain fat s chain → ∀ c ∈ chain,
      entry fat pages c = entry fat s.2.pages c) ∧ entry fat pages 0 ≠ 0 ∧ entry fat pages 1 ≠ 0

structure Opened (fat : Fat) (s : File × Disk) : Prop where
  chain : ∃ chain, IsChain fat s chain ∧ s.1.currentCluster ∈ chain ∧ ∀ c ∈ chain, fat.Usable c
  reserved : entry fat s.2.pages 0 ≠ 0 ∧ entry fat s.2.pages 1 ≠ 0
  descriptor : s.1.descriptor.Aligned ∧ ¬fat.InTable s.1.descriptor.sector
  placed : s.1.Placed fat
  fits : s.1.bufferIndex ≤ pageSize
  written : s.2.written = []

variable {s t : File × Disk}

theorem Opened.keeps (h : Opened fat s) : ∃ pre post, Keeps fat s pre post := by
  obtain ⟨chain, is_chain, current, usable⟩ := h.chain
  obtain ⟨pre, post, rfl⟩ := append_of_mem current
  refine ⟨pre, post, is_chain, usable, h.reserved, h.descriptor.1, h.descriptor.2, h.fits, ?_,
    .inl h.placed⟩
  rw [h.written]
  exact fun w none => absurd none not_mem_nil

theorem fileWrite_nil : fileWrite fat [] s = .ok () (s.1.fill [] 0, s.2) := by
  rw [fileWrite]
  simp

theorem step_keeps (valid : fat.Valid) (roomy : fat.Roomy) {a} {pre post}
    (h : Keeps fat s pre post) (patient : Patient fat s a) (hstep : step fat s a = some t) :
    ∃ pre' post', Keeps fat t pre' post' ∧ t.1.identity = s.1.identity := by
  cases a with
  | write buf =>
    cases hstep
    rcases patient with rfl | moves
    · refine ⟨pre, post, ?_, ?_⟩
      · rw [fileWrite_nil]
        exact { h with }
      · rw [fileWrite_nil]
        rfl
    · exact h.write valid roomy buf (h.stands.resolve_right fun stuck => moves stuck.1)
  | close =>
    cases hstep
    exact ⟨pre, post, h.close valid roomy, rfl⟩
  | others pages last =>
    cases hstep
    obtain ⟨same, reserved⟩ := patient
    have same := same _ h.chain
    refine ⟨pre, post, ⟨?_, h.usable, reserved, h.aligned, h.outside, h.fits, h.log, h.stands⟩, rfl⟩
    refine h.chain.frame fun c mem => ?_
    rw [nextOf, nextOf]
    rw [same c mem]

/-- What a file in use has written is owned by it. If it has no cluster to go on in, and nothing
fails any more, then what is written to it next goes to the cluster with the next number. -/
structure Confined (fat : Fat) (s : File × Disk) (identity : Slot × UInt32) (chain : List UInt32) :
    Prop where
  is_chain : IsChain fat s chain
  same : s.1.identity = identity
  owned : ∀ w ∈ s.2.written, Owned fat identity.1 chain w
  exactly : s.1.sectorIndex = fat.sectPerClust → s.2.Sound → ∀ buf, buf ≠ [] →
    buf.length ≤ pageSize → ∀ t u, step fat s (.write buf) = some t → step fat t .close = some u →
      IsChain fat u chain ∧
      ((∀ w ∈ u.2.written, Owned fat identity.1 chain w) ↔ s.1.currentCluster + 1 ∈ chain)

variable {buf : List UInt8}

theorem fileWrite_full (full : s.1.bufferIndex = pageSize) (some : buf ≠ []) :
    fileWrite fat buf s = match flush fat (s.1.fill buf 0, s.2) with
      | .ok _ t => fileWrite fat buf (t.1.rewind, t.2)
      | .error e t => .error e t := by
  have none : min buf.length (pageSize - s.1.bufferIndex) = 0 := by
    rw [full]
    simp
  have more : 0 < buf.length := length_pos_iff.mpr some
  rw [fileWrite]
  cases result : flush fat (s.1.fill buf 0, s.2) <;>
    simp only [none, more, if_true, drop_zero, result]

theorem write_stuck (aligned : s.1.descriptor.Aligned) (stuck : s.1.Stuck fat) (sound : s.2.Sound)
    (some : buf ≠ []) (short : buf.length ≤ pageSize) : fileWrite fat buf s = .ok ()
      ((s.1.fill buf 0).next.rewind.fill buf buf.length, s.2.flushed (s.1.fill buf 0)) := by
  have other : (s.1.fill buf 0).sectorIndex + 1 ≠ fat.sectPerClust := by
    change s.1.sectorIndex + 1 ≠ fat.sectPerClust
    rw [stuck.1]
    exact fun same => absurd (UInt8.add_eq_left.mp same) (by decide)
  have next : flush fat (s.1.fill buf 0, s.2) = _ := flush_next sound aligned other
  have within : (s.1.fill buf 0).next.rewind.bufferIndex + buf.length ≤ pageSize := by
    change 0 + buf.length ≤ pageSize
    omega
  rw [fileWrite_full stuck.2.1 some, next]
  exact fileWrite_short within

theorem exactly {pre post} (h : Keeps fat s pre post) (valid : fat.Valid)
    (roomy : fat.Roomy) (ends : s.1.sectorIndex = fat.sectPerClust) (sound : s.2.Sound)
    (some_ : buf ≠ []) (short : buf.length ≤ pageSize) {u}
    (write : step fat s (.write buf) = some t) (close : step fat t .close = some u) :
    IsChain fat u (pre ++ s.1.currentCluster :: post) ∧
      ((∀ w ∈ u.2.written, Owned fat s.1.descriptor (pre ++ s.1.currentCluster :: post) w) ↔
        s.1.currentCluster + 1 ∈ pre ++ s.1.currentCluster :: post) := by
  have stuck : s.1.Stuck fat := h.stands.resolve_left fun placed => by
    have := placed.1
    rw [ends] at this
    omega
  obtain ⟨outside, behind⟩ := h.usable_current.behind roomy valid
  have here := File.in_cluster valid h.stands
  have clear := h.usable_current.not_inTable roomy valid here
  rw [← stuck.2.2] at outside behind
  -- the call goes on to the sector behind the cluster, and the buffer is written there
  let f := (s.1.fill buf 0).next.rewind.fill buf buf.length
  let d := s.2.flushed (s.1.fill buf 0)
  have closed : fileClose f d = .ok () (d.flushed f) :=
    Volume.fileClose_sound (d := d) sound.put.put h.aligned
  have final : u = (f, d.flushed f) := by
    obtain rfl := Option.some.inj write
    obtain rfl := Option.some.inj close
    rw [write_stuck h.aligned stuck sound some_ short]
    exact congrArg (fun r => (f, after r)) closed
  subst final
  have written : (d.flushed f).written = (s.1.descriptor.sector, s.1.descriptor.index + 28, 4) ::
      (s.1.currentSector + 1, 0, pageSize) ::
        (s.1.descriptor.sector, s.1.descriptor.index + 28, 4) ::
      (s.1.currentSector, 0, pageSize) :: s.2.written := by
    simp only [Disk.flushed, Disk.put, length_write32,
      length_bytes_of_le (Nat.zero_add pageSize).le, d, f]
    rfl
  refine ⟨h.chain.frame fun c mem => ?_, ?_⟩
  · have indexed := (h.usable c mem).indexed
    have same : entry fat (d.flushed f).pages c = entry fat s.2.pages c :=
      (entry_flushed (f := f) indexed outside h.outside).trans
        (entry_flushed (f := s.1.fill buf 0) indexed clear h.outside)
    rw [nextOf, nextOf, same]
  · rw [written]
    constructor
    · intro owned
      rcases owned _ (mem_cons_of_mem _ mem_cons_self) with inTable | size | ⟨c, mem, own⟩
      · exact absurd inTable outside
      · simp at size
      · exact (behind c (h.usable c mem)).mp own ▸ mem
    · intro next w mem
      have current : s.1.currentCluster ∈ pre ++ s.1.currentCluster :: post := by simp
      simp only [mem_cons] at mem
      rcases mem with rfl | rfl | rfl | rfl | early
      · exact .inr (.inl rfl)
      · exact .inr (.inr ⟨_, next, (behind _ (h.usable _ next)).mpr rfl⟩)
      · exact .inr (.inl rfl)
      · exact .inr (.inr ⟨_, current, here⟩)
      · exact (h.log w early).mono (append_subset.mpr
          ⟨subset_append_left .., by simp⟩)

/-- All that a patient run writes is in the table, the size field of the file's own entry or a
cluster of its chain. -/
theorem writes_confined (valid : fat.Valid) (roomy : fat.Roomy) (opened : Opened fat s)
    (run : Run (step fat) (Patient fat) s t) : ∃ chain, Confined fat t s.1.identity chain := by
  have kept : ∃ pre post, Keeps fat t pre post ∧ t.1.identity = s.1.identity := by
    refine run.invariant (fun t => ∃ pre post, Keeps fat t pre post ∧ t.1.identity = s.1.identity)
      ?_ ?_
    · rintro t a u ⟨pre, post, kept, same⟩ patient hstep
      obtain ⟨pre', post', kept', same'⟩ := step_keeps valid roomy kept patient hstep
      exact ⟨pre', post', kept', same'.trans same⟩
    · obtain ⟨pre, post, kept⟩ := opened.keeps
      exact ⟨pre, post, kept, rfl⟩
  obtain ⟨pre, post, kept, same⟩ := kept
  have slot : s.1.identity.1 = t.1.descriptor := congrArg Prod.fst same.symm
  refine ⟨pre ++ t.1.currentCluster :: post, kept.chain, same, ?_, ?_⟩
  · intro w mem
    rw [slot]
    exact (kept.log w mem).mono (append_subset.mpr ⟨subset_append_left .., by simp⟩)
  · intro ends sound buf some_ short u v write close
    rw [slot]
    exact exactly kept valid roomy ends sound some_ short write close

theorem opened_begin {cells} {slot} {pageBuffer}
    (h : Consistent fat d.pages cells) (valid : fat.Valid) (mem : slot ∈ directory fat d.pages)
    (head : (dirAt d.pages slot).head = some (dirAt d.pages slot).startCluster) :
    Opened fat (.begin fat pageBuffer slot (dirAt d.pages slot), { d with written := [] }) := by
  have chain := h.ledger.chain (some slot)
  rw [headOf, if_pos mem, head] at chain
  obtain ⟨tail, own, _⟩ := chain_some_iff.mp chain
  refine ⟨⟨cells (some slot), chain, ?_, ?_⟩, h.reserved,
    ⟨aligned_of_mem valid mem, sector_not_inTable h valid mem⟩, ⟨valid.clusters, ?_⟩, Nat.zero_le _,
    rfl⟩
  · rw [own]
    exact mem_cons_self
  · intro c inside
    have := h.inside (some slot) c inside
    exact ⟨this.1, this.2.le, this.indexed valid⟩
  · simp [File.begin]

open Volume (small valid_small)

theorem roomy_small : small.Roomy := by constructor <;> decide

def twoFiles : Disk :=
  ((Disk.formatted small).created small ⟨2, 0⟩ [0x41] 3).created small ⟨2, 32⟩ [0x42] 4

theorem consistent_twoFiles : Consistent small twoFiles.pages
    (update (update (update (fun _ => []) none [2]) (some ⟨2, 0⟩) [3])
      (some ⟨2, 32⟩) [4]) := by
  have h := consistent_formatted valid_small
  have mem : ∀ k, k < 16 → (⟨2, 32 * k⟩ : Slot) ∈ directory small (Disk.formatted small).pages := by
    intro k low
    have sector : (2 : UInt32) = small.firstSector 2 + UInt32.ofNat 0 := by decide
    rw [directory_formatted valid_small, mem_slots valid_small]
    exact ⟨⟨0, by decide, sector⟩, ⟨k, low, rfl⟩⟩
  have free : ∀ k, k < 16 → unused (Disk.formatted small).pages ⟨2, 32 * k⟩ = true := by
    intro k low
    rw [unused, dirAt_formatted valid_small (sector_not_inTable h valid_small (mem k low))]
    rfl
  have zero : ∀ c : UInt32, 3 ≤ c → entry small (Disk.formatted small).pages c = 0 := by
    intro c low
    rw [entry_formatted, if_neg]
    rintro (rfl | rfl | rfl) <;> exact absurd low (by decide)
  have indexed : small.Indexed 3 ∧ small.Indexed 4 :=
    ⟨show 3 < 128 by decide, show 4 < 128 by decide⟩
  have first : Consistent small ((Disk.formatted small).created small ⟨2, 0⟩ [0x41] 3).pages _ :=
    h.created valid_small ⟨by decide, by decide⟩ (zero 3 (by decide)) (mem 0 (by decide))
      (free 0 (by decide)) (by decide)
  have second : (⟨2, 32⟩ : Slot) ∈
      directory small ((Disk.formatted small).created small ⟨2, 0⟩ [0x41] 3).pages := by
    rw [directory_created h valid_small (zero 3 (by decide)) (mem 0 (by decide))]
    exact mem 1 (by decide)
  refine first.created valid_small ⟨by decide, by decide⟩ ?_ second ?_ (by decide)
  · rw [entry_created h valid_small (mem 0 (by decide)) indexed.2 (by decide)]
    exact zero 4 (by decide)
  · rw [unused, dirAt_created_ne h valid_small indexed.1 (mem 0 (by decide))
      (mem 1 (by decide)) (by decide)]
    exact free 1 (by decide)

theorem mem_twoFiles : (⟨2, 0⟩ : Slot) ∈ directory small twoFiles.pages ∧
    (dirAt twoFiles.pages ⟨2, 0⟩).head = some 3 := by
  have own : (3 : UInt32) ∈ update (update (update (fun _ => []) none [2])
      (some ⟨2, 0⟩) [3]) (some ⟨2, 32⟩) [4] (some (⟨2, 0⟩ : Slot)) := by decide
  have mem := consistent_twoFiles.mem_of_owner own
  have head := (consistent_twoFiles.ledger.chain (some ⟨2, 0⟩)).head_eq
  rw [headOf, if_pos mem] at head
  exact ⟨mem, head⟩

def failsOnce : Nat → Bool := fun n => n == 2

def openA : File × Disk :=
  (.begin small (fun _ => 0) ⟨2, 0⟩ (dirAt twoFiles.pages ⟨2, 0⟩),
    { twoFiles with written := [], faults := failsOnce })

theorem opened_openA : Opened small openA := by
  obtain ⟨mem, head⟩ := mem_twoFiles
  rw [← startCluster_of_head head] at head
  exact opened_begin (d := { twoFiles with faults := failsOnce }) consistent_twoFiles
    valid_small mem
    head

theorem writes_confined_openA : ∃ t, Run (step small) (Patient small) openA t ∧
    ∃ chain, Confined small t openA.1.identity chain := by
  have run : Run (step small) (Patient small) openA _ :=
    (Run.start.next (.write (replicate 600 7)) (.inr (show (0 : UInt8) ≠ 1 by decide)) rfl).next
      .close trivial rfl
  exact ⟨_, run, writes_confined valid_small roomy_small opened_openA run⟩

def unread (f : File) (d : Disk) : Disk :=
  (((d.tick.put f.currentSector 0 (bytes f.pbuf 0 pageSize)).tick.put f.descriptor.sector
    (f.descriptor.index + 28) (write32 f.dir.size)).tick).forget

theorem flush_unread (valid : fat.Valid) (aligned : f.descriptor.Aligned)
    (faults : d.faults = failsOnce) (last : f.sectorIndex + 1 = fat.sectPerClust)
    (indexed : fat.Indexed d.lastFreeCluster) :
    flush fat (f, d) = .error .wrongCluster (f.stuck, unread f d) := by
  have fits := aligned.fits
  have length : (bytes f.pbuf 0 pageSize).length = pageSize := length_bytes_of_le (by simp)
  have page : writeBytes f.currentSector 0 (bytes f.pbuf 0 pageSize) d =
      .ok () (d.tick.put f.currentSector 0 (bytes f.pbuf 0 pageSize)) :=
    writeBytes_passes (by rw [faults]; rfl) (by rw [length]; simp)
  change (onDisk _ >>= _) (f, d) = _
  rw [bind_ok (onDisk_ok page)]
  generalize stored : d.tick.put f.currentSector 0 (bytes f.pbuf 0 pageSize) = d₁
  have faults₁ : d₁.faults = fun n => failsOnce (n + 1) := by
    rw [← stored, ← faults]
    rfl
  have last₁ : d₁.lastFreeCluster = d.lastFreeCluster := by
    rw [← stored]
    rfl
  have size : writeSize f d₁ = .ok () (d₁.tick.put f.descriptor.sector (f.descriptor.index + 28)
      (write32 f.dir.size)) :=
    writeBytes_passes (by rw [faults₁]; rfl) (by rw [length_write32]; omega)
  rw [bind_ok (onDisk_ok size)]
  have same : unread f d = ((d₁.tick.put f.descriptor.sector (f.descriptor.index + 28)
      (write32 f.dir.size)).tick).forget := by
    rw [← stored]
    rfl
  rw [same]
  generalize sized : d₁.tick.put f.descriptor.sector (f.descriptor.index + 28)
    (write32 f.dir.size) = d₂
  have faults₂ : d₂.faults 0 = true := by
    rw [← sized]
    change d₁.faults 1 = true
    rw [faults₁]
    rfl
  have last₂ : d₂.lastFreeCluster = d.lastFreeCluster := by
    rw [← sized]
    exact last₁
  have search : findEmptyCluster fat d₂ = .ok 1 d₂.tick.forget := by
    have read : fsRead (fat.entrySector d.lastFreeCluster) (entryOffset d.lastFreeCluster) 4 d₂ =
        .ok [] d₂.tick := by
      simp [fsRead, faults₂]
    rw [findEmptyCluster_eq valid, last₂, entriesFrom_cons indexed, scanEntries, bind_ok read]
    rfl
  change (if f.sectorIndex + 1 = fat.sectPerClust then _ else _ : FileOp Unit) (f.stuck, d₂) = _
  rw [if_pos last, bind_ok (onDisk_ok search),
    bind_error (onDisk_error (setNextCluster_refused (.inl rfl)))]

/-- 512 bytes are written to `A`, then one byte, which fails as the table cannot be read, and then
one byte again. The last one is stored in the cluster of `B` when `A` is closed. -/
theorem retry_overwrites : ∃ (cells : Owner → List UInt32) (u : File × Disk),
    Opened small openA ∧ Consistent small openA.2.pages cells ∧ 4 ∈ cells (some ⟨2, 32⟩) ∧
    openA.1.descriptor ≠ ⟨2, 32⟩ ∧ Reach (step small) openA u ∧
    (small.firstSector 4, 0, 512) ∈ u.2.written := by
  have start : openA.1.currentCluster = 3 := startCluster_of_head mem_twoFiles.2
  have sector : openA.1.currentSector + 1 = small.firstSector 4 := by
    change small.firstSector openA.1.currentCluster + 1 = _
    rw [start]
    decide
  have aligned : openA.1.descriptor.Aligned := ⟨0, by decide, rfl⟩
  obtain ⟨buf, length⟩ : ∃ buf : List UInt8, buf.length = pageSize :=
    ⟨replicate pageSize 7, length_replicate⟩
  let f₁ := openA.1.fill buf buf.length
  have full : f₁.bufferIndex = pageSize := (Nat.zero_add _).trans length
  have first : fileWrite small buf openA = .ok () (f₁, openA.2) :=
    fileWrite_short ((Nat.zero_add _).trans length).le
  let s₂ := ((f₁.fill [8] 0).stuck, unread (f₁.fill [8] 0) openA.2)
  have second : fileWrite small [8] (f₁, openA.2) = .error .wrongCluster s₂ := by
    have failed : flush small (f₁.fill [8] 0, openA.2) = .error .wrongCluster s₂ :=
      flush_unread valid_small aligned rfl (show (0 : UInt8) + 1 = 1 by decide)
        (show 4 < 128 by decide)
    rw [fileWrite_full full (cons_ne_nil 8 [])]
    simp [failed]
  have stuck : s₂.1.Stuck small := by
    refine ⟨show (0 : UInt8) + 1 = 1 by decide, full, ?_⟩
    change openA.1.currentSector + 1 = small.firstSector openA.1.currentCluster + _
    rw [sector, start]
    decide
  have sound : s₂.2.Sound := fun n => by
    simp [s₂, unread, Disk.forget, Disk.tick, Disk.put, openA, failsOnce]
  have third := write_stuck (s := s₂) aligned stuck sound (cons_ne_nil 9 []) (by decide)
  let f₃ := (s₂.1.fill [9] 0).next.rewind.fill [9] 1
  have closed : fileClose f₃ (s₂.2.flushed (s₂.1.fill [9] 0)) = .ok () _ :=
    Volume.fileClose_sound (d := s₂.2.flushed (s₂.1.fill [9] 0)) sound.put.put aligned
  have run₁ : Reach (step small) openA (f₁, openA.2) :=
    .next (.write buf) .start trivial (congrArg (some ∘ after) first)
  have run₂ : Reach (step small) openA s₂ :=
    run₁.next (.write [8]) trivial (congrArg (some ∘ after) second)
  have run₃ : Reach (step small) openA (f₃, s₂.2.flushed (s₂.1.fill [9] 0)) :=
    run₂.next (.write [9]) trivial (congrArg (some ∘ after) third)
  have run : Reach (step small) openA (f₃, (s₂.2.flushed (s₂.1.fill [9] 0)).flushed f₃) :=
    run₃.next .close trivial (congrArg (fun r => some (f₃, after r)) closed)
  refine ⟨_, _, opened_openA, consistent_twoFiles, by decide, by decide, run, ?_⟩
  have entry : (f₃.currentSector, 0, (bytes f₃.pbuf 0 pageSize).length) ∈
      ((s₂.2.flushed (s₂.1.fill [9] 0)).flushed f₃).written :=
    mem_cons_of_mem _ mem_cons_self
  rw [length_bytes_of_le (by simp)] at entry
  rw [← sector]
  exact entry

end Retry

end Fat32
