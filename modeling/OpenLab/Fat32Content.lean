import OpenLab.ByteFields
import OpenLab.Fat32Integrity

/-!
# The content of a file

Where the bytes written to a new file are kept: full sectors in the clusters of its chain, the
rest in the buffer of the file.
-/

namespace Fat32

open ByteFields (div_mod_next div_mod_last)
open PageCache (Block PageArray cpy bytes pageSize length_bytes_of_le bytes_append bytes_cpy_self
  bytes_cpy_apart cpy_page)
open LinkedCells List

variable {fat : Fat} {d d' : Disk} {cells : Owner → List UInt32} {f : File} {c : UInt32}
  {cs : List UInt32} {n k : Nat} {w : List UInt8} {s t : File × Disk}

def Fat.sectorAt (fat : Fat) (cs : List UInt32) (k : Nat) : UInt32 :=
  fat.firstSector (cs.getD (k / fat.sectPerClust.toNat) 0) +
    UInt32.ofNat (k % fat.sectPerClust.toNat)

section Sectors

variable (valid : fat.Valid)

include valid in
theorem sectorAt_inCluster (short : k / fat.sectPerClust.toNat < cs.length) :
    ∃ c ∈ cs, fat.InCluster c (fat.sectorAt cs k) := by
  refine ⟨cs.getD (k / fat.sectPerClust.toNat) 0, ?_, k % fat.sectPerClust.toNat,
    Nat.mod_lt _ valid.clusters, rfl⟩
  rw [getD_eq_getElem _ _ short]
  exact getElem_mem short

include valid in
theorem sectorAt_inj {k'} (inside : ∀ c ∈ cs, fat.Inside c) (nodup : cs.Nodup)
    (short : k / fat.sectPerClust.toNat < cs.length)
    (short' : k' / fat.sectPerClust.toNat < cs.length)
    (same : fat.sectorAt cs k = fat.sectorAt cs k') : k = k' := by
  have positive := valid.clusters
  have mod := Nat.mod_lt k positive
  have mod' := Nat.mod_lt k' positive
  have inside₁ := inside _ (getElem_mem short)
  have inside₂ := inside _ (getElem_mem short')
  rw [Fat.sectorAt, Fat.sectorAt, getD_eq_getElem _ _ short,
    getD_eq_getElem _ _ short'] at same
  have cluster : cs[k / fat.sectPerClust.toNat] = cs[k' / fat.sectPerClust.toNat] :=
    Fat.InCluster.unique ⟨_, mod, rfl⟩ ⟨_, mod', same⟩ inside₁ inside₂ valid
  have quotient : k / fat.sectPerClust.toNat = k' / fat.sectPerClust.toNat :=
    (nodup.getElem_inj_iff).mp cluster
  have number := congrArg UInt32.toNat same
  rw [Fat.toNat_sector inside₁ valid mod, Fat.toNat_sector inside₂ valid mod', cluster] at number
  rw [← Nat.div_add_mod k fat.sectPerClust.toNat, ← Nat.div_add_mod k' fat.sectPerClust.toNat,
    quotient]
  omega

theorem sectorAt_append (short : k / fat.sectPerClust.toNat < cs.length) :
    fat.sectorAt (cs ++ [c]) k = fat.sectorAt cs k := by
  rw [Fat.sectorAt, Fat.sectorAt, getD_append _ _ _ _ short]

end Sectors

/-- The first `n` sectors of a chain hold the bytes `w`, 512 in each. -/
def Stored (fat : Fat) (pages : PageArray) (cs : List UInt32) (n : Nat) (w : List UInt8) : Prop :=
  ∀ k < n, bytes (pages (fat.sectorAt cs k)) 0 pageSize = (w.drop (512 * k)).take 512

/-- The bytes `w` have been written to a file with the clusters `cs`, of which `n` sectors are
full. -/
structure Writing (fat : Fat) (cs : List UInt32) (n : Nat) (w : List UInt8) (s : File × Disk) :
    Prop where
  stored : Stored fat s.2.pages cs n w
  length : w.length = 512 * n + s.1.bufferIndex
  fits : s.1.bufferIndex ≤ 512
  buffer : bytes s.1.pbuf 0 s.1.bufferIndex = w.drop (512 * n)
  size : s.1.dir.size = UInt32.ofNat w.length
  clusters : cs.length = n / fat.sectPerClust.toNat + 1
  current : s.1.currentCluster = cs.getD (n / fat.sectPerClust.toNat) 0
  index : s.1.sectorIndex.toNat = n % fat.sectPerClust.toNat
  sector : s.1.currentSector = fat.sectorAt cs n

structure SameEntries (fat : Fat) (slot : Slot) (pages pages' : PageArray) : Prop where
  others : ∀ slot' ∈ directory fat pages, slot' ≠ slot → dirAt pages' slot' = dirAt pages slot'
  own : ∃ v, dirAt pages' slot = { dirAt pages slot with size := v }
  root : root fat pages' = root fat pages

namespace SameEntries

variable {slot : Slot} {pages pages' pages'' : PageArray}

theorem refl : SameEntries fat slot pages pages :=
  ⟨fun _ _ _ => rfl, ⟨(dirAt pages slot).size, by generalize dirAt pages slot = dir; rfl⟩, rfl⟩

theorem directory_eq (h : SameEntries fat slot pages pages') :
    directory fat pages' = directory fat pages := by
  rw [directory, directory, h.root]

theorem trans (first : SameEntries fat slot pages pages')
    (second : SameEntries fat slot pages' pages'') : SameEntries fat slot pages pages'' where
  others slot' mem ne := by
    rw [second.others slot' (by rwa [first.directory_eq]) ne, first.others slot' mem ne]
  own := by
    obtain ⟨v, first⟩ := first.own
    obtain ⟨v', second⟩ := second.own
    refine ⟨v', ?_⟩
    rw [second, first]
  root := second.root.trans first.root

theorem of_dirAt (root_eq : Fat32.root fat pages' = Fat32.root fat pages)
    (mem : slot ∈ directory fat pages)
    (same : ∀ slot' ∈ directory fat pages, dirAt pages' slot' = dirAt pages slot') :
    SameEntries fat slot pages pages' := by
  refine ⟨fun slot' mem' _ => same slot' mem', ⟨(dirAt pages slot).size, ?_⟩, root_eq⟩
  rw [same slot mem]

end SameEntries

theorem sameEntries_flushed (h : Consistent fat d.pages cells) (valid : fat.Valid)
    (mem : f.descriptor ∈ directory fat d.pages)
    (clear : Clear fat (cells none) f.currentSector) :
    SameEntries fat f.descriptor d.pages (d.flushed f).pages := by
  have aligned := aligned_of_mem valid mem
  have content : ∀ slot ∈ directory fat d.pages,
      dirAt (d.put f.currentSector 0 (bytes f.pbuf 0 pageSize)).pages slot =
          dirAt d.pages slot := by
    intro slot mem'
    obtain ⟨⟨r, root, here⟩, _⟩ := (h.mem_directory valid).mp mem'
    exact dirAt_put fun same => absurd (same ▸ here) (clear.2 r root)
  refine ⟨fun slot' mem' ne => ?_, ⟨f.dir.size, ?_⟩, ?_⟩
  · rw [Disk.flushed, dirAt_put_ne aligned (aligned_of_mem valid mem') ne (by omega)
      (by rw [length_write32]), content slot' mem']
  · rw [Disk.flushed, dirAt_size aligned.fits, content _ mem]
  · rw [(h.flushed valid mem clear).root_eq, h.root_eq]

theorem sameEntries_link {slot} {z} {cells'}
    (h : Consistent fat d.pages cells) (valid : fat.Valid) (mem : slot ∈ directory fat d.pages)
    (h' : Consistent fat ((d.allot fat c).setEntry fat z c).pages cells')
    (same : cells' none = cells none) (indexed : fat.Indexed c) (indexed' : fat.Indexed z) :
    SameEntries fat slot d.pages ((d.allot fat c).setEntry fat z c).pages := by
  refine .of_dirAt (by rw [h'.root_eq, h.root_eq, same]) mem fun slot' mem' => ?_
  have outside := sector_not_inTable h valid mem'
  have allot : dirAt (d.allot fat c).pages slot' = dirAt d.pages slot' :=
    dirAt_setEntry indexed outside
  rw [dirAt_setEntry indexed' outside, allot]

/-- Enough clusters are free, and the search for them does not come behind the last one. -/
def Room (fat : Fat) (d : Disk) (m : Nat) : Prop :=
  m ≤ (vacant fat d).length ∧ ∀ c ∈ (vacant fat d).take m, c.toNat < fat.maxClust.toNat

variable {m : Nat}

theorem Room.cons (room : Room fat d (m + 1)) :
    ∃ c rest, vacant fat d = c :: rest ∧ c.toNat < fat.maxClust.toNat := by
  obtain ⟨enough, low⟩ := room
  cases clusters : vacant fat d with
  | nil =>
    rw [clusters] at enough
    simp at enough
  | cons c rest =>
    rw [clusters] at low
    exact ⟨c, rest, rfl, low c (by simp)⟩

theorem Room.drop {m'} (room : Room fat d (m + m'))
    (rest : vacant fat d' = (vacant fat d).drop m) : Room fat d' m' := by
  obtain ⟨enough, low⟩ := room
  refine ⟨by rw [rest, length_drop]; omega, fun c mem => low c ?_⟩
  rw [rest] at mem
  rw [take_add]
  exact mem_append_right _ mem

theorem Room.mono {m'} (room : Room fat d m) (le : m' ≤ m) : Room fat d m' :=
  ⟨le.trans room.1, fun c mem => room.2 c (take_subset_take_left _ le mem)⟩

section Flush

variable (valid : fat.Valid) (sound : d.Sound) (h : Consistent fat d.pages cells)
  (tracks : f.Tracks cells)
  (writing : Writing fat (cells (some f.descriptor)) n w (f, d))

include valid writing in
theorem Writing.inCluster : ∃ c ∈ cells (some f.descriptor), fat.InCluster c f.currentSector := by
  have sector : f.currentSector = _ := writing.sector
  rw [sector]
  exact sectorAt_inCluster valid (by rw [writing.clusters]; omega)

include valid h writing in
theorem Writing.clear : Clear fat (cells none) f.currentSector := by
  obtain ⟨c, own, here⟩ := writing.inCluster valid
  exact h.clear valid own here

include valid h writing in
theorem Writing.apart (low : k < n) :
    fat.sectorAt (cells (some f.descriptor)) k ≠ f.currentSector ∧
      Clear fat (cells none) (fat.sectorAt (cells (some f.descriptor)) k) := by
  have clusters := writing.clusters
  have short : k / fat.sectPerClust.toNat < (cells (some f.descriptor)).length := by
    have := Nat.div_le_div_right (c := fat.sectPerClust.toNat) low.le
    omega
  constructor
  · intro same
    have sector : f.currentSector = _ := writing.sector
    rw [sector] at same
    have := sectorAt_inj valid (h.inside (some f.descriptor))
      (h.ledger.chain (some f.descriptor)).nodup short (by omega) same
    omega
  · obtain ⟨c, own, here⟩ := sectorAt_inCluster valid short
    exact h.clear valid own here

include valid h tracks writing in
theorem stored_flushed (full : f.bufferIndex = 512) :
    Stored fat (d.flushed f).pages (cells (some f.descriptor)) (n + 1) w := by
  have mem := h.mem_of_owner tracks.own
  obtain ⟨⟨r, root, directory⟩, _⟩ := (h.mem_directory valid).mp mem
  have outside : ∀ page, Clear fat (cells none) page → page ≠ f.descriptor.sector := by
    rintro page clear rfl
    exact clear.2 r root directory
  have clear := writing.clear valid h
  intro k low
  rcases Nat.lt_succ_iff_lt_or_eq.mp low with early | rfl
  · obtain ⟨other, clear_k⟩ := writing.apart valid h early
    rw [Disk.flushed, Disk.put_ne (outside _ clear_k), Disk.put_ne other]
    exact writing.stored k early
  · have sector : f.currentSector = _ := writing.sector
    have buffer : bytes f.pbuf 0 f.bufferIndex = _ := writing.buffer
    have length : w.length = 512 * k + f.bufferIndex := writing.length
    rw [← sector, Disk.flushed, Disk.put_ne (outside _ clear), Disk.put_self, cpy_page,
      take_of_length_le (by rw [length_drop]; omega), ← buffer, full]

theorem Proceeds.within {cells'} (h : Proceeds fat f d cells cells' t)
    (more : f.sectorIndex + 1 ≠ fat.sectPerClust) : cells' = cells := by
  cases h with
  | next _ same _ => exact same
  | enter last _ _ _ => exact absurd last more

theorem Proceeds.beyond {cells'} (h : Proceeds fat f d cells cells' t)
    (last : f.sectorIndex + 1 = fat.sectPerClust) : ∃ c rest, vacant fat d = c :: rest ∧
      vacant fat t.2 = rest ∧ cells' (some f.descriptor) = cells (some f.descriptor) ++ [c] := by
  cases h with
  | next more _ _ => exact absurd last more
  | enter _ found rest own => exact ⟨_, _, found, rest, own⟩

structure FlushStores (fat : Fat) (cells cells' : Owner → List UInt32) (n : Nat) (w : List UInt8)
    (s t : File × Disk) : Prop where
  kept : Kept fat cells cells' s t
  writing : Writing fat (cells' (some s.1.descriptor)) (n + 1) w (t.1.rewind, t.2)
  entries : SameEntries fat s.1.descriptor s.2.pages t.2.pages
  start : t.1.dir.startCluster = s.1.dir.startCluster
  vacant : vacant fat t.2 = (vacant fat s.2).drop
    ((n + 1) / fat.sectPerClust.toNat - n / fat.sectPerClust.toNat)

include valid sound h tracks writing in
theorem flush_stores (full : f.bufferIndex = 512)
    (room : Room fat d ((n + 1) / fat.sectPerClust.toNat - n / fat.sectPerClust.toNat)) :
    ∃ t cells', flush fat (f, d) = .ok () t ∧ FlushStores fat cells cells' n w (f, d) t := by
  have own := tracks.own
  have mem := h.mem_of_owner own
  have clear := writing.clear valid h
  have stored := stored_flushed valid h tracks writing full
  have entries := sameEntries_flushed h valid mem clear
  have flushed := h.flushed valid mem clear
  have index : f.sectorIndex.toNat = n % fat.sectPerClust.toNat := writing.index
  have clusters := writing.clusters
  have length : w.length = 512 * n + f.bufferIndex := writing.length
  have rest : w.drop (512 * (n + 1)) = [] := drop_eq_nil_of_le (by omega)
  have low : n % fat.sectPerClust.toNat < fat.sectPerClust.toNat := Nat.mod_lt _ valid.clusters
  have small := fat.sectPerClust.toNat_lt
  have next : (f.sectorIndex + 1).toNat = n % fat.sectPerClust.toNat + 1 := by
    rw [UInt8.toNat_add, UInt8.toNat_one, index, Nat.mod_eq_of_lt]
    omega
  have ends (last : f.sectorIndex + 1 = fat.sectPerClust) :=
    div_mod_last (n := n) (p := fat.sectPerClust.toNat) (by rw [← next, last])
  have room_last (last : f.sectorIndex + 1 = fat.sectPerClust) : Room fat d 1 := by
    rwa [(ends last).1, Nat.add_sub_cancel_left] at room
  have slack : f.sectorIndex + 1 = fat.sectPerClust → fat.maxClust ∉ (vacant fat d).take 1 :=
    fun last mem => absurd ((room_last last).2 _ mem) (lt_irrefl _)
  obtain ⟨cells', kept, proceeds⟩ := flush_keeps valid sound h tracks clear slack
  have outcome := flush_sound valid sound (aligned_of_mem valid mem) (h.inside _ _ own)
    flushed.reserved.2
  have same_vacant := vacant_flushed (d := d) (f := f) valid clear.1
    (sector_not_inTable h valid mem)
  generalize result : flush fat (f, d) = r at outcome kept proceeds
  cases outcome with
  | next more =>
    have different : n % fat.sectPerClust.toNat + 1 < fat.sectPerClust.toNat := by
      have : n % fat.sectPerClust.toNat + 1 ≠ fat.sectPerClust.toNat := by
        rw [← next]
        exact fun same => more (UInt8.toNat_inj.mp same)
      omega
    obtain ⟨quotient, remainder⟩ := div_mod_next different
    obtain rfl := (proceeds _ rfl).within more
    refine ⟨_, _, rfl, kept, ?_, entries, rfl, ?_⟩
    · refine ⟨stored, ?_, Nat.zero_le _, ?_, writing.size, ?_, ?_, ?_, ?_⟩
      · change w.length = 512 * (n + 1) + 0
        omega
      · exact (take_zero ..).trans rest.symm
      · rw [quotient]
        exact clusters
      · rw [quotient]
        exact writing.current
      · change (f.sectorIndex + 1).toNat = _
        rw [remainder, next]
      · change f.currentSector + 1 = _
        rw [show f.currentSector = _ from writing.sector, Fat.sectorAt, Fat.sectorAt, quotient,
          remainder, UInt32.ofNat_add, ← UInt32.add_assoc]
        rfl
    · rw [quotient, Nat.sub_self]
      exact same_vacant
  | full last none =>
    obtain ⟨c, rest, some, _⟩ := (room_last last).cons
    rw [same_vacant, some] at none
    cases none
  | @beyond c rest last some high =>
    have inside := (room_last last).2 c (by rw [← same_vacant, some]; simp)
    omega
  | @linked c more last some le =>
    obtain ⟨quotient, remainder⟩ := ends last
    obtain ⟨c', rest', found, vacant_eq, own'⟩ := (proceeds _ rfl).beyond last
    obtain ⟨rfl, rfl⟩ : c = c' ∧ more = rest' := by
      rw [same_vacant, found] at some
      exact ⟨(cons.inj some).1.symm, (cons.inj some).2.symm⟩
    have indexed := ((mem_vacant valid).mp (some ▸ mem_cons_self)).2.1
    have indexed' := (h.inside _ _ own).indexed valid
    have linked := kept.consistent
    refine ⟨_, cells', rfl, kept, ?_, entries.trans (sameEntries_link flushed valid
      ((flushed.mem_directory valid).mpr ((h.mem_directory valid).mp mem)) linked
      (kept.others none (by simp)) indexed indexed'), rfl, ?_⟩
    · have stored' : Stored fat (((d.flushed f).allot fat c).setEntry fat f.currentCluster c).pages
          (cells' (Option.some f.descriptor)) (n + 1) w := by
        intro k low_k
        have short : k / fat.sectPerClust.toNat < (cells (Option.some f.descriptor)).length := by
          have := Nat.div_le_div_right (c := fat.sectPerClust.toNat) (Nat.lt_succ_iff.mp low_k)
          omega
        obtain ⟨z, own_z, here⟩ := sectorAt_inCluster valid short
        have outside := (h.clear valid own_z here).1
        have ne : ∀ c', fat.Indexed c' → fat.sectorAt (cells (Option.some f.descriptor)) k ≠
            fat.entrySector c' := by
          intro c' indexed' same
          rw [same] at outside
          exact outside indexed'.inTable
        rw [own', sectorAt_append short]
        change bytes (((d.flushed f).allot fat c).put _ _ _ |>.pages _) 0 pageSize = _
        rw [Disk.put_ne (ne _ indexed')]
        change bytes (((d.flushed f).put _ _ _).pages _) 0 pageSize = _
        rw [Disk.put_ne (ne _ indexed)]
        exact stored k low_k
      have last_of : (cells' (Option.some f.descriptor)).getD
          ((n + 1) / fat.sectPerClust.toNat) 0 = c := by
        have length' : (cells (Option.some f.descriptor)).length = n / fat.sectPerClust.toNat + 1 :=
          clusters
        rw [own', quotient, ← length']
        simp
      refine ⟨stored', ?_, Nat.zero_le _, ?_, writing.size, ?_, ?_, ?_, ?_⟩
      · change w.length = 512 * (n + 1) + 0
        omega
      · exact (take_zero ..).trans rest.symm
      · rw [own', length_append, quotient, clusters]
        rfl
      · exact last_of.symm
      · exact remainder.symm
      · change fat.firstSector c = fat.sectorAt _ _
        rw [Fat.sectorAt, remainder]
        rw [last_of]
        simp
    · rw [quotient, Nat.add_sub_cancel_left]
      rw [found]
      exact vacant_eq

end Flush

theorem Writing.fill {buf} {l} (h : Writing fat cs n w s) (le : l ≤ buf.length)
    (fits : s.1.bufferIndex + l ≤ 512) :
    Writing fat cs n (w ++ buf.take l) (s.1.fill buf l, s.2) := by
  have length := h.length
  have share : (buf.take l).length = l := by simp [le]
  refine ⟨fun k low => ?_, ?_, fits, ?_, ?_, h.clusters, h.current, h.index, h.sector⟩
  · rw [h.stored k low, drop_append_of_le_length (by omega),
      take_append_of_le_length (by rw [length_drop]; omega)]
  · change (w ++ buf.take l).length = 512 * n + (s.1.bufferIndex + l)
    rw [length_append, share]
    omega
  · change bytes (cpy (buf.take l) s.1.pbuf s.1.bufferIndex) 0 (s.1.bufferIndex + l) = _
    have stored : bytes (cpy (buf.take l) s.1.pbuf s.1.bufferIndex) s.1.bufferIndex
        (buf.take l).length = buf.take l := bytes_cpy_self (by rw [share]; exact fits)
    rw [share] at stored
    rw [bytes_append, bytes_cpy_apart (by omega), h.buffer, Nat.zero_add, stored,
      drop_append_of_le_length (by omega)]
  · change s.1.dir.size + UInt32.ofNat l = _
    rw [h.size, length_append, share, UInt32.ofNat_add]

/-- How many sectors are full after so many bytes; a sector is written with the next byte. -/
def fullSectors (size : Nat) : Nat := (size - 1) / 512

structure Stores (fat : Fat) (cells cells' : Owner → List UInt32) (w : List UInt8)
    (s t : File × Disk) : Prop where
  kept : Kept fat cells cells' s t
  writing : Writing fat (cells' (some s.1.descriptor)) (fullSectors w.length) w t
  entries : SameEntries fat s.1.descriptor s.2.pages t.2.pages
  start : t.1.dir.startCluster = s.1.dir.startCluster

theorem flush_first (valid : fat.Valid) {buf} {s} (sound : s.2.Sound)
    (h : Consistent fat s.2.pages cells) (tracks : s.1.Tracks cells)
    (writing : Writing fat (cells (some s.1.descriptor)) n w s) {l}
    (share : l = min buf.length (pageSize - s.1.bufferIndex)) (more : l < buf.length)
    (room : Room fat s.2 (fullSectors (w.length + buf.length) / fat.sectPerClust.toNat -
      n / fat.sectPerClust.toNat + m)) : ∃ t cells', flush fat (s.1.fill buf l, s.2) = .ok () t ∧
      FlushStores fat cells cells' n (w ++ buf.take l) (s.1.fill buf l, s.2) t ∧
      Room fat t.2 (fullSectors (w.length + buf.length) / fat.sectPerClust.toNat -
        (n + 1) / fat.sectPerClust.toNat + m) := by
  have length := writing.length
  have fits := writing.fits
  unfold pageSize at share
  have next : n + 1 ≤ fullSectors (w.length + buf.length) := by
    unfold fullSectors
    omega
  have before := Nat.div_le_div_right (c := fat.sectPerClust.toNat) (Nat.le_add_right n 1)
  have after := Nat.div_le_div_right (c := fat.sectPerClust.toNat) next
  have split : fullSectors (w.length + buf.length) / fat.sectPerClust.toNat -
      n / fat.sectPerClust.toNat + m =
      ((n + 1) / fat.sectPerClust.toNat - n / fat.sectPerClust.toNat) +
        (fullSectors (w.length + buf.length) / fat.sectPerClust.toNat -
          (n + 1) / fat.sectPerClust.toNat + m) := by omega
  rw [split] at room
  obtain ⟨t, cells', done, stores⟩ := flush_stores (f := s.1.fill buf l) valid sound h
    (share ▸ tracks.fill) (writing.fill more.le (by omega))
      (by change s.1.bufferIndex + l = 512; omega)
    (room.mono (Nat.le_add_right ..))
  exact ⟨t, cells', done, stores, room.drop stores.vacant⟩

theorem fileWrite_stores (valid : fat.Valid) (buf : List UInt8) (s : File × Disk)
    (sound : s.2.Sound) (h : Consistent fat s.2.pages cells) (tracks : s.1.Tracks cells)
    (writing : Writing fat (cells (some s.1.descriptor)) n w s)
    (begun : n = 0 ∨ 0 < s.1.bufferIndex + buf.length)
    (room : Room fat s.2 (fullSectors (w.length + buf.length) / fat.sectPerClust.toNat -
      n / fat.sectPerClust.toNat + m)) :
    ∃ t cells', fileWrite fat buf s = .ok () t ∧ Stores fat cells cells' (w ++ buf) s t ∧
      Room fat t.2 m := by
  fun_induction fileWrite fat buf s generalizing cells n w with
  | case1 buf s l f more _ t =>
    rename_i done ih
    obtain ⟨t', cells', flushed, stores, room'⟩ :=
      flush_first valid sound h tracks writing rfl more room
    obtain rfl : t = t' := (EStateM.Result.ok.inj (done.symm.trans flushed)).2
    have all : w ++ buf.take l ++ buf.drop l = w ++ buf := by
      rw [append_assoc, take_append_drop]
    have descriptor := stores.kept.descriptor
    obtain ⟨u, cells'', result, stores', room''⟩ :=
      ih stores.kept.sound stores.kept.consistent stores.kept.rewind.tracks
        (descriptor ▸ stores.writing) (.inr (by rw [length_drop]; omega))
        (by
          rw [length_append, length_take, length_drop, Nat.add_assoc]
          rw [show min l buf.length + (buf.length - l) = buf.length by omega]
          exact room')
    rw [all] at stores'
    have slot : (t.1.rewind).descriptor = s.1.descriptor := descriptor
    refine ⟨u, cells'', result, ⟨?_, ?_, ?_, ?_⟩, room''⟩
    · exact stores.kept.rewind.of_fill.trans stores'.kept
    · rw [← slot]
      exact stores'.writing
    · refine stores.entries.trans ?_
      have := stores'.entries
      rw [slot] at this
      exact this
    · exact stores'.start.trans stores.start
  | case2 buf s l f more e =>
    rename_i t failed
    obtain ⟨t', cells', flushed, _⟩ := flush_first valid sound h tracks writing rfl more room
    rw [show flush fat (f, s.2) = _ from failed] at flushed
    cases flushed
  | case3 buf s l =>
    rename_i whole
    have all : l = buf.length := by omega
    have length := writing.length
    have fits := writing.fits
    have share : l = min buf.length (512 - s.1.bufferIndex) := rfl
    have count : fullSectors (w ++ buf).length = n := by
      rw [fullSectors, length_append]
      omega
    have filled : Writing fat _ n (w ++ buf.take l) (s.1.fill buf l, s.2) :=
      writing.fill all.le (by omega)
    rw [all, take_length] at filled
    refine ⟨_, cells, rfl, ⟨⟨sound, h, tracks.fill, rfl, fun _ _ => rfl, fun _ _ => rfl⟩, ?_, .refl,
      rfl⟩, room.mono (Nat.le_add_left ..)⟩
    rw [count]
    change Writing fat _ n (w ++ buf) (s.1.fill buf l, s.2)
    rw [all]
    exact filled

def writeAll (fat : Fat) : List (List UInt8) → File × Disk → EStateM.Result Error (File × Disk) Unit
  | [], s => .ok () s
  | buf :: rest, s =>
    match fileWrite fat buf s with
    | .ok _ t => writeAll fat rest t
    | .error e t => .error e t

theorem fullSectors_mono {a b} (le : a ≤ b) : fullSectors a ≤ fullSectors b := by
  unfold fullSectors
  omega

theorem writeAll_stores (valid : fat.Valid) {bufs} :
    ∀ {s : File × Disk} {cells : Owner → List UInt32} {w : List UInt8}, s.2.Sound →
      Consistent fat s.2.pages cells → s.1.Tracks cells →
      Writing fat (cells (some s.1.descriptor)) (fullSectors w.length) w s →
      Room fat s.2 (fullSectors (w ++ bufs.flatten).length / fat.sectPerClust.toNat -
        fullSectors w.length / fat.sectPerClust.toNat) →
      ∃ t cells', writeAll fat bufs s = .ok () t ∧
        Stores fat cells cells' (w ++ bufs.flatten) s t := by
  induction bufs with
  | nil =>
    intro s cells w sound h tracks writing _
    refine ⟨s, cells, rfl, ⟨⟨sound, h, tracks, rfl, fun _ _ => rfl, fun _ _ => rfl⟩,
      ?_, .refl, rfl⟩⟩
    simpa using writing
  | cons buf rest ih =>
    intro s cells w sound h tracks writing room
    have length := writing.length
    have first := fullSectors_mono (Nat.le_add_right w.length buf.length)
    have total : fullSectors (w.length + buf.length) ≤
        fullSectors (w ++ (buf :: rest).flatten).length :=
      fullSectors_mono (by simp)
    have before := Nat.div_le_div_right (c := fat.sectPerClust.toNat) first
    have after := Nat.div_le_div_right (c := fat.sectPerClust.toNat) total
    have split : fullSectors (w ++ (buf :: rest).flatten).length / fat.sectPerClust.toNat -
        fullSectors w.length / fat.sectPerClust.toNat =
        fullSectors (w.length + buf.length) / fat.sectPerClust.toNat -
          fullSectors w.length / fat.sectPerClust.toNat +
        (fullSectors (w ++ (buf :: rest).flatten).length / fat.sectPerClust.toNat -
          fullSectors (w.length + buf.length) / fat.sectPerClust.toNat) := by omega
    rw [split] at room
    have begun : fullSectors w.length = 0 ∨ 0 < s.1.bufferIndex + buf.length := by
      unfold fullSectors at *
      omega
    obtain ⟨t, cells', done, stores, room'⟩ :=
      fileWrite_stores valid buf s sound h tracks writing begun room
    have descriptor := stores.kept.descriptor
    have joined : (w ++ buf).length = w.length + buf.length := length_append
    obtain ⟨u, cells'', done', stores'⟩ := ih stores.kept.sound stores.kept.consistent
      stores.kept.tracks (descriptor ▸ stores.writing) (by
        rw [append_assoc, ← flatten_cons, joined]
        exact room')
    rw [append_assoc, ← flatten_cons] at stores'
    have writing' := stores'.writing
    have entries' := stores'.entries
    rw [descriptor] at writing' entries'
    exact ⟨u, cells'', by rw [writeAll, done]; exact done',
      stores.kept.trans stores'.kept, writing',
      stores.entries.trans entries', stores'.start.trans stores.start⟩

end Fat32
