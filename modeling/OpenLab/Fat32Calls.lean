import OpenLab.Fat32Consistent

/-!
# Calls on a consistent volume

What `fat32_create` and `fat32_delete` do to a consistent volume when no access fails.
-/

namespace Fat32

open PageCache (Block PageArray cpy bytes pageSize length_bytes_of_le)
open LinkedCells ChainLedger List

variable {fat : Fat} {d : Disk} {cells : Owner → List UInt32} {slot : Slot} {c : UInt32}

theorem freeChain_sound {l} :
    ∀ {d : Disk} {c : UInt32} {fuel : Nat}, d.Sound →
      Chain (nextOf (entry fat d.pages)) (some c) l → (∀ c ∈ l, fat.Inside c) → l.length ≤ fuel →
      freeChain fat fuel c d = .ok (some ()) (d.freeAll fat l) := by
  induction l with
  | nil =>
    intro d c fuel _ chain _ _
    cases chain
  | cons a l ih =>
    intro d c fuel sound chain inside enough
    obtain ⟨_, equal, tail⟩ := chain_some_iff.mp chain
    obtain ⟨rfl, rfl⟩ := cons.inj equal
    obtain ⟨fuel, rfl⟩ : ∃ n, fuel = n + 1 := ⟨fuel - 1, by simp at enough; omega⟩
    have inside_a := inside a mem_cons_self
    rw [freeChain, bind_ok (getNextCluster_sound sound inside_a), freeCluster,
      bind_ok (setNextCluster_sound sound inside_a (by decide) (by simp))]
    unfold nextOf at tail
    split at tail
    · rename_i mark
      obtain rfl := chain_none_iff.mp tail
      rw [if_pos mark]
      rfl
    · rename_i mark
      rw [if_neg mark]
      refine ih (d := d.setEntry fat a 0) sound (tail.frame fun b mem => ?_)
        (fun b mem => inside b (mem_cons_of_mem a mem)) (by simpa using enough)
      have ne : b ≠ a := ne_of_mem_of_not_mem mem (nodup_cons.mp chain.nodup).1
      rw [nextOf, entry_setEntry_ne ne]

theorem cmp_head {a b} {len} (h : cmp a b (len + 1) = true) :
    b.headD 0 = a.headD 0 ∧ a.headD 0 ≠ 0 := by
  unfold cmp at h
  cases a with
  | nil => simp [cmpLoop] at h
  | cons x as =>
    cases b with
    | nil => simp [cmpLoop] at h
    | cons y bs =>
      rw [cmpLoop] at h
      split at h
      · rename_i both
        split at h
        · exact absurd h (by simp)
        · rename_i same
          exact ⟨not_not.mp same, both.2⟩
      · exact absurd h (by simp)

theorem isFile_of_matches {dir : DirEntry} {name ext : List UInt8}
    (h : dir.matches name ext = true) : dir.isFile = true := by
  simp only [DirEntry.matches, Bool.and_eq_true, bne_iff_ne, ne_eq] at h
  obtain ⟨⟨⟨attrib, first⟩, same⟩, _⟩ := h
  obtain ⟨head, nonzero⟩ := cmp_head same
  simp only [DirEntry.isFile, DirEntry.mark, Bool.and_eq_true, bne_iff_ne, ne_eq, head]
  exact ⟨⟨nonzero, first⟩, attrib⟩

theorem Consistent.walk (h : Consistent fat d.pages cells)
    (plain : ∀ c ∈ root fat d.pages, isEnd (fat.rootSector c + fat.sectPerClust.toUInt32) = false) :
    Walk fat d 2 (cells none) := by
  rw [h.root_eq] at plain
  exact ⟨h.ledger.chain none, h.inside none, plain⟩

theorem Consistent.root_length (h : Consistent fat d.pages cells) (o : Owner) :
    (cells o).length ≤ fat.maxClust.toNat :=
  length_le_maxClust (h.ledger.chain o).nodup (h.inside o)

section Named

variable {filename : List UInt8}

/-- The entry at which the search for a file name ends, if it ends within the root directory. -/
def lookup (fat : Fat) (pages : PageArray) (filename : List UInt8) : Option Slot :=
  (directory fat pages).find? (stops pages (split filename).1 (split filename).2)

/-- No sector behind a cluster of the root directory is taken for the end of its chain. -/
def Plain (fat : Fat) (pages : PageArray) : Prop :=
  ∀ c ∈ root fat pages, isEnd (fat.rootSector c + fat.sectPerClust.toUInt32) = false

section

variable (h : Consistent fat d.pages cells) (valid : fat.Valid) (sound : d.Sound)
  (plain : Plain fat d.pages) (found : lookup fat d.pages filename = some slot)

include h valid sound plain found

theorem find_sound :
    find fat fat.maxClust.toNat (split filename).1 (split filename).2 d = findResult slot d := by
  refine findFrom_sound valid sound (h.walk plain) (h.root_length none) ?_
  rw [lookup, directory, h.root_eq] at found
  exact found

theorem delete_absent (mark : (dirAt d.pages slot).mark = 0) :
    delete fat fat.maxClust.toNat filename d = .error .fileNotFound d := by
  have search := find_sound h valid sound plain found
  rw [findResult, if_pos mark] at search
  rw [delete, bind_error search]

end

theorem lookup_isFile (found : lookup fat d.pages filename = some slot)
    (mark : (dirAt d.pages slot).mark ≠ 0) :
    slot ∈ directory fat d.pages ∧ (dirAt d.pages slot).isFile = true := by
  refine ⟨mem_of_find?_eq_some found, ?_⟩
  have stop := find?_some found
  simp only [stops, Bool.or_eq_true, beq_iff_eq, mark, false_or] at stop
  exact isFile_of_matches stop

section

variable (h : Consistent fat d.pages cells) (valid : fat.Valid) (sound : d.Sound)
  (plain : Plain fat d.pages) (found : lookup fat d.pages filename = some slot)
  (mark : (dirAt d.pages slot).mark ≠ 0)

include h valid sound plain found mark

theorem delete_file (start : (dirAt d.pages slot).startCluster ≠ 0) :
    delete fat fat.maxClust.toNat filename d = .ok (some ())
      ((d.put slot.sector slot.index [deleted]).freeAll fat (cells (some slot))) := by
  have search := find_sound h valid sound plain found
  rw [findResult, if_neg mark] at search
  obtain ⟨mem, file⟩ := lookup_isFile found mark
  have fits := (aligned_of_mem valid mem).fits
  have chain := h.ledger.chain (some slot)
  rw [headOf, if_pos mem, DirEntry.head, if_pos ⟨file, start⟩] at chain
  rw [delete, bind_ok search]
  change (writeBytes _ _ _ >>= _) d = _
  rw [bind_ok (writeBytes_sound sound (by simp; omega))]
  refine freeChain_sound sound.put (chain.frame fun c own => ?_) (h.inside (some slot))
    (h.root_length (some slot))
  rw [nextOf, nextOf, entry_put ((h.inside _ c own).indexed valid) (sector_not_inTable h valid mem)]

theorem delete_empty (start : (dirAt d.pages slot).startCluster = 0) :
    delete fat fat.maxClust.toNat filename d = .error .wrongCluster
      ((d.put slot.sector slot.index [deleted]).setEntry fat 0 0) := by
  have search := find_sound h valid sound plain found
  rw [findResult, if_neg mark] at search
  obtain ⟨mem, file⟩ := lookup_isFile found mark
  have fits := (aligned_of_mem valid mem).fits
  obtain ⟨fuel, clusters⟩ : ∃ n, fat.maxClust.toNat = n + 2 :=
    ⟨fat.maxClust.toNat - 2, by have := valid.root; omega⟩
  rw [delete, bind_ok search]
  change (writeBytes _ _ _ >>= _) d = _
  rw [bind_ok (writeBytes_sound sound (by simp; omega)), start, clusters, freeChain]
  change (freeCluster fat 0 >>= _) _ = _
  have free : freeCluster fat 0 (d.put slot.sector slot.index [deleted]) =
      .ok () ((d.put slot.sector slot.index [deleted]).setEntry fat 0 0) := by
    exact writeBytes_sound sound.put (entryOffset_fits 0)
  rw [bind_ok free, if_neg (by decide), freeChain]
  rfl

end

theorem fileExists_sound (h : Consistent fat d.pages cells) (valid : fat.Valid) (sound : d.Sound)
    (plain : Plain fat d.pages) (found : lookup fat d.pages filename = some slot) :
    fileExists fat fat.maxClust.toNat filename d =
      .ok (some ((dirAt d.pages slot).mark != 0)) d := by
  rw [fileExists, find_sound h valid sound plain found, findResult]
  by_cases mark : (dirAt d.pages slot).mark = 0 <;> simp [mark]

variable {dir : DirEntry}

theorem create_exists (h : Consistent fat d.pages cells) (valid : fat.Valid) (sound : d.Sound)
    (plain : Plain fat d.pages) (found : lookup fat d.pages filename = some slot)
    (mark : (dirAt d.pages slot).mark ≠ 0) :
    create fat fat.maxClust.toNat filename dir d = .error .fileExists d := by
  have known := fileExists_sound h valid sound plain found
  rw [bne_iff_ne.mpr mark] at known
  rw [create, bind_ok known]
  rfl

theorem unused_of_end {slot} (found : lookup fat d.pages filename = some slot)
    (mark : (dirAt d.pages slot).mark = 0) :
    ∃ place, (directory fat d.pages).find? (unused d.pages) = some place := by
  rw [← Option.isSome_iff_exists, find?_isSome]
  exact ⟨slot, mem_of_find?_eq_some found, by simp [unused, mark]⟩

theorem length_padded {len} {l} (short : l.length ≤ len) :
    (padded len l).length = len + 1 := by
  simp only [padded, length_append, length_replicate, length_singleton]
  omega

theorem length_splitExt (n : Nat) (l : List UInt8) : (splitExt n l).length ≤ n := by
  induction n generalizing l with
  | zero => simp [splitExt]
  | succ n ih =>
    cases l with
    | nil => simp [splitExt]
    | cons b l =>
      rw [splitExt]
      split
      · simp
      · simpa using ih l

theorem length_split (filename : List UInt8) :
    (split filename).1.length = 9 ∧ (split filename).2.length = 4 :=
  ⟨length_padded (by simp), length_padded (length_splitExt 3 _)⟩

def Disk.created (d : Disk) (fat : Fat) (slot : Slot) (filename : List UInt8) (c : UInt32) : Disk :=
  (d.allot fat c).put slot.sector slot.index
    (newEntry (split filename).1 (split filename).2 c)

theorem length_newEntry {c} :
    (newEntry (split filename).1 (split filename).2 c).length = 32 := by
  obtain ⟨nine, four⟩ := length_split filename
  simp [newEntry, nine, four]

section Placed

variable {dir : DirEntry} {place : Slot} {fuel : Nat}
  (known : fileExists fat fuel filename d = .ok (some false) d)
  (search : freeFrom fat fuel 2 d = .ok (some place) d)

include known search in
theorem create_without (valid : fat.Valid) (sound : d.Sound) (full : vacant fat d = []) :
    create fat fuel filename dir d = .error .noFreeCluster d.forget := by
  rw [create, bind_ok known]
  change (freeFrom fat _ 2 >>= _) d = _
  rw [bind_ok search]
  change (findEmptyCluster fat >>= _) d = _
  rw [bind_ok (findEmptyCluster_none valid sound full), if_pos rfl]
  rfl

include known search in
theorem create_at {rest} (valid : fat.Valid) (sound : d.Sound)
    (fits : place.index + 32 ≤ pageSize) (clusters : vacant fat d = c :: rest) (one : c ≠ 1) :
    create fat fuel filename dir d =
      .ok (some (place, dirAt (d.created fat place filename c).pages place))
        (d.created fat place filename c) := by
  rw [create, bind_ok known]
  change (freeFrom fat _ 2 >>= _) d = _
  rw [bind_ok search]
  change (findEmptyCluster fat >>= _) d = _
  rw [bind_ok (findEmptyCluster_some valid sound clusters), if_neg one]
  have write : writeBytes place.sector place.index
    (newEntry (split filename).1 (split filename).2 c)
      (d.allot fat c) = .ok () (d.created fat place filename c) :=
    writeBytes_sound sound (by rw [length_newEntry]; exact fits)
  have back : readBack place dir (d.created fat place filename c) =
      .ok (dirAt (d.created fat place filename c).pages place)
        (d.created fat place filename c) := by
    rw [readBack, readDirEntry_sound (d := d.created fat place filename c) sound fits]
  change (writeBytes _ _ _ >>= _) _ = _
  rw [bind_ok write, bind_ok back]
  rfl

end Placed

theorem create_full {slot} (h : Consistent fat d.pages cells) (valid : fat.Valid)
    (sound : d.Sound) (plain : Plain fat d.pages) (found : lookup fat d.pages filename = some slot)
    (mark : (dirAt d.pages slot).mark = 0) (full : vacant fat d = []) :
    create fat fat.maxClust.toNat filename dir d = .error .noFreeCluster d.forget := by
  have known := fileExists_sound h valid sound plain found
  simp only [mark, bne_self_eq_false] at known
  obtain ⟨place, free⟩ := unused_of_end found mark
  rw [directory, h.root_eq] at free
  exact create_without known (freeFrom_sound valid sound (h.walk plain) (h.root_length none) free)
    valid sound full

variable {place : Slot}

theorem create_file {slot} {rest} (h : Consistent fat d.pages cells)
    (valid : fat.Valid) (sound : d.Sound) (plain : Plain fat d.pages)
    (found : lookup fat d.pages filename = some slot) (mark : (dirAt d.pages slot).mark = 0)
    (free : (directory fat d.pages).find? (unused d.pages) = some place)
    (clusters : vacant fat d = c :: rest) : create fat fat.maxClust.toNat filename dir d =
      .ok (some (place, dirAt (d.created fat place filename c).pages place))
        (d.created fat place filename c) := by
  have known := fileExists_sound h valid sound plain found
  simp only [mark, bne_self_eq_false] at known
  have fits := (aligned_of_mem valid (mem_of_find?_eq_some free)).fits
  rw [directory, h.root_eq] at free
  have zero := ((mem_vacant valid).mp (clusters ▸ mem_cons_self)).2.2
  exact create_at known (freeFrom_sound valid sound (h.walk plain) (h.root_length none) free)
    valid sound fits clusters (h.ne_reserved zero).2

theorem dirAt_created (fits : place.index + 32 ≤ pageSize) :
    dirAt (d.created fat place filename c).pages place =
      .ofBytes ((split filename).1.take 8) ((split filename).2.take 3) [0x20] [0, 0, 0, 0, 0]
        [(c >>> 16).toUInt8, (c >>> 24).toUInt8] [c.toUInt8, (c >>> 8).toUInt8] [0, 0, 0, 0] := by
  obtain ⟨nine, four⟩ := length_split filename
  exact dirAt_newEntry fits (by omega) (by omega)

theorem startCluster_created (fits : place.index + 32 ≤ pageSize) :
    (dirAt (d.created fat place filename c).pages place).startCluster = c := by
  rw [dirAt_created fits]
  exact read_start c

theorem mark_created (fits : place.index + 32 ≤ pageSize) :
    (dirAt (d.created fat place filename c).pages place).mark = (split filename).1.headD 0 := by
  obtain ⟨nine, _⟩ := length_split filename
  rw [dirAt_created fits]
  cases name : (split filename).1 with
  | nil =>
    rw [name] at nine
    exact absurd nine (by simp)
  | cons b l => rfl

theorem headD_split_ne_zero : (split filename).1.headD 0 ≠ 0 := by
  change (padded 8 ((filename.takeWhile fun b => b ≠ 0 ∧ b ≠ dot).take 8)).headD 0 ≠ 0
  cases first : (filename.takeWhile fun b => b ≠ 0 ∧ b ≠ dot).take 8 with
  | nil =>
    decide
  | cons b l =>
    have mem : b ∈ filename.takeWhile fun b => b ≠ 0 ∧ b ≠ dot :=
      mem_of_mem_take (first ▸ mem_cons_self : b ∈ take 8 _)
    have := mem_takeWhile_imp mem
    simp only [ne_eq, decide_eq_true_eq] at this
    exact this.1

theorem head_created (fits : place.index + 32 ≤ pageSize)
    (name : (split filename).1.headD 0 ≠ deleted) (nonzero : c ≠ 0) :
    (dirAt (d.created fat place filename c).pages place).head = some c := by
  have attrib : (dirAt (d.created fat place filename c).pages place).attrib = 0x20 := by
    rw [dirAt_created fits]
    rfl
  have file : (dirAt (d.created fat place filename c).pages place).isFile = true := by
    simp only [DirEntry.isFile, mark_created fits, attrib, Bool.and_eq_true, bne_iff_ne, ne_eq]
    exact ⟨⟨headD_split_ne_zero, name⟩, by decide⟩
  rw [DirEntry.head, startCluster_created fits, if_pos ⟨file, nonzero⟩]

theorem Consistent.created (h : Consistent fat d.pages cells) (valid : fat.Valid)
    (inside : fat.Inside c) (zero : entry fat d.pages c = 0) (mem : place ∈ directory fat d.pages)
    (free : unused d.pages place = true) (name : (split filename).1.headD 0 ≠ deleted) :
    Consistent fat (d.created fat place filename c).pages
      (Function.update cells (some place) [c]) :=
  h.enter valid inside zero mem (isFile_of_unused free) le_rfl (by rw [length_newEntry])
    (head_created (aligned_of_mem valid mem).fits name (h.ne_reserved zero).1)

end Named

end Fat32
