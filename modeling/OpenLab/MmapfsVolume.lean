import OpenLab.ScsiMmapfs

/-!
# Consistency of the virtual volume

What a host sees that follows the FAT16 rules. The table the code builds has 128 entries in a
sector and each entry names its own cluster, so the volume is consistent only for files of exactly
one cluster at the front of the table.
-/

namespace ScsiMmapfs

open List Option

def clustersFor (n : Nat) : Nat := (n + 4095) / 4096

def firstCluster (files : List File) (i : Nat) : Nat :=
  3 + ((files.take i).map fun f => clustersFor f.maxsize).sum

/-- A table of files as it may be given, with its reported sizes. -/
structure Volume where
  files : List File
  nonempty : files ≠ []
  listed : files.length ≤ 15
  named : ∀ f ∈ files, f.name.length = 8 ∧ f.ext.length = 3
  maximal : ∀ f ∈ files, 1 ≤ f.maxsize ∧ f.maxsize < 2 ^ 32
  reported : ∀ f ∈ files, 1 ≤ f.size ∧ f.size ≤ f.maxsize
  clusters : firstCluster files files.length ≤ 0xFFF0
  sectors : fatClusterToSector (firstCluster files files.length) ≤ lunSize

def read16 (sector : Sector) (offset : Nat) : Nat :=
  (sector offset).toNat + 256 * (sector (offset + 1)).toNat

def sectorBytes (files : List File) (lba : Nat) : Sector :=
  match readSector files lba with
  | .bytes sector => sector
  | .file _ _ => zeros

def fatEntry (files : List File) (c : Nat) : Nat :=
  read16 (sectorBytes files (fatFat1First + c / 256)) (2 * (c % 256))

def startCluster (files : List File) (i : Nat) : Nat :=
  read16 (sectorBytes files directoryFirst) (32 * (i + 1) + 0x1A)

def hostSector (c : Nat) : Nat := reserved + fatFatsize + directorySize + (c - 2) * 8

/-- The clusters visited from `c` on, up to an end-of-chain mark. -/
inductive ClusterChain (next : Nat → Nat) : Nat → List Nat → Prop
  | last {c : Nat} : 0xFFF8 ≤ next c → ClusterChain next c [c]
  | link {c : Nat} {l : List Nat} : 2 ≤ next c → next c < 0xFFF0 →
      ClusterChain next (next c) l → ClusterChain next c (c :: l)

structure FileChain (files : List File) (i : Nat) (l : List Nat) : Prop where
  chain : ClusterChain (fatEntry files) (startCluster files i) l
  distinct : l.Nodup
  length : ∀ f, files[i]? = some f → l.length = clustersFor f.size
  served : ∀ k c, l[k / 8]? = some c →
    readSector files (hostSector c + k % 8) = .file i k

def InArea (files : List File) (i lba : Nat) : Prop :=
  hostSector (firstCluster files i) ≤ lba ∧ lba < hostSector (firstCluster files (i + 1))

def Outside (files : List File) (lba : Nat) : Prop := ∀ i < files.length, ¬InArea files i lba

structure Consistent (files : List File) : Prop where
  chains : ∀ i < files.length, ∃ l, FileChain files i l
  disjoint : ∀ i j l m, i < files.length → j < files.length → i ≠ j → FileChain files i l →
    FileChain files j m → l.Disjoint m
  outside : ∀ lba, dataFirstSector ≤ lba → lba < lunSize → Outside files lba →
    readSector files lba = .bytes zeros ∧ writeSector files lba = none

section Layout

theorem csize_eq {f : File} (small : clustersFor f.maxsize < 2 ^ 16) :
    f.csize = clustersFor f.maxsize := by
  simp only [clustersFor] at small
  have bytes : clusterBytes = 4096 := rfl
  have whole : f.maxsize / 4096 % 2 ^ 16 = f.maxsize / 4096 := by omega
  rw [File.csize, clustersFor, bytes, whole]
  by_cases more : f.maxsize / 4096 * 4096 % 2 ^ 32 < f.maxsize
  · rw [if_pos more]
    omega
  · rw [if_neg more]
    omega

theorem place_eq (files : List File) (index first : Nat)
    (small : first + (files.map fun f => clustersFor f.maxsize).sum ≤ 0xFFF0)
    (some_ : ∀ f ∈ files, 1 ≤ f.maxsize) (positive : 1 ≤ first) :
    ∀ i (h : i < files.length), (place index first (first - 1) files)[i]? = some
      ⟨index + i, files[i], first + ((files.take i).map fun f => clustersFor f.maxsize).sum,
        first + ((files.take (i + 1)).map fun f => clustersFor f.maxsize).sum - 1⟩ := by
  induction files generalizing index first with
  | nil =>
    intro i h
    cases h
  | cons f rest ih =>
    simp only [map_cons, sum_cons] at small
    have csize := csize_eq (f := f) (by omega)
    have cend : (first - 1 + f.csize) % 2 ^ 16 = first + clustersFor f.maxsize - 1 := by
      omega
    have cstart : (first + clustersFor f.maxsize - 1 + 1) % 2 ^ 16 =
        first + clustersFor f.maxsize := by
      omega
    intro i h
    cases i with
    | zero => simp only [place, cend]; simp
    | succ i =>
      have next := ih (index + 1) (first + clustersFor f.maxsize) (by omega)
        (fun g hg => some_ g (mem_cons_of_mem f hg)) (by omega) i (by simpa using h)
      simp only [place, cend, cstart, getElem?_cons_succ, next, getElem_cons_succ,
        take_succ_cons, map_cons, sum_cons]
      simp [Nat.add_assoc, Nat.add_comm 1 i]

theorem length_place {files} {index first last} :
    (place index first last files).length = files.length := by
  induction files generalizing index first last with
  | nil => rfl
  | cons f rest ih => simp [place, ih]

variable (v : Volume) {i : Nat}

theorem Volume.sum_le : 3 + (v.files.map fun f => clustersFor f.maxsize).sum ≤ 0xFFF0 := by
  have all := v.clusters
  rwa [firstCluster, take_length] at all

theorem Volume.placed_eq (h : i < v.files.length) :
    (placed v.files)[i]? = some ⟨i, v.files[i], firstCluster v.files i,
      firstCluster v.files (i + 1) - 1⟩ := by
  have rounds := place_eq v.files 0 3 v.sum_le (fun f hf => (v.maximal f hf).1)
    (by decide) i h
  simpa [placed, dataFirstFatCluster, firstCluster] using rounds

theorem Volume.length_placed : (placed v.files).length = v.files.length := length_place

theorem firstCluster_zero (files : List File) : firstCluster files 0 = 3 := rfl

theorem firstCluster_succ {files} (h : i < files.length) :
    firstCluster files (i + 1) = firstCluster files i + clustersFor files[i].maxsize := by
  rw [firstCluster, firstCluster, take_succ_eq_append_getElem h]
  simp only [map_append, sum_append, map_cons, map_nil, sum_cons,
    sum_nil]
  omega

theorem Volume.firstCluster_lt (h : i < v.files.length) :
    firstCluster v.files i < firstCluster v.files (i + 1) := by
  have positive := (v.maximal _ (getElem_mem h)).1
  rw [firstCluster_succ h, clustersFor]
  omega

theorem firstCluster_mono (files : List File) {j} (h : i ≤ j) :
    firstCluster files i ≤ firstCluster files j := by
  obtain ⟨k, rfl⟩ := Nat.exists_eq_add_of_le h
  induction k with
  | zero => exact le_rfl
  | succ k ih =>
    refine (ih (Nat.le_add_right i k)).trans ?_
    by_cases inside : i + k < files.length
    · rw [← Nat.add_assoc, firstCluster_succ inside]
      exact Nat.le_add_right _ _
    · have all : ∀ n, i + k ≤ n → firstCluster files n = firstCluster files files.length := by
        intro n hn
        rw [firstCluster, firstCluster, take_of_length_le (by omega), take_length]
      rw [all (i + k) le_rfl, all (i + (k + 1)) (by omega)]

theorem Volume.firstCluster_le (h : i ≤ v.files.length) :
    firstCluster v.files i ≤ 0xFFF0 := (firstCluster_mono v.files h).trans v.clusters

theorem three_le_firstCluster (files : List File) (i : Nat) : 3 ≤ firstCluster files i :=
  Nat.le_add_right 3 _

theorem Volume.covered {k} (h : i ≤ v.files.length) (low : 3 ≤ k)
    (high : k < firstCluster v.files i) :
    ∃ j < i, firstCluster v.files j ≤ k ∧ k < firstCluster v.files (j + 1) := by
  induction i with
  | zero =>
    rw [firstCluster_zero] at high
    omega
  | succ i ih =>
    by_cases before : k < firstCluster v.files i
    · obtain ⟨j, less, area⟩ := ih (by omega) before
      exact ⟨j, by omega, area⟩
    · exact ⟨i, Nat.lt_succ_self i, by omega, high⟩

end Layout

section Bytes

variable {s : Sector} {offset i : Nat} {bytes : List UInt8}

theorem store_outside (h : i < offset ∨ offset + bytes.length ≤ i) :
    store s offset bytes i = s i := by
  rw [store, if_neg (by omega)]

theorem read16_store_outside (h : i + 1 < offset ∨ offset + bytes.length ≤ i) :
    read16 (store s offset bytes) i = read16 s i := by
  rw [read16, read16, store_outside (by omega), store_outside (by omega)]

theorem read16_write16 (s : Sector) (offset val : Nat) :
    read16 (write16 s offset val) offset = val % 2 ^ 16 := by
  simp [read16, write16, store]
  omega

theorem read16_write16_outside {val} (h : i + 1 < offset ∨ offset + 2 ≤ i) :
    read16 (write16 s offset val) i = read16 s i := read16_store_outside h

end Bytes

section Fat

variable {lba n : Nat} {w : FatWalk}

/-- The loop is at the entry with the number `n`; a sector has 128 of them. -/
def FatWalk.At (w : FatWalk) (n : Nat) : Prop := w.fatSect = n / 128 ∧ w.fatOff = 2 * (n % 128)

theorem putMark_at (lba : Nat) (h : w.At n) (mk : Nat) : (putMark lba w mk).At (n + 1) := by
  obtain ⟨sect, off⟩ := h
  have half : sectorsize / 2 = 256 := rfl
  rw [putMark, half]
  by_cases last : 256 ≤ w.fatOff + 2
  · rw [if_pos last]
    constructor <;> dsimp only <;> omega
  · rw [if_neg last]
    constructor <;> dsimp only <;> omega

theorem putMark_sector (mk : Nat) : (putMark lba w mk).sector =
    if w.fatSect = lba then write16 w.sector w.fatOff mk else w.sector := by
  rw [putMark]
  split <;> rfl

theorem putMark_read (h : w.At n) (mk j : Nat) : read16 (putMark lba w mk).sector (2 * j) =
    if j < 128 ∧ 128 * lba + j = n then mk % 2 ^ 16 else read16 w.sector (2 * j) := by
  obtain ⟨sect, off⟩ := h
  rw [putMark_sector]
  by_cases here : j < 128 ∧ 128 * lba + j = n
  · have same : w.fatSect = lba := by omega
    have position : w.fatOff = 2 * j := by omega
    rw [if_pos here, if_pos same, position, read16_write16]
  · split
    · rw [read16_write16_outside (by omega)]
    · rfl

theorem putMarks_read (f : Nat → Nat) (lba length : Nat) : ∀ {n : Nat} {w : FatWalk}, w.At n →
    (((List.range' n length).map f).foldl (putMark lba) w).At (n + length) ∧
    ∀ j, read16 (((List.range' n length).map f).foldl (putMark lba) w).sector (2 * j) =
      if j < 128 ∧ n ≤ 128 * lba + j ∧ 128 * lba + j < n + length then f (128 * lba + j) % 2 ^ 16
      else read16 w.sector (2 * j) := by
  induction length with
  | zero =>
    intro n w h
    refine ⟨h, fun j => ?_⟩
    rw [if_neg (by omega)]
    rfl
  | succ length ih =>
    intro n w h
    obtain ⟨position, entries⟩ := ih (putMark_at lba h (f n))
    rw [range'_succ, map_cons, foldl_cons]
    refine ⟨by rwa [Nat.add_right_comm] at position, fun j => ?_⟩
    rw [entries j, putMark_read h]
    by_cases first : j < 128 ∧ 128 * lba + j = n
    · rw [if_neg (by omega), if_pos first, if_pos (by omega), first.2]
    · rw [if_neg first]
      by_cases later : j < 128 ∧ n + 1 ≤ 128 * lba + j ∧ 128 * lba + j < n + 1 + length
      · rw [if_pos later, if_pos (by omega)]
      · rw [if_neg later, if_neg (by omega)]

variable (v : Volume)

def Volume.lastCluster (i : Nat) : Nat :=
  (firstCluster v.files i + (v.files.getD i ⟨[], [], 0, none⟩).c2size + 2 ^ 16 - 1) % 2 ^ 16

def Volume.walk (lba i : Nat) : FatWalk :=
  ((placed v.files).take i).foldl (fatFile lba) ⟨emptyFat lba, 0, dataFirstFatCluster * 2⟩

theorem Volume.walk_succ {i} (h : i < v.files.length) : v.walk lba (i + 1) =
    ((List.range' (firstCluster v.files i) (clustersFor v.files[i].maxsize)).map
      fun c => mark c (v.lastCluster i)).foldl (putMark lba) (v.walk lba i) := by
  have round := v.placed_eq h
  have step := firstCluster_succ h
  have positive := three_le_firstCluster v.files i
  have length : firstCluster v.files (i + 1) - 1 + 1 - firstCluster v.files i =
      clustersFor v.files[i].maxsize := by omega
  have last : Placed.c2end ⟨i, v.files[i], firstCluster v.files i,
      firstCluster v.files (i + 1) - 1⟩ = v.lastCluster i := by
    rw [Placed.c2end, Volume.lastCluster, getD_eq_getElem _ _ h]
  rw [Volume.walk, take_add_one, round, toList_some, foldl_append, foldl_cons,
    foldl_nil, fatFile, Placed.clusters, length, last]
  rfl

theorem Volume.walk_spec (lba : Nat) {i} (h : i ≤ v.files.length) :
    (v.walk lba i).At (firstCluster v.files i) ∧
    (∀ j < 128, ∀ p < i, firstCluster v.files p ≤ 128 * lba + j →
      128 * lba + j < firstCluster v.files (p + 1) →
      read16 (v.walk lba i).sector (2 * j) = mark (128 * lba + j) (v.lastCluster p) % 2 ^ 16) ∧
    ∀ j, 128 ≤ j → read16 (v.walk lba i).sector (2 * j) = read16 (emptyFat lba) (2 * j) := by
  induction i with
  | zero =>
    have start : v.walk lba 0 = ⟨emptyFat lba, 0, dataFirstFatCluster * 2⟩ := by
      rw [Volume.walk, take_zero, foldl_nil]
    rw [start, firstCluster_zero]
    refine ⟨⟨rfl, rfl⟩, ?_, ?_⟩
    · intro j _ p none
      cases none
    · intro j _
      rfl
  | succ i ih =>
    obtain ⟨position, entries, rest⟩ := ih (by omega)
    obtain ⟨next, marks⟩ := putMarks_read (fun c => mark c (v.lastCluster i)) lba
      (clustersFor v.files[i].maxsize) position
    rw [← v.walk_succ h] at next marks
    have step := firstCluster_succ h
    refine ⟨by rwa [step], ?_, ?_⟩
    · intro j small p before low high
      rw [marks j]
      by_cases this : p = i
      · subst this
        rw [if_pos (by omega)]
      · have less : firstCluster v.files (p + 1) ≤ firstCluster v.files i :=
          firstCluster_mono v.files (by omega)
        rw [if_neg (by omega)]
        exact entries j small p (by omega) low high
    · intro j big
      rw [marks j, if_neg (by omega)]
      exact rest j big

theorem Volume.buildFat_eq : buildFat v.files lba = (v.walk lba v.files.length).sector := by
  rw [buildFat, Volume.walk, take_of_length_le v.length_placed.le]

theorem sectorBytes_fat {files} {c} (h : c < 0xFFF0) :
    sectorBytes files (fatFat1First + c / 256) = buildFat files (c / 256) := by
  have first : fatFat1First = 8 := rfl
  have last : fatFat1Last = 263 := rfl
  have sector : readSector files (8 + c / 256) = .bytes (buildFat files (c / 256)) := by
    rw [readSector, first, last, if_neg (by omega), if_pos (by omega), Nat.add_sub_cancel_left,
      Nat.mod_eq_of_lt (by omega)]
  rw [sectorBytes, first, sector]

theorem mark_mod {c last} (small : c < 2 ^ 16) : mark c last % 2 ^ 16 = mark c last := by
  rw [mark, fatEndofcluster, fatBadcluster]
  split
  · omega
  · split <;> rfl

/-- What the host finds for a cluster in the first half of a sector: the entry of another
cluster, except in the first sector. -/
theorem Volume.fatEntry_low {c p} (h : c < 0xFFF0) (half : c % 256 < 128)
    (file : p < v.files.length) (low : firstCluster v.files p ≤ 128 * (c / 256) + c % 256)
    (high : 128 * (c / 256) + c % 256 < firstCluster v.files (p + 1)) :
    fatEntry v.files c = mark (128 * (c / 256) + c % 256) (v.lastCluster p) := by
  obtain ⟨-, entries, -⟩ := v.walk_spec (c / 256) le_rfl
  rw [fatEntry, sectorBytes_fat h, v.buildFat_eq, entries _ half p file low high,
    mark_mod (by omega)]

theorem Volume.fatEntry_high {c} (h : c < 0xFFF0) (half : 128 ≤ c % 256) :
    fatEntry v.files c = fatBadcluster := by
  obtain ⟨-, -, rest⟩ := v.walk_spec (c / 256) le_rfl
  rw [fatEntry, sectorBytes_fat h, v.buildFat_eq, rest _ half, emptyFat]
  split
  · rw [read16_store_outside (.inr (by simp; omega))]
    simp [read16, low, fatBadcluster, Nat.add_mod]
  · simp [read16, low, fatBadcluster, Nat.add_mod]

end Fat

section Directory

variable {s : Sector} {offset i : Nat} {p : Placed}

theorem putEntry_outside (h : i < offset ∨ offset + 32 ≤ i) : putEntry s offset p i = s i := by
  have name : (p.file.name.take 8).length ≤ 8 := length_take_le _ _
  have ext : (p.file.ext.take 3).length ≤ 3 := length_take_le _ _
  simp only [putEntry, write16, write32]
  repeat rw [store_outside (by simp only [length_cons, length_nil]; omega)]
  rw [store_outside (by omega)]
  split
  · rw [store_outside (by omega)]
  · rw [store_outside (by simp only [length_cons, length_nil]; omega), store_outside (by omega)]

theorem putEntry_cluster (s : Sector) (offset : Nat) (p : Placed) :
    read16 (putEntry s offset p) (offset + 0x1A) = p.cstart % 2 ^ 16 := by
  rw [putEntry, write32, read16_store_outside (.inl (by omega)), read16_write16]

theorem Volume.entries_spec (v : Volume) {n} (h : n ≤ v.files.length) : ∀ i < n,
    read16 (((placed v.files).take n).foldl
      (fun sector p => putEntry sector (directoryEntrysize * (p.index + 1)) p) labelSector)
      (32 * (i + 1) + 0x1A) = firstCluster v.files i := by
  induction n with
  | zero =>
    intro i none
    cases none
  | succ n ih =>
    intro i before
    have size : directoryEntrysize = 32 := rfl
    rw [take_add_one, v.placed_eq h, toList_some, foldl_append, foldl_cons,
      foldl_nil, size]
    by_cases this : i = n
    · subst this
      have small : firstCluster v.files i ≤ 0xFFF0 := v.firstCluster_le (by omega)
      rw [putEntry_cluster]
      exact Nat.mod_eq_of_lt (show firstCluster v.files i < 2 ^ 16 by omega)
    · rw [read16, putEntry_outside (.inl (by dsimp only; omega)),
        putEntry_outside (.inl (by dsimp only; omega))]
      exact ih (by omega) i (by omega)

theorem Volume.startCluster_eq (v : Volume) {i} (h : i < v.files.length) :
    startCluster v.files i = firstCluster v.files i := by
  have sector : sectorBytes v.files directoryFirst = buildRootdirectory v.files 0 := rfl
  have entry := v.entries_spec le_rfl i h
  rw [take_of_length_le v.length_placed.le] at entry
  exact entry

end Directory

section Data

variable (v : Volume) {i j lba : Nat}

theorem hostSector_eq {c} (h : 2 ≤ c) : hostSector c = 8 * c + 280 := by
  have constant : reserved + fatFatsize + directorySize = 296 := rfl
  rw [hostSector, constant]
  omega

theorem fatClusterToSector_eq (c : Nat) : fatClusterToSector c = 8 * c + 280 := by
  have first : dataFirstCluster = 37 := rfl
  have size : clustersize = 8 := rfl
  rw [fatClusterToSector, first, size]
  omega

theorem inArea_iff (files : List File) (i lba : Nat) : InArea files i lba ↔
    8 * firstCluster files i + 280 ≤ lba ∧ lba < 8 * firstCluster files (i + 1) + 280 := by
  have low := three_le_firstCluster files i
  have high := three_le_firstCluster files (i + 1)
  rw [InArea, hostSector_eq (by omega), hostSector_eq (by omega)]

theorem inArea_unique {files} (h : InArea files i lba) (h' : InArea files j lba) :
    i = j := by
  rw [inArea_iff] at h h'
  rcases Nat.lt_trichotomy i j with less | equal | greater
  · have := firstCluster_mono files (i := i + 1) (j := j) less
    omega
  · exact equal
  · have := firstCluster_mono files (i := j + 1) (j := i) greater
    omega

theorem Volume.test_iff (h : i < v.files.length) :
    ∃ p, (placed v.files)[i]? = some p ∧ p.index = i ∧
      p.sstart = hostSector (firstCluster v.files i) ∧
      ∀ lba, (p.sstart ≤ lba ∧ lba ≤ p.send) ↔ InArea v.files i lba := by
  refine ⟨_, v.placed_eq h, rfl, ?_, fun lba => ?_⟩
  · have low := three_le_firstCluster v.files i
    rw [Placed.sstart, fatClusterToSector_eq, hostSector_eq (by omega)]
  · have less := v.firstCluster_lt h
    have size : clustersize = 8 := rfl
    rw [inArea_iff, Placed.sstart, Placed.send, fatClusterToSector_eq, fatClusterToSector_eq, size]
    dsimp only
    omega

theorem Volume.buildData_inside (h : i < v.files.length) (area : InArea v.files i lba) :
    buildData v.files lba =
      some (i, (lba - hostSector (firstCluster v.files i)) % 2 ^ 16) := by
  obtain ⟨p, round, index, sstart, test⟩ := v.test_iff h
  have found : ∃ q, (placed v.files).find? (fun p => p.sstart ≤ lba ∧ lba ≤ p.send) = some q := by
    apply isSome_iff_exists.mp
    rw [find?_isSome]
    exact ⟨p, mem_of_getElem? round, by simpa using (test lba).mpr area⟩
  obtain ⟨q, found⟩ := found
  obtain ⟨k, hk⟩ := getElem?_of_mem (mem_of_find?_eq_some found)
  have bound : k < v.files.length := by
    rw [← v.length_placed]
    exact (List.getElem?_eq_some_iff.mp hk).1
  obtain ⟨r, round', -, -, test'⟩ := v.test_iff bound
  obtain rfl : r = q := some.inj (round'.symm.trans hk)
  have inside : r.sstart ≤ lba ∧ lba ≤ r.send := by simpa using find?_some found
  obtain rfl : k = i := inArea_unique ((test' lba).mp inside) area
  obtain rfl : p = r := some.inj (round.symm.trans hk)
  rw [buildData, found, map_some, index, sstart]

theorem Volume.buildData_outside : buildData v.files lba = none ↔ Outside v.files lba := by
  constructor
  · intro nothing i h area
    rw [v.buildData_inside h area] at nothing
    cases nothing
  · intro outside
    rw [buildData, map_eq_none_iff, find?_eq_none]
    intro p mem
    obtain ⟨k, hk⟩ := getElem?_of_mem mem
    have bound : k < v.files.length := by
      rw [← v.length_placed]
      exact (List.getElem?_eq_some_iff.mp hk).1
    obtain ⟨r, round, -, -, test⟩ := v.test_iff bound
    obtain rfl : r = p := some.inj (round.symm.trans hk)
    simpa using fun inside => outside k bound ((test lba).mp inside)

theorem readSector_data {files} (h : dataFirstSector ≤ lba) : readSector files lba =
    match buildData files (lba % 2 ^ 16) with
    | some (index, block) => .file index block
    | none => .bytes zeros := by
  have first : dataFirstSector = 296 := rfl
  have fat : fatFat1First = 8 := rfl
  have last : fatFat1Last = 263 := rfl
  have directory : directoryLast = 295 := rfl
  rw [readSector, fat, last, directory, if_neg (by omega), if_neg (by omega)]
  exact if_neg (by omega)

/-- A data sector reads as zeros and is not passed to a file exactly if the low 16 bits of
its number are in no area. -/
theorem Volume.unserved_iff (h : dataFirstSector ≤ lba) :
    (readSector v.files lba = .bytes zeros ∧ writeSector v.files lba = none) ↔
      Outside v.files (lba % 2 ^ 16) := by
  have first : dataFirstSector = 296 := rfl
  have directory : directoryLast = 295 := rfl
  rw [← v.buildData_outside, readSector_data h, writeSector, directory, if_neg (by omega)]
  cases found : buildData v.files (lba % 2 ^ 16) with
  | none | some pair => simp

end Data

section Chains

variable {next : Nat → Nat} {c : Nat} {l : List Nat}

theorem ClusterChain.not_bad (h : ClusterChain next c l) : next c ≠ fatBadcluster := by
  have bad : fatBadcluster = 0xFFF7 := rfl
  cases h <;> omega

theorem ClusterChain.not_loop (h : ClusterChain next c l) (small : c < 0xFFF0) : next c ≠ c := by
  induction h with
  | last eoc => omega
  | link _ less _ ih =>
    intro loop
    exact ih less (congrArg next loop)

theorem ClusterChain.eq_single (h : ClusterChain next c l) (eoc : next c = fatEndofcluster) :
    l = [c] := by
  have value : fatEndofcluster = 0xFFFF := rfl
  cases h with
  | last => rfl
  | link => omega

end Chains

section Condition

variable (v : Volume) {i : Nat}

theorem c2size_eq_one_iff {f : File} (positive : 1 ≤ f.size) (one : clustersFor f.size = 1) :
    f.c2size = 1 ↔ f.size = 4096 := by
  have bytes : clusterBytes = 4096 := rfl
  rw [clustersFor] at one
  rw [File.c2size, bytes, if_neg (by omega)]
  omega

theorem Volume.lastCluster_eq (h : i < v.files.length) : v.lastCluster i =
    (firstCluster v.files i + v.files[i].c2size + 2 ^ 16 - 1) % 2 ^ 16 := by
  rw [Volume.lastCluster, getD_eq_getElem _ _ h]

theorem Volume.lastCluster_of_full (h : i < v.files.length) (full : v.files[i].size = 4096) :
    v.lastCluster i = firstCluster v.files i := by
  have one : v.files[i].c2size = 1 :=
    (c2size_eq_one_iff (by omega) (by rw [full]; rfl)).mpr full
  have small : firstCluster v.files i ≤ 0xFFF0 := v.firstCluster_le h.le
  rw [v.lastCluster_eq h, one]
  omega

theorem Volume.front_entry (h : i < v.files.length) (front : firstCluster v.files i < 128) :
    fatEntry v.files (firstCluster v.files i) =
      mark (firstCluster v.files i) (v.lastCluster i) := by
  have less := v.firstCluster_lt h
  have position : 128 * (firstCluster v.files i / 256) + firstCluster v.files i % 256 =
      firstCluster v.files i := by omega
  have entry := v.fatEntry_low (c := firstCluster v.files i) (p := i) (by omega) (by omega) h
    (by omega) (by omega)
  rwa [position] at entry

/-- The condition on a file: it reports one full cluster, in the first half of the first
sector of the table. -/
def Volume.OneCluster (i : Nat) : Prop :=
  (∀ f, v.files[i]? = some f → f.size = 4096) ∧ firstCluster v.files i < 128

theorem Volume.full_of_chain (h : i < v.files.length) (front : firstCluster v.files i < 128)
    (file : FileChain v.files i l) : v.files[i].size = 4096 := by
  have chain := file.chain
  rw [v.startCluster_eq h] at chain
  have entry := v.front_entry h front
  rcases Nat.lt_trichotomy (firstCluster v.files i) (v.lastCluster i) with less | equal | greater
  · rw [mark, if_pos less] at entry
    exact absurd entry (chain.not_loop (by omega))
  · have eoc : fatEntry v.files (firstCluster v.files i) = fatEndofcluster := by
      rw [entry, mark, if_neg (by omega), if_pos equal]
    have length := file.length _ (getElem?_eq_getElem h)
    rw [chain.eq_single eoc] at length
    have positive := (v.reported _ (getElem_mem h)).1
    refine (c2size_eq_one_iff positive length.symm).mp ?_
    have word : v.files[i].c2size < 2 ^ 16 := Nat.mod_lt _ (by decide)
    rw [v.lastCluster_eq h] at equal
    omega
  · rw [mark, if_neg (by omega), if_neg (by omega)] at entry
    exact absurd entry chain.not_bad

/-- A file further on has no chain once the files before it are of one cluster: its entry
is never written, or is the one of a cluster that no file reports. -/
theorem Volume.front_of_chain (h : i < v.files.length) (file : FileChain v.files i l)
    (before : ∀ j < i, v.OneCluster j) : firstCluster v.files i < 128 := by
  by_contra far
  have chain := file.chain
  have bound := v.firstCluster_lt h
  have total : firstCluster v.files (i + 1) ≤ 0xFFF0 := v.firstCluster_le h
  rw [v.startCluster_eq h] at chain
  by_cases half : firstCluster v.files i % 256 < 128
  · obtain ⟨j, less, low, high⟩ := v.covered (k := 128 * (firstCluster v.files i / 256) +
      firstCluster v.files i % 256) h.le (by omega) (by omega)
    have file' : j < v.files.length := by omega
    have full := (before j less).1 _ (getElem?_eq_getElem file')
    have front := (before j less).2
    have entry := v.fatEntry_low (by omega) half file' low high
    rw [v.lastCluster_of_full file' full, mark, if_neg (by omega), if_neg (by omega)] at entry
    exact chain.not_bad entry
  · exact chain.not_bad (v.fatEntry_high (by omega) (by omega))

theorem Volume.oneCluster_of_chains (chains : ∀ i < v.files.length, ∃ l, FileChain v.files i l) :
    ∀ i < v.files.length, v.OneCluster i := by
  intro i
  induction i using Nat.strongRecOn with
  | ind i ih =>
    intro h
    obtain ⟨l, file⟩ := chains i h
    have front := v.front_of_chain h file fun j less => ih j less (by omega)
    refine ⟨fun f this => ?_, front⟩
    obtain rfl := some.inj ((getElem?_eq_getElem h).symm.trans this)
    exact v.full_of_chain h front file

theorem Volume.fileChain_single (h : i < v.files.length) (one : v.OneCluster i) :
    FileChain v.files i [firstCluster v.files i] := by
  have full := one.1 _ (getElem?_eq_getElem h)
  have front := one.2
  have eoc : fatEntry v.files (firstCluster v.files i) = fatEndofcluster := by
    rw [v.front_entry h front, v.lastCluster_of_full h full, mark, if_neg (lt_irrefl _), if_pos rfl]
  constructor
  case chain =>
    rw [v.startCluster_eq h]
    exact .last (by rw [eoc]; decide)
  case distinct => exact nodup_singleton _
  case length =>
    intro f this
    rw [one.1 f this]
    rfl
  case served =>
    intro k c this
    have small : k / 8 = 0 := by
      by_contra more
      rw [getElem?_eq_none (by simp; omega)] at this
      cases this
    obtain rfl : firstCluster v.files i = c := by simpa [small] using this
    have less := v.firstCluster_lt h
    have low := three_le_firstCluster v.files i
    have host := hostSector_eq (c := firstCluster v.files i) (by omega)
    have data : dataFirstSector ≤ hostSector (firstCluster v.files i) + k % 8 := by
      have first : dataFirstSector = 296 := rfl
      omega
    have area : InArea v.files i (hostSector (firstCluster v.files i) + k % 8) := by
      rw [inArea_iff]
      omega
    rw [readSector_data data, Nat.mod_eq_of_lt (by omega), v.buildData_inside h area,
      Nat.add_sub_cancel_left]
    dsimp only
    congr 1
    omega

/-- The volume is consistent exactly for files that report one full cluster and start
before cluster 128, and if the sectors of no file are those of a file in their low 16 bits. -/
theorem volume_consistent_iff : Consistent v.files ↔
    (∀ i < v.files.length, v.OneCluster i) ∧
    ∀ lba, dataFirstSector ≤ lba → lba < lunSize → Outside v.files lba →
      Outside v.files (lba % 2 ^ 16) := by
  constructor
  · intro consistent
    refine ⟨v.oneCluster_of_chains consistent.chains, fun lba data small outside => ?_⟩
    exact (v.unserved_iff data).mp (consistent.outside lba data small outside)
  · rintro ⟨one, aliases⟩
    constructor
    case chains => exact fun i h => ⟨_, v.fileChain_single h (one i h)⟩
    case disjoint =>
      intro i j l m hi hj different file file'
      have eoc (k : Nat) (hk : k < v.files.length) :
          fatEntry v.files (firstCluster v.files k) = fatEndofcluster := by
        have full := (one k hk).1 _ (getElem?_eq_getElem hk)
        rw [v.front_entry hk (one k hk).2, v.lastCluster_of_full hk full, mark,
          if_neg (lt_irrefl _), if_pos rfl]
      have chain := file.chain
      have chain' := file'.chain
      rw [v.startCluster_eq hi] at chain
      rw [v.startCluster_eq hj] at chain'
      rw [chain.eq_single (eoc i hi), chain'.eq_single (eoc j hj)]
      have apart : firstCluster v.files i ≠ firstCluster v.files j := by
        have := v.firstCluster_lt hi
        have := v.firstCluster_lt hj
        rcases Nat.lt_or_gt_of_ne different with less | greater
        · have := firstCluster_mono v.files (i := i + 1) (j := j) less
          omega
        · have := firstCluster_mono v.files (i := j + 1) (j := i) greater
          omega
      simpa using apart.symm
    case outside =>
      exact fun lba data small outside => (v.unserved_iff data).mpr (aliases lba data small outside)

end Condition

/-- Two files that report one cluster each; the second one has the rest of the clusters. -/
def filled : Volume where
  files := [⟨[69, 69, 80, 82, 79, 77, 32, 32], [66, 73, 78], 4096, some (true, 4096)⟩,
    ⟨[70, 76, 65, 83, 72, 32, 32, 32], [66, 73, 78], 65497 * 4096, some (true, 4096)⟩]
  nonempty := by simp
  listed := by simp
  named := by simp
  maximal := by simp
  reported := by simp [File.size]
  clusters := by simp [firstCluster, clustersFor]
  sectors := by decide

theorem volume_consistent_full : Consistent filled.files := by
  rw [volume_consistent_iff]
  have sectors : lunSize = 524288 := rfl
  have indices (i : Nat) (h : i < filled.files.length) : i = 0 ∨ i = 1 := by
    have : i < 2 := h
    omega
  constructor
  · intro i h
    obtain rfl | rfl := indices i h <;>
      exact ⟨fun f this => by obtain rfl := some.inj this; rfl, by decide⟩
  · intro lba data small outside i h
    have here := outside 0 (by decide)
    have next := outside 1 (by decide)
    have first : firstCluster filled.files 0 = 3 := rfl
    have second : firstCluster filled.files 1 = 4 := rfl
    have last : firstCluster filled.files 2 = 65501 := rfl
    rw [inArea_iff, first, second] at here
    rw [inArea_iff, second, last] at next
    obtain rfl | rfl := indices i h
    · rw [inArea_iff, first, second]
      omega
    · rw [inArea_iff, second, last]
      omega

def twoClusters : Volume where
  files := [⟨[69, 69, 80, 82, 79, 77, 32, 32], [66, 73, 78], 8192, some (true, 8192)⟩]
  nonempty := by simp
  listed := by simp
  named := by simp
  maximal := by simp
  reported := by simp [File.size]
  clusters := by simp [firstCluster, clustersFor]
  sectors := by decide

/-- A file of two clusters: the entry of its first cluster names that cluster again. The
sector 65840 is in no file and is read from this one. -/
theorem volume_inconsistent : ∃ v : Volume, v.files.length = 1 ∧ startCluster v.files 0 = 3 ∧
    fatEntry v.files 3 = 3 ∧ Outside v.files 65840 ∧ writeSector v.files 65840 = some (0, 0) ∧
    ¬Consistent v.files := by
  have start : startCluster twoClusters.files 0 = 3 := by decide +kernel
  have loop : fatEntry twoClusters.files 3 = 3 := by decide +kernel
  refine ⟨twoClusters, rfl, start, loop, ?_, by decide +kernel, ?_⟩
  · intro i h
    obtain rfl : i = 0 := Nat.lt_one_iff.mp h
    have next : firstCluster twoClusters.files 1 = 5 := rfl
    rw [inArea_iff, next]
    omega
  · intro consistent
    obtain ⟨l, file⟩ := consistent.chains 0 Nat.one_pos
    have chain := file.chain
    exact chain.not_loop (by decide) loop

end ScsiMmapfs
