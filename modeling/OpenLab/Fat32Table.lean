import OpenLab.Fat32File
import OpenLab.PageBytes

/-!
# The file allocation table

The table when no access fails: `entry` as a function of the pages, and `vacant`, the free
clusters in the order in which `fat32_find_empty_cluster` comes to them.
-/

namespace Fat32

open Function List

open PageCache (Block PageArray cpy bytes pageSize bytes_cpy_apart bytes_cpy_self
  length_bytes_of_le)

theorem read32_write32 (v : UInt32) : read32 (write32 v) = v := by
  apply UInt32.eq_of_toBitVec_eq
  simp only [read32, write32, getD_cons_zero, getD_cons_succ]
  ext i hi
  simp [-UInt32.toUInt32_toUInt8]
  grind

@[simp] theorem length_write32 (v : UInt32) : (write32 v).length = 4 := rfl

section Bind

variable {ε σ α β : Type} {x : EStateM ε σ α} {f : α → EStateM ε σ β} {s s' : σ}

theorem bind_ok {a} (h : x s = .ok a s') : (x >>= f) s = f a s' := by
  simp [bind, EStateM.bind, h]

theorem bind_error {e} (h : x s = .error e s') : (x >>= f) s = .error e s' := by
  simp [bind, EStateM.bind, h]

end Bind

section Sound

variable {d : Disk} {page : UInt32} {offset size : Nat} {data : List UInt8}

def Disk.Sound (d : Disk) : Prop := ∀ n, d.faults n = false

def Disk.put (d : Disk) (page : UInt32) (offset : Nat) (data : List UInt8) : Disk :=
  { d with
    pages := update d.pages page (cpy data (d.pages page) offset)
    written := (page, offset, data.length) :: d.written }

@[simp] theorem Disk.put_self :
    (d.put page offset data).pages page = cpy data (d.pages page) offset :=
  update_self ..

theorem Disk.put_ne {p} (ne : p ≠ page) :
    (d.put page offset data).pages p = d.pages p :=
  update_of_ne ne ..

theorem Disk.bytes_put {p} {start}
    (apart : page = p → start + size ≤ offset ∨ offset + data.length ≤ start) :
    bytes ((d.put page offset data).pages p) start size = bytes (d.pages p) start size := by
  rcases eq_or_ne page p with rfl | ne
  · rw [put_self, bytes_cpy_apart (apart rfl)]
  · rw [put_ne ne.symm]

theorem Disk.Sound.tick (h : d.Sound) : d.tick = d := by
  have faults : (fun n => d.faults (n + 1)) = d.faults := funext fun n => by rw [h, h]
  rw [Disk.tick, faults]

theorem Disk.Sound.put (h : d.Sound) : (d.put page offset data).Sound := h

theorem fsRead_sound (h : d.Sound) :
    fsRead page offset size d = .ok (bytes (d.pages page) offset size) d := by
  simp [fsRead, h 0, h.tick]

theorem readBytes_sound (h : d.Sound) (fits : offset + size ≤ pageSize) :
    readBytes page offset size d = .ok (bytes (d.pages page) offset size) d := by
  rw [readBytes, bind_ok (fsRead_sound h), if_neg (not_not.mpr (length_bytes_of_le fits))]
  rfl

theorem fsWrite_sound (h : d.Sound) (fits : offset + data.length ≤ pageSize) :
    fsWrite page offset data d = .ok data.length (d.put page offset data) := by
  have whole : min data.length (pageSize - offset) = data.length := by omega
  simp only [fsWrite, h 0, h.tick, Bool.false_eq_true, if_false, whole, take_length]
  rfl

theorem writeBytes_sound (h : d.Sound) (fits : offset + data.length ≤ pageSize) :
    writeBytes page offset data d = .ok () (d.put page offset data) := by
  rw [writeBytes, bind_ok (fsWrite_sound h fits), if_neg (not_not.mpr rfl)]
  rfl

end Sound

/-- A volume with its root directory at cluster 2, a table with an entry for each cluster, and
sectors that can be numbered. -/
structure Fat.Valid (fat : Fat) : Prop where
  clusters : 0 < fat.sectPerClust.toNat
  table : fat.start.toNat + fat.sectPerFat.toNat ≤ fat.dataStart.toNat
  covers : fat.maxClust.toNat ≤ 128 * fat.sectPerFat.toNat
  numbers : 128 * fat.sectPerFat.toNat ≤ 2 ^ 32
  root : 2 < fat.maxClust.toNat
  marks : fat.maxClust.toNat ≤ 0x0FFFFFF8
  data : fat.dataStart.toNat + (fat.maxClust.toNat - 2) * fat.sectPerClust.toNat ≤ 2 ^ 32
  rootStart : fat.rootStart = fat.dataStart

namespace Fat

variable {fat : Fat} {c c' : UInt32}

def Indexed (fat : Fat) (c : UInt32) : Prop := c.toNat < 128 * fat.sectPerFat.toNat

def Inside (fat : Fat) (c : UInt32) : Prop := 2 ≤ c.toNat ∧ c.toNat < fat.maxClust.toNat

def InTable (fat : Fat) (page : UInt32) : Prop :=
  fat.start.toNat ≤ page.toNat ∧ page.toNat < fat.start.toNat + fat.sectPerFat.toNat

theorem Inside.indexed (h : fat.Inside c) (valid : fat.Valid) : fat.Indexed c :=
  lt_of_lt_of_le h.2 valid.covers

theorem toNat_entrySector : (fat.entrySector c).toNat = fat.start.toNat + c.toNat / 128 := by
  have shift : (c >>> 7).toNat = c.toNat / 128 := by
    rw [UInt32.toNat_shiftRight, Nat.shiftRight_eq_div_pow]
    rfl
  have start := fat.start.toNat_lt
  have cluster := c.toNat_lt
  rw [entrySector, UInt32.toNat_add, shift, UInt16.toNat_toUInt32, Nat.mod_eq_of_lt]
  omega

theorem Indexed.inTable (h : fat.Indexed c) : fat.InTable (fat.entrySector c) := by
  unfold Indexed at h
  rw [InTable, toNat_entrySector]
  omega

end Fat

theorem entryOffset_eq (c : UInt32) : entryOffset c = 4 * (c.toNat % 128) := by
  have mask : (c &&& 0x7F).toNat = c.toNat % 128 := by
    exact Nat.and_two_pow_sub_one_eq_mod c.toNat 7
  have shift : (2 : UInt32).toNat % 32 = 2 := rfl
  rw [entryOffset, UInt32.toNat_shiftLeft, mask, Nat.shiftLeft_eq, shift, Nat.mod_eq_of_lt] <;>
    omega

theorem entryOffset_fits (c : UInt32) : entryOffset c + 4 ≤ pageSize := by
  rw [entryOffset_eq]
  unfold pageSize
  omega

def entry (fat : Fat) (pages : PageArray) (c : UInt32) : UInt32 :=
  read32 (bytes (pages (fat.entrySector c)) (entryOffset c) 4)

def Disk.setEntry (d : Disk) (fat : Fat) (c v : UInt32) : Disk :=
  d.put (fat.entrySector c) (entryOffset c) (write32 v)

section Entries

variable {fat : Fat} {d : Disk} {c c' v : UInt32}

theorem Disk.Sound.setEntry (h : d.Sound) : (d.setEntry fat c v).Sound := h

theorem entry_put {page} {offset} {data} (indexed : fat.Indexed c)
    (outside : ¬fat.InTable page) :
    entry fat (d.put page offset data).pages c = entry fat d.pages c :=
  congrArg read32 (Disk.bytes_put fun same => absurd (same ▸ indexed.inTable) outside)

theorem entry_setEntry_self : entry fat (d.setEntry fat c v).pages c = v := by
  have back : bytes (cpy (write32 v) (d.pages (fat.entrySector c)) (entryOffset c))
      (entryOffset c) 4 = write32 v := bytes_cpy_self (entryOffset_fits c)
  rw [entry, Disk.setEntry, Disk.put_self, back, read32_write32]

theorem entry_setEntry_ne (ne : c' ≠ c) :
    entry fat (d.setEntry fat c v).pages c' = entry fat d.pages c' := by
  refine congrArg read32 (Disk.bytes_put fun same => ?_)
  have sector := congrArg UInt32.toNat same
  rw [Fat.toNat_entrySector, Fat.toNat_entrySector] at sector
  have differ : c'.toNat ≠ c.toNat := fun h => ne (UInt32.toNat_inj.mp h)
  rw [entryOffset_eq, entryOffset_eq, length_write32]
  omega

theorem entry_setEntry :
    entry fat (d.setEntry fat c v).pages = update (entry fat d.pages) c v := by
  funext c'
  rcases eq_or_ne c' c with rfl | ne
  · rw [entry_setEntry_self, update_self]
  · rw [entry_setEntry_ne ne, update_of_ne ne]

theorem getNextCluster_sound (sound : d.Sound) (inside : fat.Inside c) :
    getNextCluster fat c d = .ok (entry fat d.pages c) d := by
  have range : ¬(c < 2 ∨ c > fat.maxClust) := by
    rw [UInt32.lt_iff_toNat_lt, gt_iff_lt, UInt32.lt_iff_toNat_lt]
    have := inside.1
    have := inside.2
    have two : (2 : UInt32).toNat = 2 := rfl
    omega
  rw [getNextCluster, if_neg range, bind_ok (fsRead_sound sound), if_neg
    (not_not.mpr (length_bytes_of_le (entryOffset_fits c)))]
  rfl

theorem setNextCluster_sound (sound : d.Sound) (inside : fat.Inside c) (target : v ≠ 1)
    (le : v.toNat ≤ fat.maxClust.toNat) :
    setNextCluster fat c v d = .ok () (d.setEntry fat c v) := by
  have range : ¬((c ≠ 0 ∧ (c < 2 ∨ c > fat.maxClust)) ∨ v = 1 ∨ v > fat.maxClust) := by
    simp only [gt_iff_lt, UInt32.lt_iff_toNat_lt]
    have := inside.1
    have := inside.2
    have two : (2 : UInt32).toNat = 2 := rfl
    rintro (⟨_, low⟩ | one | high)
    · omega
    · exact target one
    · omega
  rw [setNextCluster, if_neg range]
  exact writeBytes_sound sound (entryOffset_fits c)

end Entries

section Search

variable (fat : Fat)

/-- The loops of `fat32_find_empty_cluster` as one loop over the entries. -/
def scanEntries : List UInt32 → Op UInt32
  | [] => do
    modify Disk.forget
    return 1
  | c :: rest => do
    let buf ← fsRead (fat.entrySector c) (entryOffset c) 4
    if buf.length ≠ 4 then
      modify Disk.forget
      return 1
    if read32 buf = 0 then
      let count ← fsWrite (fat.entrySector c) (entryOffset c) (write32 endOfChain)
      if count ≠ 4 then
        modify Disk.forget
        return 1
      return (← get).lastFreeCluster
    modify fun d => { d with lastFreeCluster := d.lastFreeCluster + 1 }
    scanEntries rest

def entriesFrom (first : Nat) : List UInt32 :=
  (List.range' first (128 * fat.sectPerFat.toNat - first)).map UInt32.ofNat

/-- The free clusters that `fat32_find_empty_cluster` comes to, in order. -/
def vacant (d : Disk) : List UInt32 :=
  (entriesFrom fat d.lastFreeCluster.toNat).filter fun c => entry fat d.pages c == 0

variable {fat : Fat}

theorem scanSector_bind {sector} {cs rest}
    (here : ∀ c ∈ cs, fat.entrySector c = sector) :
    (do
      match ← scanSector sector (cs.map entryOffset) with
      | some cluster => return cluster
      | none => scanEntries fat rest) = scanEntries fat (cs ++ rest) := by
  induction cs with
  | nil => simp [scanSector]
  | cons c cs ih =>
    have tail := ih fun c' mem => here c' (mem_cons_of_mem c mem)
    simp only [map_cons, scanSector, cons_append, scanEntries, bind_assoc,
      here c mem_cons_self]
    congr 1
    funext buf
    split_ifs
    · simp
    · simp only [bind_assoc]
      congr 1
      funext count
      split_ifs <;> simp
    · simp [tail]

theorem toNat_ofNat {n} (h : n < 2 ^ 32) : (UInt32.ofNat n).toNat = n :=
  UInt32.toNat_ofNat_of_lt' h

theorem entrySector_ofNat {q j} (low : j < 128) (fits : 128 * q + j < 2 ^ 32) :
    fat.entrySector (UInt32.ofNat (128 * q + j)) = fat.start.toUInt32 + UInt32.ofNat q := by
  apply UInt32.toNat_inj.mp
  have start := fat.start.toNat_lt
  rw [Fat.toNat_entrySector, toNat_ofNat fits, UInt32.toNat_add, toNat_ofNat (by omega),
    UInt16.toNat_toUInt32, Nat.mod_eq_of_lt] <;> omega

theorem entryOffset_ofNat {q j} (low : j < 128) (fits : 128 * q + j < 2 ^ 32) :
    entryOffset (UInt32.ofNat (128 * q + j)) = 4 * j := by
  rw [entryOffset_eq, toNat_ofNat fits]
  omega

theorem entryOffsets_eq {r} (q : Nat) (low : r ≤ 128) (fits : 128 * q + 128 ≤ 2 ^ 32) :
    entryOffsets (4 * r) =
      ((List.range' (128 * q + r) (128 - r)).map UInt32.ofNat).map entryOffset := by
  have count : (pageSize - 4 * r) / 4 = 128 - r := by
    unfold pageSize
    omega
  rw [entryOffsets, count, range'_eq_map_range, map_map, map_map]
  refine map_congr_left fun k mem => ?_
  have k_lt := mem_range.mp mem
  rw [comp_apply, comp_apply, Nat.add_assoc,
    entryOffset_ofNat (by omega) (by omega)]
  omega

theorem scanTable_eq {k} : ∀ {q r : Nat}, r < 128 → 128 * (q + k) ≤ 2 ^ 32 →
    scanTable ((List.range' q k).map fun i => fat.start.toUInt32 + UInt32.ofNat i)
      (entryOffsets (4 * r)) =
    scanEntries fat ((List.range' (128 * q + r) (128 * k - r)).map UInt32.ofNat) := by
  induction k with
  | zero =>
    intro q r _ _
    simp [scanTable, scanEntries]
  | succ k ih =>
    intro q r low fits
    have tail := ih (q := q + 1) (r := 0) (by decide) (by omega)
    have whole : range' (128 * q + r) (128 * (k + 1) - r) =
        range' (128 * q + r) (128 - r) ++ range' (128 * (q + 1)) (128 * k) := by
      have first : 128 * (q + 1) = 128 * q + r + 1 * (128 - r) := by omega
      have count : 128 * (k + 1) - r = (128 - r) + 128 * k := by omega
      rw [first, range'_append, count]
    rw [range'_succ, map_cons, scanTable, tail, whole, map_append,
      entryOffsets_eq q (by omega) (by omega)]
    refine scanSector_bind fun c mem => ?_
    obtain ⟨n, range, rfl⟩ := mem_map.mp mem
    obtain ⟨j, j_lt, rfl⟩ := mem_range'.mp range
    rw [Nat.add_assoc, Nat.one_mul, entrySector_ofNat (by omega) (by omega)]

theorem findEmptyCluster_eq (valid : fat.Valid) (d : Disk) :
    findEmptyCluster fat d = scanEntries fat (entriesFrom fat d.lastFreeCluster.toNat) d := by
  have table := valid.table
  have numbers := valid.numbers
  have data := fat.dataStart.toNat_lt
  have last := d.lastFreeCluster.toNat_lt
  have sector : (if d.lastFreeCluster ≠ 0 then fat.entrySector d.lastFreeCluster
      else fat.start.toUInt32) = fat.entrySector d.lastFreeCluster := by
    split
    · rfl
    · rename_i zero
      rw [not_not.mp zero]
      simp [Fat.entrySector]
  have index : (if d.lastFreeCluster ≠ 0 then entryOffset d.lastFreeCluster else 0) =
      entryOffset d.lastFreeCluster := by
    split
    · rfl
    · rename_i zero
      rw [not_not.mp zero]
      rfl
  have stop : (fat.start.toUInt32 + fat.sectPerFat).toNat =
      fat.start.toNat + fat.sectPerFat.toNat := by
    rw [UInt32.toNat_add, UInt16.toNat_toUInt32, Nat.mod_eq_of_lt]
    omega
  have sectors : sectorsFrom (fat.entrySector d.lastFreeCluster)
      (fat.start.toUInt32 + fat.sectPerFat) =
      (range' (d.lastFreeCluster.toNat / 128)
        (fat.sectPerFat.toNat - d.lastFreeCluster.toNat / 128)).map
        fun i => fat.start.toUInt32 + UInt32.ofNat i := by
    have count : (fat.start.toUInt32 + fat.sectPerFat).toNat -
        (fat.entrySector d.lastFreeCluster).toNat =
        fat.sectPerFat.toNat - d.lastFreeCluster.toNat / 128 := by
      rw [stop, Fat.toNat_entrySector]
      omega
    rw [sectorsFrom, count, range'_eq_map_range, map_map]
    refine map_congr_left fun k _ => ?_
    have shift : d.lastFreeCluster >>> 7 = UInt32.ofNat (d.lastFreeCluster.toNat / 128) := by
      apply UInt32.toNat_inj.mp
      rw [toNat_ofNat (by omega), UInt32.toNat_shiftRight,
        Nat.shiftRight_eq_div_pow]
      rfl
    rw [Fat.entrySector, shift, comp_apply, UInt32.ofNat_add, UInt32.add_assoc]
  have entries : range' (128 * (d.lastFreeCluster.toNat / 128) + d.lastFreeCluster.toNat % 128)
      (128 * (fat.sectPerFat.toNat - d.lastFreeCluster.toNat / 128) -
        d.lastFreeCluster.toNat % 128) =
      range' d.lastFreeCluster.toNat
        (128 * fat.sectPerFat.toNat - d.lastFreeCluster.toNat) := by
    rw [Nat.div_add_mod]
    congr 1
    omega
  change scanTable (sectorsFrom _ _) (entryOffsets _) d = _
  rw [sector, index, sectors, entryOffset_eq,
    scanTable_eq (Nat.mod_lt _ (by decide)) (by omega), entries]
  rfl

end Search

section Allocation

variable {fat : Fat} {d : Disk} {c : UInt32} {rest : List UInt32}

def Disk.allot (d : Disk) (fat : Fat) (c : UInt32) : Disk :=
  { d.setEntry fat c endOfChain with lastFreeCluster := c }

theorem Disk.Sound.allot (h : d.Sound) : (d.allot fat c).Sound := h

theorem scanEntries_sound {k} : ∀ {n : Nat} {d : Disk}, d.Sound →
    d.lastFreeCluster = UInt32.ofNat n →
    scanEntries fat ((List.range' n k).map UInt32.ofNat) d =
      match ((List.range' n k).map UInt32.ofNat).filter fun c => entry fat d.pages c == 0 with
      | [] => .ok 1 d.forget
      | c :: _ => .ok c (d.allot fat c) := by
  induction k with
  | zero =>
    intro n d _ _
    rfl
  | succ k ih =>
    intro n d sound last
    rw [range'_succ, map_cons, scanEntries, bind_ok (fsRead_sound sound),
      if_neg (not_not.mpr (length_bytes_of_le (entryOffset_fits _))),
      ← show entry fat d.pages (UInt32.ofNat n) = read32 _ from rfl]
    by_cases free : entry fat d.pages (UInt32.ofNat n) = 0
    · rw [if_pos free, filter_cons_of_pos (by simpa using free),
        bind_ok (fsWrite_sound sound (entryOffset_fits _)),
        if_neg (not_not.mpr (length_write32 _))]
      rw [← last]
      rfl
    · rw [if_neg free, filter_cons_of_neg (by simpa using free)]
      change scanEntries fat _ { d with lastFreeCluster := d.lastFreeCluster + 1 } = _
      rw [ih (d := { d with lastFreeCluster := d.lastFreeCluster + 1 }) sound
        (by rw [last, UInt32.ofNat_add]; rfl)]
      rfl

theorem findEmptyCluster_none (valid : fat.Valid) (sound : d.Sound) (none : vacant fat d = []) :
    findEmptyCluster fat d = .ok 1 d.forget := by
  rw [findEmptyCluster_eq valid, entriesFrom, scanEntries_sound sound UInt32.ofNat_toNat.symm]
  change (match vacant fat d with | [] => _ | c :: _ => _) = _
  rw [none]

theorem findEmptyCluster_some (valid : fat.Valid) (sound : d.Sound)
    (some : vacant fat d = c :: rest) :
    findEmptyCluster fat d = .ok c (d.allot fat c) := by
  rw [findEmptyCluster_eq valid, entriesFrom, scanEntries_sound sound UInt32.ofNat_toNat.symm]
  change (match vacant fat d with | [] => _ | c :: _ => _) = _
  rw [some]

theorem mem_entriesFrom (valid : fat.Valid) {first} :
    c ∈ entriesFrom fat first ↔ first ≤ c.toNat ∧ fat.Indexed c := by
  have numbers := valid.numbers
  unfold entriesFrom Fat.Indexed
  rw [mem_map]
  constructor
  · rintro ⟨n, range, rfl⟩
    rw [mem_range'_1] at range
    rw [toNat_ofNat (by omega)]
    omega
  · rintro ⟨low, high⟩
    exact ⟨c.toNat, mem_range'_1.mpr (by omega), UInt32.ofNat_toNat⟩

theorem mem_vacant (valid : fat.Valid) :
    c ∈ vacant fat d ↔ d.lastFreeCluster.toNat ≤ c.toNat ∧ fat.Indexed c ∧
      entry fat d.pages c = 0 := by
  rw [vacant, mem_filter, mem_entriesFrom valid, beq_iff_eq, and_assoc]

theorem entriesFrom_cons (indexed : fat.Indexed c) :
    entriesFrom fat c.toNat = c :: entriesFrom fat (c.toNat + 1) := by
  unfold Fat.Indexed at indexed
  have count : 128 * fat.sectPerFat.toNat - c.toNat =
      (128 * fat.sectPerFat.toNat - (c.toNat + 1)) + 1 := by omega
  rw [entriesFrom, count, range'_succ, map_cons, UInt32.ofNat_toNat]
  rfl

theorem filter_entriesFrom {p} (valid : fat.Valid) {first}
    (found : (entriesFrom fat first).filter p = c :: rest) :
    (entriesFrom fat c.toNat).filter p = c :: rest := by
  have mem : c ∈ entriesFrom fat first :=
    mem_of_mem_filter (found ▸ mem_cons_self : c ∈ (entriesFrom fat first).filter p)
  obtain ⟨low, indexed⟩ := (mem_entriesFrom valid).mp mem
  have whole : entriesFrom fat first =
      (range' first (c.toNat - first)).map UInt32.ofNat ++ entriesFrom fat c.toNat := by
    unfold Fat.Indexed at indexed
    have count : 128 * fat.sectPerFat.toNat - first =
        (c.toNat - first) + (128 * fat.sectPerFat.toNat - c.toNat) := by omega
    have next : first + 1 * (c.toNat - first) = c.toNat := by omega
    rw [entriesFrom, count, ← range'_append, next, map_append]
    rfl
  rw [whole, filter_append] at found
  cases before : ((range' first (c.toNat - first)).map UInt32.ofNat).filter p with
  | nil => rwa [before, nil_append] at found
  | cons a l =>
    rw [before, cons_append, cons.injEq] at found
    have earlier : a ∈ (range' first (c.toNat - first)).map UInt32.ofNat :=
      mem_of_mem_filter (before ▸ mem_cons_self : a ∈ filter p _)
    obtain ⟨n, range, rfl⟩ := mem_map.mp earlier
    rw [mem_range'_1] at range
    have := c.toNat_lt
    have : n = c.toNat := by rw [← found.1, toNat_ofNat (by omega)]
    omega

theorem vacant_allot (valid : fat.Valid) (some : vacant fat d = c :: rest) :
    vacant fat (d.allot fat c) = rest := by
  have mem : c ∈ vacant fat d := some ▸ mem_cons_self
  obtain ⟨_, indexed, free⟩ := (mem_vacant valid).mp mem
  have found := filter_entriesFrom valid some
  rw [entriesFrom_cons indexed, filter_cons_of_pos (by simpa using free),
    cons.injEq] at found
  have taken : entry fat (d.allot fat c).pages c ≠ 0 := by
    change entry fat (d.setEntry fat c endOfChain).pages c ≠ 0
    rw [entry_setEntry_self]
    decide
  change (entriesFrom fat c.toNat).filter (fun c' => entry fat (d.allot fat c).pages c' == 0) = _
  rw [entriesFrom_cons indexed, filter_cons_of_neg (by simpa using taken), ← found.2]
  refine filter_congr fun c' mem' => ?_
  have ne : c' ≠ c := by
    rintro rfl
    have := ((mem_entriesFrom valid).mp mem').1
    omega
  change (entry fat (d.setEntry fat c endOfChain).pages c' == 0) = _
  rw [entry_setEntry_ne ne]

theorem vacant_congr {d'} (valid : fat.Valid)
    (last : d'.lastFreeCluster = d.lastFreeCluster)
    (same : ∀ c, fat.Indexed c → (entry fat d'.pages c = 0 ↔ entry fat d.pages c = 0)) :
    vacant fat d' = vacant fat d := by
  rw [vacant, vacant, last]
  refine filter_congr fun c mem => ?_
  have := same c ((mem_entriesFrom valid).mp mem).2
  rw [Bool.eq_iff_iff, beq_iff_eq, beq_iff_eq, this]

end Allocation

section Sectors

variable {fat : Fat} {c c' page : UInt32}

def Fat.InCluster (fat : Fat) (c page : UInt32) : Prop :=
  ∃ i : Nat, i < fat.sectPerClust.toNat ∧ page = fat.firstSector c + UInt32.ofNat i

namespace Fat

theorem Inside.fits (h : fat.Inside c) (valid : fat.Valid) :
    fat.dataStart.toNat + (c.toNat - 2) * fat.sectPerClust.toNat + fat.sectPerClust.toNat ≤
      2 ^ 32 := by
  have data := valid.data
  have le : (c.toNat - 2 + 1) * fat.sectPerClust.toNat ≤
      (fat.maxClust.toNat - 2) * fat.sectPerClust.toNat := by
    refine Nat.mul_le_mul_right _ ?_
    have := h.1
    have := h.2
    omega
  rw [Nat.succ_mul] at le
  omega

theorem toNat_sector_of_fits (low : 2 ≤ c.toNat)
    (fits : fat.dataStart.toNat + (c.toNat - 2) * fat.sectPerClust.toNat + fat.sectPerClust.toNat ≤
      2 ^ 32) {i} (number : i < fat.sectPerClust.toNat) :
    (fat.firstSector c + UInt32.ofNat i).toNat =
      fat.dataStart.toNat + (c.toNat - 2) * fat.sectPerClust.toNat + i := by
  have two : (c - 2).toNat = c.toNat - 2 := by
    rw [UInt32.toNat_sub_of_le]
    · rfl
    · exact UInt32.le_iff_toNat_le.mpr low
  have product : ((c - 2) * fat.sectPerClust.toUInt32).toNat =
      (c.toNat - 2) * fat.sectPerClust.toNat := by
    rw [UInt32.toNat_mul, two, UInt8.toNat_toUInt32, Nat.mod_eq_of_lt]
    omega
  rw [firstSector, UInt32.toNat_add, UInt32.toNat_add, product, toNat_ofNat (by omega),
    Nat.mod_eq_of_lt (a := fat.dataStart.toNat + _), Nat.mod_eq_of_lt] <;> omega

theorem toNat_sector (h : fat.Inside c) (valid : fat.Valid) {i}
    (low : i < fat.sectPerClust.toNat) :
    (fat.firstSector c + UInt32.ofNat i).toNat =
      fat.dataStart.toNat + (c.toNat - 2) * fat.sectPerClust.toNat + i :=
  toNat_sector_of_fits h.1 (h.fits valid) low

theorem InCluster.not_inTable (at_cluster : fat.InCluster c page) (h : fat.Inside c)
    (valid : fat.Valid) : ¬fat.InTable page := by
  obtain ⟨i, low, rfl⟩ := at_cluster
  have table := valid.table
  rw [InTable, toNat_sector h valid low]
  omega

theorem InCluster.unique (at_cluster : fat.InCluster c page) (at_cluster' : fat.InCluster c' page)
    (h : fat.Inside c) (h' : fat.Inside c') (valid : fat.Valid) : c = c' := by
  obtain ⟨i, low, rfl⟩ := at_cluster
  obtain ⟨j, low', same⟩ := at_cluster'
  have number := congrArg UInt32.toNat same
  rw [toNat_sector h valid low, toNat_sector h' valid low'] at number
  have quotient : c.toNat - 2 = c'.toNat - 2 := by
    have left : ((c.toNat - 2) * fat.sectPerClust.toNat + i) / fat.sectPerClust.toNat =
        c.toNat - 2 := by
      rw [Nat.mul_comm, Nat.mul_add_div valid.clusters, Nat.div_eq_of_lt low, Nat.add_zero]
    have right : ((c'.toNat - 2) * fat.sectPerClust.toNat + j) / fat.sectPerClust.toNat =
        c'.toNat - 2 := by
      rw [Nat.mul_comm, Nat.mul_add_div valid.clusters, Nat.div_eq_of_lt low', Nat.add_zero]
    rw [← left, ← right]
    congr 1
    omega
  have := h.1
  have := h'.1
  exact UInt32.toNat_inj.mp (by omega)

end Fat

end Sectors

end Fat32
