import OpenLab.Fat32Volume

/-!
# Integrity of the file allocation table

A volume stays consistent as long as its calls are safe, and `fat32_create` and `fat32_delete`
keep it consistent only then.
-/

namespace Fat32

open PageCache (Block PageArray bytes pageSize)
open LinkedCells ChainLedger Schedules List Option
open Function (update update_self update_apply)

variable {fat : Fat} {d : Disk} {cells : Owner → List UInt32} {slot place : Slot} {c : UInt32}
  {filename : List UInt8}

section Created

variable (h : Consistent fat d.pages cells) (valid : fat.Valid) (indexed : fat.Indexed c)
  (zero : entry fat d.pages c = 0) (mem : place ∈ directory fat d.pages)

include h valid mem in
theorem entry_created {c'} (indexed' : fat.Indexed c') (ne : c' ≠ c) :
    entry fat (d.created fat place filename c).pages c' = entry fat d.pages c' := by
  rw [Disk.created, entry_put indexed' (sector_not_inTable h valid mem)]
  exact entry_setEntry_ne ne

include h valid zero mem in
theorem chain_created (o : Owner) :
    Chain (nextOf (entry fat (d.created fat place filename c).pages)) (headOf fat d.pages o)
      (cells o) := by
  refine (h.ledger.chain o).frame fun c' own => ?_
  have ne : c' ≠ c := ne_of_mem_of_not_mem own (h.not_owned zero o)
  rw [nextOf, nextOf, entry_created h valid mem ((h.inside o c' own).indexed valid) ne]

include h valid zero mem in
theorem directory_created :
    directory fat (d.created fat place filename c).pages = directory fat d.pages := by
  have same : root fat (d.created fat place filename c).pages = cells none :=
    (chain_created h valid zero mem none).trace_eq (h.root_length none)
  rw [directory, directory, same, h.root_eq]

include h valid indexed mem in
theorem dirAt_created_ne {slot} (mem' : slot ∈ directory fat d.pages) (ne : slot ≠ place) :
    dirAt (d.created fat place filename c).pages slot = dirAt d.pages slot := by
  rw [Disk.created, dirAt_put_ne (aligned_of_mem valid mem) (aligned_of_mem valid mem') ne le_rfl
    (by rw [length_newEntry])]
  exact dirAt_setEntry indexed (sector_not_inTable h valid mem')

variable (free : unused d.pages place = true)

include h valid indexed zero mem free in
theorem headOf_created (name : (split filename).1.headD 0 = deleted) :
    headOf fat (d.created fat place filename c).pages = headOf fat d.pages := by
  funext o
  cases o with
  | none => rfl
  | some slot =>
    rw [headOf, headOf, directory_created h valid zero mem]
    split
    · rename_i mem'
      rcases eq_or_ne slot place with rfl | ne
      · have gone : (dirAt (d.created fat slot filename c).pages slot).isFile = false := by
          rw [DirEntry.isFile, mark_created (aligned_of_mem valid mem).fits, name]
          simp
        rw [head_of_not_isFile gone, head_of_not_isFile (isFile_of_unused free)]
      · rw [dirAt_created_ne h valid indexed mem mem' ne]
    · rfl

include h valid indexed zero mem free in
theorem created_consistent_iff :
    (∃ cells', Consistent fat (d.created fat place filename c).pages cells') ↔
      ((split filename).1.headD 0 ≠ deleted ↔ c.toNat < fat.maxClust.toNat) := by
  have low : 2 ≤ c.toNat := by
    obtain ⟨ne_zero, ne_one⟩ := h.ne_reserved zero
    have : c.toNat ≠ 0 := fun same => ne_zero (UInt32.toNat_inj.mp same)
    have : c.toNat ≠ 1 := fun same => ne_one (UInt32.toNat_inj.mp same)
    omega
  have outside := sector_not_inTable h valid mem
  constructor
  · rintro ⟨cells', h'⟩
    refine ⟨fun name => ?_, fun high name => ?_⟩
    · -- the new file has the cluster, which therefore is one of the volume
      have chain := h'.ledger.chain (some place)
      have file : (dirAt (d.created fat place filename c).pages place).head = some c :=
        head_created (aligned_of_mem valid mem).fits name (h.ne_reserved zero).1
      rw [headOf, directory_created h valid zero mem, if_pos mem, file] at chain
      obtain ⟨_, own, _⟩ := chain_some_iff.mp chain
      exact (h'.inside (some place) c (by rw [own]; exact mem_cons_self)).2
    · -- the cluster is reserved but has no owner
      have same : ∀ o, cells' o = cells o := by
        intro o
        have chain := h'.ledger.chain o
        rw [headOf_created h valid indexed zero mem free name] at chain
        exact chain.unique (chain_created h valid zero mem o)
      have unowned : ∀ o, c ∉ cells' o := fun o => by
        rw [same o]
        exact h.not_owned zero o
      have nothing := h'.free c ⟨low, high⟩ unowned
      have reserved : entry fat (d.created fat place filename c).pages c = endOfChain := by
        rw [Disk.created, entry_put indexed outside]
        exact entry_setEntry_self
      rw [reserved] at nothing
      exact absurd nothing (by decide)
  · intro exact_
    by_cases name : (split filename).1.headD 0 = deleted
    · have high : fat.maxClust.toNat ≤ c.toNat :=
        not_lt.mp fun inside => exact_.mpr inside name
      refine ⟨cells, h.congr valid (fun c' small => ?_) fun slot mem' => ?_⟩
      · refine entry_created h valid mem (lt_of_lt_of_le small valid.covers) ?_
        rintro rfl
        omega
      · have heads := congrFun (headOf_created h valid indexed zero mem free name) (some slot)
        rw [headOf, headOf, directory_created h valid zero mem, if_pos mem', if_pos mem'] at heads
        exact heads
    · exact ⟨_, h.created valid ⟨low, exact_.mp name⟩ zero mem free name⟩

end Created

theorem delete_consistent_iff (h : Consistent fat d.pages cells) (valid : fat.Valid)
    (sound : d.Sound) (plain : Plain fat d.pages)
    (found : lookup fat d.pages filename = some slot) (mark : (dirAt d.pages slot).mark ≠ 0) :
    (∃ cells', Consistent fat (after (delete fat fat.maxClust.toNat filename d)).pages cells') ↔
      (dirAt d.pages slot).startCluster ≠ 0 := by
  constructor
  · rintro ⟨cells', h'⟩ start
    rw [delete_empty h valid sound plain found mark start] at h'
    exact h'.reserved.1 entry_setEntry_self
  · intro start
    rw [delete_file h valid sound plain found mark start]
    exact ⟨_, h.remove valid (lookup_isFile found mark).1⟩

/-- A volume with nothing but a root directory of one empty cluster. -/
def Disk.formatted (fat : Fat) : Disk :=
  let blank : Disk := ⟨fun _ _ => 0, 0, fun _ => false, []⟩
  ((blank.setEntry fat 0 endOfChain).setEntry fat 1 endOfChain).setEntry fat 2 endOfChain

theorem entry_formatted : entry fat (Disk.formatted fat).pages c =
    if c = 2 ∨ c = 1 ∨ c = 0 then endOfChain else 0 := by
  have blank : ∀ c, entry fat (fun _ _ => 0) c = 0 := by
    intro c
    simp [entry, bytes, read32]
  rw [Disk.formatted, entry_setEntry, entry_setEntry, entry_setEntry]
  simp only [update_apply, blank]
  split_ifs <;> simp_all

theorem dirAt_formatted (valid : fat.Valid) (outside : ¬fat.InTable slot.sector) :
    (dirAt (Disk.formatted fat).pages slot).mark = 0 := by
  have room := valid.root
  have covers := valid.covers
  have indexed : fat.Indexed 2 := lt_of_lt_of_le (show 2 < _ from room) covers
  rw [Disk.formatted, dirAt_setEntry indexed outside,
    dirAt_setEntry (valid.indexed_low (.inr rfl)) outside,
    dirAt_setEntry (valid.indexed_low (.inl rfl)) outside]
  simp only [dirAt, bytes, DirEntry.ofBytes, DirEntry.mark, map_const', drop_replicate,
    take_replicate, length_finRange]
  cases min 8 (pageSize - slot.index) <;> rfl

theorem consistent_formatted (valid : fat.Valid) :
    Consistent fat (Disk.formatted fat).pages (update (fun _ => []) none [2]) := by
  have inside : fat.Inside 2 := ⟨le_rfl, valid.root⟩
  have last : nextOf (entry fat (Disk.formatted fat).pages) 2 = none := by
    simp [nextOf, entry_formatted, isEnd_endOfChain]
  have root_chain : Chain (nextOf (entry fat (Disk.formatted fat).pages)) (some 2) [2] :=
    chain_single last
  have places : directory fat (Disk.formatted fat).pages = fat.slots 2 := by
    have single : root fat (Disk.formatted fat).pages = [2] :=
      root_chain.trace_eq (by have := valid.root; simp; omega)
    rw [directory, single, flatMap_singleton]
  have heads : ∀ slot, headOf fat (Disk.formatted fat).pages (some slot) = none := by
    intro slot
    rw [headOf, places]
    split
    · rename_i mem
      have outside := ((mem_slots valid).mp mem).1.not_inTable inside valid
      exact head_of_not_isFile (by simp [DirEntry.isFile, dirAt_formatted valid outside])
    · rfl
  refine ⟨⟨?_, ?_⟩, ?_, ?_, ?_⟩
  · intro o
    cases o with
    | none =>
      exact root_chain
    | some slot => simp [heads slot]
  · intro o o' ne
    cases o with
    | none =>
      cases o' with
      | none => exact absurd rfl ne
      | some slot => simp
    | some slot => simp
  · intro o c own
    cases o with
    | none =>
      rw [update_self, mem_singleton] at own
      exact own ▸ inside
    | some slot => simp at own
  · intro c inside_c unowned
    have other := unowned none
    rw [update_self, mem_singleton] at other
    have low := inside_c.not_low
    rw [entry_formatted, if_neg (by tauto)]
  · simp [entry_formatted, endOfChain]

theorem directory_formatted (valid : fat.Valid) :
    directory fat (Disk.formatted fat).pages = fat.slots 2 := by
  rw [directory, (consistent_formatted valid).root_eq, update_self,
    flatMap_singleton]

theorem lookup_formatted (valid : fat.Valid) (filename : List UInt8) :
    ∃ slot, lookup fat (Disk.formatted fat).pages filename = some slot ∧
      (dirAt (Disk.formatted fat).pages slot).mark = 0 := by
  have empty : ∀ slot ∈ directory fat (Disk.formatted fat).pages,
      (dirAt (Disk.formatted fat).pages slot).mark = 0 := fun slot mem =>
    dirAt_formatted valid (sector_not_inTable (consistent_formatted valid) valid mem)
  have first : (⟨fat.firstSector 2, 0⟩ : Slot) ∈ directory fat (Disk.formatted fat).pages := by
    rw [directory_formatted valid, mem_slots valid]
    exact ⟨⟨0, valid.clusters, by simp⟩, ⟨0, by decide, rfl⟩⟩
  obtain ⟨slot, found⟩ : ∃ slot, lookup fat (Disk.formatted fat).pages filename = some slot := by
    rw [lookup, ← isSome_iff_exists, find?_isSome]
    exact ⟨_, first, by simp [stops, empty _ first]⟩
  exact ⟨slot, found, empty slot (mem_of_find?_eq_some found)⟩

theorem vacant_formatted (valid : fat.Valid) :
    ∃ rest, vacant fat (Disk.formatted fat) = 3 :: rest := by
  have room := valid.root
  have covers := valid.covers
  obtain ⟨n, count⟩ : ∃ n, 128 * fat.sectPerFat.toNat = n + 4 :=
    ⟨128 * fat.sectPerFat.toNat - 4, by omega⟩
  have entries : entriesFrom fat 0 = 0 :: 1 :: 2 :: 3 :: entriesFrom fat 4 := by
    simp only [entriesFrom, count, Nat.sub_zero, range'_succ, map_cons]
    simp
  refine ⟨(entriesFrom fat 4).filter fun c => entry fat (Disk.formatted fat).pages c == 0, ?_⟩
  change (entriesFrom fat 0).filter _ = _
  rw [entries]
  simp [entry_formatted, endOfChain]

theorem Consistent.enterEmpty (h : Consistent fat d.pages cells) (valid : fat.Valid)
    (mem : place ∈ directory fat d.pages) (free : unused d.pages place = true) :
    Consistent fat (d.put place.sector place.index
      (newEntry (split filename).1 (split filename).2 0)).pages cells := by
  obtain ⟨nine, four⟩ := length_split filename
  refine h.congr valid (fun c small => entry_put (lt_of_lt_of_le small valid.covers)
    (sector_not_inTable h valid mem)) fun slot mem' => ?_
  rcases eq_or_ne slot place with rfl | ne
  · have start : (dirAt (d.put slot.sector slot.index
        (newEntry (split filename).1 (split filename).2 0)).pages slot).startCluster = 0 := by
      rw [dirAt_newEntry (aligned_of_mem valid mem).fits (by omega) (by omega)]
      exact read_start 0
    rw [DirEntry.head, if_neg (fun file => file.2 start),
      head_of_not_isFile (isFile_of_unused free)]
  · rw [dirAt_put_ne (aligned_of_mem valid mem) (aligned_of_mem valid mem') ne le_rfl
      (by rw [length_newEntry])]

namespace Volume

variable {ι : Type} [DecidableEq ι] {v : Volume ι}

def Ready (v : Volume ι) : Action ι → Prop
  | .create (some i) _ _ _ => v.files i = none
  | .write i _ | .close i => (v.files i).isSome
  | .create none _ _ _ | .delete _ => True

/-- What holds of a volume in use that held these pages when it was mounted. -/
structure Integrity (fat : Fat) (before : PageArray) (v : Volume ι) (cells : Owner → List UInt32) :
    Prop where
  consistent : Consistent fat v.disk.pages cells
  reserved : ∀ c, c = 0 ∨ c = 1 → entry fat v.disk.pages c = entry fat before c
  returns : ∀ a, v.Safe fat a → v.Ready a → (v.step fat a).isSome
  /-- A file is deleted with its clusters, if it has one. -/
  deletion : ∀ filename slot, Plain fat v.disk.pages →
    lookup fat v.disk.pages filename = some slot → (dirAt v.disk.pages slot).mark ≠ 0 →
    let result := delete fat fat.maxClust.toNat filename v.disk
    ((∃ cells', Consistent fat (after result).pages cells') ↔
      (dirAt v.disk.pages slot).startCluster ≠ 0) ∧
    ((dirAt v.disk.pages slot).startCluster ≠ 0 → result = .ok (some ()) (after result) ∧
      ∀ c ∈ cells (some slot), entry fat (after result).pages c = 0)
  /-- A new file takes the next free cluster, if that is one of the volume. -/
  creation : ∀ filename slot dir c rest, Plain fat v.disk.pages →
    lookup fat v.disk.pages filename = some slot → (dirAt v.disk.pages slot).mark = 0 →
    vacant fat v.disk = c :: rest →
    ((∃ cells', Consistent fat (after (create fat fat.maxClust.toNat filename dir v.disk)).pages
      cells') ↔ ((split filename).1.headD 0 ≠ deleted ↔ c.toNat < fat.maxClust.toNat))

theorem Sane.returns (h : Sane fat v cells) (valid : fat.Valid) {a}
    (safe : v.Safe fat a) (ready : v.Ready a) : (v.step fat a).isSome := by
  cases a with
  | write i buf | close i => simpa [step, Ready] using ready
  | delete filename =>
    obtain ⟨plain, slot, found, rest⟩ := safe
    rcases eq_or_ne (dirAt v.disk.pages slot).mark 0 with mark | mark
    · simp [step, delete_absent h.consistent valid h.sound plain found mark]
    · simp [step, delete_file h.consistent valid h.sound plain found mark
        (rest.resolve_left mark).1]
  | create handle filename pageBuffer dir =>
    obtain ⟨plain, slot, found, _⟩ := safe
    simp only [step, fileCreate]
    rcases eq_or_ne (dirAt v.disk.pages slot).mark 0 with mark | mark
    · cases clusters : vacant fat v.disk with
      | nil =>
        rw [bind_error (create_full h.consistent valid h.sound plain found mark clusters)]
        rfl
      | cons c rest =>
        obtain ⟨place, free⟩ := unused_of_end found mark
        rw [bind_ok (create_file h.consistent valid h.sound plain found mark free clusters)]
        cases handle with
        | none => rfl
        | some i =>
          have closed : v.files i = none := ready
          simp only [closed]
          rfl
    · rw [bind_error (create_exists h.consistent valid h.sound plain found mark)]
      rfl

theorem Sane.integrity {before} (h : Sane fat v cells) (valid : fat.Valid)
    (reserved : ∀ c, c = 0 ∨ c = 1 → entry fat v.disk.pages c = entry fat before c) :
    Integrity fat before v cells where
  consistent := h.consistent
  reserved := reserved
  returns _ := h.returns valid
  deletion filename slot plain found mark := by
    refine ⟨delete_consistent_iff h.consistent valid h.sound plain found mark, fun start => ?_⟩
    rw [delete_file h.consistent valid h.sound plain found mark start]
    refine ⟨rfl, fun c own => ?_⟩
    change entry fat (Disk.freeAll _ fat (cells (some slot))).pages c = 0
    rw [entry_freeAll, if_pos own]
  creation filename slot dir c rest plain found mark clusters := by
    obtain ⟨place, free⟩ := unused_of_end found mark
    obtain ⟨_, indexed, zero⟩ := (mem_vacant valid).mp (clusters ▸ mem_cons_self)
    rw [create_file h.consistent valid h.sound plain found mark free clusters]
    exact created_consistent_iff h.consistent valid indexed zero (mem_of_find?_eq_some free)
      (find?_some free)

/-- Runs of safe calls on a consistent volume keep the FAT consistent, the cells of every file
its own, and the entries 0 and 1 as they were. -/
theorem fat_integrity (valid : fat.Valid) (sound : d.Sound)
    (consistent : ∃ cells, Consistent fat d.pages cells)
    (run : Run (step fat) (Safe fat) (mounted d) v) :
    ∃ cells, Integrity fat d.pages v cells := by
  have kept : ∃ cells, Sane fat v cells ∧
      ∀ c, c = 0 ∨ c = 1 → entry fat v.disk.pages c = entry fat d.pages c := by
    refine run.invariant (fun v => ∃ cells, Sane fat v cells ∧
      ∀ c, c = 0 ∨ c = 1 → entry fat v.disk.pages c = entry fat d.pages c) ?_ ?_
    · rintro u a v ⟨cells, sane, same⟩ safe hstep
      obtain ⟨cells', sane', same'⟩ := step_sane valid sane safe hstep
      exact ⟨cells', sane', fun c low => (same' c low).trans (same c low)⟩
    · obtain ⟨cells, h⟩ := consistent
      exact ⟨cells, sane_mounted sound h, fun _ _ => rfl⟩
  obtain ⟨cells, sane, same⟩ := kept
  exact ⟨cells, sane.integrity valid same⟩

/-- One sector of table, and clusters of one sector, of which the first is the root directory. -/
def small : Fat := ⟨0, 1, 1, 1, 6, 6, 1, 2, 2⟩

theorem valid_small : small.Valid := by constructor <;> decide

theorem plain_single (h : Consistent fat d.pages cells) (single : cells none = [2])
    (plain : isEnd (fat.rootSector 2 + fat.sectPerClust.toUInt32) = false) :
    Plain fat d.pages := by
  rw [Plain, h.root_eq, single]
  simpa using plain

def anyEntry : DirEntry := ⟨[], [], 0, 0, 0, 0, 0, 0, 0, 0, 0, 0⟩

def alone (d : Disk) (file : Option File) : Volume Unit := ⟨d, fun _ => file⟩

theorem alone_eq {files} {file} :
    (⟨d, update files () file⟩ : Volume Unit) = alone d file :=
  congrArg (Volume.mk d) (funext fun _ => update_self ..)

def created (fat : Fat) (d : Disk) (place : Slot) (filename : List UInt8) (c : UInt32)
    (pageBuffer : Block) : File :=
  .begin fat pageBuffer place (dirAt (d.created fat place filename c).pages place)

theorem alone_create (h : Consistent fat d.pages cells) (valid : fat.Valid) (sound : d.Sound)
    (plain : Plain fat d.pages) (found : lookup fat d.pages filename = some slot)
    (mark : (dirAt d.pages slot).mark = 0)
    (free : (directory fat d.pages).find? (unused d.pages) = some place)
    {rest} (clusters : vacant fat d = c :: rest) {pageBuffer}
    {dir} :
    (alone d none).step fat (.create (some ()) filename pageBuffer dir) =
      some (alone (d.created fat place filename c)
        (some (created fat d place filename c pageBuffer))) := by
  simp only [step, fileCreate, alone]
  rw [bind_ok (create_file h valid sound plain found mark free clusters)]
  exact congrArg some alone_eq

variable {f : File} {buf : List UInt8}

theorem alone_write (short : f.bufferIndex + buf.length ≤ pageSize) :
    (alone d (some f)).step fat (.write () buf) =
      some (alone d (some (f.fill buf buf.length))) := by
  simp only [step, alone, map_some, fileWrite_short short, after]
  exact congrArg some alone_eq

theorem safe_write (short : f.bufferIndex + buf.length ≤ pageSize) :
    (alone d (some f)).Safe fat (.write () buf) := by
  rintro g same
  obtain rfl := some.inj same
  have none : f.flushes buf.length = 0 := by
    unfold File.flushes pageSize at *
    omega
  constructor
  · rw [none]
    exact fun _ mem => absurd mem not_mem_nil
  · rw [none]
    exact not_mem_nil

theorem alone_close (sound : d.Sound) (aligned : f.descriptor.Aligned) :
    (alone d (some f)).step fat (.close ()) = some (alone (d.flushed f) none) := by
  simp only [step, alone, map_some, fileClose_sound sound aligned, after]
  exact congrArg some alone_eq

theorem fat_integrity_used : ∃ v : Volume Unit,
    Run (step small) (Safe small) (mounted (.formatted small)) v ∧ v.disk.lastFreeCluster = 3 ∧
    ∃ cells, Integrity small (Disk.formatted small).pages v cells := by
  have sound : (Disk.formatted small).Sound := fun _ => rfl
  have h := consistent_formatted valid_small
  have plain := plain_single h (update_self ..) (by decide)
  obtain ⟨slot, found, mark⟩ := lookup_formatted valid_small [0x41]
  obtain ⟨rest, clusters⟩ := vacant_formatted valid_small
  obtain ⟨place, free⟩ := unused_of_end found mark
  have mem := mem_of_find?_eq_some free
  have aligned := aligned_of_mem valid_small mem
  have zero : entry small (Disk.formatted small).pages 3 = 0 := by simp [entry_formatted]
  have h' : Consistent small ((Disk.formatted small).created small place [0x41] 3).pages _ :=
    h.created valid_small ⟨by decide, by decide⟩ zero mem (find?_some free) (by decide)
  have clear : Clear small
      (root small ((Disk.formatted small).created small place [0x41] 3).pages)
      (small.firstSector 3) := by
    have own : (3 : UInt32) ∈ update (update (fun _ => []) none [2])
        (some place) [3] (some place) := by simp
    rw [h'.root_eq]
    exact h'.clear valid_small own ⟨0, by decide, by decide⟩
  have first : ∀ c ∈ (vacant small (Disk.formatted small)).take 1,
      c.toNat < small.maxClust.toNat := by
    rw [clusters]
    simp [small]
  have short : 0 + [(1 : UInt8), 2, 3].length ≤ pageSize := by decide
  have opened : Run (step small) (Safe small) (alone (.formatted small) none) _ :=
    .next (.create (some ()) [0x41] (fun _ => 0) anyEntry) .start
      ⟨plain, slot, found, .inr ⟨by decide, first⟩⟩
      (alone_create h valid_small sound plain found mark free clusters)
  have written := opened.next (.write () [1, 2, 3]) (safe_write short) (alone_write short)
  have closed := written.next (.close ()) ?_
    (alone_close (Disk.Sound.put sound.allot) aligned)
  · exact ⟨_, closed, rfl, fat_integrity valid_small sound ⟨_, h⟩ closed⟩
  · intro f same
    obtain rfl := some.inj same
    change Clear small _ (small.firstSector (dirAt _ place).startCluster)
    rw [startCluster_created aligned.fits]
    exact clear

/-- All clusters are in use: the only one is that of the root directory. -/
def full : Fat := { small with maxClust := 3 }

theorem valid_full : full.Valid := by constructor <;> decide

def withEmptyFile : Disk :=
  (Disk.formatted small).put 2 0 (newEntry (split [0x41]).1 (split [0x41]).2 0)

theorem consistent_withEmptyFile :
    Consistent small withEmptyFile.pages (update (fun _ => []) none [2]) := by
  have h := consistent_formatted valid_small
  have mem : (⟨2, 0⟩ : Slot) ∈ directory small (Disk.formatted small).pages := by
    rw [directory_formatted valid_small, mem_slots valid_small]
    exact ⟨⟨0, by decide, by decide⟩, ⟨0, by decide, rfl⟩⟩
  have free : unused (Disk.formatted small).pages ⟨2, 0⟩ = true := by
    rw [unused, dirAt_formatted valid_small (sector_not_inTable h valid_small mem)]
    rfl
  exact h.enterEmpty valid_small mem free

theorem lookup_withEmptyFile : lookup small withEmptyFile.pages [0x41] = some ⟨2, 0⟩ ∧
    (dirAt withEmptyFile.pages ⟨2, 0⟩).mark ≠ 0 ∧
    (dirAt withEmptyFile.pages ⟨2, 0⟩).startCluster = 0 := by
  have dir : dirAt withEmptyFile.pages ⟨2, 0⟩ =
      .ofBytes ((split [0x41]).1.take 8) ((split [0x41]).2.take 3) [0x20] [0, 0, 0, 0, 0] [0, 0]
        [0, 0] [0, 0, 0, 0] :=
    dirAt_newEntry (by decide) (by decide) (by decide)
  have places : directory small withEmptyFile.pages =
      ⟨2, 0⟩ :: (range 15).map fun k => ⟨2, 32 * (k + 1)⟩ := by
    rw [directory, consistent_withEmptyFile.root_eq]
    decide
  have stop : stops withEmptyFile.pages (split [0x41]).1 (split [0x41]).2 ⟨2, 0⟩ = true := by
    rw [stops, dir]
    decide
  rw [lookup, places, find?_cons_of_pos stop, dir]
  decide

/-- A file of a full volume is given the entry behind the last cluster, and the deletion of an
empty file frees entry 0. -/
theorem fat_integrity_fails :
    ((∃ cells, Consistent full (Disk.formatted full).pages cells) ∧
      ∃ v : Volume Unit, Reach (step full) (alone (.formatted full) none) v ∧
        ¬∃ cells, Consistent full v.disk.pages cells) ∧
    ((∃ cells, Consistent small withEmptyFile.pages cells) ∧
      ∃ v : Volume Unit, Reach (step small) (alone withEmptyFile none) v ∧
        entry small withEmptyFile.pages 0 ≠ 0 ∧ entry small v.disk.pages 0 = 0) := by
  refine ⟨⟨⟨_, consistent_formatted valid_full⟩, ?_⟩, ⟨_, consistent_withEmptyFile⟩, ?_⟩
  · have h := consistent_formatted valid_full
    have plain := plain_single h (update_self ..) (by decide)
    obtain ⟨slot, found, mark⟩ := lookup_formatted valid_full [0x41]
    obtain ⟨rest, clusters⟩ := vacant_formatted valid_full
    obtain ⟨place, free⟩ := unused_of_end found mark
    have zero : entry full (Disk.formatted full).pages 3 = 0 := by simp [entry_formatted]
    refine ⟨_, .next (.create (some ()) [0x41] (fun _ => 0) anyEntry) .start trivial
      (alone_create h valid_full (fun _ => rfl) plain found mark free clusters), ?_⟩
    change ¬∃ cells, Consistent full ((Disk.formatted full).created full place [0x41] 3).pages cells
    have indexed : full.Indexed 3 := show 3 < 128 by decide
    rw [created_consistent_iff h valid_full indexed zero
      (mem_of_find?_eq_some free)
      (find?_some free)]
    decide
  · obtain ⟨found, mark, start⟩ := lookup_withEmptyFile
    have h := consistent_withEmptyFile
    have plain := plain_single h (update_self ..) (by decide)
    have deleted := delete_empty h valid_small (fun _ => rfl) plain found mark start
    refine ⟨{ alone withEmptyFile none with
      disk := (withEmptyFile.put 2 0 [Fat32.deleted]).setEntry small 0 0 },
      .next (.delete [0x41]) .start trivial ?_, h.reserved.1, entry_setEntry_self⟩
    simp [step, alone, deleted]

end Volume

end Fat32
