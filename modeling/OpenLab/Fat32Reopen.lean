import OpenLab.Fat32RoundTrip

/-!
# Opening a file again

A file is created, written, closed, opened by its name and read. `split` and `cmp`, which stops at
zero bytes, decide whether it is found.
-/

namespace Fat32

open PageCache (Block PageArray cpy bytes pageSize length_bytes_of_le bytes_bytes
  bytes_append cpy_page)
open Function LinkedCells List Option

variable {fat : Fat} {d : Disk} {cells : Owner → List UInt32} {f : File} {c : UInt32}
  {filename name ext : List UInt8} {slot place : Slot}

/-- The name does not start with the mark of a deleted entry, and its extension is filled up. -/
def Findable (filename : List UInt8) : Prop :=
  (split filename).1.headD 0 ≠ deleted ∧ 0 ∉ (split filename).2.take 3

variable {a : List UInt8}

theorem cmpLoop_le {b} {m} (h : cmpLoop a b = some m) :
    m ≤ (a.takeWhile (· != 0)).length := by
  induction a generalizing b m with
  | nil =>
    simp only [cmpLoop, some.injEq] at h
    omega
  | cons x a ih =>
    cases b with
    | nil =>
      simp only [cmpLoop, some.injEq] at h
      omega
    | cons y b =>
      rw [cmpLoop] at h
      split at h
      · rename_i both
        split at h
        · cases h
        · obtain ⟨m', tail, rfl⟩ := map_eq_some_iff.mp h
          rw [takeWhile_cons_of_pos (by simpa using both.2), length_cons]
          exact Nat.succ_le_succ (ih tail)
      · simp only [some.injEq] at h
        omega

theorem cmpLoop_self {rest} (nonzero : 0 ∉ a) :
    cmpLoop (a ++ 0 :: rest) (a ++ 0 :: rest) = some a.length := by
  induction a with
  | nil => simp [cmpLoop]
  | cons x a ih =>
    rw [mem_cons, not_or] at nonzero
    have first : x ≠ 0 := fun same => nonzero.1 same.symm
    rw [cons_append, cmpLoop, if_pos ⟨first, first⟩, if_neg (not_not.mpr rfl), ih nonzero.2]
    rfl

theorem takeWhile_le {b} : ((a ++ 0 :: b).takeWhile (· != 0)).length ≤ a.length := by
  induction a with
  | nil => simp
  | cons x a ih =>
    rw [cons_append, takeWhile_cons]
    split
    · exact Nat.succ_le_succ ih
    · exact Nat.zero_le _

theorem split_eq (filename : List UInt8) :
    (split filename).1 = (split filename).1.take 8 ++ [0] ∧
      (split filename).2 = (split filename).2.take 3 ++ [0] := by
  have field : ∀ {len : Nat} {l : List UInt8}, l.length ≤ len →
      padded len l = (padded len l).take len ++ [0] := by
    intro len l short
    have front : (l ++ replicate (len - l.length) space).length = len := by
      simp only [length_append, length_replicate]
      omega
    rw [padded, take_append_of_le_length front.ge, take_of_length_le front.le]
  exact ⟨field (by simp), field (length_splitExt 3 _)⟩

theorem zero_not_mem_name : 0 ∉ (split filename).1.take 8 := by
  change 0 ∉ (padded 8 ((filename.takeWhile fun b => b ≠ 0 ∧ b ≠ dot).take 8)).take 8
  have short : ((filename.takeWhile fun b => b ≠ 0 ∧ b ≠ dot).take 8).length ≤ 8 := by simp
  generalize front : (filename.takeWhile fun b => b ≠ 0 ∧ b ≠ dot).take 8 = l at short
  intro mem
  rw [padded, take_append_of_le_length (by simp; omega)] at mem
  rcases mem_append.mp (mem_of_mem_take mem) with own | filler
  · rw [← front] at own
    have := mem_takeWhile_imp (mem_of_mem_take own)
    simp at this
  · rw [mem_replicate] at filler
    exact absurd filler.2 (by decide)

theorem matches_created {dir : DirEntry} (findable : Findable filename)
    (attrib : dir.attrib &&& 0x0F ≠ 0x0F) (same_name : dir.name = (split filename).1.take 8 ++ [0])
    (same_ext : dir.ext = (split filename).2.take 3 ++ [0]) :
    dir.matches (split filename).1 (split filename).2 = true := by
  obtain ⟨nine, four⟩ := length_split filename
  obtain ⟨name, ext⟩ := split_eq filename
  have cmp_name : cmp (split filename).1 dir.name 8 = true := by
    rw [cmp, same_name, ← name, name, cmpLoop_self zero_not_mem_name, length_take, nine]
    rfl
  have cmp_ext : cmp (split filename).2 dir.ext 3 = true := by
    rw [cmp, same_ext, ← ext, ext, cmpLoop_self findable.2, length_take, four]
    rfl
  simp only [DirEntry.matches, Bool.and_eq_true, bne_iff_ne]
  exact ⟨⟨⟨attrib, findable.1⟩, cmp_name⟩, cmp_ext⟩

theorem matches_eq_false (lost : ¬Findable filename) (dir : DirEntry) :
    dir.matches (split filename).1 (split filename).2 = false := by
  by_contra found
  simp only [Bool.not_eq_false, DirEntry.matches, Bool.and_eq_true, bne_iff_ne, cmp,
    beq_iff_eq] at found
  obtain ⟨⟨⟨_, first⟩, _⟩, same⟩ := found
  refine lost ⟨first, fun zero => ?_⟩
  obtain ⟨_, ext⟩ := split_eq filename
  have three : ((split filename).2.take 3).length = 3 := by simp [(length_split filename).2]
  have le := cmpLoop_le same
  generalize front : (split filename).2.take 3 = l at ext zero three
  obtain ⟨a, b, rfl⟩ := append_of_mem zero
  rw [ext] at le
  rw [append_assoc, cons_append] at le
  have count := takeWhile_le (a := a) (b := b ++ [0])
  rw [length_append, length_cons] at three
  omega

theorem bind_eq_ok {ε σ α β : Type} {x : EStateM ε σ α} {g : α → EStateM ε σ β} {s s' : σ} {b : β}
    (h : (x >>= g) s = .ok b s') : ∃ a t, x s = .ok a t ∧ g a t = .ok b s' := by
  cases first : x s with
  | ok a t =>
    rw [bind_ok first] at h
    exact ⟨a, t, rfl, h⟩
  | error e t =>
    rw [bind_error first] at h
    cases h

section Lost

variable (lost : ∀ dir : DirEntry, dir.matches name ext = false)

include lost in
theorem findIn_lost {l : List Slot} {d' : Disk} {found : Slot × DirEntry} :
    ∀ {d : Disk}, findIn name ext l d ≠ .ok (some found) d' := by
  induction l with
  | nil =>
    intro d h
    cases h
  | cons s l ih =>
    intro d h
    obtain ⟨dir, t, _, rest⟩ := bind_eq_ok h
    by_cases mark : dir.name.headD 0 = 0
    · rw [if_pos mark] at rest
      cases rest
    · rw [if_neg mark, if_neg (by simp [lost dir])] at rest
      exact ih rest

include lost in
theorem findFrom_lost {fuel : Nat} {d' : Disk} {found : Slot × DirEntry} :
    ∀ {c : UInt32} {d : Disk}, findFrom fat name ext fuel c d ≠ .ok (some found) d' := by
  induction fuel with
  | zero =>
    intro c d h
    cases h
  | succ fuel ih =>
    intro c d h
    obtain ⟨here, t, first, rest⟩ := bind_eq_ok h
    cases here with
    | some here => exact findIn_lost lost first
    | none =>
      obtain ⟨next, t', _, rest⟩ := bind_eq_ok rest
      split at rest
      · cases rest
      · exact ih rest

end Lost

theorem fileOpen_lost (lost : ¬Findable filename) {fuel : Nat} {pageBuffer : Block} {d' : Disk} :
    fileOpen fat fuel filename pageBuffer d ≠ .ok (some f) d' := by
  intro h
  obtain ⟨found, t, search, rest⟩ := bind_eq_ok h
  cases found with
  | none => cases rest
  | some found => exact findFrom_lost (matches_eq_false lost) search

structure Entered (fat : Fat) (place : Slot) (filename : List UInt8) (pages pages' : PageArray) :
    Prop where
  directory : directory fat pages' = directory fat pages
  others : ∀ slot ∈ Fat32.directory fat pages, slot ≠ place → dirAt pages' slot = dirAt pages slot
  attrib : (dirAt pages' place).attrib = 0x20
  name : (dirAt pages' place).name = (split filename).1.take 8 ++ [0]
  ext : (dirAt pages' place).ext = (split filename).2.take 3 ++ [0]

variable {pages pages' : PageArray}

theorem Entered.trans {pages''} (first : Entered fat place filename pages pages')
    (second : SameEntries fat place pages' pages'') : Entered fat place filename pages pages'' := by
  have fields : (dirAt pages'' place).attrib = (dirAt pages' place).attrib ∧
      (dirAt pages'' place).name = (dirAt pages' place).name ∧
      (dirAt pages'' place).ext = (dirAt pages' place).ext := by
    obtain ⟨v, own⟩ := second.own
    rw [own]
    generalize dirAt pages' place = dir
    exact ⟨rfl, rfl, rfl⟩
  refine ⟨second.directory_eq.trans first.directory, fun slot mem ne => ?_,
    fields.1.trans first.attrib, fields.2.1.trans first.name, fields.2.2.trans first.ext⟩
  rw [second.others slot (by rw [first.directory]; exact mem) ne, first.others slot mem ne]

theorem Entered.mark (h : Entered fat place filename pages pages') :
    (dirAt pages' place).mark = (split filename).1.headD 0 := by
  rw [DirEntry.mark, h.name, ← (split_eq filename).1]

theorem entered_created (h : Consistent fat d.pages cells) (valid : fat.Valid)
    (indexed : fat.Indexed c) (zero : entry fat d.pages c = 0)
    (mem : place ∈ directory fat d.pages) :
    Entered fat place filename d.pages (d.created fat place filename c).pages := by
  have fits := (aligned_of_mem valid mem).fits
  refine ⟨directory_created h valid zero mem, fun slot mem' ne =>
    dirAt_created_ne h valid indexed mem mem' ne, ?_, ?_, ?_⟩
  · rw [dirAt_created fits]
    rfl
  · rw [dirAt_created fits]
    rfl
  · rw [dirAt_created fits]
    rfl

theorem Entered.lookup (h : Entered fat place filename pages pages') (findable : Findable filename)
    (found : lookup fat pages filename = some slot) (mark : (dirAt pages slot).mark = 0)
    (free : (Fat32.directory fat pages).find? (unused pages) = some place) :
    lookup fat pages' filename = some place := by
  have here : stops pages' (split filename).1 (split filename).2 place = true := by
    rw [stops, matches_created findable (by rw [h.attrib]; decide) h.name h.ext, Bool.or_true]
  rw [Fat32.lookup, find?_eq_some_iff_append] at found
  obtain ⟨_, as, bs, split₁, before⟩ := found
  rw [find?_eq_some_iff_append] at free
  obtain ⟨free, as', bs', split₂, before'⟩ := free
  -- the place is not behind the end mark, which could be taken as well
  have early : as' ⊆ as := by
    rcases append_eq_append_iff.mp (split₁.symm.trans split₂) with ⟨l, later, rest⟩ | ⟨l, sooner, _⟩
    · cases l with
      | nil => simp [later]
      | cons x l =>
        obtain rfl := (cons.inj rest).1
        have := before' slot (by rw [later]; simp)
        simp [unused, mark] at this
    · rw [sooner]
      exact subset_append_left ..
  rw [Fat32.lookup, h.directory, find?_eq_some_iff_append]
  refine ⟨here, as', bs', split₂, fun a mem => ?_⟩
  have other : a ≠ place := by
    rintro rfl
    have := before' a mem
    rw [free] at this
    cases this
  have kept : dirAt pages' a = dirAt pages a := h.others a (by rw [split₂]; simp [mem]) other
  have := before a (early mem)
  rw [stops] at this ⊢
  rw [kept]
  exact this

theorem chain_entry {head} {cs}
    (chain : Chain (nextOf (entry fat pages)) head cs) {j} (more : j + 1 < cs.length) :
    entry fat pages (cs.getD j 0) = cs.getD (j + 1) 0 := by
  have split : cs = cs.take j ++ cs[j] :: cs[j + 1] :: cs.drop (j + 2) := by
    rw [← drop_eq_getElem_cons more, ← drop_eq_getElem_cons (by omega),
      take_append_drop]
  rw [split] at chain
  have next := chain.next_eq
  rw [head?_cons, nextOf] at next
  rw [getD_eq_getElem _ _ (by omega), getD_eq_getElem _ _ more]
  split at next
  · cases next
  · exact some.inj next

theorem held_flushed {s} {w} (valid : fat.Valid)
    (h : Consistent fat s.2.pages cells) (tracks : s.1.Tracks cells)
    (writing : Writing fat (cells (some s.1.descriptor)) (fullSectors w.length) w s) :
    Held fat (s.2.flushed s.1).pages (cells (some s.1.descriptor)) w := by
  have mem := h.mem_of_owner tracks.own
  have clear := Writing.clear (f := s.1) (d := s.2) valid h writing
  have closed := h.flushed valid mem clear
  obtain ⟨⟨r, root, directory⟩, _⟩ := (h.mem_directory valid).mp mem
  have outside : ∀ page, Clear fat (cells none) page → page ≠ s.1.descriptor.sector := by
    rintro page clear rfl
    exact clear.2 r root directory
  have length := writing.length
  refine ⟨fun k b l short within => ?_, writing.clusters, h.inside _, fun j more =>
    chain_entry (closed.ledger.chain (some s.1.descriptor)) more⟩
  rcases Nat.eq_zero_or_pos l with rfl | positive
  · simp [bytes]
  rcases lt_trichotomy k (fullSectors w.length) with early | rfl | late
  · obtain ⟨other, clear_k⟩ := Writing.apart (f := s.1) (d := s.2) valid h writing early
    rw [Disk.flushed, Disk.put_ne (outside _ clear_k), Disk.put_ne other]
    have block := writing.stored k early
    generalize s.2.pages (fat.sectorAt (cells (some s.1.descriptor)) k) = x at block
    have part : ((bytes x 0 pageSize).drop b).take l = bytes x (0 + b) l := bytes_bytes short
    rw [Nat.zero_add] at part
    rw [← part, block, drop_take, take_take, drop_drop, Nat.min_eq_left (by omega)]
  · have part : ((bytes s.1.pbuf 0 s.1.bufferIndex).drop b).take l = bytes s.1.pbuf (0 + b) l :=
      bytes_bytes (by omega)
    rw [Nat.zero_add] at part
    rw [← writing.sector, Disk.flushed, Disk.put_ne (outside _ clear), Disk.put_self,
      cpy_page, ← part,
      writing.buffer, drop_drop]
  · unfold fullSectors at *
    omega

section Session

variable {pageBuffer : Block} {dir : DirEntry} {bufs : List (List UInt8)}

/-- A file is created, written and closed, all with success. -/
structure Session (fat : Fat) (filename : List UInt8) (pageBuffer : Block) (dir : DirEntry)
    (bufs : List (List UInt8)) (d : Disk) (s : File × Disk) (d' : Disk) : Prop where
  written : ∃ f d₁, fileCreate fat fat.maxClust.toNat filename pageBuffer dir d = .ok (some f) d₁ ∧
    writeAll fat bufs (f, d₁) = .ok () s
  closed : fileClose s.1 s.2 = .ok () d'

theorem Session.unique {s s'} {d₁ d₂}
    (h : Session fat filename pageBuffer dir bufs d s d₁)
    (h' : Session fat filename pageBuffer dir bufs d s' d₂) : s = s' ∧ d₁ = d₂ := by
  obtain ⟨f, e, created, written⟩ := h.written
  obtain ⟨f', e', created', written'⟩ := h'.written
  rw [created] at created'
  obtain ⟨same, rfl⟩ := EStateM.Result.ok.inj created'
  obtain rfl := some.inj same
  rw [written] at written'
  obtain rfl := (EStateM.Result.ok.inj written').2
  have closed := h.closed
  rw [h'.closed] at closed
  exact ⟨rfl, (EStateM.Result.ok.inj closed).2.symm⟩

theorem vacant_created {rest} (h : Consistent fat d.pages cells) (valid : fat.Valid)
    (mem : place ∈ directory fat d.pages) (clusters : vacant fat d = c :: rest) :
    vacant fat (d.created fat place filename c) = (vacant fat d).drop 1 := by
  have outside := sector_not_inTable h valid mem
  rw [clusters, drop_one, tail_cons, ← vacant_allot valid clusters]
  exact vacant_congr valid rfl fun c' indexed => by rw [Disk.created, entry_put indexed outside]

theorem writing_created (fits : place.index + 32 ≤ pageSize) :
    Writing fat [c] (fullSectors ([] : List UInt8).length) []
      (.begin fat pageBuffer place (dirAt (d.created fat place filename c).pages place),
        d.created fat place filename c) := by
  have start : (dirAt (d.created fat place filename c).pages place).startCluster = c :=
    startCluster_created fits
  have zero : fullSectors ([] : List UInt8).length = 0 := rfl
  have size : (dirAt (d.created fat place filename c).pages place).size = 0 := by
    rw [dirAt_created fits]
    rfl
  have first : [c].getD (0 / fat.sectPerClust.toNat) 0 = c := by simp
  rw [zero]
  refine ⟨fun k low => absurd low (Nat.not_lt_zero k), rfl, Nat.zero_le _, rfl, size, by simp, ?_,
    ?_, ?_⟩
  · rw [first]
    exact start
  · simp [File.begin]
  · change fat.firstSector _ = _
    rw [start, Fat.sectorAt, first]
    simp

structure Finished (fat : Fat) (filename : List UInt8) (place : Slot) (w : List UInt8) (d : Disk)
    (s : File × Disk) (cells : Owner → List UInt32) : Prop where
  sound : s.2.Sound
  consistent : Consistent fat s.2.pages cells
  tracks : s.1.Tracks cells
  descriptor : s.1.descriptor = place
  writing : Writing fat (cells (some place)) (fullSectors w.length) w s
  entered : Entered fat place filename d.pages s.2.pages
  root : root fat s.2.pages = root fat d.pages

theorem session_finished (h : Consistent fat d.pages cells) (valid : fat.Valid) (sound : d.Sound)
    (plain : Plain fat d.pages) (found : lookup fat d.pages filename = some slot)
    (mark : (dirAt d.pages slot).mark = 0)
    (free : (directory fat d.pages).find? (unused d.pages) = some place)
    (name : (split filename).1.headD 0 ≠ deleted)
    (room : Room fat d (fullSectors bufs.flatten.length / fat.sectPerClust.toNat + 1)) :
    ∃ s cells', Session fat filename pageBuffer dir bufs d s (s.2.flushed s.1) ∧
      Finished fat filename place bufs.flatten d s cells' := by
  rw [Nat.add_comm] at room
  obtain ⟨c, rest, clusters, high⟩ := (room.mono (Nat.le_add_right ..)).cons
  obtain ⟨_, indexed, zero⟩ := (mem_vacant valid).mp (clusters ▸ mem_cons_self)
  have mem := mem_of_find?_eq_some free
  have aligned := aligned_of_mem valid mem
  have fits := aligned.fits
  have inside : fat.Inside c := by
    obtain ⟨ne_zero, ne_one⟩ := h.ne_reserved zero
    have : c.toNat ≠ 0 := fun same => ne_zero (UInt32.toNat_inj.mp same)
    have : c.toNat ≠ 1 := fun same => ne_one (UInt32.toNat_inj.mp same)
    exact ⟨by omega, high⟩
  have start : (dirAt (d.created fat place filename c).pages place).startCluster = c :=
    startCluster_created fits
  have created : Consistent fat (d.created fat place filename c).pages _ :=
    h.created valid inside zero mem (find?_some free) name
  have file : fileCreate fat fat.maxClust.toNat filename pageBuffer dir d = .ok (some (.begin fat
      pageBuffer place (dirAt (d.created fat place filename c).pages place)))
      (d.created fat place filename c) := by
    rw [fileCreate, bind_ok (create_file h valid sound plain found mark free clusters)]
    rfl
  generalize begun : File.begin fat pageBuffer place
    (dirAt (d.created fat place filename c).pages place) = f at file
  have slot_f : f.descriptor = place := by rw [← begun]; rfl
  have cluster_f : f.currentCluster = c := by rw [← begun]; exact start
  have own : update cells (some place) [c] (some f.descriptor) = [c] := by
    rw [slot_f, update_self]
  have tracks : f.Tracks (update cells (some place) [c]) :=
    ⟨⟨[], by rw [own, cluster_f]; rfl⟩, by rw [← begun]; exact Nat.zero_le _⟩
  have writing : Writing fat [c] (fullSectors ([] : List UInt8).length) []
      (f, d.created fat place filename c) := by
    rw [← begun]
    exact writing_created fits
  rw [← own] at writing
  have room' : Room fat (d.created fat place filename c)
      (fullSectors ([] ++ bufs.flatten).length / fat.sectPerClust.toNat -
        fullSectors ([] : List UInt8).length / fat.sectPerClust.toNat) := by
    have zero : fullSectors ([] : List UInt8).length / fat.sectPerClust.toNat = 0 := Nat.zero_div _
    rw [zero, nil_append, Nat.sub_zero]
    exact room.drop (vacant_created h valid mem clusters)
  obtain ⟨s, cells', written, stores⟩ :=
    writeAll_stores (s := (f, d.created fat place filename c)) valid sound.allot.put created tracks
      writing room'
  have kept := stores.kept
  have descriptor : s.1.descriptor = place := kept.descriptor.trans slot_f
  have entries := stores.entries
  rw [show (f, d.created fat place filename c).1.descriptor = place from slot_f] at entries
  refine ⟨s, cells', ⟨⟨f, _, file, written⟩, ?_⟩, kept.sound, kept.consistent, kept.tracks,
    descriptor, ?_, ?_, ?_⟩
  · exact Volume.fileClose_sound kept.sound (by rw [descriptor]; exact aligned)
  · have := stores.writing
    rw [show (f, d.created fat place filename c).1.descriptor = place from slot_f] at this
    exact this
  · exact (entered_created h valid indexed zero mem).trans entries
  · rw [kept.consistent.root_eq, kept.others none (by simp), h.root_eq]
    exact update_of_ne (by simp) _ _

theorem fileOpen_finished {s} {w} (pageBuffer' : Block)
    (valid : fat.Valid) (plain : Plain fat d.pages)
    (found : lookup fat d.pages filename = some slot) (mark : (dirAt d.pages slot).mark = 0)
    (free : (directory fat d.pages).find? (unused d.pages) = some place)
    (findable : Findable filename) (finished : Finished fat filename place w d s cells) :
    ∃ g, fileOpen fat fat.maxClust.toNat filename pageBuffer' (s.2.flushed s.1) =
        .ok (some g) (s.2.flushed s.1) ∧
      Reading fat (s.2.flushed s.1).pages (cells (some place)) 0 g ∧ g.bufferIndex = 0 ∧
      g.dir.size = s.1.dir.size := by
  have h := finished.consistent
  have descriptor := finished.descriptor
  have own := finished.tracks.own
  have mem := h.mem_of_owner own
  have writing : Writing fat (cells (some s.1.descriptor)) (fullSectors w.length) w s := by
    rw [descriptor]
    exact finished.writing
  have clear := Writing.clear (f := s.1) (d := s.2) valid h writing
  have closed := h.flushed valid mem clear
  have entries := sameEntries_flushed h valid mem clear
  rw [descriptor] at entries own mem
  have entered := finished.entered.trans entries
  have plain' : Plain fat (s.2.flushed s.1).pages := by
    unfold Plain
    rw [entries.root, finished.root]
    exact plain
  have present : (dirAt (s.2.flushed s.1).pages place).mark ≠ 0 := by
    rw [entered.mark]
    exact headD_split_ne_zero
  have search := find_sound closed valid (d := s.2.flushed s.1) finished.sound.put.put plain'
    (entered.lookup findable found mark free)
  rw [findResult, if_neg present] at search
  have opened : fileOpen fat fat.maxClust.toNat filename pageBuffer' (s.2.flushed s.1) =
      .ok (some (.begin fat pageBuffer' place (dirAt (s.2.flushed s.1).pages place)))
        (s.2.flushed s.1) := by
    rw [fileOpen, fat32Open, bind_ok search]
    rfl
  -- the first cluster of the chain is that of the entry
  obtain ⟨first, tail, chain⟩ := exists_cons_of_ne_nil (ne_nil_of_mem own)
  have head := (closed.ledger.chain (some place)).head_eq
  rw [headOf, entries.directory_eq, if_pos mem, chain] at head
  have start := startCluster_of_head head
  have size : (dirAt (s.2.flushed s.1).pages place).size = s.1.dir.size := by
    rw [Disk.flushed, descriptor, dirAt_size (aligned_of_mem valid mem).fits]
  refine ⟨_, opened, ⟨Nat.zero_le _, ?_, ?_, ?_, fun positive => absurd positive (lt_irrefl 0)⟩,
    rfl,
    size⟩
  · rw [Nat.zero_div, chain]
    exact start
  · simp [File.begin]
  · rw [Fat.sectorAt, Nat.zero_div, Nat.zero_mod, chain]
    change fat.firstSector _ = fat.firstSector first + 0
    rw [start, UInt32.add_zero]

/-- A file created, written and closed reads back as written exactly if `open` can find its name
and, from 512 bytes on, the reads do not ask for more than the file has. -/
theorem file_round_trip (pageBuffer : Block) (dir : DirEntry) (bufs : List (List UInt8))
    (h : Consistent fat d.pages cells) (valid : fat.Valid) (sound : d.Sound)
    (plain : Plain fat d.pages) (found : lookup fat d.pages filename = some slot)
    (mark : (dirAt d.pages slot).mark = 0)
    (room : Room fat d (fullSectors bufs.flatten.length / fat.sectPerClust.toNat + 1)) :
    ((split filename).1.headD 0 ≠ deleted →
      ∃ s d', Session fat filename pageBuffer dir bufs d s d' ∧
        s.1.dir.size = UInt32.ofNat bufs.flatten.length) ∧
    ∀ s d', Session fat filename pageBuffer dir bufs d s d' → ∀ pageBuffer' sizes,
      (∃ g d'', fileOpen fat fat.maxClust.toNat filename pageBuffer' d' = .ok (some g) d'' ∧
        readAll fat sizes (g, d'') = replies (bufs.flatten.take s.1.dir.size.toNat) 0 sizes) ↔
      Findable filename ∧ (s.1.dir.size.toNat < 512 ∨ sizes.sum ≤ s.1.dir.size.toNat) := by
  obtain ⟨place, free⟩ := unused_of_end found mark
  refine ⟨fun name => ?_, fun s d' session pageBuffer' sizes => ?_⟩
  · obtain ⟨s, cells', session, finished⟩ :=
      session_finished h valid sound plain found mark free name room
    exact ⟨s, _, session, finished.writing.size⟩
  · by_cases findable : Findable filename
    · obtain ⟨t, cells', session', finished⟩ :=
        session_finished h valid sound plain found mark free findable.1 room
      obtain ⟨rfl, rfl⟩ := session.unique session'
      obtain ⟨g, opened, reading, start, size⟩ := fileOpen_finished pageBuffer' valid plain
        found mark free findable finished
      have writing : Writing fat (cells' (some s.1.descriptor))
          (fullSectors bufs.flatten.length) bufs.flatten s := by
        rw [finished.descriptor]
        exact finished.writing
      have held := held_flushed valid finished.consistent finished.tracks writing
      rw [finished.descriptor] at held
      have covered : g.dir.size.toNat ≤ bufs.flatten.length := by
        rw [size, finished.writing.size, UInt32.toNat_ofNat']
        exact Nat.mod_le ..
      have exact_ := readAll_iff (d := s.2.flushed s.1) valid finished.sound.put.put
        held sizes reading
        start covered
      rw [size] at exact_
      constructor
      · rintro ⟨g', d'', opened', replies⟩
        rw [opened] at opened'
        obtain ⟨same, rfl⟩ := EStateM.Result.ok.inj opened'
        obtain rfl := some.inj same
        exact ⟨findable, exact_.mp replies⟩
      · rintro ⟨_, enough⟩
        exact ⟨g, _, opened, exact_.mpr enough⟩
    · constructor
      · rintro ⟨g, d'', opened, _⟩
        exact absurd opened (fileOpen_lost findable)
      · rintro ⟨found, _⟩
        exact absurd found findable

open Volume (small valid_small plain_single anyEntry)

theorem room_formatted {size} (short : size ≤ 512) :
    Room small (.formatted small) (fullSectors size / small.sectPerClust.toNat + 1) := by
  have none : fullSectors size / small.sectPerClust.toNat = 0 := by
    have : fullSectors size = 0 := by
      unfold fullSectors
      omega
    rw [this, Nat.zero_div]
  obtain ⟨rest, clusters⟩ := vacant_formatted valid_small
  rw [none]
  unfold Room
  rw [clusters]
  exact ⟨by simp, by simp [small]⟩

theorem session_formatted (filename : List UInt8) (bufs : List (List UInt8))
    (name : (split filename).1.headD 0 ≠ deleted)
    (short : bufs.flatten.length ≤ 512) :
    ∃ slot place s cells',
      lookup small (Disk.formatted small).pages filename = some slot ∧
      (dirAt (Disk.formatted small).pages slot).mark = 0 ∧
      (directory small (Disk.formatted small).pages).find? (unused (Disk.formatted small).pages) =
        some place ∧
      Session small filename pageBuffer dir bufs (.formatted small) s (s.2.flushed s.1) ∧
      Finished small filename place bufs.flatten (.formatted small) s cells' := by
  have h := consistent_formatted valid_small
  have plain := plain_single h (update_self ..) (by decide)
  obtain ⟨slot, found, mark⟩ := lookup_formatted valid_small filename
  obtain ⟨place, free⟩ := unused_of_end found mark
  obtain ⟨s, cells', session, finished⟩ :=
    session_finished h valid_small (fun _ => rfl) plain found mark free name (room_formatted short)
  exact ⟨slot, place, s, cells', found, mark, free, session, finished⟩

theorem file_round_trip_small : ∃ s d',
    Session small [0x41] (fun _ => 0) anyEntry [[1, 2], [3]] (.formatted small) s d' ∧
    ∃ g d'', fileOpen small small.maxClust.toNat [0x41] (fun _ => 0) d' = .ok (some g) d'' ∧
      readAll small [2, 5, 1] (g, d'') = [⟨none, 2, [1, 2]⟩, ⟨none, 1, [3]⟩, ⟨none, 0, []⟩] := by
  have h := consistent_formatted valid_small
  have plain := plain_single h (update_self ..) (by decide)
  obtain ⟨slot, found, mark⟩ := lookup_formatted valid_small [0x41]
  have trip := file_round_trip (fun _ => 0) anyEntry [[1, 2], [3]] h valid_small
    (fun _ => rfl) plain
    found mark (room_formatted (by decide))
  obtain ⟨s, d', session, size⟩ := trip.1 (by decide)
  obtain ⟨g, d'', opened, replies⟩ := (trip.2 s d' session (fun _ => 0) [2, 5, 1]).mpr
    ⟨⟨by decide, by decide⟩, .inl (by rw [size]; decide)⟩
  refine ⟨s, d', session, g, d'', opened, replies.trans ?_⟩
  rw [size]
  decide

/-- 513 bytes are read from a file of 512, and a file `A.TX` is not found again. -/
theorem file_round_trip_fails :
    (∃ s d' g d'', Session small [0x41] (fun _ => 0) anyEntry [List.replicate 512 7]
        (.formatted small) s d' ∧ s.1.dir.size = 512 ∧
      fileOpen small small.maxClust.toNat [0x41] (fun _ => 0) d' = .ok (some g) d'' ∧
      (fileRead small 513 (g, d'')).1.error = none ∧ (fileRead small 513 (g, d'')).1.size = 513) ∧
    ∃ s d', Session small [0x41, dot, 0x54, 0x58] (fun _ => 0) anyEntry [[1]] (.formatted small) s
        d' ∧
      ∀ fuel pageBuffer g d'', fileOpen small fuel [0x41, dot, 0x54, 0x58] pageBuffer d' ≠
        .ok (some g) d'' := by
  have h := consistent_formatted valid_small
  have plain := plain_single h (update_self ..) (by decide)
  have full : [replicate 512 (7 : UInt8)].flatten.length = 512 := by
    rw [flatten_singleton, length_replicate]
  constructor
  · obtain ⟨slot, place, s, cells', found, mark, free, session, finished⟩ :=
      session_formatted [0x41] [replicate 512 7] (by decide) full.le
    obtain ⟨g, opened, reading, start, size⟩ :=
      fileOpen_finished (fun _ => 0) valid_small plain found
      mark free (⟨by decide, by decide⟩ : Findable [0x41]) finished
    have length : s.1.dir.size = 512 := by
      rw [finished.writing.size, full]
      rfl
    rw [length] at size
    obtain ⟨g', data, result, _⟩ := fileRead_large small 513 (d := s.2.flushed s.1)
      finished.sound.put.put (by rw [start]; decide) (by rw [size]; decide)
    exact ⟨s, _, g, _, session, length, opened, by rw [result], by rw [result]⟩
  · obtain ⟨slot, place, s, cells', _, _, _, session, _⟩ :=
      session_formatted [0x41, dot, 0x54, 0x58] [[1]] (by decide) (by decide)
    exact ⟨s, _, session, fun fuel pageBuffer g d'' => fileOpen_lost fun findable =>
      absurd findable.2 (by decide)⟩

end Session

end Fat32
