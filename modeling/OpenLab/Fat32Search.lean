import OpenLab.Fat32Reopen

/-!
# Searches on any volume

What the searches find when only the chain of the root directory is known. Its loops end by the
number of a sector and not of a cluster, and `split` puts a zero behind a short extension. A free
cluster is looked for from the last one on.
-/

namespace Fat32

open PageCache (PageArray bytes pageSize length_bytes_of_le)
open LinkedCells Option
open List hiding beq_eq_decide
open Volume (small full)

/-- A volume on which no access fails, with any table. -/
structure Drive where
  fat : Fat
  disk : Disk
  valid : fat.Valid
  sound : disk.Sound

/-- Its root directory is a chain of clusters. -/
structure Medium extends Drive where
  clusters : List UInt32
  chain : Chain (nextOf (entry fat disk.pages)) (some 2) clusters
  inside : ∀ c ∈ clusters, fat.Inside c

structure Name where
  base : List UInt8
  ext : List UInt8
  length_base : base.length = 8
  length_ext : ext.length = 3
  nonzero : 0 ∉ base ∧ 0 ∉ ext

/-- The name as `fat32_find` is given it. -/
def Name.key (n : Name) : List UInt8 × List UInt8 := (n.base ++ [0], n.ext ++ [0])

def DirEntry.named (dir : DirEntry) (n : Name) : Bool :=
  dir.name == n.key.1 && dir.ext == n.key.2

namespace Medium

def slots (m : Medium) : List Slot := m.clusters.flatMap m.fat.slots

/-- The first entry before the end mark of the directory that is in use and has this name. -/
def live (m : Medium) (n : Name) : Option Slot :=
  (m.slots.takeWhile fun s => (dirAt m.disk.pages s).mark != 0).find? fun s =>
    (dirAt m.disk.pages s).isFile && (dirAt m.disk.pages s).named n

/-- A search for a name stops at this place. -/
def hits (m : Medium) (key : List UInt8 × List UInt8) (slot : Slot) : Bool :=
  stops m.disk.pages key.1 key.2 slot

def find (m : Medium) (key : List UInt8 × List UInt8) :
    EStateM.Result Error Disk (Option (Slot × DirEntry)) :=
  Fat32.find m.fat m.clusters.length key.1 key.2 m.disk

def expected (m : Medium) (n : Name) : EStateM.Result Error Disk (Option (Slot × DirEntry)) :=
  match m.live n with
  | some slot => .ok (some (slot, dirAt m.disk.pages slot)) m.disk
  | none => .error .fileNotFound m.disk

/-- How a loop over the directory ends that looks for such a place. -/
def scan (m : Medium) (p : Slot → Bool) : Option (Option Slot) := Fat32.scan m.fat p m.clusters

/-- The loop ends in the directory: at such a place, or by the number of a sector if it may. -/
def Confined (m : Medium) (p : Slot → Bool) (may : Prop) : Prop :=
  (m.scan p).isSome ∧ (m.scan p = some none → may)

end Medium

/-- A volume whose pages are full of entries `BBBBBBBB.BBB`, but for these entries of the table. -/
def crowded (fat : Fat) (table : List (UInt32 × UInt32)) : Disk :=
  table.foldl (fun d e => d.setEntry fat e.1 e.2) ⟨fun _ _ => 0x42, 0, fun _ => false, []⟩

/-- The volume `small` with a root directory of one cluster. -/
def Medium.ofSmall (disk : Disk) (sound : disk.Sound)
    (last : nextOf (entry small disk.pages) 2 = none) : Medium where
  fat := small
  disk := disk
  valid := Volume.valid_small
  sound := sound
  clusters := [2]
  chain := chain_single last
  inside _ mem := mem_singleton.mp mem ▸ ⟨by decide, by decide⟩

theorem Name.eq {a b : Name} (base : a.base = b.base) (ext : a.ext = b.ext) : a = b := by
  cases a
  cases b
  simp_all

theorem cmp_eq {a b} (same : a.length = b.length) (nonzero : 0 ∉ a) :
    cmp (a ++ [0]) (b ++ [0]) a.length = (b == a) := by
  induction a generalizing b with
  | nil =>
    cases b with
    | nil => rfl
    | cons y b => simp at same
  | cons x a ih =>
    cases b with
    | nil => simp at same
    | cons y b =>
      simp only [mem_cons, not_or] at nonzero
      have ih := ih (b := b) (by simpa using same) nonzero.2
      simp only [cmp, cons_append, cmpLoop, length_cons] at ih ⊢
      by_cases first : y = x
      · subst first
        rw [if_pos ⟨Ne.symm nonzero.1, Ne.symm nonzero.1⟩, if_neg (not_not.mpr rfl)]
        rw [cons_beq_cons, beq_self_eq_true, Bool.true_and, ← ih]
        cases cmpLoop (a ++ [0]) (b ++ [0]) <;> simp
      · rw [cons_beq_cons, beq_false_of_ne first, Bool.false_and]
        split_ifs <;> simp

theorem matches_eq (n : Name) {pages} {slot}
    (fits : slot.index + 32 ≤ pageSize) :
    (dirAt pages slot).matches n.key.1 n.key.2 =
      ((dirAt pages slot).isFile && (dirAt pages slot).named n) := by
  obtain ⟨base, ext, eight, three, nonzero⟩ := n
  have name : (bytes (pages slot.sector) slot.index 8).length = 8 :=
    length_bytes_of_le (by omega)
  have ext' : (bytes (pages slot.sector) (slot.index + 8) 3).length = 3 :=
    length_bytes_of_le (by omega)
  have same := cmp_eq (b := bytes (pages slot.sector) slot.index 8) (by omega) nonzero.1
  have same' := cmp_eq (b := bytes (pages slot.sector) (slot.index + 8) 3) (by omega) nonzero.2
  rw [eight] at same
  rw [three] at same'
  simp only [DirEntry.matches, DirEntry.isFile, DirEntry.named, Name.key, DirEntry.mark, dirAt,
    DirEntry.ofBytes, same, same', append_left_inj, beq_eq_decide]
  by_cases equal : bytes (pages slot.sector) slot.index 8 = base
  · cases base with
    | nil => simp at eight
    | cons b base =>
      have first : (b != 0) = true :=
        bne_iff_ne.mpr fun zero => nonzero.1 (zero ▸ mem_cons_self)
      simp [equal, first, Bool.and_comm, Bool.and_left_comm]
  · simp [equal]

theorem find?_takeWhile {α : Type} {l : List α} {p q r : α → Bool}
    (same : ∀ x ∈ l, r x = (!p x || q x)) :
    (l.takeWhile p).find? q = (l.find? r).filter p := by
  induction l with
  | nil => rfl
  | cons x l ih =>
    have here := same x mem_cons_self
    have ih := ih fun y mem => same y (mem_cons_of_mem x mem)
    rw [takeWhile_cons, List.find?_cons]
    cases first : p x with
    | false => simp [here, first, Option.filter]
    | true =>
      simp only [here, first, if_true, List.find?_cons]
      cases q x with
      | false => simpa using ih
      | true => simp [first, Option.filter]

namespace Medium

variable (m : Medium) {slot : Slot}

theorem aligned (mem : slot ∈ m.slots) : slot.Aligned := by
  obtain ⟨c, _, here⟩ := mem_flatMap.mp mem
  exact ((mem_slots m.valid).mp here).2

theorem outside (mem : slot ∈ m.slots) : ¬m.fat.InTable slot.sector := by
  obtain ⟨c, own, here⟩ := mem_flatMap.mp mem
  exact ((mem_slots m.valid).mp here).1.not_inTable (m.inside c own) m.valid

theorem live_eq (n : Name) : m.live n =
    (m.slots.find? (m.hits n.key)).filter fun s => (dirAt m.disk.pages s).mark != 0 := by
  refine find?_takeWhile fun s mem => ?_
  rw [hits, stops, matches_eq n (m.aligned mem).fits]
  simp [bne]

theorem find?_of_scan {p} (ended : m.scan p = some (some slot)) :
    m.slots.find? p = some slot := by
  have cases : m.scan p = some none ∨ m.scan p = (m.slots.find? p).map some := scan_eq
  rw [ended] at cases
  simpa [eq_comm] using cases

theorem find_scan (key : List UInt8 × List UInt8) {fuel}
    (enough : m.clusters.length ≤ fuel) :
    match m.scan (m.hits key) with
    | none => fuel = m.clusters.length →
      Fat32.find m.fat fuel key.1 key.2 m.disk = .ok none m.disk
    | some none => ∃ _ : UInt32,
      Fat32.find m.fat fuel key.1 key.2 m.disk = .error .fileNotFound m.disk
    | some (some slot) => Fat32.find m.fat fuel key.1 key.2 m.disk = findResult slot m.disk :=
  findFrom_scan key.1 key.2 m.valid m.sound m.chain m.inside enough

theorem find_of_scan {key}
    (ended : m.scan (m.hits key) = some (some slot)) (mark : (dirAt m.disk.pages slot).mark ≠ 0) :
    m.find key = .ok (some (slot, dirAt m.disk.pages slot)) m.disk := by
  have search := m.find_scan key le_rfl
  rw [ended] at search
  exact search.trans (if_neg mark)

theorem scan_of_find {key} {found}
    (search : m.find key = .ok (some found) m.disk) : ∃ slot,
      m.scan (m.hits key) = some (some slot) ∧ (dirAt m.disk.pages slot).mark ≠ 0 ∧
      found = (slot, dirAt m.disk.pages slot) := by
  have ends := m.find_scan key le_rfl
  unfold find at search
  rcases ended : m.scan (m.hits key) with _ | _ | slot <;> rw [ended] at ends
  · rw [ends rfl] at search
    cases search
  · rw [ends.choose_spec] at search
    cases search
  · rw [show Fat32.find _ _ _ _ _ = findResult slot _ from ends, findResult] at search
    split at search <;> cases search
    exact ⟨slot, rfl, ‹_›, rfl⟩

theorem find_eq_expected (n : Name) : m.find n.key = m.expected n ↔
    m.Confined (m.hits n.key) (m.live n = none) := by
  have search := m.find_scan n.key le_rfl
  unfold find Confined expected
  rcases ended : m.scan (m.hits n.key) with _ | _ | slot <;> rw [ended] at search
  · rw [search rfl]
    cases m.live n <;> simp
  · rw [search.choose_spec]
    cases m.live n <;> simp
  · rw [search, live_eq, m.find?_of_scan ended]
    by_cases mark : (dirAt m.disk.pages slot).mark = 0 <;> simp [findResult, mark, Option.filter]

section Create

variable (filename : List UInt8) (dir : DirEntry)

theorem fileExists_eq : fileExists m.fat m.clusters.length filename m.disk =
    .ok ((m.scan (m.hits (split filename))).map fun found =>
      found.any fun s => (dirAt m.disk.pages s).mark != 0) m.disk := by
  have search := m.find_scan (split filename) le_rfl
  unfold fileExists
  rcases ended : m.scan (m.hits (split filename)) with _ | _ | slot <;> rw [ended] at search
  · rw [search rfl]
    rfl
  · rw [search.choose_spec]
    rfl
  · rw [search]
    by_cases mark : (dirAt m.disk.pages slot).mark = 0 <;> simp [findResult, mark]

theorem writeBytes_behind {d} (page : UInt32) {data} (sound : d.Sound)
    (some : data ≠ []) : ∃ d', writeBytes page pageSize data d = .error .fsError d' ∧
      d'.written.length = d.written.length + 1 := by
  have count : 0 ≠ data.length := fun h => some (length_eq_zero_iff.mp h.symm)
  obtain ⟨d', write, log⟩ : ∃ d', fsWrite page pageSize data d = .ok 0 d' ∧
      d'.written.length = d.written.length + 1 := by
    simp [fsWrite, sound 0]
  exact ⟨d', (bind_ok write).trans (congrFun (if_pos count) d'), log⟩

theorem create_behind {c'} (known : fileExists m.fat m.clusters.length filename m.disk =
    .ok (some false) m.disk) (search : freeFrom m.fat m.clusters.length 2 m.disk =
      .ok (some ⟨m.fat.rootSector c' + m.fat.sectPerClust.toUInt32, pageSize⟩) m.disk) :
    ∃ e d', create m.fat m.clusters.length filename dir m.disk = .error e d' ∧
      (d'.written = m.disk.written ↔ vacant m.fat m.disk = []) := by
  rw [create, bind_ok known]
  change ∃ e d', (freeFrom _ _ _ >>= _) _ = _ ∧ _
  rw [bind_ok search]
  change ∃ e d', (findEmptyCluster _ >>= _) _ = _ ∧ _
  cases clusters : vacant m.fat m.disk with
  | nil =>
    rw [bind_ok (findEmptyCluster_none m.valid m.sound clusters), if_pos rfl]
    exact ⟨_, _, rfl, iff_of_true rfl rfl⟩
  | cons c rest =>
    rw [bind_ok (findEmptyCluster_some m.valid m.sound clusters)]
    by_cases one : c = 1
    · rw [if_pos one]
      exact ⟨_, _, rfl, iff_of_false (cons_ne_self _ _) (cons_ne_nil _ _)⟩
    · obtain ⟨d', write, log⟩ := writeBytes_behind (d := m.disk.allot m.fat c)
        (m.fat.rootSector c' + m.fat.sectPerClust.toUInt32) m.sound
        (ne_nil_of_length_eq_add_one length_newEntry)
      rw [if_neg one]
      change ∃ e d', (writeBytes _ _ _ >>= _) _ = _ ∧ _
      rw [bind_error write]
      refine ⟨_, _, rfl, iff_of_false (fun same => ?_) (cons_ne_nil _ _)⟩
      rw [same] at log
      change _ = m.disk.written.length + 1 + 1 at log
      omega

theorem create_full_iff (full : ∀ s ∈ m.slots, ¬unused m.disk.pages s) :
    (∃ e d', create m.fat m.clusters.length filename dir m.disk = .error e d' ∧
      d'.written = m.disk.written) ↔
    m.Confined (m.hits (split filename)) (vacant m.fat m.disk = []) := by
  have known := m.fileExists_eq filename
  unfold Confined
  rcases ended : m.scan (m.hits (split filename)) with _ | _ | slot <;> rw [ended] at known
  · rw [create, bind_ok known]
    refine iff_of_false ?_ (by simp)
    rintro ⟨e, d', failed, _⟩
    cases failed
  · have search := freeFrom_scan m.valid m.sound m.chain m.inside le_rfl
    have event : none ∈ m.clusters.flatMap m.fat.events := mem_of_find?_eq_some ended
    have stop : Fat32.scan m.fat (unused m.disk.pages) m.clusters = some none := by
      have cases : _ = some none ∨ _ = (m.slots.find? (unused m.disk.pages)).map some := scan_eq
      rw [List.find?_eq_none.mpr full] at cases
      exact cases.resolve_right fun nothing => List.find?_eq_none.mp nothing none event rfl
    rw [stop] at search
    obtain ⟨c, search⟩ := search
    obtain ⟨e, d', failed, log⟩ := m.create_behind filename dir known search
    simp [failed, log]
  · have mem := mem_of_find?_eq_some (m.find?_of_scan ended)
    have mark : (dirAt m.disk.pages slot).mark ≠ 0 := fun zero =>
      full slot mem (by simp [unused, zero])
    simp only [map_some, any_some, bne_iff_ne.mpr mark] at known
    rw [create, bind_ok known]
    exact iff_of_true ⟨_, _, rfl, rfl⟩ (by simp)

end Create

/-- A search is right if and only if it stays in the directory, and a full directory is left alone
if and only if the search for the name does and finds it, or no cluster is free. -/
theorem search_confined (n : Name) (filename : List UInt8) (dir : DirEntry) :
    (m.find n.key = m.expected n ↔ m.Confined (m.hits n.key) (m.live n = none)) ∧
    ((∀ s ∈ m.slots, ¬unused m.disk.pages s) →
      ((∃ e d', create m.fat m.clusters.length filename dir m.disk = .error e d' ∧
          d'.written = m.disk.written) ↔
        m.Confined (m.hits (split filename)) (vacant m.fat m.disk = []))) :=
  ⟨m.find_eq_expected n, m.create_full_iff filename dir⟩

end Medium

def bName : Name := ⟨replicate 8 0x42, replicate 3 0x42, rfl, rfl, by decide⟩

def crowdedMedium : Medium :=
  .ofSmall (crowded small [(2, endOfChain)]) (fun _ => rfl) (by decide +kernel)

theorem search_confined_crowded :
    crowdedMedium.find bName.key = .ok (some (⟨2, 0⟩, dirAt crowdedMedium.disk.pages ⟨2, 0⟩))
      crowdedMedium.disk ∧
    ∃ e d', create small 1 (bName.base ++ dot :: bName.ext) Volume.anyEntry crowdedMedium.disk =
      .error e d' ∧ d'.written = crowdedMedium.disk.written := by
  obtain ⟨search, refused⟩ := crowdedMedium.search_confined bName
    (bName.base ++ dot :: bName.ext) Volume.anyEntry
  have live : crowdedMedium.live bName = some ⟨2, 0⟩ := by decide +kernel
  constructor
  · rw [search.mpr ⟨by decide +kernel, fun h => absurd h (by decide +kernel)⟩, Medium.expected,
      live]
  · exact (refused (by decide +kernel)).mpr
      ⟨by decide +kernel, fun h => absurd h (by decide +kernel)⟩

/-- The search for a name that a full directory does not have leaves the directory. -/
theorem search_leaves :
    nextOf (entry small (crowded small [(2, endOfChain)]).pages) 2 = none ∧
    (match find small 1 (replicate 8 0x41) (replicate 3 0x41)
        (crowded small [(2, endOfChain)]) with
      | .ok none _ => true
      | _ => false) = true := by
  decide +kernel

/-- Up to eight characters and, with a dot, up to three more. -/
structure Filename where
  base : List UInt8
  ext : Option (List UInt8)
  length_base : 0 < base.length ∧ base.length ≤ 8
  length_ext : (ext.getD []).length ≤ 3
  chars : ∀ b ∈ base ++ ext.getD [], b ≠ 0 ∧ b ≠ dot
  first : base.head? ≠ some deleted

namespace Filename

variable (f : Filename)

def text : List UInt8 := f.base ++ f.ext.elim [] (dot :: ·)

theorem zero_not_mem {l} {k} (own : ∀ b ∈ l, b ∈ f.base ++ f.ext.getD []) :
    0 ∉ l ++ replicate k space := by
  intro mem
  rcases mem_append.mp mem with mem | mem
  · exact (f.chars 0 (own 0 mem)).1 rfl
  · exact absurd (eq_of_mem_replicate mem) (by decide)

def name : Name where
  base := f.base ++ replicate (8 - f.base.length) space
  ext := f.ext.getD [] ++ replicate (3 - (f.ext.getD []).length) space
  length_base := by have := f.length_base; simp; omega
  length_ext := by have := f.length_ext; simp; omega
  nonzero := ⟨f.zero_not_mem fun _ => mem_append_left _,
    f.zero_not_mem fun _ => mem_append_right _⟩

/-- Without extension, or with one of three characters. -/
def Complete : Prop := ∀ e ∈ f.ext, e.length = 3

theorem splitExt_eq {n} {b} {e} (first : b ≠ 0) (nonzero : 0 ∉ e) :
    splitExt n (b :: e) = (e ++ [0]).take n := by
  induction n generalizing b e with
  | zero => rfl
  | succ n ih =>
    rw [splitExt, if_neg first]
    cases e with
    | nil => cases n <;> simp [splitExt]
    | cons x e =>
      rw [mem_cons, not_or] at nonzero
      rw [ih (Ne.symm nonzero.1) nonzero.2]
      rfl

theorem split_text : split f.text =
    (f.name.key.1, padded 3 (f.ext.elim [] fun e => (e ++ [0]).take 3)) := by
  have own : ∀ b ∈ f.base, decide (b ≠ 0 ∧ b ≠ dot) = true := fun b mem => by
    obtain ⟨zero, dot⟩ := f.chars b (mem_append_left _ mem)
    simp [zero, dot]
  have short := f.length_base.2
  unfold split text
  rw [takeWhile_append_of_pos own, dropWhile_append_of_pos own]
  cases ext : f.ext with
  | none =>
    simp only [elim_none, takeWhile_nil, dropWhile_nil, append_nil, splitExt,
      take_of_length_le short]
    rfl
  | some e =>
    have nonzero : 0 ∉ e := fun mem =>
      (f.chars 0 (mem_append_right _ (by rw [ext]; exact mem))).1 rfl
    simp only [elim_some]
    rw [takeWhile_cons_of_neg (by simp), dropWhile_cons_of_neg (by simp),
      append_nil, take_of_length_le short, splitExt_eq (by decide) nonzero]
    rfl

theorem split_complete (complete : f.Complete) : split f.text = f.name.key := by
  rw [split_text]
  refine Prod.ext rfl ?_
  cases ext : f.ext with
  | none =>
    simp only [Name.key, name, ext]
    rfl
  | some e =>
    have three := complete e ext
    simp [Name.key, name, ext, padded, three]

theorem findable (complete : f.Complete) : Findable f.text := by
  rw [Findable, f.split_complete complete]
  constructor
  · have some := f.length_base.1
    cases base : f.base with
    | nil => simp [base] at some
    | cons b l =>
      have first := f.first
      simpa [Name.key, name, base] using first
  · rw [Name.key, take_append_of_le_length f.name.length_ext.ge,
      take_of_length_le f.name.length_ext.le]
    exact f.name.nonzero.2

theorem not_findable (short : ¬f.Complete) : ¬Findable f.text := by
  rintro ⟨_, nonzero⟩
  simp only [Complete, not_forall] at short
  obtain ⟨e, ext, length⟩ := short
  have le := f.length_ext
  rw [split_text, mem_def.mp ext] at nonzero
  rw [mem_def.mp ext, getD_some] at le
  have whole : (e ++ [0]).take 3 = e ++ [0] := take_of_length_le (by simp; omega)
  refine nonzero ?_
  change 0 ∈ (padded 3 ((e ++ [0]).take 3)).take 3
  rw [whole, padded, append_assoc, List.take_append, whole]
  simp

end Filename

theorem pages_setEntry {fat : Fat} {d : Disk} {c page : UInt32} {k : Fin pageSize} :
    (d.setEntry fat c 0).pages page k =
      if page = fat.entrySector c ∧ entryOffset c ≤ k ∧ k < entryOffset c + 4 then 0
      else d.pages page k := by
  rcases eq_or_ne page (fat.entrySector c) with rfl | ne
  · rw [Disk.setEntry, Disk.put_self]
    split_ifs with within
    · have four : k.val - entryOffset c < (write32 0).length := by
        rw [length_write32]
        omega
      rw [PageCache.cpy_inside within.2.1 four]
      exact eq_of_mem_replicate (n := 4) (getElem_mem four)
    · have := fun low => not_and.mp (not_and.mp within rfl) low
      exact PageCache.cpy_outside (by rw [length_write32]; omega)
  · rw [Disk.setEntry, Disk.put_ne ne, if_neg fun h => ne h.1]

theorem pages_freeAll {fat : Fat} {l : List UInt32} {d : Disk} {page : UInt32} {k : Fin pageSize} :
    (d.freeAll fat l).pages page k =
      if ∃ c ∈ l, page = fat.entrySector c ∧ entryOffset c ≤ k ∧ k < entryOffset c + 4 then 0
      else d.pages page k := by
  induction l generalizing d with
  | nil => simp [Disk.freeAll]
  | cons c l ih =>
    change ((d.setEntry fat c 0).freeAll fat l).pages page k = _
    rw [ih, pages_setEntry]
    simp only [mem_cons, exists_eq_or_imp]
    by_cases rest : ∃ c ∈ l, page = fat.entrySector c ∧ entryOffset c ≤ k ∧ k < entryOffset c + 4
    · rw [if_pos rest, if_pos (.inr rest)]
    · simp [rest]

/-- A file of the root directory with its chain of clusters. -/
structure Deletion extends Medium where
  file : Filename
  slot : Slot
  cells : List UInt32
  present : toMedium.live file.name = some slot
  linked : Chain (nextOf (entry fat disk.pages)) (some (dirAt disk.pages slot).startCluster) cells
  within : ∀ c ∈ cells, fat.Inside c

/-- The volume with the entries of the chain cleared and the entry of the file marked. -/
def Deletion.erased (x : Deletion) : PageArray := fun page k =>
  if ∃ c ∈ x.cells, page = x.fat.entrySector c ∧ entryOffset c ≤ k ∧ k < entryOffset c + 4 then 0
  else if page = x.slot.sector ∧ k.val = x.slot.index then deleted else x.disk.pages page k

/-- A file is deleted, with its chain and nothing else, if and only if it is found. -/
theorem delete_iff (x : Deletion) :
    (∃ d', delete x.fat x.fat.maxClust.toNat x.file.text x.disk = .ok (some ()) d' ∧
        d'.pages = x.erased) ↔
      x.file.Complete ∧ x.scan (x.hits x.file.name.key) ≠ some none := by
  obtain ⟨m, f, slot, l, live, linked, inside⟩ := x
  have room : m.clusters.length ≤ m.fat.maxClust.toNat :=
    length_le_maxClust m.chain.nodup m.inside
  by_cases complete : f.Complete
  · have search := m.find_scan f.name.key room
    rw [delete, f.split_complete complete]
    rw [m.live_eq, filter_eq_some_iff] at live
    obtain ⟨found, mark⟩ := live
    by_cases late : m.scan (m.hits f.name.key) = some none
    · rw [late] at search
      rw [bind_error search.choose_spec]
      simp [late]
    · have cases : m.scan (m.hits f.name.key) = _ := scan_eq.resolve_left late
      change m.scan _ = (m.slots.find? _).map some at cases
      rw [cases, found] at search
      have mem := mem_of_find?_eq_some found
      have fits := (m.aligned mem).fits
      simp only [map_some, findResult, if_neg (bne_iff_ne.mp mark)] at search
      rw [bind_ok search]
      refine ⟨fun _ => ⟨complete, late⟩, fun _ => ?_⟩
      change ∃ d', (writeBytes _ _ _ >>= _) _ = _ ∧ _
      rw [bind_ok (writeBytes_sound m.sound (by simp; omega))]
      have outside := m.outside mem
      refine ⟨_, freeChain_sound m.sound.put (linked.frame fun c own => ?_) inside
        (length_le_maxClust linked.nodup inside), ?_⟩
      · rw [nextOf, nextOf, entry_put ((inside c own).indexed m.valid) outside]
      · funext page k
        rw [pages_freeAll, Deletion.erased]
        congr 1
        rcases eq_or_ne page slot.sector with rfl | ne
        · rw [Disk.put_self]
          by_cases here : k.val = slot.index
          · rw [if_pos ⟨rfl, here⟩, PageCache.cpy_inside here.ge (by simp [here])]
            simp
          · rw [if_neg fun h => here h.2]
            exact PageCache.cpy_outside (by simp; omega)
        · rw [Disk.put_ne ne, if_neg fun h => ne h.1]
  · refine ⟨?_, fun h => absurd h.1 complete⟩
    rintro ⟨d', done, _⟩
    obtain ⟨found, t, search, rest⟩ := bind_eq_ok done
    cases found with
    | none => cases rest
    | some found => exact absurd search (findFrom_lost (matches_eq_false (f.not_findable complete)))

/-- `A B.TXT` -/
def spacedName : Filename :=
  ⟨[0x41, space, 0x42], some [0x54, 0x58, 0x54], by decide, by decide, by decide +kernel, by decide⟩

/-- A volume with a file of one cluster. -/
def withFile (name ext : List UInt8) : Disk :=
  ((Disk.formatted small).setEntry small 3 endOfChain).put 2 0 (newEntry name ext 3)

def withSpaced : Disk := withFile spacedName.name.base spacedName.name.ext

def spacedDeletion : Deletion where
  toMedium := .ofSmall withSpaced (fun _ => rfl) (by decide +kernel)
  file := spacedName
  slot := ⟨2, 0⟩
  cells := [3]
  present := by decide +kernel
  linked := by
    have start : (dirAt withSpaced.pages ⟨2, 0⟩).startCluster = 3 := by decide +kernel
    exact start ▸ chain_single (by decide +kernel)
  within _ mem := by
    rw [mem_singleton.mp mem]
    exact ⟨by decide, by decide⟩

theorem delete_spaced : ∃ d', delete small 6 spacedName.text withSpaced = .ok (some ()) d' ∧
    d'.pages = spacedDeletion.erased :=
  (delete_iff spacedDeletion).mpr ⟨fun _ mem => Option.some.inj mem ▸ rfl, by decide +kernel⟩

/-- `A.TX` -/
def shortName : List UInt8 := [0x41, dot, 0x54, 0x58]

/-- The file `A.TX` is there and `delete` does not find it. -/
theorem delete_misses :
    (dirAt (withFile (0x41 :: replicate 7 space) [0x54, 0x58, space]).pages ⟨2, 0⟩).isFile = true ∧
    (match delete small 6 shortName (withFile (0x41 :: replicate 7 space) [0x54, 0x58, space]) with
      | .error .fileNotFound _ => true
      | _ => false) = true := by
  decide +kernel

section Lists

variable {α : Type} {l : List α} {p q : α → Bool} {x : α}

theorem find?_keep (own : l.find? p = some x) (here : q x = true)
    (le : ∀ y ∈ l, q y = true → p y = true) : l.find? q = some x := by
  obtain ⟨_, as, bs, rfl, before⟩ := List.find?_eq_some_iff_append.mp own
  refine List.find?_eq_some_iff_append.mpr ⟨here, as, bs, rfl, fun a mem => ?_⟩
  grind

theorem find?_or (own : l.find? p = some x) (first : ∀ y, l.find? q = some y → p y = true) :
    l.find? (fun y => p y || q y) = some x := by
  obtain ⟨here, as, bs, rfl, before⟩ := List.find?_eq_some_iff_append.mp own
  refine List.find?_eq_some_iff_append.mpr ⟨by simp [here], as, bs, rfl, ?_⟩
  have none : as.find? q = none := by
    cases found : as.find? q with
    | none => rfl
    | some y =>
      grind
  intro a mem
  grind

end Lists

/-- A call of `fat32_create` that returned `FAT32_OK`. -/
structure Creation extends Medium where
  file : Filename
  dir : DirEntry
  slot : Slot
  new : DirEntry
  result : Disk
  created : create fat clusters.length file.text dir disk = .ok (some (slot, new)) result

namespace Creation

variable (x : Creation)

theorem absent : fileExists x.fat x.clusters.length x.file.text x.disk =
      .ok (some false) x.disk ∧ ∀ s, x.scan (x.hits (split x.file.text)) = some (some s) →
        (dirAt x.disk.pages s).mark = 0 := by
  have known := x.fileExists_eq x.file.text
  have created := x.created
  rw [create, bind_ok known] at created
  cases ended : x.scan (x.hits (split x.file.text)) with
  | none =>
    rw [ended] at created
    cases created
  | some found =>
    rw [ended, map_some] at known created
    cases live : found.any fun s => (dirAt x.disk.pages s).mark != 0 with
    | true =>
      rw [live] at created
      cases created
    | false =>
      rw [live] at known
      refine ⟨known, fun s same => ?_⟩
      cases same
      simpa using live

theorem place : ∃ c, x.fat.Indexed c ∧ entry x.fat x.disk.pages c = 0 ∧
    x.scan (unused x.disk.pages) = some (some x.slot) ∧
    x.result = x.disk.created x.fat x.slot x.file.text c ∧ x.new = dirAt x.result.pages x.slot := by
  have known := x.absent.1
  obtain ⟨m, f, dir, slot, e, d', created⟩ := x
  dsimp only at known ⊢
  have search := freeFrom_scan m.valid m.sound m.chain m.inside le_rfl
  rcases free : m.scan (unused m.disk.pages) with _ | _ | place <;>
    rw [show Fat32.scan _ _ _ = _ from free] at search
  · rw [create, bind_ok known] at created
    change (freeFrom _ _ _ >>= _) _ = _ at created
    rw [bind_ok (search rfl)] at created
    cases created
  · obtain ⟨c, search⟩ := search
    obtain ⟨e, d, failed, _⟩ := m.create_behind f.text dir known search
    rw [failed] at created
    cases created
  · have fits := (m.aligned (mem_of_find?_eq_some (m.find?_of_scan free))).fits
    cases clusters : vacant m.fat m.disk with
    | nil =>
      rw [create_without known search m.valid m.sound clusters] at created
      cases created
    | cons c rest =>
      obtain ⟨_, indexed, zero⟩ := (mem_vacant m.valid).mp (clusters ▸ mem_cons_self)
      by_cases one : c = 1
      · rw [create, bind_ok known] at created
        change (freeFrom _ _ _ >>= _) _ = _ at created
        rw [bind_ok search] at created
        change (findEmptyCluster _ >>= _) _ = _ at created
        rw [bind_ok (findEmptyCluster_some m.valid m.sound clusters), if_pos one] at created
        cases created
      · rw [create_at known search m.valid m.sound fits clusters one] at created
        cases created
        exact ⟨c, indexed, zero, rfl, rfl, rfl⟩

theorem mem_slots : x.slot ∈ x.slots ∧ unused x.disk.pages x.slot = true := by
  obtain ⟨_, _, _, free, _⟩ := x.place
  have found := x.find?_of_scan free
  exact ⟨mem_of_find?_eq_some found, find?_some found⟩

def after : Medium where
  fat := x.fat
  disk := x.result
  clusters := x.clusters
  valid := x.valid
  sound := by
    obtain ⟨_, _, _, _, disk, _⟩ := x.place
    rw [disk]
    exact x.sound
  chain := by
    obtain ⟨c, _, zero, _, disk, _⟩ := x.place
    refine x.chain.frame fun a mem => ?_
    have ne : a ≠ c := by
      rintro rfl
      exact entry_ne_zero_of_chain x.chain x.inside mem zero
    rw [disk, nextOf, nextOf, Disk.created,
      entry_put ((x.inside a mem).indexed x.valid) (x.outside x.mem_slots.1)]
    have same : entry x.fat (x.disk.allot x.fat c).pages a = _ := entry_setEntry_ne ne
    rw [same]
  inside := x.inside

theorem dirAt_other {s} (mem : s ∈ x.slots) (ne : s ≠ x.slot) :
    dirAt x.result.pages s = dirAt x.disk.pages s := by
  obtain ⟨c, indexed, _, _, disk, _⟩ := x.place
  rw [disk, Disk.created, dirAt_put_ne (x.aligned x.mem_slots.1) (x.aligned mem) ne
    le_rfl (by rw [length_newEntry])]
  exact dirAt_setEntry indexed (x.outside mem)

theorem hits_other (key : List UInt8 × List UInt8) {s} (mem : s ∈ x.slots)
    (ne : s ≠ x.slot) : x.after.hits key s = x.hits key s := by
  change stops x.result.pages _ _ s = stops x.disk.pages _ _ s
  rw [stops, stops, x.dirAt_other mem ne]

theorem own : (dirAt x.result.pages x.slot).attrib = 0x20 ∧
    (dirAt x.result.pages x.slot).name = (split x.file.text).1 ∧
    (dirAt x.result.pages x.slot).ext = (split x.file.text).2 := by
  obtain ⟨c, _, _, _, disk, _⟩ := x.place
  rw [disk, dirAt_created (x.aligned x.mem_slots.1).fits]
  exact ⟨rfl, (split_eq _).1.symm, (split_eq _).2.symm⟩

theorem mark_ne_zero : (dirAt x.result.pages x.slot).mark ≠ 0 := by
  rw [DirEntry.mark, x.own.2.1]
  exact headD_split_ne_zero

/-- A search that stops nowhere but where it stopped before, or at the new entry. -/
theorem scan_after {p q} {slot} (found : x.scan p = some (some slot))
    (here : q slot = true) (le : ∀ s ∈ x.slots, q s = true → p s = true) :
    x.after.scan q = some (some slot) := by
  refine find?_keep found here fun e mem hit => ?_
  cases e with
  | none => rfl
  | some s =>
    obtain ⟨c, own, event⟩ := mem_flatMap.mp mem
    refine le s (mem_flatMap.mpr ⟨c, own, ?_⟩) hit
    rw [Fat.events, mem_append] at event
    rcases event with event | event
    · exact (List.mem_map_of_injective (some_injective _)).mp event
    · split at event <;> simp at event

theorem find_own (complete : x.file.Complete) :
    x.after.find x.file.name.key = .ok (some (x.slot, x.new)) x.result := by
  obtain ⟨c, _, _, free, _, new⟩ := x.place
  have ended := x.absent.2
  have key := x.file.split_complete complete
  rw [key] at ended
  have first : x.scan (fun s => unused x.disk.pages s || x.hits x.file.name.key s) =
      some (some x.slot) := by
    have both := find?_or free (q := Option.all (x.hits x.file.name.key)) fun e first => by
      cases e with
      | none => rfl
      | some s => simp [unused, ended s first]
    rw [← both]
    refine congrArg (List.find? · _) (funext fun e => ?_)
    cases e <;> rfl
  rw [new]
  refine x.after.find_of_scan (x.scan_after first ?_ fun s mem hit => ?_) x.mark_ne_zero
  · have found : (dirAt x.result.pages x.slot).matches (split x.file.text).1 (split x.file.text).2 =
        true := matches_created (x.file.findable complete) (by rw [x.own.1]; decide)
          (x.own.2.1.trans (split_eq _).1) (x.own.2.2.trans (split_eq _).2)
    rw [key] at found
    exact Bool.or_eq_true_iff.mpr (.inr found)
  · rcases eq_or_ne s x.slot with rfl | ne
    · rw [x.mem_slots.2, Bool.true_or]
    · rw [Bool.or_eq_true, ← x.hits_other _ mem ne]
      exact .inr hit

theorem not_hit (complete : x.file.Complete) {g : Name} (other : g ≠ x.file.name) :
    x.after.hits g.key x.slot = false := by
  have named : (dirAt x.result.pages x.slot).named g = false := by
    rw [DirEntry.named, x.own.2.1, x.own.2.2, x.file.split_complete complete]
    by_contra same
    simp only [Bool.not_eq_false, Bool.and_eq_true, beq_iff_eq, Name.key,
      append_cancel_right_eq] at same
    exact other (Name.eq same.1.symm same.2.symm)
  rw [Medium.hits, stops, matches_eq g (x.aligned x.mem_slots.1).fits]
  exact Bool.or_eq_false_iff.mpr ⟨beq_false_of_ne x.mark_ne_zero,
    (congrArg (_ && ·) named).trans (Bool.and_false _)⟩

theorem find_others (complete : x.file.Complete) {g} (other : g ≠ x.file.name)
    {found} (before : x.find g.key = .ok (some found) x.disk) :
    x.after.find g.key = .ok (some found) x.result := by
  obtain ⟨slot, ended, mark, rfl⟩ := x.scan_of_find before
  have hit := x.find?_of_scan ended
  have mem := mem_of_find?_eq_some hit
  have hit := find?_some hit
  have ne : slot ≠ x.slot := by
    rintro rfl
    have file := isFile_of_unused x.mem_slots.2
    rw [isFile_of_matches (by simpa [Medium.hits, stops, mark] using hit)] at file
    cases file
  have same := x.dirAt_other mem ne
  rw [← same] at mark ⊢
  refine x.after.find_of_scan (x.scan_after ended ?_ fun s mem' hit' => ?_) mark
  · rw [x.hits_other _ mem ne, hit]
  · rcases eq_or_ne s x.slot with rfl | ne'
    · rw [x.not_hit complete other] at hit'
      cases hit'
    · rw [← x.hits_other _ mem' ne', hit']

end Creation

theorem creates_first : (match create small 1 spacedName.text Volume.anyEntry
      (Disk.formatted small) with
    | .ok (some _) _ => true
    | _ => false) = true := by
  decide +kernel

def firstFile : Creation :=
  match h : create small 1 spacedName.text Volume.anyEntry (Disk.formatted small) with
  | .ok (some (slot, new)) result =>
    { Medium.ofSmall (Disk.formatted small) (fun _ => rfl) (by decide +kernel) with
      file := spacedName, dir := Volume.anyEntry, slot, new, result, created := h }
  | .ok none _ | .error _ _ => absurd creates_first (by simp [h])

/-- The allocation is right if and only if the first free entry that the search comes to is that of
a cluster of the volume, or there is none and no cluster is free. -/
theorem allocation_iff (v : Drive) :
    (∃ r d', findEmptyCluster v.fat v.disk = .ok r d' ∧
      (r = 1 ∧ (∀ c, v.fat.Inside c → entry v.fat v.disk.pages c ≠ 0) ∨
        v.fat.Inside r ∧ entry v.fat v.disk.pages r = 0 ∧
          entry v.fat d'.pages = Function.update (entry v.fat v.disk.pages) r endOfChain)) ↔
    match vacant v.fat v.disk with
    | [] => ∀ c, v.fat.Inside c → entry v.fat v.disk.pages c ≠ 0
    | c :: _ => v.fat.Inside c ∨ c = 1 ∧ ∀ c, v.fat.Inside c → entry v.fat v.disk.pages c ≠ 0 := by
  cases clusters : vacant v.fat v.disk with
  | nil =>
    rw [findEmptyCluster_none v.valid v.sound clusters]
    constructor
    · rintro ⟨_, _, ⟨⟩, ⟨_, full⟩ | ⟨inside, _⟩⟩
      · exact full
      · exact absurd inside.1 (by decide)
    · exact fun full => ⟨_, _, rfl, .inl ⟨rfl, full⟩⟩
  | cons c rest =>
    obtain ⟨_, _, zero⟩ := (mem_vacant v.valid).mp (clusters ▸ mem_cons_self)
    rw [findEmptyCluster_some v.valid v.sound clusters]
    constructor
    · rintro ⟨_, _, ⟨⟩, one | ⟨inside, _⟩⟩
      · exact .inr one
      · exact .inl inside
    · rintro (inside | one)
      · exact ⟨_, _, rfl, .inr ⟨inside, zero, entry_setEntry⟩⟩
      · exact ⟨_, _, rfl, .inl one⟩

/-- Cluster 5 alone is free. -/
def lastFree : Drive := ⟨small, crowded small [(5, 0)], Volume.valid_small, fun _ => rfl⟩

theorem allocation_last : ∃ r d', findEmptyCluster small (crowded small [(5, 0)]) = .ok r d' ∧
    (r = 1 ∧ (∀ c, small.Inside c → entry small lastFree.disk.pages c ≠ 0) ∨
      small.Inside r ∧ entry small lastFree.disk.pages r = 0 ∧
        entry small d'.pages = Function.update (entry small lastFree.disk.pages) r endOfChain) := by
  have vacant : vacant small lastFree.disk = [5] := by decide +kernel
  refine (allocation_iff lastFree).mpr ?_
  rw [show Fat32.vacant lastFree.fat lastFree.disk = [5] from vacant]
  exact .inl ⟨by decide, by decide⟩

/-- The last free cluster is taken, cluster 3 is freed, and no free cluster is found. When all
clusters are taken, the number behind the last one is returned. -/
theorem cluster_missed :
    (match (do
        let first ← findEmptyCluster small
        freeCluster small 3
        return (first, ← findEmptyCluster small)) (crowded small [(5, 0)]) with
      | .ok r d => some (r, entry small d.pages 3)
      | _ => none) = some ((5, 1), 0) ∧
    (match findEmptyCluster full (crowded full [(3, 0)]) with
      | .ok r _ => some r
      | _ => none) = some full.maxClust := by
  decide +kernel

end Fat32
