import OpenLab.Fat32Table
import OpenLab.LinkedCells

/-!
# The root directory

The root directory is the chain of clusters from cluster 2 on; `dirAt` is an entry of it as a
function of the pages.
-/

namespace Fat32

open PageCache (Block PageArray cpy bytes pageSize bytes_cpy_part bytes_cpy_self length_bytes_of_le
  bytes_bytes)
open LinkedCells List

def nextOf (table : UInt32 → UInt32) (c : UInt32) : Option UInt32 :=
  if isEnd (table c) then none else some (table c)

def root (fat : Fat) (pages : PageArray) : List UInt32 :=
  trace (nextOf (entry fat pages)) fat.maxClust.toNat (some 2)

def directory (fat : Fat) (pages : PageArray) : List Slot := (root fat pages).flatMap fat.slots

def dirAt (pages : PageArray) (slot : Slot) : DirEntry :=
  let x := pages slot.sector
  .ofBytes (bytes x slot.index 8) (bytes x (slot.index + 8) 3) (bytes x (slot.index + 11) 1)
    (bytes x (slot.index + 13) 5) (bytes x (slot.index + 20) 2) (bytes x (slot.index + 26) 2)
    (bytes x (slot.index + 28) 4)

/-- The first byte of the name: zero behind the last entry, and a mark of its own in a deleted
one. -/
def DirEntry.mark (dir : DirEntry) : UInt8 := dir.name.headD 0

def DirEntry.isFile (dir : DirEntry) : Bool :=
  dir.mark != 0 && dir.mark != deleted && dir.attrib &&& 0x0F != 0x0F

/-- A place with room for an entry that does not overlap another one. -/
def Slot.Aligned (slot : Slot) : Prop := ∃ k, k < 16 ∧ slot.index = 32 * k

def stops (pages : PageArray) (name ext : List UInt8) (slot : Slot) : Bool :=
  (dirAt pages slot).mark == 0 || (dirAt pages slot).matches name ext

def unused (pages : PageArray) (slot : Slot) : Bool :=
  (dirAt pages slot).mark == 0 || (dirAt pages slot).mark == deleted

section Places

variable {fat : Fat} {slot slot' : Slot} {c page : UInt32}

theorem Slot.Aligned.fits (h : slot.Aligned) : slot.index + 32 ≤ pageSize := by
  obtain ⟨k, low, index⟩ := h
  unfold pageSize
  omega

theorem Slot.Aligned.apart (h : slot.Aligned) (h' : slot'.Aligned) (ne : slot ≠ slot')
    (same : slot.sector = slot'.sector) :
    slot.index + 32 ≤ slot'.index ∨ slot'.index + 32 ≤ slot.index := by
  obtain ⟨k, _, index⟩ := h
  obtain ⟨k', _, index'⟩ := h'
  have differ : slot.index ≠ slot'.index := fun equal => by
    cases slot
    cases slot'
    simp_all
  omega

theorem Fat.rootSector_eq (valid : fat.Valid) : fat.rootSector c = fat.firstSector c := by
  rw [rootSector, firstSector, valid.rootStart, UInt32.mul_comm]

theorem mem_slots (valid : fat.Valid) :
    slot ∈ fat.slots c ↔ fat.InCluster c slot.sector ∧ slot.Aligned := by
  simp only [Fat.slots, mem_flatMap, mem_map, mem_range, Fat.rootSector_eq valid]
  constructor
  · rintro ⟨i, low, k, low', rfl⟩
    exact ⟨⟨i, low, rfl⟩, ⟨k, low', rfl⟩⟩
  · rintro ⟨⟨i, low, sector⟩, ⟨k, low', index⟩⟩
    refine ⟨i, low, k, low', ?_⟩
    rw [← sector, ← index]

theorem aligned_of_mem {pages} (valid : fat.Valid) (h : slot ∈ directory fat pages) :
    slot.Aligned := by
  obtain ⟨c, _, mem⟩ := mem_flatMap.mp h
  exact ((mem_slots valid).mp mem).2

end Places

section Writes

variable {d : Disk} {slot : Slot} {page : UInt32} {offset : Nat} {data : List UInt8}

theorem dirAt_congr {pages pages'}
    (same : ∀ k : Fin pageSize, slot.index ≤ k.val → k.val < slot.index + 32 →
      pages' slot.sector k = pages slot.sector k) :
    dirAt pages' slot = dirAt pages slot := by
  have part : ∀ start n, start + n ≤ 32 → bytes (pages' slot.sector) (slot.index + start) n =
      bytes (pages slot.sector) (slot.index + start) n := fun start n fits =>
    PageCache.bytes_congr fun k low high => same k (by omega) (by omega)
  have first := part 0 8 (by decide)
  rw [Nat.add_zero] at first
  simp [dirAt, first, part 8 3 (by decide), part 11 1 (by decide), part 13 5 (by decide),
    part 20 2 (by decide), part 26 2 (by decide), part 28 4 (by decide)]

theorem dirAt_put
    (apart : page = slot.sector → slot.index + 32 ≤ offset ∨ offset + data.length ≤ slot.index) :
    dirAt (d.put page offset data).pages slot = dirAt d.pages slot := by
  refine dirAt_congr fun k low high => ?_
  rcases eq_or_ne page slot.sector with same | ne
  · rw [← same, Disk.put_self]
    have := apart same
    exact PageCache.cpy_outside (by omega)
  · rw [Disk.put_ne ne.symm]

theorem bytes_entry {start n} (fits : slot.index + 32 ≤ pageSize) (whole : data.length = 32)
    (within : start + n ≤ 32) :
    bytes ((d.put slot.sector slot.index data).pages slot.sector) (slot.index + start) n =
      (data.drop start).take n := by
  rw [Disk.put_self, bytes_cpy_part (by omega) (by omega) (by omega), Nat.add_sub_cancel_left]

theorem read_start (v : UInt32) :
    (read16 [(v >>> 16).toUInt8, (v >>> 24).toUInt8]).toUInt32 <<< 16 |||
      (read16 [v.toUInt8, (v >>> 8).toUInt8]).toUInt32 = v := by
  apply UInt32.eq_of_toBitVec_eq
  simp only [read16, getD_cons_zero, getD_cons_succ]
  ext i hi
  simp [-UInt32.toUInt32_toUInt8, -UInt32.toUInt16_toUInt8, -UInt16.toUInt32_shiftLeft,
    -UInt16.toUInt32_or, -UInt8.toUInt32_toUInt16]
  grind

theorem dirAt_newEntry {name ext} {start}
    (fits : slot.index + 32 ≤ pageSize) (long : 8 ≤ name.length) (long' : 3 ≤ ext.length) :
    dirAt (d.put slot.sector slot.index (newEntry name ext start)).pages slot =
      .ofBytes (name.take 8) (ext.take 3) [0x20] [0, 0, 0, 0, 0]
        [(start >>> 16).toUInt8, (start >>> 24).toUInt8] [start.toUInt8, (start >>> 8).toUInt8]
        [0, 0, 0, 0] := by
  have eight : (name.take 8).length = 8 := by simp [long]
  have three : (ext.take 3).length = 3 := by simp [long']
  have whole : (newEntry name ext start).length = 32 := by simp [newEntry, long, long']
  have part : ∀ a n, a + n ≤ 32 → bytes ((d.put slot.sector slot.index
      (newEntry name ext start)).pages slot.sector) (slot.index + a) n =
      ((newEntry name ext start).drop a).take n := fun _ _ => bytes_entry fits whole
  have first := part 0 8 (by decide)
  rw [Nat.add_zero] at first
  simp only [dirAt, first, part 8 3 (by decide), part 11 1 (by decide), part 13 5 (by decide),
    part 20 2 (by decide), part 26 2 (by decide), part 28 4 (by decide)]
  unfold newEntry
  generalize name.take 8 = n at eight
  generalize ext.take 3 = e at three
  simp [drop_append, drop_of_length_le, take_of_length_le, eight, three]

theorem dirAt_size {v} (fits : slot.index + 32 ≤ pageSize) :
    dirAt (d.put slot.sector (slot.index + 28) (write32 v)).pages slot =
      { dirAt d.pages slot with size := v } := by
  have part : ∀ start n, start + n ≤ 28 → bytes ((d.put slot.sector (slot.index + 28)
      (write32 v)).pages slot.sector) (slot.index + start) n =
      bytes (d.pages slot.sector) (slot.index + start) n := fun start n within =>
    Disk.bytes_put fun _ => .inl (by omega)
  have size : bytes ((d.put slot.sector (slot.index + 28) (write32 v)).pages slot.sector)
      (slot.index + 28) 4 = write32 v := by
    rw [Disk.put_self]
    exact bytes_cpy_self (by rw [length_write32]; omega)
  have first := part 0 8 (by decide)
  simp only [Nat.add_zero] at first
  simp only [dirAt, first, part 8 3 (by decide), part 11 1 (by decide), part 13 5 (by decide),
    part 20 2 (by decide), part 26 2 (by decide), size, DirEntry.ofBytes, read32_write32]

end Writes

section Searches

variable {fat : Fat} {d : Disk} {slot : Slot} {name ext : List UInt8}

theorem readDirEntry_sound (sound : d.Sound) (fits : slot.index + 32 ≤ pageSize) :
    readDirEntry slot d = .ok (dirAt d.pages slot) d := by
  have part : ∀ start n, start + n ≤ 32 → readBytes slot.sector (slot.index + start) n d =
      .ok (bytes (d.pages slot.sector) (slot.index + start) n) d := fun start n within =>
    readBytes_sound sound (by omega)
  have first : readBytes slot.sector slot.index 8 d = .ok (bytes (d.pages slot.sector) slot.index 8)
      d := readBytes_sound sound (by omega)
  rw [readDirEntry, bind_ok first, bind_ok (part 8 3 (by decide)), bind_ok (part 11 1 (by decide)),
    bind_ok (part 13 5 (by decide)), bind_ok (part 20 2 (by decide)),
    bind_ok (part 26 2 (by decide)), bind_ok (part 28 4 (by decide))]
  rfl

theorem mark_eq (fits : slot.index + 32 ≤ pageSize) {pages} :
    (dirAt pages slot).mark = (bytes (pages slot.sector) slot.index 1).headD 0 := by
  have eight : bytes (pages slot.sector) slot.index 8 = bytes (pages slot.sector) slot.index 1 ++
      bytes (pages slot.sector) (slot.index + 1) 7 := PageCache.bytes_append (n := 1) (m := 7)
  have one : (bytes (pages slot.sector) slot.index 1).length = 1 := length_bytes_of_le (by omega)
  obtain ⟨b, single⟩ := length_eq_one_iff.mp one
  simp [DirEntry.mark, dirAt, DirEntry.ofBytes, eight, single]

theorem stops_eq_false {pages} (h : ¬stops pages name ext slot = true) :
    ¬(dirAt pages slot).name.headD 0 = 0 ∧ ¬(dirAt pages slot).matches name ext = true := by
  unfold stops at h
  rw [Bool.or_eq_true, not_or, beq_iff_eq] at h
  exact h

def findResult (slot : Slot) (d : Disk) : EStateM.Result Error Disk (Option (Slot × DirEntry)) :=
  if (dirAt d.pages slot).mark = 0 then .error .fileNotFound d
  else .ok (some (slot, dirAt d.pages slot)) d

theorem findIn_eq {l} (sound : d.Sound) (aligned : ∀ s ∈ l, s.Aligned) :
    findIn name ext l d =
      match l.find? (stops d.pages name ext) with
      | some slot => findResult slot d
      | none => .ok none d := by
  induction l with
  | nil => rfl
  | cons s l ih =>
    rw [findIn, bind_ok (readDirEntry_sound sound (aligned s mem_cons_self).fits)]
    by_cases here : stops d.pages name ext s = true
    · rw [find?_cons_of_pos here]
      by_cases mark : (dirAt d.pages s).mark = 0
      · simp only [findResult, mark, if_true]
        exact congrFun (if_pos mark) d
      · have found : (dirAt d.pages s).matches name ext = true := by
          simpa [stops, mark] using here
        rw [if_neg (show ¬(dirAt d.pages s).name.headD 0 = 0 from mark), if_pos found]
        exact (if_neg mark).symm
    · obtain ⟨mark, other⟩ := stops_eq_false here
      rw [find?_cons_of_neg here, if_neg mark, if_neg other]
      exact ih fun s' mem => aligned s' (mem_cons_of_mem s mem)

structure Walk (fat : Fat) (d : Disk) (c : UInt32) (cs : List UInt32) : Prop where
  chain : Chain (nextOf (entry fat d.pages)) (some c) cs
  inside : ∀ c ∈ cs, fat.Inside c
  /-- no number of a sector is taken for the end of the chain -/
  plain : ∀ c ∈ cs, isEnd (fat.rootSector c + fat.sectPerClust.toUInt32) = false

/-- What a loop over the directory comes to in a cluster: its places and then the end, if the
number of the sector behind it is taken for one. -/
def Fat.events (fat : Fat) (c : UInt32) : List (Option Slot) :=
  (fat.slots c).map some ++
    if isEnd (fat.rootSector c + fat.sectPerClust.toUInt32) then [none] else []

/-- How a loop over these clusters ends that looks for such a place. -/
def scan (fat : Fat) (p : Slot → Bool) (cs : List UInt32) : Option (Option Slot) :=
  (cs.flatMap fat.events).find? (Option.all p)

section Loop

variable {α : Type} {p : Slot → Bool} {loop : Nat → UInt32 → Op (Option α)}
  {hit : Slot → EStateM.Result Error Disk (Option α)}
  {exit : UInt32 → EStateM.Result Error Disk (Option α)} {cs : List UInt32}

theorem scan_cons {c} : scan fat p (c :: cs) =
    match (fat.slots c).find? p with
    | some slot => some (some slot)
    | none => if isEnd (fat.rootSector c + fat.sectPerClust.toUInt32) then some none
      else scan fat p cs := by
  rw [scan, flatMap_cons, Fat.events, find?_append, find?_append, find?_map]
  change ((((fat.slots c).find? p).map some).or _).or _ = _
  cases (fat.slots c).find? p with
  | some slot => rfl
  | none => split <;> rfl

theorem scan_eq : scan fat p cs = some none ∨
    scan fat p cs = ((cs.flatMap fat.slots).find? p).map some := by
  induction cs with
  | nil => exact .inr rfl
  | cons c cs ih =>
    rw [scan_cons, flatMap_cons, find?_append]
    cases (fat.slots c).find? p with
    | some slot => exact .inr rfl
    | none =>
      split_ifs
      · exact .inl rfl
      · exact ih

theorem scan_plain
    (plain : ∀ c ∈ cs, isEnd (fat.rootSector c + fat.sectPerClust.toUInt32) = false)
    (found : (cs.flatMap fat.slots).find? p = some slot) : scan fat p cs = some (some slot) := by
  have ended : scan fat p cs = some none ∨ _ := scan_eq
  rcases ended with early | late
  · obtain ⟨c, mem, here⟩ := mem_flatMap.mp (mem_of_find?_eq_some early)
    simp [Fat.events, plain c mem] at here
  · rw [late, found]
    rfl

/-- A loop over the clusters of a chain, given by what it does in one cluster. -/
theorem loop_scan (zero : ∀ c, loop 0 c d = .ok none d)
    (succ : ∀ fuel c, fat.Inside c → loop (fuel + 1) c d =
      match (fat.slots c).find? p with
      | some slot => hit slot
      | none => if isEnd (fat.rootSector c + fat.sectPerClust.toUInt32) then exit c
        else loop fuel (entry fat d.pages c) d) :
    ∀ {c : UInt32} {fuel : Nat}, Chain (nextOf (entry fat d.pages)) (some c) cs →
      (∀ c ∈ cs, fat.Inside c) → cs.length ≤ fuel →
      match scan fat p cs with
      | none => fuel = cs.length → loop fuel c d = .ok none d
      | some none => ∃ c', loop fuel c d = exit c'
      | some (some slot) => loop fuel c d = hit slot := by
  induction cs with
  | nil =>
    intro c fuel chain
    cases chain
  | cons a cs ih =>
    intro c fuel chain inside enough
    obtain ⟨_, equal, tail⟩ := chain_some_iff.mp chain
    obtain ⟨rfl, rfl⟩ := cons.inj equal
    obtain ⟨fuel, rfl⟩ : ∃ n, fuel = n + 1 := ⟨fuel - 1, by simp at enough; omega⟩
    rw [scan_cons, succ fuel a (inside a mem_cons_self)]
    cases (fat.slots a).find? p with
    | some slot => rfl
    | none =>
      by_cases stop : isEnd (fat.rootSector a + fat.sectPerClust.toUInt32) = true
      · simp only [stop, if_true]
        exact ⟨a, rfl⟩
      · simp only [stop, Bool.false_eq_true, if_false, length_cons, Nat.add_right_cancel_iff]
        unfold nextOf at tail
        split at tail
        · obtain rfl := chain_none_iff.mp tail
          rintro rfl
          exact zero _
        · exact ih tail (fun c' mem => inside c' (mem_cons_of_mem a mem))
            (by simpa using enough)

end Loop

variable {c : UInt32} {fuel : Nat} {cs : List UInt32}

theorem findFrom_scan (name ext : List UInt8) (valid : fat.Valid) (sound : d.Sound)
    (chain : Chain (nextOf (entry fat d.pages)) (some c) cs) (inside : ∀ c ∈ cs, fat.Inside c)
    (enough : cs.length ≤ fuel) : match scan fat (stops d.pages name ext) cs with
    | none => fuel = cs.length → findFrom fat name ext fuel c d = .ok none d
    | some none => ∃ _ : UInt32, findFrom fat name ext fuel c d = .error .fileNotFound d
    | some (some slot) => findFrom fat name ext fuel c d = findResult slot d := by
  refine loop_scan (fun _ => rfl) (fun fuel c inside => ?_) chain inside enough
  have aligned : ∀ s ∈ fat.slots c, s.Aligned := fun s mem => ((mem_slots valid).mp mem).2
  have here : findIn name ext _ d = _ := findIn_eq sound aligned
  rw [findFrom]
  cases found : (fat.slots c).find? (stops d.pages name ext) with
  | some s =>
    simp only [found, findResult] at here ⊢
    by_cases mark : (dirAt d.pages s).mark = 0
    · rw [if_pos mark] at here ⊢
      exact bind_error here
    · rw [if_neg mark] at here ⊢
      exact bind_ok here
  | none =>
    simp only [found] at here
    rw [bind_ok here]
    change (getNextCluster fat c >>= _) d = _
    rw [bind_ok (getNextCluster_sound sound inside)]
    split <;> rfl

theorem findFrom_sound (valid : fat.Valid) (sound : d.Sound) (walk : Walk fat d c cs)
    (enough : cs.length ≤ fuel)
    (found : (cs.flatMap fat.slots).find? (stops d.pages name ext) = some slot) :
    findFrom fat name ext fuel c d = findResult slot d := by
  have search := findFrom_scan name ext valid sound walk.chain walk.inside enough
  rwa [scan_plain walk.plain found] at search

theorem freeIn_eq {l} (sound : d.Sound) (aligned : ∀ s ∈ l, s.Aligned) :
    freeIn l d = .ok (l.find? (unused d.pages)) d := by
  induction l with
  | nil => rfl
  | cons s l ih =>
    have fits := (aligned s mem_cons_self).fits
    have mark : (dirAt d.pages s).mark = _ := mark_eq fits
    rw [freeIn, bind_ok (readBytes_sound sound (by omega)), ← mark]
    by_cases here : unused d.pages s = true
    · rw [find?_cons_of_pos here, if_pos (by simpa [unused] using here)]
      rfl
    · rw [find?_cons_of_neg here, if_neg (by simpa [unused] using here)]
      exact ih fun s' mem => aligned s' (mem_cons_of_mem s mem)

theorem freeFrom_scan (valid : fat.Valid) (sound : d.Sound)
    (chain : Chain (nextOf (entry fat d.pages)) (some c) cs) (inside : ∀ c ∈ cs, fat.Inside c)
    (enough : cs.length ≤ fuel) : match scan fat (unused d.pages) cs with
    | none => fuel = cs.length → freeFrom fat fuel c d = .ok none d
    | some none => ∃ c', freeFrom fat fuel c d =
        .ok (some ⟨fat.rootSector c' + fat.sectPerClust.toUInt32, pageSize⟩) d
    | some (some slot) => freeFrom fat fuel c d = .ok (some slot) d := by
  refine loop_scan (fun _ => rfl) (fun fuel c inside => ?_) chain inside enough
  rw [freeFrom, bind_ok (freeIn_eq sound fun s mem => ((mem_slots valid).mp mem).2)]
  cases (fat.slots c).find? (unused d.pages) with
  | some s => rfl
  | none =>
    change (getNextCluster fat c >>= _) d = _
    rw [bind_ok (getNextCluster_sound sound inside)]
    split <;> rfl

theorem freeFrom_sound (valid : fat.Valid) (sound : d.Sound) (walk : Walk fat d c cs)
    (enough : cs.length ≤ fuel)
    (found : (cs.flatMap fat.slots).find? (unused d.pages) = some slot) :
    freeFrom fat fuel c d = .ok (some slot) d := by
  have search := freeFrom_scan valid sound walk.chain walk.inside enough
  rwa [scan_plain walk.plain found] at search

end Searches

end Fat32
