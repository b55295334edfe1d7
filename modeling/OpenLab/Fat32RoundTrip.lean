import OpenLab.Fat32Content

/-!
# Reading a file back

`file_read` gives the bytes of a file in order. It compares the size with an offset in the current
sector, so it goes on behind the end of a file of more than one sector.
-/

namespace Fat32

open ByteFields (div_mod_next div_mod_last)
open PageCache (Block PageArray cpy bytes pageSize length_bytes_of_le bytes_bytes cpy_page)
open LinkedCells List

variable {fat : Fat} {d : Disk} {cells : Owner → List UInt32} {f : File} {c : UInt32}
  {cs : List UInt32} {n k l size : Nat} {w : List UInt8}

def File.loaded (f : File) (pages : PageArray) (l : Nat) : File :=
  if l ≠ 0 ∧ f.bufferIndex = 0 then { f with pbuf := pages f.currentSector } else f

def File.used (f : File) (l : Nat) : File := { f with bufferIndex := f.bufferIndex + l }

theorem fetch_sound (sound : d.Sound) : fetch l (f, d) = .ok () (f.loaded d.pages l, d) := by
  change (if l ≠ 0 ∧ f.bufferIndex = 0 then _ else _ : FileOp Unit) (f, d) = _
  unfold File.loaded
  split
  · rw [bind_ok (onDisk_ok (readBytes_sound sound (by simp)))]
    have page : cpy (bytes (d.pages f.currentSector) 0 pageSize) f.pbuf 0 =
      d.pages f.currentSector := cpy_page
    exact congrArg (fun content => EStateM.Result.ok () ({ f with pbuf := content }, d)) page
  · rfl

def File.forward (f : File) (fat : Fat) (next : UInt32) : File :=
  if f.sectorIndex + 1 = fat.sectPerClust then f.enter fat next else f.next

theorem getNextCluster_ok (fat : Fat) (c : UInt32) (sound : d.Sound) :
    ∃ next, getNextCluster fat c d = .ok next d := by
  unfold getNextCluster
  split
  · exact ⟨1, rfl⟩
  · rw [bind_ok (fsRead_sound sound),
      if_neg (not_not.mpr (length_bytes_of_le (entryOffset_fits c)))]
    exact ⟨_, rfl⟩

theorem advance_sound {next} (found : getNextCluster fat f.currentCluster d = .ok next d) :
    advance fat (f, d) = .ok () (f.forward fat next, d) := by
  change (if f.sectorIndex + 1 = fat.sectPerClust then _ else _ : FileOp Unit) (f.stuck, d) = _
  unfold File.forward
  split
  · rw [bind_ok (onDisk_ok found)]
    rfl
  · rfl

theorem fileRead_within (sound : d.Sound) {share} (cut : f.share size = share)
    (enough : ¬share.1 < share.2) : fileRead fat size (f, d) =
      (⟨none, share.2, bytes (f.loaded d.pages share.1).pbuf f.bufferIndex share.1⟩,
        ((f.loaded d.pages share.1).used share.1, d)) := by
  have index : (f.loaded d.pages share.1).bufferIndex = f.bufferIndex := by
    unfold File.loaded
    split <;> rfl
  rw [fileRead]
  simp only [cut, fetch_sound sound, enough, if_false, index]
  rw [File.used, index]

theorem fileRead_beyond (sound : d.Sound) {share} (cut : f.share size = share)
    (more : share.1 < share.2) {next}
    (found : getNextCluster fat f.currentCluster d = .ok next d) :
    fileRead fat size (f, d) =
      let g := (f.loaded d.pages share.1).used share.1
      let r := fileRead fat (share.2 - share.1) ((g.forward fat next).rewind, d)
      (⟨r.1.error, r.1.size + share.1,
        bytes (f.loaded d.pages share.1).pbuf f.bufferIndex share.1 ++ r.1.data⟩, r.2) := by
  have index : (f.loaded d.pages share.1).bufferIndex = f.bufferIndex := by
    unfold File.loaded
    split <;> rfl
  have cluster : (f.loaded d.pages share.1).currentCluster = f.currentCluster := by
    unfold File.loaded
    split <;> rfl
  have found : getNextCluster fat ((f.loaded d.pages share.1).used share.1).currentCluster d =
      .ok next d := by
    change getNextCluster fat (f.loaded d.pages share.1).currentCluster d = _
    rw [cluster]
    exact found
  have moved := advance_sound found
  rw [File.used, index] at moved
  rw [fileRead]
  simp only [cut, fetch_sound sound, more, if_true, index, moved]
  rw [File.used, index]

/-- The clusters of a closed file hold its bytes, 512 in each sector. -/
structure Held (fat : Fat) (pages : PageArray) (cs : List UInt32) (w : List UInt8) : Prop where
  content : ∀ k b l, b + l ≤ 512 → 512 * k + b + l ≤ w.length →
    bytes (pages (fat.sectorAt cs k)) b l = (w.drop (512 * k + b)).take l
  clusters : cs.length = fullSectors w.length / fat.sectPerClust.toNat + 1
  inside : ∀ c ∈ cs, fat.Inside c
  next : ∀ j, j + 1 < cs.length → entry fat pages (cs.getD j 0) = cs.getD (j + 1) 0

/-- A file stands in the `k`-th sector of its chain. -/
structure Reading (fat : Fat) (pages : PageArray) (cs : List UInt32) (k : Nat)
    (f : File) : Prop where
  fits : f.bufferIndex ≤ 512
  current : f.currentCluster = cs.getD (k / fat.sectPerClust.toNat) 0
  index : f.sectorIndex.toNat = k % fat.sectPerClust.toNat
  sector : f.currentSector = fat.sectorAt cs k
  loaded : 0 < f.bufferIndex → f.pbuf = pages f.currentSector

namespace Reading

variable {pages : PageArray}

theorem pbuf_loaded (h : Reading fat pages cs k f) (some : l ≠ 0) :
    (f.loaded pages l).pbuf = pages (fat.sectorAt cs k) := by
  rw [← h.sector]
  unfold File.loaded
  split
  · rfl
  · rename_i late
    exact h.loaded (by omega)

theorem used (h : Reading fat pages cs k f) (fits : f.bufferIndex + l ≤ 512) :
    Reading fat pages cs k ((f.loaded pages l).used l) := by
  have loaded : 0 < f.bufferIndex + l → (f.loaded pages l).pbuf = pages f.currentSector := by
    intro positive
    unfold File.loaded
    split
    · rfl
    · exact h.loaded (by omega)
  unfold File.loaded at loaded ⊢
  split
  · exact ⟨fits, h.current, h.index, h.sector, fun _ => rfl⟩
  · rename_i late
    rw [if_neg late] at loaded
    exact ⟨fits, h.current, h.index, h.sector, loaded⟩

theorem data (h : Reading fat pages cs k f) (held : Held fat pages cs w)
    (fits : f.bufferIndex + l ≤ 512) (within : 512 * k + f.bufferIndex + l ≤ w.length) :
    bytes (f.loaded pages l).pbuf f.bufferIndex l = (w.drop (512 * k + f.bufferIndex)).take l := by
  rcases Nat.eq_zero_or_pos l with rfl | positive
  · simp [bytes]
  · rw [h.pbuf_loaded positive.ne']
    exact held.content k _ l fits within

theorem forward (h : Reading fat pages cs k f) (valid : fat.Valid) (held : Held fat pages cs w)
    (more : 512 * (k + 1) < w.length) :
    Reading fat pages cs (k + 1)
      ((f.forward fat (entry fat pages f.currentCluster)).rewind) := by
  have low : k % fat.sectPerClust.toNat < fat.sectPerClust.toNat := Nat.mod_lt _ valid.clusters
  have small := fat.sectPerClust.toNat_lt
  have next : (f.sectorIndex + 1).toNat = k % fat.sectPerClust.toNat + 1 := by
    rw [UInt8.toNat_add, UInt8.toNat_one, h.index, Nat.mod_eq_of_lt]
    omega
  have within : (k + 1) / fat.sectPerClust.toNat < cs.length := by
    rw [held.clusters]
    have : k + 1 ≤ fullSectors w.length := by
      unfold fullSectors
      omega
    have := Nat.div_le_div_right (c := fat.sectPerClust.toNat) this
    omega
  unfold File.forward
  split
  · rename_i last
    obtain ⟨quotient, remainder⟩ :=
      div_mod_last (n := k) (p := fat.sectPerClust.toNat) (by rw [← next, last])
    have cluster : entry fat pages f.currentCluster =
        cs.getD ((k + 1) / fat.sectPerClust.toNat) 0 := by
      rw [h.current, quotient]
      exact held.next _ (by omega)
    refine ⟨Nat.zero_le _, cluster, remainder.symm, ?_,
      fun positive => absurd positive (lt_irrefl 0)⟩
    change fat.firstSector (entry fat pages f.currentCluster) = _
    rw [cluster, Fat.sectorAt, remainder]
    simp
  · rename_i inner
    have different : k % fat.sectPerClust.toNat + 1 < fat.sectPerClust.toNat := by
      have : k % fat.sectPerClust.toNat + 1 ≠ fat.sectPerClust.toNat := by
        rw [← next]
        exact fun same => inner (UInt8.toNat_inj.mp same)
      omega
    obtain ⟨quotient, remainder⟩ := div_mod_next different
    refine ⟨Nat.zero_le _, ?_, ?_, ?_, fun positive => absurd positive (lt_irrefl 0)⟩
    · rw [quotient]
      exact h.current
    · change (f.sectorIndex + 1).toNat = _
      rw [remainder, next]
    · change f.currentSector + 1 = _
      rw [h.sector, Fat.sectorAt, Fat.sectorAt, quotient, remainder, UInt32.ofNat_add,
        ← UInt32.add_assoc]
      rfl

end Reading

theorem share_within (size : Nat)
    (within : f.bufferIndex + min size (pageSize - f.bufferIndex) ≤ f.dir.size.toNat) :
    f.share size = (min size (pageSize - f.bufferIndex), size) := by
  exact if_neg (by omega)

theorem dir_forward {next} : (f.forward fat next).dir = f.dir := by
  unfold File.forward
  split <;> rfl

theorem dir_loaded {pages} : (f.loaded pages l).dir = f.dir := by
  unfold File.loaded
  split <;> rfl

theorem index_used {pages} :
    ((f.loaded pages l).used l).bufferIndex = f.bufferIndex + l := by
  unfold File.used File.loaded
  split <;> rfl

theorem fileRead_held (valid : fat.Valid) (sound : d.Sound) (held : Held fat d.pages cs w)
    (reading : Reading fat d.pages cs k f) (covered : f.dir.size.toNat ≤ w.length)
    (within : 512 * k + f.bufferIndex + size ≤ f.dir.size.toNat) :
    ∃ g k', fileRead fat size (f, d) =
        (⟨none, size, (w.drop (512 * k + f.bufferIndex)).take size⟩, (g, d)) ∧
      Reading fat d.pages cs k' g ∧ 512 * k' + g.bufferIndex = 512 * k + f.bufferIndex + size ∧
      g.dir = f.dir := by
  -- a full buffer gives nothing, so it is not the size alone that gets smaller
  induction measure : size + f.bufferIndex using Nat.strong_induction_on generalizing size k f with
  | _ m ih =>
    have fits := reading.fits
    have share := share_within (f := f) size (by omega)
    generalize count : min size (pageSize - f.bufferIndex) = l at share
    unfold pageSize at count
    have data := reading.data held (l := l) (by omega) (by omega)
    have used := reading.used (l := l) (by omega)
    have index : ((f.loaded d.pages l).used l).bufferIndex = f.bufferIndex + l := index_used
    have dir : ((f.loaded d.pages l).used l).dir = f.dir := dir_loaded
    by_cases more : l < size
    · have cluster : fat.Inside f.currentCluster := by
        have short : k / fat.sectPerClust.toNat < cs.length := by
          rw [held.clusters]
          have : k ≤ fullSectors w.length := by
            unfold fullSectors
            omega
          have := Nat.div_le_div_right (c := fat.sectPerClust.toNat) this
          omega
        rw [reading.current, getD_eq_getElem _ _ short]
        exact held.inside _ (getElem_mem short)
      have same : ((f.loaded d.pages l).used l).currentCluster = f.currentCluster := by
        unfold File.used File.loaded
        split <;> rfl
      have next := used.forward valid held (by omega)
      rw [same] at next
      have start : ((((f.loaded d.pages l).used l).forward fat
          (entry fat d.pages f.currentCluster)).rewind).bufferIndex = 0 := rfl
      have dir' : ((((f.loaded d.pages l).used l).forward fat
          (entry fat d.pages f.currentCluster)).rewind).dir = f.dir := by
        change (((f.loaded d.pages l).used l).forward fat _).dir = _
        rw [dir_forward, dir]
      obtain ⟨g, k', result, reading', position, dir''⟩ :=
        ih (size - l + 0) (by omega) next (by rw [dir']; exact covered)
          (show 512 * (k + 1) + _ + (size - l) ≤ _ by rw [dir', start]; omega) (by rw [start])
      rw [start] at result position
      refine ⟨g, k', ?_, reading', by omega, dir''.trans dir'⟩
      rw [fileRead_beyond sound share more (getNextCluster_sound sound cluster), data]
      simp only [result]
      rw [show size - l + l = size by omega]
      congr 2
      have position : 512 * (k + 1) + 0 = 512 * k + f.bufferIndex + l := by omega
      rw [position]
      generalize 512 * k + f.bufferIndex = p
      rw [← drop_drop, ← take_add, Nat.add_sub_cancel' more.le]
    · refine ⟨_, k, ?_, used, by omega, dir⟩
      have all : l = size := by omega
      rw [fileRead_within sound share more, data, all]

theorem fileRead_small (size : Nat) (sound : d.Sound) (held : Held fat d.pages cs w)
    (reading : Reading fat d.pages cs 0 f) (covered : f.dir.size.toNat ≤ w.length)
    (small : f.dir.size.toNat < 512) (within : f.bufferIndex ≤ f.dir.size.toNat)
    (short : f.dir.size.toNat < f.bufferIndex + size) :
    ∃ g, fileRead fat size (f, d) = (⟨none, f.dir.size.toNat - f.bufferIndex,
        (w.drop f.bufferIndex).take (f.dir.size.toNat - f.bufferIndex)⟩, (g, d)) ∧
      Reading fat d.pages cs 0 g ∧ g.bufferIndex = f.dir.size.toNat ∧ g.dir = f.dir := by
  have rest : (f.dir.size - UInt32.ofNat f.bufferIndex).toUInt16.toNat =
      f.dir.size.toNat - f.bufferIndex := by
    have index : (UInt32.ofNat f.bufferIndex).toNat = f.bufferIndex := toNat_ofNat (by omega)
    have difference : (f.dir.size - UInt32.ofNat f.bufferIndex).toNat =
        f.dir.size.toNat - f.bufferIndex := by
      rw [UInt32.toNat_sub_of_le _ _ (UInt32.le_iff_toNat_le.mpr (by omega)), index]
    rw [UInt32.toNat_toUInt16, difference, Nat.mod_eq_of_lt]
    omega
  have share : f.share size =
      (f.dir.size.toNat - f.bufferIndex, f.dir.size.toNat - f.bufferIndex) := by
    unfold File.share
    simp only [rest]
    exact if_pos (by unfold pageSize; omega)
  have data := reading.data held (l := f.dir.size.toNat - f.bufferIndex) (by omega) (by omega)
  rw [Nat.mul_zero, Nat.zero_add] at data
  refine ⟨(f.loaded d.pages (f.dir.size.toNat - f.bufferIndex)).used
    (f.dir.size.toNat - f.bufferIndex), ?_, reading.used (by omega), ?_, dir_loaded⟩
  · rw [fileRead_within sound share (lt_irrefl _), data]
  · rw [index_used]
    omega

theorem fileRead_large (fat : Fat) (size : Nat) (sound : d.Sound) (fits : f.bufferIndex ≤ 512)
    (large : 512 ≤ f.dir.size.toNat) :
    ∃ g data, fileRead fat size (f, d) = (⟨none, size, data⟩, (g, d)) ∧ g.bufferIndex ≤ 512 ∧
      g.dir = f.dir := by
  induction measure : size + f.bufferIndex using Nat.strong_induction_on generalizing size f with
  | _ m ih =>
    have share := share_within (f := f) size (by unfold pageSize; omega)
    generalize count : min size (pageSize - f.bufferIndex) = l at share
    unfold pageSize at count
    have index : ((f.loaded d.pages l).used l).bufferIndex = f.bufferIndex + l := index_used
    have dir : ((f.loaded d.pages l).used l).dir = f.dir := dir_loaded
    by_cases more : l < size
    · obtain ⟨next, found⟩ := getNextCluster_ok fat f.currentCluster sound
      have start : ((((f.loaded d.pages l).used l).forward fat next).rewind).bufferIndex = 0 := rfl
      have dir' : ((((f.loaded d.pages l).used l).forward fat next).rewind).dir = f.dir := by
        change (((f.loaded d.pages l).used l).forward fat _).dir = _
        rw [dir_forward, dir]
      obtain ⟨g, data, result, fits', dir''⟩ :=
        ih (size - l + 0) (by omega) (f := (((f.loaded d.pages l).used l).forward fat next).rewind)
          (size - l) (by omega) (by rw [dir']; exact large) (by rw [start])
      refine ⟨g, bytes (f.loaded d.pages l).pbuf f.bufferIndex l ++ data, ?_,
        fits', dir''.trans dir'⟩
      rw [fileRead_beyond sound share more found]
      simp only [result]
      rw [show size - l + l = size by omega]
    · exact ⟨_, _, fileRead_within sound share more, by rw [index]; omega, dir⟩

def readAll (fat : Fat) : List Nat → File × Disk → List ReadReply
  | [], _ => []
  | size :: rest, s => (fileRead fat size s).1 :: readAll fat rest (fileRead fat size s).2

/-- The replies that calls for so many bytes each should get from the byte `p` of a file on: what is
left of the file, if it is less. -/
def replies (content : List UInt8) : Nat → List Nat → List ReadReply
  | _, [] => []
  | p, size :: rest =>
    let count := min size (content.length - p)
    ⟨none, count, (content.drop p).take count⟩ :: replies content (p + count) rest

theorem sum_replies {content} {sizes} : ∀ {p : Nat}, p ≤ content.length →
    ((replies content p sizes).map ReadReply.size).sum = min sizes.sum (content.length - p) := by
  induction sizes with
  | nil =>
    intro p _
    simp [replies]
  | cons size rest ih =>
    intro p le
    simp only [replies, map_cons, sum_cons]
    rw [ih (by omega)]
    omega

section Calls

variable (valid : fat.Valid) (sound : d.Sound) (held : Held fat d.pages cs w)

include valid sound held in
theorem readAll_eq (sizes : List Nat) {content} :
    ∀ {k : Nat} {f : File}, Reading fat d.pages cs k f → content = w.take f.dir.size.toNat →
      f.dir.size.toNat ≤ w.length → 512 * k + f.bufferIndex ≤ f.dir.size.toNat →
      (f.dir.size.toNat < 512 ∨ 512 * k + f.bufferIndex + sizes.sum ≤ f.dir.size.toNat) →
      readAll fat sizes (f, d) = replies content (512 * k + f.bufferIndex) sizes := by
  induction sizes with
  | nil =>
    intro k f _ _ _ _ _
    rfl
  | cons size rest ih =>
    intro k f reading prefix_ covered position enough
    have length : content.length = f.dir.size.toNat := by simp [prefix_, covered]
    rw [sum_cons] at enough
    rw [readAll, replies, length]
    by_cases within : 512 * k + f.bufferIndex + size ≤ f.dir.size.toNat
    · obtain ⟨g, k', result, reading', moved, dir⟩ :=
        fileRead_held valid sound held reading covered within
      have count : min size (f.dir.size.toNat - (512 * k + f.bufferIndex)) = size := by omega
      have tail := ih reading' (by rw [dir]; exact prefix_) (by rw [dir]; exact covered)
        (by rw [dir]; omega) (by rw [dir]; omega)
      rw [moved] at tail
      simp only [result, count]
      rw [tail, prefix_, drop_take, take_take, Nat.min_eq_left (by omega)]
    · have small : f.dir.size.toNat < 512 := by omega
      obtain rfl : k = 0 := by omega
      obtain ⟨g, result, reading', moved, dir⟩ :=
        fileRead_small size sound held reading covered small (by omega) (by omega)
      have count : min size (f.dir.size.toNat - f.bufferIndex) =
          f.dir.size.toNat - f.bufferIndex := by omega
      have tail := ih reading' (by rw [dir]; exact prefix_) (by rw [dir]; exact covered)
        (by rw [dir]; omega) (by rw [dir]; omega)
      rw [Nat.mul_zero, Nat.zero_add, moved] at tail
      simp only [result, Nat.mul_zero, Nat.zero_add, count]
      rw [tail, prefix_, drop_take, take_take, Nat.min_self,
        Nat.add_sub_cancel' (by omega)]

include sound in
theorem sum_readAll {sizes} : ∀ {f : File}, f.bufferIndex ≤ 512 →
    512 ≤ f.dir.size.toNat →
    ((readAll fat sizes (f, d)).map ReadReply.size).sum = sizes.sum := by
  induction sizes with
  | nil =>
    intro f _ _
    rfl
  | cons size rest ih =>
    intro f fits large
    obtain ⟨g, data, result, fits', dir⟩ := fileRead_large fat size sound fits large
    rw [readAll, map_cons, sum_cons, sum_cons, result]
    rw [ih fits' (by rw [dir]; exact large)]

include valid sound held in
theorem readAll_iff (sizes : List Nat) (reading : Reading fat d.pages cs 0 f)
    (start : f.bufferIndex = 0) (covered : f.dir.size.toNat ≤ w.length) :
    readAll fat sizes (f, d) = replies (w.take f.dir.size.toNat) 0 sizes ↔
      f.dir.size.toNat < 512 ∨ sizes.sum ≤ f.dir.size.toNat := by
  constructor
  · intro equal
    by_contra wrong
    rw [not_or, not_lt, not_le] at wrong
    have sums := congrArg (fun l => (l.map ReadReply.size).sum) equal
    beta_reduce at sums
    rw [sum_readAll sound (by omega) wrong.1, sum_replies (Nat.zero_le _)] at sums
    simp at sums
    omega
  · intro enough
    have all := readAll_eq valid sound held sizes reading rfl covered (by omega) (by omega)
    rw [start] at all
    exact all

end Calls

end Fat32
