import OpenLab.Fat32Write

/-!
# A volume in use

Any sequence of `fat32_create`, `file_create`, `file_write`, `file_close` and `fat32_delete`
without failing accesses. A closed file is not written any more.
-/

namespace Fat32

open PageCache (Block PageArray cpy bytes pageSize length_bytes_of_le)
open Function LinkedCells ChainLedger Schedules List Option

structure Volume (ι : Type) where
  disk : Disk
  /-- the open files -/
  files : ι → Option File

inductive Action (ι : Type)
  /-- `file_create`, or `fat32_create` if the file is not opened -/
  | create (handle : Option ι) (filename : List UInt8) (pageBuffer : Block) (dir : DirEntry)
  | write (handle : ι) (buf : List UInt8)
  | close (handle : ι)
  | delete (filename : List UInt8)

namespace Volume

variable {ι : Type}

def mounted (d : Disk) : Volume ι := ⟨d, fun _ => none⟩

variable [DecidableEq ι] (fat : Fat)

/-- A call, of which only the effect is of interest; `none` if it does not return. -/
def step (v : Volume ι) : Action ι → Option (Volume ι)
  | .create handle filename pageBuffer dir =>
    match fileCreate fat fat.maxClust.toNat filename pageBuffer dir v.disk with
    | .ok none _ => none
    | .error _ d => some { v with disk := d }
    | .ok (some f) d =>
      match handle with
      | none => some { v with disk := d }
      | some i => match v.files i with
        | none => some ⟨d, update v.files i (some f)⟩
        | some _ => none
  | .write handle buf =>
    (v.files handle).map fun f =>
      let s := after (fileWrite fat buf (f, v.disk))
      ⟨s.2, update v.files handle (some s.1)⟩
  | .close handle =>
    (v.files handle).map fun f =>
      ⟨after (fileClose f v.disk), update v.files handle none⟩
  | .delete filename =>
    match delete fat fat.maxClust.toNat filename v.disk with
    | .ok none _ => none
    | .ok (some _) d => some { v with disk := d }
    | .error _ d => some { v with disk := d }

def Safe (v : Volume ι) : Action ι → Prop
  | .create _ filename _ _ => Plain fat v.disk.pages ∧ ∃ slot,
      lookup fat v.disk.pages filename = some slot ∧
      ((dirAt v.disk.pages slot).mark ≠ 0 ∨ (split filename).1.headD 0 ≠ deleted ∧
        ∀ c ∈ (vacant fat v.disk).take 1, c.toNat < fat.maxClust.toNat)
  | .write handle buf => ∀ f, v.files handle = some f → Harmless fat (f, v.disk) buf.length
  | .close handle => ∀ f, v.files handle = some f →
      Clear fat (root fat v.disk.pages) f.currentSector
  | .delete filename => Plain fat v.disk.pages ∧ ∃ slot,
      lookup fat v.disk.pages filename = some slot ∧
      ((dirAt v.disk.pages slot).mark = 0 ∨ (dirAt v.disk.pages slot).startCluster ≠ 0 ∧
        ∀ i f, v.files i = some f → f.descriptor ≠ slot)

variable {fat}

/-- A consistent volume whose open files stand at the ends of their chains. -/
structure Sane (fat : Fat) (v : Volume ι) (cells : Owner → List UInt32) : Prop where
  sound : v.disk.Sound
  consistent : Consistent fat v.disk.pages cells
  tracks : ∀ i f, v.files i = some f → f.Tracks cells
  apart : ∀ i j f g, i ≠ j → v.files i = some f → v.files j = some g → f.descriptor ≠ g.descriptor

variable {v v' : Volume ι} {cells : Owner → List UInt32} {d : Disk}

omit [DecidableEq ι] in
theorem sane_mounted (sound : d.Sound) (h : Consistent fat d.pages cells) :
    Sane fat (mounted d : Volume ι) cells :=
  ⟨sound, h, fun _ _ none => absurd none (by simp [mounted]),
    fun _ _ _ _ _ none => absurd none (by simp [mounted])⟩

structure Advanced (fat : Fat) (v v' : Volume ι) (cells' : Owner → List UInt32) : Prop where
  sane : Sane fat v' cells'
  reserved : ∀ c, c = 0 ∨ c = 1 → entry fat v'.disk.pages c = entry fat v.disk.pages c

omit [DecidableEq ι] in
theorem Advanced.disk (h : Sane fat v cells) (sound : d.Sound)
    (pages : d.pages = v.disk.pages) : Advanced fat v { v with disk := d } cells :=
  ⟨⟨sound, by rw [pages]; exact h.consistent, h.tracks, h.apart⟩, fun _ _ => by rw [pages]⟩

theorem fileClose_sound {f} (sound : d.Sound) (aligned : f.descriptor.Aligned) :
    fileClose f d = .ok () (d.flushed f) := by
  have fits := aligned.fits
  have page : writeBytes f.currentSector 0 (bytes f.pbuf 0 pageSize) d =
      .ok () (d.put f.currentSector 0 (bytes f.pbuf 0 pageSize)) :=
    writeBytes_sound sound (by rw [length_bytes_of_le (by simp)]; simp)
  rw [fileClose, bind_ok page]
  exact writeBytes_sound sound.put (by rw [length_write32]; omega)

theorem Sane.update {cells'} {i} {file}
    (h : Sane fat v cells) (sound : d.Sound) (consistent : Consistent fat d.pages cells')
    (others : ∀ j g, j ≠ i → v.files j = some g →
      cells' (some g.descriptor) = cells (some g.descriptor))
    (own : ∀ g, file = some g → g.Tracks cells' ∧
      ∀ j g', j ≠ i → v.files j = some g' → g.descriptor ≠ g'.descriptor) :
    Sane fat ⟨d, update v.files i file⟩ cells' := by
  refine ⟨sound, consistent, ?_, ?_⟩
  · intro j g opened
    rcases eq_or_ne j i with rfl | ne
    · exact (own g (by simpa using opened)).1
    · have opened : v.files j = some g := by simpa [ne] using opened
      obtain ⟨last, fits⟩ := h.tracks j g opened
      rw [← others j g ne opened] at last
      exact ⟨last, fits⟩
  · intro j k g g' ne opened₁ opened₂
    rcases eq_or_ne j i with rfl | ne₁
    · have opened₂ : v.files k = some g' := by simpa [ne.symm] using opened₂
      exact (own g (by simpa using opened₁)).2 k g' ne.symm opened₂
    · have before : v.files j = some g := by simpa [ne₁] using opened₁
      rcases eq_or_ne k i with rfl | ne₂
      · exact ((own g' (by simpa using opened₂)).2 j g ne₁ before).symm
      · exact h.apart j k g g' ne before (by simpa [ne₂] using opened₂)

section

variable (valid : fat.Valid) (h : Sane fat v cells)

include valid h

theorem write_sane {i} {buf} (safe : v.Safe fat (.write i buf))
    (hstep : v.step fat (.write i buf) = some v') : ∃ cells', Advanced fat v v' cells' := by
  obtain ⟨f, opened, rfl⟩ := map_eq_some_iff.mp hstep
  obtain ⟨cells', kept⟩ := fileWrite_keeps valid buf (f, v.disk) h.sound h.consistent
    (h.tracks i f opened) (safe f opened)
  refine ⟨cells', h.update kept.sound kept.consistent ?_ ?_, kept.reserved⟩
  · intro j g ne opened'
    exact kept.others _ (by simpa using h.apart j i g f ne opened' opened)
  · rintro g same
    obtain rfl := some.inj same
    refine ⟨kept.tracks, fun j g' ne opened' => ?_⟩
    rw [kept.descriptor]
    exact h.apart i j f g' ne.symm opened opened'

theorem close_sane {i} (safe : v.Safe fat (.close i)) (hstep : v.step fat (.close i) = some v') :
    ∃ cells', Advanced fat v v' cells' := by
  obtain ⟨f, opened, rfl⟩ := map_eq_some_iff.mp hstep
  have mem := h.consistent.mem_of_owner (h.tracks i f opened).own
  have clear := safe f opened
  rw [h.consistent.root_eq] at clear
  rw [fileClose_sound h.sound (aligned_of_mem valid mem)]
  refine ⟨cells, h.update h.sound.put.put (h.consistent.flushed valid mem clear)
    (fun _ _ _ _ => rfl) (fun g none => absurd none (by simp)), fun c low => ?_⟩
  exact entry_flushed (valid.indexed_low low) clear.1 (sector_not_inTable h.consistent valid mem)

theorem delete_sane {filename} (safe : v.Safe fat (.delete filename))
    (hstep : v.step fat (.delete filename) = some v') : ∃ cells', Advanced fat v v' cells' := by
  obtain ⟨plain, slot, found, cases_⟩ := safe
  simp only [step] at hstep
  rcases eq_or_ne (dirAt v.disk.pages slot).mark 0 with mark | mark
  · rw [delete_absent h.consistent valid h.sound plain found mark, some.injEq] at hstep
    subst hstep
    exact ⟨cells, .disk h h.sound rfl⟩
  · obtain ⟨start, closed⟩ := cases_.resolve_left mark
    rw [delete_file h.consistent valid h.sound plain found mark start, some.injEq] at hstep
    subst hstep
    have mem := (lookup_isFile found mark).1
    refine ⟨_, ⟨h.sound.put.freeAll, h.consistent.remove valid mem, ?_, h.apart⟩, ?_⟩
    · intro i f opened
      obtain ⟨last, fits⟩ := h.tracks i f opened
      refine ⟨?_, fits⟩
      rw [update_of_ne (by simpa using closed i f opened)]
      exact last
    · intro c low
      have other : c ∉ cells (some slot) := fun own => (h.consistent.inside _ c own).not_low low
      rw [entry_freeAll, if_neg other, entry_put (valid.indexed_low low)
        (sector_not_inTable h.consistent valid mem)]

theorem create_sane {handle} {filename} {pageBuffer} {dir}
    (safe : v.Safe fat (.create handle filename pageBuffer dir))
    (hstep : v.step fat (.create handle filename pageBuffer dir) = some v') :
    ∃ cells', Advanced fat v v' cells' := by
  obtain ⟨plain, slot, found, cases_⟩ := safe
  simp only [step, fileCreate] at hstep
  rcases eq_or_ne (dirAt v.disk.pages slot).mark 0 with mark | mark
  · obtain ⟨name, low⟩ := cases_.resolve_left (not_not.mpr mark)
    cases clusters : vacant fat v.disk with
    | nil =>
      rw [bind_error (create_full h.consistent valid h.sound plain found mark clusters),
        some.injEq] at hstep
      subst hstep
      exact ⟨cells, .disk h h.sound rfl⟩
    | cons c rest =>
      obtain ⟨place, free⟩ := unused_of_end found mark
      rw [bind_ok (create_file h.consistent valid h.sound plain found mark free clusters)] at hstep
      obtain ⟨_, indexed, zero⟩ := (mem_vacant valid).mp (clusters ▸ mem_cons_self)
      have inside : fat.Inside c := by
        have high := low c (by rw [clusters]; simp)
        obtain ⟨ne_zero, ne_one⟩ := h.consistent.ne_reserved zero
        have : c.toNat ≠ 0 := fun same => ne_zero (UInt32.toNat_inj.mp same)
        have : c.toNat ≠ 1 := fun same => ne_one (UInt32.toNat_inj.mp same)
        exact ⟨by omega, high⟩
      have mem := mem_of_find?_eq_some free
      have unused_place := find?_some free
      have created := h.consistent.created valid inside zero mem unused_place name
      have sound : (v.disk.created fat place filename c).Sound := h.sound.allot.put
      have reserved : ∀ c', c' = 0 ∨ c' = 1 →
          entry fat (v.disk.created fat place filename c).pages c' =
            entry fat v.disk.pages c' := by
        intro c' low'
        have ne : c' ≠ c := fun same => inside.not_low (same ▸ low')
        rw [Disk.created, entry_put (valid.indexed_low low')
          (sector_not_inTable h.consistent valid mem)]
        exact entry_setEntry_ne ne
      have nobody : ∀ j g, v.files j = some g → g.descriptor ≠ place := by
        rintro j g opened rfl
        have own := (h.tracks j g opened).own
        rw [h.consistent.cells_nil (head_of_not_isFile (isFile_of_unused unused_place))] at own
        exact not_mem_nil own
      have others : ∀ j g, v.files j = some g →
          update cells (some place) [c] (some g.descriptor) = cells (some g.descriptor) :=
        fun j g opened => update_of_ne (by simpa using nobody j g opened) _ _
      cases handle with
      | none =>
        cases hstep
        refine ⟨_, ⟨sound, created, fun i f opened => ?_, h.apart⟩, reserved⟩
        obtain ⟨last, fits⟩ := h.tracks i f opened
        rw [← others i f opened] at last
        exact ⟨last, fits⟩
      | some i =>
        change (match v.files i with | none => _ | some _ => _) = _ at hstep
        split at hstep
        · cases hstep
          refine ⟨_, h.update sound created (fun j g _ opened => others j g opened) ?_, reserved⟩
          rintro g same
          obtain rfl := some.inj same
          have fits := (aligned_of_mem valid mem).fits
          refine ⟨⟨⟨[], ?_⟩, Nat.zero_le _⟩, fun j g' _ opened => (nobody j g' opened).symm⟩
          change update cells (some place) [c] (some place) = [_]
          rw [update_self]
          congr 1
          exact (startCluster_created fits).symm
        · cases hstep
  · rw [bind_error (create_exists h.consistent valid h.sound plain found mark),
      some.injEq] at hstep
    subst hstep
    exact ⟨cells, .disk h h.sound rfl⟩

theorem step_sane {a} (safe : v.Safe fat a) (hstep : v.step fat a = some v') :
    ∃ cells', Advanced fat v v' cells' := by
  cases a with
  | create handle filename pageBuffer dir => exact create_sane valid h safe hstep
  | write handle buf => exact write_sane valid h safe hstep
  | close handle => exact close_sane valid h safe hstep
  | delete filename => exact delete_sane valid h safe hstep

end

end Volume

end Fat32
