import OpenLab.Fat32Search

/-!
# Mounting a volume

`fat32_mount`: the boot sector, its fields and the geometry computed from them. What a failed mount
leaves in `fat` is not modelled.
-/

namespace Fat32

open PageCache (Block bytes pageSize length_bytes_of_le)

def bootSignature : List UInt8 := [0x55, 0xAA]

/-- The text `FAT32` and three spaces. -/
def fatVersion : List UInt8 := [0x46, 0x41, 0x54, 0x33, 0x32, 0x20, 0x20, 0x20]

/-- `check_fs` on the page `fat.boot_sect`; `cmp` ends with the signature. -/
def checkFs (boot : UInt32) : Op Unit := do
  let buf ← readBytes boot 0x1FE 2
  if !cmp (buf ++ [0]) (bootSignature ++ [0]) 2 then throw .notBootRecord
  let buf ← readBytes boot 0x52 8
  if !cmp (buf ++ [0]) (fatVersion ++ [0]) 8 then throw .notFat32

/-- The boot sector of the first partition of an MBR. -/
def partition : Op UInt32 := do
  let type ← readBytes 0 0x1C2 1
  if type.headD 0 ≠ 0x0B ∧ type.headD 0 ≠ 0x0C then throw .notFat32
  let buf ← readBytes 0 0x1C6 4
  checkFs (read32 buf)
  return read32 buf

def bootSect : Op UInt32 := fun d =>
  match checkFs 0 d with
  | .ok _ d => .ok 0 d
  | .error e d => if e = .notFat32 then partition d else .error e d

/-- What `fat32_mount` makes of the fields of the boot sector. -/
def Fat.ofBoot (boot : UInt32) (sectPerClust numFat : UInt8) (reserved : UInt16)
    (numSect sectPerFat root : UInt32) : Fat :=
  let start := (boot + reserved.toUInt32).toUInt16
  let dataStart := start.toUInt32 + sectPerFat * numFat.toUInt32
  { bootSect := boot
    numFat := numFat
    sectPerFat := sectPerFat
    sectPerClust := sectPerClust
    numSect := numSect
    start := start
    dataStart := dataStart
    rootStart := dataStart + root - 2
    -- a division by 0 gives 0, as on the Cortex-M3
    maxClust := (numSect - dataStart + boot) / sectPerClust.toUInt32 + 2 }

def mount : Op Fat := do
  let boot ← bootSect
  let sectPerClust ← readBytes boot 0x0d 1
  let reserved ← readBytes boot 0x0e 2
  let numFat ← readBytes boot 0x10 1
  let numSect ← readBytes boot 0x20 4
  let sectPerFat ← readBytes boot 0x24 4
  let root ← readBytes boot 0x2c 4
  return .ofBoot boot (sectPerClust.headD 0) (numFat.headD 0) (read16 reserved) (read32 numSect)
    (read32 sectPerFat) (read32 root)

section Reads

variable {α : Type} {page : UInt32} {offset size : Nat} {f : List UInt8 → Op α}
  {d d' : Disk} {a : α}

theorem read_bind (pos : size ≠ 0) (fits : offset + size ≤ pageSize) :
    (readBytes page offset size >>= f) d =
      if d.faults 0 then .error .fsError d.tick
      else f (bytes (d.pages page) offset size) d.tick := by
  cases fault : d.faults 0 with
  | true =>
    have failed : readBytes page offset size d = .error .fsError d.tick := by
      simp [readBytes, fsRead, bind, EStateM.bind, fault, pos.symm, throw, throwThe,
        MonadExceptOf.throw, EStateM.throw]
    rw [bind_error failed, if_pos rfl]
  | false =>
    have done : readBytes page offset size d = .ok (bytes (d.pages page) offset size) d.tick := by
      simp [readBytes, fsRead, bind, EStateM.bind, fault, length_bytes_of_le fits,
        pure, EStateM.pure]
    rw [bind_ok done, if_neg Bool.false_ne_true]

theorem read_ok (pos : size ≠ 0) (fits : offset + size ≤ pageSize)
    (h : (readBytes page offset size >>= f) d = .ok a d') :
    ∃ d₁ : Disk, d₁.pages = d.pages ∧ f (bytes (d.pages page) offset size) d₁ = .ok a d' := by
  rw [read_bind pos fits] at h
  split at h
  · cases h
  · exact ⟨d.tick, rfl, h⟩

end Reads

def isBoot (b : Block) : Bool := bytes b 0x1FE 2 == bootSignature && bytes b 0x52 8 == fatVersion

theorem cmpLoop_comm (a b : List UInt8) : cmpLoop a b = cmpLoop b a := by
  induction a generalizing b with
  | nil => cases b <;> rfl
  | cons x a ih =>
    cases b with
    | nil => rfl
    | cons y b =>
      rw [cmpLoop, cmpLoop, ih b]
      exact if_congr and_comm (if_congr ne_comm rfl rfl) rfl

theorem cmp_signature {buf signature} (same : buf.length = signature.length)
    (nonzero : 0 ∉ signature) :
    cmp (buf ++ [0]) (signature ++ [0]) signature.length = (buf == signature) := by
  rw [← cmp_eq same.symm nonzero, cmp, cmp, cmpLoop_comm]

theorem checkFs_result (boot : UInt32) (d : Disk) :
    match checkFs boot d with
    | .ok _ d' => d'.pages = d.pages ∧ isBoot (d.pages boot) = true
    | .error e d' => e = .notFat32 → d'.pages = d.pages ∧ isBoot (d.pages boot) = false := by
  have record : cmp (bytes (d.pages boot) 0x1FE 2 ++ [0]) (bootSignature ++ [0]) 2 = _ :=
    cmp_signature (length_bytes_of_le (by decide)) (by decide)
  have version : cmp (bytes (d.pages boot) 0x52 8 ++ [0]) (fatVersion ++ [0]) 8 = _ :=
    cmp_signature (length_bytes_of_le (by decide)) (by decide)
  rw [checkFs, read_bind (by decide) (by decide)]
  cases d.faults 0 with
  | true => exact fun notFat32 => by cases notFat32
  | false =>
    simp only [Bool.false_eq_true, if_false]
    rw [record]
    cases signed : bytes (d.pages boot) 0x1FE 2 == bootSignature with
    | false => exact fun notFat32 => by cases notFat32
    | true =>
      rw [if_neg (by decide), read_bind (by decide) (by decide)]
      cases d.tick.faults 0 with
      | true => exact fun notFat32 => by cases notFat32
      | false =>
        rw [show d.tick.pages = d.pages from rfl, version]
        cases fat32 : bytes (d.pages boot) 0x52 8 == fatVersion with
        | false => exact fun _ => ⟨rfl, by rw [isBoot, fat32, Bool.and_false]⟩
        | true => exact ⟨rfl, by rw [isBoot, signed, fat32]; rfl⟩

theorem bootSect_ok {d d'} {boot} (h : bootSect d = .ok boot d') : d'.pages = d.pages ∧
    boot = if isBoot (d.pages 0) then 0 else read32 (bytes (d.pages 0) 0x1C6 4) := by
  have first := checkFs_result 0 d
  rw [bootSect] at h
  cases check : checkFs 0 d with
  | ok _ d₁ =>
    rw [check] at first h
    cases h
    rw [first.2]
    exact ⟨first.1, rfl⟩
  | error e d₁ =>
    rw [check] at first h
    dsimp only at first h
    split at h
    · rename_i notFat32
      obtain ⟨same, mbr⟩ := first notFat32
      obtain ⟨d₂, same₂, h⟩ := read_ok (by decide) (by decide) h
      split at h
      · cases h
      · obtain ⟨d₃, same₃, h⟩ := read_ok (by decide) (by decide) h
        rw [same₂, same] at h
        have second := checkFs_result (read32 (bytes (d.pages 0) 0x1C6 4)) d₃
        cases check : checkFs (read32 (bytes (d.pages 0) 0x1C6 4)) d₃ with
        | ok _ d₄ =>
          rw [check] at second
          rw [bind_ok check] at h
          cases h
          rw [mbr]
          exact ⟨second.1.trans (same₃.trans (same₂.trans same)), rfl⟩
        | error e d₄ =>
          rw [bind_error check] at h
          cases h
    · cases h

structure Mounting where
  disk : Disk
  fat : Fat
  result : Disk
  mounted : mount disk = .ok fat result

namespace Mounting

variable (x : Mounting)

def boot : UInt32 :=
  if isBoot (x.disk.pages 0) then 0 else read32 (bytes (x.disk.pages 0) 0x1C6 4)

def field (offset size : Nat) : List UInt8 := bytes (x.disk.pages x.boot) offset size

def sectPerClust : UInt8 := (x.field 0x0d 1).headD 0

def reserved : UInt16 := read16 (x.field 0x0e 2)

def numFat : UInt8 := (x.field 0x10 1).headD 0

def total : UInt32 := read32 (x.field 0x20 4)

def sectPerFat : UInt32 := read32 (x.field 0x24 4)

def root : UInt32 := read32 (x.field 0x2c 4)

/-- Sectors of the volume in front of its data. -/
def overhead : Nat := x.reserved.toNat + x.sectPerFat.toNat * x.numFat.toNat

theorem fat_eq : x.fat =
    .ofBoot x.boot x.sectPerClust x.numFat x.reserved x.total x.sectPerFat x.root := by
  obtain ⟨d, fat, d', h⟩ := x
  rw [mount] at h
  cases found : bootSect d with
  | error e d₁ =>
    rw [bind_error found] at h
    cases h
  | ok b d₁ =>
    rw [bind_ok found] at h
    obtain ⟨same, boot⟩ := bootSect_ok found
    obtain ⟨d₂, same₂, h⟩ := read_ok (by decide) (by decide) h
    obtain ⟨d₃, same₃, h⟩ := read_ok (by decide) (by decide) h
    obtain ⟨d₄, same₄, h⟩ := read_ok (by decide) (by decide) h
    obtain ⟨d₅, same₅, h⟩ := read_ok (by decide) (by decide) h
    obtain ⟨d₆, same₆, h⟩ := read_ok (by decide) (by decide) h
    obtain ⟨d₇, same₇, h⟩ := read_ok (by decide) (by decide) h
    rw [same₆, same₅, same₄, same₃, same₂, same, boot] at h
    exact (EStateM.Result.ok.inj h).1.symm

end Mounting

/-- A mounted volume of up to 2^32 sectors. -/
structure Mounted extends Mounting where
  clusters : toMounting.sectPerClust = 0 ∨ ∃ k ≤ 7, toMounting.sectPerClust.toNat = 2 ^ k
  fits : toMounting.boot.toNat + toMounting.total.toNat ≤ 2 ^ 32
  room : toMounting.overhead ≤ toMounting.total.toNat
  two_le : 2 ≤ toMounting.root

section Arithmetic

variable {b r d : UInt32} {reserved : UInt16} {c n : UInt8} {size total : UInt32}

theorem toNat_clusters {overhead} (start : d.toNat = b.toNat + overhead)
    (room : overhead ≤ total.toNat) (fits : b.toNat + total.toNat ≤ 2 ^ 32) :
    ((total - d + b) / c.toUInt32 + 2).toNat =
        ((total.toNat - overhead) / c.toNat + 2) % 2 ^ 32 := by
  have rest : (total - d + b).toNat = total.toNat - overhead := by
    have := total.toNat_lt
    rw [UInt32.toNat_add, UInt32.toNat_sub]
    omega
  rw [UInt32.toNat_add, UInt32.toNat_div, rest, UInt8.toNat_toUInt32]
  rfl

theorem eq_mul_iff {q} (power : ∃ k ≤ 7, c.toNat = 2 ^ k) :
    q = q * c.toUInt32 ↔ c = 1 ∨ q = 0 := by
  obtain ⟨k, le, eq⟩ := power
  constructor
  · intro same
    have mod : q.toNat * 2 ^ k % 2 ^ 32 = q.toNat % 2 ^ 32 := by
      rw [Nat.mod_eq_of_lt q.toNat_lt, ← eq]
      conv_rhs => rw [same, UInt32.toNat_mul, UInt8.toNat_toUInt32]
    rcases Nat.eq_zero_or_pos k with rfl | pos
    · exact .inl (UInt8.toNat_inj.mp eq)
    -- 2 ^ k - 1 is odd
    · have odd : Nat.Coprime (2 ^ 32) (2 ^ k - 1) := by
        interval_cases k <;> norm_num
      have dvd : 2 ^ 32 ∣ q.toNat * (2 ^ k - 1) := by
        rw [Nat.mul_sub_one]
        exact Nat.dvd_of_mod_eq_zero (Nat.sub_mod_eq_zero_of_mod_eq mod)
      exact .inr (UInt32.toNat_inj.mp
        (Nat.eq_zero_of_dvd_of_lt (odd.dvd_of_dvd_mul_right dvd) q.toNat_lt))
  · rintro (rfl | rfl)
    · exact (UInt32.mul_one q).symm
    · exact (UInt32.zero_mul).symm

theorem root_iff (power : ∃ k ≤ 7, c.toNat = 2 ^ k) :
    d + r - 2 = d + (r - 2) * c.toUInt32 ↔ c = 1 ∨ r = 2 := by
  have left : d + r - 2 = d + (r - 2) := by
    rw [UInt32.sub_eq_iff_eq_add, UInt32.add_assoc, UInt32.sub_add_cancel]
  rw [left, UInt32.add_right_inj, eq_mul_iff power, UInt32.sub_eq_iff_eq_add, UInt32.zero_add]

theorem ofBoot_fields {fat : Fat} (eq : fat = .ofBoot b c n reserved total size r) :
    fat.bootSect = b ∧ fat.start.toNat = (b.toNat + reserved.toNat) % 2 ^ 16 ∧
      fat.dataStart.toNat = (fat.start.toNat + size.toNat * n.toNat) % 2 ^ 32 ∧
      fat.rootStart = fat.dataStart + r - 2 ∧
      fat.firstSector r = fat.dataStart + (r - 2) * c.toUInt32 ∧
      fat.maxClust = (total - fat.dataStart + b) / c.toUInt32 + 2 := by
  subst eq
  refine ⟨rfl, ?_, ?_, rfl, rfl, rfl⟩
  · change (b + reserved.toUInt32).toUInt16.toNat = _
    rw [UInt32.toNat_toUInt16, UInt32.toNat_add, UInt16.toNat_toUInt32,
      Nat.mod_mod_of_dvd _ (by decide)]
  · change (UInt16.toUInt32 _ + size * n.toUInt32).toNat = _
    rw [UInt32.toNat_add, UInt32.toNat_mul, UInt16.toNat_toUInt32, UInt8.toNat_toUInt32,
      Nat.add_mod_mod]
    rfl

end Arithmetic

/-- The geometry is right if and only if `start` fits in 16 bits, the root directory is in cluster
2 or clusters have one sector, and the data and the number of clusters fit in 32 bits. A volume with
clusters of no sectors is mounted. -/
theorem mount_geometry (x : Mounted) :
    (x.sectPerClust ≠ 0 ∧ x.fat.bootSect = x.boot ∧
      x.fat.start.toNat = x.boot.toNat + x.reserved.toNat ∧
      x.fat.dataStart.toNat = x.boot.toNat + x.overhead ∧
      x.fat.rootStart = x.fat.firstSector x.root ∧
      x.fat.maxClust.toNat = 2 + (x.total.toNat - x.overhead) / x.sectPerClust.toNat) ↔
    x.sectPerClust ≠ 0 ∧ x.boot.toNat + x.reserved.toNat < 2 ^ 16 ∧
      x.boot.toNat + x.overhead < 2 ^ 32 ∧ (x.sectPerClust = 1 ∨ x.root = 2) ∧
      2 + (x.total.toNat - x.overhead) / x.sectPerClust.toNat < 2 ^ 32 := by
  refine and_congr_right fun nonzero => ?_
  have root := root_iff (d := x.fat.dataStart) (r := x.root) (x.clusters.resolve_left nonzero)
  have clusters := fun eq =>
    toNat_clusters (d := x.fat.dataStart) (c := x.sectPerClust) eq x.room x.fits
  have overhead : x.overhead = x.reserved.toNat + x.sectPerFat.toNat * x.numFat.toNat := rfl
  obtain ⟨boot, start, data, first, sector, max⟩ := ofBoot_fields x.fat_eq
  rw [first, sector, root, max]
  constructor
  · rintro ⟨-, start', data', ok, max'⟩
    exact ⟨by omega, by omega, ok, max' ▸ Nat.mod_lt _ (by decide)⟩
  · rintro ⟨small, fits, ok, few⟩
    have start' : x.fat.start.toNat = x.boot.toNat + x.reserved.toNat := by omega
    have data' : x.fat.dataStart.toNat = x.boot.toNat + x.overhead := by omega
    refine ⟨boot, start', data', ok, ?_⟩
    rw [clusters data', Nat.add_comm, Nat.mod_eq_of_lt few]

def image (fields : List (Nat × List UInt8)) : Block := fun k =>
  (fields.findSome? fun f => if f.1 ≤ k.val then f.2[k.val - f.1]? else none).getD 0

def bootPage (sectPerClust root : UInt8) : Block :=
  image [(0x0d, [sectPerClust]), (0x0e, [32, 0, 2]), (0x20, write32 200000), (0x24, write32 1000),
    (0x2c, [root]), (0x52, fatVersion), (0x1FE, bootSignature)]

def partitioned (boot : UInt32) (sectPerClust root : UInt8) : Disk where
  pages page := if page = 0 then
      image [(0x1C2, [0x0C]), (0x1C6, write32 boot), (0x1FE, bootSignature)]
    else bootPage sectPerClust root
  lastFreeCluster := 0
  faults _ := false
  written := []

def mounts {α : Type} (d : Disk) (f : Fat → α) : Option α :=
  match mount d with
  | .ok fat _ => some (f fat)
  | .error _ _ => none

theorem mounts_first : (mounts (partitioned 2048 8 2) Fat.bootSect).isSome := by
  decide +kernel

/-- A volume from sector 2048 on, with its root directory in cluster 2. -/
def firstPartition : Mounting :=
  match h : mount (partitioned 2048 8 2) with
  | .ok fat result => ⟨partitioned 2048 8 2, fat, result, h⟩
  | .error _ _ => absurd mounts_first (by simp [mounts, h])

def firstMounted : Mounted where
  toMounting := firstPartition
  clusters := .inr ⟨3, by decide, by decide +kernel⟩
  fits := by decide +kernel
  room := by decide +kernel
  two_le := by decide +kernel

theorem mount_geometry_first : firstMounted.fat.start.toNat = 2080 ∧
    firstMounted.fat.dataStart.toNat = 4080 ∧
    firstMounted.fat.rootStart = firstMounted.fat.firstSector 2 ∧
    firstMounted.fat.maxClust.toNat = 24748 := by
  obtain ⟨-, -, start, data, root, max⟩ := (mount_geometry firstMounted).mpr (by decide +kernel)
  exact ⟨start.trans (by decide +kernel), data.trans (by decide +kernel),
    root.trans (by decide +kernel), max.trans (by decide +kernel)⟩

/-- A partition that starts at sector 65536, a root directory in cluster 3, and clusters of no
sectors. -/
theorem mount_truncates :
    mounts (partitioned 65536 8 2) (fun fat => (fat.bootSect, fat.start)) = some (65536, 32) ∧
    mounts (partitioned 2048 8 3) (fun fat => (fat.dataStart, fat.rootStart, fat.firstSector 3)) =
      some (4080, 4081, 4088) ∧
    mounts (partitioned 2048 0 2) Fat.sectPerClust = some 0 := by
  decide +kernel

end Fat32
