import OpenLab.Calendar
import OpenLab.Fat32Retry

/-!
# The time of a file

`file_update`: the date and time of day of a POSIX time, and the bytes that are stored for them in
the directory entry.
-/

namespace Fat32

open Calendar List
open PageCache (bytes bytes_cpy_self)

def cycle : Nat := (366 + 365 * 3) * 24 * 3600

def skipCycles (year time : Nat) : Nat × Nat :=
  if cycle < time then skipCycles (year + 4) (time - cycle) else (year, time)
termination_by time
decreasing_by
  rename_i more
  rw [cycle] at more ⊢
  omega

def leapOf (year : Nat) : Nat := if year &&& 3 ≠ 0 then 0 else 1

def skipYears (year time : Nat) : Nat × Nat :=
  let len := (365 + leapOf year) * 24 * 3600
  if len ≤ time then skipYears (year + 1) (time - len) else (year, time)
termination_by time

def day : Int := 24 * 3600

/-- The month and the time in it; the numbers are small enough for an `int`. -/
def monthOf (leap : Nat) (time : Nat) : Nat × Nat :=
  let tmp1 : Int := time - 31 * day
  if tmp1 < 0 then (1, time) else
  let tmp2 := tmp1 - (28 + leap) * day
  if tmp2 < 0 then (2, tmp1.toNat) else
  let tmp1 := tmp2 - 31 * day
  if tmp1 < 0 then (3, tmp2.toNat) else
  let tmp2 := tmp1 - 30 * day
  if tmp2 < 0 then (4, tmp1.toNat) else
  let tmp1 := tmp2 - 31 * day
  if tmp1 < 0 then (5, tmp2.toNat) else
  let tmp2 := tmp1 - 30 * day
  if tmp2 < 0 then (6, tmp1.toNat) else
  let tmp1 := tmp2 - 31 * day
  if tmp1 < 0 then (7, tmp2.toNat) else
  let tmp2 := tmp1 - 31 * day
  if tmp2 < 0 then (8, tmp1.toNat) else
  let tmp1 := tmp2 - 30 * day
  if tmp1 < 0 then (9, tmp2.toNat) else
  let tmp2 := tmp1 - 31 * day
  if tmp2 < 0 then (10, tmp1.toNat) else
  let tmp1 := tmp2 - 30 * day
  if tmp1 < 0 then (11, tmp2.toNat) else (12, tmp1.toNat)

def dateTime (time : UInt32) : DateTime :=
  let (year, time) := skipCycles 1970 time.toNat
  let (year, time) := skipYears year time
  let (month, time) := monthOf (leapOf year) time
  { year := year
    month := month
    day := 1 + time / (24 * 3600)
    hour := time % (24 * 3600) / 3600
    minute := time % (24 * 3600) % 3600 / 60
    second := time % (24 * 3600) % 3600 % 60 }

def DirEntry.stamp (dir : DirEntry) (x : DateTime) : DirEntry :=
  { dir with
    year := UInt8.ofNat x.year - UInt8.ofNat 1980
    month := UInt8.ofNat x.month
    day := UInt8.ofNat x.day
    hour := UInt8.ofNat x.hour
    minutes := UInt8.ofNat x.minute
    seconds := UInt8.ofNat x.second }

def DirEntry.timeBytes (dir : DirEntry) : List UInt8 :=
  [dir.seconds >>> 1 ||| dir.minutes <<< 5, dir.minutes >>> 3 ||| dir.hour <<< 3,
    dir.day ||| dir.month <<< 5, dir.month >>> 3 ||| dir.year <<< 1]

def fileUpdate (time : UInt32) : FileOp Unit := do
  modifyFile fun f => { f with dir := f.dir.stamp (dateTime time) }
  let (f, _) ← get
  onDisk (writeBytes f.descriptor.sector (f.descriptor.index + 0x16) f.dir.timeBytes)

/-- `yearStart` if every fourth year is a leap year. -/
def start (year : Nat) : Nat := 365 * (year - 1970) + (year - 1969) / 4

theorem leapOf_eq (year : Nat) : leapOf year = if year % 4 = 0 then 1 else 0 := by
  rw [leapOf, show year &&& 3 = year % 4 from Nat.and_two_pow_sub_one_eq_mod year 2]
  split <;> simp_all

section Years

variable {year : Nat} (after : 1970 ≤ year)

include after

theorem start_cycle : start (year + 4) = start year + 1461 := by
  rw [start, start]
  omega

theorem start_succ : start (year + 1) = start year + 365 + leapOf year := by
  rw [leapOf_eq, start, start]
  split <;> omega

theorem skipCycles_spec (time : Nat) : 1970 ≤ (skipCycles year time).1 ∧
    start (skipCycles year time).1 * 86400 + (skipCycles year time).2 =
      start year * 86400 + time := by
  fun_induction skipCycles year time with
  | case1 year time more ih =>
    obtain ⟨after', eq⟩ := ih (by omega)
    refine ⟨after', eq.trans ?_⟩
    rw [start_cycle after]
    rw [cycle] at more ⊢
    generalize start year = days
    clear eq
    omega
  | case2 year time => exact ⟨after, rfl⟩

theorem skipYears_spec (time : Nat) : 1970 ≤ (skipYears year time).1 ∧
    (skipYears year time).2 < (365 + leapOf (skipYears year time).1) * 86400 ∧
    start (skipYears year time).1 * 86400 + (skipYears year time).2 =
      start year * 86400 + time := by
  fun_induction skipYears year time with
  | case1 year time len more ih =>
    obtain ⟨after', less, eq⟩ := ih (by omega)
    refine ⟨after', less, eq.trans ?_⟩
    rw [start_succ after]
    generalize start year = days
    clear eq less
    omega
  | case2 year time len less =>
    refine ⟨after, ?_, rfl⟩
    simp only [len] at less ⊢
    omega

end Years

/-- A month of the year and a time in it, which are those of a time in the year. -/
def InMonth (year time : Nat) (r : Nat × Nat) : Prop :=
  (1 ≤ r.1 ∧ r.1 ≤ 12) ∧ r.2 < monthLength year r.1 * 86400 ∧
    time = monthStart year r.1 * 86400 + r.2

theorem in_month {year time m : Nat} {left len : Int} {rest : Nat × Nat}
    (month : 1 ≤ m ∧ m ≤ 12) (nonneg : 0 ≤ left)
    (eq : (time : Int) = monthStart year m * 86400 + left)
    (fits : left < len → left < monthLength year m * 86400)
    (next : len ≤ left → InMonth year time rest) :
    InMonth year time (if left - len < 0 then (m, left.toNat) else rest) := by
  split
  · refine ⟨month, ?_, ?_⟩ <;> dsimp only <;> omega
  · exact next (by omega)

theorem monthOf_spec {year leap time : Nat} (le : leap ≤ 1) (less : time < (365 + leap) * 86400)
    (same : (leap = if isLeap year then 1 else 0) ∨ time < 59 * 86400) :
    InMonth year time (monthOf leap time) := by
  unfold monthOf day
  refine in_month (by decide) (by omega) (by simp [monthStart]) (by simp [monthLength]) fun _ => ?_
  refine in_month (by decide) (by omega) (by simp [monthStart, monthLength]) ?_ fun _ => ?_
  · cases leaps : isLeap year <;> simp [monthLength, leaps] at same ⊢ <;> omega
  have same := same.resolve_right (by omega)
  -- from March on the day of the leap year is behind
  iterate 9
    refine in_month (by decide) (by omega)
      (by cases leaps : isLeap year <;>
        simp [monthStart, range_succ, monthLength, leaps] at same ⊢ <;> omega)
      (by simp [monthLength]) fun _ => ?_
  refine ⟨⟨by simp, le_rfl⟩, by simp [monthLength]; omega, ?_⟩
  cases leaps : isLeap year <;>
    simp [monthStart, range_succ, monthLength, leaps] at same ⊢ <;> omega

/-- What four bytes denote as a DOS time and date. -/
def dosTime (bs : List UInt8) : DateTime :=
  let time := (read16 bs).toNat
  let date := (read16 (bs.drop 2)).toNat
  { year := 1980 + date / 512
    month := date / 32 % 16
    day := date % 32
    hour := time / 2048
    minute := time / 32 % 64
    second := time % 32 * 2 }

theorem toNat_read16 (low high : UInt8) (rest : List UInt8) :
    (read16 (low :: high :: rest)).toNat = low.toNat + high.toNat * 256 := by
  have less := low.toNat_lt
  have less' := high.toNat_lt
  simp only [read16, getD_cons_zero, getD_cons_succ, UInt16.toNat_or,
    UInt16.toNat_shiftLeft, UInt8.toNat_toUInt16]
  have add := Nat.shiftLeft_add_eq_or_of_lt less high.toNat
  have shift : high.toNat <<< 8 = high.toNat * 256 := Nat.shiftLeft_eq ..
  rw [show (8 : UInt16).toNat % 16 = 8 from rfl, Nat.mod_eq_of_lt (by omega), Nat.or_comm, ← add,
    shift, Nat.add_comm]

theorem timeLow : ∀ second minute : Fin 60,
    (UInt8.ofNat second >>> 1 ||| UInt8.ofNat minute <<< 5).toNat =
      second / 2 + minute % 8 * 32 := by
  decide +kernel

theorem timeHigh : ∀ (minute : Fin 60) (hour : Fin 24),
    (UInt8.ofNat minute >>> 3 ||| UInt8.ofNat hour <<< 3).toNat = minute / 8 + hour * 8 := by
  decide +kernel

theorem dateLow : ∀ (day : Fin 32) (month : Fin 13),
    (UInt8.ofNat day ||| UInt8.ofNat month <<< 5).toNat = day + month % 8 * 32 := by
  decide +kernel

theorem dateHigh : ∀ (month : Fin 13) (years : Fin 121),
    (UInt8.ofNat month >>> 3 ||| (UInt8.ofNat (1980 + years) - UInt8.ofNat 1980) <<< 1).toNat =
      month / 8 + years * 2 := by
  decide +kernel

/-- Every date from 1980 to 2100 has a DOS time and date, up to the last bit of the second. -/
theorem dosTime_timeBytes (dir : DirEntry) {x} (valid : x.Valid)
    (years : 1980 ≤ x.year ∧ x.year ≤ 2100) :
    dosTime (dir.stamp x).timeBytes = { x with second := x.second / 2 * 2 } := by
  obtain ⟨month, day, hour, minute, second⟩ := valid
  have few : monthLength x.year x.month ≤ 31 := by
    unfold monthLength
    split <;> (try split) <;> decide
  have time := timeLow ⟨_, second⟩ ⟨_, minute⟩
  have time' := timeHigh ⟨_, minute⟩ ⟨_, hour⟩
  have date := dateLow ⟨x.day, by omega⟩ ⟨x.month, by omega⟩
  have date' := dateHigh ⟨x.month, by omega⟩ ⟨x.year - 1980, by omega⟩
  rw [show 1980 + (x.year - 1980) = x.year by omega] at date'
  rw [dosTime, DirEntry.timeBytes, drop_succ_cons, drop_succ_cons, drop_zero,
    toNat_read16, toNat_read16]
  simp only [DirEntry.stamp, time, time', date, date', DateTime.mk.injEq]
  omega

theorem clock (n : Nat) : n / (24 * 3600) * 86400 + n % (24 * 3600) / 3600 * 3600 +
    n % (24 * 3600) % 3600 / 60 * 60 + n % (24 * 3600) % 3600 % 60 = n := by
  omega

theorem dateTime_spec {time} (first : 315532800 ≤ time.toNat)
    (last : time.toNat ≤ 4107542399) :
    (dateTime time).Valid ∧ (dateTime time).posix = time.toNat ∧
      1980 ≤ (dateTime time).year ∧ (dateTime time).year ≤ 2100 := by
  obtain ⟨after, eq⟩ := skipCycles_spec le_rfl time.toNat
  obtain ⟨after, less, eq'⟩ := skipYears_spec after (skipCycles 1970 time.toNat).2
  have total := eq'.trans eq
  rw [show start 1970 = 0 from rfl, Nat.zero_mul, Nat.zero_add] at total
  unfold dateTime
  dsimp only
  generalize time.toNat = t at *
  generalize skipYears _ _ = r at *
  obtain ⟨year, left⟩ := r
  have days : start year = 365 * (year - 1970) + (year - 1969) / 4 := rfl
  have leaps := leapOf_eq year
  generalize start year = s at *
  generalize leapOf year = leap at *
  have years : 1980 ≤ year ∧ year ≤ 2100 := by
    constructor
    · split at leaps <;> omega
    · omega
  have same : (leap = if isLeap year then 1 else 0) ∨ left < 59 * 86400 := by
    rcases Nat.lt_or_ge year 2100 with early | late
    · rw [leaps, isLeap_eq after early]
      simp
    · right
      clear leaps less
      omega
  have month := monthOf_spec (by split at leaps <;> omega) less same
  generalize monthOf _ _ = r at *
  obtain ⟨m, rest⟩ := r
  obtain ⟨range, short, sum⟩ := month
  dsimp only at *
  have begins : yearStart year = s := by
    have eq := yearStart_eq (n := year - 1970) (by omega)
    rw [show 1970 + (year - 1970) = year by omega] at eq
    omega
  refine ⟨⟨range, ?_, ?_, ?_, ?_⟩, ?_, years⟩ <;> dsimp only [DateTime.posix]
  · omega
  · omega
  · omega
  · omega
  · rw [begins, ← total, sum, Nat.add_sub_cancel_left]
    linarith [clock rest]

/-- A successful call for a time from 1980-01-01 00:00:00 to 2100-02-28 23:59:59. -/
structure Update where
  file : File
  disk : Disk
  time : UInt32
  aligned : file.descriptor.Aligned
  passes : disk.faults 0 = false
  first : DateTime.posix ⟨1980, 1, 1, 0, 0, 0⟩ ≤ time.toNat
  last : time.toNat ≤ DateTime.posix ⟨2100, 2, 28, 23, 59, 59⟩

theorem posix_first : DateTime.posix ⟨1980, 1, 1, 0, 0, 0⟩ = 315532800 := by
  decide +kernel

theorem posix_last : DateTime.posix ⟨2100, 2, 28, 23, 59, 59⟩ = 4107542399 := by
  decide +kernel

/-- The stored time and date are valid and denote the time of the call, to two seconds. -/
theorem update_denotes (x : Update) : ∃ result,
    fileUpdate x.time (x.file, x.disk) = .ok () result ∧
      let stamp := dosTime (bytes (result.2.pages x.file.descriptor.sector)
        (x.file.descriptor.index + 0x16) 4)
      stamp.Valid ∧ stamp.posix = x.time.toNat - x.time.toNat % 2 := by
  have fits := x.aligned.fits
  obtain ⟨valid, posix, years⟩ := dateTime_spec (posix_first ▸ x.first) (posix_last ▸ x.last)
  let dir := x.file.dir.stamp (dateTime x.time)
  have fits' : x.file.descriptor.index + 0x16 + dir.timeBytes.length ≤ PageCache.pageSize := by
    change _ + 4 ≤ _
    omega
  have write : writeBytes x.file.descriptor.sector _ _ x.disk = _ :=
    writeBytes_passes x.passes fits'
  refine ⟨_, onDisk_ok (s := ({ x.file with dir }, x.disk)) write, ?_⟩
  dsimp only [Disk.put]
  rw [Function.update_self, show 4 = dir.timeBytes.length from rfl,
    bytes_cpy_self fits', dosTime_timeBytes _ valid years]
  refine ⟨⟨valid.month, valid.day, valid.hour, valid.minute, ?_⟩, ?_⟩
  · have second := valid.second
    dsimp only
    omega
  · rw [← posix]
    unfold DateTime.posix
    dsimp only
    generalize yearStart _ + _ + _ = days
    omega

/-- The last second of 28 February 2000. -/
def leapDayEve : Update where
  file := .begin Volume.small (fun _ => 0) ⟨2, 0⟩ Volume.anyEntry
  disk := .formatted Volume.small
  time := 951782399
  aligned := ⟨0, by decide, rfl⟩
  passes := rfl
  first := by decide +kernel
  last := by decide +kernel

theorem update_leapDayEve : ∃ result,
    fileUpdate 951782399 (leapDayEve.file, leapDayEve.disk) = .ok () result ∧
      (dosTime (bytes (result.2.pages 2) 0x16 4)).posix = 951782398 := by
  obtain ⟨result, done, -, posix⟩ := update_denotes leapDayEve
  exact ⟨result, done, posix⟩

end Fat32
