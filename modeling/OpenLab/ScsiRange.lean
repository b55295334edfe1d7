import OpenLab.Scsi

/-!
# The range check of the transfers

READ(10) and WRITE(10) compare `lba + nblocks - 1` with the size of the medium in 32 bits, and again
for the command that each call rewrites.
-/

namespace Scsi

open ScsiMmapfs (Sector zeros)

/-- A transfer of some blocks, with room for one block in the buffer. -/
structure Request extends Params where
  some_block : 0 < cdbLength cmd
  room : blocksize ≤ datamax

variable (d : Device) (write : Bool)

/-- One call on a working medium. -/
def Device.call (p : Params) : Result := if write then d.write10 false p else d.read10 false p

/-- The places that a call accesses. -/
def Device.accessed (p : Params) : List Place :=
  if write then (d.write10 false p).written.map Prod.fst
  else if (p.refused d.size).isSome then []
  else (d.source (cdbLba p.cmd)).toList

/-- The next call of a transfer has the command that this one rewrote. -/
def Device.Next (p q : Params) : Prop :=
  (d.call write p).ret = .partly ∧ q.cmd = (d.call write p).cmd ∧ blocksize ≤ q.datamax

/-- A transfer inside the medium goes through, and all its calls access only what belongs to its
blocks; any other one is refused. -/
def Device.Ranged (p : Params) : Prop :=
  if cdbLba p.cmd + cdbLength p.cmd ≤ d.size then
    ∀ q, Relation.ReflTransGen (d.Next write) p q → (d.call write q).status = some .good ∧
      ∀ b ∈ d.accessed write q, ∃ j, cdbLba p.cmd ≤ j ∧
        j < cdbLba p.cmd + cdbLength p.cmd ∧ d.home j = some b
  else d.call write p = (p.leave .done).assign .checkCondition ∧ d.accessed write p = []

/-- The last block of the transfer is, in 32 bits, a block of the medium before the first one. -/
def Device.Wraps (p : Params) : Prop :=
  2 ^ 32 < cdbLba p.cmd + cdbLength p.cmd ∧ cdbLba p.cmd + cdbLength p.cmd ≤ 2 ^ 32 + d.size

instance (p : Params) : Decidable (d.Wraps p) := inferInstanceAs (Decidable (_ ∧ _))

variable {d write} {p q : Params}

theorem Device.refused_eq (d : Device) (q : Request) : q.refused d.size =
    if cdbLba q.cmd + cdbLength q.cmd ≤ d.size ∨ d.Wraps q.toParams then none
    else some ((q.leave .done).assign .checkCondition) := by
  have size := d.size_lt
  have some_block := q.some_block
  have bounds := cdb_lt q.cmd
  have limit : beyondLimit (cdbLba q.cmd) (cdbLength q.cmd) d.size = true ↔
      ¬(cdbLba q.cmd + cdbLength q.cmd ≤ d.size ∨ d.Wraps q.toParams) := by
    rw [beyondLimit, decide_eq_true_iff, Wraps]
    omega
  rw [Params.refused, if_neg (Nat.not_lt.mpr q.room)]
  simp only [limit, ite_not]

theorem Device.call_good (some_block : 0 < cdbLength p.cmd) (go : p.refused d.size = none) :
    (d.call write p).status = some .good := by
  have good := fun r => (Result.advance_good r (cdbLba p.cmd) some_block).1
  cases write <;> cases d <;> simp only [size] at go <;>
    simp only [call, read10, write10, sdRead10, sdWrite10, mmapfsRead10, mmapfsWrite10, go, good,
      Option.getD_none, if_true, Bool.false_eq_true, if_false]
  all_goals split <;> [rfl; exact good _]

theorem Device.call_advances (fits : p.Fits d) (later : write = true → p.cont ≠ 0) :
    ∃ r : Result, d.call write p = r.advance (cdbLba p.cmd) (cdbLength p.cmd) := by
  cases write with
  | false =>
    obtain ⟨r, eq, -⟩ := d.read10_fits fits
    exact ⟨r, eq⟩
  | true =>
    obtain ⟨r, eq, -⟩ := d.write10_fits fits (later rfl)
    exact ⟨r, eq⟩

theorem Device.call_partly (fits : p.Fits d) (later : write = true → p.cont ≠ 0)
    (more : 1 < cdbLength p.cmd) : (d.call write p).ret = .partly ∧
      cdbLba (d.call write p).cmd = cdbLba p.cmd + 1 ∧
      cdbLength (d.call write p).cmd = cdbLength p.cmd - 1 := by
  obtain ⟨r, eq⟩ := call_advances fits later
  have inside := fits.inside
  have size := d.size_lt
  rw [eq]
  exact ⟨(r.advance_good _ fits.some_block).2.2 more,
    r.advance_cmd _ _ more (by omega) (cdb_lt p.cmd).2⟩

theorem Device.next_fits (fits : p.Fits d) (next : d.Next write p q) :
    q.Fits d ∧ cdbLba p.cmd ≤ cdbLba q.cmd ∧
      cdbLba q.cmd + cdbLength q.cmd = cdbLba p.cmd + cdbLength p.cmd := by
  obtain ⟨partly, cmd, room⟩ := next
  by_cases start : write = true ∧ p.cont = 0
  · obtain ⟨rfl, start⟩ := start
    have eq : d.call true p = _ := d.write10_start false fits start
    rw [eq] at cmd
    exact ⟨⟨cmd ▸ fits.some_block, cmd ▸ fits.inside, room⟩, cmd ▸ ⟨le_rfl, rfl⟩⟩
  · have later := not_and.mp start
    have inside := fits.inside
    have more : 1 < cdbLength p.cmd := by
      by_contra one
      obtain zero | one : cdbLength p.cmd = 0 ∨ cdbLength p.cmd = 1 := by omega
      · exact absurd zero fits.some_block.ne'
      · obtain ⟨r, eq⟩ := call_advances fits later
        rw [eq, one] at partly
        cases partly
    obtain ⟨-, lba, rest⟩ := call_partly fits later more
    rw [← cmd] at lba rest
    exact ⟨⟨by omega, by omega, room⟩, by omega, by omega⟩

/-- Every block of a transfer has its call. -/
theorem Device.reaches (fits : p.Fits d) {k} (some_block : k < cdbLength p.cmd) :
    ∃ q, Relation.ReflTransGen (d.Next write) p q ∧ q.Fits d ∧ (write = true → q.cont ≠ 0) ∧
      cdbLba q.cmd = cdbLba p.cmd + k ∧ cdbLength q.cmd = cdbLength p.cmd - k := by
  induction k with
  | zero =>
    by_cases start : write = true ∧ p.cont = 0
    · obtain ⟨rfl, start⟩ := start
      have eq : d.call true p = _ := d.write10_start false fits start
      refine ⟨{ p with cont := 1 }, .single ⟨?_, ?_, fits.room⟩, { fits with },
        fun _ => by simp, rfl, rfl⟩ <;> rw [eq] <;> rfl
    · exact ⟨p, .refl, fits, not_and.mp start, rfl, rfl⟩
  | succ k ih =>
    obtain ⟨q, calls, fits', later, lba, length⟩ := ih (by omega)
    obtain ⟨partly, lba', length'⟩ := call_partly fits' later (by omega)
    have next : d.Next write q { q with cont := 1, cmd := (d.call write q).cmd } :=
      ⟨partly, rfl, fits'.room⟩
    exact ⟨_, calls.tail next, (next_fits fits' next).1, fun _ => by simp, lba'.trans (by omega),
      length'.trans (by omega)⟩

theorem Device.accessed_fits (fits : p.Fits d) :
    ∀ b ∈ d.accessed write p, d.source (cdbLba p.cmd) = some b := by
  intro b mem
  cases write with
  | false =>
    rw [accessed, fits.not_refused] at mem
    exact Option.mem_toList.mp mem
  | true =>
    by_cases start : p.cont = 0
    · rw [accessed, if_pos rfl, d.write10_start false fits start] at mem
      cases mem
    · obtain ⟨r, eq, -, written⟩ := d.write10_fits fits start
      rw [accessed, if_pos rfl, eq, (r.advance_keeps _ _).2.1, written] at mem
      exact source_of_target (by simpa using mem)

theorem Device.accessed_target (fits : p.Fits d) (later : write = true → p.cont ≠ 0) {b}
    (found : d.target (cdbLba p.cmd) = some b) : b ∈ d.accessed write p := by
  cases write with
  | false =>
    rw [accessed, fits.not_refused]
    exact Option.mem_toList.mpr (source_of_target found)
  | true =>
    obtain ⟨r, eq, -, written⟩ := d.write10_fits fits (later rfl)
    rw [accessed, if_pos rfl, eq, (r.advance_keeps _ _).2.1, written, found]
    simp

theorem Device.straight_of_ranged (fits : p.Fits d) {k} (some_block : k < cdbLength p.cmd)
    (ranged : d.Ranged write p) : d.Straight (cdbLba p.cmd + k) := by
  cases d with
  | sd card => trivial
  | mmapfs files fileBlock =>
    intro high
    rw [Ranged, if_pos fits.inside] at ranged
    obtain ⟨q, calls, fits', later, lba, -⟩ := reaches fits some_block
    by_contra found
    obtain ⟨⟨index, block⟩, data⟩ := Option.ne_none_iff_exists'.mp found
    have system : ScsiMmapfs.directoryLast < 2 ^ 16 := by decide
    have target : (Device.mmapfs files fileBlock).target (cdbLba q.cmd) =
        some (.file index block) := by
      rw [lba, Device.target, ScsiMmapfs.writeSector, if_neg (by omega), data]
      rfl
    obtain ⟨j, low, -, belongs⟩ := (ranged q calls).2 _ (accessed_target fits' later target)
    have := home_unique data belongs
    have := (cdb_lt p.cmd).2
    omega

def request (lba n : Nat) (some_block : 0 < cdbLength (setCdb zeros lba n)) : Request where
  cont := 0
  lun := 0
  cmd := setCdb zeros lba n
  data := zeros
  datamax := blocksize
  some_block := some_block
  room := le_rfl

/-- The first file has the sectors from 304 to 311. -/
def twoFiles : Device :=
  .mmapfs [⟨[65], [66], 4096, none⟩, ⟨[67], [68], 8192, none⟩] fun _ _ => zeros

end Scsi
