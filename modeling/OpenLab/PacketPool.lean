import OpenLab.PacketQueue
import OpenLab.Schedules
import OpenLab.Tally

/-!
# The packet pool under concurrency

Tasks call `iotlab_packet_alloc` and `iotlab_packet_free` on one queue. A step is one section
under the mutex or one access outside of it; a task may hand a packet to another one.
-/

namespace PacketPool

open Schedules PacketQueue Tally List

/-- Where a task is in `iotlab_packet_alloc` or `iotlab_packet_free`. -/
inductive Task (α : Type)
  | idle
  /-- `alloc` has seen a `count` other than 0. -/
  | tested
  /-- `alloc` has taken a packet and is about to reset it. -/
  | taken (packet : α)
  /-- `free` has reset its packet. -/
  | freeing (packet : α)
  deriving DecidableEq

structure Pool (ι α : Type) where
  queue : Queue α
  task : ι → Task α
  /-- The packets that were allocated and not freed, with the tasks that hold them. -/
  held : List (ι × α)
  /-- For each NULL returned by `alloc`: whether the list was empty when `count` was read. -/
  nulls : List Bool
  /-- `LIST_GET` has followed the pointer of an empty list. -/
  faulted : Bool

inductive Action (ι α : Type)
  | allocTest (t : ι)
  | allocGet (t : ι)
  | allocReset (t : ι)
  | freeReset (t : ι) (packet : α)
  | freePut (t : ι)
  | handOver (t t' : ι) (packet : α)

variable {ι α : Type} [DecidableEq ι] [DecidableEq α]

def Pool.goto (s : Pool ι α) (t : ι) (task : Task α) : Pool ι α :=
  { s with task := Function.update s.task t task }

def init (next : α → Option α) (packets : List α) : Pool ι α where
  queue := iotlabPacketInitQueue next packets
  task _ := .idle
  held := []
  nulls := []
  faulted := false

/-- `if (queue->count == 0) return NULL;`, outside of the mutex. -/
def allocTest (s : Pool ι α) (t : ι) : Pool ι α :=
  if s.queue.count = 0 then { s with nulls := s.queue.head.isNone :: s.nulls }
  else s.goto t .tested

def allocGet (s : Pool ι α) (t : ι) : Pool ι α :=
  match listGet s.queue with
  | none => { s with faulted := true }
  | some (packet, queue) =>
    { s.goto t (.taken packet) with queue := queue, held := (t, packet) :: s.held }

def freePut (s : Pool ι α) (t : ι) (packet : α) : Pool ι α :=
  { s.goto t .idle with queue := listPut s.queue packet, held := s.held.erase (t, packet) }

def step (s : Pool ι α) (a : Action ι α) : Option (Pool ι α) :=
  if s.faulted then none
  else match a with
    | .allocTest t => if s.task t = .idle then some (allocTest s t) else none
    | .allocGet t => if s.task t = .tested then some (allocGet s t) else none
    | .allocReset t => match s.task t with
      | .taken packet => some { s.goto t .idle with queue := packetReset s.queue packet }
      | _ => none
    | .freeReset t packet =>
      if s.task t = .idle ∧ (t, packet) ∈ s.held then
        some { s.goto t (.freeing packet) with queue := packetReset s.queue packet }
      else none
    | .freePut t => match s.task t with
      | .freeing packet => some (freePut s t packet)
      | _ => none
    | .handOver t t' packet =>
      if s.task t = .idle ∧ (t, packet) ∈ s.held then
        some { s with held := (t', packet) :: s.held.erase (t, packet) }
      else none

def inFlight [Fintype ι] (s : Pool ι α) : Nat := tally (· = Task.tested) s.task

/-- A task passes the test only if the other tasks that have passed it leave a packet. -/
def Spare [Fintype ι] (s : Pool ι α) : Action ι α → Prop
  | .allocTest _ => s.queue.count ≠ 0 → (inFlight s : Int) < s.queue.count
  | _ => True

inductive Change (s : Pool ι α) : Action ι α → Pool ι α → Prop
  | null (t : ι) : s.task t = .idle → s.queue.count = 0 →
      Change s (.allocTest t) { s with nulls := s.queue.head.isNone :: s.nulls }
  | test (t : ι) : s.task t = .idle → s.queue.count ≠ 0 →
      Change s (.allocTest t) (s.goto t .tested)
  | fault (t : ι) : s.task t = .tested → s.queue.head = none →
      Change s (.allocGet t) { s with faulted := true }
  | get (t : ι) (packet : α) (queue : Queue α) : s.task t = .tested →
      listGet s.queue = some (packet, queue) →
      Change s (.allocGet t)
        { s.goto t (.taken packet) with queue := queue, held := (t, packet) :: s.held }
  | reset (t : ι) (packet : α) : s.task t = .taken packet →
      Change s (.allocReset t) { s.goto t .idle with queue := packetReset s.queue packet }
  | free (t : ι) (packet : α) : s.task t = .idle → (t, packet) ∈ s.held →
      Change s (.freeReset t packet)
        { s.goto t (.freeing packet) with queue := packetReset s.queue packet }
  | put (t : ι) (packet : α) : s.task t = .freeing packet →
      Change s (.freePut t) (freePut s t packet)
  | handOver (t t' : ι) (packet : α) : s.task t = .idle → (t, packet) ∈ s.held →
      Change s (.handOver t t' packet)
        { s with held := (t', packet) :: s.held.erase (t, packet) }

theorem step_change {s u : Pool ι α} {a : Action ι α} (h : step s a = some u) :
    s.faulted = false ∧ Change s a u := by
  obtain ⟨alive, h⟩ := Option.ite_none_left_eq_some.mp h
  refine ⟨by simpa using alive, ?_⟩
  cases a with
  | allocTest t =>
    obtain ⟨idle, h⟩ := Option.ite_none_right_eq_some.mp h
    cases h
    rw [allocTest]
    split
    · exact .null t idle ‹_›
    · exact .test t idle ‹_›
  | allocGet t =>
    obtain ⟨tested, h⟩ := Option.ite_none_right_eq_some.mp h
    cases h
    rw [allocGet]
    split
    · exact .fault t tested (listGet_eq_none_iff.mp ‹_›)
    · exact .get t _ _ tested ‹_›
  | allocReset t =>
    simp only at h
    split at h
    · cases h
      exact .reset t _ ‹_›
    · cases h
  | freeReset t packet =>
    obtain ⟨⟨idle, holds⟩, h⟩ := Option.ite_none_right_eq_some.mp h
    cases h
    exact .free t packet idle holds
  | freePut t =>
    simp only at h
    split at h
    · cases h
      exact .put t _ ‹_›
    · cases h
  | handOver t t' packet =>
    obtain ⟨⟨idle, holds⟩, h⟩ := Option.ite_none_right_eq_some.mp h
    cases h
    exact .handOver t t' packet idle holds

def Task.packet : Task α → Option α
  | .taken packet | .freeing packet => some packet
  | _ => none

/-- The packets `l` are in the list; every packet of the pool is there or with one holder. -/
structure Owned (packets l : List α) (s : Pool ι α) : Prop where
  stored : Stored s.queue l
  conserved : (s.held.map Prod.snd ++ l).Perm packets
  holds : ∀ t packet, (s.task t).packet = some packet → (t, packet) ∈ s.held
  nulls : ∀ b ∈ s.nulls, b = true

variable {packets l : List α} {s u : Pool ι α} {a : Action ι α}

omit [DecidableEq ι] [DecidableEq α] in
theorem Owned.not_mem (h : Owned packets l s) (nodup : packets.Nodup) {t} {packet}
    (holds : (t, packet) ∈ s.held) : packet ∉ l := by
  have apart := nodup_append.mp (h.conserved.nodup_iff.mpr nodup)
  intro mem
  exact apart.2.2 packet (mem_map_of_mem holds) packet mem rfl

omit [DecidableEq α] in
theorem Owned.moved (h : Owned packets l s) {t} {task} {queue}
    (stored : Stored queue l) (keep : ∀ packet, task.packet = some packet → (t, packet) ∈ s.held) :
    Owned packets l { s.goto t task with queue := queue } where
  stored := stored
  conserved := h.conserved
  holds t' packet working := by
    by_cases same : t' = t
    · subst same
      exact keep packet (by simpa [Pool.goto] using working)
    · exact h.holds t' packet (by simpa [Pool.goto, same] using working)
  nulls := h.nulls

theorem owned_change (nodup : packets.Nodup) (h : Owned packets l s) (c : Change s a u) :
    ∃ l', Owned packets l' u := by
  cases c with
  | null t idle zero =>
    refine ⟨l, h.stored, h.conserved, h.holds, fun b hb => ?_⟩
    rcases mem_cons.mp hb with rfl | hb
    · rw [h.stored.head_eq, h.stored.count_eq_zero_iff.mp zero]
      rfl
    · exact h.nulls b hb
  | test t idle =>
    exact ⟨l, h.moved h.stored (by simp [Task.packet])⟩
  | fault t tested => exact ⟨l, h.stored, h.conserved, h.holds, h.nulls⟩
  | get t packet queue tested got =>
    obtain ⟨rest, rfl, stored⟩ := h.stored.get got
    refine ⟨rest, stored, perm_middle.symm.trans h.conserved, ?_, h.nulls⟩
    intro t' packet' working
    by_cases same : t' = t
    · subst same
      obtain rfl : packet = packet' := by simpa [Pool.goto, Task.packet] using working
      exact mem_cons_self
    · exact mem_cons_of_mem _ (h.holds t' packet' (by simpa [Pool.goto, same] using working))
  | reset t packet taken =>
    have holds := h.holds t packet (by rw [taken]; rfl)
    exact ⟨l, h.moved (h.stored.reset (h.not_mem nodup holds)) (by simp [Task.packet])⟩
  | free t packet idle holds =>
    refine ⟨l, h.moved (h.stored.reset (h.not_mem nodup holds)) fun packet' working => ?_⟩
    cases working
    exact holds
  | put t packet freeing =>
    have holds := h.holds t packet (by rw [freeing]; rfl)
    refine ⟨packet :: l, h.stored.put (h.not_mem nodup holds),
      (perm_erase_put holds).trans h.conserved, ?_, h.nulls⟩
    intro t' packet' working
    by_cases same : t' = t
    · subst same
      simp [freePut, Pool.goto, Task.packet] at working
    · refine (mem_erase_of_ne (by simp [same])).mpr ?_
      exact h.holds t' packet' (by simpa [freePut, Pool.goto, same] using working)
  | handOver t t' packet idle holds =>
    refine ⟨l, h.stored, ?_, ?_, h.nulls⟩
    · exact (perm_middle.symm.trans (perm_erase_put holds)).trans h.conserved
    · intro x packet' working
      have other : (x, packet') ≠ (t, packet) := by
        rintro ⟨⟩
        rw [idle] at working
        cases working
      exact mem_cons_of_mem _ ((mem_erase_of_ne other).mpr (h.holds x packet' working))

omit [DecidableEq ι] in
theorem init_owned (next : α → Option α) (nodup : packets.Nodup) :
    Owned packets packets.reverse (init next packets : Pool ι α) where
  stored := initQueue_stored nodup
  conserved := reverse_perm packets
  holds := by simp [init, Task.packet]
  nulls := by simp [init]

section InFlight

variable [Fintype ι]

theorem inFlight_goto {t} {task} (before : s.task t ≠ .tested)
    (after : task ≠ .tested) : inFlight (s.goto t task) = inFlight s :=
  tally_keep ⟨fun h => absurd h before, fun h => absurd h after⟩

def Covered (s : Pool ι α) : Prop := s.faulted = false ∧ (inFlight s : Int) ≤ s.queue.count

theorem covered_change (h : Owned packets l s) (covered : Covered s) (spare : Spare s a)
    (c : Change s a u) : Covered u := by
  obtain ⟨alive, enough⟩ := covered
  cases c with
  | null t idle zero | handOver t t' packet idle holds => exact ⟨alive, enough⟩
  | test t idle nonzero =>
    refine ⟨alive, ?_⟩
    have grown : inFlight (s.goto t .tested) = inFlight s + 1 := tally_enter (by simp [idle]) rfl
    have := spare nonzero
    change (inFlight (s.goto t .tested) : Int) ≤ s.queue.count
    omega
  | fault t tested empty =>
    exfalso
    have some_ : 0 < inFlight s := tally_pos tested
    have zero : s.queue.count = 0 := by
      rw [h.stored.count_eq_zero_iff, ← head?_eq_none_iff, ← h.stored.head_eq, empty]
    omega
  | get t packet queue tested got =>
    refine ⟨alive, ?_⟩
    obtain ⟨rest, rfl, stored⟩ := h.stored.get got
    have fewer : inFlight (s.goto t (.taken packet)) + 1 = inFlight s :=
      tally_leave tested (by simp)
    have before := h.stored.counted
    have after := stored.counted
    simp only [length_cons] at before
    change (inFlight (s.goto t (.taken packet)) : Int) ≤ queue.count
    omega
  | reset t packet taken =>
    refine ⟨alive, ?_⟩
    change (inFlight (s.goto t .idle) : Int) ≤ s.queue.count
    rwa [inFlight_goto (by simp [taken]) (by simp)]
  | free t packet idle =>
    refine ⟨alive, ?_⟩
    change (inFlight (s.goto t (.freeing packet)) : Int) ≤ s.queue.count
    rwa [inFlight_goto (by simp [idle]) (by simp)]
  | put t packet freeing =>
    refine ⟨alive, ?_⟩
    change (inFlight (s.goto t .idle) : Int) ≤ s.queue.count + 1
    rw [inFlight_goto (by simp [freeing]) (by simp)]
    omega

theorem pool_run (nodup : packets.Nodup) {next : α → Option α}
    (run : Run step Spare (init next packets) s) : (∃ l, Owned packets l s) ∧ Covered s := by
  refine run.invariant (fun s => (∃ l, Owned packets l s) ∧ Covered s) ?_ ?_
  · rintro t a u ⟨⟨l, owned⟩, covered⟩ spare hstep
    obtain ⟨-, change⟩ := step_change hstep
    exact ⟨owned_change nodup owned change, covered_change owned covered spare change⟩
  · refine ⟨⟨_, init_owned next nodup⟩, rfl, ?_⟩
    have none_ : inFlight (init next packets : Pool ι α) = 0 :=
      tally_eq_zero_iff.mpr fun _ => by simp [init]
    have counted : (init next packets : Pool ι α).queue.count = packets.reverse.length :=
      (initQueue_stored nodup).counted
    omega

/-- In every run in which no task passes the test on account of a packet that is already
spoken for: the list has `count` packets, each packet is in the list once or with one
holder, no empty list is followed, and NULL is returned for an empty pool only. -/
theorem pool_integrity (next : α → Option α) (nodup : packets.Nodup)
    (run : Run step Spare (init next packets) s) :
    s.faulted = false ∧ (∀ empty ∈ s.nulls, empty = true) ∧
      ∃ l, Stored s.queue l ∧ (s.held.map Prod.snd ++ l).Nodup ∧
        ∀ packet, packet ∈ packets ↔ packet ∈ l ∨ ∃ t, (t, packet) ∈ s.held := by
  obtain ⟨⟨l, owned⟩, alive, -⟩ := pool_run nodup run
  refine ⟨alive, owned.nulls, l, owned.stored, owned.conserved.nodup_iff.mpr nodup,
    fun packet => ?_⟩
  rw [← owned.conserved.mem_iff, mem_append, mem_map]
  simp [or_comm]

end InFlight

instance [Fintype ι] (s : Pool ι α) (a : Action ι α) : Decidable (Spare s a) := by
  unfold Spare
  split <;> infer_instance

theorem pool_integrity_two_tasks : ∃ s : Pool (Fin 2) (Fin 2),
    Run step Spare (init (fun _ => none) [0, 1]) s ∧ s.held = [(1, 0), (0, 1)] ∧
      s.nulls = [true] ∧ s.faulted = false := by
  obtain ⟨s, run, h⟩ : ∃ s : Pool (Fin 2) (Fin 2),
      Run step Spare (init (fun _ => none) [0, 1]) s ∧
        (s.held, s.nulls) = ([(1, 0), (0, 1)], [true]) := by
    refine execIf_observe [.allocTest 0, .allocTest 1, .allocGet 0, .allocGet 1, .allocReset 0,
      .allocTest 0] _ _ ?_
    decide +kernel
  obtain ⟨held, nulls⟩ := Prod.mk.inj h
  exact ⟨s, run, held, nulls, (pool_integrity _ (by decide) run).1⟩

/-- Two tasks test `count` while one packet is left; the second one follows NULL. -/
theorem empty_list_followed : ∃ s : Pool (Fin 2) (Fin 1),
    Reach step (init (fun _ => none) [0]) s ∧ s.faulted = true := by
  refine exec_observe [.allocTest 0, .allocTest 1, .allocGet 0, .allocGet 1] _ _ ?_
  decide +kernel

end PacketPool
