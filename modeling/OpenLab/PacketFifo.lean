import OpenLab.PacketQueue
import OpenLab.Schedules
import OpenLab.Tally

/-!
# Wake-ups of the packet fifo

Producers call `iotlab_packet_fifo_prio_append` and consumers `iotlab_packet_fifo_get` on one
queue. A step is one statement; `new_packet` is a binary semaphore that is available after its
creation.
-/

namespace PacketFifo

open Function Schedules PacketQueue Tally List Option

inductive Task (α : Type)
  | idle
  /-- `fifo_get` is about to take the mutex, at its start or after `new_packet`. -/
  | getLock
  | getTest
  /-- The fifo was empty: give the mutex, then wait for `new_packet`. -/
  | getRelease
  | getWait
  /-- The fifo was not empty: `LIST_GET`. -/
  | getTake
  | getUnlock (packet : α)
  /-- `packet->next = NULL`, without the mutex. -/
  | getReset (packet : α)
  | putLock (packet : α)
  | putLink (packet : α)
  /-- The fifo was empty: give `new_packet`. -/
  | putPost
  | putUnlock
  deriving DecidableEq

structure Fifo (ι α : Type) where
  queue : Queue α
  mutex : Option ι
  newPacket : Bool
  task : ι → Task α
  /-- The packets outside of the fifo, with the tasks that hold them. -/
  held : List (ι × α)
  /-- `LIST_GET` has followed the pointer of an empty list. -/
  faulted : Bool

inductive Action (ι α : Type)
  | get (t : ι)
  | append (t : ι) (packet : α)
  /-- The task executes its next statement. -/
  | run (t : ι)

variable {ι α : Type} [DecidableEq ι] [DecidableEq α]

def Fifo.goto (s : Fifo ι α) (t : ι) (task : Task α) : Fifo ι α :=
  { s with task := update s.task t task }

/-- `iotlab_packet_init_queue` without packets; the tasks hold all of them. -/
def init (next : α → Option α) (held : List (ι × α)) : Fifo ι α where
  queue := iotlabPacketInitQueue next []
  mutex := none
  newPacket := true
  task _ := .idle
  held := held
  faulted := false

variable [Fintype α] (priority : α → Nat)

def execute (s : Fifo ι α) (t : ι) : Option (Fifo ι α) :=
  match s.task t with
  | .idle => none
  | .getLock => if s.mutex = none then some { s.goto t .getTest with mutex := some t } else none
  | .getTest => some (s.goto t (if s.queue.count = 0 then .getRelease else .getTake))
  | .getRelease => some { s.goto t .getWait with mutex := none }
  | .getWait => if s.newPacket then some { s.goto t .getLock with newPacket := false } else none
  | .getTake => match listGet s.queue with
    | none => some { s with faulted := true }
    | some (packet, queue) => some { s.goto t (.getUnlock packet) with
        queue := queue, held := (t, packet) :: s.held }
  | .getUnlock packet => some { s.goto t (.getReset packet) with mutex := none }
  | .getReset packet => some { s.goto t .idle with queue := packetReset s.queue packet }
  | .putLock packet =>
    if s.mutex = none then some { s.goto t (.putLink packet) with mutex := some t } else none
  | .putLink packet => some { s.goto t (if s.queue.count = 0 then .putPost else .putUnlock) with
      queue := prioAppend priority s.queue packet, held := s.held.erase (t, packet) }
  | .putPost => some { s.goto t .putUnlock with newPacket := true }
  | .putUnlock => some { s.goto t .idle with mutex := none }

def step (s : Fifo ι α) (a : Action ι α) : Option (Fifo ι α) :=
  if s.faulted then none
  else match a with
    | .get t => if s.task t = .idle then some (s.goto t .getLock) else none
    | .append t packet =>
      if s.task t = .idle ∧ (t, packet) ∈ s.held then some (s.goto t (.putLock packet)) else none
    | .run t => execute priority s t

/-- A consumer that will look at the fifo, or go to wait, without a further wake-up. -/
def Task.Looking : Task α → Prop
  | .getLock | .getTest | .getRelease | .getTake => True
  | _ => False

instance : DecidablePred (Task.Looking : Task α → Prop) := fun task => by
  cases task <;> unfold Task.Looking <;> infer_instance

section Counts

variable [Fintype ι]

def waiting (s : Fifo ι α) : Nat := tally (· = Task.getWait) s.task

def looking (s : Fifo ι α) : Nat := tally Task.Looking s.task

def posting (s : Fifo ι α) : Nat := tally (· = Task.putPost) s.task

def wakeUps (s : Fifo ι α) : Nat := s.newPacket.toNat + posting s

/-- A packet is added to a fifo that is not empty only if every blocked consumer has a
wake-up, or the packet finds a consumer of its own. -/
def Answered (s : Fifo ι α) : Action ι α → Prop
  | .run t => match s.task t with
    | .putLink _ => s.queue.count ≠ 0 →
        waiting s ≤ wakeUps s ∨ s.queue.count + 1 ≤ looking s + wakeUps s
    | _ => True
  | _ => True

/-- No task is between two of its steps, a consumer is blocked on `new_packet`, and the
fifo is not empty. -/
def Stuck (s : Fifo ι α) : Prop :=
  s.queue.count ≠ 0 ∧ s.newPacket = false ∧ (∃ t, s.task t = .getWait) ∧
    ∀ t, s.task t = .idle ∨ s.task t = .getWait

end Counts

inductive Change (s : Fifo ι α) : Action ι α → Fifo ι α → Prop
  | get (t : ι) : s.task t = .idle → Change s (.get t) (s.goto t .getLock)
  | append (t : ι) (packet : α) : s.task t = .idle → (t, packet) ∈ s.held →
      Change s (.append t packet) (s.goto t (.putLock packet))
  | lock (t : ι) : s.task t = .getLock → s.mutex = none →
      Change s (.run t) { s.goto t .getTest with mutex := some t }
  | empty (t : ι) : s.task t = .getTest → s.queue.count = 0 →
      Change s (.run t) (s.goto t .getRelease)
  | nonempty (t : ι) : s.task t = .getTest → s.queue.count ≠ 0 →
      Change s (.run t) (s.goto t .getTake)
  | release (t : ι) : s.task t = .getRelease →
      Change s (.run t) { s.goto t .getWait with mutex := none }
  | wake (t : ι) : s.task t = .getWait → s.newPacket = true →
      Change s (.run t) { s.goto t .getLock with newPacket := false }
  | fault (t : ι) : s.task t = .getTake → s.queue.head = none →
      Change s (.run t) { s with faulted := true }
  | take (t : ι) (packet : α) (queue : Queue α) : s.task t = .getTake →
      listGet s.queue = some (packet, queue) →
      Change s (.run t) { s.goto t (.getUnlock packet) with
        queue := queue, held := (t, packet) :: s.held }
  | unlock (t : ι) (packet : α) : s.task t = .getUnlock packet →
      Change s (.run t) { s.goto t (.getReset packet) with mutex := none }
  | reset (t : ι) (packet : α) : s.task t = .getReset packet →
      Change s (.run t) { s.goto t .idle with queue := packetReset s.queue packet }
  | lockPut (t : ι) (packet : α) : s.task t = .putLock packet → s.mutex = none →
      Change s (.run t) { s.goto t (.putLink packet) with mutex := some t }
  | link (t : ι) (packet : α) : s.task t = .putLink packet →
      Change s (.run t) { s.goto t (if s.queue.count = 0 then .putPost else .putUnlock) with
        queue := prioAppend priority s.queue packet, held := s.held.erase (t, packet) }
  | post (t : ι) : s.task t = .putPost →
      Change s (.run t) { s.goto t .putUnlock with newPacket := true }
  | unlockPut (t : ι) : s.task t = .putUnlock →
      Change s (.run t) { s.goto t .idle with mutex := none }

variable {priority} {s u : Fifo ι α} {a : Action ι α} {t : ι}

theorem execute_change (h : execute priority s t = some u) : Change priority s (.run t) u := by
  unfold execute at h
  split at h
  case h_1 => cases h
  case h_2 at_ =>
    obtain ⟨free, h⟩ := ite_none_right_eq_some.mp h
    cases h
    exact .lock t at_ free
  case h_3 at_ =>
    cases h
    split
    · exact .empty t at_ ‹_›
    · exact .nonempty t at_ ‹_›
  case h_4 at_ =>
    cases h
    exact .release t at_
  case h_5 at_ =>
    obtain ⟨given, h⟩ := ite_none_right_eq_some.mp h
    cases h
    exact .wake t at_ given
  case h_6 at_ =>
    split at h
    · cases h
      exact .fault t at_ (listGet_eq_none_iff.mp ‹_›)
    · cases h
      exact .take t _ _ at_ ‹_›
  case h_7 packet at_ =>
    cases h
    exact .unlock t packet at_
  case h_8 packet at_ =>
    cases h
    exact .reset t packet at_
  case h_9 packet at_ =>
    obtain ⟨free, h⟩ := ite_none_right_eq_some.mp h
    cases h
    exact .lockPut t packet at_ free
  case h_10 packet at_ =>
    cases h
    exact .link t packet at_
  case h_11 at_ =>
    cases h
    exact .post t at_
  case h_12 at_ =>
    cases h
    exact .unlockPut t at_

theorem step_change (h : step priority s a = some u) :
    s.faulted = false ∧ Change priority s a u := by
  obtain ⟨alive, h⟩ := ite_none_left_eq_some.mp h
  refine ⟨by simpa using alive, ?_⟩
  cases a with
  | get t =>
    obtain ⟨idle, h⟩ := ite_none_right_eq_some.mp h
    cases h
    exact .get t idle
  | append t packet =>
    obtain ⟨⟨idle, holds⟩, h⟩ := ite_none_right_eq_some.mp h
    cases h
    exact .append t packet idle holds
  | run t => exact execute_change h

def Task.packet : Task α → Option α
  | .getUnlock packet | .getReset packet | .putLock packet | .putLink packet => some packet
  | _ => none

def Task.Locked : Task α → Prop
  | .getTest | .getRelease | .getTake | .getUnlock _ | .putLink _ | .putPost | .putUnlock => True
  | _ => False

def Task.Seen (count : Int) : Task α → Prop
  | .getRelease => count = 0
  | .getTake => count ≠ 0
  | .putPost => count = 1
  | _ => True

/-- The packets `l` are in the fifo; every packet is there or with one holder. -/
structure Sound (packets l : List α) (s : Fifo ι α) : Prop where
  stored : Stored s.queue l
  conserved : (s.held.map Prod.snd ++ l).Perm packets
  holds : ∀ t packet, (s.task t).packet = some packet → (t, packet) ∈ s.held
  exclusive : ∀ t, (s.task t).Locked → s.mutex = some t
  seen : ∀ t, (s.task t).Seen s.queue.count

variable {packets l l' : List α} {task : Task α}

omit [DecidableEq ι] [DecidableEq α] [Fintype α] in
theorem Task.seen_of_not_locked {count} (h : ¬task.Locked) : task.Seen count := by
  cases task <;> simp_all [Task.Locked, Task.Seen]

omit [DecidableEq ι] [DecidableEq α] [Fintype α] in
theorem Sound.not_mem (h : Sound packets l s) (nodup : packets.Nodup) {packet}
    (holds : (t, packet) ∈ s.held) : packet ∉ l := by
  have apart := nodup_append.mp (h.conserved.nodup_iff.mpr nodup)
  intro mem
  exact apart.2.2 packet (mem_map_of_mem holds) packet mem rfl

omit [DecidableEq α] [Fintype α] in
theorem Sound.move (h : Sound packets l s) {queue} {mutex}
    {held} {newPacket} (stored : Stored queue l')
    (conserved : (held.map Prod.snd ++ l').Perm packets)
    (keep : ∀ t' packet, t' ≠ t → (t', packet) ∈ s.held → (t', packet) ∈ held)
    (own : ∀ packet, task.packet = some packet → (t, packet) ∈ held)
    (lock : task.Locked → mutex = some t)
    (others : ∀ t', t' ≠ t → s.mutex = some t' → mutex = some t') (seen : task.Seen queue.count)
    (quiet : queue.count = s.queue.count ∨ (s.task t).Locked) :
    Sound packets l' ⟨queue, mutex, newPacket, update s.task t task, held, s.faulted⟩ where
  stored := stored
  conserved := conserved
  holds t' packet working := by
    by_cases same : t' = t
    · subst same
      exact own packet (by simpa using working)
    · exact keep t' packet same (h.holds t' packet (by simpa [same] using working))
  exclusive t' locked := by
    by_cases same : t' = t
    · subst same
      exact lock (by simpa using locked)
    · exact others t' same (h.exclusive t' (by simpa [same] using locked))
  seen t' := by
    by_cases same : t' = t
    · subst same
      simpa using seen
    · change (update s.task t task t').Seen queue.count
      rw [update_of_ne same]
      rcases quiet with eq | locked
      · exact eq ▸ h.seen t'
      · refine Task.seen_of_not_locked fun locked' => same ?_
        have := (h.exclusive t' locked').symm.trans (h.exclusive t locked)
        exact some.inj this

omit [DecidableEq α] [Fintype α] in
theorem Sound.goto (h : Sound packets l s) {mutex} {newPacket}
    (own : ∀ packet, task.packet = some packet → (t, packet) ∈ s.held)
    (lock : task.Locked → mutex = some t)
    (others : ∀ t', t' ≠ t → s.mutex = some t' → mutex = some t') (seen : task.Seen s.queue.count) :
    Sound packets l { s.goto t task with mutex := mutex, newPacket := newPacket } :=
  h.move h.stored h.conserved (fun _ _ _ mem => mem) own lock others seen (.inl rfl)

omit [DecidableEq ι] [DecidableEq α] [Fintype α] in
theorem Sound.alone (h : Sound packets l s) {t'} (locked : (s.task t).Locked) (other : t' ≠ t) :
    s.mutex ≠ some t' := by
  intro holder
  exact other (some.inj (holder.symm.trans (h.exclusive t locked)))

theorem sound_change (nodup : packets.Nodup) (h : Sound packets l s)
    (c : Change priority s a u) : ∃ l', Sound packets l' u := by
  cases c with
  | get t idle | wake t at_ given =>
    exact ⟨l, h.goto (by simp [Task.packet]) (by simp [Task.Locked]) (fun _ _ mem => mem) trivial⟩
  | append t packet idle holds =>
    exact ⟨l, h.goto (by simpa [Task.packet] using holds) (by simp [Task.Locked])
      (fun _ _ mem => mem) trivial⟩
  | lock t at_ free =>
    exact ⟨l, h.goto (by simp [Task.packet]) (fun _ => rfl) (by simp [free]) trivial⟩
  | empty t at_ zero =>
    have holder := h.exclusive t (by rw [at_]; trivial)
    exact ⟨l, h.goto (by simp [Task.packet]) (fun _ => holder) (fun _ _ mem => mem) zero⟩
  | nonempty t at_ nonzero =>
    have holder := h.exclusive t (by rw [at_]; trivial)
    exact ⟨l, h.goto (by simp [Task.packet]) (fun _ => holder) (fun _ _ mem => mem) nonzero⟩
  | release t at_ | unlockPut t at_ =>
    have locked : (s.task t).Locked := by rw [at_]; trivial
    exact ⟨l, h.goto (by simp [Task.packet]) (by simp [Task.Locked])
      (fun t' other holder => absurd holder (h.alone locked other)) trivial⟩
  | fault t at_ head => exact ⟨l, h.stored, h.conserved, h.holds, h.exclusive, h.seen⟩
  | take t packet queue at_ got =>
    have locked : (s.task t).Locked := by rw [at_]; trivial
    obtain ⟨rest, rfl, stored⟩ := h.stored.get got
    refine ⟨rest, h.move stored (perm_middle.symm.trans h.conserved)
      (fun _ _ _ mem => mem_cons_of_mem _ mem) ?_ (fun _ => h.exclusive t locked)
      (fun _ _ mem => mem) trivial (.inr locked)⟩
    simp [Task.packet]
  | unlock t packet at_ =>
    have locked : (s.task t).Locked := by rw [at_]; trivial
    have holds := h.holds t packet (by rw [at_]; rfl)
    exact ⟨l, h.goto (by simpa [Task.packet] using holds) (by simp [Task.Locked])
      (fun t' other holder => absurd holder (h.alone locked other)) trivial⟩
  | reset t packet at_ =>
    have holds := h.holds t packet (by rw [at_]; rfl)
    exact ⟨l, h.move (h.stored.reset (h.not_mem nodup holds)) h.conserved (fun _ _ _ mem => mem)
      (by simp [Task.packet]) (by simp [Task.Locked]) (fun _ _ mem => mem) trivial (.inl rfl)⟩
  | lockPut t packet at_ free =>
    have holds := h.holds t packet (by rw [at_]; rfl)
    exact ⟨l, h.goto (by simpa [Task.packet] using holds) (fun _ => rfl) (by simp [free]) trivial⟩
  | link t packet at_ =>
    have locked : (s.task t).Locked := by rw [at_]; trivial
    have holds := h.holds t packet (by rw [at_]; rfl)
    have stored : Stored (prioAppend priority s.queue packet) (prioInsert priority packet l) :=
      prioAppend_stored h.stored (h.not_mem nodup holds)
    refine ⟨_, h.move stored ?_ ?_ ?_ (fun _ => h.exclusive t locked) (fun _ _ mem => mem) ?_
      (.inr locked)⟩
    · have inserted : (prioInsert priority packet l).Perm (packet :: l) := perm_prioInsert
      exact ((inserted.append_left _).trans (perm_erase_put holds)).trans h.conserved
    · intro t' packet' other mem
      exact (mem_erase_of_ne (by simp [other])).mpr mem
    · split <;> simp [Task.packet]
    · split
      · have empty := h.stored.count_eq_zero_iff.mp ‹_›
        have counted := stored.counted
        rw [length_prioInsert, empty] at counted
        exact counted
      · trivial
  | post t at_ =>
    have holder := h.exclusive t (by rw [at_]; trivial)
    exact ⟨l, h.goto (by simp [Task.packet]) (fun _ => holder) (fun _ _ mem => mem) trivial⟩

section Wake

variable [Fintype ι]

/-- Every blocked consumer has a wake-up, or every packet has a consumer that will look at
the fifo. -/
def Balanced (s : Fifo ι α) : Prop :=
  waiting s ≤ wakeUps s ∨ s.queue.count ≤ looking s + wakeUps s

variable {held : List (ι × α)} {next : α → Option α}

omit [Fintype α] in
theorem Balanced.move {t : ι} {task : Task α} {queue : Queue α} {mutex : Option ι}
    {newPacket : Bool} (enough : ∀ w k p : Nat,
      w + (if s.task t = .getWait then 1 else 0) = waiting s + (if task = .getWait then 1 else 0) →
      k + (if (s.task t).Looking then 1 else 0) = looking s + (if task.Looking then 1 else 0) →
      p + (if s.task t = .putPost then 1 else 0) = posting s + (if task = .putPost then 1 else 0) →
      w ≤ newPacket.toNat + p ∨ queue.count ≤ k + (newPacket.toNat + p : Nat)) :
    Balanced ⟨queue, mutex, newPacket, update s.task t task, held, s.faulted⟩ :=
  enough _ _ _ (tally_update ..) (tally_update ..) (tally_update ..)

omit [Fintype α] in
theorem Balanced.keep (balanced : Balanced s) {t : ι} {task : Task α} {queue : Queue α}
    {mutex : Option ι} (same : queue.count = s.queue.count)
    (wait : s.task t = .getWait ↔ task = .getWait) (look : (s.task t).Looking ↔ task.Looking)
    (post : s.task t = .putPost ↔ task = .putPost) :
    Balanced ⟨queue, mutex, s.newPacket, update s.task t task, held, s.faulted⟩ := by
  refine Balanced.move fun w k p hw hk hp => ?_
  simp only [wait, look, post, Nat.add_right_cancel_iff] at hw hk hp
  rwa [hw, hk, hp, same]

theorem balanced_change (h : Sound packets l s) (balanced : Balanced s) (answered : Answered s a)
    (c : Change priority s a u) : Balanced u := by
  have numbers := balanced
  unfold Balanced wakeUps at numbers
  cases c with
  | get t idle =>
    refine Balanced.move fun w k p hw hk hp => ?_
    simp [idle, Task.Looking] at hw hk hp
    omega
  | append t packet idle =>
    exact balanced.keep rfl (by simp [idle]) (by simp [idle, Task.Looking]) (by simp [idle])
  | lock t at_ | empty t at_ | nonempty t at_ | unlock t packet at_ | reset t packet at_
  | lockPut t packet at_ | unlockPut t at_ =>
    exact balanced.keep rfl (by simp [at_]) (by simp [at_, Task.Looking]) (by simp [at_])
  | release t at_ =>
    -- The consumer goes to wait, but the fifo is still empty.
    have zero : s.queue.count = 0 := by
      have := h.seen t
      rwa [at_] at this
    exact Balanced.move fun w k p _ _ _ => .inr (by change s.queue.count ≤ _; omega)
  | wake t at_ given =>
    refine Balanced.move fun w k p hw hk hp => ?_
    simp [at_, Task.Looking] at hw hk hp
    change _ ∨ s.queue.count ≤ _
    simp only [given, Bool.toNat_true, Bool.toNat_false] at numbers ⊢
    omega
  | fault t at_ => exact balanced
  | take t packet queue at_ got =>
    obtain ⟨rest, rfl, stored⟩ := h.stored.get got
    have before := h.stored.counted
    have after := stored.counted
    refine Balanced.move fun w k p hw hk hp => ?_
    simp [at_, Task.Looking] at hw hk hp
    simp only [length_cons] at before
    change _ ≤ s.newPacket.toNat + p ∨ _ ≤ (k : Int) + (s.newPacket.toNat + p : Nat)
    omega
  | link t packet at_ =>
    have count : (prioAppend priority s.queue packet).count = s.queue.count + 1 := prioAppend_count
    by_cases zero : s.queue.count = 0
    · rw [if_pos zero]
      refine Balanced.move fun w k p hw hk hp => ?_
      simp [at_] at hp
      omega
    · have condition : waiting s ≤ wakeUps s ∨
          s.queue.count + 1 ≤ looking s + wakeUps s := by
        simpa [Answered, at_, zero] using answered
      rw [if_neg zero]
      unfold wakeUps at condition
      refine Balanced.move fun w k p hw hk hp => ?_
      simp [at_, Task.Looking] at hw hk hp
      change _ ≤ s.newPacket.toNat + p ∨ _ ≤ (k : Int) + (s.newPacket.toNat + p : Nat)
      omega
  | post t at_ =>
    -- The fifo still has the one packet, which a consumer finds with this wake-up.
    have one : s.queue.count = 1 := by
      have := h.seen t
      rwa [at_] at this
    refine Balanced.move fun w k p _ _ _ => .inr ?_
    change s.queue.count ≤ _
    simp only [Bool.toNat_true]
    omega

omit [DecidableEq ι] [Fintype α] [Fintype ι] in
theorem init_sound : Sound (held.map Prod.snd) [] (init next held) where
  stored := ⟨.nil, rfl⟩
  conserved := by simp [init]
  holds := by simp [init, Task.packet]
  exclusive := by simp [init, Task.Locked]
  seen := by simp [init, Task.Seen]

theorem fifo_run (nodup : (held.map Prod.snd).Nodup)
    (run : Run (step priority) Answered (init next held) s) :
    (∃ l, Sound (held.map Prod.snd) l s) ∧ Balanced s ∧ s.faulted = false := by
  refine run.invariant (fun s => (∃ l, Sound (held.map Prod.snd) l s) ∧ Balanced s ∧
    s.faulted = false) ?_ ?_
  · rintro t a u ⟨⟨l, sound⟩, balanced, -⟩ answered hstep
    obtain ⟨alive, change⟩ := step_change hstep
    refine ⟨sound_change nodup sound change, balanced_change sound balanced answered change, ?_⟩
    cases change with
    | fault t at_ head =>
      have nonzero := sound.seen t
      rw [at_] at nonzero
      refine absurd (sound.stored.count_eq_zero_iff.mpr ?_) nonzero
      rw [← head?_eq_none_iff, ← sound.stored.head_eq, head]
    | _ => exact alive
  · refine ⟨⟨[], init_sound⟩, .inl ?_, rfl⟩
    have none_ : waiting (init next held) = 0 := tally_eq_zero_iff.mpr fun _ => by simp [init]
    omega

omit [DecidableEq ι] [Fintype α] in
theorem Balanced.not_stuck (balanced : Balanced s) (sound : Sound packets l s) : ¬Stuck s := by
  rintro ⟨nonempty, taken, ⟨t, blocked⟩, rest⟩
  have some_ : 0 < waiting s := tally_pos blocked
  have noneLooking : looking s = 0 := tally_eq_zero_iff.mpr fun t look => by
    rcases rest t with h | h <;> rw [h] at look <;> exact look
  have nonePosting : posting s = 0 := tally_eq_zero_iff.mpr fun t post => by
    rcases rest t with h | h <;> rw [h] at post <;> cases post
  unfold Balanced wakeUps at balanced
  rw [taken, Bool.toNat_false] at balanced
  have counted := sound.stored.counted
  omega

/-- In every run in which packets are added to a fifo that is not empty only as long as
the blocked consumers have wake-ups or the packets have consumers: no state is stuck, and
`fifo_get` takes no packet from an empty list. -/
theorem wake_ups_answered (next : α → Option α) (held : List (ι × α))
    (nodup : (held.map Prod.snd).Nodup)
    (run : Run (step priority) Answered (init next held) s) : ¬Stuck s ∧ s.faulted = false := by
  obtain ⟨⟨l, sound⟩, balanced, alive⟩ := fifo_run nodup run
  exact ⟨balanced.not_stuck sound, alive⟩

end Wake

instance [Fintype ι] (s : Fifo ι α) (a : Action ι α) : Decidable (Answered s a) := by
  unfold Answered
  split
  · split <;> infer_instance
  · infer_instance

instance [Fintype ι] (s : Fifo ι α) : Decidable (Stuck s) := by
  unfold Stuck
  infer_instance

theorem wake_ups_answered_blocked : ∃ s : Fifo (Fin 2) (Fin 1),
    Run (step fun _ => 0) Answered (init (fun _ => none) [(1, 0)]) s ∧ s.queue.count = 1 ∧
      s.task 0 = .getWait ∧ ¬Stuck s ∧ s.faulted = false := by
  obtain ⟨s, run, h⟩ : ∃ s : Fifo (Fin 2) (Fin 1),
      Run (step fun _ => 0) Answered (init (fun _ => none) [(1, 0)]) s ∧
        (s.queue.count, s.task 0) = (1, .getWait) := by
    refine execIf_observe (.get 0 :: replicate 7 (.run 0) ++
      .append 1 0 :: replicate 4 (.run 1)) _ _ ?_
    decide +kernel
  obtain ⟨count, task⟩ := Prod.mk.inj h
  exact ⟨s, run, count, task, wake_ups_answered _ _ (by decide) run⟩

/-- Two consumers are blocked and two packets are added before one of them runs: there is
one wake-up, and the second consumer stays blocked while its packet is in the fifo. -/
theorem wake_up_missing : ∃ s : Fifo (Fin 3) (Fin 2),
    Reach (step fun _ => 0) (init (fun _ => none) [(2, 0), (2, 1)]) s ∧ Stuck s := by
  obtain ⟨s, run, h⟩ : ∃ s : Fifo (Fin 3) (Fin 2),
      Reach (step fun _ => 0) (init (fun _ => none) [(2, 0), (2, 1)]) s ∧
        decide (Stuck s) = true := by
    refine exec_observe (.get 0 :: replicate 7 (.run 0) ++ .get 1 :: replicate 3 (.run 1) ++
      .append 2 0 :: replicate 4 (.run 2) ++ .append 2 1 :: replicate 3 (.run 2) ++
      replicate 6 (.run 0)) _ _ ?_
    decide +kernel
  exact ⟨s, run, of_decide_eq_true h⟩

end PacketFifo
