import OpenLab.PacketQueue
import OpenLab.Schedules

/-!
# The fifo as a stable priority queue

`iotlab_packet_fifo_prio_append` and `iotlab_packet_fifo_get` one after the other, the latter on a
fifo that is not empty, next to the packets in the order in which they were appended.
-/

namespace PrioFifo

open PacketQueue LinkedCells Schedules List

variable {α : Type} {priority : α → Nat}

/-- The fifo, the packets present in the order of their arrival, and the packets returned. -/
structure Fifo (α : Type) where
  queue : Queue α
  present : List α
  returned : List α

inductive Action (α : Type)
  | append (packet : α)
  | get

/-- `get` also sets `packet->next`. -/
def step [DecidableEq α] [Fintype α] (priority : α → Nat) (s : Fifo α) : Action α → Option (Fifo α)
  | .append packet => if packet ∈ s.present then none else some { s with
      queue := prioAppend priority s.queue packet, present := s.present ++ [packet] }
  | .get => (listGet s.queue).map fun (packet, queue) =>
      ⟨packetReset queue packet, s.present.erase packet, s.returned ++ [packet]⟩

def init (next : α → Option α) : Fifo α := ⟨⟨0, none, next⟩, [], []⟩

/-- Among the packets `l` none has a higher priority, and none of the same priority came before. -/
def First (priority : α → Nat) (l : List α) (packet : α) : Prop :=
  ∃ before after, l = before ++ packet :: after ∧ (∀ x ∈ before, priority x < priority packet) ∧
    ∀ x ∈ after, priority x ≤ priority packet

/-- The list of the fifo: the packets present, once, with their number in `count`; and what the
next `get` returns. -/
structure Ordered [DecidableEq α] [Fintype α] (priority : α → Nat) (s : Fifo α) : Prop where
  listed : ∃ l, Stored s.queue l ∧ l.Perm s.present ∧ l.Nodup
  served : s.present ≠ [] → ∃ packet t, step priority s .get = some t ∧
    First priority s.present packet ∧ t.returned = s.returned ++ [packet] ∧
    t.queue.next packet = none ∧ t.present = s.present.erase packet

def level (priority : α → Nat) (k : Nat) (l : List α) : List α :=
  l.filter fun x => priority x = k

/-- The list `l` is `present`, sorted by descending priorities and otherwise in the same order. -/
structure Sorted (priority : α → Nat) (present l : List α) : Prop where
  perm : l.Perm present
  nodup : l.Nodup
  down : l.Pairwise fun x y => priority y ≤ priority x
  stable : ∀ k, level priority k l = level priority k present

variable {present l : List α} {packet : α}

theorem level_prioInsert (k : Nat) (down : l.Pairwise fun x y => priority y ≤ priority x) :
    level priority k (prioInsert priority packet l) = level priority k (l ++ [packet]) := by
  induction l with
  | nil => rfl
  | cons x rest ih =>
    obtain ⟨high, down⟩ := pairwise_cons.mp down
    rw [prioInsert]
    split
    · next lower =>
      -- everything behind the packet has a lower priority
      have others : ∀ y ∈ x :: rest, priority y < priority packet := by
        intro y hy
        rcases mem_cons.mp hy with rfl | hy
        · exact lower
        · exact (high y hy).trans_lt lower
      by_cases same : priority packet = k
      · have none_ : level priority k (x :: rest) = [] := by
          refine filter_eq_nil_iff.mpr fun y hy => ?_
          simpa using (same ▸ others y hy).ne
        rw [level, filter_cons_of_pos (by simpa using same), level, filter_append]
        rw [level] at none_
        simp [none_, same]
      · simp [level, same, filter_cons]
    · simp only [level, filter_cons, cons_append] at ih ⊢
      rw [ih down]

theorem down_prioInsert (down : l.Pairwise fun x y => priority y ≤ priority x) :
    (prioInsert priority packet l).Pairwise fun x y => priority y ≤ priority x := by
  induction l with
  | nil => simp [prioInsert]
  | cons x rest ih =>
    obtain ⟨high, rest_down⟩ := pairwise_cons.mp down
    rw [prioInsert]
    split
    · next lower =>
      refine pairwise_cons.mpr ⟨fun y hy => ?_, down⟩
      rcases mem_cons.mp hy with rfl | hy
      · exact lower.le
      · exact ((high y hy).trans_lt lower).le
    · next least =>
      refine pairwise_cons.mpr ⟨fun y hy => ?_, ih rest_down⟩
      rcases mem_prioInsert.mp hy with rfl | hy
      · exact Nat.not_lt.mp least
      · exact high y hy

theorem Sorted.append (h : Sorted priority present l) (fresh : packet ∉ present) :
    Sorted priority (present ++ [packet]) (prioInsert priority packet l) where
  perm := perm_prioInsert.trans ((h.perm.cons packet).trans (perm_append_singleton _ _).symm)
  nodup := by
    rw [perm_prioInsert.nodup_iff, nodup_cons, h.perm.mem_iff]
    exact ⟨fresh, h.nodup⟩
  down := down_prioInsert h.down
  stable := fun k => by
    have same := h.stable k
    rw [level_prioInsert k h.down]
    simp only [level, filter_append] at same ⊢
    rw [same]

theorem Sorted.tail [DecidableEq α] (h : Sorted priority present (packet :: l)) :
    Sorted priority (present.erase packet) l where
  perm := by simpa using h.perm.erase packet
  nodup := (nodup_cons.mp h.nodup).2
  down := (pairwise_cons.mp h.down).2
  stable := fun k => by
    have absent : packet ∉ level priority k l := fun mem =>
      (nodup_cons.mp h.nodup).1 (mem_filter.mp mem).1
    have others : (level priority k l).filter (· != packet) = level priority k l :=
      filter_eq_self.mpr fun x hx => by simpa using ne_of_mem_of_not_mem hx absent
    have commutes : level priority k (present.filter (· != packet)) =
        (level priority k present).filter (· != packet) := by
      simp [level, filter_filter, Bool.and_comm]
    rw [(h.perm.nodup_iff.mp h.nodup).erase_eq_filter, commutes, ← h.stable k, ← others]
    by_cases same : priority packet = k <;> simp [level, same]

theorem Sorted.first (h : Sorted priority present (packet :: l)) :
    First priority present packet := by
  obtain ⟨before, after, rfl⟩ := append_of_mem (h.perm.mem_iff.mp mem_cons_self)
  have highest : ∀ x ∈ before ++ packet :: after, priority x ≤ priority packet := by
    intro x hx
    rcases mem_cons.mp (h.perm.mem_iff.mpr hx) with rfl | hx
    · exact Nat.le_refl _
    · exact (pairwise_cons.mp h.down).1 x hx
  refine ⟨before, after, rfl, fun x hx => ?_, fun x hx => highest x (by simp [hx])⟩
  refine Nat.lt_of_le_of_ne (highest x (by simp [hx])) fun same => ?_
  -- the first of that priority would be in the list before the packet
  have equal := h.stable (priority packet)
  have mem : x ∈ level priority (priority packet) before :=
    mem_filter.mpr ⟨hx, decide_eq_true same⟩
  obtain ⟨y, ys, hys⟩ := exists_cons_of_ne_nil (ne_nil_of_mem mem)
  simp only [level, filter_append] at equal hys
  rw [hys, filter_cons_of_pos (by simp)] at equal
  obtain rfl : packet = y := (cons.inj equal).1
  have twice : packet ∈ before := (mem_filter.mp (hys ▸ mem_cons_self)).1
  have nodup := h.perm.nodup_iff.mp h.nodup
  exact (nodup_append.mp nodup).2.2 packet twice packet mem_cons_self rfl

variable [DecidableEq α] [Fintype α] {s t : Fifo α}

def Kept (priority : α → Nat) (s : Fifo α) : Prop :=
  ∃ l, Stored s.queue l ∧ Sorted priority s.present l

theorem get_eq (priority : α → Nat) (stored : Stored s.queue (packet :: l)) : ∃ queue,
    step priority s .get = some ⟨packetReset queue packet, s.present.erase packet,
      s.returned ++ [packet]⟩ ∧ Stored (packetReset queue packet) l := by
  have head : s.queue.head = some packet := stored.head_eq
  have got : listGet s.queue =
      some (packet, { s.queue with head := s.queue.next packet, count := s.queue.count - 1 }) := by
    simp [listGet, head]
  obtain ⟨rest, eq, rest_stored⟩ := stored.get got
  obtain rfl := (cons.inj eq).2
  refine ⟨_, by simp [step, got], rest_stored.reset ?_⟩
  exact (nodup_cons.mp stored.linked.nodup).1

theorem kept_step {a} (h : Kept priority s) (moved : step priority s a = some t) :
    Kept priority t := by
  obtain ⟨l, stored, sorted⟩ := h
  cases a with
  | append packet =>
    by_cases fresh : packet ∈ s.present
    · simp [step, fresh] at moved
    · obtain rfl : _ = t := by simpa [step, fresh] using moved
      have absent : packet ∉ l := fun mem => fresh (sorted.perm.mem_iff.mp mem)
      exact ⟨_, prioAppend_stored stored absent, sorted.append fresh⟩
  | get =>
    cases l with
    | nil =>
      have head : s.queue.head = none := stored.head_eq
      simp [step, listGet, head] at moved
    | cons packet l =>
      obtain ⟨queue, eq, rest⟩ := get_eq priority stored
      obtain rfl := Option.some.inj (eq.symm.trans moved)
      exact ⟨l, rest, sorted.tail⟩

theorem exec_gets (priority : α → Nat) (stored : Stored s.queue l) : ∃ t,
    exec (step priority) s (replicate l.length .get) = some t ∧ t.returned = s.returned ++ l := by
  induction l generalizing s with
  | nil => exact ⟨s, rfl, (append_nil _).symm⟩
  | cons packet l ih =>
    obtain ⟨queue, got, rest⟩ := get_eq priority stored
    obtain ⟨t, run, returned⟩ := ih (s := ⟨_, s.present.erase packet, s.returned ++ [packet]⟩) rest
    refine ⟨t, ?_, by simp [returned]⟩
    rw [length_cons, replicate_succ, exec, got]
    exact run

/-- Emptying the fifo returns what is present by descending priorities, and the packets of one
priority in the order of their arrival. -/
theorem emptied_in_order (priority : α → Nat) (next : α → Option α)
    (run : Reach (step priority) (init next) s) : ∃ l t,
      exec (step priority) s (replicate s.present.length .get) = some t ∧
      t.returned = s.returned ++ l ∧ Sorted priority s.present l := by
  obtain ⟨l, stored, sorted⟩ : Kept priority s :=
    run.invariant (Kept priority) (fun _ _ _ h _ moved => kept_step h moved)
      ⟨[], ⟨.nil, rfl⟩, ⟨.rfl, .nil, .nil, fun _ => rfl⟩⟩
  obtain ⟨t, gets, returned⟩ := exec_gets priority stored
  exact ⟨l, t, sorted.perm.length_eq ▸ gets, returned, sorted⟩

theorem emptied_in_order_three : ∃ s : Fifo (Fin 3), s.present = [0, 1] ∧ ∃ l t,
    exec (step Fin.val) s [.get, .get] = some t ∧ t.returned = s.returned ++ l ∧
      Sorted Fin.val s.present l := by
  obtain ⟨s, run, present⟩ : ∃ s : Fifo (Fin 3),
      Reach (step Fin.val) (init fun _ => none) s ∧ s.present = [0, 1] :=
    exec_observe [.append 0, .append 2, .append 1, .get] _ _ (by decide +kernel)
  obtain ⟨l, t, gets, rest⟩ := emptied_in_order _ _ run
  rw [present] at gets
  exact ⟨s, present, l, t, gets, rest⟩

end PrioFifo
