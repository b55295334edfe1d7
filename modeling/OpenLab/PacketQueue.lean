import OpenLab.LinkedCells

/-!
# Packet queues

`iotlab_packet_queue_t` of `iotlab_packet.c`: a counter and a list linked through the packets.
`Stored` connects the sections under the mutex to the list of the packets.
-/

namespace PacketQueue

open Function LinkedCells List

variable {α : Type}

structure Queue (α : Type) where
  count : Int
  /-- The pointer `head.next`. -/
  head : Option α
  /-- The pointers `next` in the packets themselves. -/
  next : α → Option α

section Model

variable [DecidableEq α]

/-- `packet_reset`, as far as the queue is concerned. -/
def packetReset (q : Queue α) (packet : α) : Queue α :=
  { q with next := update q.next packet none }

def listPut (q : Queue α) (packet : α) : Queue α :=
  { q with
    next := update q.next packet q.head
    head := some packet
    count := q.count + 1 }

/-- `LIST_PUT` behind the packet `prev`, and `count++`. -/
def listPutBehind (q : Queue α) (prev packet : α) : Queue α :=
  { q with
    next := update (update q.next packet (q.next prev)) prev (some packet)
    count := q.count + 1 }

/-- `LIST_GET` behind the head, and `--count`; `none` if it dereferences NULL. -/
def listGet (q : Queue α) : Option (α × Queue α) :=
  q.head.map fun packet => (packet, { q with head := q.next packet, count := q.count - 1 })

def iotlabPacketFree (q : Queue α) (packet : α) : Queue α := listPut (packetReset q packet) packet

def iotlabPacketInitQueue (next : α → Option α) (packets : List α) : Queue α :=
  packets.foldl iotlabPacketFree ⟨0, none, next⟩

/-- The section of `iotlab_packet_fifo_prio_append`. The loop stops at the first packet
of a lower priority; `prev` is the head itself if that is the first one. -/
def prioAppend [Fintype α] (priority : α → Nat) (q : Queue α) (packet : α) : Queue α :=
  match q.head with
  | none => listPut q packet
  | some first =>
    if priority packet > priority first then listPut q packet
    else listPutBehind q
      (seek q.next (fun x => !decide (priority packet > priority x)) (Fintype.card α) first) packet

end Model

def prioInsert (priority : α → Nat) (packet : α) : List α → List α
  | [] => [packet]
  | x :: rest =>
    if priority packet > priority x then packet :: x :: rest
    else x :: prioInsert priority packet rest

/-- The queue holds the packets `l`, in this order. -/
structure Stored (q : Queue α) (l : List α) : Prop where
  linked : Chain q.next q.head l
  counted : q.count = l.length

section Lemmas

variable {q : Queue α} {l : List α} {packet : α} {priority : α → Nat}

theorem Stored.head_eq (h : Stored q l) : q.head = l.head? := h.linked.head_eq

theorem Stored.count_eq_zero_iff (h : Stored q l) : q.count = 0 ↔ l = [] := by
  rw [h.counted, Int.natCast_eq_zero, length_eq_zero_iff]

theorem listGet_eq_none_iff : listGet q = none ↔ q.head = none := by
  simp [listGet]

theorem Stored.get (h : Stored q l) {q'} (got : listGet q = some (packet, q')) :
    ∃ rest, l = packet :: rest ∧ Stored q' rest := by
  obtain ⟨first, head, eq⟩ := Option.map_eq_some_iff.mp got
  obtain ⟨rfl, rfl⟩ := Prod.mk.inj eq
  have linked := h.linked
  rw [head, chain_some_iff] at linked
  obtain ⟨rest, rfl, linked⟩ := linked
  refine ⟨rest, rfl, linked, ?_⟩
  have := h.counted
  simp only [length_cons] at this ⊢
  omega

theorem mem_prioInsert {x} : x ∈ prioInsert priority packet l ↔ x = packet ∨ x ∈ l := by
  induction l with
  | nil => simp [prioInsert]
  | cons y rest ih =>
    rw [prioInsert]
    split
    · simp
    · rw [mem_cons, ih, mem_cons]
      tauto

theorem perm_prioInsert : (prioInsert priority packet l).Perm (packet :: l) := by
  induction l with
  | nil => exact .rfl
  | cons y rest ih =>
    rw [prioInsert]
    split
    · exact .rfl
    · exact (ih.cons y).trans (.swap packet y rest)

theorem length_prioInsert : (prioInsert priority packet l).length = l.length + 1 := by
  have perm : (prioInsert priority packet l).Perm (packet :: l) := perm_prioInsert
  rw [perm.length_eq, length_cons]

theorem prioInsert_eq : prioInsert priority packet l =
    l.takeWhile (fun x => !decide (priority packet > priority x)) ++
      packet :: l.dropWhile (fun x => !decide (priority packet > priority x)) := by
  induction l with
  | nil => rfl
  | cons y rest ih =>
    rw [prioInsert]
    by_cases lower : priority packet > priority y
    · simp [lower]
    · simp [lower, ih]

variable [DecidableEq α]

theorem Stored.reset (h : Stored q l) (fresh : packet ∉ l) : Stored (packetReset q packet) l where
  linked := h.linked.frame fun _ hx => update_of_ne (ne_of_mem_of_not_mem hx fresh) _ _
  counted := h.counted

theorem Stored.put (h : Stored q l) (fresh : packet ∉ l) :
    Stored (listPut q packet) (packet :: l) where
  linked := h.linked.push fresh
  counted := by simp [listPut, h.counted]

theorem Stored.free (h : Stored q l) (fresh : packet ∉ l) :
    Stored (iotlabPacketFree q packet) (packet :: l) := (h.reset fresh).put fresh

theorem foldl_free_stored {packets : List α} (h : Stored q l)
    (nodup : (packets.reverse ++ l).Nodup) :
    Stored (packets.foldl iotlabPacketFree q) (packets.reverse ++ l) := by
  induction packets generalizing q l with
  | nil => exact h
  | cons packet packets ih =>
    rw [reverse_cons, append_assoc] at nodup ⊢
    refine ih (h.free fun mem => ?_) nodup
    exact (nodup_cons.mp (nodup_append.mp nodup).2.1).1 mem

theorem initQueue_stored {next : α → Option α} {packets : List α} (nodup : packets.Nodup) :
    Stored (iotlabPacketInitQueue next packets) packets.reverse := by
  have stored : Stored (packets.foldl iotlabPacketFree ⟨0, none, next⟩) (packets.reverse ++ []) :=
    foldl_free_stored ⟨.nil, rfl⟩ (by simpa using nodup)
  rwa [append_nil] at stored

theorem prioAppend_count [Fintype α] :
    (prioAppend priority q packet).count = q.count + 1 := by
  rw [prioAppend]
  split
  · rfl
  · split <;> rfl

instance decidableHeld {ι : Type} [DecidableEq ι] (x : ι × α) (held : List (ι × α)) :
    Decidable (x ∈ held) :=
  inferInstance

theorem perm_erase_put {ι : Type} [DecidableEq ι] {held : List (ι × α)} {t packet}
    (holds : (t, packet) ∈ held) :
    ((held.erase (t, packet)).map Prod.snd ++ packet :: l).Perm (held.map Prod.snd ++ l) := by
  have perm : (held.map Prod.snd).Perm (packet :: (held.erase (t, packet)).map Prod.snd) :=
    (perm_cons_erase holds).map Prod.snd
  exact perm_middle.trans (perm.symm.append_right l)

theorem prioAppend_stored [Fintype α] (h : Stored q l) (fresh : packet ∉ l) :
    Stored (prioAppend priority q packet) (prioInsert priority packet l) := by
  cases l with
  | nil =>
    have head : q.head = none := h.head_eq
    rw [prioAppend, head]
    exact h.put fresh
  | cons first rest =>
    have head : q.head = some first := h.head_eq
    rw [prioAppend, head, prioInsert]
    by_cases lower : priority packet > priority first
    · simp only [lower, if_true]
      exact h.put fresh
    · simp only [lower, if_false]
      have enough : rest.length ≤ Fintype.card α := by
        have := h.linked.nodup.length_le_card
        simp only [length_cons] at this
        omega
      obtain ⟨pre, eq, -⟩ := seek_spec (p := fun x => !decide (priority packet > priority x))
        h.linked.tail enough
      -- The walk splits the list behind its last packet of at least the new priority.
      have split : first :: rest = pre ++ seek q.next
          (fun x => !decide (priority packet > priority x)) (Fintype.card α) first ::
          rest.dropWhile (fun x => !decide (priority packet > priority x)) := by
        rw [append_cons, ← eq, cons_append, takeWhile_append_dropWhile]
      refine ⟨?_, ?_⟩
      · have spliced := (split ▸ h.linked : Chain q.next q.head _).splice (split ▸ fresh)
        rw [prioInsert_eq, ← cons_append, eq, append_assoc]
        exact spliced
      · have := h.counted
        simp only [listPutBehind, length_cons, length_prioInsert] at this ⊢
        omega

end Lemmas

end PacketQueue
