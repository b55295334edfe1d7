import OpenLab.TdmaCore

/-!
# Who holds which frame

A `Ledger` lists the frames each place of a device holds. `Books` says that it is right: every
list is the chain that the pointers form, no frame is listed twice, every pool frame is listed,
and the numbers of accepted data are each in one place. The lemmas are the moves of a frame.
-/

namespace TdmaLedger

open Function TdmaTypes TdmaCore LinkedCells List

deriving instance Fintype for FrameId

variable {l : List FrameId}

theorem length_le_frameCount (h : l.Nodup) : l.length ≤ frameCount :=
  (show Fintype.card FrameId = frameCount by decide) ▸ h.length_le_card

structure Holdings where
  heap : FrameId → Frame
  frames : Option FrameId
  nbFrames : Nat
  txFrames : Option FrameId
  slot : Option FrameId
  appli : List AppliEvent
  running : Option Running
  sends : List Send
  ticket : FrameId → Nat
  accepted : List SendReq
  txOk : List Nat
  txLog : List TxStart
  reports : List Report

def holdings (d : Device) : Holdings where
  heap := d.heap
  frames := d.frames
  nbFrames := d.nbFrames
  txFrames := d.tdma.txFrames
  slot := d.sf.frame
  appli := d.appli
  running := d.running
  sends := d.sends
  ticket := d.ghost.ticket
  accepted := d.ghost.accepted
  txOk := d.ghost.txOk
  txLog := d.ghost.txLog
  reports := d.ghost.reports

def Holdings.next (h : Holdings) (f : FrameId) : Option FrameId := (h.heap f).next

inductive SlotUse
  | empty
  | rx (frame : FrameId)
  | tx (frame : FrameId)
  | scan

namespace SlotUse

def frames : SlotUse → List FrameId
  | .empty => []
  | .rx f => [f]
  | .tx f => [f]
  | .scan => [.node]

/-- The frame in transmission, when it carries accepted data. -/
def data : SlotUse → List FrameId
  | .tx (.pool i) => [.pool i]
  | _ => []

@[simp] theorem frames_empty : SlotUse.empty.frames = [] := rfl

@[simp] theorem data_empty : SlotUse.empty.data = [] := rfl

def plain : SlotUse → List FrameId
  | .tx (.pool _) => []
  | u => u.frames

end SlotUse

/-- `hand` and `load` are the frames that only the running code knows, without and
with accepted data. -/
structure Ledger where
  free : List FrameId
  queue : List FrameId
  slot : SlotUse
  chain : List FrameId
  events : List (AppliEvent × List FrameId)
  hand : List FrameId
  load : List FrameId

def chained : AppliEvent × List FrameId → List FrameId
  | (.dataTx _, l) => l
  | _ => []

def unchained : AppliEvent × List FrameId → List FrameId
  | (.dataTx _, _) => []
  | (_, l) => l

/-- Number of times a frame is listed outside the hands of the running code. -/
def stored (h : Holdings) (L : Ledger) (f : FrameId) : Nat :=
  L.free.count f + L.queue.count f + L.slot.frames.count f + L.chain.count f +
    (L.events.flatMap Prod.snd).count f + (h.sends.map Send.frame).count f

def tally (h : Holdings) (L : Ledger) (f : FrameId) : Nat :=
  stored h L f + L.hand.count f + L.load.count f

def finishing : Option Running → List Nat
  | some (.finishTx _ t _ _ _) => [t]
  | _ => []

/-- Number of places in which accepted data number `t` is. -/
def carried (h : Holdings) (L : Ledger) (t : Nat) : Nat :=
  ((L.queue.filter FrameId.isPool).map h.ticket).count t + (L.slot.data.map h.ticket).count t +
    (L.chain.map h.ticket).count t + ((L.events.flatMap chained).map h.ticket).count t +
    (L.load.map h.ticket).count t + (finishing h.running).count t +
    (h.reports.map Report.ticket).count t

def started (log : List TxStart) : List Nat :=
  (log.filter fun e => e.frame.isPool).map TxStart.ticket

def waiting (h : Holdings) (L : Ledger) : List Nat :=
  (L.queue.filter FrameId.isPool).map h.ticket

def Carries (h : Holdings) (f : FrameId) : Prop :=
  ∃ req, h.accepted[h.ticket f]? = some req ∧ req.cb = (h.heap f).cb ∧ req.arg = (h.heap f).arg

structure Queued (f : FrameId) (fr : Frame) (own : Prop) : Prop where
  idle : fr.status = .idle
  kind : f = .node ∨ f.isPool ∧ fr.pkt.headerType = .data ∧ own

structure Done (f : FrameId) (fr : Frame) (ok own : Prop) : Prop where
  pool : f.isPool
  sent : fr.status = .sent → ok
  own : own

def AllDone (h : Holdings) (l : List FrameId) : Prop :=
  ∀ g ∈ l, Done g (h.heap g) (h.ticket g ∈ h.txOk) (Carries h g)

def SlotHolds (h : Holdings) : SlotUse → Prop
  | .empty => h.slot = none
  | .rx f => h.slot = some f ∧ f.isPool ∧ (h.heap f).status = .rx
  | .tx f => h.slot = some f ∧ h.next f = none ∧ (f ≠ .beacon → (h.heap f).status = .idle) ∧
      (f.isPool → (h.heap f).pkt.headerType = .data ∧ Carries h f)
  | .scan => h.slot = some .node

def Holds (h : Holdings) : AppliEvent → List FrameId → Prop
  | .dataTx f, l => Chain h.next (some f) l ∧ AllDone h l
  | .nodeBeacon f, l => l = [f] ∧ f.isPool
  | .dataRx f, l => l = [f] ∧ f.isPool
  | .coordAssoc f, l => l = [f] ∧ f.isPool
  | _, l => l = []

/-- A report of number `t` may be made: its callback is the right one, and success is
only reported after a success. -/
structure Reportable (accepted : List SendReq) (txOk : List Nat) (r : Report) : Prop where
  own : ∃ req, accepted[r.ticket]? = some req ∧ req.cb = r.cb ∧ req.arg = r.arg
  ok : r.result = .ok → r.ticket ∈ txOk

def ChainHolds (h : Holdings) (l : List FrameId) : Prop :=
  match h.running with
  | some (.finishTx next t cb arg res) =>
    Chain h.next next l ∧ AllDone h l ∧ Reportable h.accepted h.txOk ⟨t, cb, arg, res⟩
  | _ => l = []

structure Sending (s : Send) (fr : Frame) : Prop where
  pool : s.frame.isPool
  idle : fr.status = .idle
  data : s.filled → fr.pkt.headerType = .data ∧ s.req.cb = fr.cb ∧ s.req.arg = fr.arg

structure Books (h : Holdings) (L : Ledger) : Prop where
  free : Chain h.next h.frames L.free
  freePool : ∀ f ∈ L.free, f.isPool
  count : h.nbFrames = L.free.length
  queue : Chain h.next h.txFrames L.queue
  queued : ∀ f ∈ L.queue, Queued f (h.heap f) (Carries h f)
  slot : SlotHolds h L.slot
  chain : ChainHolds h L.chain
  events : L.events.map Prod.fst = h.appli
  held : ∀ p ∈ L.events, Holds h p.1 p.2
  sends : ∀ s ∈ h.sends, Sending s (h.heap s.frame)
  once : ∀ f, tally h L f ≤ 1
  pool : ∀ i, tally h L (.pool i) = 1
  carried : ∀ t, carried h L t = if t < h.accepted.length then 1 else 0
  reported : ∀ r ∈ h.reports, Reportable h.accepted h.txOk r
  ordered : (started h.txLog ++ waiting h L).Pairwise (· < ·)
  startedBelow : ∀ t ∈ started h.txLog, t < h.accepted.length

variable {h h' : Holdings} {L : Ledger} {f : FrameId}

/-- Frames, numbers and successes of a list of frames are as they were. -/
structure Agree (h h' : Holdings) (l : List FrameId) : Prop where
  heap : ∀ a ∈ l, h'.heap a = h.heap a
  ticket : ∀ a ∈ l, h'.ticket a = h.ticket a
  txOk : ∀ t ∈ h.txOk, t ∈ h'.txOk
  accepted : h.accepted <+: h'.accepted

variable {accepted' : List SendReq} {e : AppliEvent}

theorem getElem?_of_le {accepted : List SendReq} (h : accepted <+: accepted') {t : Nat}
    {req : SendReq} (ht : accepted[t]? = some req) : accepted'[t]? = some req := by
  obtain ⟨more, rfl⟩ := h
  obtain ⟨hlt, rfl⟩ := List.getElem?_eq_some_iff.mp ht
  exact (getElem?_append_left hlt).trans ht

theorem Reportable.mono {accepted : List SendReq} {txOk txOk' : List Nat} {r : Report}
    (hr : Reportable accepted txOk r) (h : accepted <+: accepted') (ok : ∀ t ∈ txOk, t ∈ txOk') :
    Reportable accepted' txOk' r := by
  obtain ⟨req, hreq, hcb⟩ := hr.own
  exact ⟨⟨req, getElem?_of_le h hreq, hcb⟩, fun hok => ok _ (hr.ok hok)⟩

section

variable (same : Agree h h' l)

include same

theorem Agree.carries {a : FrameId} (ha : a ∈ l) (hc : Carries h a) : Carries h' a := by
  obtain ⟨req, hreq, hcb⟩ := hc
  refine ⟨req, ?_, ?_⟩
  · rw [same.ticket a ha]
    exact getElem?_of_le same.accepted hreq
  · rw [same.heap a ha]
    exact hcb

theorem Agree.chain {head} (hc : Chain h.next head l) : Chain h'.next head l :=
  hc.frame fun a ha => by simp [Holdings.next, same.heap a ha]

theorem Agree.done (hd : AllDone h l) : AllDone h' l := by
  intro g hg
  refine ⟨(hd g hg).pool, fun hs => ?_, same.carries hg (hd g hg).own⟩
  rw [same.heap g hg] at hs
  rw [same.ticket g hg]
  exact same.txOk _ ((hd g hg).sent hs)

theorem Agree.holds (hh : Holds h e l) : Holds h' e l := by
  cases e with
  | dataTx f => exact ⟨same.chain hh.1, same.done hh.2⟩
  | _ => exact hh

theorem Agree.queued (hq : ∀ g ∈ l, Queued g (h.heap g) (Carries h g)) :
    ∀ g ∈ l, Queued g (h'.heap g) (Carries h' g) := by
  intro g hg
  refine ⟨(same.heap g hg).symm ▸ (hq g hg).idle, (hq g hg).kind.imp_right fun hk => ?_⟩
  exact ⟨hk.1, (same.heap g hg).symm ▸ hk.2.1, same.carries hg hk.2.2⟩

theorem Agree.chainHolds (run : h'.running = h.running) (hc : ChainHolds h l) :
    ChainHolds h' l := by
  unfold ChainHolds at hc ⊢
  rw [run]
  split
  · next hr =>
    rw [hr] at hc
    exact ⟨same.chain hc.1, same.done hc.2.1, hc.2.2.mono same.accepted same.txOk⟩
  · next hr =>
    split at hc
    · next hr' => exact absurd hr' (hr _ _ _ _ _)
    · exact hc

end

theorem Agree.slotHolds {u} (same : Agree h h' u.frames) (slot : h'.slot = h.slot)
    (hs : SlotHolds h u) : SlotHolds h' u := by
  cases u with
  | empty | scan => exact slot.trans hs
  | rx f =>
    have hf := same.heap f (mem_singleton_self f)
    exact ⟨slot.trans hs.1, hs.2.1, by rw [hf]; exact hs.2.2⟩
  | tx f =>
    have hf := same.heap f (mem_singleton_self f)
    refine ⟨slot.trans hs.1, ?_, ?_, ?_⟩
    · simpa [Holdings.next, hf] using hs.2.1
    · rw [hf]; exact hs.2.2.1
    · rw [hf]
      exact fun hp => ⟨(hs.2.2.2 hp).1, same.carries (mem_singleton_self f) (hs.2.2.2 hp).2⟩

theorem Agree.tickets (same : Agree h h' l) : l.map h'.ticket = l.map h.ticket :=
  map_congr_left same.ticket

theorem SlotUse.data_subset {u : SlotUse} {a : FrameId} (ha : a ∈ u.data) : a ∈ u.frames := by
  unfold SlotUse.data at ha
  split at ha
  · exact ha
  · cases ha

theorem mem_of_chained {L : Ledger} {a : FrameId} (ha : a ∈ L.events.flatMap chained) :
    a ∈ L.events.flatMap Prod.snd := by
  obtain ⟨p, hp, ha⟩ := mem_flatMap.mp ha
  refine mem_flatMap.mpr ⟨p, hp, ?_⟩
  unfold chained at ha
  split at ha
  · exact ha
  · cases ha

theorem SlotUse.count_frames (u : SlotUse) (a : FrameId) :
    u.plain.count a + u.data.count a = u.frames.count a := by
  rcases u with _ | f | f | _
  · rfl
  · rfl
  · cases f <;> simp [plain, data, frames]
  · rfl

theorem count_pool_of_static (hs : ∀ f ∈ l, f.isPool = false) (i : Fin macTdmaMaxFrames) :
    l.count (.pool i) = 0 :=
  count_eq_zero.mpr fun hm => by simpa [FrameId.isPool] using hs _ hm

theorem Holds.pool (hh : Holds h e l) : ∀ a ∈ l, a.isPool := by
  intro a ha
  cases e with
  | dataTx f => exact (hh.2 a ha).pool
  | nodeBeacon f | dataRx f | coordAssoc f =>
    rw [hh.1] at ha
    exact mem_singleton.mp ha ▸ hh.2
  | _ =>
    simp only [Holds] at hh
    simp [hh] at ha

theorem ChainHolds.pool (hh : ChainHolds h l) : ∀ a ∈ l, a.isPool := by
  intro a ha
  unfold ChainHolds at hh
  split at hh
  · exact (hh.2.1 a ha).pool
  · simp [hh] at ha

theorem SlotUse.plain_tx (hs : f.isPool = false) :
    (SlotUse.tx f).plain = [f] ∧ (SlotUse.tx f).data = [] := by
  cases f with
  | pool i => simp [FrameId.isPool] at hs
  | _ => exact ⟨rfl, rfl⟩

theorem SlotUse.data_tx (hp : f.isPool) :
    (SlotUse.tx f).plain = [] ∧ (SlotUse.tx f).data = [f] := by
  cases f with
  | pool i => exact ⟨rfl, rfl⟩
  | _ => simp [FrameId.isPool] at hp

section Moves

variable (hB : Books h L)

include hB

theorem Books.once_of_eq {L'}
    (same : ∀ a, TdmaLedger.tally h' L' a = TdmaLedger.tally h L a) :
    ∀ a, TdmaLedger.tally h' L' a ≤ 1 :=
  fun a => same a ▸ hB.once a

theorem Books.pool_of_eq {L'}
    (same : ∀ a, TdmaLedger.tally h' L' a = TdmaLedger.tally h L a) :
    ∀ i, TdmaLedger.tally h' L' (.pool i) = 1 :=
  fun i => same _ ▸ hB.pool i

/-- The general move: the queue and the hands of the running code may change, other
places keep their frames as they are. -/
theorem Books.requeue {heap' : FrameId → Frame} {ticket' : FrameId → Nat}
    {txOk' : List Nat} {tx' : Option FrameId} {queue' hand' load' : List FrameId}
    (heap : ∀ a, stored h L a ≠ 0 → a ∉ L.queue → heap' a = h.heap a)
    (ticket : ∀ a, stored h L a ≠ 0 → a ∉ L.queue → ticket' a = h.ticket a)
    (txOk : ∀ t ∈ h.txOk, t ∈ txOk') (chain : Chain (fun a => (heap' a).next) tx' queue')
    (queued : ∀ f ∈ queue', Queued f (heap' f) (Carries { h with
      heap := heap', ticket := ticket', accepted := accepted' } f))
    (tally : ∀ a, queue'.count a + hand'.count a + load'.count a =
      L.queue.count a + L.hand.count a + L.load.count a)
    (carried : ∀ t, ((queue'.filter FrameId.isPool).map ticket').count t +
        (load'.map ticket').count t + (if t < h.accepted.length then 1 else 0) =
      ((L.queue.filter FrameId.isPool).map h.ticket).count t +
        (L.load.map h.ticket).count t + (if t < accepted'.length then 1 else 0))
    (ordered : (started h.txLog ++ (queue'.filter FrameId.isPool).map ticket').Pairwise (· < ·))
    (more : h.accepted <+: accepted') : Books { h with
      heap := heap', txFrames := tx', ticket := ticket', txOk := txOk', accepted := accepted' }
      { L with queue := queue', hand := hand', load := load' } := by
  -- a frame of another place is not in the queue, so it is as it was
  have agree : ∀ l, (∀ a ∈ l, stored h L a ≠ 0 ∧ a ∉ L.queue) → Agree h { h with
      heap := heap', txFrames := tx', ticket := ticket', txOk := txOk',
      accepted := accepted' } l :=
    fun l hl => ⟨fun a ha => heap a (hl a ha).1 (hl a ha).2,
      fun a ha => ticket a (hl a ha).1 (hl a ha).2, txOk, more⟩
  have apart : ∀ l : List FrameId, (∀ a ∈ l, L.queue.count a + 1 ≤ stored h L a) →
      ∀ a ∈ l, stored h L a ≠ 0 ∧ a ∉ L.queue := by
    intro l hl a ha
    have h1 := hl a ha
    have h2 := hB.once a
    unfold TdmaLedger.tally at h2
    exact ⟨by omega, count_eq_zero.mp (by omega)⟩
  have free := agree L.free (apart _ fun a ha => by
    have := count_pos_iff.mpr ha; unfold stored; omega)
  have slot := agree L.slot.frames (apart _ fun a ha => by
    have := count_pos_iff.mpr ha; unfold stored; omega)
  have rest := agree L.chain (apart _ fun a ha => by
    have := count_pos_iff.mpr ha; unfold stored; omega)
  have events := agree (L.events.flatMap Prod.snd) (apart _ fun a ha => by
    have := count_pos_iff.mpr ha; unfold stored; omega)
  have sends := agree (h.sends.map Send.frame) (apart _ fun a ha => by
    have := count_pos_iff.mpr ha; unfold stored; omega)
  have slotData : L.slot.data.map ticket' = L.slot.data.map h.ticket :=
    map_congr_left fun a ha => slot.ticket a (SlotUse.data_subset ha)
  have eventData : (L.events.flatMap chained).map ticket' =
      (L.events.flatMap chained).map h.ticket :=
    map_congr_left fun a ha => events.ticket a (mem_of_chained ha)
  have same : ∀ a, TdmaLedger.tally { h with
      heap := heap', txFrames := tx', ticket := ticket', txOk := txOk', accepted := accepted' }
      { L with queue := queue', hand := hand', load := load' } a =
        TdmaLedger.tally h L a := by
    intro a
    have := tally a
    simp only [TdmaLedger.tally, stored]
    omega
  exact {
    free := free.chain hB.free
    freePool := hB.freePool
    count := hB.count
    queue := chain
    queued := queued
    slot := slot.slotHolds rfl hB.slot
    chain := rest.chainHolds rfl hB.chain
    events := hB.events
    held := fun p hp => by
      have part : ∀ a ∈ p.2, a ∈ L.events.flatMap Prod.snd :=
        fun a ha => mem_flatMap.mpr ⟨p, hp, ha⟩
      exact Agree.holds ⟨fun a ha => events.heap a (part a ha),
        fun a ha => events.ticket a (part a ha), txOk, more⟩ (hB.held p hp)
    sends := fun s hs => by
      have kept : heap' s.frame = h.heap s.frame := sends.heap _ (mem_map_of_mem hs)
      simp only [kept]
      exact hB.sends s hs
    once := hB.once_of_eq same
    pool := hB.pool_of_eq same
    carried := fun t => by
      have h1 := hB.carried t
      have h2 := carried t
      have h3 := rest.tickets
      simp only [TdmaLedger.carried] at h1 ⊢
      rw [slotData, eventData, h3]
      omega
    reported := fun r hr => (hB.reported r hr).mono more txOk
    ordered := ordered
    startedBelow := fun t ht => lt_of_lt_of_le (hB.startedBelow t ht) more.length_le }

theorem Books.stored_of_hand (hf : f ∈ L.hand ++ L.load) :
    stored h L f = 0 := by
  have hpos := count_pos_iff.mpr hf
  have := hB.once f
  rw [count_append] at hpos
  unfold tally at this
  omega

theorem Books.setHeap (hf : stored h L f = 0) (fr : Frame) :
    Books { h with heap := update h.heap f fr } L :=
  have other : ∀ a, stored h L a ≠ 0 → update h.heap f fr a = h.heap a :=
    fun a ha => update_of_ne (by rintro rfl; exact ha hf) _ _
  have queue : ∀ a ∈ L.queue, update h.heap f fr a = h.heap a := fun a ha =>
    other a (by have := count_pos_iff.mpr ha; unfold stored; omega)
  have agree : Agree h { h with heap := update h.heap f fr } L.queue :=
    ⟨queue, fun _ _ => rfl, fun _ ht => ht, prefix_rfl⟩
  hB.requeue (fun a ha _ => other a ha) (fun _ _ _ => rfl) (fun _ ht => ht)
    (hB.queue.frame fun a ha => by simp [Holdings.next, queue a ha])
    (agree.queued hB.queued)
    (fun _ => rfl) (fun _ => rfl) hB.ordered prefix_rfl

theorem Books.addOk (t : Nat) : Books { h with txOk := t :: h.txOk } L :=
  hB.requeue (fun _ _ _ => rfl) (fun _ _ _ => rfl) (fun _ ht => mem_cons_of_mem t ht)
    hB.queue hB.queued (fun _ => rfl) (fun _ => rfl) hB.ordered prefix_rfl

theorem Books.takeFree {rest} (hf : L.free = f :: rest) :
    Books { h with frames := h.next f, nbFrames := h.nbFrames - 1 }
      { L with free := rest, hand := f :: L.hand } := by
  have same : ∀ a, tally { h with frames := h.next f, nbFrames := h.nbFrames - 1 }
      { L with free := rest, hand := f :: L.hand } a = tally h L a := by
    intro a
    simp only [tally, stored, hf, count_cons]
    omega
  have hfree := hB.free
  rw [hf] at hfree
  refine { hB with
    free := hfree.tail, freePool := ?_, count := ?_
    once := hB.once_of_eq same, pool := hB.pool_of_eq same }
  · exact fun g hg => hB.freePool g (hf ▸ mem_cons_of_mem f hg)
  · have := hB.count
    simp only [hf, length_cons] at this ⊢
    omega

theorem Books.putFree (hand : L.hand = [f]) (hp : f.isPool)
    (link : h.next f = h.frames) :
    Books { h with frames := some f, nbFrames := h.nbFrames + 1 }
      { L with free := f :: L.free, hand := [] } := by
  have same : ∀ a, tally { h with frames := some f, nbFrames := h.nbFrames + 1 }
      { L with free := f :: L.free, hand := [] } a = tally h L a := by
    intro a
    simp only [tally, stored, hand, count_cons, count_nil]
    omega
  refine { hB with
    free := .cons (link ▸ hB.free), freePool := ?_, count := ?_
    once := hB.once_of_eq same, pool := hB.pool_of_eq same }
  · intro g hg
    rcases mem_cons.mp hg with rfl | hg
    · exact hp
    · exact hB.freePool g hg
  · simp [hB.count]

theorem Books.postHand (hand : L.hand = l) (hh : Holds h e l)
    (hn : chained (e, l) = []) : Books { h with appli := h.appli ++ [e] }
      { L with events := L.events ++ [(e, l)], hand := [] } := by
  have same : ∀ a, tally { h with appli := h.appli ++ [e] }
      { L with events := L.events ++ [(e, l)], hand := [] } a = tally h L a := by
    intro a
    simp only [tally, stored, hand, flatMap_append, flatMap_cons, flatMap_nil,
      append_nil, count_append, count_nil]
    omega
  refine { hB with
    events := ?_, held := ?_, carried := ?_
    once := hB.once_of_eq same, pool := hB.pool_of_eq same }
  · simp [hB.events]
  · intro p hp
    rcases mem_append.mp hp with hp | hp
    · exact hB.held p hp
    · rw [mem_singleton.mp hp]
      exact hh
  · intro t
    rw [← hB.carried t]
    simp [TdmaLedger.carried, hn]

theorem Books.postLoad (hh : Holds h (.dataTx f) L.load) :
    Books { h with appli := h.appli ++ [.dataTx f] }
      { L with events := L.events ++ [(.dataTx f, L.load)], load := [] } := by
  have same : ∀ a, tally { h with appli := h.appli ++ [.dataTx f] }
      { L with events := L.events ++ [(.dataTx f, L.load)], load := [] } a = tally h L a := by
    intro a
    simp only [tally, stored, flatMap_append, flatMap_cons, flatMap_nil,
      append_nil, count_append, count_nil]
    omega
  refine { hB with
    events := ?_, held := ?_, carried := ?_
    once := hB.once_of_eq same, pool := hB.pool_of_eq same }
  · simp [hB.events]
  · intro p hp
    rcases mem_append.mp hp with hp | hp
    · exact hB.held p hp
    · rw [mem_singleton.mp hp]
      exact hh
  · intro t
    rw [← hB.carried t]
    simp only [TdmaLedger.carried, flatMap_append, flatMap_cons, flatMap_nil,
      chained, append_nil, map_append, count_append, map_nil, count_nil]
    omega

theorem Books.popEvent {rest} (he : h.appli = e :: rest)
    (hand : L.hand = []) (load : L.load = []) :
    ∃ l events, Holds h e l ∧ ∃ L', Books { h with appli := rest } L' ∧
      L' = { L with
        events := events
        hand := unchained (e, l)
        load := chained (e, l) } := by
  have hev := hB.events
  rw [he] at hev
  obtain ⟨p, events, hL, hp, hrest⟩ := map_eq_cons_iff.mp hev
  obtain ⟨e', l⟩ := p
  obtain rfl : e' = e := hp
  have split : ∀ a, (unchained (e', l)).count a + (chained (e', l)).count a = l.count a := by
    intro a
    cases e' <;> simp [unchained, chained]
  refine ⟨l, events, hB.held _ (by rw [hL]; exact mem_cons_self), _, ?_, rfl⟩
  have same : ∀ a, tally { h with appli := rest } { L with
        events := events
        hand := unchained (e', l)
        load := chained (e', l) } a = tally h L a := by
    intro a
    have := split a
    simp only [tally, stored, hL, hand, load, flatMap_cons, count_append,
      count_nil]
    omega
  refine { hB with
    events := hrest, held := ?_, carried := ?_
    once := hB.once_of_eq same, pool := hB.pool_of_eq same }
  · exact fun p hp => hB.held p (by rw [hL]; exact mem_cons_of_mem _ hp)
  · intro t
    rw [← hB.carried t]
    simp only [TdmaLedger.carried, hL, load, flatMap_cons, map_append,
      count_append, map_nil, count_nil]
    omega

theorem Books.slot_empty (hn : h.slot = none) :
    L.slot = .empty := by
  have hs := hB.slot
  cases hu : L.slot with
  | empty => rfl
  | rx f | tx f | scan => rw [hu] at hs; simp [SlotHolds, hn] at hs

theorem Books.clearSlot (hand : L.hand = []) (load : L.load = []) :
    Books { h with slot := none }
      { L with slot := .empty, hand := L.slot.plain, load := L.slot.data } := by
  have same : ∀ a, tally { h with slot := none }
      { L with slot := .empty, hand := L.slot.plain, load := L.slot.data } a =
        tally h L a := by
    intro a
    have := L.slot.count_frames a
    simp only [tally, stored, hand, load, SlotUse.frames_empty, count_nil]
    omega
  refine { hB with
    slot := rfl, carried := ?_
    once := hB.once_of_eq same, pool := hB.pool_of_eq same }
  intro t
  rw [← hB.carried t]
  simp only [TdmaLedger.carried, load, SlotUse.data_empty, map_nil, count_nil]
  omega

theorem Books.fillSlot (empty : L.slot = .empty) (u : SlotUse)
    (hu : SlotHolds { h with slot := some f } u) (hand : L.hand = u.plain)
    (load : L.load = u.data) :
    Books { h with slot := some f } { L with slot := u, hand := [], load := [] } := by
  have same : ∀ a, tally { h with slot := some f }
      { L with slot := u, hand := [], load := [] } a = tally h L a := by
    intro a
    have := u.count_frames a
    simp only [tally, stored, hand, load, empty, SlotUse.frames_empty, count_nil]
    omega
  refine { hB with
    slot := hu, carried := ?_
    once := hB.once_of_eq same, pool := hB.pool_of_eq same }
  intro t
  rw [← hB.carried t]
  simp only [TdmaLedger.carried, load, empty, SlotUse.data_empty, map_nil, count_nil]
  omega

theorem Books.setSlotFrame (hand : L.hand = []) (load : L.load = [])
    (hf : f ∈ L.slot.frames) (fr : Frame)
    (hs : SlotHolds { h with heap := update h.heap f fr } L.slot) :
    Books { h with heap := update h.heap f fr } L := by
  obtain ⟨free, queue, slot, chain, events, _, _⟩ := L
  cases hand
  cases load
  have hslot : h.slot = some f := by
    have := hB.slot
    rcases slot with _ | g | g | _
    · simp at hf
    · exact mem_singleton.mp hf ▸ this.1
    · exact mem_singleton.mp hf ▸ this.1
    · exact mem_singleton.mp hf ▸ this
  have hmem : f ∈ slot.plain ++ slot.data := by
    rw [← count_pos_iff, count_append, slot.count_frames]
    exact count_pos_iff.mpr hf
  have hC := hB.clearSlot rfl rfl
  have hU := (hC.setHeap (hC.stored_of_hand hmem) fr).fillSlot (f := f) rfl slot
    (hslot ▸ hs) rfl rfl
  simpa [hslot] using hU

theorem Books.dropStatic (hs : ∀ f ∈ L.hand, f.isPool = false) :
    Books h { L with hand := [] } := by
  refine { hB with once := fun a => ?_, pool := fun i => ?_ }
  · have := hB.once a
    simp only [tally, stored, count_nil] at this ⊢
    omega
  · have := hB.pool i
    simp only [tally, stored, count_pool_of_static hs, count_nil] at this ⊢
    omega

theorem Books.takeStatic (hand : L.hand = []) (hs : f.isPool = false)
    (absent : stored h L f = 0) (load : L.load = []) : Books h { L with hand := [f] } := by
  refine { hB with once := fun a => ?_, pool := fun i => ?_ }
  · have := hB.once a
    by_cases ha : a = f
    · subst ha
      simp only [tally, stored, hand, load, count_nil, count_singleton_self] at *
      omega
    · have hne : ([f] : List FrameId).count a = 0 :=
        count_eq_zero.mpr (by simpa using ha)
      simp only [tally, stored, hand, hne, count_nil] at this ⊢
      omega
  · have := hB.pool i
    have hne := count_pool_of_static (l := [f]) (by simpa using hs) i
    simp only [tally, stored, hand, hne, count_nil] at this ⊢
    omega

theorem Books.stored_static (hs : f.isPool = false) (hq : f ∉ L.queue)
    (hu : f ∉ L.slot.frames) : stored h L f = 0 := by
  have absent : ∀ l : List FrameId, (∀ a ∈ l, a.isPool) → l.count f = 0 := fun l hl =>
    count_eq_zero.mpr fun hm => by simp [hl f hm] at hs
  have free := absent L.free hB.freePool
  have chain := absent L.chain hB.chain.pool
  have events := absent (L.events.flatMap Prod.snd) fun a ha => by
    obtain ⟨p, hp, ha⟩ := mem_flatMap.mp ha
    exact (hB.held p hp).pool a ha
  have sends := absent (h.sends.map Send.frame) fun a ha => by
    obtain ⟨s, hs, rfl⟩ := mem_map.mp ha
    exact (hB.sends s hs).pool
  have queue := count_eq_zero.mpr hq
  have slot := count_eq_zero.mpr hu
  unfold stored
  omega

theorem Books.logStatic {entry} (hs : entry.frame.isPool = false) :
    Books { h with txLog := h.txLog ++ [entry] } L := by
  have same : started (h.txLog ++ [entry]) = started h.txLog := by
    simp [started, filter_append, hs]
  exact { hB with
    ordered := by rw [same]; exact hB.ordered
    startedBelow := by rw [same]; exact hB.startedBelow }

theorem Books.setBeacon (hand : L.hand = []) (load : L.load = [])
    (hq : .beacon ∉ L.queue) (p : Packet) :
    Books { h with heap := update h.heap .beacon { h.heap .beacon with pkt := p } }
      L := by
  by_cases hu : .beacon ∈ L.slot.frames
  · refine hB.setSlotFrame hand load hu _ ?_
    have hs := hB.slot
    cases hslot : L.slot with
    | empty => simp [hslot] at hu
    | scan => simp [hslot, SlotUse.frames] at hu
    | rx g =>
      rw [hslot] at hs hu
      rw [← mem_singleton.mp hu] at hs
      simp [SlotHolds, FrameId.isPool] at hs
    | tx g =>
      rw [hslot] at hs hu
      obtain rfl := mem_singleton.mp hu
      exact ⟨hs.1, by simpa [Holdings.next] using hs.2.1, fun h => absurd rfl h,
        fun h => by simp [FrameId.isPool] at h⟩
  · exact hB.setHeap (hB.stored_static rfl hq hu) _

theorem Books.permSends {sends} (hp : sends.Perm h.sends) :
    Books { h with sends := sends } L := by
  have same : ∀ a, tally { h with sends := sends } L a = tally h L a := by
    intro a
    simp [tally, stored, (hp.map Send.frame).count_eq a]
  exact { hB with
    sends := fun s hs => hB.sends s (hp.mem_iff.mp hs)
    once := hB.once_of_eq same, pool := hB.pool_of_eq same }

theorem Books.addSend {s} (hand : L.hand = [s.frame])
    (hs : Sending s (h.heap s.frame)) :
    Books { h with sends := s :: h.sends } { L with hand := [] } := by
  have same : ∀ a, tally { h with sends := s :: h.sends } { L with hand := [] } a =
      tally h L a := by
    intro a
    simp only [tally, stored, hand, map_cons, count_cons, count_nil]
    omega
  refine { hB with
    sends := fun s' hs' => ?_
    once := hB.once_of_eq same, pool := hB.pool_of_eq same }
  rcases mem_cons.mp hs' with rfl | hs'
  · exact hs
  · exact hB.sends s' hs'

theorem Books.takeSend {s} {rest}
    (hp : h.sends.Perm (s :: rest)) (hand : L.hand = []) :
    Books { h with sends := rest } { L with hand := [s.frame] } ∧
      Sending s (h.heap s.frame) := by
  have same : ∀ a, tally { h with sends := rest } { L with hand := [s.frame] } a =
      tally h L a := by
    intro a
    simp only [tally, stored, hand, (hp.map Send.frame).count_eq a, map_cons,
      count_cons, count_nil]
    omega
  refine ⟨{ hB with
    sends := fun s' hs' => hB.sends s' (hp.mem_iff.mpr (mem_cons_of_mem s hs'))
    once := hB.once_of_eq same, pool := hB.pool_of_eq same }, ?_⟩
  exact hB.sends s (hp.mem_iff.mpr mem_cons_self)

theorem Books.beginReport {rest} (cb : Option Nat) (arg : Nat)
    (res : TdmaResult) (load : L.load = f :: rest) (hand : L.hand = [])
    (idle : h.running = none) (hc : Chain h.next (some f) (f :: rest))
    (done : AllDone h (f :: rest))
    (hr : Reportable h.accepted h.txOk ⟨h.ticket f, cb, arg, res⟩) :
    Books { h with running := some (.finishTx (h.next f) (h.ticket f) cb arg res) }
      { L with load := [], chain := rest, hand := [f] } := by
  have none : L.chain = [] := by
    have := hB.chain
    rwa [ChainHolds, idle] at this
  have same : ∀ a, tally
      { h with running := some (.finishTx (h.next f) (h.ticket f) cb arg res) }
      { L with load := [], chain := rest, hand := [f] } a = tally h L a := by
    intro a
    simp only [tally, stored, hand, load, none, count_cons, count_nil]
    omega
  refine { hB with
    chain := ⟨hc.tail, fun g hg => done g (mem_cons_of_mem f hg), hr⟩, carried := ?_
    once := hB.once_of_eq same, pool := hB.pool_of_eq same }
  intro t
  rw [← hB.carried t]
  simp only [TdmaLedger.carried, load, none, idle, finishing, map_nil, map_cons,
    count_cons, count_nil]
  omega

theorem Books.beginScan (idle : h.running = none) :
    Books { h with running := some .postScan } L := by
  have chain := hB.chain
  rw [ChainHolds, idle] at chain
  have carried := hB.carried
  simp only [TdmaLedger.carried, idle] at carried
  exact { hB with chain := chain, carried := carried }

theorem Books.endScan (run : h.running = some .postScan) :
    Books { h with running := none } L := by
  have chain := hB.chain
  rw [ChainHolds, run] at chain
  have carried := hB.carried
  simp only [TdmaLedger.carried, run] at carried
  exact { hB with chain := chain, carried := carried }

theorem Books.endReport {next} {t} {cb}
    {arg} {res} (load : L.load = [])
    (run : h.running = some (.finishTx next t cb arg res)) :
    Chain h.next next L.chain ∧ AllDone h L.chain ∧
      Books { h with running := none, reports := h.reports ++ [⟨t, cb, arg, res⟩] }
        { L with chain := [], load := L.chain } := by
  have hch := hB.chain
  rw [ChainHolds, run] at hch
  refine ⟨hch.1, hch.2.1, ?_⟩
  have same : ∀ a, tally { h with running := none, reports := h.reports ++ [⟨t, cb, arg, res⟩] }
      { L with chain := [], load := L.chain } a = tally h L a := by
    intro a
    simp only [tally, stored, load, count_nil]
    omega
  refine { hB with
    chain := rfl, carried := ?_, reported := ?_
    once := hB.once_of_eq same, pool := hB.pool_of_eq same }
  · intro n
    rw [← hB.carried n]
    simp only [TdmaLedger.carried, load, run, finishing, map_nil, map_cons,
      map_append, count_append, count_cons, count_nil]
    omega
  · intro r hr
    rcases mem_append.mp hr with hr | hr
    · exact hB.reported r hr
    · rw [mem_singleton.mp hr]
      exact hch.2.2

theorem Books.popQueue {q} {entry}
    (hq : L.queue = f :: q) (hand : L.hand = []) (load : L.load = [])
    (frame : entry.frame = f) (ticket : entry.ticket = h.ticket f) :
    Books { h with txFrames := h.next f, txLog := h.txLog ++ [entry] }
      { L with queue := q, hand := (SlotUse.tx f).plain, load := (SlotUse.tx f).data } := by
  have hqueue := hB.queue
  rw [hq] at hqueue
  have same : ∀ a, tally { h with txFrames := h.next f, txLog := h.txLog ++ [entry] }
      { L with queue := q, hand := (SlotUse.tx f).plain, load := (SlotUse.tx f).data } a =
        tally h L a := by
    intro a
    have := (SlotUse.tx f).count_frames a
    have hf : (SlotUse.tx f).frames.count a = [f].count a := rfl
    rw [hf, count_cons, count_nil] at this
    simp only [tally, stored, hq, hand, load, count_nil, count_cons]
    omega
  refine { hB with
    queue := hqueue.tail, queued := ?_, carried := ?_, ordered := ?_, startedBelow := ?_
    once := hB.once_of_eq same, pool := hB.pool_of_eq same }
  · exact fun g hg => hB.queued g (hq ▸ mem_cons_of_mem f hg)
  · intro t
    rw [← hB.carried t]
    cases hp : f.isPool with
    | true =>
      simp only [TdmaLedger.carried, hq, load, (SlotUse.data_tx hp).2, filter_cons, hp,
        if_true, map_cons, map_nil, count_cons, count_nil]
      omega
    | false =>
      simp [TdmaLedger.carried, hq, load, (SlotUse.plain_tx hp).2, hp]
  · have hord := hB.ordered
    cases hp : f.isPool with
    | true | false =>
      simpa [started, waiting, hq, hp, frame, ticket, filter_append] using hord
  · have hbelow := hB.startedBelow
    intro t ht
    simp only [started, filter_append, map_append, mem_append] at ht
    rcases ht with ht | ht
    · exact hbelow t ht
    · -- the entry is a number that was waiting, hence carried
      cases hp : f.isPool with
      | false => simp [frame, hp] at ht
      | true =>
        have hcar := hB.carried t
        have heq : t = h.ticket f := by simpa [frame, hp, ticket] using ht
        simp only [TdmaLedger.carried, hq, filter_cons, hp, if_true, map_cons,
          count_cons, heq, beq_self_eq_true] at hcar
        by_contra hge
        rw [heq] at hge
        rw [if_neg hge] at hcar
        omega

theorem Books.putNode (hq : L.queue = []) (hand : L.hand = [.node])
    (hf : h.next .node = none) (idle : (h.heap .node).status = .idle) :
    Books { h with txFrames := some .node } { L with queue := [.node], hand := [] } := by
  have same : ∀ a, tally { h with txFrames := some .node }
      { L with queue := [.node], hand := [] } a = tally h L a := by
    intro a
    simp only [tally, stored, hq, hand, count_nil]
    omega
  refine { hB with
    queue := chain_single hf, queued := ?_, carried := ?_, ordered := ?_
    once := hB.once_of_eq same, pool := hB.pool_of_eq same }
  · intro g hg
    rw [mem_singleton.mp hg]
    exact ⟨idle, .inl rfl⟩
  · intro t
    rw [← hB.carried t]
    simp only [TdmaLedger.carried, hq]
    rfl
  · simpa [waiting, hq, FrameId.isPool] using hB.ordered

theorem Books.enqueue (heap' : FrameId → Frame) (tx' : Option FrameId)
    (req : SendReq) (hand : L.hand = [f]) (load : L.load = []) (hp : f.isPool)
    (chain : Chain (fun a => (heap' a).next) tx' (L.queue ++ [f]))
    (idle : ∀ a ∈ L.queue ++ [f], (heap' a).status = .idle)
    (type : ∀ a ∈ L.queue ++ [f], a = .node ∨ a.isPool ∧ (heap' a).pkt.headerType = .data)
    (kept : ∀ a ∈ L.queue, (heap' a).cb = (h.heap a).cb ∧ (heap' a).arg = (h.heap a).arg)
    (own : req.cb = (heap' f).cb ∧ req.arg = (heap' f).arg)
    (other : ∀ a, a ∉ L.queue → a ≠ f → heap' a = h.heap a) :
    Books { h with
      heap := heap', txFrames := tx'
      ticket := update h.ticket f h.accepted.length
      accepted := h.accepted ++ [req] } { L with queue := L.queue ++ [f], hand := [] } := by
  have absent : stored h L f = 0 := hB.stored_of_hand (by rw [hand]; exact mem_cons_self)
  have hf : f ∉ L.queue := fun hm => by
    have := count_pos_iff.mpr hm
    unfold stored at absent
    omega
  have tickets : (L.queue.filter FrameId.isPool).map (update h.ticket f h.accepted.length) =
      (L.queue.filter FrameId.isPool).map h.ticket :=
    map_congr_left fun a ha => update_of_ne
      (by rintro rfl; exact hf (mem_filter.mp ha).1) _ _
  have waitingBelow : ∀ t ∈ waiting h L, t < h.accepted.length := by
    intro t ht
    have hcar := hB.carried t
    have hpos := count_pos_iff.mpr ht
    by_contra hge
    rw [if_neg hge] at hcar
    simp only [waiting] at hpos
    simp only [TdmaLedger.carried] at hcar
    omega
  refine hB.requeue (fun a ha hq => other a hq (by rintro rfl; exact ha absent)) ?_
    (fun _ ht => ht) chain ?_ ?_ ?_ ?_ (prefix_append _ _)
  · exact fun a ha _ => update_of_ne (by rintro rfl; exact ha absent) _ _
  · -- the new frame carries the request it was accepted with, the others as before
    intro a ha
    refine ⟨idle a ha, (type a ha).imp_right fun hk => ⟨hk.1, hk.2, ?_⟩⟩
    rcases mem_append.mp ha with hq | ha
    · rcases (hB.queued a hq).kind with rfl | ⟨-, -, req', hreq, hcb⟩
      · cases hk.1
      · have hne : a ≠ f := by rintro rfl; exact hf hq
        refine ⟨req', ?_, ?_, ?_⟩
        · simp only [update_of_ne hne]
          exact getElem?_of_le (prefix_append _ _) hreq
        · rw [(kept a hq).1]
          exact hcb.1
        · rw [(kept a hq).2]
          exact hcb.2
    · rw [mem_singleton.mp ha]
      exact ⟨req, by simp, own⟩
  · intro a
    simp [hand]
  · intro t
    simp only [length_append, length_singleton, filter_append, map_append, tickets, load, map_nil,
      count_append, count_nil, filter_cons, hp, if_true, filter_nil,
      map_cons, update_self, count_cons, beq_iff_eq]
    split <;> split <;> split <;> omega
  · rw [filter_append, map_append, tickets, ← append_assoc]
    refine pairwise_append.mpr ⟨hB.ordered, ?_, ?_⟩
    · simp [hp]
    · intro t ht u hu
      have hu' : u = h.accepted.length := by simpa [hp, eq_comm] using hu
      rw [hu']
      rcases mem_append.mp ht with ht | ht
      · exact hB.startedBelow t ht
      · exact waitingBelow t ht

theorem Books.cutQueue (heap' : FrameId → Frame) (hand : L.hand = [])
    (load : L.load = []) (other : ∀ a, a ∉ L.queue → heap' a = h.heap a) :
    Books { h with heap := heap', txFrames := none }
      { L with
        queue := []
        hand := L.queue.filter fun a => !a.isPool
        load := L.queue.filter FrameId.isPool } := by
  refine hB.requeue (fun a _ hq => other a hq) (fun _ _ _ => rfl) (fun _ ht => ht) .nil
    (fun _ ha => absurd ha List.not_mem_nil) ?_ ?_ ?_ List.prefix_rfl
  · intro a
    have hsum := List.countP_eq_countP_filter_add L.queue (· == a) FrameId.isPool
    simp only [hand, load, List.count, List.countP_nil]
    omega
  · intro t
    simp [load]
  · have := hB.ordered
    rw [List.pairwise_append] at this
    simpa using this.1

end Moves

end TdmaLedger
