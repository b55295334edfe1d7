import OpenLab.TdmaSteps

/-!
# Frames and data of a TDMA device are conserved

Where the pool frames are, and what becomes of accepted data, along every timely run. Without the
restriction both fail: a late `node_timeout` leaves its timer running during the following scan,
and the next one frees the static `node_frame`.
-/

namespace TdmaPool

open TdmaTypes TdmaCore TdmaHandlers TdmaDevice TdmaLedger TdmaControl TdmaSteps LinkedCells List
open Schedules

def framesFrom (d : Device) (head : Option FrameId) : List FrameId :=
  trace d.next (frameCount + 1) head

def freeFrames (d : Device) : List FrameId := framesFrom d d.frames

def queuedFrames (d : Device) : List FrameId := framesFrom d d.tdma.txFrames

def eventFrames (d : Device) : AppliEvent → List FrameId
  | .dataTx f => framesFrom d (some f)
  | .nodeBeacon f => [f]
  | .dataRx f => [f]
  | .coordAssoc f => [f]
  | _ => []

def runningFrames (d : Device) : List FrameId :=
  match d.running with
  | some (.finishTx next _ _ _ _) => framesFrom d next
  | _ => []

def places (d : Device) : List FrameId :=
  freeFrames d ++ queuedFrames d ++ d.sf.frame.toList ++ runningFrames d ++
    d.appli.flatMap (eventFrames d) ++ d.sends.map Send.frame

/-- The free list is `nb_frames` distinct pool frames, and every pool frame is in
exactly one place. -/
structure PoolConserved (d : Device) : Prop where
  free : Chain d.next d.frames (freeFrames d)
  count : (freeFrames d).length = d.nbFrames
  distinct : (freeFrames d).Nodup
  pool : ∀ f ∈ freeFrames d, f.isPool
  once : ∀ i, (places d).count (.pool i) = 1

def queuedData (d : Device) : List Nat :=
  ((queuedFrames d).filter FrameId.isPool).map d.ghost.ticket

/-- The number of the data in transmission: a pool frame in the slot that is not
there to receive. -/
def sendingData (d : Device) : List Nat :=
  match d.sf.frame with
  | some (.pool i) => if (d.heap (.pool i)).status = .rx then [] else [d.ghost.ticket (.pool i)]
  | _ => []

def eventData (d : Device) : AppliEvent → List Nat
  | .dataTx f => (framesFrom d (some f)).map d.ghost.ticket
  | _ => []

def reportingData (d : Device) : List Nat :=
  finishing d.running ++ (runningFrames d).map d.ghost.ticket ++ d.appli.flatMap (eventData d)

def reportedData (d : Device) : List Nat := d.ghost.reports.map Report.ticket

/-- Every accepted number is in exactly one place, reports are made with the callback
of the request and are successes only after a success of the PHY, and transmissions
start in the order of acceptance. -/
structure DataConserved (d : Device) : Prop where
  once : ∀ t, (queuedData d ++ sendingData d ++ reportingData d ++ reportedData d).count t =
    if t < d.ghost.accepted.length then 1 else 0
  callback : ∀ r ∈ d.ghost.reports, ∃ req, d.ghost.accepted[r.ticket]? = some req ∧
    req.cb = r.cb ∧ req.arg = r.arg
  success : ∀ r ∈ d.ghost.reports, r.result = .ok → r.ticket ∈ d.ghost.txOk
  ordered : (started d.ghost.txLog).Pairwise (· < ·)

variable {d : Device} {L : Ledger} {l : List FrameId}

theorem framesFrom_eq {head} (hc : Chain d.next head l) : framesFrom d head = l :=
  hc.trace_eq (Nat.le_succ_of_le (length_le_frameCount hc.nodup))

theorem eventFrames_eq {e} (hh : Holds (holdings d) e l) : eventFrames d e = l := by
  cases e with
  | dataTx f => exact framesFrom_eq hh.1
  | nodeBeacon f | dataRx f | coordAssoc f => exact hh.1.symm
  | _ => exact hh.symm

theorem eventData_eq {e} (hh : Holds (holdings d) e l) :
    eventData d e = (chained (e, l)).map d.ghost.ticket := by
  cases e with
  | dataTx f => exact congrArg (map d.ghost.ticket) (framesFrom_eq hh.1)
  | _ => rfl

theorem runningFrames_eq (hB : Books (holdings d) L) : runningFrames d = L.chain := by
  have hc : ChainHolds (holdings d) L.chain := hB.chain
  unfold ChainHolds at hc
  unfold runningFrames
  cases hr : d.running with
  | none =>
    rw [show (holdings d).running = none from hr] at hc
    exact hc.symm
  | some r =>
    rw [show (holdings d).running = some r from hr] at hc
    cases r with
    | postScan => exact hc.symm
    | finishTx next t cb arg res => exact framesFrom_eq hc.1

theorem slotFrames_eq (hB : Books (holdings d) L) : d.sf.frame.toList = L.slot.frames := by
  have hs : SlotHolds (holdings d) L.slot := hB.slot
  cases hu : L.slot with
  | empty =>
    rw [hu] at hs
    rw [show d.sf.frame = none from hs]
    rfl
  | rx f | tx f =>
    rw [hu] at hs
    rw [show d.sf.frame = some f from hs.1]
    rfl
  | scan =>
    rw [hu] at hs
    rw [show d.sf.frame = some .node from hs]
    rfl

theorem sendingData_eq (hB : Books (holdings d) L) :
    sendingData d = L.slot.data.map d.ghost.ticket := by
  have hs : SlotHolds (holdings d) L.slot := hB.slot
  unfold sendingData
  cases hu : L.slot with
  | empty =>
    rw [hu] at hs
    rw [show d.sf.frame = none from hs]
    rfl
  | rx f =>
    rw [hu] at hs
    obtain ⟨hf, hp, hst⟩ := hs
    rw [show d.sf.frame = some f from hf]
    cases f with
    | pool i => exact if_pos hst
    | _ => cases hp
  | tx f =>
    rw [hu] at hs
    obtain ⟨hf, -, idle, -⟩ := hs
    rw [show d.sf.frame = some f from hf]
    cases f with
    | pool i =>
      have hst : (d.heap (.pool i)).status = .idle := idle (by simp)
      simp [hst, SlotUse.data]
    | _ => rfl
  | scan =>
    rw [hu] at hs
    rw [show d.sf.frame = some .node from hs]
    rfl

theorem flatMap_events {β : Type} (hB : Books (holdings d) L) (f : AppliEvent → List β)
    (g : AppliEvent × List FrameId → List β)
    (same : ∀ p ∈ L.events, Holds (holdings d) p.1 p.2 → f p.1 = g p) :
    d.appli.flatMap f = L.events.flatMap g := by
  rw [show d.appli = L.events.map Prod.fst from hB.events.symm, flatMap_map]
  exact flatMap_congr fun p hp => same p hp (hB.held p hp)

theorem poolConserved_of_sound (hd : Sound d) : PoolConserved d := by
  obtain ⟨_, _, L, hK, hand, load, -, -⟩ := hd
  have hB := hK.books
  have hfree : freeFrames d = L.free := framesFrom_eq hB.free
  have hplaces : ∀ f, (places d).count f = tally (holdings d) L f := by
    intro f
    have hev := flatMap_events hB (eventFrames d) Prod.snd fun p _ hh => eventFrames_eq hh
    simp only [places, tally, stored, hand, load, hfree, hev, slotFrames_eq hB,
      runningFrames_eq hB, count_append, count_nil]
    rw [show queuedFrames d = L.queue from framesFrom_eq hB.queue]
    rfl
  exact {
    free := hfree ▸ hB.free
    count := hfree ▸ hB.count.symm
    distinct := hfree ▸ hB.free.nodup
    pool := hfree ▸ hB.freePool
    once := fun i => (hplaces _).trans (hB.pool i) }

theorem dataConserved_of_sound (hd : Sound d) : DataConserved d := by
  obtain ⟨_, _, L, hK, hand, load, -, -⟩ := hd
  have hB := hK.books
  have hev : d.appli.flatMap (eventData d) = (L.events.flatMap chained).map d.ghost.ticket := by
    rw [map_flatMap]
    exact flatMap_events hB _ _ fun p _ hh => eventData_eq hh
  refine {
    once := fun t => ?_
    callback := fun r hr => (hB.reported r hr).own
    success := fun r hr => (hB.reported r hr).ok
    ordered := (pairwise_append.mp hB.ordered).1 }
  refine Eq.trans ?_ (hB.carried t)
  simp only [queuedData, reportingData, reportedData, carried, load, hev, sendingData_eq hB,
    runningFrames_eq hB, count_append, map_nil, count_nil]
  rw [show queuedFrames d = L.queue from framesFrom_eq hB.queue]
  simp only [holdings]
  omega

/-- In every timely run the pool of frames is conserved. -/
theorem pool_conserved {addr : UInt16} (run : Run step Timely (macTdmaInit addr) d) :
    PoolConserved d :=
  poolConserved_of_sound (sound_run run)

/-- In every timely run accepted data is neither lost, duplicated nor reordered. -/
theorem data_conserved {addr : UInt16} (run : Run step Timely (macTdmaInit addr) d) :
    DataConserved d :=
  dataConserved_of_sound (sound_run run)

def calm : Oracle := ⟨true, 0, 0, true⟩

/-- A beacon of coordinator 2 on PAN 7 with four slots: slot 0 is the coordinator's, slot 1
belongs to `owner`, slot 2 is the broadcast slot. -/
def sampleBeacon (owner : UInt16) : RxPacket where
  pkt :=
    let p := (Packet.empty.setSlotDescOwn 0 (packerUint16Hton 2)).setSlotDescOwn 1
      (packerUint16Hton owner)
    let p := (((p.setSlotDescOwn 2 0xffff).setByte 0 4).setByte 1 100).setByte 2 4
    { p.headerPrepare .beacon 7 2 0xffff with length := 23, timestamp := 1000 }
  fits := show (23 : UInt8) ≤ 127 by decide

def handleSlotRun : List Action := [.slotTimer, .netSlot, .netRun calm]

def completionRun (ok : Bool) : List Action := [.netPhy ok (sampleBeacon 3), .netRun calm]

def joinRun : List Action :=
  [.startNode ⟨7, 11, 1⟩, .appli calm, .netPhy true (sampleBeacon 0), .netRun calm,
    .timeoutTimer, .appli calm] ++ handleSlotRun ++ completionRun true

/-- The timeout expires behind the beacon event, so that it disconnects the node although
the beacon restarts its timer; the timer then expires during the scan. -/
def staleTimeoutRun : List Action :=
  joinRun ++ [.timeoutTimer, .appli calm, .appli calm, .appli calm, .appli calm,
    .timeoutTimer, .appli calm]

def sendRun : List Action :=
  [.sendAlloc ⟨1, fun _ => 0, 0, some 5, 6⟩, .sendFill 0, .sendSubmit 0]

def lostDataRun : List Action :=
  staleTimeoutRun ++ [.appli calm, .appli calm, .netPhy true (sampleBeacon 3), .netRun calm,
    .timeoutTimer, .appli calm] ++ handleSlotRun ++ completionRun true ++ [.appli calm] ++
    sendRun ++ handleSlotRun ++ completionRun true

def reportRun : List Action :=
  joinRun ++ [.appli calm] ++ sendRun ++ handleSlotRun ++ completionRun true ++
    handleSlotRun ++ handleSlotRun ++ handleSlotRun ++ completionRun false ++
    handleSlotRun ++ completionRun true ++ [.appli calm, .appli calm]

theorem pool_conserved_after_report : ∃ d, Run step Timely (macTdmaInit 3) d ∧
    d.ghost.reports = [⟨0, some 5, 6, .ok⟩] ∧ PoolConserved d := by
  obtain ⟨d, run, h⟩ : ∃ d, Run step Timely (macTdmaInit 3) d ∧
      d.ghost.reports = [⟨0, some 5, 6, .ok⟩] := by
    refine execIf_observe reportRun _ _ ?_
    decide +kernel
  exact ⟨d, run, h, pool_conserved run⟩

theorem data_conserved_after_report : ∃ d, Run step Timely (macTdmaInit 3) d ∧
    d.ghost.reports = [⟨0, some 5, 6, .ok⟩] ∧ DataConserved d := by
  obtain ⟨d, run, h⟩ : ∃ d, Run step Timely (macTdmaInit 3) d ∧
      d.ghost.reports = [⟨0, some 5, 6, .ok⟩] := by
    refine execIf_observe reportRun _ _ ?_
    decide +kernel
  exact ⟨d, run, h, data_conserved run⟩

/-- The static node frame is the head of a free list of eleven frames. -/
theorem pool_broken_by_stale_timeout : ∃ d, Reach step (macTdmaInit 3) d ∧
    d.frames = some .node ∧ d.nbFrames = 11 ∧ ¬PoolConserved d := by
  obtain ⟨d, run, h⟩ : ∃ d, Reach step (macTdmaInit 3) d ∧ _ = _ := by
    refine exec_observe staleTimeoutRun (fun d => (d.frames, d.nbFrames, (freeFrames d).head?))
      (some .node, 11, some .node) ?_
    decide +kernel
  simp only [Prod.mk.injEq] at h
  refine ⟨d, run, h.1, h.2.1, fun hp => ?_⟩
  cases hp.pool .node (mem_of_head? h.2.2)

/-- The accepted packet was sent in the node frame, whose completion is ignored: it is
nowhere any more and was never reported. -/
theorem data_lost_after_stale_timeout : ∃ d, Reach step (macTdmaInit 3) d ∧
    d.ghost.accepted.length = 1 ∧ d.ghost.reports = [] ∧ ¬DataConserved d := by
  obtain ⟨d, run, h⟩ : ∃ d, Reach step (macTdmaInit 3) d ∧ _ = _ := by
    refine exec_observe lostDataRun (fun d => (d.ghost.accepted.length, d.ghost.reports,
      queuedData d ++ sendingData d ++ reportingData d ++ reportedData d)) (1, [], []) ?_
    decide +kernel
  simp only [Prod.mk.injEq] at h
  refine ⟨d, run, h.1, h.2.1, fun hd => ?_⟩
  have := hd.once 0
  rw [h.2.2, h.1] at this
  simp at this

end TdmaPool
