import OpenLab.TdmaEffects
import OpenLab.TdmaPool

/-!
# Transmit-slot accounting

`tdma_slot_configure` tests the index against the size of the table and not against the slots-
frame in use. `tx_slots` is right as long as no write beyond the slots-frame gives the device a
slot or takes one from it.
-/

namespace TdmaSlots

open Function Schedules TdmaTypes TdmaCore TdmaHandlers TdmaDevice TdmaTable TdmaEffects List

def ownSlots (slots : Nat → UInt16) (addr : UInt16) (n : Nat) : Nat :=
  (List.range n).countP fun i => slots i == addr

def ownSlot (owner addr : UInt16) : Nat := if owner = addr then 1 else 0

theorem ownSlots_succ (slots : Nat → UInt16) (addr : UInt16) (n : Nat) :
    ownSlots slots addr (n + 1) = ownSlots slots addr n + ownSlot (slots n) addr := by
  simp [ownSlots, ownSlot, range_succ]

theorem ownSlots_le (slots : Nat → UInt16) (addr : UInt16) (n : Nat) :
    ownSlots slots addr n ≤ n := by
  have := countP_le_length (p := fun i => slots i == addr) (l := range n)
  rwa [length_range] at this

variable {addr : UInt16} {n : Nat}

theorem ownSlots_congr {slots slots'}
    (same : ∀ i < n, (slots' i = addr ↔ slots i = addr)) :
    ownSlots slots' addr n = ownSlots slots addr n := by
  refine countP_congr fun i hi => ?_
  simpa using same i (mem_range.mp hi)

theorem ownSlots_update (slots : Nat → UInt16) (addr owner : UInt16) {id} (hid : id < n) :
    ownSlots (update slots id owner) addr n + ownSlot (slots id) addr =
      ownSlots slots addr n + ownSlot owner addr := by
  induction n with
  | zero => omega
  | succ n ih =>
    rw [ownSlots_succ, ownSlots_succ]
    by_cases h : id = n
    · subst h
      have rest : ownSlots (update slots id owner) addr id = ownSlots slots addr id :=
        ownSlots_congr fun i hi => by rw [update_of_ne (by omega)]
      rw [rest, update_self]
      omega
    · rw [update_of_ne (by omega)]
      omega

theorem exists_of_ownSlots {slots} (h : 0 < ownSlots slots addr n) :
    ∃ i < n, slots i = addr := by
  obtain ⟨i, hi, own⟩ := countP_pos_iff.mp h
  exact ⟨i, mem_range.mp hi, by simpa using own⟩

/-- The slots-frame fits the table and `tx_slots` counts the slots of the device in it. -/
structure Accounted (t : Tdma) : Prop where
  bounded : t.slotCount.toNat ≤ tdmaMaxSlots
  counted : t.txSlots.toNat = ownSlots t.slots t.addr t.slotCount.toNat

/-- Writing `owner` to entry `id` leaves alone which entries of the table beyond a
slots-frame of `n` slots belong to the device. -/
def Inert (t : Tdma) (n : Nat) (id : UInt8) (owner : UInt16) : Prop :=
  id.toNat < n ∨ tdmaMaxSlots ≤ id.toNat ∨ (owner = t.addr ↔ t.slots id.toNat = t.addr)

instance (t : Tdma) (n : Nat) (id : UInt8) (owner : UInt16) : Decidable (Inert t n id owner) :=
  inferInstanceAs (Decidable (_ ∨ _ ∨ _))

variable {t t' : Tdma} {id : UInt8} {owner : UInt16}

theorem Accounted.of_same (h : Accounted t) (same : SameTable t t') : Accounted t' := by
  constructor
  · rw [same.slotCount]
    exact h.bounded
  · rw [same.txSlots, same.slots, same.addr, same.slotCount]
    exact h.counted

theorem accounted_configure (h : Accounted t) (inert : Inert t t.slotCount.toNat id owner) :
    Accounted (tdmaSlotConfigure t id owner) := by
  have bound := h.bounded
  have count := h.counted
  by_cases hmax : tdmaMaxSlots ≤ id.toNat
  · rw [tdmaSlotConfigure, if_pos hmax]
    exact h
  rw [tdmaSlotConfigure, if_neg hmax]
  refine ⟨bound, ?_⟩
  dsimp only
  by_cases hin : id.toNat < t.slotCount.toNat
  · -- Both numbers stay below 51, so the eight-bit counter does not wrap.
    have hup := ownSlots_update t.slots t.addr owner hin
    have le' := ownSlots_le (update t.slots id.toNat owner) t.addr t.slotCount.toNat
    rw [tdmaMaxSlots] at bound
    have add : (t.txSlots + 1).toNat = (t.txSlots.toNat + 1) % 256 := UInt8.toNat_add _ _
    have sub : (t.txSlots - 1).toNat = (256 - 1 + t.txSlots.toNat) % 256 := UInt8.toNat_sub _ _
    by_cases hprev : t.slots id.toNat = t.addr
    · by_cases hown : owner = t.addr
      · rw [if_pos hprev, if_pos hown, UInt8.add_sub_cancel]
        simp only [ownSlot, if_pos hprev, if_pos hown] at hup
        omega
      · rw [if_pos hprev, if_neg hown]
        simp only [ownSlot, if_pos hprev, if_neg hown] at hup
        omega
    · by_cases hown : owner = t.addr
      · rw [if_neg hprev, if_pos hown]
        simp only [ownSlot, if_neg hprev, if_pos hown] at hup
        omega
      · rw [if_neg hprev, if_neg hown]
        simp only [ownSlot, if_neg hprev, if_neg hown] at hup
        omega
  · have same : owner = t.addr ↔ t.slots id.toNat = t.addr := by
      rcases inert with hlt | hge | h
      · exact absurd hlt hin
      · exact absurd hge hmax
      · exact h
    have outside : ownSlots (update t.slots id.toNat owner) t.addr t.slotCount.toNat =
        ownSlots t.slots t.addr t.slotCount.toNat :=
      ownSlots_congr fun i hi => by rw [update_of_ne (by omega)]
    rw [outside, ← count]
    by_cases hown : owner = t.addr
    · rw [if_pos (same.mp hown), if_pos hown, UInt8.add_sub_cancel]
    · rw [if_neg fun h => hown (same.mpr h), if_neg hown]

/-- The entries beyond a slots-frame of `n` slots belong to the device as before. -/
def SameOutside (n : Nat) (t t' : Tdma) : Prop :=
  t'.addr = t.addr ∧ t'.slotCount = t.slotCount ∧
    ∀ i, n ≤ i → i < tdmaMaxSlots → (t'.slots i = t.addr ↔ t.slots i = t.addr)

theorem SameOutside.inert (h : SameOutside n t t') (inert : Inert t n id owner) :
    Inert t' n id owner := by
  by_cases hlt : id.toNat < n
  · exact .inl hlt
  by_cases hmax : tdmaMaxSlots ≤ id.toNat
  · exact .inr (.inl hmax)
  refine .inr (.inr ?_)
  rw [h.1, h.2.2 id.toNat (by omega) (by omega)]
  rcases inert with hlt' | hmax' | hiff
  · exact absurd hlt' hlt
  · exact absurd hmax' hmax
  · exact hiff

theorem SameOutside.configure (h : SameOutside n t t') (inert : Inert t n id owner) :
    SameOutside n t (tdmaSlotConfigure t' id owner) := by
  have inert' := h.inert inert
  unfold tdmaSlotConfigure
  split
  · exact h
  · next hmax =>
    refine ⟨h.1, h.2.1, fun i hn hi => ?_⟩
    dsimp only
    by_cases hid : i = id.toNat
    · subst hid
      rw [update_self, ← h.2.2 _ hn hi]
      rcases inert' with hlt | hge | hiff
      · exact absurd hlt (by omega)
      · exact absurd hge hmax
      · rwa [h.1] at hiff
    · rw [update_of_ne hid]
      exact h.2.2 i hn hi

theorem SameOutside.refl (n : Nat) (t : Tdma) : SameOutside n t t :=
  ⟨rfl, rfl, fun _ _ _ => .rfl⟩

theorem accounted_clear (bound : t.slotCount.toNat ≤ tdmaMaxSlots) (addr : t.addr ≠ 0) :
    Accounted (clearSlots t) := by
  refine ⟨bound, ?_⟩
  have none : ownSlots (clearSlots t).slots t.addr t.slotCount.toNat = 0 := by
    refine countP_eq_zero.mpr fun i hi => ?_
    have hlt := mem_range.mp hi
    simp only [clearSlots, if_pos hlt, beq_iff_eq]
    exact fun h => addr h.symm
  exact none.symm

theorem slotCount_configure (t : Tdma) (id : UInt8) (owner : UInt16) :
    (tdmaSlotConfigure t id owner).slotCount = t.slotCount := by
  obtain ⟨n, s, h⟩ := retabled_configure t id owner
  rw [h]

theorem accounted_inside (h : Accounted t) (inside : id.toNat < t.slotCount.toNat) :
    Accounted (tdmaSlotConfigure t id owner) :=
  accounted_configure h (.inl inside)

theorem accounted_owners {p} (k : Nat) (h : Accounted t)
    (inert : ∀ i < k, Inert t t.slotCount.toNat (p.slotDescOff + UInt8.ofNat i)
      (maskBroadcast (p.slotDescOwn i))) :
    Accounted (configureOwners p k t) ∧
      SameOutside t.slotCount.toNat t (configureOwners p k t) := by
  induction k with
  | zero => exact ⟨h, .refl _ t⟩
  | succ k ih =>
    obtain ⟨ha, hs⟩ := ih fun i hi => inert i (by omega)
    have last := inert k (by omega)
    refine ⟨accounted_configure ha ?_, hs.configure last⟩
    rw [hs.2.1]
    exact hs.inert last

/-- What a beacon must be for `scan_handler` to keep the counter right. -/
structure ScanInert (t : Tdma) (p : Packet) : Prop where
  bounded : p.slotCount.toNat ≤ tdmaMaxSlots
  coord : Inert t p.slotCount.toNat 0 p.src
  broadcast : ∀ i ∈ broadcastIndex p,
    Inert t p.slotCount.toNat (p.slotDescOff + UInt8.ofNat i) t.addr

theorem accounted_scanTdma {p} (addr : t.addr ≠ 0) (h : ScanInert t p) :
    Accounted (scanTdma t p) := by
  have bounded : ¬tdmaMaxSlots < (scanRegister t p).slotCount.toNat := Nat.not_lt.mpr h.bounded
  unfold scanTdma
  dsimp only
  rw [if_neg bounded]
  generalize hc : clearSlots _ = c
  have hcount : c.slotCount = p.slotCount := by rw [← hc]; rfl
  have cleared : Accounted c := by
    rw [← hc]
    exact accounted_clear h.bounded addr
  have outside : SameOutside p.slotCount.toNat { t with slotCount := p.slotCount } c := by
    rw [← hc]
    refine ⟨rfl, rfl, fun i hn _ => ?_⟩
    have beyond : ¬i < (scanRegister t p).slotCount.toNat := Nat.not_lt.mpr hn
    simp only [clearSlots, if_neg beyond]
    exact .rfl
  have hcoord : c.coord = p.src := by rw [← hc]; rfl
  have first : Accounted (tdmaSlotConfigure c 0 c.coord) := by
    refine accounted_configure cleared ?_
    rw [hcount, hcoord]
    exact outside.inert h.coord
  have outside' := outside.configure h.coord
  rw [← hcoord] at outside'
  unfold scanTable
  cases hb : broadcastIndex p with
  | none => exact first
  | some i =>
    refine accounted_configure first ?_
    rw [outside'.2.1, outside'.1]
    exact outside'.inert (h.broadcast i hb)

theorem findFree_lt (slots : Nat → UInt16) (base fuel : Nat) {id} (hid : id < n) :
    findFree slots n base fuel id < n := by
  induction fuel generalizing id with
  | zero => exact hid
  | succ fuel ih =>
    have hmod : (id + 1) % n < n := Nat.mod_lt _ (by omega)
    unfold findFree
    dsimp only
    split
    · exact hid
    · split
      · exact hmod
      · exact ih hmod

theorem findFree_lt_of_base (slots : Nat → UInt16) {id delta} (hn : n ≤ 255)
    (hzero : n = 0 → id + delta = 0) :
    findFree slots n ((id + delta) % n) n ((id + delta) % n) < 256 ∧
      (n = 0 → findFree slots n ((id + delta) % n) n ((id + delta) % n) = 0) := by
  rcases Nat.eq_zero_or_pos n with rfl | hpos
  · simp [findFree, hzero rfl]
  · have := findFree_lt slots ((id + delta) % n) n (Nat.mod_lt (id + delta) hpos)
    exact ⟨by omega, fun h => by omega⟩

theorem slots_configure {t} {id} (owner : UInt16) (hid : id.toNat < tdmaMaxSlots)
    (i : Nat) : (tdmaSlotConfigure t id owner).slots i =
      if i = id.toNat then owner else t.slots i := by
  rw [tdmaSlotConfigure, if_neg (by omega)]
  exact update_apply _ _ _ _

theorem slots_allocate {delta request id} (hn : n ≤ 255) (hzero : n = 0 → id + delta = 0)
    (i : Nat) : (allocateSlots addr n delta request id t).slots i = t.slots i ∨
      t.slots i = 0 ∧ (allocateSlots addr n delta request id t).slots i = addr := by
  induction request generalizing id t with
  | zero => exact .inl rfl
  | succ request ih =>
    obtain ⟨hlt, hz⟩ := findFree_lt_of_base t.slots hn hzero
    unfold allocateSlots
    dsimp only
    generalize findFree t.slots n ((id + delta) % n) n ((id + delta) % n) = free at hlt hz ⊢
    split
    · exact .inl rfl
    · next hfree =>
      have hfree : t.slots free = 0 := not_not.mp hfree
      have hid : (UInt8.ofNat free).toNat = free := UInt8.toNat_ofNat_of_lt' hlt
      have later : n = 0 → free + delta = 0 := fun h0 => by
        omega
      have first : (tdmaSlotConfigure t (UInt8.ofNat free) addr).slots i = t.slots i ∨
          t.slots i = 0 ∧ (tdmaSlotConfigure t (UInt8.ofNat free) addr).slots i = addr := by
        by_cases hmax : tdmaMaxSlots ≤ free
        · rw [tdmaSlotConfigure, if_pos (by rw [hid]; exact hmax)]
          exact .inl rfl
        · rw [slots_configure addr (by omega) i, hid]
          by_cases hi : i = free
          · rw [if_pos hi, hi]
            exact .inr ⟨hfree, rfl⟩
          · rw [if_neg hi]
            exact .inl rfl
      -- An entry filled once is not free any more.
      rcases ih (t := tdmaSlotConfigure t (UInt8.ofNat free) addr) later with h | ⟨h0, h⟩
      · rw [h]
        exact first
      · rcases first with hf | ⟨hf0, -⟩
        · exact .inr ⟨hf ▸ h0, h⟩
        · exact .inr ⟨hf0, h⟩

theorem slots_grant (t : Tdma) (addr : UInt16) (request i : Nat) :
    (grantSlots t addr request).slots i = t.slots i ∨
      t.slots i = 0 ∧ (grantSlots t addr request).slots i = addr := by
  have hn : t.slotCount.toNat ≤ 255 := by
    have := t.slotCount.toNat_lt
    omega
  refine slots_allocate hn (fun h0 => ?_) i
  simp [h0, countOwned]

theorem accounted_allocate {delta request id} (h : Accounted t) (hn : n ≤ 255)
    (hzero : n = 0 → id + delta = 0) (nonzero : t.addr ≠ 0) (other : addr ≠ t.addr) :
    Accounted (allocateSlots addr n delta request id t) := by
  induction request generalizing id t with
  | zero => exact h
  | succ request ih =>
    obtain ⟨hlt, hz⟩ := findFree_lt_of_base t.slots hn hzero
    unfold allocateSlots
    dsimp only
    generalize findFree t.slots n ((id + delta) % n) n ((id + delta) % n) = free at hlt hz ⊢
    split
    · exact h
    · next hfree =>
      have hfree : t.slots free = 0 := not_not.mp hfree
      obtain ⟨m, s, htab⟩ := retabled_configure t (UInt8.ofNat free) addr
      have haddr : (tdmaSlotConfigure t (UInt8.ofNat free) addr).addr = t.addr := by rw [htab]
      have hid : (UInt8.ofNat free).toNat = free := UInt8.toNat_ofNat_of_lt' hlt
      refine ih (accounted_configure h ?_) (fun h0 => ?_) (haddr ▸ nonzero) (haddr ▸ other)
      · -- A free slot given to another device changes no own slot.
        refine .inr (.inr ?_)
        rw [hid, hfree]
        exact ⟨fun h => absurd h other, fun h => absurd h.symm nonzero⟩
      · omega

theorem accounted_grant {request} (h : Accounted t) (nonzero : t.addr ≠ 0)
    (other : addr ≠ t.addr) : Accounted (grantSlots t addr request) := by
  have hn : t.slotCount.toNat ≤ 255 := by
    have := t.slotCount.toNat_lt
    omega
  refine accounted_allocate h hn (fun h0 => ?_) nonzero other
  simp [h0, countOwned]

theorem accounted_static {owners} (k : Nat) (h : Accounted t)
    (hk : k + 1 ≤ t.slotCount.toNat) : Accounted (configureStatic owners k t) := by
  induction k with
  | zero => exact h
  | succ k ih =>
    obtain ⟨n, s, htab⟩ := retabled_configureStatic owners k t
    have hid : (UInt8.ofNat (k + 1)).toNat = k + 1 := by
      have := t.slotCount.toNat_lt
      exact UInt8.toNat_ofNat_of_lt' (by simp [UInt8.size]; omega)
    refine accounted_inside (ih (by omega)) ?_
    rw [hid, htab]
    exact hk

theorem accounted_coordTdma {cfg} (nonzero : t.addr ≠ 0)
    (pos : 0 < cfg.slotCount.toNat) (bound : cfg.slotCount.toNat ≤ tdmaMaxSlots) :
    Accounted (coordTdma t cfg).2 := by
  have cleared : Accounted (clearSlots (registerCoord t cfg)) := accounted_clear bound nonzero
  have hcount : (clearSlots (registerCoord t cfg)).slotCount = cfg.slotCount := rfl
  unfold coordTdma coordSlots
  generalize clearSlots (registerCoord t cfg) = c at cleared hcount
  have zero : (0 : UInt8).toNat < c.slotCount.toNat := by
    rw [hcount]
    exact pos
  have first : Accounted (tdmaSlotConfigure c 0 c.addr) := accounted_inside cleared zero
  have count := slotCount_configure c 0 c.addr
  cases cfg.slotsframe with
  | none =>
    refine accounted_inside first ?_
    exact Nat.div_lt_self (hcount ▸ pos) (by decide)
  | some owners =>
    dsimp only
    split
    · exact cleared
    · refine accounted_static _ first ?_
      rw [count, hcount]
      omega

theorem slotAdvance_index (t : Tdma) (sf : SlotsFrame) :
    (slotAdvance t sf).nextIndex.toNat =
      if t.slotCount.toNat ≤ 1 + sf.nextIndex.toNat then 0 else sf.nextIndex.toNat + 1 := by
  unfold slotAdvance
  split
  · rfl
  · next h =>
    have := t.slotCount.toNat_lt
    have : (sf.nextIndex + 1).toNat = (sf.nextIndex.toNat + 1) % 256 := UInt8.toNat_add _ _
    dsimp only
    omega

theorem slotAdvance_up (t : Tdma) (sf : SlotsFrame) (zero : sf.nextIndex = 0) {i}
    (hi : i < t.slotCount.toNat) : ((slotAdvance t)^[i] sf).nextIndex.toNat = i := by
  induction i with
  | zero => rw [iterate_zero, id_eq, zero]; rfl
  | succ i ih =>
    rw [iterate_succ_apply', slotAdvance_index, ih (by omega), if_neg (by omega)]

theorem slotAdvance_wrap (t : Tdma) (sf : SlotsFrame) :
    ∃ k, ((slotAdvance t)^[k] sf).nextIndex = 0 := by
  generalize hm : t.slotCount.toNat - sf.nextIndex.toNat = m
  induction m using Nat.strong_induction_on generalizing sf with
  | _ m ih =>
    by_cases last : t.slotCount.toNat ≤ 1 + sf.nextIndex.toNat
    · refine ⟨1, UInt8.toNat_inj.mp ?_⟩
      rw [iterate_one, slotAdvance_index, if_pos last]
      rfl
    · have hnext : (slotAdvance t sf).nextIndex.toNat = sf.nextIndex.toNat + 1 := by
        rw [slotAdvance_index, if_neg last]
      obtain ⟨k, hk⟩ := ih _ (by omega) (slotAdvance t sf) rfl
      exact ⟨k + 1, by rw [iterate_succ_apply, hk]⟩

theorem slotAdvance_reaches (t : Tdma) (sf : SlotsFrame) {i} (hi : i < t.slotCount.toNat) :
    ∃ k, ((slotAdvance t)^[k] sf).nextIndex.toNat = i := by
  obtain ⟨k, hk⟩ := slotAdvance_wrap t sf
  refine ⟨i + k, ?_⟩
  rw [iterate_add_apply]
  exact slotAdvance_up t _ hk hi

instance (t : Tdma) (p : Packet) : Decidable (ScanInert t p) :=
  decidable_of_iff (p.slotCount.toNat ≤ tdmaMaxSlots ∧ Inert t p.slotCount.toNat 0 p.src ∧
      ∀ i ∈ broadcastIndex p,
        Inert t p.slotCount.toNat (p.slotDescOff + UInt8.ofNat i) t.addr)
    ⟨fun h => ⟨h.1, h.2.1, h.2.2⟩, fun h => ⟨h.bounded, h.coord, h.broadcast⟩⟩

def OwnersInert (t : Tdma) (p : Packet) : Prop :=
  t.state = .node ∨ t.state = .assoc ∧
      ((List.range p.slotDescCnt.toNat).any fun i => t.addr == p.slotDescOwn i) = true →
    ∀ i < p.slotDescCnt.toNat, Inert t t.slotCount.toNat (p.slotDescOff + UInt8.ofNat i)
      (maskBroadcast (p.slotDescOwn i))

instance (t : Tdma) (p : Packet) : Decidable (OwnersInert t p) :=
  inferInstanceAs (Decidable (_ → _))

/-- A coordinator is started with a slots-frame that has slots and fits the table. -/
def StartFits (d : Device) : Action → Prop
  | .startCoord cfg _ => d.tdma.state = .idle →
      0 < cfg.slotCount.toNat ∧ cfg.slotCount.toNat ≤ tdmaMaxSlots
  | _ => True

instance (d : Device) : ∀ a, Decidable (StartFits d a)
  | .startCoord _ _ => inferInstanceAs (Decidable (_ → _))
  | .startNode _ | .sendAlloc _ | .sendFill _ | .sendSubmit _ | .slotTimer | .timeoutTimer
  | .beaconTimer | .netSlot | .netPhy _ _ | .netRun _ | .appli _ => .isTrue trivial

/-- No table write of the step gives the device an entry beyond the slots-frame in use
or takes one from it, and the slots-frame fits the table. -/
def TableSafe (d : Device) (a : Action) : Prop :=
  (∀ p ∈ scannedBeacon d a, ScanInert d.tdma p) ∧
    (∀ p ∈ heardBeacon d a, OwnersInert d.tdma p) ∧ StartFits d a

instance (d : Device) (a : Action) : Decidable (TableSafe d a) :=
  inferInstanceAs (Decidable (_ ∧ _ ∧ _))

/-- What a run keeps: the counter, and that a connected device handles slots. -/
structure Slotted (addr : UInt16) (d : Device) : Prop where
  addr : d.tdma.addr = addr
  accounted : Accounted d.tdma
  ticking : d.tdma.state ≠ .idle → d.tdma.state ≠ .scan → Ticking d

theorem addr_of_retabled (h : Retabled t t') : t'.addr = t.addr := by
  obtain ⟨n, s, rfl⟩ := h
  rfl

theorem accounted_beaconSwitch {p} (h : Accounted t) (inert : OwnersInert t p) :
    Accounted (beaconSwitch t p).1 := by
  unfold beaconSwitch
  dsimp only
  split
  · next assoc =>
    split
    · next own =>
      have joined : Accounted { t with state := .node } := ⟨h.bounded, h.counted⟩
      exact (accounted_owners _ joined (inert (.inr ⟨assoc, own⟩))).1
    · exact h
  · next node => exact (accounted_owners _ h (inert (.inl node))).1
  · exact h

theorem beaconSwitch_addr (t : Tdma) (p : Packet) : (beaconSwitch t p).1.addr = t.addr := by
  rcases beaconSwitch_eq t p with ⟨h, -⟩ | ⟨-, -, h⟩
  · exact addr_of_retabled h
  · exact (addr_of_retabled h).trans rfl

theorem beaconSwitch_state (t : Tdma) (p : Packet) :
    (beaconSwitch t p).1.state = t.state ∨
      t.state = .assoc ∧ (beaconSwitch t p).1.state = .node := by
  rcases beaconSwitch_eq t p with ⟨h, -⟩ | ⟨assoc, -, h⟩
  · exact .inl h.state_eq
  · exact .inr ⟨assoc, h.state_eq⟩

theorem scanTdma_addr (t : Tdma) (p : Packet) : (scanTdma t p).addr = t.addr := by
  unfold scanTdma
  rw [addr_of_retabled (retabled_scanTable _ p)]
  split <;> rfl

theorem slotted_step {d d'} {a} (valid : ValidAddr addr) (hS : Slotted addr d)
    (safe : TableSafe d a) (h : step d a = some d') : Slotted addr d' := by
  have nonzero : d.tdma.addr ≠ 0 := hS.addr.symm ▸ valid.1
  cases step_effect h with
  | quiet table times log state tick =>
    refine ⟨table.addr.trans hS.addr, hS.accounted.of_same table, fun busy noScan => ?_⟩
    rcases state with same | ⟨-, scan⟩ | ⟨wait, -⟩
    · rw [same] at busy noScan
      exact tick.mpr (hS.ticking busy noScan)
    · exact absurd scan noScan
    · exact tick.mpr (hS.ticking (by simp [wait]) (by simp [wait]))
  | timeout table times log event state tick =>
    exact ⟨table.addr.trans hS.addr, hS.accounted.of_same table, fun _ noScan =>
      absurd state noScan⟩
  | slot due table times log state tick =>
    exact ⟨table.addr.trans hS.addr, hS.accounted.of_same table, fun _ _ => tick⟩
  | scan p o beacon table times log state tick old =>
    have inert := safe.1 p beacon
    exact ⟨table.addr.trans ((scanTdma_addr _ p).trans hS.addr),
      (accounted_scanTdma nonzero inert).of_same table, fun _ _ => tick inert.bounded⟩
  | beacon p heard table times log state tick =>
    refine ⟨table.addr.trans ((beaconSwitch_addr _ p).trans hS.addr),
      (accounted_beaconSwitch hS.accounted (safe.2.1 p heard)).of_same table,
      fun busy noScan => ?_⟩
    rw [state] at busy noScan
    rcases beaconSwitch_state d.tdma p with same | ⟨assoc, -⟩
    · rw [same] at busy noScan
      exact tick.mpr (hS.ticking busy noScan)
    · exact tick.mpr (hS.ticking (by simp [assoc]) (by simp [assoc]))
  | assoc p request table times log state tick =>
    have other : p.src ≠ d.tdma.addr := by
      have := assocRequest_accepted request
      simp only [assocAccepted, Bool.and_eq_true, bne_iff_ne] at this
      exact this.1.1.2
    refine ⟨table.addr.trans ((addr_of_retabled (retabled_grantSlots _ _ _)).trans hS.addr),
      (accounted_grant hS.accounted nonzero other).of_same table, fun busy noScan => ?_⟩
    rw [state] at busy noScan
    exact tick.mpr (hS.ticking busy noScan)
  | start cfg o action idle result =>
    subst action
    obtain ⟨pos, bound⟩ := safe.2.2 idle
    rcases startCoord_effect cfg o idle with ⟨above, -⟩ | hs
    · omega
    · subst result
      have haddr : (coordTdma d.tdma cfg).2.addr = d.tdma.addr :=
        (addr_of_retabled (retabled_coordSlots _ _)).trans rfl
      refine ⟨hs.table.addr.trans (haddr.trans hS.addr),
        (accounted_coordTdma nonzero pos bound).of_same hs.table, fun busy _ => ?_⟩
      left
      rw [hs.timer]
      by_contra refused
      rw [hs.state, if_neg refused] at busy
      exact busy rfl

theorem slotted_run {d} (valid : ValidAddr addr)
    (run : Run step TableSafe (macTdmaInit addr) d) : Slotted addr d := by
  refine run.invariant (Slotted addr) (fun t a u hS safe h => slotted_step valid hS safe h) ?_
  have start : Accounted (macTdmaInit addr).tdma := ⟨Nat.zero_le 50, rfl⟩
  exact ⟨rfl, start, fun busy => absurd rfl busy⟩

/-- The transmit-slot counter is right, and a connected device that accepts a frame
comes to a transmit slot. -/
structure SlotsAccounted (d : Device) : Prop where
  bounded : d.slotTimer = true → d.tdma.slotCount.toNat ≤ tdmaMaxSlots
  counted : d.tdma.txSlots.toNat = ownSlots d.tdma.slots d.tdma.addr d.tdma.slotCount.toNat
  reached : ∀ f d', macTdmaIsConnected d.tdma = true → tdmaFrameSend d f = some d' →
    Ticking d ∧
      ∃ k, d.tdma.slots ((slotAdvance d.tdma)^[k] d.sf).nextIndex.toNat = d.tdma.addr

/-- The slot counts match the table, and a connected node that accepts a frame has its slot
timer running and comes to a slot of its own. -/
theorem slots_accounted {addr : UInt16} {d : Device} (valid : ValidAddr addr)
    (run : Run step TableSafe (macTdmaInit addr) d) : SlotsAccounted d := by
  have hS := slotted_run valid run
  refine ⟨fun _ => hS.accounted.bounded, hS.accounted.counted, fun f d' connected sent => ?_⟩
  constructor
  · apply hS.ticking
    · intro idle
      simp [macTdmaIsConnected, idle] at connected
    · intro scan
      simp [macTdmaIsConnected, scan] at connected
  · have some : d.tdma.txSlots ≠ 0 := by
      intro zero
      rw [tdmaFrameSend, if_pos zero] at sent
      cases sent
    have pos : 0 < ownSlots d.tdma.slots d.tdma.addr d.tdma.slotCount.toNat := by
      rw [← hS.accounted.counted]
      exact Nat.pos_of_ne_zero fun h => some (UInt8.toNat_inj.mp h)
    obtain ⟨i, hi, own⟩ := exists_of_ownSlots pos
    obtain ⟨k, hk⟩ := slotAdvance_reaches d.tdma d.sf hi
    exact ⟨k, by rw [hk, own]⟩

open TdmaPool in
theorem slots_accounted_after_report : ∃ d, Run step TableSafe (macTdmaInit 3) d ∧
    d.tdma.txSlots = 1 ∧ SlotsAccounted d := by
  obtain ⟨d, run, h⟩ : ∃ d, Run step TableSafe (macTdmaInit 3) d ∧ d.tdma.txSlots = 1 := by
    refine execIf_observe reportRun _ _ ?_
    decide +kernel
  exact ⟨d, run, h, slots_accounted ⟨by decide, by decide⟩ run⟩

def shifted (off : UInt8) (rx : RxPacket) : RxPacket := ⟨rx.pkt.setByte 3 off, rx.fits⟩

open TdmaPool in
/-- A node joins on beacons that describe entries 10 to 13 of a slots-frame of four slots,
and sends a packet. -/
def strayBeaconRun : List Action :=
  [.startNode ⟨7, 11, 1⟩, .appli calm, .netPhy true (shifted 10 (sampleBeacon 0)), .netRun calm,
    .timeoutTimer, .appli calm] ++ handleSlotRun ++
    [.netPhy true (shifted 10 (sampleBeacon 3)), .netRun calm, .appli calm] ++ sendRun

/-- The packet is accepted although no slot of the slots-frame is a transmit slot. -/
theorem slots_miscounted_after_stray_beacon : ∃ d, Reach step (macTdmaInit 3) d ∧
    d.ghost.accepted.length = 1 ∧ d.tdma.txSlots = 1 ∧
      ownSlots d.tdma.slots d.tdma.addr d.tdma.slotCount.toNat = 0 ∧ ¬SlotsAccounted d := by
  obtain ⟨d, run, h⟩ : ∃ d, Reach step (macTdmaInit 3) d ∧ _ = _ := by
    refine exec_observe strayBeaconRun (fun d => (d.ghost.accepted.length, d.tdma.txSlots,
      ownSlots d.tdma.slots d.tdma.addr d.tdma.slotCount.toNat)) (1, 1, 0) ?_
    decide +kernel
  simp only [Prod.mk.injEq] at h
  refine ⟨d, run, h.1, h.2.1, h.2.2, fun hs => ?_⟩
  have := hs.counted
  rw [h.2.1, h.2.2] at this
  cases this

end TdmaSlots
