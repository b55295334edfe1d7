import OpenLab.TdmaDevice

/-!
# The slot table

What the functions that configure slots do to the record of a device: they change
`slots` and `tx_slots` and nothing else, entry by entry.
-/

namespace TdmaTable

open TdmaTypes TdmaCore TdmaHandlers TdmaDevice

def Retabled (t t' : Tdma) : Prop := ∃ n s, t' = { t with txSlots := n, slots := s }

variable {t t' t'' : Tdma}

theorem Retabled.refl (t : Tdma) : Retabled t t := ⟨t.txSlots, t.slots, rfl⟩

theorem Retabled.trans (h : Retabled t t') (h' : Retabled t' t'') : Retabled t t'' := by
  obtain ⟨n, s, rfl⟩ := h
  obtain ⟨n', s', rfl⟩ := h'
  exact ⟨n', s', rfl⟩

theorem Retabled.state_eq (h : Retabled t t') : t'.state = t.state := by
  obtain ⟨n, s, rfl⟩ := h
  rfl

theorem Retabled.rxHandler_eq (h : Retabled t t') : t'.rxHandler = t.rxHandler := by
  obtain ⟨n, s, rfl⟩ := h
  rfl

theorem retabled_configure (t : Tdma) (id : UInt8) (owner : UInt16) :
    Retabled t (tdmaSlotConfigure t id owner) := by
  unfold tdmaSlotConfigure
  split
  · exact .refl t
  · exact ⟨_, _, rfl⟩

theorem retabled_clear (t : Tdma) : Retabled t (clearSlots t) := ⟨_, _, rfl⟩

theorem retabled_scanTable (t : Tdma) (p : Packet) : Retabled t (scanTable t p) := by
  unfold scanTable
  split
  · exact (retabled_configure _ _ _).trans (retabled_configure _ _ _)
  · exact retabled_configure _ _ _

theorem retabled_configureOwners (p : Packet) (k : Nat) (t : Tdma) :
    Retabled t (configureOwners p k t) := by
  induction k with
  | zero => exact .refl t
  | succ k ih => exact ih.trans (retabled_configure _ _ _)

theorem retabled_allocateSlots (addr : UInt16) (n delta request id : Nat) (t : Tdma) :
    Retabled t (allocateSlots addr n delta request id t) := by
  induction request generalizing id t with
  | zero => exact .refl t
  | succ request ih =>
    unfold allocateSlots
    dsimp only
    split
    · exact .refl t
    · exact (retabled_configure _ _ _).trans (ih _ _)

theorem retabled_grantSlots (t : Tdma) (addr : UInt16) (request : Nat) :
    Retabled t (grantSlots t addr request) :=
  retabled_allocateSlots _ _ _ _ _ _

theorem retabled_configureStatic (owners : Nat → UInt16) (k : Nat) (t : Tdma) :
    Retabled t (configureStatic owners k t) := by
  induction k with
  | zero => exact .refl t
  | succ k ih => exact ih.trans (retabled_configure _ _ _)

theorem retabled_coordSlots (t : Tdma) (slotsframe : Option (Nat → UInt16)) :
    Retabled t (coordSlots t slotsframe).2 := by
  unfold coordSlots
  cases slotsframe with
  | none => exact (retabled_configure _ _ _).trans (retabled_configure _ _ _)
  | some owners =>
    dsimp only
    split
    · exact .refl t
    · exact (retabled_configure _ _ _).trans (retabled_configureStatic _ _ _)

theorem beaconSwitch_eq (t : Tdma) (p : Packet) :
    (Retabled t (beaconSwitch t p).1 ∧
      ((beaconSwitch t p).2 = true → t.state = .assoc ∨ t.state = .node)) ∨
    (t.state = .assoc ∧ (beaconSwitch t p).2 = true ∧
      Retabled { t with state := .node } (beaconSwitch t p).1) := by
  unfold beaconSwitch
  dsimp only
  split
  · next h =>
    split
    · exact .inr ⟨h, rfl, retabled_configureOwners _ _ _⟩
    · exact .inl ⟨.refl t, fun h => by cases h⟩
  · next h => exact .inl ⟨retabled_configureOwners _ _ _, fun _ => .inr h⟩
  · exact .inl ⟨.refl t, fun h => by cases h⟩

end TdmaTable
