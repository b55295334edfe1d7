import OpenLab.ByteFields
import OpenLab.CnRadioCommands

/-!
# Channel hopping

With a new polling configuration the polls go through the selected channels in ascending order,
again and again.
-/

namespace CnRadio

open List

open ByteFields (div_mod_next div_mod_last)

/-- A polling configuration with at least one of the 16 channels, and no other bits. -/
structure Hopping where
  config : Config
  polling : config.mode = .polling
  masked : config.channels &&& allChannels = config.channels
  some_channel : config.channels ≠ 0
  few : config.numOperationsPerChannel.toNat ≤ 255

namespace Hopping

variable (h : Hopping)

def selected : List Nat := (List.range' minChannel 16).filter h.config.channels.toNat.testBit

/-- `_set_new_config` after `proper_stop`. -/
def start (r : Radio) : Radio :=
  setNewConfig { r with polling := h.config, currentChannel := 0, currentOpNumOnChannel := 0 }
    .polling

def operations : Nat := h.config.numOperationsPerChannel.toNat

/-- The place among the selected channels of the one of poll `k`. -/
def place (k : Nat) : Nat :=
  if h.operations = 0 then 0 else k / h.operations % h.selected.length

variable {h} {i j c d n : Nat}

theorem mem_selected : n ∈ h.selected ↔ h.config.channels.toNat.testBit n = true := by
  refine ⟨fun mem => (mem_filter.mp mem).2, fun bit => mem_filter.mpr ⟨?_, bit⟩⟩
  rw [← h.masked, UInt32.toNat_and, Nat.testBit_and, Bool.and_eq_true] at bit
  obtain ⟨first, last⟩ := allChannels_testBit bit.2
  simp only [mem_range'_1, minChannel, maxChannel] at *
  omega

theorem increasing (at_i : h.selected[i]? = some c) (at_j : h.selected[j]? = some d)
    (less : i < j) : c < d := by
  have sorted : h.selected.Pairwise (· < ·) := (pairwise_lt_range' ..).filter _
  obtain ⟨_, rfl⟩ := List.getElem?_eq_some_iff.mp at_i
  obtain ⟨_, rfl⟩ := List.getElem?_eq_some_iff.mp at_j
  exact pairwise_iff_getElem.mp sorted i j _ _ less

theorem index_lt (at_i : h.selected[i]? = some c) (at_j : h.selected[j]? = some d) (less : c < d) :
    i < j := by
  by_contra ge
  rcases Nat.eq_or_lt_of_le (Nat.not_lt.mp ge) with rfl | gt
  · exact less.ne (Option.some.inj (at_i.symm.trans at_j))
  · exact less.asymm (increasing at_j at_i gt)

theorem channel_le (at_i : h.selected[i]? = some c) : minChannel ≤ c ∧ c ≤ maxChannel := by
  have mem := (mem_filter.mp (mem_of_getElem? at_i)).1
  simp only [mem_range'_1, minChannel, maxChannel] at *
  omega

/-- The search stops at the first selected channel above the current one. -/
theorem up {rounds current} (at_i : h.selected[i]? = some d) (below : current < d)
    (first : ∀ j e, h.selected[j]? = some e → current < e → i ≤ j)
    (enough : maxChannel ≤ rounds + current) :
    nextChannel h.config.channels rounds current = some d := by
  have last := (channel_le at_i).2
  refine nextChannel_up last below (mem_selected.mp (mem_of_getElem? at_i)) ?_ (by omega)
  intro n above less
  by_contra bit
  obtain ⟨j, at_j⟩ := mem_iff_getElem?.mp (mem_selected.mpr (by simpa using bit))
  exact absurd (first j n at_j above) (Nat.not_le.mpr (index_lt at_j at_i less))

theorem next (at_i : h.selected[i]? = some c) : ∃ d,
    h.selected[(i + 1) % h.selected.length]? = some d ∧
      nextChannel h.config.channels 42 c = some d := by
  have inside := (List.getElem?_eq_some_iff.mp at_i).1
  obtain ⟨-, bound⟩ := channel_le at_i
  by_cases more : i + 1 < h.selected.length
  · rw [Nat.mod_eq_of_lt more]
    have at_next : h.selected[i + 1]? = some _ := getElem?_eq_getElem more
    refine ⟨_, at_next, up at_next ?_ (fun j e at_j less => index_lt at_i at_j less) ?_⟩
    · exact increasing at_i at_next (Nat.lt_succ_self i)
    · unfold maxChannel
      omega
  · have at_first : h.selected[0]? = some _ := getElem?_eq_getElem (by omega)
    have wraps := nextChannel_wrap h.config.channels (15 + c) bound ?_
    · rw [show maxChannel - c + (15 + c) + 1 = 42 by unfold maxChannel at *; omega] at wraps
      rw [show i + 1 = h.selected.length by omega, Nat.mod_self, wraps]
      refine ⟨_, at_first, up at_first ?_ (fun j _ _ _ => Nat.zero_le j) ?_⟩
      · exact Nat.sub_one_lt_of_le (by decide) (channel_le at_first).1
      · unfold maxChannel minChannel
        omega
    · intro n above _
      by_contra bit
      obtain ⟨j, at_j⟩ := mem_iff_getElem?.mp (mem_selected.mpr (by simpa using bit))
      have := index_lt at_i at_j above
      have := (List.getElem?_eq_some_iff.mp at_j).1
      omega

/-- The radio before poll `k`. -/
structure Before (h : Hopping) (k : Nat) (r : Radio) : Prop where
  config : r.config = h.config
  channel : h.selected[h.place k]? = some r.currentChannel
  count : h.operations ≠ 0 → r.currentOpNumOnChannel.toNat = k % h.operations

theorem before_start (h : Hopping) (r : Radio) : h.Before 0 (h.start r) := by
  have nonzero : h.config.channels.toNat ≠ 0 := fun zero =>
    h.some_channel (UInt32.toNat_inj.mp zero)
  obtain ⟨n, bit⟩ := Nat.exists_testBit_of_ne_zero nonzero
  obtain ⟨d, at_first⟩ : ∃ d, h.selected[0]? = some d :=
    ⟨_, getElem?_eq_getElem (length_pos_of_mem (mem_selected.mpr bit))⟩
  have found : nextChannel h.config.channels 42 0 = some d :=
    up at_first ((by decide : 0 < minChannel).trans_le (channel_le at_first).1)
      (fun j _ _ _ => Nat.zero_le j) (by decide)
  have eq : h.start r = { r with
      polling := h.config, config := h.config, currentChannel := d,
      currentOpNumOnChannel := 0 } := by
    simp [start, setNewConfig, Radio.static, h.polling, setNextChannel, found]
  rw [eq]
  exact ⟨rfl, by simpa [place] using at_first, fun _ => (Nat.zero_mod _).symm⟩

theorem before_poll {k r} (before : h.Before k r) : h.Before (k + 1) (pollTime r) := by
  obtain ⟨config, channel, count⟩ := before
  have polling : ¬r.config.mode ≠ .polling := not_not.mpr (config ▸ h.polling)
  have off : r.config.numOperationsPerChannel = 0 ↔ h.operations = 0 := by
    rw [config, ← UInt32.toNat_inj]
    rfl
  by_cases zero : h.operations = 0
  · rw [pollTime, if_neg polling, if_pos (off.mpr zero)]
    exact ⟨config, by simpa [place, zero] using channel, fun on => absurd zero on⟩
  have less := Nat.mod_lt k (Nat.pos_of_ne_zero zero)
  have few : h.operations ≤ 255 := h.few
  have succ : (r.currentOpNumOnChannel + 1).toNat = k % h.operations + 1 := by
    rw [UInt8.toNat_add, count zero]
    exact Nat.mod_eq_of_lt (by simp; omega)
  have switches : r.config.numOperationsPerChannel = (r.currentOpNumOnChannel + 1).toUInt32 ↔
      k % h.operations + 1 = h.operations := by
    rw [← succ, config, ← UInt32.toNat_inj, UInt8.toNat_toUInt32, eq_comm]
    rfl
  rw [pollTime, if_neg polling, if_neg (mt off.mp zero)]
  by_cases last : k % h.operations + 1 = h.operations
  · obtain ⟨quotient, remainder⟩ := div_mod_last last
    obtain ⟨d, at_next, found⟩ := next channel
    rw [← config] at found
    simp only [if_pos (switches.mpr last), setNextChannel, found]
    refine ⟨config, ?_, fun _ => remainder.symm⟩
    rw [← at_next, place, place, if_neg zero, if_neg zero, quotient, Nat.mod_add_mod]
  · obtain ⟨quotient, remainder⟩ := div_mod_next (Nat.lt_of_le_of_ne less last)
    simp only [if_neg (mt switches.mp last)]
    refine ⟨config, ?_, fun _ => succ.trans remainder.symm⟩
    rw [← channel, place, place, if_neg zero, if_neg zero, quotient]

def threeChannels : Hopping := ⟨⟨.polling, 0x4100800, 2, 0⟩, rfl, by decide, by decide, by decide⟩

end Hopping

end CnRadio
