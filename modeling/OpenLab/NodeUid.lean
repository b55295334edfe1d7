import Mathlib

/-!
# Nodes by uid

`node_from_uid`: a binary search with unsigned bounds in a table that is sorted by uid.
-/

namespace NodeUid

open List Option

structure NodeEntry where
  uid : UInt16
  node : UInt32

structure Node where
  type : UInt8
  num : UInt32
  typeStr : Option String

def nodeTypeString (type : UInt8) : Option String :=
  if type = 0x3 then some "m3" else if type = 0x8 then some "a8" else none

def noNode : Node := ⟨0, 0, none⟩

def NodeEntry.found (current : NodeEntry) : Node :=
  let type := ((0xf : UInt32) &&& current.node >>> 24).toUInt8
  ⟨type, 0x0fff &&& current.node, nodeTypeString type⟩

inductive Outcome
  | node (x : Node)
  /-- an entry behind the table is read -/
  | outside (cur : Nat)
  | running

/-- The loop of `node_from_uid`, for a number of rounds. -/
def search (table : List NodeEntry) (uid : UInt16) : Nat → Nat → Nat → Outcome
  | 0, _, _ => .running
  | rounds + 1, first, last =>
    if first ≤ last then
      let cur := (first + last) % 2 ^ 32 / 2
      match table[cur]? with
      | none => .outside cur
      | some current =>
        if current.uid < uid then search table uid rounds (cur + 1) last
        else if uid < current.uid then search table uid rounds first ((cur + 2 ^ 32 - 1) % 2 ^ 32)
        else .node current.found
    else .node noNode

def nodeFromUid (table : List NodeEntry) (uid : UInt16) (rounds : Nat) : Outcome :=
  search table uid rounds 0 (table.length - 1)

structure Table where
  entries : List NodeEntry
  some_entry : entries ≠ []
  sorted : entries.Pairwise fun e e' => e.uid < e'.uid

namespace Table

variable (t : Table) {uid : UInt16} {i j : Nat} {e e' : NodeEntry}

def lookup (uid : UInt16) : Node :=
  match t.entries.find? fun e => e.uid = uid with
  | some e => e.found
  | none => noNode

/-- The search ends and returns what is in the table. -/
def Right (uid : UInt16) : Prop :=
  ∀ rounds, t.entries.length < rounds → nodeFromUid t.entries uid rounds = .node (t.lookup uid)

variable {t}

theorem uid_lt (less : i < j) (at_i : t.entries[i]? = some e) (at_j : t.entries[j]? = some e') :
    e.uid.toNat < e'.uid.toNat := by
  obtain ⟨low, rfl⟩ := List.getElem?_eq_some_iff.mp at_i
  obtain ⟨high, rfl⟩ := List.getElem?_eq_some_iff.mp at_j
  exact pairwise_iff_getElem.mp t.sorted i j low high less

theorem exists_entry (inside : i < t.entries.length) : ∃ e, t.entries[i]? = some e :=
  ⟨_, getElem?_eq_getElem inside⟩

theorem index_le (at_i : t.entries[i]? = some e) : i ≤ e.uid.toNat := by
  induction i generalizing e with
  | zero => exact Nat.zero_le _
  | succ i ih =>
    have low := (List.getElem?_eq_some_iff.mp at_i).1
    obtain ⟨before, at_before⟩ := exists_entry (t := t) (i := i) (by omega)
    exact Nat.lt_of_le_of_lt (ih at_before) (uid_lt (Nat.lt_succ_self i) at_before at_i)

/-- The uids have 16 bits. -/
theorem length_le (t : Table) : t.entries.length ≤ 2 ^ 16 := by
  by_contra long
  obtain ⟨e, last⟩ := exists_entry (Nat.lt_of_not_le long)
  exact absurd (index_le last) (Nat.not_le.mpr e.uid.toNat_lt)

theorem lookup_eq_found (at_i : t.entries[i]? = some e) (same : e.uid.toNat = uid.toNat) :
    t.lookup uid = e.found := by
  obtain ⟨e', found⟩ : ∃ e', t.entries.find? (fun e => e.uid = uid) = some e' := by
    rw [← isSome_iff_exists, find?_isSome]
    exact ⟨e, mem_of_getElem? at_i, by simpa using UInt16.toNat_inj.mp same⟩
  obtain ⟨j, at_j⟩ := mem_iff_getElem?.mp (mem_of_find?_eq_some found)
  have same' : e'.uid = uid := by simpa using find?_some found
  rw [← same'] at same
  rcases Nat.lt_trichotomy i j with less | rfl | less
  · exact absurd same (uid_lt less at_i at_j).ne
  · rw [lookup, found, some.inj (at_i.symm.trans at_j)]
  · exact absurd same (uid_lt less at_j at_i).ne'

theorem lookup_eq_none (absent : ∀ (i : Nat) (e : NodeEntry), t.entries[i]? = some e →
    e.uid.toNat ≠ uid.toNat) :
    t.lookup uid = noNode := by
  have none : t.entries.find? (fun e => e.uid = uid) = none := by
    rw [find?_eq_none]
    intro e mem
    obtain ⟨i, at_i⟩ := mem_iff_getElem?.mp mem
    simpa using fun same => absent i e at_i (congrArg UInt16.toNat same)
  rw [lookup, none]

/-- The entries before `first` are smaller and those behind `last` are larger. -/
structure Between (t : Table) (uid : UInt16) (first last : Nat) : Prop where
  bound : last < t.entries.length
  before : ∀ i e, i < first → t.entries[i]? = some e → e.uid.toNat < uid.toNat
  behind : ∀ i e, last < i → t.entries[i]? = some e → uid.toNat < e.uid.toNat

theorem search_found {first last rounds}
    (least : ∀ e, t.entries[0]? = some e → e.uid.toNat ≤ uid.toNat)
    (h : t.Between uid first last) (enough : last + 1 - first < rounds) :
    search t.entries uid rounds first last = .node (t.lookup uid) := by
  induction rounds generalizing first last with
  | zero => omega
  | succ rounds ih =>
    have size := t.length_le
    have bound := h.bound
    by_cases order : first ≤ last
    · obtain ⟨cur, mid⟩ : ∃ cur, cur = (first + last) / 2 := ⟨_, rfl⟩
      obtain ⟨current, here⟩ := exists_entry (t := t) (i := cur) (by omega)
      have read : (first + last) % 2 ^ 32 / 2 = cur := by omega
      simp only [search, if_pos order, read, here, UInt16.lt_iff_toNat_lt]
      split
      · next smaller =>
        refine ih ⟨bound, fun i e less at_i => ?_, h.behind⟩ (by omega)
        rcases Nat.lt_succ_iff_lt_or_eq.mp less with less | rfl
        · exact (uid_lt less at_i here).trans smaller
        · rwa [some.inj (at_i.symm.trans here)]
      · split
        · next larger =>
          have positive : cur ≠ 0 := fun zero =>
            absurd (least current (zero ▸ here)) (Nat.not_le.mpr larger)
          rw [show (cur + 2 ^ 32 - 1) % 2 ^ 32 = cur - 1 by omega]
          refine ih ⟨by omega, h.before, fun i e less at_i => ?_⟩ (by omega)
          rcases Nat.lt_or_eq_of_le (show cur ≤ i by omega) with less | rfl
          · exact larger.trans (uid_lt less here at_i)
          · rwa [some.inj (at_i.symm.trans here)]
        · rw [lookup_eq_found here (by omega)]
    · rw [search, if_neg order, lookup_eq_none]
      intro i e at_i
      rcases Nat.lt_or_ge i first with less | ge
      · exact (h.before i e less at_i).ne
      · exact (h.behind i e (by omega) at_i).ne'

/-- For a smaller uid than all of the table the upper bound comes to 0 and is lowered once more. -/
theorem search_leaves {last rounds : Nat}
    (larger : ∀ (i : Nat) (e : NodeEntry), t.entries[i]? = some e → uid.toNat < e.uid.toNat)
    (bound : last < t.entries.length) (x : Node) :
    search t.entries uid rounds 0 last ≠ .node x := by
  induction rounds generalizing last with
  | zero => nofun
  | succ rounds ih =>
    have size := t.length_le
    obtain ⟨current, here⟩ := exists_entry (t := t) (i := last / 2) (by omega)
    have read : (0 + last) % 2 ^ 32 / 2 = last / 2 := by omega
    have larger := larger _ current here
    simp only [search, read, here, Nat.zero_le, if_true, UInt16.lt_iff_toNat_lt,
      if_neg larger.asymm, if_pos larger]
    by_cases zero : last / 2 = 0
    · cases rounds with
      | zero => nofun
      | succ rounds =>
        have none : t.entries[2147483647]? = none := getElem?_eq_none (by omega)
        simp [zero, search, none]
    · exact ih (by omega)

/-- The search is right if and only if the first uid of the table is not larger. -/
theorem search_right_iff (t : Table) (uid : UInt16) :
    t.Right uid ↔ (t.entries.head t.some_entry).uid ≤ uid := by
  have positive := length_pos_iff.mpr t.some_entry
  have head : t.entries[0]? = some (t.entries.head t.some_entry) := by
    rw [← head?_eq_getElem?, head?_eq_some_head]
  constructor
  · intro right
    by_contra small
    refine search_leaves ?_ (Nat.sub_lt positive Nat.one_pos) _ (right _ (Nat.lt_succ_self _))
    intro i e at_i
    rcases Nat.eq_zero_or_pos i with rfl | later
    · exact some.inj (head.symm.trans at_i) ▸ Nat.not_le.mp small
    · exact (Nat.not_le.mp small).trans (uid_lt later head at_i)
  · intro least rounds enough
    refine search_found ?_ ⟨by omega, nofun, ?_⟩ (by omega)
    · intro e first
      exact some.inj (head.symm.trans first) ▸ least
    · intro i e less at_i
      have := (List.getElem?_eq_some_iff.mp at_i).1
      omega

end Table

def threeNodes : Table :=
  ⟨[⟨1, 0x03000001⟩, ⟨7, 0x03000002⟩, ⟨9, 0x01000003⟩], by simp, by simp⟩

/-- A uid of the table, one between two of them and one behind them all. -/
theorem search_right_three :
    threeNodes.Right 7 ∧ threeNodes.Right 8 ∧ threeNodes.Right 10 := by
  refine ⟨?_, ?_, ?_⟩ <;> exact (threeNodes.search_right_iff _).mpr (by decide)

def oneNode : Table := ⟨[⟨1, 0x03000001⟩], by simp, by simp⟩

/-- The first entry is read, and then the one at 2147483647. -/
theorem node_search_leaves : nodeFromUid oneNode.entries 0 2 = .outside 2147483647 ∧
    ¬oneNode.Right 0 := by
  have leaves : nodeFromUid oneNode.entries 0 2 = .outside 2147483647 := by
    simp [nodeFromUid, search, oneNode]
  refine ⟨leaves, fun right => ?_⟩
  have wrong := leaves.symm.trans (right 2 (by decide))
  cases wrong

end NodeUid
