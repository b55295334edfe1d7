import OpenLab.CnRadioCommands

/-!
# What a polling command comes to

Once no further command arrives, the queue leads to the configuration of the last `update_config`
in it.
-/

namespace CnRadio

open Schedules List

def Event.updates : Event → Option Source
  | .updateConfig source => some source
  | .setNewConfig _ => none

def Event.sets : Event → Option Source
  | .updateConfig _ => none
  | .setNewConfig source => some source

/-- The structure the queue leads to: that of its last `update_config`, else of its last
`_set_new_config`. -/
def target (queue : List Event) : Option Source :=
  (queue.reverse.findSome? Event.updates).or (queue.reverse.findSome? Event.sets)

/-- The configuration in force when all events have run. -/
def aim (r : Radio) : Config := ((target r.queue).map r.static).getD r.config

section Target

variable (source : Source) (queue : List Event)

theorem findSome_updates_cons (e : Event) :
    (e :: queue).findSome? Event.updates = e.updates.or (queue.findSome? Event.updates) := by
  cases e <;> rfl

theorem findSome_sets_cons (e : Event) :
    (e :: queue).findSome? Event.sets = e.sets.or (queue.findSome? Event.sets) := by
  cases e <;> rfl

theorem target_append_update : target (queue ++ [.updateConfig source]) = some source := by
  rw [target, reverse_append, reverse_singleton, singleton_append,
    findSome_updates_cons]
  rfl

theorem target_update :
    target (queue ++ [.setNewConfig source]) = target (.updateConfig source :: queue) := by
  simp [target, findSome_updates_cons, findSome_sets_cons, Event.updates, Event.sets]

theorem target_set :
    target (.setNewConfig source :: queue) = (target queue).or (some source) := by
  simp [target, Event.updates, Event.sets]

theorem target_isSome_update : (target (.updateConfig source :: queue)).isSome := by
  rw [← target_update, target, reverse_append, reverse_singleton,
    singleton_append, findSome_sets_cons]
  simp [Event.sets]

end Target

section Frame

variable {r : Radio}

/-- `set_next_channel` changes the channel and nothing else, if it returns. -/
structure SameConfig (r r' : Radio) : Prop where
  config : r'.config = r.config
  polling : r'.polling = r.polling
  sniffer : r'.sniffer = r.sniffer
  queue : r'.queue = r.queue
  accepted : r'.accepted = r.accepted

theorem sameConfig_setNextChannel : SameConfig r (setNextChannel r) := by
  unfold setNextChannel
  split <;> exact ⟨rfl, rfl, rfl, rfl, rfl⟩

theorem sameConfig_pollTime : SameConfig r (pollTime r) := by
  unfold pollTime
  split
  · exact ⟨rfl, rfl, rfl, rfl, rfl⟩
  split
  · exact ⟨rfl, rfl, rfl, rfl, rfl⟩
  dsimp only
  split
  · have same := sameConfig_setNextChannel
      (r := { r with currentOpNumOnChannel := r.currentOpNumOnChannel + 1 })
    exact { same with }
  · exact ⟨rfl, rfl, rfl, rfl, rfl⟩

theorem sameConfig_setNewConfig (source : Source) :
    SameConfig { r with config := r.static source } (setNewConfig r source) := by
  unfold setNewConfig
  dsimp only
  split
  · exact ⟨rfl, rfl, rfl, rfl, rfl⟩
  · exact sameConfig_setNextChannel
  · exact sameConfig_setNextChannel

theorem SameConfig.static {r'} (h : SameConfig r r') (source : Source) :
    r'.static source = r.static source := by
  cases source with
  | default => rfl
  | polling => exact h.polling
  | sniffer => exact h.sniffer

theorem SameConfig.aim_eq {r'} (h : SameConfig r r') : aim r' = aim r := by
  have static : r'.static = r.static := funext h.static
  rw [aim, aim, h.queue, static, h.config]

end Frame

variable {r : Radio}

theorem aim_runQueue {r'} (h : runQueue r = some r') : aim r' = aim r := by
  unfold runQueue at h
  split at h
  · cases h
  rename_i e rest queue
  cases h
  cases e with
  | updateConfig source =>
    have static : (updateConfig { r with queue := rest } source).static = r.static := by
      funext s
      cases s <;> rfl
    have leads : target (updateConfig { r with queue := rest } source).queue = target r.queue := by
      rw [queue, ← target_update]
      rfl
    -- The queue is not empty, so the configuration in force does not count.
    have some_ : (target r.queue).isSome := by
      rw [queue]
      exact target_isSome_update source rest
    obtain ⟨s, leads'⟩ := Option.isSome_iff_exists.mp some_
    simp [aim, runEvent, static, leads, leads']
  | setNewConfig source =>
    have same := sameConfig_setNewConfig (r := { r with queue := rest }) source
    rw [runEvent, same.aim_eq]
    have static : ({ r with queue := rest, config := r.static source } : Radio).static =
        r.static := by
      funext s
      cases s <;> rfl
    have popped : ({ r with queue := rest } : Radio).static source = r.static source := by
      cases source <;> rfl
    simp only [aim, popped, static, queue, target_set]
    cases target rest <;> simp

theorem static_runQueue {r'} (h : runQueue r = some r') (source : Source) :
    r'.static source = r.static source := by
  unfold runQueue at h
  split at h
  · cases h
  rename_i e rest queue
  cases h
  cases e with
  | updateConfig s => cases source <;> rfl
  | setNewConfig s =>
    rw [runEvent, (sameConfig_setNewConfig s).static]
    cases source <;> rfl

def channelsOf (data : List UInt8) : UInt32 :=
  le32 (data.getD 0 0) (data.getD 1 0) (data.getD 2 0) (data.getD 3 0) &&& allChannels

def periodOf (data : List UInt8) : UInt16 := le16 (data.getD 4 0) (data.getD 5 0)

/-- What the payload says: nothing without a channel or a period. -/
def meant (data : List UInt8) : Option Config :=
  if channelsOf data = 0 ∨ periodOf data = 0 then none
  else some {
    mode := .polling
    channels := channelsOf data
    numOperationsPerChannel := (data.getD 6 0).toUInt32
    measurePeriod := msToTicks (periodOf data).toUInt32 }

/-- The command is answered and stored as its payload says. -/
def Means (r : Radio) (data : List UInt8) : Prop :=
  match meant data with
  | none => result r .polling data = 1
  | some c => result r .polling data = 0 ∧ (command r .polling data).polling = c

/-- The polling structure between commands: its operation count is a byte. -/
structure Tidy (c : Config) : Prop where
  mode : c.mode = .polling
  count : c.numOperationsPerChannel.toNat < 256

/-- The period that earlier commands left does not show. -/
def Unaffected (r : Radio) (data : List UInt8) : Prop :=
  channelsOf data = 0 ∨ r.polling.measurePeriod.toNat / 65536 = 0 ∨
    periodOf data ≠ 0 ∧ Hidden (r.polling.measurePeriod.toNat / 65536) (periodOf data).toNat

section Bytes

variable {c : Config} {data : List UInt8}

theorem parsePolling_eq (seven : data.length = 7) :
    parsePolling c data =
      if channelsOf data = 0 ∨ setLow16 c.measurePeriod (periodOf data) = 0 then
        (false, { c with
          channels := channelsOf data
          measurePeriod := setLow16 c.measurePeriod (periodOf data)
          numOperationsPerChannel := setLow8 c.numOperationsPerChannel (data.getD 6 0) })
      else
        (true, { c with
          channels := channelsOf data
          measurePeriod := msToTicks (setLow16 c.measurePeriod (periodOf data))
          numOperationsPerChannel := setLow8 c.numOperationsPerChannel (data.getD 6 0) }) := by
  match data, seven with
  | [c₀, c₁, c₂, c₃, p₀, p₁, n], _ =>
    simp only [parsePolling, channelsOf, periodOf, getD_cons_zero, getD_cons_succ]
    split <;> rename_i channels
    · simp [channels]
    · simp [channels]

theorem setLow8_of_byte {x} (byte : x.toNat < 256) (v : UInt8) :
    setLow8 x v = v.toUInt32 := by
  apply UInt32.toNat_inj.mp
  rw [toNat_setLow8, UInt8.toNat_toUInt32]
  omega

theorem setLow16_eq_zero {x} {v} :
    setLow16 x v = 0 ↔ x.toNat / 65536 = 0 ∧ v = 0 := by
  rw [← UInt32.toNat_inj, ← UInt16.toNat_inj, toNat_setLow16]
  simp only [UInt32.toNat_zero, UInt16.toNat_zero]
  omega

theorem tidy_parsePolling (h : Tidy c) (data : List UInt8) : Tidy (parsePolling c data).2 := by
  by_cases seven : data.length = 7
  · have byte (v : UInt8) : (setLow8 c.numOperationsPerChannel v).toNat < 256 := by
      rw [setLow8_of_byte h.count, UInt8.toNat_toUInt32]
      exact v.toNat_lt
    rw [parsePolling_eq seven]
    split <;> exact ⟨h.mode, byte _⟩
  · rw [parsePolling_of_length c data seven]
    exact h

end Bytes

theorem polling_command (data : List UInt8) :
    (command r .polling data).polling = (parsePolling r.polling data).2 := by
  unfold command
  cases parsed : parse .polling (r.static .polling) data with
  | mk ok c =>
    have eq : parsePolling r.polling data = (ok, c) := parsed
    rw [eq]
    cases ok <;> rfl

variable {data : List UInt8}

theorem means_iff (tidy : Tidy r.polling) (seven : data.length = 7) :
    Means r data ↔ Unaffected r data := by
  have answer : result r .polling data = if (parsePolling r.polling data).1 then 0 else 1 := rfl
  unfold Means meant Unaffected
  rw [answer, polling_command, parsePolling_eq seven]
  by_cases channels : channelsOf data = 0
  · simp [channels]
  · by_cases period : periodOf data = 0
    · simp only [channels, period, setLow16_eq_zero, or_true, and_true, false_or, if_true, ne_eq,
        not_true_eq_false, false_and, or_false]
      split <;> simp [*]
    · have taken : setLow16 r.polling.measurePeriod (periodOf data) ≠ 0 := fun zero =>
        period (setLow16_eq_zero.mp zero).2
      have ticks : r.polling.measurePeriod.toNat / 65536 = 0 →
          Hidden (r.polling.measurePeriod.toNat / 65536) (periodOf data).toNat := by
        intro zero
        simp [Hidden, zero]
      simp only [channels, period, taken, or_self, if_false, if_true, tidy.mode,
        setLow8_of_byte tidy.count, true_and, false_or, ne_eq, not_false_eq_true]
      rw [Config.mk.injEq]
      simp only [msToTicks_setLow16, true_and]
      exact ⟨.inr, fun hidden => hidden.elim ticks id⟩

theorem tidy_command (h : Tidy r.polling) (source : Source) (data : List UInt8) :
    Tidy (command r source data).polling := by
  cases source with
  | default => exact h
  | polling =>
    rw [polling_command]
    exact tidy_parsePolling h data
  | sniffer =>
    have same : (command r .sniffer data).polling = r.polling := by
      unfold command
      cases parse .sniffer (r.static .sniffer) data with
      | mk ok c => cases ok <;> rfl
    rw [same]
    exact h

theorem tidy_step {r'} {a} (h : Tidy r.polling) (hs : step r a = some r') :
    Tidy r'.polling := by
  cases a with
  | command source data =>
    cases hs
    exact tidy_command h source data
  | event =>
    simp only [step] at hs
    split at hs
    · cases hs
    · have same : r'.polling = r.polling := static_runQueue hs .polling
      exact same ▸ h
  | pollTime =>
    simp only [step] at hs
    split at hs
    · cases hs
    · cases hs
      rw [sameConfig_pollTime.polling]
      exact h

theorem tidy_reach (run : Reach step init r) : Tidy r.polling :=
  run.invariant (fun r => Tidy r.polling) (fun _ _ _ h _ hs => tidy_step h hs)
    ⟨rfl, by decide⟩

def Settles (_ : Radio) : Action → Prop
  | .command _ _ => False
  | _ => True

instance (r : Radio) (a : Action) : Decidable (Settles r a) := by
  cases a <;> unfold Settles <;> infer_instance

theorem aim_settles {t} (run : Run step Settles r t) : aim t = aim r := by
  refine run.invariant (fun t => aim t = aim r) ?_ rfl
  intro s a u same settles hs
  cases a with
  | command => exact settles.elim
  | event =>
    simp only [step] at hs
    split at hs
    · cases hs
    · exact (aim_runQueue hs).trans same
  | pollTime =>
    simp only [step] at hs
    split at hs
    · cases hs
    · cases hs
      exact sameConfig_pollTime.aim_eq.trans same

theorem aim_command {source} (accepted : (parse source (r.static source) data).1 = true) :
    aim (command r source data) = (command r source data).static source ∧
      (command r source data).static source = (command r source data).accepted := by
  cases parsed : parse source (r.static source) data with
  | mk ok c =>
    obtain rfl : ok = true := by simpa [parsed] using accepted
    have after : command r source data =
        { r.setStatic source c with
          queue := (r.setStatic source c).queue ++ [.updateConfig source], accepted := c } := by
      simp [command, parsed]
    rw [after]
    refine ⟨?_, ?_⟩
    · simp [aim, target_append_update]
    · cases source with
      | default => exact congrArg Prod.snd parsed
      | polling => rfl
      | sniffer => rfl

/-- When no further command follows, the configuration in force in the end is the one the
command stored. -/
theorem config_settled {t} (accepted : result r .polling data = 0)
    (run : Run step Settles (command r .polling data) t) (done : t.queue = []) :
    t.config = (command r .polling data).polling := by
  have ok : (parse .polling (r.static .polling) data).1 = true := by
    simpa [result] using accepted
  have final : aim t = t.config := by simp [aim, done, target]
  rw [← final, aim_settles run]
  exact (aim_command ok).1

def payload (period₀ period₁ : UInt8) : List UInt8 := [0, 8, 0, 0, period₀, period₁, 5]

end CnRadio
