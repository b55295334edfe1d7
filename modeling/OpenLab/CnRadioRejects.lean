import OpenLab.CnRadioPolling

/-!
# Rejected radio commands

A rejected command has already written its static structure, which the events of an earlier one
read later. The comparison is with the node whose rejected commands change nothing.
-/

namespace CnRadio

open Schedules List Option

def Pending (queue : List Event) (source : Source) : Prop :=
  .updateConfig source ∈ queue ∨ .setNewConfig source ∈ queue

instance (queue : List Event) (source : Source) : Decidable (Pending queue source) := by
  unfold Pending
  infer_instance

/-- All that the event task and the radio can see. -/
structure SameBehaviour (r i : Radio) : Prop where
  config : r.config = i.config
  currentChannel : r.currentChannel = i.currentChannel
  currentOpNumOnChannel : r.currentOpNumOnChannel = i.currentOpNumOnChannel
  queue : r.queue = i.queue
  hung : r.hung = i.hung
  accepted : r.accepted = i.accepted

structure Agrees (r i : Radio) : Prop extends SameBehaviour r i where
  residue : ∀ source, residue source (r.static source) = residue source (i.static source)
  pending : ∀ source, Pending r.queue source → r.static source = i.static source

/-- A rejected command changes no structure that a queued event points to. -/
def Safe (r : Radio) : Action → Prop
  | .command source data => (parse source (r.static source) data).1 = false →
      Pending r.queue source → (parse source (r.static source) data).2 = r.static source
  | _ => True

instance (r : Radio) : DecidablePred (Safe r)
  | .command .. | .event | .pollTime => by
    dsimp only [Safe]
    infer_instance

section Commands

variable {r i : Radio} {source : Source} {data : List UInt8}

theorem command_of_accepted (ok : (parse source (r.static source) data).1 = true) :
    command r source data =
      { r.setStatic source (parse source (r.static source) data).2 with
        queue := r.queue ++ [.updateConfig source]
        accepted := (parse source (r.static source) data).2 } := by
  unfold command
  cases parsed : parse source (r.static source) data with
  | mk verdict c =>
    obtain rfl : verdict = true := by simpa [parsed] using ok
    cases source <;> rfl

theorem command_of_rejected (bad : (parse source (r.static source) data).1 = false) :
    command r source data = r.setStatic source (parse source (r.static source) data).2 := by
  unfold command
  cases parsed : parse source (r.static source) data with
  | mk verdict c =>
    obtain rfl : verdict = false := by simpa [parsed] using bad
    rfl

theorem static_setStatic (c : Config) (other : Source) :
    (r.setStatic source c).static other =
      if other = source ∧ source ≠ .default then c else r.static other := by
  cases source <;> cases other <;> simp [Radio.setStatic, Radio.static]

theorem static_command (other : Source) :
    (command r source data).static other =
      if other = source then (parse source (r.static source) data).2 else r.static other := by
  have static (queue : List Event) (accepted : Config) (r : Radio) :
      ({ r with queue := queue, accepted := accepted } : Radio).static other = r.static other := by
    cases other <;> rfl
  cases verdict : (parse source (r.static source) data).1 with
  | true =>
    rw [command_of_accepted verdict, static, static_setStatic]
    cases source <;> cases other <;> simp [parse, Radio.static]
  | false =>
    rw [command_of_rejected verdict, static_setStatic]
    cases source <;> cases other <;> simp [parse, Radio.static]

theorem sameBehaviour_setStatic (r : Radio) (source : Source) (c : Config) :
    SameBehaviour (r.setStatic source c) r := by
  cases source <;> exact ⟨rfl, rfl, rfl, rfl, rfl, rfl⟩

theorem agrees_accepted (h : Agrees r i) (ok : (parse source (r.static source) data).1 = true) :
    (parse source (i.static source) data).1 = true ∧
      Agrees (command r source data) (command i source data) := by
  have same := parse_congr (h.residue source) data
  have ok' := same.1.symm.trans ok
  have stored : (parse source (r.static source) data).2 =
      (parse source (i.static source) data).2 := by
    by_cases default : source = .default
    · subst default
      rfl
    · exact same.2 ok default
  have statics (other : Source) (equal : other ≠ source → r.static other = i.static other) :
      (command r source data).static other = (command i source data).static other := by
    rw [static_command, static_command]
    split
    · exact stored
    · exact equal ‹_›
  have behaves : SameBehaviour (command r source data) (command i source data) := by
    rw [command_of_accepted ok, command_of_accepted ok']
    have left := sameBehaviour_setStatic r source (parse source (r.static source) data).2
    have right := sameBehaviour_setStatic i source (parse source (i.static source) data).2
    exact {
      config := (left.config.trans h.config).trans right.config.symm
      currentChannel := (left.currentChannel.trans h.currentChannel).trans right.currentChannel.symm
      currentOpNumOnChannel := (left.currentOpNumOnChannel.trans h.currentOpNumOnChannel).trans
        right.currentOpNumOnChannel.symm
      queue := by simp [h.queue]
      hung := (left.hung.trans h.hung).trans right.hung.symm
      accepted := stored }
  refine ⟨ok', { behaves with residue := fun other => ?_, pending := fun other waits => ?_ }⟩
  · by_cases mine : other = source
    · subst mine
      rw [static_command, static_command, if_pos rfl, if_pos rfl, stored]
    · rw [static_command, static_command, if_neg mine, if_neg mine]
      exact h.residue other
  · refine statics other fun mine => h.pending other ?_
    have queue : (command r source data).queue = r.queue ++ [.updateConfig source] := by
      rw [command_of_accepted ok]
    simpa [Pending, queue, mine] using waits

theorem agrees_rejected (h : Agrees r i) (bad : (parse source (r.static source) data).1 = false)
    (safe : Safe r (.command source data)) : Agrees (command r source data) i := by
  have behaves : SameBehaviour (command r source data) r := by
    rw [command_of_rejected bad]
    exact sameBehaviour_setStatic _ _ _
  exact {
    config := behaves.config.trans h.config
    currentChannel := behaves.currentChannel.trans h.currentChannel
    currentOpNumOnChannel := behaves.currentOpNumOnChannel.trans h.currentOpNumOnChannel
    queue := behaves.queue.trans h.queue
    hung := behaves.hung.trans h.hung
    accepted := behaves.accepted.trans h.accepted
    residue := fun other => by
      rw [static_command]
      split
      · rename_i mine
        subst mine
        exact (residue_of_rejected data bad).trans (h.residue other)
      · exact h.residue other
    pending := fun other waits => by
      rw [behaves.queue] at waits
      rw [static_command]
      split
      · rename_i mine
        subst mine
        exact (safe bad waits).trans (h.pending other waits)
      · exact h.pending other waits }

end Commands

section Events

variable {r i r' : Radio}

theorem sameBehaviour_setNextChannel (h : SameBehaviour r i) :
    SameBehaviour (setNextChannel r) (setNextChannel i) := by
  have both : nextChannel r.config.channels 42 r.currentChannel =
      nextChannel i.config.channels 42 i.currentChannel := by rw [h.config, h.currentChannel]
  unfold setNextChannel
  rw [both]
  split
  · exact { h with currentChannel := rfl }
  · exact { h with hung := rfl }

theorem sameBehaviour_pollTime (h : SameBehaviour r i) :
    SameBehaviour (pollTime r) (pollTime i) := by
  have counted : SameBehaviour { r with currentOpNumOnChannel := r.currentOpNumOnChannel + 1 }
      { i with currentOpNumOnChannel := i.currentOpNumOnChannel + 1 } :=
    { h with currentOpNumOnChannel := by simp [h.currentOpNumOnChannel] }
  have mode : r.config.mode = i.config.mode := by rw [h.config]
  have count : r.config.numOperationsPerChannel = i.config.numOperationsPerChannel := by
    rw [h.config]
  have number : (r.currentOpNumOnChannel + 1).toUInt32 =
      (i.currentOpNumOnChannel + 1).toUInt32 := by
    rw [h.currentOpNumOnChannel]
  unfold pollTime
  dsimp only
  rw [mode, count, number]
  split
  · exact h
  split
  · exact h
  split
  · exact { sameBehaviour_setNextChannel counted with currentOpNumOnChannel := rfl }
  · exact counted

theorem sameBehaviour_setNewConfig {source} (h : SameBehaviour r i)
    (same : r.static source = i.static source) :
    SameBehaviour (setNewConfig r source) (setNewConfig i source) := by
  have loaded : SameBehaviour { r with config := r.static source }
      { i with config := i.static source } := { h with config := same }
  unfold setNewConfig
  dsimp only
  rw [same] at loaded ⊢
  split
  · exact loaded
  · exact sameBehaviour_setNextChannel loaded
  · exact sameBehaviour_setNextChannel loaded

theorem sameBehaviour_runQueue (h : SameBehaviour r i)
    (head : ∀ source rest, r.queue = .setNewConfig source :: rest →
      r.static source = i.static source) (hs : runQueue r = some r') :
    ∃ i', runQueue i = some i' ∧ SameBehaviour r' i' := by
  unfold runQueue at hs ⊢
  rw [← h.queue]
  split at hs
  · cases hs
  rename_i e rest queue
  cases hs
  have popped : SameBehaviour { r with queue := rest } { i with queue := rest } :=
    { h with queue := rfl }
  refine ⟨_, rfl, ?_⟩
  cases e with
  | updateConfig source => exact { popped with
      config := rfl, currentChannel := rfl, currentOpNumOnChannel := rfl, queue := rfl }
  | setNewConfig source => exact sameBehaviour_setNewConfig popped (head source rest queue)

theorem pending_runQueue {source} (hs : runQueue r = some r')
    (waits : Pending r'.queue source) : Pending r.queue source := by
  unfold runQueue at hs
  split at hs
  · cases hs
  rename_i e rest queue
  cases hs
  cases e with
  | updateConfig s =>
    simp only [runEvent, updateConfig, Pending, mem_append, mem_singleton] at waits
    simp only [Pending, queue, mem_cons]
    rcases waits with (old | new) | (old | new)
    · exact .inl (.inr old)
    · cases new
    · exact .inr (.inr old)
    · cases new
      exact .inl (.inl rfl)
  | setNewConfig s =>
    rw [runEvent, (sameConfig_setNewConfig s).queue] at waits
    rw [queue]
    exact waits.imp (mem_cons_of_mem _) (mem_cons_of_mem _)

theorem agrees_runQueue (h : Agrees r i) (hs : runQueue r = some r') :
    ∃ i', runQueue i = some i' ∧ Agrees r' i' := by
  have head (source : Source) (rest : List Event) (queue : r.queue = .setNewConfig source :: rest) :
      r.static source = i.static source := h.pending source (by simp [Pending, queue])
  obtain ⟨i', hs', same⟩ := sameBehaviour_runQueue h.toSameBehaviour head hs
  refine ⟨i', hs', { same with residue := fun source => ?_, pending := fun source waits => ?_ }⟩
  · rw [static_runQueue hs, static_runQueue hs']
    exact h.residue source
  · rw [static_runQueue hs, static_runQueue hs']
    exact h.pending source (pending_runQueue hs waits)

theorem agrees_pollTime (h : Agrees r i) : Agrees (pollTime r) (pollTime i) where
  toSameBehaviour := sameBehaviour_pollTime h.toSameBehaviour
  residue source := by
    rw [sameConfig_pollTime.static, sameConfig_pollTime.static]
    exact h.residue source
  pending source waits := by
    rw [sameConfig_pollTime.static, sameConfig_pollTime.static]
    exact h.pending source (sameConfig_pollTime.queue ▸ waits)

theorem agrees_step {a} (h : Agrees r i) (safe : Safe r a) (hs : step r a = some r') :
    ∃ i', stepIdeal i a = some i' ∧ Agrees r' i' := by
  cases a with
  | command source data =>
    cases hs
    cases verdict : (parse source (r.static source) data).1 with
    | true =>
      obtain ⟨ok, agrees⟩ := agrees_accepted h verdict
      exact ⟨_, by rw [stepIdeal, if_pos ok], agrees⟩
    | false =>
      have bad : ¬ (parse source (i.static source) data).1 = true := by
        simp [← (parse_congr (h.residue source) data).1, verdict]
      exact ⟨i, by rw [stepIdeal, if_neg bad], agrees_rejected h verdict safe⟩
  | event =>
    simp only [step, stepIdeal] at hs ⊢
    rw [← h.hung]
    split at hs
    · cases hs
    · rename_i free
      rw [if_neg free]
      exact agrees_runQueue h hs
  | pollTime =>
    simp only [step, stepIdeal] at hs ⊢
    rw [← h.hung]
    split at hs
    · cases hs
    · rename_i free
      cases hs
      rw [if_neg free]
      exact ⟨_, rfl, agrees_pollTime h⟩

theorem agrees_exec {schedule} (h : Agrees r i)
    (run : execIf step Safe r schedule = some r') :
    ∃ i', exec stepIdeal i schedule = some i' ∧ Agrees r' i' := by
  induction schedule generalizing r i with
  | nil =>
    obtain rfl : r = r' := by simpa [execIf] using run
    exact ⟨i, rfl, h⟩
  | cons a rest ih =>
    simp only [execIf] at run
    split at run
    · rename_i safe
      cases hs : step r a with
      | none => simp [hs] at run
      | some t =>
        obtain ⟨t', hs', agrees⟩ := agrees_step h safe hs
        obtain ⟨i', run', agrees'⟩ := ih agrees (by simpa [hs] using run)
        exact ⟨i', by simp [exec, hs', run'], agrees'⟩
    · cases run

end Events

/-- A configuration that can be put in force: the loop over its channels ends. -/
def Usable (c : Config) : Prop := c.mode = .off ∨ Selects c.channels

structure Sound (i : Radio) : Prop where
  aim : aim i = i.accepted
  config : Usable i.config
  pending : ∀ source, Pending i.queue source → Usable (i.static source)
  channel : i.currentChannel ≤ maxChannel
  running : i.hung = false

section Sound

variable {i i' : Radio} {source : Source}

theorem selects_of_accepted {c} {data} (other : source ≠ .default)
    (ok : (parse source c data).1 = true) : Selects (parse source c data).2.channels := by
  cases source with
  | default => exact absurd rfl other
  | polling =>
    by_cases seven : data.length = 7
    · rw [parse, parsePolling_eq seven] at ok ⊢
      split at ok
      · simp at ok
      · rename_i fine
        rw [if_neg fine]
        exact selects_of_mask fun none_ => fine (.inl none_)
    · simp [parse, parsePolling_of_length c data seven] at ok
  | sniffer =>
    simp only [parse, parseSniffer] at ok ⊢
    split at ok
    · split at ok
      · simp at ok
      · rename_i fine
        rw [if_neg fine]
        split at ok
        · simp at ok
        · rename_i single
          rw [if_neg single]
          split at ok
          · simp at ok
          · rename_i zero
            rw [if_neg zero]
            exact selects_of_mask fine
    · simp at ok

theorem sound_setNextChannel (aims : aim i = i.accepted) (selects : Selects i.config.channels)
    (pending : ∀ source, Pending i.queue source → Usable (i.static source))
    (channel : i.currentChannel ≤ maxChannel) (running : i.hung = false) :
    Sound (setNextChannel i) := by
  obtain ⟨next, found, bound⟩ := nextChannel_returns selects channel
  have same := sameConfig_setNextChannel (r := i)
  have moved : setNextChannel i = { i with currentChannel := next } := by
    simp [setNextChannel, found]
  exact {
    aim := same.aim_eq.trans (aims.trans same.accepted.symm)
    config := .inr (same.config ▸ selects)
    pending := fun source waits => by
      rw [same.static]
      exact pending source (same.queue ▸ waits)
    channel := by simp [moved, bound]
    running := by simp [moved, running] }

theorem sound_pollTime (h : Sound i) : Sound (pollTime i) := by
  unfold pollTime
  split
  · exact h
  rename_i polling
  have selects : Selects i.config.channels := by
    refine h.config.resolve_left fun off => polling ?_
    simp [off]
  split
  · exact h
  dsimp only
  split
  · have switched := sound_setNextChannel
      (i := { i with currentOpNumOnChannel := i.currentOpNumOnChannel + 1 }) h.aim selects
      h.pending h.channel h.running
    exact { switched with pending := switched.pending }
  · exact { h with pending := h.pending }

theorem sound_setNewConfig (usable : Usable (i.static source))
    (aims : aim { i with config := i.static source } = i.accepted)
    (pending : ∀ source, Pending i.queue source → Usable (i.static source))
    (channel : i.currentChannel ≤ maxChannel) (running : i.hung = false) :
    Sound (setNewConfig i source) := by
  unfold setNewConfig
  dsimp only
  split
  · exact ⟨aims, usable, pending, channel, running⟩
  all_goals
    rename_i mode
    have selects : Selects (i.static source).channels :=
      usable.resolve_left (by simp [mode])
    exact sound_setNextChannel (i := { i with config := i.static source }) aims selects pending
      channel running

theorem accepted_runQueue (hs : runQueue i = some i') : i'.accepted = i.accepted := by
  unfold runQueue at hs
  split at hs
  · cases hs
  rename_i e rest queue
  cases hs
  cases e with
  | updateConfig s => rfl
  | setNewConfig s => exact (sameConfig_setNewConfig s).accepted

theorem sound_runQueue (h : Sound i) (hs : runQueue i = some i') : Sound i' := by
  have aims : aim i' = i'.accepted :=
    (aim_runQueue hs).trans (h.aim.trans (accepted_runQueue hs).symm)
  have pending (source : Source) (waits : Pending i'.queue source) : Usable (i'.static source) := by
    rw [static_runQueue hs]
    exact h.pending source (pending_runQueue hs waits)
  unfold runQueue at hs
  split at hs
  · cases hs
  rename_i e rest queue
  cases hs
  cases e with
  | updateConfig source => exact ⟨aims, .inl rfl, pending, Nat.zero_le _, h.running⟩
  | setNewConfig source =>
    have same := sameConfig_setNewConfig (r := { i with queue := rest }) source
    refine sound_setNewConfig (h.pending source (by simp [Pending, queue])) ?_ ?_
      h.channel h.running
    · rw [← same.aim_eq]
      exact aims.trans same.accepted
    · intro other waits
      exact h.pending other (by
        rw [queue]
        exact waits.imp (mem_cons_of_mem _) (mem_cons_of_mem _))

theorem sound_command {data} (h : Sound i)
    (ok : (parse source (i.static source) data).1 = true) : Sound (command i source data) := by
  have aims := aim_command ok
  have behaves := sameBehaviour_setStatic i source (parse source (i.static source) data).2
  have after := command_of_accepted ok
  refine ⟨aims.1.trans aims.2, ?_, fun other waits => ?_, ?_, ?_⟩
  · rw [after]
    exact behaves.config ▸ h.config
  · rw [static_command]
    split
    · by_cases default : source = .default
      · subst default
        exact .inl rfl
      · exact .inr (selects_of_accepted default ok)
    · rename_i mine
      rw [after] at waits
      exact h.pending other (by simpa [Pending, mine] using waits)
  · rw [after]
    exact behaves.currentChannel ▸ h.channel
  · rw [after]
    exact behaves.hung.trans h.running

theorem sound_step {a} (h : Sound i) (hs : stepIdeal i a = some i') : Sound i' := by
  cases a with
  | command source data =>
    simp only [stepIdeal, some.injEq] at hs
    split at hs
    · rename_i ok
      exact hs ▸ sound_command h ok
    · exact hs ▸ h
  | event =>
    simp only [stepIdeal, step, h.running, Bool.false_eq_true, if_false] at hs
    exact sound_runQueue h hs
  | pollTime =>
    simp only [stepIdeal, step, h.running, Bool.false_eq_true, if_false, some.injEq] at hs
    exact hs ▸ sound_pollTime h

theorem sound_init : Sound init where
  aim := rfl
  config := .inl rfl
  pending source waits := by
    cases source with
    | default => exact .inl rfl
    | polling | sniffer => simp [Pending, init] at waits
  channel := Nat.zero_le _
  running := rfl

theorem sound_exec {schedule} (run : exec stepIdeal init schedule = some i) :
    Sound i :=
  (exec_reach run).invariant Sound (fun _ _ _ h _ hs => sound_step h hs) sound_init

end Sound

def rounds (queue : List Event) : Nat :=
  (queue.map fun e => match e with
    | .updateConfig _ => 2
    | .setNewConfig _ => 1).sum

theorem rounds_runQueue {r r'} (hs : runQueue r = some r') :
    rounds r.queue = rounds r'.queue + 1 := by
  unfold runQueue at hs
  split at hs
  · cases hs
  rename_i e rest queue
  cases hs
  cases e with
  | updateConfig s => simp [queue, rounds, runEvent, updateConfig]; omega
  | setNewConfig s =>
    rw [runEvent, (sameConfig_setNewConfig s).queue, queue]
    simp [rounds]
    omega

/-- The nodes behave alike, but differ in a structure that an event points to. -/
structure Diverges (source : Source) (r i : Radio) : Prop where
  behaves : SameBehaviour r i
  pending : Pending r.queue source
  differs : r.static source ≠ i.static source
  others : ∀ other, other ≠ source → Pending r.queue other → r.static other = i.static other

variable {source : Source}

theorem diverges_runQueue {r i} (h : Diverges source r i) :
    ∃ r' i', runQueue r = some r' ∧ runQueue i = some i' ∧
      (r'.config ≠ i'.config ∨ Diverges source r' i') := by
  obtain ⟨e, rest, queue⟩ : ∃ e rest, r.queue = e :: rest := by
    cases queue : r.queue with
    | nil => simpa [Pending, queue] using h.pending
    | cons e rest => exact ⟨e, rest, rfl⟩
  have runs : runQueue r = some (runEvent { r with queue := rest } e) := by simp [runQueue, queue]
  by_cases shown : e = .setNewConfig source
  · subst shown
    have runs' : runQueue i = some (runEvent { i with queue := rest } (.setNewConfig source)) := by
      simp [runQueue, ← h.behaves.queue, queue]
    refine ⟨_, _, runs, runs', .inl ?_⟩
    rw [runEvent, runEvent, (sameConfig_setNewConfig source).config,
      (sameConfig_setNewConfig source).config]
    have static (r : Radio) : ({ r with queue := rest } : Radio).static source =
        r.static source := by
      cases source <;> rfl
    simpa [static] using h.differs
  · have head (s : Source) (rest' : List Event) (eq : r.queue = .setNewConfig s :: rest') :
        r.static s = i.static s := by
      rw [queue] at eq
      obtain ⟨rfl, rfl⟩ := cons.inj eq
      exact h.others s (by rintro rfl; exact shown rfl) (by simp [Pending, queue])
    obtain ⟨i', runs', same⟩ := sameBehaviour_runQueue h.behaves head runs
    refine ⟨_, i', runs, runs', .inr ⟨same, ?_, ?_, ?_⟩⟩
    · -- The pending event is not the one that ran, or it has posted its successor.
      cases e with
      | updateConfig s =>
        have waits := h.pending
        simp only [Pending, queue, mem_cons] at waits
        simp only [runEvent, updateConfig, Pending, mem_append, mem_singleton]
        rcases waits with (now | later) | (now | later)
        · cases now
          exact .inr (.inr rfl)
        · exact .inl (.inl later)
        · cases now
        · exact .inr (.inl later)
      | setNewConfig s =>
        rw [runEvent, (sameConfig_setNewConfig s).queue]
        have waits := h.pending
        simp only [Pending, queue, mem_cons] at waits
        rcases waits with (now | later) | (now | later)
        · cases now
        · exact .inl later
        · exact absurd now.symm shown
        · exact .inr later
    · rw [static_runQueue runs, static_runQueue runs']
      exact h.differs
    · intro other mine waits
      rw [static_runQueue runs, static_runQueue runs']
      exact h.others other mine (pending_runQueue runs waits)

theorem diverges_exposed : ∀ n (r i : Radio), rounds r.queue = n →
    Diverges source r i → Sound i →
    ∃ events r' i', exec step r (List.replicate events .event) = some r' ∧
      exec stepIdeal i (List.replicate events .event) = some i' ∧ r'.config ≠ i'.config := by
  intro n
  induction n using Nat.strong_induction_on with
  | _ n ih =>
    intro r i size h sound
    obtain ⟨r', i', runs, runs', outcome⟩ := diverges_runQueue h
    have first : step r .event = some r' := by
      simp [step, h.behaves.hung.trans sound.running, runs]
    have first' : stepIdeal i .event = some i' := by
      simp [stepIdeal, step, sound.running, runs']
    obtain shown | later := outcome
    · exact ⟨1, r', i', by simp [exec, first], by simp [exec, first'], shown⟩
    · have less := rounds_runQueue runs
      obtain ⟨events, r'', i'', more, more', shown⟩ :=
        ih (rounds r'.queue) (by omega) r' i' rfl later (sound_runQueue sound runs')
      refine ⟨events + 1, r'', i'', ?_, ?_, shown⟩
      · simp [replicate_succ, exec, first, more]
      · simp [replicate_succ, exec, first', more']

theorem diverges_of_not_safe {r i} {data} (h : Agrees r i)
    (bad : ¬ Safe r (.command source data)) : Diverges source (command r source data) i ∧
      stepIdeal i (.command source data) = some i := by
  obtain ⟨rejected, waits, changed⟩ : (parse source (r.static source) data).1 = false ∧
      Pending r.queue source ∧
      (parse source (r.static source) data).2 ≠ r.static source := by
    simpa [Safe] using bad
  have after := command_of_rejected rejected
  have behaves := sameBehaviour_setStatic r source (parse source (r.static source) data).2
  have rejected' : ¬ (parse source (i.static source) data).1 = true := by
    simp [← (parse_congr (h.residue source) data).1, rejected]
  refine ⟨⟨?_, ?_, ?_, ?_⟩, by rw [stepIdeal, if_neg rejected']⟩
  · rw [after]
    exact {
      config := behaves.config.trans h.config
      currentChannel := behaves.currentChannel.trans h.currentChannel
      currentOpNumOnChannel := behaves.currentOpNumOnChannel.trans h.currentOpNumOnChannel
      queue := behaves.queue.trans h.queue
      hung := behaves.hung.trans h.hung
      accepted := behaves.accepted.trans h.accepted }
  · rw [after, behaves.queue]
    exact waits
  · rw [static_command, if_pos rfl, ← h.pending source waits]
    exact changed
  · intro other mine others
    rw [after, behaves.queue] at others
    rw [static_command, if_neg mine]
    exact h.pending other others

/-- Under a schedule whose rejected commands are all safe, the node behaves as if they had
not been sent; when all events have run the configuration in force is that of the last
accepted command, and `set_next_channel` always returns. The first rejected command that
is not safe makes some later event put a configuration in force that no accepted command
asked for. -/
theorem rejected_commands_harmless (schedule : List Action) (r : Radio)
    (run : execIf step Safe init schedule = some r) :
    (∃ i, exec stepIdeal init schedule = some i ∧ SameBehaviour r i ∧ r.hung = false ∧
      (r.queue = [] → r.config = r.accepted) ∧
      (r.config.mode ≠ .off → Selects r.config.channels)) ∧
    ∀ source data, ¬ Safe r (.command source data) →
      ∃ i events r' i', exec stepIdeal init schedule = some i ∧
        exec step r (.command source data :: List.replicate events .event) = some r' ∧
        exec stepIdeal i (.command source data :: List.replicate events .event) = some i' ∧
        r'.config ≠ i'.config := by
  have start : Agrees init init := ⟨⟨rfl, rfl, rfl, rfl, rfl, rfl⟩, fun _ => rfl, fun _ _ => rfl⟩
  obtain ⟨i, run', agrees⟩ := agrees_exec start run
  have sound := sound_exec run'
  constructor
  · refine ⟨i, run', agrees.toSameBehaviour, agrees.hung.trans sound.running, fun done => ?_,
      fun on => ?_⟩
    · have empty : i.queue = [] := agrees.queue.symm.trans done
      have final : aim i = i.config := by simp [aim, empty, target]
      rw [agrees.config, agrees.accepted, ← final, sound.aim]
    · rw [agrees.config] at on ⊢
      exact sound.config.resolve_left on
  · intro source data bad
    obtain ⟨diverges, ideal⟩ := diverges_of_not_safe agrees bad
    obtain ⟨events, r', i', more, more', shown⟩ := diverges_exposed _ _ _ rfl diverges sound
    exact ⟨i, events, r', i', run', by simp [exec, step, more], by simp [exec, ideal, more'], shown⟩

theorem rejected_commands_harmless_late :
    ∃ i, exec stepIdeal init [.command .polling [0, 8, 0, 0, 100, 0, 5], .event, .event, .event,
        .command .polling [0, 0, 0, 0, 100, 0, 5]] = some i ∧ i.config = i.accepted := by
  have run : (execIf step Safe init [.command .polling [0, 8, 0, 0, 100, 0, 5], .event, .event,
      .event, .command .polling [0, 0, 0, 0, 100, 0, 5]]).isSome := by decide +kernel
  obtain ⟨r, run⟩ := isSome_iff_exists.mp run
  obtain ⟨i, ideal, same, _, settled, _⟩ := (rejected_commands_harmless _ r run).1
  have done : (exec stepIdeal init [.command .polling [0, 8, 0, 0, 100, 0, 5], .event, .event,
      .event, .command .polling [0, 0, 0, 0, 100, 0, 5]]).map Radio.queue = some [] := by
    decide +kernel
  rw [ideal, map_some, some.injEq] at done
  exact ⟨i, ideal, by rw [← same.config, ← same.accepted]; exact settled (same.queue.trans done)⟩

/-- A polling command is accepted, and one without channels rejected before its events have
run: `_set_new_config` copies the empty channel map and `set_next_channel` never returns. -/
theorem rejected_command_hangs :
    ∃ r, Reach step init r ∧ r.config.mode = .polling ∧ r.config.channels = 0 ∧
      r.hung = true ∧ r.accepted.channels = 0x800 ∧
      ∀ rounds, nextChannel r.config.channels rounds 0 = none := by
  obtain ⟨r, run, seen⟩ : ∃ r, Reach step init r ∧
      (r.config.mode, r.config.channels, r.hung, r.accepted.channels) =
        (.polling, 0, true, 0x800) :=
    exec_observe [.command .polling [0, 8, 0, 0, 100, 0, 5],
      .command .polling [0, 0, 0, 0, 100, 0, 5], .event, .event, .event] _ _ (by decide +kernel)
  simp only [Prod.mk.injEq] at seen
  obtain ⟨mode, channels, hung, accepted⟩ := seen
  refine ⟨r, run, mode, channels, hung, accepted, fun rounds => ?_⟩
  rw [channels]
  exact nextChannel_of_empty rounds 0

end CnRadio
