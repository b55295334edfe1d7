import OpenLab.PageCacheCoherent
import OpenLab.Schedules

/-!
# The page cache as an array of pages

The cache runs side by side with a plain array of pages. A call keeps the two together unless it
leaves other bytes under the tag of a used buffer.
-/

namespace PageCache

open Function Schedules Option

def PageArray.serve (pages : PageArray) : Call → PageArray × Cache.Reply
  | .read page offset size => (pages, ⟨size, bytes (pages page) offset size⟩)
  | .write page offset data =>
    (update pages page (cpy data (pages page) offset), ⟨data.length, []⟩)

/-- The cache, the array, and the replies of both to each call so far, the last one first. -/
structure Lockstep where
  cache : Cache
  pages : PageArray
  replies : List (Cache.Reply × Cache.Reply)

inductive Action
  | call (call : Call) (attempts : Attempts)
  | writeTask (attempt : Attempt)

namespace Lockstep

/-- What the call should do: nothing if all its attempts to load the page fail. -/
def ideal (s : Lockstep) (attempts : Attempts) (call : Call) : PageArray × Cache.Reply :=
  if s.cache.Fails attempts call then (s.pages, ⟨0, []⟩) else s.pages.serve call

def init (sdhc : Bool) (content : Fin fsPoolSize → Block) (medium : UInt32 → Block) : Lockstep :=
  let c := Cache.fsInit sdhc content medium
  ⟨c, fun page => medium (c.address page), []⟩

def step (s : Lockstep) : Action → Option Lockstep
  | .call call attempts =>
    if call.Valid then
      (s.cache.serve attempts call).map fun (c, reply) =>
        ⟨c, (s.ideal attempts call).1, (reply, (s.ideal attempts call).2) :: s.replies⟩
    else none
  | .writeTask attempt => (s.cache.vWriteTask attempt).map fun c => { s with cache := c }

end Lockstep

namespace Cache

/-- A buffer that is loaded but keeps the tag of another page has the bytes of that page. -/
def SparesVictim (c : Cache) (attempts : Attempts) (page : UInt32) (offset : Nat)
    (data : List UInt8) : Prop :=
  ∀ j, c.lookup page = none → c.reserveBuffer = some j → (c.pool j).use ≠ 0 →
    data = [] ∨ c.Fails attempts (.write page offset data) →
      (c.loadPage page j attempts).content = (c.pool j).content

def Keeps (c : Cache) (attempts : Attempts) : Call → Prop
  | .read page _ _ => ∀ j, c.lookupUsed page = none → c.reserveBuffer = some j →
      (c.loadPage page j attempts).content = c.medium (c.address page)
  | .write page offset data =>
    c.HoldsRest page offset data.length ∧ c.SparesVictim attempts page offset data

instance (c : Cache) (page : UInt32) (offset size : Nat) :
    Decidable (c.HoldsRest page offset size) := by
  unfold HoldsRest
  infer_instance

instance (c : Cache) (attempts : Attempts) (page : UInt32) (offset : Nat) (data : List UInt8) :
    Decidable (c.SparesVictim attempts page offset data) := by
  unfold SparesVictim
  infer_instance

instance (c : Cache) (attempts : Attempts) : DecidablePred (c.Keeps attempts)
  | .read .. | .write .. => by
    dsimp only [Keeps]
    infer_instance

end Cache

namespace Action

def FaultFree : Action → Prop
  | call _ attempts => ∀ i, (attempts i).ok = true
  | writeTask attempt => attempt.ok = true

def WritesDone : Action → Prop
  | call _ _ => True
  | writeTask attempt => attempt.ok = true

def Keeps (c : Cache) : Action → Prop
  | call asked attempts => c.Addressable asked.page ∧ c.Keeps attempts asked
  | writeTask _ => True

instance : DecidablePred FaultFree := fun a => by cases a <;> unfold FaultFree <;> infer_instance

instance : DecidablePred WritesDone := fun a => by cases a <;> unfold WritesDone <;> infer_instance

instance (c : Cache) : DecidablePred (Keeps c) := fun a => by
  cases a <;> unfold Keeps <;> infer_instance

theorem FaultFree.writesDone {a : Action} (h : a.FaultFree) : a.WritesDone := by
  cases a with
  | call asked attempts => trivial
  | writeTask attempt => exact h

end Action

namespace Lockstep

variable {s t : Lockstep} {attempts : Attempts} {call : Call} {page : UInt32} {offset : Nat}
  {data : List UInt8} {j i : Fin fsPoolSize}

theorem step_call (h : s.step (.call call attempts) = some t) :
    ∃ reply, call.Valid ∧ Cache.Served s.cache attempts call t.cache reply ∧
      t.pages = (s.ideal attempts call).1 ∧
      t.replies = (reply, (s.ideal attempts call).2) :: s.replies := by
  obtain ⟨valid, h⟩ := ite_none_right_eq_some.mp h
  obtain ⟨⟨c, reply⟩, served, rfl⟩ := map_eq_some_iff.mp h
  exact ⟨reply, valid, Cache.serve_change valid served, rfl, rfl⟩

theorem step_writeTask {attempt} (h : s.step (.writeTask attempt) = some t) :
    s.cache.vWriteTask attempt = some t.cache ∧ t.pages = s.pages ∧ t.replies = s.replies := by
  obtain ⟨c, task, rfl⟩ := map_eq_some_iff.mp h
  exact ⟨task, rfl, rfl⟩

theorem ideal_fails (h : s.cache.Fails attempts call) :
    s.ideal attempts call = (s.pages, ⟨0, []⟩) := if_pos h

theorem ideal_works (h : ¬s.cache.Fails attempts call) :
    s.ideal attempts call = s.pages.serve call := if_neg h

theorem ideal_read {size} : (s.ideal attempts (.read page offset size)).1 = s.pages := by
  unfold ideal
  split <;> rfl

theorem ideal_drop (miss : s.cache.lookup page = none) (none : data = [] ∨
      data.length ≠ pageSize ∧ (s.cache.loadPage page j attempts).ok = false) :
    s.ideal attempts (.write page offset data) = (s.pages, ⟨0, []⟩) := by
  by_cases fails : s.cache.Fails attempts (.write page offset data)
  · exact ideal_fails fails
  · have empty : data = [] := none.resolve_right fun failed =>
      fails ⟨miss, failed.1, Cache.loadPage_failed.mp failed.2⟩
    rw [ideal_works fails, empty]
    simp [PageArray.serve]

theorem drop_iff (miss : s.cache.lookup page = none) :
    data = [] ∨ s.cache.Fails attempts (.write page offset data) ↔
      data = [] ∨ data.length ≠ pageSize ∧ (s.cache.loadPage page j attempts).ok = false := by
  rw [Cache.Fails, Cache.loadPage_failed]
  simp [miss]

theorem not_fails_of_loaded {size} (hit : s.cache.lookupUsed page = some i) :
    ¬s.cache.Fails attempts (.read page offset size) := by
  rintro ⟨miss, -⟩
  simp [hit] at miss

theorem not_fails_of_hit (hit : s.cache.lookup page = some i) :
    ¬s.cache.Fails attempts (.write page offset data) := by
  rintro ⟨miss, -⟩
  simp [hit] at miss

theorem not_fails_of_ready {block} (ready : data.length = pageSize ∨
      (∃ i, (attempts i).ok = true) ∧ block = s.cache.medium (s.cache.address page)) :
    ¬s.cache.Fails attempts (.write page offset data) := by
  rintro ⟨-, part, all⟩
  obtain ⟨⟨i, ok⟩, -⟩ := ready.resolve_left part
  simp [all i] at ok

theorem coherent_call (h : Coherent s.cache s.pages) (own : s.cache.Addressable call.page)
    (keeps : s.cache.Keeps attempts call) (st : s.step (.call call attempts) = some t) :
    Coherent t.cache t.pages := by
  obtain ⟨reply, valid, served, pages, -⟩ := step_call st
  rw [pages]
  generalize t.cache = c' at served ⊢
  cases served with
  | readHit hit =>
    rw [ideal_read]
    exact h.readHit hit
  | readLoad miss victim loaded count =>
    rw [ideal_read, loaded, keeps _ miss victim]
    exact h.readLoad own miss victim
  | writeHit hit eq =>
    rw [ideal_works (not_fails_of_hit hit)]
    exact h.writeHit own hit keeps.1 eq
  | writeLoad miss victim some_bytes ready =>
    rw [ideal_works (not_fails_of_ready ready)]
    refine h.writeLoad own miss victim ?_
    rcases ready with full | ⟨-, rfl⟩
    · exact cpy_full valid.2 full
    · rfl
  | writeDrop miss victim loaded none =>
    rw [loaded] at none ⊢
    rw [ideal_drop miss none]
    exact h.scratch fun used => keeps.2 _ miss victim used ((drop_iff miss).mpr none)

theorem reply_call (h : Coherent s.cache s.pages) (own : s.cache.Addressable call.page)
    (st : s.step (.call call attempts) = some t) : ∃ r, t.replies = (r, r) :: s.replies := by
  obtain ⟨reply, -, served, -, replies⟩ := step_call st
  suffices same : (s.ideal attempts call).2 = reply from ⟨reply, same ▸ replies⟩
  generalize t.cache = c' at served
  cases served with
  | @readHit page offset size i hit =>
    obtain ⟨here, used⟩ := Cache.lookupUsed_spec hit
    rw [ideal_works (not_fails_of_loaded hit), PageArray.serve, h.loaded i used, here]
  | @readLoad page offset size n j l miss victim loaded count =>
    subst loaded count
    cases ok : (s.cache.loadPage page j attempts).ok with
    | true =>
      have works : ¬s.cache.Fails attempts (.read page offset size) := fun fails => by
        simp [Cache.loadPage_failed.mpr fails.2] at ok
      have onCard : s.cache.medium (s.cache.address page) = s.pages page :=
        h.stored_of_miss own (Cache.lookupUsed_none.mp miss)
      rw [ideal_works works, PageArray.serve, Cache.loadPage_content ok, onCard, if_pos rfl]
    | false =>
      have fails : s.cache.Fails attempts (.read page offset size) :=
        ⟨miss, Cache.loadPage_failed.mp ok⟩
      rw [ideal_fails fails]
      simp
  | writeHit hit eq => rw [ideal_works (not_fails_of_hit hit), PageArray.serve]
  | writeLoad miss victim some_bytes ready =>
      rw [ideal_works (not_fails_of_ready ready), PageArray.serve]
  | writeDrop miss victim loaded none =>
    rw [loaded] at none
    rw [ideal_drop miss none]

/-- Every read now returns the bytes of the array, unless it cannot load its page. -/
def Faithful (s : Lockstep) : Prop :=
  ∀ page offset size attempts t, s.cache.Addressable page →
    s.step (.call (.read page offset size) attempts) = some t →
      ∃ r, t.replies = (r, r) :: s.replies

theorem faithful_of_coherent (h : Coherent s.cache s.pages) : s.Faithful :=
  fun page offset size _ _ own st =>
    reply_call h (show s.cache.Addressable (Call.read page offset size).page from own) st

theorem not_faithful {k} (own : s.cache.Addressable page)
    (hit : s.cache.lookupUsed page = some i) (wrong : (s.cache.pool i).content k ≠ s.pages page k) :
    ¬s.Faithful := by
  intro faithful
  have valid : Call.Valid (.read page k.val 1) := ⟨k.isLt, k.isLt⟩
  have whole : min 1 (pageSize - k.val) = 1 := by omega
  have read : s.cache.serve (fun _ => .done) (.read page k.val 1) =
      some (s.cache.putBuffer i
        { s.cache.pool i with use := Cache.used (s.cache.pool i) },
        ⟨1, [(s.cache.pool i).content k]⟩) := by
    rw [Cache.serve, Cache.fsRead, whole, Cache.fsReadLoop, hit]
    simp [bytes_one]
  obtain ⟨r, replies⟩ := faithful page k.val 1 (fun _ => .done) _ own
    ((if_pos valid).trans (congrArg (Option.map _) read))
  rw [ideal_works (not_fails_of_loaded hit), PageArray.serve, bytes_one] at replies
  simp only [List.cons.injEq, Prod.mk.injEq, and_true] at replies
  have := replies.1.trans replies.2.symm
  simp [wrong] at this

theorem not_faithful_put {c c' : Cache} {b : Buffer} {k : Fin pageSize} (after : s.cache = c')
    (sdhc : c'.sdhc = c.sdhc) (pool : c'.pool = update c.pool j b)
    (own : c.Addressable b.page) (used : b.use ≠ 0)
    (alone : ∀ i, i ≠ j → (c.pool i).use ≠ 0 → (c.pool i).page ≠ b.page)
    (wrong : b.content k ≠ s.pages b.page k) : ¬s.Faithful := by
  subst after
  have here : s.cache.pool j = b := by rw [pool, update_self]
  refine not_faithful (k := k) ?_ (Cache.lookupUsed_put pool used alone) ?_
  · rwa [Cache.Addressable, sdhc]
  · rwa [here]

section

variable (h : Coherent s.cache s.pages) (own : s.cache.Addressable call.page)
  (st : s.step (.call call attempts) = some t)

include h own st

theorem keeps_of_faithful (faithful : t.Faithful) : s.cache.Keeps attempts call := by
  obtain ⟨reply, -, served, pages, -⟩ := step_call st
  generalize after : t.cache = c' at served
  cases served with
  | readHit hit => exact fun j miss => absurd (hit.symm.trans miss) (some_ne_none _)
  | @readLoad page offset size n j l miss victim loaded count =>
    intro j' _ victim'
    obtain rfl := some.inj (victim.symm.trans victim')
    have miss := Cache.lookupUsed_none.mp miss
    have onCard : s.cache.medium (s.cache.address page) = s.pages page := h.stored_of_miss own miss
    rw [ideal_read] at pages
    rw [← loaded, onCard, ← pages]
    funext k
    by_contra wrong
    exact not_faithful_put (c := s.cache) (b := ⟨l.content, false, page, 2⟩) after rfl rfl own
      (by simp) (fun i _ => miss i) wrong faithful
  | @writeHit page offset data i put hit eq =>
    refine ⟨?_, fun j miss => absurd (hit.symm.trans miss) (some_ne_none _)⟩
    intro i' hit' zero k out
    obtain rfl := some.inj (hit.symm.trans hit')
    have alone := (h.hit_first hit).2
    have onCard : s.cache.medium (s.cache.address page) = s.pages page :=
      h.stored_of_miss own fun k kUsed => alone k (fun eq => kUsed (eq ▸ zero)) kUsed
    have clean : ¬(s.cache.pool i).dirty = true := by simp [(h.unused i zero).2]
    rw [if_neg clean, eq] at after
    rw [ideal_works (not_fails_of_hit hit), PageArray.serve] at pages
    rw [onCard]
    by_contra wrong
    refine not_faithful_put (k := k) (c := s.cache)
      (b := ⟨cpy data (s.cache.pool i).content offset, true, page, Cache.used (s.cache.pool i)⟩)
      after rfl rfl own Coherent.used_ne_zero alone
      ?_ faithful
    rw [pages]
    dsimp only
    rwa [update_self, cpy_outside out, cpy_outside out]
  | writeLoad miss victim some_bytes ready =>
    refine ⟨fun i hit => absurd (hit.symm.trans miss) (some_ne_none _), ?_⟩
    intro j _ _ _ none
    exact absurd (none.resolve_left some_bytes) (not_fails_of_ready ready)
  | @writeDrop page offset data j l miss victim loaded none =>
    refine ⟨fun i hit => absurd (hit.symm.trans miss) (some_ne_none _), ?_⟩
    intro j' _ victim' used _
    obtain rfl := some.inj (victim.symm.trans victim')
    have pages : t.pages = s.pages := by rw [pages, ideal_drop miss (loaded ▸ none)]
    rw [← loaded, h.loaded j used, ← pages]
    funext k
    by_contra wrong
    exact not_faithful_put (c := s.cache) (b := { s.cache.pool j with content := l.content })
      after rfl rfl (h.addressable j used) used
      (fun i ne iUsed same => ne (h.apart i j iUsed used same)) wrong faithful

theorem keeps_iff_faithful : s.cache.Keeps attempts call ↔ t.Faithful :=
  ⟨fun keeps => faithful_of_coherent (coherent_call h own keeps st), keeps_of_faithful h own st⟩

end

theorem coherent_step {a} (h : Coherent s.cache s.pages) (writes : a.WritesDone)
    (keeps : a.Keeps s.cache) (st : s.step a = some t) : Coherent t.cache t.pages := by
  cases a with
  | call call attempts => exact coherent_call h keeps.1 keeps.2 st
  | writeTask attempt =>
    obtain ⟨task, pages, -⟩ := step_writeTask st
    cases attempt with
    | done => exact pages ▸ (h.vWriteTask_done task).1
    | refused => simp [Action.WritesDone, Attempt.ok] at writes
    | broken left => simp [Action.WritesDone, Attempt.ok] at writes

structure Agrees (s : Lockstep) : Prop where
  coherent : Coherent s.cache s.pages
  replies : ∀ r ∈ s.replies, r.1 = r.2

theorem agrees_step {a} (h : s.Agrees) (writes : a.WritesDone)
    (keeps : a.Keeps s.cache) (st : s.step a = some t) : t.Agrees := by
  refine ⟨coherent_step h.coherent writes keeps st, ?_⟩
  cases a with
  | call call attempts =>
    obtain ⟨r, replies⟩ := reply_call h.coherent keeps.1 st
    rw [replies]
    exact List.forall_mem_cons.mpr ⟨rfl, h.replies⟩
  | writeTask attempt =>
    rw [(step_writeTask st).2.2]
    exact h.replies

theorem agrees_run {ok} {sdhc}
    {content} {medium}
    (run : Run step ok (init sdhc content medium) s)
    (keeps : ∀ s a, ok s a → a.WritesDone ∧ a.Keeps s.cache) : s.Agrees :=
  run.invariant Agrees (fun s a _ h ok st => agrees_step h (keeps s a ok).1 (keeps s a ok).2 st)
    ⟨Coherent.init sdhc content medium, by simp [init]⟩

theorem call_served (h : Coherent s.cache s.pages) (valid : call.Valid) :
    s.step (.call call attempts) ≠ none ∨ ∃ t, s.step (.writeTask .done) = some t ∧
      t.step (.call call attempts) ≠ none := by
  have goes : ∀ t : Lockstep, t.cache.reserveBuffer ≠ none →
      t.step (.call call attempts) ≠ none := by
    intro t free
    rw [step, if_pos valid]
    exact mt map_eq_none_iff.mp (Cache.serve_goes free attempts call)
  by_cases free : s.cache.reserveBuffer ≠ none
  · exact .inl (goes s free)
  · -- All the buffers are dirty, so the write task has been told.
    have full : ∀ i, (s.cache.pool i).dirty = true := fun i => by
      by_contra clean
      have := IndexScan.least_none (not_not.mp free) i (by simpa using clean)
      have := h.use_le i
      omega
    have told : 0 < s.cache.dirtySem := h.counted ▸ Tally.tally_pos (i := 0) (full 0)
    obtain ⟨c, task⟩ := ne_none_iff_exists'.mp (Coherent.vWriteTask_goes told)
    obtain ⟨after, j, clean⟩ := h.vWriteTask_done task
    refine .inr ⟨{ s with cache := c }, by rw [step, task]; rfl, goes _ fun none => ?_⟩
    have most : maxUse + 1 ≤ (c.pool j).use := IndexScan.least_none none j (by simpa using clean)
    have := after.use_le j
    omega

theorem faultFree_ideal (free : Action.FaultFree (.call call attempts)) :
    s.ideal attempts call = s.pages.serve call := by
  refine ideal_works fun fails => ?_
  have failed : (attempts 0).ok = false := by
    cases call with
    | read page offset size => exact fails.2 0
    | write page offset data => exact fails.2.2 0
  simp [free 0] at failed

/-- In a run without faults whose calls keep the right bytes in their buffers, every reply is
that of the array, and the card holds the array when no buffer is dirty. A call is served at
once or after an iteration of the write task, and it keeps the right bytes if and only if all
the reads after it return those of the array. -/
theorem refines_page_array {sdhc : Bool} {content : Fin fsPoolSize → Block}
    {medium : UInt32 → Block}
    (run : Run step (fun s a => a.FaultFree ∧ a.Keeps s.cache) (init sdhc content medium) s) :
    (∀ r ∈ s.replies, r.1 = r.2) ∧
      ((∀ i, (s.cache.pool i).dirty = false) → ∀ page, s.cache.Addressable page →
        s.cache.medium (s.cache.address page) = s.pages page) ∧
      (∀ call attempts, call.Valid → s.step (.call call attempts) ≠ none ∨
        ∃ t, s.step (.writeTask .done) = some t ∧ t.step (.call call attempts) ≠ none) ∧
      ∀ call attempts t, Action.FaultFree (.call call attempts) →
        s.step (.call call attempts) = some t →
          t.pages = (s.pages.serve call).1 ∧
            (s.cache.Addressable call.page → (s.cache.Keeps attempts call ↔ t.Faithful)) := by
  have agrees := agrees_run run fun s a ok => ⟨ok.1.writesDone, ok.2⟩
  have h := agrees.coherent
  refine ⟨agrees.replies, fun clean page own => ?_, fun call attempts valid => call_served h valid,
    fun call attempts t free st => ⟨?_, fun own => keeps_iff_faithful h own st⟩⟩
  · exact h.stored page own fun i dirty => by simp [clean i] at dirty
  · obtain ⟨_, _, _, pages, _⟩ := step_call st
    rw [pages, faultFree_ideal free]

theorem refines_page_array_write_back : ∃ s : Lockstep,
    Run step (fun s a => a.FaultFree ∧ a.Keeps s.cache) (init false (fun _ _ => 0) fun _ _ => 7) s ∧
      s.replies.map Prod.fst = [⟨2, [7, 9]⟩, ⟨1, []⟩, ⟨2, [7, 7]⟩] ∧
      ∀ r ∈ s.replies, r.1 = r.2 := by
  obtain ⟨s, run, replies⟩ : ∃ s : Lockstep,
      Run step (fun s a => a.FaultFree ∧ a.Keeps s.cache)
        (init false (fun _ _ => 0) fun _ _ => 7) s ∧
        s.replies.map Prod.fst = [⟨2, [7, 9]⟩, ⟨1, []⟩, ⟨2, [7, 7]⟩] := by
    refine execIf_observe [.call (.read 5 3 2) fun _ => .done,
      .call (.write 5 4 [9]) fun _ => .done,
      .writeTask .done, .call (.read 5 3 2) fun _ => .done] _ _ ?_
    decide +kernel
  exact ⟨s, run, replies, (refines_page_array run).1⟩

def fillPool : List Action :=
  (List.range fsPoolSize).map fun n => .call (.read (UInt32.ofNat (n + 1)) 0 1) fun _ => .done

/-- One byte is written to page 0 after `fs_init`, and the bytes after it are those of a buffer
that was never loaded; a write of no bytes leaves its page under the tag of another one; and
without `SDHC` two pages have one address. -/
theorem unused_buffer_hit :
    (∃ s : Lockstep,
      Run step (fun _ a => a.FaultFree) (init true (fun _ _ => 0) fun _ _ => 7) s ∧
        s.replies.head? = some (⟨1, [0]⟩, ⟨1, [7]⟩)) ∧
    (∃ s : Lockstep,
      Run step (fun _ a => a.FaultFree) (init true (fun _ _ => 0) fun page _ => page.toUInt8) s ∧
        s.replies.head? = some (⟨1, [100]⟩, ⟨1, [1]⟩)) ∧
    ∃ s : Lockstep,
      Run step (fun _ a => a.FaultFree) (init false (fun _ _ => 0) fun _ _ => 7) s ∧
        s.replies.head? = some (⟨1, [9]⟩, ⟨1, [7]⟩) := by
  refine ⟨?_, ?_, ?_⟩
  · refine execIf_observe
      [.call (.write 0 0 [9]) fun _ => .done, .call (.read 0 1 1) fun _ => .done] _ _ ?_
    decide +kernel
  · refine execIf_observe
      (fillPool ++ [.call (.write 100 0 []) fun _ => .done, .call (.read 1 1 1) fun _ => .done])
      _ _ ?_
    decide +kernel
  · refine execIf_observe
      [.call (.write 8388613 0 [9]) fun _ => .done, .writeTask .done,
        .call (.read 5 0 1) fun _ => .done] _ _ ?_
    decide +kernel

/-- In a run whose writes to the card succeed and whose calls keep the right bytes in their
buffers, every reply is that of the array, and so is every read to come. A call whose attempts
all fail returns 0 and leaves the array as it is; all the reads after it return the bytes of the
array if and only if it keeps the right bytes in its buffer. -/
theorem failed_access_harmless {sdhc : Bool} {content : Fin fsPoolSize → Block}
    {medium : UInt32 → Block}
    (run : Run step (fun s a => a.WritesDone ∧ a.Keeps s.cache) (init sdhc content medium) s) :
    (∀ r ∈ s.replies, r.1 = r.2) ∧ s.Faithful ∧
      ∀ call attempts t, s.cache.Addressable call.page → s.cache.Fails attempts call →
        s.step (.call call attempts) = some t →
          t.pages = s.pages ∧ t.replies = (⟨0, []⟩, ⟨0, []⟩) :: s.replies ∧
            (s.cache.Keeps attempts call ↔ t.Faithful) := by
  have agrees := agrees_run run fun _ _ ok => ok
  have h := agrees.coherent
  refine ⟨agrees.replies, faithful_of_coherent h, fun call attempts t own fails st => ?_⟩
  obtain ⟨reply, -, -, pages, replies⟩ := step_call st
  obtain ⟨r, same⟩ := reply_call h own st
  rw [ideal_fails fails] at pages replies
  obtain ⟨left, right⟩ := Prod.mk.inj (List.cons.inj (replies.symm.trans same)).1
  exact ⟨pages, by rw [replies, left, ← right], keeps_iff_faithful h own st⟩

/-- A write fails in a buffer that was never used; the next read has its page at the third
attempt. -/
theorem failed_access_harmless_retry : ∃ s : Lockstep,
    Run step (fun s a => a.WritesDone ∧ a.Keeps s.cache) (init true (fun _ _ => 0) fun _ _ => 7) s ∧
      s.replies.map Prod.fst = [⟨2, [7, 7]⟩, ⟨0, []⟩] ∧ (∀ r ∈ s.replies, r.1 = r.2) := by
  obtain ⟨s, run, replies⟩ : ∃ s : Lockstep,
      Run step (fun s a => a.WritesDone ∧ a.Keeps s.cache)
        (init true (fun _ _ => 0) fun _ _ => 7) s ∧
        s.replies.map Prod.fst = [⟨2, [7, 7]⟩, ⟨0, []⟩] := by
    refine execIf_observe [.call (.write 5 4 [9]) fun _ => .broken fun _ => 3,
      .call (.read 5 3 2) fun i => if i = 2 then .done else .refused] _ _ ?_
    decide +kernel
  exact ⟨s, run, replies, (failed_access_harmless run).1⟩

/-- After a failed read of a page the next one returns the bytes that the transfer left behind;
after a failed write it is a read of the page that the buffer had before. -/
theorem failed_load_returned :
    (∃ s : Lockstep, Run step (fun _ a => a.WritesDone) (init true (fun _ _ => 0) fun _ _ => 7) s ∧
      s.replies.take 2 = [(⟨1, [3]⟩, ⟨1, [7]⟩), (⟨0, []⟩, ⟨0, []⟩)]) ∧
    ∃ s : Lockstep,
      Run step (fun _ a => a.WritesDone) (init true (fun _ _ => 0) fun page _ => page.toUInt8) s ∧
        s.replies.take 2 = [(⟨1, [77]⟩, ⟨1, [1]⟩), (⟨0, []⟩, ⟨0, []⟩)] := by
  refine ⟨?_, ?_⟩
  · refine execIf_observe
      [.call (.read 5 0 1) fun _ => .broken fun _ => 3, .call (.read 5 0 1) fun _ => .done] _ _ ?_
    decide +kernel
  · refine execIf_observe
      (fillPool ++ [.call (.write 100 0 [9]) fun _ => .broken fun _ => 77,
        .call (.read 1 1 1) fun _ => .done]) _ _ ?_
    decide +kernel

end Lockstep

end PageCache
