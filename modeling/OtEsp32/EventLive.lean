import Mathlib.Algebra.Ring.Int.Defs
import OtEsp32.EventLinear

/-!
# EventLive

What the event device of `EventSelect` gives its tasks.

* `reads_account`: what the reads return and what is still counted make up the writes, but for those
  lost where the counter ran over.
* `asleep_wakes`: a select that sleeps on a counter that is not 0 is woken by steps that are under
  way.
* `eventWrite_completes`: no writer has to wait for a task that may not come.
-/

namespace OtEsp32

open Lts

variable {s s' : SelSys} {a : SelAct}

/-! ## The account of the writes -/

def SelAct.isIncr : SelAct → Bool
  | .incr _ => true
  | _ => false

/-- The increments since the last `event_read`. -/
def writesSinceRead (as : List SelAct) : Nat :=
  as.foldl (fun n a =>
    match a with
    | .incr _ => n + 1
    | .read => 0
    | _ => n) 0

theorem writesSinceRead_concat (as : List SelAct) (a : SelAct) :
    writesSinceRead (as ++ [a]) =
      match a with
      | .incr _ => writesSinceRead as + 1
      | .read => 0
      | _ => writesSinceRead as := by
  simp only [writesSinceRead, List.foldl_append, List.foldl_cons, List.foldl_nil]

/-- The counter keeps the increments in 8 bits, so every 256 that come without a read are lost. -/
structure Account (as : List SelAct) (s : SelSys) (lost : Nat) : Prop where
  isOpen : s.dev.sEvent.mIsOpen = true
  counter : s.dev.sEvent.mCounter.toNat = writesSinceRead as % 256
  total : (trace SelSys.step SelSys.returned .init as).sum + s.dev.sEvent.mCounter.toNat +
    256 * lost = as.countP SelAct.isIncr
  lost_iff : lost = 0 ↔ ∀ pre, pre <+: as → writesSinceRead pre < 256

theorem forall_prefix_concat {P : List SelAct → Prop} {as : List SelAct} :
    (∀ pre, pre <+: as ++ [a] → P pre) ↔ (∀ pre, pre <+: as → P pre) ∧ P (as ++ [a]) := by
  simp only [List.prefix_concat_iff]
  constructor
  · intro h
    exact ⟨fun pre hp => h pre (.inr hp), h _ (.inl rfl)⟩
  · rintro ⟨h, hl⟩ pre (rfl | hp)
    · exact hl
    · exact h pre hp

theorem Account.self {as : List SelAct} {lost : Nat} (hi : Account as s lost) (h0 : lost = 0) :
    writesSinceRead as < 256 :=
  hi.lost_iff.mp h0 as List.prefix_rfl

theorem Account.step {as : List SelAct} {lost : Nat} (hi : Account as s lost)
    (he : exec SelSys.step .init as = some s) (h : s.step a = some s') :
    ∃ lost', Account (as ++ [a]) s' lost' := by
  have hself := hi.self
  obtain ⟨ho, hc, ht, hlost⟩ := hi
  obtain ⟨ho', hc'⟩ := SelSys.step_counter ho h
  have htrace : trace SelSys.step SelSys.returned .init (as ++ [a]) =
      trace SelSys.step SelSys.returned .init as ++ s.returned a := trace_concat he
  cases a with
  | incr u =>
    have hone : (1 : UInt8).toNat = 1 := rfl
    have hnext : s'.dev.sEvent.mCounter.toNat = (s.dev.sEvent.mCounter.toNat + 1) % 256 := by
      rw [hc', UInt8.toNat_add, hone]
    -- the increment of 255 loses the 255 and itself
    refine ⟨lost + (s.dev.sEvent.mCounter.toNat + 1) / 256, ho', ?_, ?_, ?_⟩
    · rw [hnext, writesSinceRead_concat]
      simp only
      omega
    · rw [htrace, hnext, List.countP_append]
      simp only [SelSys.returned, List.append_nil, List.countP_cons, List.countP_nil,
        SelAct.isIncr, if_true]
      omega
    · rw [forall_prefix_concat, ← hlost, writesSinceRead_concat]
      simp only
      omega
  | read =>
    refine ⟨lost, ho', ?_, ?_, ?_⟩
    · rw [hc', writesSinceRead_concat]
      rfl
    · rw [htrace, hc', List.countP_append]
      simp only [SelSys.returned, eventRead_open ho, List.sum_append, List.sum_cons, List.sum_nil,
        List.countP_cons, List.countP_nil, SelAct.isIncr, Bool.false_eq_true, if_false]
      have hzero : (0 : UInt8).toNat = 0 := rfl
      omega
    · rw [forall_prefix_concat, ← hlost, writesSinceRead_concat]
      exact ⟨fun h0 => ⟨h0, Nat.zero_lt_succ 255⟩, And.left⟩
  | _ =>
    refine ⟨lost, ho', ?_, ?_, ?_⟩
    · rw [hc', writesSinceRead_concat]
      exact hc
    · rw [htrace, hc', List.countP_append]
      simp only [SelSys.returned, List.append_nil, List.countP_cons, List.countP_nil, SelAct.isIncr,
        Bool.false_eq_true, if_false]
      exact ht
    · rw [forall_prefix_concat, ← hlost, writesSinceRead_concat]
      exact ⟨fun h0 => ⟨h0, hself h0⟩, And.left⟩

/-- For every interleaving: what the reads returned and what is still counted make up the writes,
but for 256 each time the counter ran over, which happens exactly when 256 writes come without a
read. -/
theorem reads_account (as : List SelAct) (s : SelSys) (h : exec SelSys.step .init as = some s) :
    ∃ lost : Nat,
      (trace SelSys.step SelSys.returned .init as).sum + s.dev.sEvent.mCounter.toNat + 256 * lost =
        as.countP SelAct.isIncr ∧
      (lost = 0 ↔ ∀ pre, pre <+: as → writesSinceRead pre < 256) := by
  have hrun : ∃ lost, Account as s lost := by
    induction as using List.reverseRecOn generalizing s with
    | nil =>
      cases h
      refine ⟨0, rfl, rfl, rfl, ?_⟩
      simp [writesSinceRead]
    | append_singleton as a ih =>
      obtain ⟨s1, h1, hs⟩ := exec_concat.mp h
      obtain ⟨lost, hi⟩ := ih s1 h1
      exact hi.step h1 hs
  obtain ⟨lost, hi⟩ := hrun
  exact ⟨lost, hi.total, hi.lost_iff⟩

/-- Two writes, read, and one more. -/
def accountRun : List SelAct := [.incr 0, .incr 1, .read, .test 0, .incr 2]

theorem reads_account_run :
    ∃ s, exec SelSys.step .init accountRun = some s ∧ ∃ lost : Nat,
      (trace SelSys.step SelSys.returned .init accountRun).sum + s.dev.sEvent.mCounter.toNat +
        256 * lost = accountRun.countP SelAct.isIncr ∧
      (lost = 0 ↔ ∀ pre, pre <+: accountRun → writesSinceRead pre < 256) :=
  ⟨_, rfl, reads_account accountRun _ rfl⟩

/-! ## What a task can finish without the others -/

/-- The steps of `event_write` in the task `u`. -/
def SelAct.OfWriter (u : Nat) (a : SelAct) : Prop := a = .incr u ∨ a = .test u ∨ a = .trigger u

/-- The rest of an `event_start_select` that has the lock. -/
def SelAct.OfStart (a : SelAct) : Prop := a = .startStore ∨ a = .startCheck ∨ a = .startUnlock

/-- A task that has incremented gets through `event_write` by its own steps, without the lock, and
signals the semaphore that is stored. -/
theorem busy_finishes {u : Nat} (hw : s.writers u ≠ .idle) :
    ∃ bs s', bs.length ≤ 2 ∧ (∀ b ∈ bs, b = .test u ∨ b = .trigger u) ∧
      exec SelSys.step s bs = some s' ∧ s'.writers u = .idle ∧ s'.main = s.main ∧
      (s.dev.sSignalSemaphore.sem.isSome = true →
        s.dev.sSignalSemaphore ∈ s'.dev.triggered) := by
  cases hp : s.writers u with
  | idle => exact absurd hp hw
  | incremented =>
    by_cases hs : s.dev.sSignalSemaphore.sem.isSome = true
    · refine ⟨[.test u, .trigger u], { s.setWriter u .tested |>.setWriter u .idle with
        dev := espVfsSelectTriggered s.dev.sSignalSemaphore s.dev }, Nat.le_refl _, ?_, ?_, ?_, rfl,
        fun _ => List.mem_cons_self⟩
      · simp
      · simp [exec, SelSys.step, SelSys.setWriter, hp, hs]
      · simp [SelSys.setWriter]
    · refine ⟨[.test u], s.setWriter u .idle, Nat.le_succ 1, ?_, ?_, ?_, rfl,
        fun h => absurd h hs⟩
      · simp
      · simp only [exec, SelSys.step, if_pos hp, if_neg hs]
      · simp [SelSys.setWriter]
  | tested =>
    refine ⟨[.trigger u], { s.setWriter u .idle with
      dev := espVfsSelectTriggered s.dev.sSignalSemaphore s.dev }, Nat.le_succ 1, ?_, ?_, ?_, rfl,
      fun _ => List.mem_cons_self⟩
    · simp
    · simp only [exec, SelSys.step, if_pos hp]
    · simp [SelSys.setWriter]

/-- For every interleaving: a select that sleeps on a counter that is not 0 is signalled, or one
writer signals it by at most two steps of its own, with no step of another task; the signalled
select then wakes. -/
theorem asleep_wakes (as : List SelAct) (s : SelSys) (h : exec SelSys.step .init as = some s)
    (sem : SelectSem) (ha : s.main = .asleep sem) (hc : s.dev.sEvent.mCounter ≠ 0) :
    ∃ u bs s' s'', bs.length ≤ 2 ∧ (∀ b ∈ bs, SelAct.OfWriter u b) ∧
      exec SelSys.step s bs = some s' ∧ s'.main = .asleep sem ∧ sem ∈ s'.dev.triggered ∧
      s'.step .wake = some s'' ∧ s''.main = .awake sem := by
  have hwake : ∀ {s' : SelSys}, s'.main = .asleep sem →
      ∃ s'', s'.step .wake = some s'' ∧ s''.main = .awake sem := by
    intro s' hm
    exact ⟨{ s' with main := .awake sem }, by simp only [SelSys.step, hm], rfl⟩
  have hi := run_selInv h
  rcases hi.covered sem (by rw [ha]; rfl) hc with hsig | ⟨u, hu⟩
  · obtain ⟨s'', hs, hm⟩ := hwake ha
    exact ⟨0, [], s, s'', by decide, by simp, rfl, ha, hsig, hs, hm⟩
  · have hstored : s.dev.sSignalSemaphore = sem := by rw [hi.stored, ha]; rfl
    have hsome : sem.sem.isSome = true := hi.handle sem (by rw [ha]; rfl)
    obtain ⟨bs, s', hlen, hall, he, -, hm, hsig⟩ := busy_finishes hu
    rw [hstored] at hsig
    have ha' : s'.main = .asleep sem := hm.trans ha
    obtain ⟨s'', hs, hm'⟩ := hwake ha'
    exact ⟨u, bs, s', s'', hlen, fun b hb => .inr (hall b hb), he, ha', hsig hsome, hs, hm'⟩

theorem asleep_wakes_incremented :
    ∃ s sem, exec SelSys.step .init sleepRun = some s ∧ s.main = .asleep sem ∧
      sem ∉ s.dev.triggered ∧
      ∃ u bs s' s'', bs.length ≤ 2 ∧ (∀ b ∈ bs, SelAct.OfWriter u b) ∧
        exec SelSys.step s bs = some s' ∧ s'.main = .asleep sem ∧ sem ∈ s'.dev.triggered ∧
        s'.step .wake = some s'' ∧ s''.main = .awake sem := by
  refine ⟨_, ⟨true, some 0⟩, rfl, rfl, by decide, ?_⟩
  exact asleep_wakes sleepRun _ rfl ⟨true, some 0⟩ rfl (by decide)

/-- `event_start_select` goes on whenever it has the lock, and no writer moves. -/
theorem start_goes_on (hi : LockHeld s) (hl : ¬ s.lockFree = true) :
    ∃ a s', SelAct.OfStart a ∧ s.step a = some s' ∧ (LockHeld s' ∧ s'.writers = s.writers) ∧
      s'.main.underLock < s.main.underLock := by
  have hu := mt hi.held.mpr hl
  cases hm : s.main with
  | locked sem =>
    have hs : s.step .startStore = some { s with
        main := .stored sem, dev := { s.dev with sSignalSemaphore := sem } } := by
      simp only [SelSys.step, hm]
    exact ⟨_, _, .inl rfl, hs, ⟨step_lockHeld hi hs, rfl⟩, Nat.lt_succ_self 2⟩
  | stored sem =>
    obtain ⟨s', hs, hw, hm'⟩ : ∃ s', s.step .startCheck = some s' ∧ s'.writers = s.writers ∧
        s'.main = .checked sem := by
      simp only [SelSys.step, hm]
      split
      · exact ⟨_, rfl, rfl, rfl⟩
      · exact ⟨_, rfl, rfl, rfl⟩
    refine ⟨_, s', .inr (.inl rfl), hs, ⟨step_lockHeld hi hs, hw⟩, ?_⟩
    rw [hm']
    exact Nat.lt_succ_self 1
  | checked sem =>
    have hs : s.step .startUnlock = some { s with main := .asleep sem, lockFree := true } := by
      simp only [SelSys.step, hm]
    exact ⟨_, _, .inr (.inr rfl), hs, ⟨step_lockHeld hi hs, rfl⟩, Nat.zero_lt_succ 0⟩
  | idle => exact absurd (by rw [hm]; rfl) hu
  | asleep sem => exact absurd (by rw [hm]; rfl) hu
  | awake sem => exact absurd (by rw [hm]; rfl) hu

theorem ofWriter_of_mem {u : Nat} {signals : Bool}
    (h : a ∈ [.incr u, .test u] ++ if signals then [.trigger u] else []) : SelAct.OfWriter u a := by
  cases signals with
  | true => simpa [SelAct.OfWriter] using h
  | false =>
    have h : a = .incr u ∨ a = .test u := by simpa using h
    rcases h with rfl | rfl
    · exact .inl rfl
    · exact .inr (.inl rfl)

theorem underLock_le (pc : SelPc) : pc.underLock ≤ 3 := by
  cases pc <;> simp [SelPc.underLock]

/-- A task that is not in `event_write` gets through it, once it has the lock. -/
theorem idle_writes (hi : LockHeld s) {u : Nat} (hw : s.writers u = .idle) :
    ∃ bs s', bs.length ≤ 6 ∧ (∀ b ∈ bs, SelAct.OfStart b ∨ SelAct.OfWriter u b) ∧ .incr u ∈ bs ∧
      exec SelSys.step s bs = some s' ∧ s'.writers u = .idle := by
  have hfree := reaches (fun s1 => LockHeld s1 ∧ s1.writers = s.writers)
    (fun s1 => s1.lockFree = true) SelAct.OfStart (fun s => s.main.underLock) (by
      rintro s1 ⟨hi, hw1⟩ hl
      obtain ⟨a, s2, ha, hs, ⟨hi2, hw2⟩, hlt⟩ := start_goes_on hi hl
      exact ⟨a, s2, ha, hs, ⟨hi2, hw2.trans hw1⟩, hlt⟩)
    ⟨hi, rfl⟩
  obtain ⟨bs, s1, he, hl, ⟨hi, hw1⟩, hlen, hall⟩ := hfree
  have hlen : bs.length ≤ 3 := Nat.le_trans hlen (underLock_le _)
  have hidle : s1.writers u = .idle := by rw [hw1]; exact hw
  obtain ⟨s2, he2, hdone, -⟩ := eventWrite_steps u 0 hidle hl hi.isOpen
  refine ⟨bs ++ ([.incr u, .test u] ++
    if s1.dev.sSignalSemaphore.sem.isSome then [.trigger u] else []), s2, ?_, ?_, ?_, ?_, hdone⟩
  · simp only [List.length_append, List.length_cons, List.length_nil]
    split <;> simp only [List.length_cons, List.length_nil] <;> omega
  · intro b hb
    rcases List.mem_append.mp hb with hb | hb
    · exact .inl (hall b hb)
    · exact .inr (ofWriter_of_mem hb)
  · simp
  · rw [exec_append he]
    exact he2

/-- For every interleaving and every task, wherever it is in `event_write`: one that has not begun
gets through it by its own steps after at most the rest of one `event_start_select`, and one that
has begun by at most two steps of its own. -/
theorem eventWrite_completes (as : List SelAct) (s : SelSys)
    (h : exec SelSys.step .init as = some s) (u : Nat) :
    ∃ bs s', bs.length ≤ 6 ∧ (∀ b ∈ bs, SelAct.OfStart b ∨ SelAct.OfWriter u b) ∧
      (.incr u ∈ bs ↔ s.writers u = .idle) ∧
      (s.writers u ≠ .idle → bs.length ≤ 2 ∧ ∀ b ∈ bs, SelAct.OfWriter u b) ∧
      exec SelSys.step s bs = some s' ∧ s'.writers u = .idle := by
  by_cases hw : s.writers u = .idle
  · obtain ⟨bs, s', hlen, hall, hincr, he, hdone⟩ := idle_writes (run_lockHeld h) hw
    exact ⟨bs, s', hlen, hall, iff_of_true hincr hw, absurd hw, he, hdone⟩
  · obtain ⟨bs, s', hlen, hall, he, hdone, -⟩ := busy_finishes hw
    have hown : ∀ b ∈ bs, SelAct.OfWriter u b := fun b hb => .inr (hall b hb)
    refine ⟨bs, s', by omega, fun b hb => .inr (hown b hb), ?_, fun _ => ⟨hlen, hown⟩, he, hdone⟩
    refine iff_of_false (fun hmem => ?_) hw
    rcases hall _ hmem with hb | hb
    · cases hb
    · cases hb

/-- A writer that has incremented and seen the semaphore. -/
theorem eventWrite_completes_tested :
    ∃ s, exec SelSys.step .init (sleepRun ++ [.test 0]) = some s ∧ s.writers 0 = .tested ∧
      ∃ bs s', bs.length ≤ 6 ∧ (∀ b ∈ bs, SelAct.OfStart b ∨ SelAct.OfWriter 0 b) ∧
        (.incr 0 ∈ bs ↔ s.writers 0 = .idle) ∧
        (s.writers 0 ≠ .idle → bs.length ≤ 2 ∧ ∀ b ∈ bs, SelAct.OfWriter 0 b) ∧
        exec SelSys.step s bs = some s' ∧ s'.writers 0 = .idle :=
  ⟨_, rfl, rfl, eventWrite_completes (sleepRun ++ [.test 0]) _ rfl 0⟩

end OtEsp32
