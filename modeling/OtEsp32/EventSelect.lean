import Mathlib.Logic.Function.Basic
import OtEsp32.VfsEvent
import OtEsp32.Lib.Lts

/-!
# EventSelect

The event device under one selecting task and any number of writer tasks. Each step below is what
one task does without another coming between:

* the selecting task takes the lock, stores its semaphore, looks at the counter, gives the lock
  back and sleeps; it wakes, runs `event_end_select` without the lock, and may then read;
* a writer increments under the lock (`incr`), looks at the semaphore without it (`test`), and
  calls `esp_vfs_select_triggered` with the semaphore that is there by then (`trigger`).

`eventStartSelect_steps` and `eventWrite_steps` say that the steps put together are the functions.
`SelInv` is the invariant of every reachable state. From it: no wake-up is lost between the
counter and the sleep, and the semaphore a writer signals is live exactly when a select is running
as it calls.
-/

namespace OtEsp32

open Lts

/-- Where the selecting task is; `sem` is the semaphore of its select. -/
inductive SelPc where
  | idle
  | locked (sem : SelectSem)
  | stored (sem : SelectSem)
  | checked (sem : SelectSem)
  | asleep (sem : SelectSem)
  | awake (sem : SelectSem)
  deriving DecidableEq, Repr

/-- Where a writer task is in `event_write`. -/
inductive WriterPc where
  | idle
  | incremented
  | tested
  deriving DecidableEq, Repr

/-- Each select has a semaphore of its own; `nextSem` is the next one. -/
structure SelSys where
  dev : EventDev
  lockFree : Bool
  main : SelPc
  nextSem : Nat
  writers : Nat → WriterPc

/-- After `platformVfsEventInit`: the device is open and no select has started. -/
def SelSys.init : SelSys :=
  { dev := (eventOpen otEventVfsShortPath .init).2
    lockFree := true
    main := .idle
    nextSem := 0
    writers := fun _ => .idle }

inductive SelAct where
  | startLock (isSemLocal : Bool)
  | startStore
  | startCheck
  | startUnlock
  | wake
  | endSelect
  | read
  | incr (t : Nat)
  | test (t : Nat)
  | trigger (t : Nat)
  deriving DecidableEq, Repr

def SelSys.setWriter (s : SelSys) (t : Nat) (pc : WriterPc) : SelSys :=
  { s with writers := Function.update s.writers t pc }

@[simp] theorem setWriter_dev (s : SelSys) (t : Nat) (pc : WriterPc) :
    (s.setWriter t pc).dev = s.dev := rfl

@[simp] theorem setWriter_main (s : SelSys) (t : Nat) (pc : WriterPc) :
    (s.setWriter t pc).main = s.main := rfl

def SelSys.step (s : SelSys) : SelAct → Option SelSys
  | .startLock isSemLocal =>
    if s.main = .idle ∧ s.lockFree then
      some { s with
        lockFree := false
        main := .locked ⟨isSemLocal, some s.nextSem⟩
        nextSem := s.nextSem + 1 }
    else none
  | .startStore =>
    match s.main with
    | .locked sem =>
      some { s with main := .stored sem, dev := { s.dev with sSignalSemaphore := sem } }
    | _ => none
  | .startCheck =>
    match s.main with
    | .stored sem =>
      if s.dev.sEvent.mCounter > 0 then
        some { s with
          main := .checked sem, dev := espVfsSelectTriggered s.dev.sSignalSemaphore s.dev }
      else some { s with main := .checked sem }
    | _ => none
  | .startUnlock =>
    match s.main with
    | .checked sem => some { s with main := .asleep sem, lockFree := true }
    | _ => none
  | .wake =>
    match s.main with
    | .asleep sem => some { s with main := .awake sem }
    | _ => none
  | .endSelect =>
    match s.main with
    | .awake _ => some { s with main := .idle, dev := eventEndSelect s.dev }
    | _ => none
  | .read =>
    if s.main = .idle ∧ s.lockFree then
      some { s with dev := (eventRead s.dev.sEvent.mFd s.dev).2 }
    else none
  | .incr t =>
    if s.writers t = .idle ∧ s.lockFree then
      some { s.setWriter t .incremented with dev := s.dev.increment }
    else none
  | .test t =>
    if s.writers t = .incremented then
      if s.dev.sSignalSemaphore.sem.isSome then some (s.setWriter t .tested)
      else some (s.setWriter t .idle)
    else none
  | .trigger t =>
    if s.writers t = .tested then
      some { s.setWriter t .idle with dev := espVfsSelectTriggered s.dev.sSignalSemaphore s.dev }
    else none

/-- What each step does, where it is enabled. -/
inductive SelSys.Moves (s : SelSys) : SelAct → SelSys → Prop where
  | startLock (isSemLocal : Bool) (hm : s.main = .idle) (hl : s.lockFree = true) :
      Moves s (.startLock isSemLocal) { s with
        lockFree := false
        main := .locked ⟨isSemLocal, some s.nextSem⟩
        nextSem := s.nextSem + 1 }
  | startStore (sem : SelectSem) (hm : s.main = .locked sem) :
      Moves s .startStore { s with
        main := .stored sem, dev := { s.dev with sSignalSemaphore := sem } }
  | startSignal (sem : SelectSem) (hm : s.main = .stored sem) (hc : s.dev.sEvent.mCounter > 0) :
      Moves s .startCheck { s with
        main := .checked sem, dev := espVfsSelectTriggered s.dev.sSignalSemaphore s.dev }
  | startZero (sem : SelectSem) (hm : s.main = .stored sem) (hc : ¬ s.dev.sEvent.mCounter > 0) :
      Moves s .startCheck { s with main := .checked sem }
  | startUnlock (sem : SelectSem) (hm : s.main = .checked sem) :
      Moves s .startUnlock { s with main := .asleep sem, lockFree := true }
  | wake (sem : SelectSem) (hm : s.main = .asleep sem) :
      Moves s .wake { s with main := .awake sem }
  | endSelect (sem : SelectSem) (hm : s.main = .awake sem) :
      Moves s .endSelect { s with main := .idle, dev := eventEndSelect s.dev }
  | read (hm : s.main = .idle) (hl : s.lockFree = true) :
      Moves s .read { s with dev := (eventRead s.dev.sEvent.mFd s.dev).2 }
  | incr (t : Nat) (hw : s.writers t = .idle) (hl : s.lockFree = true) :
      Moves s (.incr t) { s.setWriter t .incremented with dev := s.dev.increment }
  | testSome (t : Nat) (hw : s.writers t = .incremented)
      (hs : s.dev.sSignalSemaphore.sem.isSome = true) : Moves s (.test t) (s.setWriter t .tested)
  | testNull (t : Nat) (hw : s.writers t = .incremented)
      (hs : ¬ s.dev.sSignalSemaphore.sem.isSome = true) : Moves s (.test t) (s.setWriter t .idle)
  | trigger (t : Nat) (hw : s.writers t = .tested) :
      Moves s (.trigger t) { s.setWriter t .idle with
        dev := espVfsSelectTriggered s.dev.sSignalSemaphore s.dev }

theorem step_moves {s s' : SelSys} {a : SelAct} (h : s.step a = some s') : s.Moves a s' := by
  cases a with
  | startLock isSemLocal =>
    simp only [SelSys.step] at h
    split at h
    · rename_i hm
      cases h
      exact .startLock isSemLocal hm.1 hm.2
    · cases h
  | startStore =>
    simp only [SelSys.step] at h
    split at h
    · rename_i sem hm
      cases h
      exact .startStore sem hm
    · cases h
  | startCheck =>
    simp only [SelSys.step] at h
    split at h
    · rename_i sem hm
      split at h
      · rename_i hc
        cases h
        exact .startSignal sem hm hc
      · rename_i hc
        cases h
        exact .startZero sem hm hc
    · cases h
  | startUnlock =>
    simp only [SelSys.step] at h
    split at h
    · rename_i sem hm
      cases h
      exact .startUnlock sem hm
    · cases h
  | wake =>
    simp only [SelSys.step] at h
    split at h
    · rename_i sem hm
      cases h
      exact .wake sem hm
    · cases h
  | endSelect =>
    simp only [SelSys.step] at h
    split at h
    · rename_i sem hm
      cases h
      exact .endSelect sem hm
    · cases h
  | read =>
    simp only [SelSys.step] at h
    split at h
    · rename_i hm
      cases h
      exact .read hm.1 hm.2
    · cases h
  | incr t =>
    simp only [SelSys.step] at h
    split at h
    · rename_i hw
      cases h
      exact .incr t hw.1 hw.2
    · cases h
  | test t =>
    simp only [SelSys.step] at h
    split at h
    · rename_i hw
      split at h
      · rename_i hs
        cases h
        exact .testSome t hw hs
      · rename_i hs
        cases h
        exact .testNull t hw hs
    · cases h
  | trigger t =>
    simp only [SelSys.step] at h
    split at h
    · rename_i hw
      cases h
      exact .trigger t hw
    · cases h

/-! ## The steps put together -/

theorem eventStartSelect_steps {s : SelSys} (isSemLocal : Bool) {nfds : Int} {readfds : List Int}
    (hm : s.main = .idle) (hl : s.lockFree = true) (ho : s.dev.sEvent.mIsOpen = true)
    (hn : nfds > 0) (hr : s.dev.sEvent.mFd ∈ readfds) :
    ∃ s', exec SelSys.step s [.startLock isSemLocal, .startStore, .startCheck, .startUnlock] =
        some s' ∧
      s'.dev = eventStartSelect nfds readfds ⟨isSemLocal, some s.nextSem⟩ s.dev := by
  simp only [exec, SelSys.step, hm, hl, and_self, if_true]
  by_cases hc : s.dev.sEvent.mCounter > 0
  · simp only [hc, if_true]
    refine ⟨_, rfl, ?_⟩
    simp [eventStartSelect, ho, hn, hr, hc]
  · simp only [hc, if_false]
    refine ⟨_, rfl, ?_⟩
    simp [eventStartSelect, ho, hn, hr, hc]

theorem eventWrite_steps {s : SelSys} (t : Nat) (size : UInt32) (hw : s.writers t = .idle)
    (hl : s.lockFree = true) (ho : s.dev.sEvent.mIsOpen = true) :
    ∃ s', exec SelSys.step s ([.incr t, .test t] ++
        if s.dev.sSignalSemaphore.sem.isSome then [.trigger t] else []) = some s' ∧
      s'.writers t = .idle ∧ s'.dev = (eventWrite s.dev.sEvent.mFd size s.dev).2 := by
  by_cases hs : s.dev.sSignalSemaphore.sem.isSome = true
  · simp [exec, SelSys.step, SelSys.setWriter, hw, hl, hs, eventWrite, ho]
  · simp only [Bool.not_eq_true] at hs
    simp [exec, SelSys.step, SelSys.setWriter, hw, hl, hs, eventWrite, ho]

/-! ## The invariant -/

/-- The semaphore that `event_start_select` has stored and `event_end_select` has not cleared. -/
def SelPc.current : SelPc → SelectSem
  | .idle => .null
  | .locked _ => .null
  | .stored sem => sem
  | .checked sem => sem
  | .asleep sem => sem
  | .awake sem => sem

/-- The semaphore of a select that has looked at the counter. -/
def SelPc.waiting : SelPc → Option SelectSem
  | .checked sem => some sem
  | .asleep sem => some sem
  | .awake sem => some sem
  | _ => none

/-- The semaphore passed to `event_start_select`. -/
def SelPc.passed : SelPc → Option SelectSem
  | .idle => none
  | .locked sem => some sem
  | .stored sem => some sem
  | .checked sem => some sem
  | .asleep sem => some sem
  | .awake sem => some sem

structure SelInv (s : SelSys) : Prop where
  stored : s.dev.sSignalSemaphore = s.main.current
  handle : ∀ sem, s.main.passed = some sem → sem.sem.isSome = true
  covered : ∀ sem, s.main.waiting = some sem → s.dev.sEvent.mCounter ≠ 0 →
    sem ∈ s.dev.triggered ∨ ∃ t, s.writers t ≠ .idle

theorem SelPc.current_of_waiting {pc : SelPc} {sem : SelectSem} (h : pc.waiting = some sem) :
    pc.current = sem := by
  cases pc <;> cases h <;> rfl

theorem SelPc.passed_of_waiting {pc : SelPc} {sem : SelectSem} (h : pc.waiting = some sem) :
    pc.passed = some sem := by
  cases pc <;> cases h <;> rfl

theorem init_selInv : SelInv .init where
  stored := rfl
  handle _ h := by cases h
  covered _ h := by cases h

/-- A writer that is not yet done keeps a waiting select covered. -/
theorem setWriter_busy (s : SelSys) (t : Nat) {pc : WriterPc} (h : pc ≠ .idle) :
    ∃ u, (s.setWriter t pc).writers u ≠ .idle :=
  ⟨t, by simpa [SelSys.setWriter] using h⟩

theorem step_selInv {s s' : SelSys} {a : SelAct} (hi : SelInv s) (h : s.step a = some s') :
    SelInv s' := by
  obtain ⟨hs, hh, hc⟩ := hi
  cases step_moves h with
  | startLock isSemLocal hm hl =>
    rw [hm] at hs
    exact ⟨hs, fun sem he => (by cases he; rfl), fun sem he => (by cases he)⟩
  | startStore sem hm =>
    rw [hm] at hh
    exact ⟨rfl, hh, fun sem he => (by cases he)⟩
  | startSignal sem hm hpos =>
    rw [hm] at hs hh
    refine ⟨hs, hh, ?_⟩
    intro sem' he _
    cases he
    left
    simp [hs, SelPc.current]
  | startZero sem hm hz =>
    rw [hm] at hs hh
    refine ⟨hs, hh, ?_⟩
    intro sem' _ hne
    exact absurd (UInt8.pos_iff_ne_zero.mpr hne) hz
  | startUnlock sem hm =>
    rw [hm] at hs hh hc
    exact ⟨hs, hh, hc⟩
  | wake sem hm =>
    rw [hm] at hs hh hc
    exact ⟨hs, hh, hc⟩
  | endSelect sem hm =>
    exact ⟨rfl, fun sem he => (by cases he), fun sem he => (by cases he)⟩
  | read hm hl =>
    refine ⟨?_, hh, ?_⟩
    · simp only [eventRead]
      split <;> exact hs
    · intro sem he
      rw [hm] at he
      cases he
  | incr t hw hl =>
    refine ⟨hs, hh, ?_⟩
    intro sem _ _
    right
    exact setWriter_busy s t (by decide)
  | testSome t hw hsome =>
    refine ⟨hs, hh, ?_⟩
    intro sem _ _
    right
    exact setWriter_busy s t (by decide)
  | testNull t hw hnone =>
    refine ⟨hs, hh, ?_⟩
    -- no semaphore is stored, so no select is waiting
    intro sem he
    exfalso
    apply hnone
    have hwait : s.main.waiting = some sem := he
    rw [hs, SelPc.current_of_waiting hwait]
    exact hh sem (SelPc.passed_of_waiting hwait)
  | trigger t hw =>
    refine ⟨hs, hh, ?_⟩
    intro sem he _
    left
    have hwait : s.main.waiting = some sem := he
    rw [triggered_triggered, hs, SelPc.current_of_waiting hwait]
    exact List.mem_cons_self

theorem run_selInv {as : List SelAct} {s : SelSys} (h : exec SelSys.step .init as = some s) :
    SelInv s :=
  exec_inv' SelInv init_selInv (fun _ _ _ => step_selInv) h

/-- The device stays open, and only a write and a read change its counter. -/
theorem SelSys.step_counter {s s' : SelSys} {a : SelAct} (ho : s.dev.sEvent.mIsOpen = true)
    (h : s.step a = some s') :
    s'.dev.sEvent.mIsOpen = true ∧
      s'.dev.sEvent.mCounter =
        match a with
        | .incr _ => s.dev.sEvent.mCounter + 1
        | .read => 0
        | _ => s.dev.sEvent.mCounter := by
  cases step_moves h with
  | incr t hw hl => exact ⟨ho, rfl⟩
  | read hm hl => simp [eventRead, ho]
  | _ => exact ⟨ho, rfl⟩

/-! ## The lock -/

/-- The steps that `event_start_select` has still to do under the lock. -/
def SelPc.underLock : SelPc → Nat
  | .locked _ => 3
  | .stored _ => 2
  | .checked _ => 1
  | _ => 0

/-- The lock is taken only by `event_start_select`, and the device is open. -/
structure LockHeld (s : SelSys) : Prop where
  held : s.lockFree = true ↔ s.main.underLock = 0
  isOpen : s.dev.sEvent.mIsOpen = true

theorem step_lockHeld {s s' : SelSys} {a : SelAct} (hi : LockHeld s) (h : s.step a = some s') :
    LockHeld s' := by
  refine ⟨?_, (SelSys.step_counter hi.isOpen h).1⟩
  have hh := hi.held
  cases step_moves h with
  | startLock isSemLocal hm hl => simp [SelPc.underLock]
  | startStore sem hm => simpa [hm, SelPc.underLock] using hh
  | startSignal sem hm hc => simpa [hm, SelPc.underLock] using hh
  | startZero sem hm hc => simpa [hm, SelPc.underLock] using hh
  | startUnlock sem hm => simp [SelPc.underLock]
  | wake sem hm => simpa [hm, SelPc.underLock] using hh
  | endSelect sem hm => simpa [hm, SelPc.underLock] using hh
  | _ => exact hh

theorem run_lockHeld {as : List SelAct} {s : SelSys} (h : exec SelSys.step .init as = some s) :
    LockHeld s :=
  exec_inv' LockHeld ⟨by decide, rfl⟩ (fun _ _ _ => step_lockHeld) h

/-! ## No wake-up is lost -/

/-- In every reachable state in which the selecting task is asleep and the counter is not 0, its
semaphore is signalled or a writer is between its increment and the end of its signalling. -/
theorem asleep_covered (as : List SelAct) (s : SelSys) (h : exec SelSys.step .init as = some s)
    (sem : SelectSem) (ha : s.main = .asleep sem) (hc : s.dev.sEvent.mCounter ≠ 0) :
    sem ∈ s.dev.triggered ∨ ∃ t, s.writers t = .incremented ∨ s.writers t = .tested := by
  have hw : s.main.waiting = some sem := by rw [ha]; rfl
  rcases (run_selInv h).covered sem hw hc with hsig | ⟨t, ht⟩
  · exact .inl hsig
  · right
    refine ⟨t, ?_⟩
    cases hp : s.writers t with
    | idle => exact absurd hp ht
    | incremented => exact .inl rfl
    | tested => exact .inr rfl

/-- A writer increments while the selecting task is asleep. -/
def sleepRun : List SelAct :=
  [.startLock true, .startStore, .startCheck, .startUnlock, .incr 0]

theorem asleep_covered_incremented :
    ∃ s sem, exec SelSys.step .init sleepRun = some s ∧ s.main = .asleep sem ∧
      (sem ∈ s.dev.triggered ∨ ∃ t, s.writers t = .incremented ∨ s.writers t = .tested) := by
  refine ⟨_, ⟨true, some 0⟩, rfl, rfl, ?_⟩
  exact asleep_covered sleepRun _ rfl ⟨true, some 0⟩ rfl (by decide)

/-! ## Which semaphore is signalled -/

/-- The argument of `esp_vfs_select_triggered` in the steps that call it. -/
def SelSys.signals (s : SelSys) : SelAct → Option SelectSem
  | .startCheck =>
    match s.main with
    | .stored _ => if s.dev.sEvent.mCounter > 0 then some s.dev.sSignalSemaphore else none
    | _ => none
  | .trigger t => if s.writers t = .tested then some s.dev.sSignalSemaphore else none
  | _ => none

/-- What the step signals is the semaphore, not `NULL`, of a select that has not ended. -/
def SignalsLive (s : SelSys) (a : SelAct) : Prop :=
  ∀ sem, s.signals a = some sem → sem.sem.isSome = true ∧ s.main.current = sem

/-- By the order of the steps alone: a select has stored its semaphore and not yet ended. -/
def selecting (as : List SelAct) : Bool :=
  as.foldl (fun b a =>
    match a with
    | .startStore => true
    | .endSelect => false
    | _ => b) false

theorem selecting_concat (as : List SelAct) (a : SelAct) :
    selecting (as ++ [a]) =
      match a with
      | .startStore => true
      | .endSelect => false
      | _ => selecting as := by
  simp only [selecting, List.foldl_append, List.foldl_cons, List.foldl_nil]

/-- Only the store and `event_end_select` change which select is running. -/
theorem step_current {s s' : SelSys} {a : SelAct} (hi : SelInv s) (h : s.step a = some s') :
    s'.main.current.sem.isSome =
      match a with
      | .startStore => true
      | .endSelect => false
      | _ => s.main.current.sem.isSome := by
  cases step_moves h with
  | startStore sem hm => exact hi.handle sem (by rw [hm]; rfl)
  | startLock isSemLocal hm hl => rw [hm]; rfl
  | startSignal sem hm hc => rw [hm]; rfl
  | startZero sem hm hc => rw [hm]; rfl
  | startUnlock sem hm => rw [hm]; rfl
  | wake sem hm => rw [hm]; rfl
  | _ => rfl

/-- In every run, each step that signals a semaphore signals a live one, if and only if each
writer that has seen a semaphore calls `esp_vfs_select_triggered` while some select has stored its
semaphore and not yet ended. -/
theorem signals_live_iff (as : List SelAct) :
    AtSteps SelSys.step .init as (fun _ s a => SignalsLive s a) ↔
      AtSteps SelSys.step .init as (fun pre s a =>
        ∀ t, a = .trigger t → s.writers t = .tested → selecting pre = true) := by
  apply atSteps_congr
    (fun pre s => SelInv s ∧ selecting pre = s.main.current.sem.isSome) ⟨init_selInv, rfl⟩
  · intro pre s a s' hi h
    refine ⟨step_selInv hi.1 h, ?_⟩
    rw [selecting_concat, step_current hi.1 h, hi.2]
    cases a <;> rfl
  · intro pre s a hi
    obtain ⟨hinv, hsel⟩ := hi
    rw [hsel]
    constructor
    · intro hl t ha ht
      subst ha
      have := (hl s.dev.sSignalSemaphore (by simp [SelSys.signals, ht])).1
      rw [← hinv.stored]
      exact this
    · intro ht sem hsig
      cases a with
      | startCheck =>
        simp only [SelSys.signals] at hsig
        split at hsig
        · rename_i sem' hm
          split at hsig
          · cases hsig
            refine ⟨?_, hinv.stored.symm⟩
            rw [hinv.stored, hm]
            exact hinv.handle sem' (by rw [hm]; rfl)
          · cases hsig
        · cases hsig
      | trigger t =>
        simp only [SelSys.signals] at hsig
        split at hsig
        · rename_i htest
          cases hsig
          refine ⟨?_, hinv.stored.symm⟩
          rw [hinv.stored]
          exact ht t rfl htest
        · cases hsig
      | startLock _ => cases hsig
      | startStore => cases hsig
      | startUnlock => cases hsig
      | wake => cases hsig
      | endSelect => cases hsig
      | read => cases hsig
      | incr _ => cases hsig
      | test _ => cases hsig

/-- The select ends between the writer's look at the semaphore and its call. -/
def staleRun : List SelAct :=
  [.startLock true, .startStore, .startCheck, .startUnlock, .incr 0, .test 0, .wake, .endSelect,
    .trigger 0]

theorem signals_null :
    ¬ ∀ as : List SelAct, AtSteps SelSys.step .init as (fun _ s a => SignalsLive s a) := by
  intro h
  have hlive := h staleRun (staleRun.take 8) (.trigger 0) [] _ rfl rfl
  exact absurd (hlive .null rfl).1 (by decide)

end OtEsp32
