import Mathlib.Data.Finset.Card
import OtEsp32.EventCounter
import OtEsp32.EventSelect
import OtEsp32.Lib.Sim

/-!
# EventLinear

The event device of `EventSelect`, where tasks come between the steps of a call, implements the
device of `EventCounter`, where calls run one after the other: each call takes effect at one of its
own steps (`SelSys.lin`), and every read returns what it returns there.

The signals are where the two differ. A writer signals after it has counted, so the signal comes
late, and where a select ends or starts meanwhile it goes to another select or to `NULL`. `Heard`
is what is left in every interleaving: a select that is signalled when the calls run one after the
other is signalled here or a writer is on its way to do so. `Owing` is the exact account where no
select starts or ends while a writer is in `event_write`: the same signals, but for one to come from
each writer that is still there.
-/

namespace OtEsp32

open Lts

variable {s s' : SelSys} {t : EventRun} {a : SelAct} {d : EventDev}

/-! ## Where a call takes effect -/

/-- A call that is not refused. -/
def EventRun.accept (s : EventRun) (c : EventCall) : Option EventRun :=
  if s.dev.accepts c then some (s.call c) else none

/-- After `platformVfsEventInit`. -/
def EventRun.opened : EventRun := EventRun.call ⟨.init, []⟩ (.eventOpen otEventVfsShortPath)

/-- The call that takes effect at a step: `event_start_select` where it stores its semaphore,
`event_write` where it increments. -/
def SelSys.lin (s : SelSys) : SelAct → List EventCall
  | .startStore =>
    match s.main with
    | .locked sem => [.eventStartSelect (s.dev.sEvent.mFd + 1) [s.dev.sEvent.mFd] sem]
    | _ => []
  | .endSelect => [.eventEndSelect]
  | .read => [.eventRead s.dev.sEvent.mFd]
  | .incr _ => [.eventWrite s.dev.sEvent.mFd 0]
  | _ => []

/-- What `event_read` returns where it runs. -/
def SelSys.returned (s : SelSys) : SelAct → List Int
  | .read => [(eventRead s.dev.sEvent.mFd s.dev).1]
  | _ => []

def EventRun.returned (t : EventRun) : EventCall → List Int
  | .eventRead fd => [(eventRead fd t.dev).1]
  | _ => []

/-- The event and the stored semaphore are those of the calls so far. -/
structure Linear (s : SelSys) (t : EventRun) : Prop where
  inv : SelInv s
  event : t.dev.sEvent = s.dev.sEvent
  semaphore : t.dev.sSignalSemaphore = s.dev.sSignalSemaphore
  fd : s.dev.sEvent.mFd = otReservedFdMin
  isOpen : s.dev.sEvent.mIsOpen = true

theorem accept_of {c : EventCall} (h : t.dev.accepts c = true) : t.accept c = some (t.call c) :=
  if_pos h

theorem eventRead_open (ho : d.sEvent.mIsOpen = true) :
    eventRead d.sEvent.mFd d =
      ((d.sEvent.mCounter.toNat : Int), { d with sEvent := { d.sEvent with mCounter := 0 } }) :=
  if_pos ⟨rfl, ho⟩

theorem eventWrite_open (size : UInt32) (ho : d.sEvent.mIsOpen = true) :
    (eventWrite d.sEvent.mFd size d).2 =
      { d.increment with
        triggered := if d.sSignalSemaphore.sem.isSome then d.sSignalSemaphore :: d.triggered
          else d.triggered } := by
  unfold eventWrite
  rw [if_pos ⟨rfl, ho⟩]
  by_cases hs : d.sSignalSemaphore.sem.isSome = true
  · simp only [increment_sSignalSemaphore, hs, if_true]
    rfl
  · simp only [increment_sSignalSemaphore, hs]
    rfl

theorem startSelect_open (signalSem : SelectSem) (hfd : d.sEvent.mFd = otReservedFdMin)
    (ho : d.sEvent.mIsOpen = true) :
    eventStartSelect (d.sEvent.mFd + 1) [d.sEvent.mFd] signalSem d =
      { d with
        sSignalSemaphore := signalSem
        triggered := if d.sEvent.mCounter > 0 then signalSem :: d.triggered
          else d.triggered } := by
  have hn : d.sEvent.mFd + 1 > 0 := by
    rw [hfd]
    decide
  unfold eventStartSelect
  simp only [ho, hn, decide_true, List.contains_cons, BEq.rfl, Bool.true_or, Bool.and_self, if_true]
  split <;> rfl

/-- The device after the calls that take effect at a step. -/
def EventDev.effect (d : EventDev) (s : SelSys) : SelAct → EventDev
  | .startStore =>
    match s.main with
    | .locked sem => { d with
        sSignalSemaphore := sem
        triggered := if d.sEvent.mCounter > 0 then sem :: d.triggered else d.triggered }
    | _ => d
  | .endSelect => eventEndSelect d
  | .read => { d with sEvent := { d.sEvent with mCounter := 0 } }
  | .incr _ => { d.increment with
      triggered := if d.sSignalSemaphore.sem.isSome then d.sSignalSemaphore :: d.triggered
        else d.triggered }
  | _ => d

/-- Where a call takes effect the device takes it. -/
theorem lin_effect (hl : Linear s t) (h : s.step a = some s') :
    ∃ t', exec EventRun.accept t (s.lin a) = some t' ∧ t'.dev = t.dev.effect s a := by
  have ho : t.dev.sEvent.mIsOpen = true := by rw [hl.event]; exact hl.isOpen
  have hfd : t.dev.sEvent.mFd = otReservedFdMin := by rw [hl.event]; exact hl.fd
  have htake : ∀ c, t.dev.accepts c = true → exec EventRun.accept t [c] = some (t.call c) :=
    fun c hc => exec_single (accept_of hc)
  cases step_moves h with
  | startStore sem hm =>
    refine ⟨t.call (.eventStartSelect (t.dev.sEvent.mFd + 1) [t.dev.sEvent.mFd] sem), ?_, ?_⟩
    · simp only [SelSys.lin, hm, ← hl.event]
      exact htake _ rfl
    · simp only [EventDev.effect, hm]
      exact startSelect_open sem hfd ho
  | endSelect sem hm => exact ⟨t.call .eventEndSelect, htake _ rfl, rfl⟩
  | read hm hlock =>
    refine ⟨t.call (.eventRead t.dev.sEvent.mFd), ?_, ?_⟩
    · simp only [SelSys.lin, ← hl.event]
      exact htake _ (by simp [EventDev.accepts, ho])
    · exact congrArg Prod.snd (eventRead_open ho)
  | incr u hw hlock =>
    refine ⟨t.call (.eventWrite t.dev.sEvent.mFd 0), ?_, eventWrite_open 0 ho⟩
    simp only [SelSys.lin, ← hl.event]
    exact htake _ (by simp [EventDev.accepts, ho])
  | _ => exact ⟨t, rfl, rfl⟩

theorem step_linear (hl : Linear s t) (h : s.step a = some s') {t' : EventRun}
    (ht : t'.dev = t.dev.effect s a) : Linear s' t' := by
  obtain ⟨hi, he, hs, hfd, ho⟩ := hl
  have hi' := step_selInv hi h
  cases step_moves h with
  | startStore sem hm =>
    simp only [EventDev.effect, hm] at ht
    exact ⟨hi', by rw [ht]; exact he, by rw [ht], hfd, ho⟩
  | read hm hlock =>
    have hr := eventRead_open ho
    refine ⟨hi', ?_, ?_, ?_, ?_⟩
    · simp only [ht, EventDev.effect, hr, he]
    · simp only [ht, EventDev.effect, hr, hs]
    · rw [hr]
      exact hfd
    · rw [hr]
      exact ho
  | endSelect sem hm => exact ⟨hi', by rw [ht]; exact he, by rw [ht]; rfl, hfd, ho⟩
  | incr u hw hlock =>
    refine ⟨hi', ?_, by rw [ht]; exact hs, hfd, ho⟩
    simp only [ht, EventDev.effect, EventDev.increment, he]
  | _ => exact ⟨hi', by rw [ht]; exact he, by rw [ht]; exact hs, hfd, ho⟩

theorem init_linear : Linear .init .opened := ⟨init_selInv, rfl, rfl, rfl, rfl⟩

/-- A read returns what it returns where the calls run one after the other. -/
theorem lin_returned (hl : Linear s t) :
    trace EventRun.accept EventRun.returned t (s.lin a) = s.returned a := by
  have ho : t.dev.sEvent.mIsOpen = true := by rw [hl.event]; exact hl.isOpen
  cases a with
  | startStore =>
    simp only [SelSys.lin]
    split
    · exact trace_single
    · rfl
  | read =>
    refine trace_single.trans ?_
    simp only [EventRun.returned, SelSys.returned, ← hl.event, eventRead_open ho]
    rw [hl.event, eventRead_open hl.isOpen]
  | endSelect => exact trace_single
  | incr u => exact trace_single
  | _ => rfl

/-! ## The signals -/

/-- The semaphore of a select is new when it takes the lock. -/
structure Fresh (s : SelSys) (t : EventRun) : Prop where
  passed : ∀ sem n, s.main.passed = some sem → sem.sem = some n → n < s.nextSem
  below : ∀ sem n, sem ∈ t.dev.triggered → sem.sem = some n → n < s.nextSem
  locked : ∀ sem, s.main = .locked sem → sem ∉ t.dev.triggered

/-- What is signalled where the calls run one after the other is signalled, or about to be. -/
structure Heard (s : SelSys) (t : EventRun) : Prop where
  linear : Linear s t
  fresh : Fresh s t
  heard : ∀ sem, s.dev.sSignalSemaphore = sem → sem.sem.isSome = true → sem ∈ t.dev.triggered →
    sem ∈ s.dev.triggered ∨ (∃ u, s.writers u ≠ .idle) ∨
      s.main = .stored sem ∧ s.dev.sEvent.mCounter > 0

theorem init_heard : Heard .init .opened where
  linear := init_linear
  fresh := ⟨fun _ _ h => (by cases h), fun _ _ h => (by cases h), fun _ h => (by cases h)⟩
  heard _ _ _ h := by cases h

theorem SelPc.passed_of_current {pc : SelPc} (h : pc.current.sem.isSome = true) :
    pc.passed = some pc.current := by
  cases pc with
  | idle => cases h
  | locked sem => cases h
  | _ => rfl

/-- What an `if` signals is signalled, or was before. -/
theorem mem_ite_cons {c : Prop} [Decidable c] {sem sem' : SelectSem} {l : List SelectSem}
    (h : sem ∈ if c then sem' :: l else l) : (c ∧ sem = sem') ∨ sem ∈ l := by
  split at h
  · rename_i hc
    rcases List.mem_cons.mp h with rfl | h
    · exact .inl ⟨hc, rfl⟩
    · exact .inr h
  · exact .inr h

theorem step_fresh (hf : Fresh s t) (hl : Linear s t) (h : s.step a = some s') {t' : EventRun}
    (ht : t'.dev = t.dev.effect s a) : Fresh s' t' := by
  obtain ⟨hp, hb, hk⟩ := hf
  cases step_moves h with
  | startLock isSemLocal hm hlock =>
    have hbt : ∀ sem n, sem ∈ t'.dev.triggered → sem.sem = some n → n < s.nextSem := by
      rw [ht]
      exact hb
    refine ⟨?_, fun sem n hmem hn => Nat.lt_succ_of_lt (hbt sem n hmem hn), ?_⟩
    · intro sem n hsem hn
      cases hsem
      cases hn
      exact Nat.lt_succ_self s.nextSem
    · intro sem hsem hmem
      cases hsem
      exact absurd (hbt _ s.nextSem hmem rfl) (Nat.lt_irrefl _)
  | startStore sem hm =>
    rw [hm] at hp
    refine ⟨hp, ?_, fun sem h => (by cases h)⟩
    simp only [ht, EventDev.effect, hm]
    intro sem' n hmem hn
    rcases mem_ite_cons hmem with ⟨-, rfl⟩ | hmem
    · exact hp sem' n rfl hn
    · exact hb sem' n hmem hn
  | startSignal sem hm hc =>
    rw [hm] at hp
    exact ⟨hp, by rw [ht]; exact hb, fun _ h => (by cases h)⟩
  | startZero sem hm hc =>
    rw [hm] at hp
    exact ⟨hp, by rw [ht]; exact hb, fun _ h => (by cases h)⟩
  | startUnlock sem hm =>
    rw [hm] at hp
    exact ⟨hp, by rw [ht]; exact hb, fun _ h => (by cases h)⟩
  | wake sem hm =>
    rw [hm] at hp
    exact ⟨hp, by rw [ht]; exact hb, fun _ h => (by cases h)⟩
  | endSelect sem hm =>
    exact ⟨fun _ _ h => (by cases h), by rw [ht]; exact hb, fun _ h => (by cases h)⟩
  | incr u hw hlock =>
    refine ⟨hp, ?_, ?_⟩
    · simp only [ht, EventDev.effect]
      intro sem n hmem hn
      rcases mem_ite_cons hmem with ⟨hs, rfl⟩ | hmem
      · rw [hl.semaphore, hl.inv.stored] at hs hn
        exact hp _ n (SelPc.passed_of_current hs) hn
      · exact hb sem n hmem hn
    · intro sem hm hmem
      rw [ht] at hmem
      rcases mem_ite_cons hmem with ⟨hs, -⟩ | hmem
      · -- a select that has only the lock has stored nothing
        have hm : s.main = .locked sem := hm
        rw [hl.semaphore, hl.inv.stored, hm] at hs
        cases hs
      · exact hk sem hm hmem
  | _ => exact ⟨hp, by rw [ht]; exact hb, by rw [ht]; exact hk⟩

theorem step_heard (hh : Heard s t) (h : s.step a = some s') {t' : EventRun}
    (ht : t'.dev = t.dev.effect s a) : Heard s' t' := by
  obtain ⟨hl, hf, hr⟩ := hh
  refine ⟨step_linear hl h ht, step_fresh hf hl h ht, ?_⟩
  -- no signal is still to come from the select itself
  have hgone : (∀ sem, s.main = .stored sem → ¬ s.dev.sEvent.mCounter > 0) →
      ∀ {Q : SelectSem → Prop} sem, s.dev.sSignalSemaphore = sem → sem.sem.isSome = true →
        sem ∈ t.dev.triggered → sem ∈ s.dev.triggered ∨ (∃ u, s.writers u ≠ .idle) ∨ Q sem := by
    intro hno Q sem hsem hsome hmem
    rcases hr sem hsem hsome hmem with hsig | hbusy | ⟨hst, hpos⟩
    · exact .inl hsig
    · exact .inr (.inl hbusy)
    · exact absurd hpos (hno sem hst)
  cases step_moves h with
  | startLock isSemLocal hm hlock =>
    intro sem hsem hsome
    have hsem : s.dev.sSignalSemaphore = sem := hsem
    rw [← hsem, hl.inv.stored, hm] at hsome
    cases hsome
  | startStore sem hm =>
    simp only [ht, EventDev.effect, hm]
    rintro sem' rfl - hmem
    rcases mem_ite_cons hmem with ⟨hc, -⟩ | hmem
    · rw [hl.event] at hc
      exact .inr (.inr ⟨rfl, hc⟩)
    · exact absurd hmem (hf.locked sem hm)
  | startSignal sem hm hc =>
    rintro sem' rfl - -
    exact .inl List.mem_cons_self
  | startZero sem hm hc =>
    rw [ht]
    exact hgone fun _ _ => hc
  | startUnlock sem hm =>
    rw [ht]
    exact hgone fun sem' hst => (by rw [hm] at hst; cases hst)
  | wake sem hm =>
    rw [ht]
    exact hgone fun sem' hst => (by rw [hm] at hst; cases hst)
  | endSelect sem hm =>
    rintro sem' rfl hsome
    cases hsome
  | read hm hlock =>
    rintro sem' rfl hsome
    rw [(step_selInv hl.inv h).stored] at hsome
    have hidle : s.main = .idle := hm
    simp only [hidle] at hsome
    cases hsome
  | incr u hw hlock =>
    intro sem _ _ _
    exact .inr (.inl (setWriter_busy s u (by decide)))
  | testSome u hw hs =>
    intro sem _ _ _
    exact .inr (.inl (setWriter_busy s u (by decide)))
  | testNull u hw hs =>
    rintro sem rfl hsome
    exact absurd hsome hs
  | trigger u hw =>
    rintro sem rfl - -
    exact .inl List.mem_cons_self

/-! ## Where no select starts or ends beside a writer -/

/-- No select stores its semaphore or ends while a writer is in `event_write`. -/
def SelSys.Apart (s : SelSys) (a : SelAct) : Prop :=
  a = .startStore ∨ a = .endSelect → ∀ u, s.writers u = .idle

/-- The signals still to come, from `busy` writers and from the select's own look at the
counter. -/
def SelPc.owed (mCounter : UInt8) (busy : Nat) : SelPc → Nat
  | .idle => 0
  | .locked _ => 0
  | .stored _ => if mCounter > 0 then busy + 1 else busy
  | .checked _ => busy
  | .asleep _ => busy
  | .awake _ => busy

/-- The signals are those of the calls one after the other, but for those still to come. -/
structure Owing (s : SelSys) (t : EventRun) : Prop where
  linear : Linear s t
  lock : LockHeld s
  tested : ∀ u, s.writers u = .tested → s.dev.sSignalSemaphore.sem.isSome = true
  signals : ∃ busy : Finset Nat, (∀ u, u ∈ busy ↔ s.writers u ≠ .idle) ∧
    t.dev.triggered = List.replicate (s.main.owed s.dev.sEvent.mCounter busy.card)
      s.main.current ++ s.dev.triggered

theorem init_owing : Owing .init .opened where
  linear := init_linear
  lock := ⟨by decide, rfl⟩
  tested _ h := by cases h
  signals := ⟨∅, by simp [SelSys.init], rfl⟩

section Owed

variable {pc : SelPc} (mCounter : UInt8) (n : Nat)

/-- A writer more is a signal more. -/
theorem owed_succ (h : pc.current.sem.isSome = true) :
    pc.owed mCounter (n + 1) = pc.owed mCounter n + 1 := by
  cases pc with
  | idle => cases h
  | locked sem => cases h
  | stored sem =>
    simp only [SelPc.owed]
    split <;> rfl
  | _ => rfl

theorem owed_counter (h : ∀ sem, pc ≠ .stored sem) (mCounter' : UInt8) :
    pc.owed mCounter n = pc.owed mCounter' n := by
  cases pc with
  | stored sem => exact absurd rfl (h sem)
  | _ => rfl

theorem owed_null (hp : ∀ sem, pc.passed = some sem → sem.sem.isSome = true)
    (h : ¬ pc.current.sem.isSome = true) : pc.owed mCounter n = 0 := by
  cases pc with
  | idle => rfl
  | locked sem => rfl
  | _ => exact absurd (hp _ rfl) h

end Owed

section Busy

variable {busy : Finset Nat} (hb : ∀ v, v ∈ busy ↔ s.writers v ≠ .idle) (u : Nat)

include hb

theorem busy_insert {pc : WriterPc} (hpc : pc ≠ .idle) :
    ∀ v, v ∈ insert u busy ↔ (s.setWriter u pc).writers v ≠ .idle := by
  intro v
  by_cases hv : v = u
  · simp [SelSys.setWriter, hv, hpc]
  · simp [SelSys.setWriter, hv, hb]

theorem busy_erase : ∀ v, v ∈ busy.erase u ↔ (s.setWriter u .idle).writers v ≠ .idle := by
  intro v
  by_cases hv : v = u
  · simp [SelSys.setWriter, hv]
  · simp [SelSys.setWriter, hv, hb]

theorem busy_empty (hidle : ∀ v, s.writers v = .idle) : busy = ∅ := by
  apply Finset.eq_empty_of_forall_notMem
  intro v hv
  exact (hb v).mp hv (hidle v)

end Busy

theorem replicate_succ_append (n : Nat) (sem : SelectSem) (l : List SelectSem) :
    List.replicate (n + 1) sem ++ l = List.replicate n sem ++ sem :: l := by
  rw [List.replicate_succ', List.append_assoc, List.singleton_append]

/-- A writer that is past its test has seen a semaphore that is still stored. -/
theorem step_tested (htest : ∀ u, s.writers u = .tested → s.dev.sSignalSemaphore.sem.isSome = true)
    (hap : s.Apart a) (h : s.step a = some s') :
    ∀ u, s'.writers u = .tested → s'.dev.sSignalSemaphore.sem.isSome = true := by
  have hset : ∀ {v pc}, (pc = .tested → s.dev.sSignalSemaphore.sem.isSome = true) → ∀ u,
      (s.setWriter v pc).writers u = .tested → s.dev.sSignalSemaphore.sem.isSome = true := by
    intro v pc hpc u hu
    by_cases hv : u = v
    · exact hpc (by simpa [SelSys.setWriter, hv] using hu)
    · exact htest u (by simpa [SelSys.setWriter, hv] using hu)
  cases step_moves h with
  | startStore sem hm =>
    intro u hu
    have hidle := hap (.inl rfl) u
    exact absurd (hidle.symm.trans hu) (by decide)
  | endSelect sem hm =>
    intro u hu
    have hidle := hap (.inr rfl) u
    exact absurd (hidle.symm.trans hu) (by decide)
  | read hm hl =>
    intro u hu
    have hs : (eventRead s.dev.sEvent.mFd s.dev).2.sSignalSemaphore = s.dev.sSignalSemaphore := by
      unfold eventRead
      split <;> rfl
    simp only [hs]
    exact htest u hu
  | incr v hw hl => exact hset (fun hpc => by cases hpc)
  | testSome v hw hs => exact hset fun _ => hs
  | testNull v hw hs => exact hset (fun hpc => by cases hpc)
  | trigger v hw => exact hset (fun hpc => by cases hpc)
  | _ => exact htest

theorem step_owing (ho : Owing s t) (hap : s.Apart a) (h : s.step a = some s') {t' : EventRun}
    (ht : t'.dev = t.dev.effect s a) : Owing s' t' := by
  obtain ⟨hl, hk, htest, busy, hb, hsig⟩ := ho
  refine ⟨step_linear hl h ht, step_lockHeld hk h, step_tested htest hap h, ?_⟩
  have hstored := hl.inv.stored
  have hhandle := hl.inv.handle
  have htrig : ∀ {d}, t'.dev = d → t'.dev.triggered = d.triggered := congrArg EventDev.triggered
  cases step_moves h with
  | startLock isSemLocal hm hlock =>
    rw [hm] at hsig
    exact ⟨busy, hb, (htrig ht).trans hsig⟩
  | startStore sem hm =>
    have hidle := hap (.inl rfl)
    refine ⟨∅, by simp [hidle], ?_⟩
    have hsig : t.dev.triggered = s.dev.triggered := by rw [hm] at hsig; exact hsig
    rw [ht]
    simp only [EventDev.effect, hm, hl.event, hsig, SelPc.owed, Finset.card_empty]
    split <;> rfl
  | startSignal sem hm hc =>
    rw [hm, SelPc.owed, if_pos hc, replicate_succ_append] at hsig
    refine ⟨busy, hb, (htrig ht).trans ?_⟩
    rw [hm] at hstored
    rw [triggered_triggered, hstored]
    exact hsig
  | startZero sem hm hc =>
    rw [hm, SelPc.owed, if_neg hc] at hsig
    exact ⟨busy, hb, (htrig ht).trans hsig⟩
  | startUnlock sem hm =>
    rw [hm] at hsig
    exact ⟨busy, hb, (htrig ht).trans hsig⟩
  | wake sem hm =>
    rw [hm] at hsig
    exact ⟨busy, hb, (htrig ht).trans hsig⟩
  | endSelect sem hm =>
    rw [hm, busy_empty hb (hap (.inr rfl))] at hsig
    exact ⟨busy, hb, (htrig ht).trans hsig⟩
  | read hm hlock =>
    rw [hm] at hsig
    refine ⟨busy, hb, (htrig ht).trans ?_⟩
    simp only [hm, eventRead_open hl.isOpen]
    exact hsig
  | incr u hw hlock =>
    have hnot : u ∉ busy := fun hu => (hb u).mp hu hw
    -- the lock is free, so no select is about to look at the counter
    have hns : ∀ sem, s.main ≠ .stored sem := by
      intro sem hst
      have hlocked := hk.held.mp hlock
      rw [hst] at hlocked
      cases hlocked
    refine ⟨insert u busy, busy_insert hb u (by decide), (htrig ht).trans ?_⟩
    rw [Finset.card_insert_of_notMem hnot]
    simp only [EventDev.effect, hl.semaphore, hstored, setWriter_main]
    rw [owed_counter _ _ hns s.dev.sEvent.mCounter]
    split
    · rename_i hs
      rw [owed_succ _ _ hs, List.replicate_succ, hsig]
      rfl
    · rename_i hs
      rw [owed_null _ _ hhandle hs] at hsig ⊢
      exact hsig
  | testSome u hw hs =>
    have hmem : u ∈ busy := (hb u).mpr (by rw [hw]; decide)
    have hb' := busy_insert hb u (show WriterPc.tested ≠ .idle by decide)
    rw [Finset.insert_eq_of_mem hmem] at hb'
    exact ⟨busy, hb', (htrig ht).trans hsig⟩
  | testNull u hw hs =>
    rw [hstored] at hs
    refine ⟨busy.erase u, busy_erase hb u, (htrig ht).trans ?_⟩
    rw [setWriter_main, owed_null _ _ hhandle hs]
    rw [owed_null _ _ hhandle hs] at hsig
    exact hsig
  | trigger u hw =>
    have hmem : u ∈ busy := (hb u).mpr (by rw [hw]; decide)
    have hs := htest u hw
    rw [hstored] at hs
    rw [← Finset.card_erase_add_one hmem, owed_succ _ _ hs, replicate_succ_append] at hsig
    refine ⟨busy.erase u, busy_erase hb u, (htrig ht).trans ?_⟩
    rw [triggered_triggered, hstored]
    exact hsig

/-- Where no signal is still to come, the device is the one of the calls. -/
theorem Owing.settled (ho : Owing s t) (hidle : ∀ u, s.writers u = .idle)
    (hm : ∀ sem, s.main ≠ .stored sem) : t.dev = s.dev := by
  obtain ⟨hl, -, -, busy, hb, hsig⟩ := ho
  have hzero : s.main.owed s.dev.sEvent.mCounter 0 = 0 := by
    cases hpc : s.main with
    | stored sem => exact absurd hpc (hm sem)
    | _ => rfl
  have htrig : t.dev.triggered = s.dev.triggered := by
    rw [hsig, busy_empty hb hidle, Finset.card_empty, hzero]
    rfl
  calc t.dev = ⟨t.dev.sEvent, t.dev.sSignalSemaphore, t.dev.triggered⟩ := rfl
    _ = ⟨s.dev.sEvent, s.dev.sSignalSemaphore, s.dev.triggered⟩ := by
      rw [hl.event, hl.semaphore, htrig]
    _ = s.dev := rfl

/-! ## Every interleaving -/

theorem heard_simulates :
    Simulates SelSys.step EventRun.accept SelSys.lin (fun _ _ => True) Heard := by
  intro s t a s' hh _ h
  obtain ⟨t', he, ht⟩ := lin_effect hh.linear h
  exact ⟨t', he, step_heard hh h ht⟩

theorem owing_simulates :
    Simulates SelSys.step EventRun.accept SelSys.lin SelSys.Apart Owing := by
  intro s t a s' ho hap h
  obtain ⟨t', he, ht⟩ := lin_effect ho.linear h
  exact ⟨t', he, step_owing ho hap h ht⟩

/-- For every interleaving there is a sequence of calls, each taking effect within itself and none
refused, that leaves the same event and the same stored semaphore and whose reads return the same.
A select that has looked at the counter and is signalled there is signalled here, or a writer is
still in `event_write`. Where no select stores its semaphore or ends while a writer is in
`event_write`, the signals are the same too, as soon as no writer and no such select is under
way. -/
theorem event_linearizable (as : List SelAct) (s : SelSys)
    (h : exec SelSys.step .init as = some s) :
    ∃ t, exec EventRun.accept .opened (trace SelSys.step SelSys.lin .init as) = some t ∧
      t.dev.sEvent = s.dev.sEvent ∧ t.dev.sSignalSemaphore = s.dev.sSignalSemaphore ∧
      trace EventRun.accept EventRun.returned .opened (trace SelSys.step SelSys.lin .init as) =
        trace SelSys.step SelSys.returned .init as ∧
      (∀ sem, s.main.waiting = some sem → sem ∈ t.dev.triggered →
        sem ∈ s.dev.triggered ∨ ∃ u, s.writers u ≠ .idle) ∧
      ((AtSteps SelSys.step .init as fun _ s a => s.Apart a) → (∀ u, s.writers u = .idle) →
        (∀ sem, s.main ≠ .stored sem) → t.dev = s.dev) := by
  have hany : AtSteps SelSys.step .init as fun _ _ _ => True := fun _ _ _ _ _ _ => trivial
  obtain ⟨t, ht, hh⟩ := heard_simulates.run init_heard hany h
  refine ⟨t, ht, hh.linear.event, hh.linear.semaphore, ?_, ?_, ?_⟩
  · exact heard_simulates.answers (fun s t a s' hh _ _ => lin_returned hh.linear) init_heard hany h
  · intro sem hw hmem
    have hcur : s.dev.sSignalSemaphore = sem := by
      rw [hh.linear.inv.stored, SelPc.current_of_waiting hw]
    have hsome := hh.linear.inv.handle sem (SelPc.passed_of_waiting hw)
    rcases hh.heard sem hcur hsome hmem with hsig | hbusy | ⟨hst, -⟩
    · exact .inl hsig
    · exact .inr hbusy
    · rw [hst] at hw
      cases hw
  · intro hap hidle hm
    obtain ⟨t', ht', ho⟩ := owing_simulates.run init_owing hap h
    rw [ht] at ht'
    cases ht'
    exact ho.settled hidle hm

/-- A writer wakes the select, which ends and reads; another write finds no select. -/
def wakeRun : List SelAct :=
  [.startLock true, .startStore, .startCheck, .startUnlock, .incr 0, .test 0, .trigger 0, .wake,
    .endSelect, .read, .incr 1, .test 1]

theorem wakeRun_apart : AtSteps SelSys.step .init wakeRun fun _ s a => s.Apart a := by
  have hskip : ∀ {s : SelSys} {a : SelAct}, ¬ (a = .startStore ∨ a = .endSelect) → s.Apart a :=
    fun hn ha => absurd ha hn
  refine .cons rfl (hskip (by decide)) <| .cons rfl (fun _ _ => rfl) <| ?_
  iterate 6 refine .cons rfl (hskip (by decide)) ?_
  refine .cons rfl (fun _ u => ?_) ?_
  · by_cases h0 : u = 0 <;> simp [SelSys.setWriter, SelSys.init, h0]
  · iterate 3 refine .cons rfl (hskip (by decide)) ?_
    exact .nil

theorem event_linearizable_wake :
    ∃ s t, exec SelSys.step .init wakeRun = some s ∧
      exec EventRun.accept .opened (trace SelSys.step SelSys.lin .init wakeRun) = some t ∧
      trace EventRun.accept EventRun.returned .opened (trace SelSys.step SelSys.lin .init wakeRun) =
        trace SelSys.step SelSys.returned .init wakeRun ∧
      trace SelSys.step SelSys.returned .init wakeRun = [1] ∧
      t.dev = s.dev ∧ s.dev.triggered = [⟨true, some 0⟩] := by
  obtain ⟨t, ht, -, -, hread, -, hdev⟩ := event_linearizable wakeRun _ rfl
  refine ⟨_, t, rfl, ht, hread, rfl, hdev wakeRun_apart ?_ ?_, rfl⟩
  · intro u
    by_cases h0 : u = 0
    · simp [SelSys.setWriter, SelSys.init, h0]
    · by_cases h1 : u = 1 <;> simp [SelSys.setWriter, SelSys.init, h1]
  · intro sem h
    cases h

end OtEsp32
