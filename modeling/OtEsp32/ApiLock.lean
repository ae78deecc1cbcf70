import Mathlib.Logic.Function.Basic
import OtEsp32.Lib.Lts

/-!
# ApiLock

`api_lock.c` under the task of `run_cli` and any number of application tasks, over any number of
pseudo resets. A mutex of FreeRTOS is an object with a handle of its own; `sApiMutex` holds the
handle, and `live` is the object that exists. Every task reads `sApiMutex` (`lock`, `unlock`)
before it calls `xSemaphoreTake` or `xSemaphoreGive` with what it read (`take`, `give`).

A take of a handle that is `NULL` or deleted waits for ever here and a give of it changes nothing;
FreeRTOS promises neither.

`LockInv` is kept by every step that is `Quiet`, and from it the lock excludes (`lock_excludes`).
`run_cli` takes steps that are not: it calls `otInstanceFinalize` outside the lock and deletes the
mutex under the tasks that use it (`lock_overlaps`).
-/

namespace OtEsp32

open Lts

inductive ApiTask where
  | cli
  | app (n : Nat)
  deriving DecidableEq, Repr

/-- Where a task is between `otSysApiLock` and `otSysApiUnlock`. -/
inductive ApiPc where
  | outside
  | taking (sApiMutex : Option Nat)
  | waiting (sApiMutex : Option Nat)
  | locked
  | inCall
  | giving (sApiMutex : Option Nat)
  deriving DecidableEq, Repr

/-- The three places where `run_cli` takes the lock. -/
inductive CliSection where
  | instanceInit
  | update
  | process
  deriving DecidableEq, Repr

/-- Where `run_cli` is: `initFlag` and `initMutex` are `otSysInit`, `deleteMutex` and `storeNull`
are `otSysDeinit`. -/
inductive CliPc where
  | initFlag
  | initMutex
  | api (b : CliSection)
  | check
  | poll
  | finalize
  | deleteMutex
  | storeNull
  deriving DecidableEq, Repr

def CliSection.next : CliSection → CliPc
  | .instanceInit => .check
  | .update => .poll
  | .process => .check

/-- From the deletion of the mutex to the creation of the next one. -/
def CliPc.noMutex : CliPc → Bool
  | .initFlag | .initMutex | .storeNull => true
  | _ => false

structure LockSys where
  gPlatformPseudoResetWasRequested : Bool
  sApiMutex : Option Nat
  live : Option Nat
  holder : Option ApiTask
  nextMutex : Nat
  cli : CliPc
  appsStarted : Bool
  pc : ApiTask → ApiPc

def LockSys.init : LockSys :=
  { gPlatformPseudoResetWasRequested := false
    sApiMutex := none
    live := none
    holder := none
    nextMutex := 0
    cli := .initFlag
    appsStarted := false
    pc := fun _ => .outside }

inductive LockAct where
  | lock (t : ApiTask)
  | take (t : ApiTask)
  | granted (t : ApiTask)
  | callBegin (t : ApiTask)
  | otPlatReset (t : ApiTask)
  | callEnd (t : ApiTask)
  | unlock (t : ApiTask)
  | give (t : ApiTask)
  | cliStep
  deriving DecidableEq, Repr

/-- The steps of `otSysApiLock`. -/
def otSysApiLock (t : ApiTask) : List LockAct := [.lock t, .take t, .granted t]

/-- The steps of `otSysApiUnlock`. -/
def otSysApiUnlock (t : ApiTask) : List LockAct := [.unlock t, .give t]

def LockSys.setPc (s : LockSys) (t : ApiTask) (pc : ApiPc) : LockSys :=
  { s with pc := Function.update s.pc t pc }

/-- Whether the program of `t` is at a call of `otSysApiLock`. -/
def LockSys.atLock (s : LockSys) : ApiTask → Bool
  | .cli => match s.cli with
    | .api _ => true
    | _ => false
  | .app _ => s.appsStarted

/-- What `run_cli` does when `otSysApiUnlock` has returned to it. -/
def LockSys.afterUnlock (s : LockSys) : ApiTask → LockSys
  | .cli => match s.cli with
    | .api b => { s with cli := b.next, appsStarted := true }
    | _ => s
  | .app _ => s

/-- The steps of `run_cli` outside the lock. -/
def LockSys.cliStep (s : LockSys) : Option LockSys :=
  match s.cli with
  | .initFlag => some { s with gPlatformPseudoResetWasRequested := false, cli := .initMutex }
  | .initMutex =>
    some { s with
      sApiMutex := some s.nextMutex
      live := some s.nextMutex
      nextMutex := s.nextMutex + 1
      cli := .api .instanceInit }
  | .api _ => none
  | .check =>
    if s.gPlatformPseudoResetWasRequested then some { s with cli := .finalize }
    else some { s with cli := .api .update }
  | .poll => some { s with cli := .api .process }
  | .finalize => some { s with cli := .deleteMutex }
  | .deleteMutex => some { s with live := none, holder := none, cli := .storeNull }
  | .storeNull => some { s with sApiMutex := none, cli := .initFlag }

def LockSys.step (s : LockSys) : LockAct → Option LockSys
  | .lock t =>
    if s.pc t = .outside ∧ s.atLock t then some (s.setPc t (.taking s.sApiMutex)) else none
  | .take t =>
    match s.pc t with
    | .taking m => some (s.setPc t (.waiting m))
    | _ => none
  | .granted t =>
    match s.pc t with
    | .waiting m =>
      if m.isSome ∧ m = s.live ∧ s.holder = none then
        some { s.setPc t .locked with holder := some t }
      else none
    | _ => none
  | .callBegin t => if s.pc t = .locked then some (s.setPc t .inCall) else none
  | .otPlatReset t =>
    if s.pc t = .inCall then some { s with gPlatformPseudoResetWasRequested := true } else none
  | .callEnd t => if s.pc t = .inCall then some (s.setPc t .locked) else none
  | .unlock t => if s.pc t = .locked then some (s.setPc t (.giving s.sApiMutex)) else none
  | .give t =>
    match s.pc t with
    | .giving m =>
      let s' := s.setPc t .outside
      some ({ s' with
        holder := if m = s.live ∧ s.holder = some t then none else s.holder }.afterUnlock t)
    | _ => none
  | .cliStep => s.cliStep

/-! ## What the lock promises -/

/-- Inside an OpenThread call on the instance; `run_cli` is also inside one in
`otInstanceFinalize`. -/
def LockSys.Inside (s : LockSys) : ApiTask → Prop
  | .cli => s.pc .cli = .inCall ∨ s.cli = .finalize
  | .app n => s.pc (.app n) = .inCall

/-- At most one task is inside a call, and no task is left waiting for a mutex that is gone. -/
def LockSys.Safe (s : LockSys) : Prop :=
  (∀ t u, s.Inside t → s.Inside u → t = u) ∧
    ∀ t m, s.pc t = .waiting m → m.isSome ∧ m = s.live

/-- A call of `xSemaphoreTake` or `xSemaphoreGive` is made with the handle of a mutex that
exists. -/
def LockSys.LiveHandle (s : LockSys) : LockAct → Prop
  | .take t => ∀ m, s.pc t = .taking m → m.isSome ∧ m = s.live
  | .give t => ∀ m, s.pc t = .giving m → m.isSome ∧ m = s.live
  | _ => True

/-- The order of steps under which the lock keeps its promise. -/
def LockSys.Quiet (s : LockSys) : LockAct → Prop
  | .cliStep =>
    (s.cli = .check → s.gPlatformPseudoResetWasRequested = true →
      ∀ n, s.pc (.app n) ≠ .inCall) ∧
    (s.cli = .deleteMutex → ∀ n, s.pc (.app n) = .outside)
  | .callBegin (.app _) => s.cli ≠ .finalize
  | .lock (.app _) => s.cli.noMutex = false
  | _ => True

/-! ## The invariant -/

/-- The handle a task has read and not yet used up. -/
def ApiPc.handle : ApiPc → Option (Option Nat)
  | .taking m => some m
  | .waiting m => some m
  | .giving m => some m
  | _ => none

/-- From the moment the mutex is granted until it is given back. -/
def ApiPc.holding : ApiPc → Bool
  | .locked | .inCall | .giving _ => true
  | _ => false

structure LockInv (s : LockSys) : Prop where
  mutex : s.cli.noMutex = false → s.live.isSome ∧ s.sApiMutex = s.live
  away : s.cli.noMutex = true → ∀ t, s.pc t = .outside
  handle : ∀ t m, (s.pc t).handle = some m → m.isSome ∧ m = s.live
  holder : ∀ t, (s.pc t).holding = true → s.holder = some t
  cli : s.pc .cli ≠ .outside → ∃ b, s.cli = .api b
  apps : s.appsStarted = false → ∀ n, s.pc (.app n) = .outside
  finalize : s.cli = .finalize → ∀ n, s.pc (.app n) ≠ .inCall

variable {s s' : LockSys} {t : ApiTask} {a : LockAct}

theorem init_lockInv : LockInv .init where
  mutex h := by cases h
  away _ _ := rfl
  handle _ _ h := by cases h
  holder _ h := by cases h
  cli h := absurd rfl h
  apps _ _ := rfl
  finalize h := by cases h

/-- A task that is not outside is there while the mutex exists. -/
theorem LockInv.mutex_of_pc (hi : LockInv s) (hp : s.pc t ≠ .outside) : s.cli.noMutex = false := by
  cases h : s.cli.noMutex with
  | false => rfl
  | true => exact absurd (hi.away h t) hp

theorem setPc_self (pc : ApiPc) : (s.setPc t pc).pc t = pc := Function.update_self ..

theorem setPc_of_ne {u : ApiTask} (pc : ApiPc) (h : u ≠ t) : (s.setPc t pc).pc u = s.pc u :=
  Function.update_of_ne h ..

/-- Moving one task keeps the invariant when its new place agrees with the mutex. -/
theorem LockInv.setPc (hi : LockInv s) {pc : ApiPc} (hm : s.cli.noMutex = false)
    (hh : ∀ m, pc.handle = some m → m.isSome ∧ m = s.live)
    (ho : pc.holding = true → s.holder = some t)
    (hc : t = .cli → ∃ b, s.cli = .api b)
    (ha : ∀ n, t = .app n → s.appsStarted = true)
    (hf : ∀ n, t = .app n → pc = .inCall → s.cli ≠ .finalize) : LockInv (s.setPc t pc) where
  mutex := hi.mutex
  away h := absurd (hm.symm.trans h) (by decide)
  handle u m h := by
    by_cases hu : u = t
    · subst hu
      rw [setPc_self] at h
      exact hh m h
    · rw [setPc_of_ne pc hu] at h
      exact hi.handle u m h
  holder u h := by
    by_cases hu : u = t
    · subst hu
      rw [setPc_self] at h
      exact ho h
    · rw [setPc_of_ne pc hu] at h
      exact hi.holder u h
  cli h := by
    by_cases hu : ApiTask.cli = t
    · exact hc hu.symm
    · rw [setPc_of_ne pc hu] at h
      exact hi.cli h
  apps h n := by
    by_cases hu : ApiTask.app n = t
    · exact absurd ((ha n hu.symm).symm.trans h) (by decide)
    · rw [setPc_of_ne pc hu]
      exact hi.apps h n
  finalize h n := by
    by_cases hu : ApiTask.app n = t
    · rw [hu, setPc_self]
      exact fun hp => hf n hu.symm hp h
    · rw [setPc_of_ne pc hu]
      exact hi.finalize h n

/-- `setPc` for a task that is already between `lock` and `give`. -/
theorem LockInv.move (hi : LockInv s) {pc : ApiPc} (hp : s.pc t ≠ .outside)
    (hh : ∀ m, pc.handle = some m → m.isSome ∧ m = s.live)
    (ho : pc.holding = true → s.holder = some t)
    (hf : ∀ n, t = .app n → pc = .inCall → s.cli ≠ .finalize) : LockInv (s.setPc t pc) := by
  refine hi.setPc (hi.mutex_of_pc hp) hh ho ?_ ?_ hf
  · rintro rfl
    exact hi.cli hp
  · rintro n rfl
    cases h : s.appsStarted with
    | true => rfl
    | false => exact absurd (hi.apps h n) hp

theorem LockInv.setHolder (hi : LockInv s) {holder : Option ApiTask}
    (ho : ∀ t, (s.pc t).holding = true → holder = some t) : LockInv { s with holder := holder } :=
  ⟨hi.mutex, hi.away, hi.handle, ho, hi.cli, hi.apps, hi.finalize⟩

/-- Giving the mutex back, before `run_cli` goes on. -/
theorem LockInv.give (hi : LockInv s) {m : Option Nat} (hp : s.pc t = .giving m) :
    LockInv { s.setPc t .outside with
      holder := if m = s.live ∧ s.holder = some t then none else s.holder } := by
  have hh : s.holder = some t := hi.holder t (by rw [hp]; rfl)
  have hm : m = s.live := (hi.handle t m (by rw [hp]; rfl)).2
  rw [if_pos ⟨hm, hh⟩]
  have hout : LockInv (s.setPc t .outside) := hi.move (by rw [hp]; exact nofun) nofun nofun nofun
  refine hout.setHolder ?_
  intro u hu
  by_cases hut : u = t
  · subst hut
    rw [setPc_self] at hu
    cases hu
  · rw [setPc_of_ne _ hut] at hu
    have hu := hi.holder u hu
    rw [hh] at hu
    exact absurd (Option.some.inj hu).symm hut

theorem LockInv.afterUnlock (hi : LockInv s) (hp : s.pc t = .outside) :
    LockInv (s.afterUnlock t) := by
  cases t with
  | app n => exact hi
  | cli =>
    unfold LockSys.afterUnlock
    dsimp only
    split
    · rename_i b hb
      have hm : s.cli.noMutex = false := by rw [hb]; rfl
      have hnext : b.next.noMutex = false := by cases b <;> rfl
      exact
        { mutex := fun _ => hi.mutex hm
          away := fun h => absurd (hnext.symm.trans h) (by decide)
          handle := hi.handle
          holder := hi.holder
          cli := fun h => absurd hp h
          apps := nofun
          finalize := fun h => by cases b <;> cases h }
    · exact hi

/-- `run_cli` goes on, outside the lock, and nothing else changes. -/
theorem LockInv.moveCli (hi : LockInv s) {cli : CliPc} (hout : s.pc .cli = .outside)
    (hm : cli.noMutex = false → s.live.isSome ∧ s.sApiMutex = s.live)
    (haway : cli.noMutex = true → ∀ t, s.pc t = .outside)
    (hf : cli = .finalize → ∀ n, s.pc (.app n) ≠ .inCall) : LockInv { s with cli := cli } :=
  ⟨hm, haway, hi.handle, hi.holder, fun h => absurd hout h, hi.apps, hf⟩

theorem LockInv.cliStep (hi : LockInv s) (hq : s.Quiet .cliStep) (h : s.cliStep = some s') :
    LockInv s' := by
  obtain ⟨hcheck, hdelete⟩ := hq
  -- `run_cli` itself is outside the lock wherever it takes one of these steps
  have hcli : (∀ b, s.cli ≠ .api b) → s.pc .cli = .outside := by
    intro hb
    by_contra hp
    obtain ⟨b, hb'⟩ := hi.cli hp
    exact hb b hb'
  unfold LockSys.cliStep at h
  split at h
  · rename_i hc
    cases h
    have hout := hi.away (by rw [hc]; rfl)
    exact ⟨nofun, fun _ => hout, hi.handle, hi.holder, fun h => absurd (hout _) h, hi.apps, nofun⟩
  · rename_i hc
    cases h
    have hout := hi.away (by rw [hc]; rfl)
    refine ⟨fun _ => ⟨rfl, rfl⟩, nofun, ?_, hi.holder, fun h => absurd (hout _) h, hi.apps, nofun⟩
    intro t m hm
    rw [hout t] at hm
    cases hm
  · cases h
  · rename_i hc
    have hm := hi.mutex (by rw [hc]; rfl)
    have hout := hcli (by rw [hc]; exact nofun)
    split at h
    · rename_i hr
      cases h
      exact hi.moveCli hout (fun _ => hm) nofun (fun _ => hcheck hc hr)
    · cases h
      exact hi.moveCli hout (fun _ => hm) nofun nofun
  · rename_i hc
    cases h
    exact hi.moveCli (hcli (by rw [hc]; exact nofun)) (fun _ => hi.mutex (by rw [hc]; rfl)) nofun
      nofun
  · rename_i hc
    cases h
    exact hi.moveCli (hcli (by rw [hc]; exact nofun)) (fun _ => hi.mutex (by rw [hc]; rfl)) nofun
      nofun
  · rename_i hc
    cases h
    have hout : ∀ t, s.pc t = .outside := by
      intro t
      cases t with
      | cli => exact hcli (by rw [hc]; exact nofun)
      | app n => exact hdelete hc n
    refine ⟨nofun, fun _ => hout, ?_, ?_, fun h => absurd (hout _) h, hi.apps, nofun⟩
    · intro t m hm
      rw [hout t] at hm
      cases hm
    · intro t ht
      rw [hout t] at ht
      cases ht
  · rename_i hc
    cases h
    have hout := hi.away (by rw [hc]; rfl)
    exact ⟨nofun, fun _ => hout, hi.handle, hi.holder, fun h => absurd (hout _) h, hi.apps, nofun⟩

theorem step_lockInv (hi : LockInv s) (hq : s.Quiet a) (h : s.step a = some s') : LockInv s' := by
  cases a with
  | lock t =>
    simp only [LockSys.step] at h
    split at h
    · rename_i hg
      cases h
      obtain ⟨-, hat⟩ := hg
      cases t with
      | cli =>
        have hb : ∃ b, s.cli = .api b := by
          unfold LockSys.atLock at hat
          dsimp only at hat
          split at hat
          · rename_i b hb
            exact ⟨b, hb⟩
          · cases hat
        have hm : s.cli.noMutex = false := by
          obtain ⟨b, hb⟩ := hb
          rw [hb]
          rfl
        obtain ⟨hlive, heq⟩ := hi.mutex hm
        exact hi.setPc hm (fun m hm => by cases hm; exact ⟨heq ▸ hlive, heq⟩) nofun (fun _ => hb)
          nofun nofun
      | app n =>
        obtain ⟨hlive, heq⟩ := hi.mutex hq
        exact hi.setPc hq (fun m hm => by cases hm; exact ⟨heq ▸ hlive, heq⟩) nofun nofun
          (fun _ _ => hat) nofun
    · cases h
  | take t =>
    simp only [LockSys.step] at h
    split at h
    · rename_i m hp
      cases h
      exact hi.move (by rw [hp]; exact nofun) (fun m' hm => hi.handle t m' (by rw [hp]; exact hm))
        nofun nofun
    · cases h
  | granted t =>
    simp only [LockSys.step] at h
    split at h
    · rename_i m hp
      split at h
      · rename_i hg
        cases h
        have hfree : LockInv { s with holder := some t } := by
          refine hi.setHolder ?_
          intro u hu
          have hu := hi.holder u hu
          rw [hg.2.2] at hu
          cases hu
        have hp' : ({ s with holder := some t } : LockSys).pc t ≠ .outside := by
          rw [show ({ s with holder := some t } : LockSys).pc t = .waiting m from hp]
          exact nofun
        exact hfree.move hp' nofun (fun _ => rfl) nofun
      · cases h
    · cases h
  | callBegin t =>
    simp only [LockSys.step] at h
    split at h
    · rename_i hp
      cases h
      refine hi.move (by rw [hp]; exact nofun) nofun (fun _ => hi.holder t (by rw [hp]; rfl)) ?_
      rintro n rfl -
      exact hq
    · cases h
  | otPlatReset t =>
    simp only [LockSys.step] at h
    split at h
    · cases h
      exact ⟨hi.mutex, hi.away, hi.handle, hi.holder, hi.cli, hi.apps, hi.finalize⟩
    · cases h
  | callEnd t =>
    simp only [LockSys.step] at h
    split at h
    · rename_i hp
      cases h
      exact hi.move (by rw [hp]; exact nofun) nofun (fun _ => hi.holder t (by rw [hp]; rfl)) nofun
    · cases h
  | unlock t =>
    simp only [LockSys.step] at h
    split at h
    · rename_i hp
      cases h
      have hout : s.pc t ≠ .outside := by rw [hp]; exact nofun
      obtain ⟨hlive, heq⟩ := hi.mutex (hi.mutex_of_pc hout)
      exact hi.move hout (fun m hm => by cases hm; exact ⟨heq ▸ hlive, heq⟩)
        (fun _ => hi.holder t (by rw [hp]; rfl)) nofun
    · cases h
  | give t =>
    simp only [LockSys.step] at h
    split at h
    · rename_i m hp
      cases h
      exact (hi.give hp).afterUnlock (setPc_self _)
    · cases h
  | cliStep => exact hi.cliStep hq h

/-! ## The steps put together -/

/-- A call of `otSysApiLock` takes the lock when it is free. -/
theorem otSysApiLock_steps (hi : LockInv s) (hm : s.cli.noMutex = false) (hp : s.pc t = .outside)
    (hat : s.atLock t = true) (hfree : s.holder = none) :
    ∃ s', exec LockSys.step s (otSysApiLock t) = some s' ∧ s'.holder = some t ∧
      s'.pc = Function.update s.pc t .locked := by
  obtain ⟨hlive, heq⟩ := hi.mutex hm
  simp only [otSysApiLock, exec, LockSys.step, LockSys.setPc, hp, hat, and_self, if_true,
    Function.update_self, heq, hfree, and_true]
  rw [if_pos hlive]
  refine ⟨_, rfl, rfl, ?_⟩
  simp only [Function.update_idem]

/-- A call of `otSysApiUnlock` by the task that holds the lock makes it free. -/
theorem otSysApiUnlock_steps (hi : LockInv s) (hp : s.pc t = .locked) :
    ∃ s', exec LockSys.step s (otSysApiUnlock t) = some s' ∧ s'.holder = none ∧
      s'.pc = Function.update s.pc t .outside := by
  have hout : s.pc t ≠ .outside := by rw [hp]; exact nofun
  obtain ⟨-, heq⟩ := hi.mutex (hi.mutex_of_pc hout)
  have hholder : s.holder = some t := hi.holder t (by rw [hp]; rfl)
  simp only [otSysApiUnlock, exec, LockSys.step, LockSys.setPc, hp, if_true, Function.update_self,
    heq, hholder, and_self, Function.update_idem]
  refine ⟨_, rfl, ?_, ?_⟩
  · cases t with
    | app n => rfl
    | cli =>
      simp only [LockSys.afterUnlock]
      split <;> rfl
  · cases t with
    | app n => rfl
    | cli =>
      simp only [LockSys.afterUnlock]
      split <;> rfl

/-! ## Every run -/

theorem LockInv.inside_holder (hi : LockInv s) (hf : s.cli ≠ .finalize) (h : s.Inside t) :
    s.holder = some t := by
  cases t with
  | cli =>
    rcases h with h | h
    · exact hi.holder _ (by rw [h]; rfl)
    · exact absurd h hf
  | app n => exact hi.holder _ (by rw [show s.pc (.app n) = .inCall from h]; rfl)

theorem LockInv.safe (hi : LockInv s) : s.Safe := by
  refine ⟨?_, fun t m hp => hi.handle t m (by rw [hp]; rfl)⟩
  intro t u ht hu
  by_cases hf : s.cli = .finalize
  · have happ : ∀ n, ¬ s.Inside (.app n) := hi.finalize hf
    cases t with
    | app n => exact absurd ht (happ n)
    | cli =>
      cases u with
      | app n => exact absurd hu (happ n)
      | cli => rfl
  · have ht := hi.inside_holder hf ht
    have hu := hi.inside_holder hf hu
    exact Option.some.inj (ht.symm.trans hu)

theorem LockInv.liveHandle (hi : LockInv s) : s.LiveHandle a := by
  cases a with
  | take t => exact fun m hp => hi.handle t m (by rw [hp]; rfl)
  | give t => exact fun m hp => hi.handle t m (by rw [hp]; rfl)
  | _ => trivial

/-- Along every run whose steps are all quiet, every state is safe and every take and give is of
the mutex that exists. -/
theorem lock_excludes (as : List LockAct)
    (hq : AtSteps LockSys.step .init as fun _ s a => s.Quiet a) :
    (AtStates LockSys.step .init as fun _ s => s.Safe) ∧
      AtSteps LockSys.step .init as fun _ s a => s.LiveHandle a := by
  refine ⟨?_, ?_⟩
  · exact atStates_of_inv (fun _ => LockInv) init_lockInv
      (fun _ _ _ _ hi hq h => step_lockInv hi hq h) (fun _ _ hi => hi.safe) hq
  · exact atSteps_of_inv (fun _ => LockInv) init_lockInv
      (fun _ _ _ _ hi hq h => step_lockInv hi hq h) (fun _ _ _ hi _ => hi.liveHandle) hq

/-- An application task locks, calls, asks for a pseudo reset and unlocks; `run_cli` finishes its
round, tears down, initialises again and begins the next `otInstanceInit`. -/
def quietRun : List LockAct :=
  [.cliStep, .cliStep] ++ otSysApiLock .cli ++ [.callBegin .cli, .callEnd .cli] ++
    otSysApiUnlock .cli ++ [.cliStep] ++
    otSysApiLock (.app 0) ++ [.callBegin (.app 0), .otPlatReset (.app 0), .callEnd (.app 0)] ++
    otSysApiUnlock (.app 0) ++
    otSysApiLock .cli ++ otSysApiUnlock .cli ++ [.cliStep] ++
    otSysApiLock .cli ++ otSysApiUnlock .cli ++
    [.cliStep, .cliStep, .cliStep, .cliStep, .cliStep, .cliStep] ++
    otSysApiLock .cli ++ [.callBegin .cli]

theorem quiet_cliStep (h : ∀ n, s.pc (.app n) = .outside) : s.Quiet .cliStep := by
  refine ⟨fun _ _ n => ?_, fun _ => h⟩
  rw [h n]
  decide

theorem quietRun_quiet : AtSteps LockSys.step .init quietRun fun _ s a => s.Quiet a := by
  iterate 39
    refine .cons rfl (by first
      | trivial
      | exact quiet_cliStep fun n => by cases n <;> rfl
      | exact nofun) ?_
  exact .nil

theorem lock_excludes_reset :
    (AtStates LockSys.step .init quietRun fun _ s => s.Safe) ∧
      AtSteps LockSys.step .init quietRun fun _ s a => s.LiveHandle a :=
  lock_excludes quietRun quietRun_quiet

/-- An application task asks for a pseudo reset and is still inside its call, under the lock, when
`run_cli` looks at the flag. -/
def overlapRun : List LockAct :=
  [.cliStep, .cliStep] ++ otSysApiLock .cli ++ otSysApiUnlock .cli ++ otSysApiLock (.app 0) ++
    [.callBegin (.app 0), .otPlatReset (.app 0), .cliStep]

/-- `otInstanceFinalize` runs while the task is inside its call. -/
theorem lock_overlaps :
    ¬ ∀ as, (AtStates LockSys.step .init as fun _ s => s.Safe) ∧
      AtSteps LockSys.step .init as fun _ s a => s.LiveHandle a := by
  intro hclaim
  have hrun : ∃ s, exec LockSys.step .init overlapRun = some s ∧ s.Inside .cli ∧
      s.Inside (.app 0) := ⟨_, rfl, .inr rfl, rfl⟩
  obtain ⟨s, hs, hcli, happ⟩ := hrun
  have hsafe := (hclaim overlapRun).1 overlapRun [] s (List.append_nil _).symm hs
  cases hsafe.1 _ _ hcli happ

end OtEsp32
