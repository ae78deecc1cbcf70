import OtEsp32.ApiLock
import OtEsp32.Lib.Sim

/-!
# LockRefine

What the API lock is for, as a machine of its own: `Instance` is the OpenThread instance with one
lock, taken and given in one step, that is there for ever. `lock_refines` says that every quiet run
of `ApiLock`, in which the lock takes several steps and its mutex is deleted and created with each
pseudo reset, is a run of it; `waiting_granted` that no task waits in vain in such a run.
-/

namespace OtEsp32

open Lts

/-! ## The instance and its lock -/

/-- `inside` is the task that is in a call of OpenThread; there is never more than one. -/
structure Instance where
  holder : Option ApiTask
  inside : Option ApiTask
  resetRequested : Bool
  deriving DecidableEq, Repr

def Instance.init : Instance := ⟨none, none, false⟩

/-- `finalize` and `finalized` are the begin and the end of `otInstanceFinalize`. -/
inductive InstanceAct where
  | acquire (t : ApiTask)
  | enter (t : ApiTask)
  | requestReset (t : ApiTask)
  | leave (t : ApiTask)
  | release (t : ApiTask)
  | finalize
  | finalized
  | clearReset
  deriving DecidableEq, Repr

def Instance.step (i : Instance) : InstanceAct → Option Instance
  | .acquire t => if i.holder = none then some { i with holder := some t } else none
  | .enter t =>
    if i.holder = some t ∧ i.inside = none then some { i with inside := some t } else none
  | .requestReset t => if i.inside = some t then some { i with resetRequested := true } else none
  | .leave t =>
    if i.holder = some t ∧ i.inside = some t then some { i with inside := none } else none
  | .release t =>
    if i.holder = some t ∧ i.inside ≠ some t then some { i with holder := none } else none
  | .finalize => if i.inside = none then some { i with inside := some .cli } else none
  | .finalized => if i.inside = some .cli then some { i with inside := none } else none
  | .clearReset =>
    if i.holder = none ∧ i.inside = none then some { i with resetRequested := false } else none

/-- The lock is taken where the mutex is granted, and given where `xSemaphoreGive` runs. -/
def LockSys.lin (s : LockSys) : LockAct → List InstanceAct
  | .granted t => [.acquire t]
  | .callBegin t => [.enter t]
  | .otPlatReset t => [.requestReset t]
  | .callEnd t => [.leave t]
  | .give t => [.release t]
  | .cliStep =>
    match s.cli with
    | .initFlag => [.clearReset]
    | .check => if s.gPlatformPseudoResetWasRequested then [.finalize] else []
    | .finalize => [.finalized]
    | _ => []
  | _ => []

/-! ## The relation -/

structure Abstracts (s : LockSys) (i : Instance) : Prop where
  inv : LockInv s
  holding : ∀ t, s.holder = some t → (s.pc t).holding = true
  holder : i.holder = s.holder
  inside : ∀ t, i.inside = some t ↔ s.Inside t
  reset : i.resetRequested = s.gPlatformPseudoResetWasRequested

variable {s s' : LockSys} {i : Instance} {t : ApiTask} {a : LockAct}

theorem inside_congr (hpc : s'.pc t = .inCall ↔ s.pc t = .inCall)
    (hcli : s'.cli = .finalize ↔ s.cli = .finalize) : s'.Inside t ↔ s.Inside t := by
  cases t with
  | cli => exact or_congr hpc hcli
  | app n => exact hpc

/-- A step that moves no task into or out of a call and leaves the lock cannot be seen. -/
theorem Abstracts.stutter (h : Abstracts s i) (hinv : LockInv s')
    (hpc : ∀ t, (s'.pc t = .inCall ↔ s.pc t = .inCall) ∧ (s'.pc t).holding = (s.pc t).holding)
    (hcli : s'.cli = .finalize ↔ s.cli = .finalize) (hholder : s'.holder = s.holder)
    (hreset : s'.gPlatformPseudoResetWasRequested = s.gPlatformPseudoResetWasRequested) :
    Abstracts s' i where
  inv := hinv
  holding t ht := by
    rw [(hpc t).2]
    exact h.holding t (hholder ▸ ht)
  holder := h.holder.trans hholder.symm
  inside t := (h.inside t).trans (inside_congr (hpc t).1 hcli).symm
  reset := h.reset.trans hreset.symm

theorem setPc_same {pc : ApiPc} (hc : pc = .inCall ↔ s.pc t = .inCall)
    (hh : pc.holding = (s.pc t).holding) (u : ApiTask) :
    ((s.setPc t pc).pc u = .inCall ↔ s.pc u = .inCall) ∧
      ((s.setPc t pc).pc u).holding = (s.pc u).holding := by
  by_cases hu : u = t
  · subst hu
    rw [setPc_self]
    exact ⟨hc, hh⟩
  · rw [setPc_of_ne pc hu]
    exact ⟨Iff.rfl, rfl⟩

theorem inside_setPc {u : ApiTask} {pc : ApiPc} (hc : pc = .inCall ↔ s.pc t = .inCall) :
    (s.setPc t pc).Inside u ↔ s.Inside u := by
  refine inside_congr ?_ Iff.rfl
  by_cases hu : u = t
  · subst hu
    rw [setPc_self]
    exact hc
  · rw [setPc_of_ne pc hu]

theorem inside_setPc_of_ne {u : ApiTask} (pc : ApiPc) (hu : u ≠ t) :
    (s.setPc t pc).Inside u ↔ s.Inside u :=
  inside_congr (by rw [setPc_of_ne pc hu]) Iff.rfl

theorem Abstracts.inside_none (h : Abstracts s i) : i.inside = none ↔ ∀ t, ¬ s.Inside t := by
  constructor
  · intro hn t ht
    rw [(h.inside t).mpr ht] at hn
    cases hn
  · intro hn
    cases hi : i.inside with
    | none => rfl
    | some t => exact absurd ((h.inside t).mp hi) (hn t)

/-- Nobody holds the lock while everybody is outside. -/
theorem Abstracts.free (h : Abstracts s i) (hout : ∀ t, s.pc t = .outside) : s.holder = none := by
  cases hs : s.holder with
  | none => rfl
  | some t =>
    have hh := h.holding t hs
    rw [hout t] at hh
    cases hh

/-- `run_cli` is outside the lock but in the three places where it takes it. -/
theorem LockInv.cli_outside (hi : LockInv s) (hb : ∀ b, s.cli ≠ .api b) : s.pc .cli = .outside :=
  Decidable.byContradiction fun hp => by
    obtain ⟨b, hb'⟩ := hi.cli hp
    exact hb b hb'

theorem LockInv.not_finalize (hi : LockInv s) (hp : s.pc t ≠ .outside)
    (happ : ∀ n, t = .app n → s.cli ≠ .finalize) : s.cli ≠ .finalize := by
  cases t with
  | cli =>
    obtain ⟨b, hb⟩ := hi.cli hp
    rw [hb]
    exact nofun
  | app n => exact happ n rfl

/-- The task that has the lock and is in no call: nobody is in one. -/
theorem LockInv.nobody_inside (hi : LockInv s) (hf : s.cli ≠ .finalize)
    (hh : (s.pc t).holding = true) (hc : s.pc t ≠ .inCall) (u : ApiTask) : ¬ s.Inside u := by
  intro hu
  have hut : t = u := Option.some.inj ((hi.holder t hh).symm.trans (hi.inside_holder hf hu))
  subst hut
  cases t with
  | cli => exact hu.elim hc hf
  | app n => exact hc hu

/-! ## The steps -/

theorem lin_lock (h : Abstracts s i) (hinv : LockInv s') (hs : s.step (.lock t) = some s') :
    Abstracts s' i := by
  simp only [LockSys.step] at hs
  split at hs
  · rename_i hg
    cases hs
    exact h.stutter hinv (setPc_same (by simp [hg.1]) (by rw [hg.1]; rfl))
      Iff.rfl rfl rfl
  · cases hs

theorem lin_take (h : Abstracts s i) (hinv : LockInv s') (hs : s.step (.take t) = some s') :
    Abstracts s' i := by
  simp only [LockSys.step] at hs
  split at hs
  · rename_i m hp
    cases hs
    exact h.stutter hinv (setPc_same (by simp [hp]) (by rw [hp]; rfl)) Iff.rfl
      rfl rfl
  · cases hs

theorem lin_unlock (h : Abstracts s i) (hinv : LockInv s') (hs : s.step (.unlock t) = some s') :
    Abstracts s' i := by
  simp only [LockSys.step] at hs
  split at hs
  · rename_i hp
    cases hs
    exact h.stutter hinv (setPc_same (by simp [hp]) (by rw [hp]; rfl)) Iff.rfl
      rfl rfl
  · cases hs

theorem lin_granted (h : Abstracts s i) (hinv : LockInv s') (hs : s.step (.granted t) = some s') :
    ∃ i', i.step (.acquire t) = some i' ∧ Abstracts s' i' := by
  simp only [LockSys.step] at hs
  split at hs
  · rename_i m hp
    split at hs
    · rename_i hg
      cases hs
      refine ⟨{ i with holder := some t }, if_pos (h.holder.trans hg.2.2), hinv, ?_, rfl, ?_,
        h.reset⟩
      · rintro u hu
        cases hu
        exact congrArg ApiPc.holding (setPc_self .locked)
      · intro u
        have hsame : (s.setPc t .locked).Inside u ↔ s.Inside u :=
          inside_setPc (by simp [hp])
        exact (h.inside u).trans hsame.symm
    · cases hs
  · cases hs

theorem lin_callBegin (h : Abstracts s i) (hq : s.Quiet (.callBegin t)) (hinv : LockInv s')
    (hs : s.step (.callBegin t) = some s') :
    ∃ i', i.step (.enter t) = some i' ∧ Abstracts s' i' := by
  simp only [LockSys.step] at hs
  split at hs
  · rename_i hp
    cases hs
    have hf : s.cli ≠ .finalize := by
      refine h.inv.not_finalize (t := t) (by simp [hp]) ?_
      rintro n rfl
      exact hq
    have hnone := h.inv.nobody_inside hf (t := t) (by rw [hp]; rfl) (by simp [hp])
    have hholder : i.holder = some t := h.holder.trans (h.inv.holder t (by rw [hp]; rfl))
    refine ⟨{ i with inside := some t }, if_pos ⟨hholder, h.inside_none.mpr hnone⟩, hinv, ?_,
      h.holder, ?_, h.reset⟩
    · intro u hu
      have hut := h.holding u hu
      by_cases hut' : u = t
      · subst hut'
        rw [setPc_self]
        rfl
      · rw [setPc_of_ne _ hut']
        exact hut
    · intro u
      constructor
      · intro hu
        cases hu
        cases t with
        | cli => exact .inl (setPc_self .inCall)
        | app n => exact setPc_self .inCall
      · intro hu
        by_cases hut : u = t
        · rw [hut]
        · exact absurd ((inside_setPc_of_ne .inCall hut).mp hu) (hnone u)
  · cases hs

theorem lin_otPlatReset (h : Abstracts s i) (hinv : LockInv s')
    (hs : s.step (.otPlatReset t) = some s') :
    ∃ i', i.step (.requestReset t) = some i' ∧ Abstracts s' i' := by
  simp only [LockSys.step] at hs
  split at hs
  · rename_i hp
    cases hs
    have hin : s.Inside t := by
      cases t with
      | cli => exact .inl hp
      | app n => exact hp
    exact ⟨{ i with resetRequested := true }, if_pos ((h.inside t).mpr hin), hinv, h.holding,
      h.holder, fun u => (h.inside u).trans (inside_congr Iff.rfl Iff.rfl).symm, rfl⟩
  · cases hs

theorem lin_callEnd (h : Abstracts s i) (hinv : LockInv s')
    (hs : s.step (.callEnd t) = some s') :
    ∃ i', i.step (.leave t) = some i' ∧ Abstracts s' i' := by
  simp only [LockSys.step] at hs
  split at hs
  · rename_i hp
    cases hs
    have hf : s.cli ≠ .finalize := by
      refine h.inv.not_finalize (t := t) (by simp [hp]) ?_
      rintro n rfl hf
      exact h.inv.finalize hf n hp
    have hin : s.Inside t := by
      cases t with
      | cli => exact .inl hp
      | app n => exact hp
    have hholder : i.holder = some t := h.holder.trans (h.inv.holder t (by rw [hp]; rfl))
    have hnone : ∀ u, ¬ (s.setPc t .locked).Inside u :=
      hinv.nobody_inside hf (t := t) (by rw [setPc_self]; rfl) (by simp [setPc_self])
    refine ⟨{ i with inside := none }, if_pos ⟨hholder, (h.inside t).mpr hin⟩, hinv, ?_, h.holder,
      fun u => ⟨by simp, fun hu => absurd hu (hnone u)⟩, h.reset⟩
    intro u hu
    have hut := h.holding u hu
    by_cases hut' : u = t
    · subst hut'
      rw [setPc_self]
      rfl
    · rw [setPc_of_ne _ hut']
      exact hut
  · cases hs

theorem afterUnlock_same :
    (s.afterUnlock t).pc = s.pc ∧ (s.afterUnlock t).holder = s.holder ∧
      (s.afterUnlock t).gPlatformPseudoResetWasRequested = s.gPlatformPseudoResetWasRequested ∧
      ((s.afterUnlock t).cli = .finalize ↔ s.cli = .finalize) := by
  cases t with
  | app n => exact ⟨rfl, rfl, rfl, Iff.rfl⟩
  | cli =>
    unfold LockSys.afterUnlock
    dsimp only
    split
    · rename_i b hb
      refine ⟨rfl, rfl, rfl, ?_⟩
      rw [hb]
      cases b <;> exact ⟨nofun, nofun⟩
    · exact ⟨rfl, rfl, rfl, Iff.rfl⟩

theorem lin_give (h : Abstracts s i) (hinv : LockInv s') (hs : s.step (.give t) = some s') :
    ∃ i', i.step (.release t) = some i' ∧ Abstracts s' i' := by
  simp only [LockSys.step] at hs
  split at hs
  · rename_i m hp
    cases hs
    have hh : s.holder = some t := h.inv.holder t (by rw [hp]; rfl)
    have hm : m = s.live := (h.inv.handle t m (by rw [hp]; rfl)).2
    have hnot : ¬ s.Inside t := by
      cases t with
      | cli =>
        rintro (hc | hc)
        · rw [hp] at hc
          cases hc
        · exact h.inv.not_finalize (t := .cli) (by simp [hp]) (by simp) hc
      | app n =>
        intro hc
        rw [show s.pc (.app n) = .inCall from hc] at hp
        cases hp
    obtain ⟨hpc, hho, hre, hcli⟩ := afterUnlock_same (t := t) (s := { s.setPc t .outside with
      holder := if m = s.live ∧ s.holder = some t then none else s.holder })
    rw [if_pos ⟨hm, hh⟩] at hpc hho hre hcli hinv ⊢
    refine ⟨{ i with holder := none }, if_pos ⟨h.holder.trans hh, fun hin => hnot ((h.inside t).mp
      hin)⟩, hinv, ?_, hho.symm, ?_, h.reset.trans hre.symm⟩
    · intro u hu
      rw [hho] at hu
      cases hu
    · intro u
      have hsame : (s.setPc t .outside).Inside u ↔ s.Inside u :=
        inside_setPc (by simp [hp])
      refine ((h.inside u).trans hsame.symm).trans (inside_congr ?_ hcli).symm
      rw [hpc]
  · cases hs

/-- A step of `run_cli` that moves it to a place outside `otInstanceFinalize`, from another one. -/
theorem Abstracts.moveCli (h : Abstracts s i) (hinv : LockInv s') (hpc : s'.pc = s.pc)
    (hholder : s'.holder = s.holder)
    (hreset : s'.gPlatformPseudoResetWasRequested = s.gPlatformPseudoResetWasRequested)
    (hcli : s.cli ≠ .finalize) (hcli' : s'.cli ≠ .finalize) : Abstracts s' i :=
  h.stutter hinv (fun t => by rw [hpc]; exact ⟨Iff.rfl, rfl⟩)
    ⟨fun hf => absurd hf hcli', fun hf => absurd hf hcli⟩ hholder hreset

theorem not_inside (hout : s.pc .cli = .outside) (hcli : s.cli ≠ .finalize)
    (happ : ∀ n, s.pc (.app n) ≠ .inCall) (t : ApiTask) : ¬ s.Inside t := by
  intro ht
  cases t with
  | cli =>
    rcases ht with ht | ht
    · rw [hout] at ht
      cases ht
    · exact hcli ht
  | app n => exact happ n ht

theorem lin_finalize (h : Abstracts s i) (hinv : LockInv { s with cli := .finalize })
    (hout : s.pc .cli = .outside) (hc : s.cli ≠ .finalize) :
    ∃ i', i.step .finalize = some i' ∧ Abstracts { s with cli := .finalize } i' := by
  have hnone : ∀ t, ¬ s.Inside t := not_inside hout hc (hinv.finalize rfl)
  refine ⟨{ i with inside := some .cli }, if_pos (h.inside_none.mpr hnone), hinv, h.holding,
    h.holder, ?_, h.reset⟩
  intro t
  constructor
  · intro ht
    cases ht
    exact .inr rfl
  · intro ht
    cases t with
    | cli => rfl
    | app n => exact absurd ht (hinv.finalize rfl n)

theorem lin_finalized (h : Abstracts s i) (hinv : LockInv { s with cli := .deleteMutex })
    (hc : s.cli = .finalize) :
    ∃ i', i.step .finalized = some i' ∧ Abstracts { s with cli := .deleteMutex } i' := by
  have hout : s.pc .cli = .outside := h.inv.cli_outside (by simp [hc])
  have hnone : ∀ t, ¬ ({ s with cli := .deleteMutex } : LockSys).Inside t :=
    not_inside hout nofun (h.inv.finalize hc)
  exact ⟨{ i with inside := none }, if_pos ((h.inside .cli).mpr (.inr hc)), hinv, h.holding,
    h.holder, fun t => ⟨by simp, fun ht => absurd ht (hnone t)⟩, h.reset⟩

theorem lin_initFlag (h : Abstracts s i)
    (hinv : LockInv { s with gPlatformPseudoResetWasRequested := false, cli := .initMutex })
    (hc : s.cli = .initFlag) :
    ∃ i', i.step .clearReset = some i' ∧
      Abstracts { s with gPlatformPseudoResetWasRequested := false, cli := .initMutex } i' := by
  have hout := h.inv.away (by rw [hc]; rfl)
  have happ : ∀ n, s.pc (.app n) ≠ .inCall := by
    intro n
    rw [hout]
    exact nofun
  have hnone : ∀ t, ¬ s.Inside t := not_inside (hout .cli) (by simp [hc]) happ
  have hnone' : ∀ t, ¬ ({ s with
      gPlatformPseudoResetWasRequested := false, cli := .initMutex } : LockSys).Inside t :=
    not_inside (hout .cli) nofun happ
  exact ⟨{ i with resetRequested := false },
    if_pos ⟨h.holder.trans (h.free hout), h.inside_none.mpr hnone⟩, hinv, h.holding, h.holder,
    fun t => ⟨fun hi => absurd ((h.inside t).mp hi) (hnone t), fun ht => absurd ht (hnone' t)⟩, rfl⟩

theorem lin_cliStep (h : Abstracts s i) (hq : s.Quiet .cliStep) (hinv : LockInv s')
    (hs : s.step .cliStep = some s') :
    ∃ i', exec Instance.step i (s.lin .cliStep) = some i' ∧ Abstracts s' i' := by
  have hs : s.cliStep = some s' := hs
  have hout : (∀ b, s.cli ≠ .api b) → s.pc .cli = .outside := h.inv.cli_outside
  unfold LockSys.cliStep at hs
  unfold LockSys.lin
  cases hc : s.cli with
  | initFlag =>
    rw [hc] at hs
    cases hs
    obtain ⟨i', hi, ha⟩ := lin_initFlag h hinv hc
    exact ⟨i', exec_single hi, ha⟩
  | check =>
    rw [hc] at hs
    simp only at hs ⊢
    split at hs
    · rename_i hr
      cases hs
      obtain ⟨i', hi, ha⟩ := lin_finalize h hinv (hout (by simp [hc]))
        (by simp [hc])
      rw [if_pos hr]
      exact ⟨i', exec_single hi, ha⟩
    · rename_i hr
      cases hs
      rw [if_neg hr]
      exact ⟨i, rfl, h.moveCli hinv rfl rfl rfl (by simp [hc]) nofun⟩
  | finalize =>
    rw [hc] at hs
    cases hs
    obtain ⟨i', hi, ha⟩ := lin_finalized h hinv hc
    exact ⟨i', exec_single hi, ha⟩
  | deleteMutex =>
    rw [hc] at hs
    cases hs
    have hall : ∀ t, s.pc t = .outside := by
      intro t
      cases t with
      | cli => exact hout (by simp [hc])
      | app n => exact hq.2 hc n
    exact ⟨i, rfl, h.moveCli hinv rfl (h.free hall).symm rfl (by simp [hc]) nofun⟩
  | api b =>
    rw [hc] at hs
    cases hs
  | _ =>
    rw [hc] at hs
    cases hs
    exact ⟨i, rfl, h.moveCli hinv rfl rfl rfl (by simp [hc]) nofun⟩

/-! ## The refinement -/

theorem lock_simulates :
    Simulates LockSys.step Instance.step LockSys.lin LockSys.Quiet Abstracts := by
  intro s i a s' h hq hs
  have hinv := step_lockInv h.inv hq hs
  cases a with
  | lock t => exact ⟨i, rfl, lin_lock h hinv hs⟩
  | take t => exact ⟨i, rfl, lin_take h hinv hs⟩
  | unlock t => exact ⟨i, rfl, lin_unlock h hinv hs⟩
  | cliStep => exact lin_cliStep h hq hinv hs
  | granted t =>
    obtain ⟨i', hi, ha⟩ := lin_granted h hinv hs
    exact ⟨i', exec_single hi, ha⟩
  | callBegin t =>
    obtain ⟨i', hi, ha⟩ := lin_callBegin h hq hinv hs
    exact ⟨i', exec_single hi, ha⟩
  | otPlatReset t =>
    obtain ⟨i', hi, ha⟩ := lin_otPlatReset h hinv hs
    exact ⟨i', exec_single hi, ha⟩
  | callEnd t =>
    obtain ⟨i', hi, ha⟩ := lin_callEnd h hinv hs
    exact ⟨i', exec_single hi, ha⟩
  | give t =>
    obtain ⟨i', hi, ha⟩ := lin_give h hinv hs
    exact ⟨i', exec_single hi, ha⟩

theorem init_abstracts : Abstracts .init .init where
  inv := init_lockInv
  holding _ h := by cases h
  holder := rfl
  inside t := by
    refine ⟨nofun, fun h => ?_⟩
    cases t with
    | cli => rcases h with h | h <;> cases h
    | app n => cases h
  reset := rfl

/-- Every quiet run, over any number of pseudo resets, is a run of the instance with its one lock:
the same task holds it, the same task is inside OpenThread, and the same reset is asked for. -/
theorem lock_refines (as : List LockAct) (s : LockSys)
    (hq : AtSteps LockSys.step .init as fun _ s a => s.Quiet a)
    (h : exec LockSys.step .init as = some s) :
    ∃ i, exec Instance.step .init (trace LockSys.step LockSys.lin .init as) = some i ∧
      i.holder = s.holder ∧ (∀ t, i.inside = some t ↔ s.Inside t) ∧
      i.resetRequested = s.gPlatformPseudoResetWasRequested := by
  obtain ⟨i, hi, ha⟩ := lock_simulates.run init_abstracts hq h
  exact ⟨i, hi, ha.holder, ha.inside, ha.reset⟩

/-- Across a reset that an application task asked for, the second `otInstanceInit` is inside. -/
theorem lock_refines_reset :
    ∃ s i, exec LockSys.step .init quietRun = some s ∧
      exec Instance.step .init (trace LockSys.step LockSys.lin .init quietRun) = some i ∧
      i.inside = some .cli ∧
      i.holder = s.holder ∧ (∀ t, i.inside = some t ↔ s.Inside t) ∧
      i.resetRequested = s.gPlatformPseudoResetWasRequested := by
  obtain ⟨i, hi, hholder, hinside, hreset⟩ := lock_refines quietRun _ quietRun_quiet rfl
  exact ⟨_, i, rfl, hi, (hinside .cli).mpr (.inl rfl), hholder, hinside, hreset⟩

/-! ## Nobody waits in vain -/

/-- The steps that the holder of the lock takes to give it back. -/
def ApiPc.toGive : ApiPc → Nat
  | .inCall => 3
  | .locked => 2
  | .giving _ => 1
  | _ => 0

/-- A step of the task `u` on its way out of the lock. -/
def LockAct.LetsGo (u : ApiTask) (a : LockAct) : Prop :=
  a = .callEnd u ∨ a = .unlock u ∨ a = .give u

theorem LockAct.LetsGo.quiet {u : ApiTask} (h : LockAct.LetsGo u a) : s.Quiet a := by
  rcases h with rfl | rfl | rfl <;> trivial

/-- While `t` waits, the lock is free or `u` has it. -/
structure WaitsFor (t u : ApiTask) (m : Option Nat) (s : LockSys) : Prop where
  inv : LockInv s
  waits : s.pc t = .waiting m
  holder : s.holder = none ∨ (s.holder = some u ∧ (s.pc u).holding = true)

variable {u : ApiTask} {m : Option Nat}

theorem WaitsFor.ne (hw : WaitsFor t u m s) (hh : (s.pc u).holding = true) : t ≠ u := by
  rintro rfl
  rw [hw.waits] at hh
  cases hh

theorem WaitsFor.move (hw : WaitsFor t u m s) (hu : s.holder = some u) {pc : ApiPc}
    (hne : t ≠ u) (hinv : LockInv (s.setPc u pc)) (hh : pc.holding = true) :
    WaitsFor t u m (s.setPc u pc) where
  inv := hinv
  waits := by
    rw [setPc_of_ne pc hne]
    exact hw.waits
  holder := .inr ⟨hu, by rw [setPc_self]; exact hh⟩

/-- The holder goes on whatever it is at, until the lock is free. -/
theorem holder_goes_on (hw : WaitsFor t u m s) (hfree : ¬ s.holder = none) :
    ∃ a s', LockAct.LetsGo u a ∧ s.step a = some s' ∧ WaitsFor t u m s' ∧
      (s'.pc u).toGive < (s.pc u).toGive := by
  obtain ⟨hu, hh⟩ := hw.holder.resolve_left hfree
  have hne := hw.ne hh
  cases hp : s.pc u with
  | inCall =>
    have hs : s.step (.callEnd u) = some (s.setPc u .locked) := if_pos hp
    have ha : LockAct.LetsGo u (.callEnd u) := .inl rfl
    refine ⟨_, _, ha, hs, hw.move hu hne (step_lockInv hw.inv ha.quiet hs) rfl, ?_⟩
    rw [setPc_self]
    exact Nat.lt_succ_self 2
  | locked =>
    have hs : s.step (.unlock u) = some (s.setPc u (.giving s.sApiMutex)) := if_pos hp
    have ha : LockAct.LetsGo u (.unlock u) := .inr (.inl rfl)
    refine ⟨_, _, ha, hs, hw.move hu hne (step_lockInv hw.inv ha.quiet hs) rfl, ?_⟩
    rw [setPc_self]
    exact Nat.lt_succ_self 1
  | giving m' =>
    have hm : m' = s.live := (hw.inv.handle u m' (by rw [hp]; rfl)).2
    obtain ⟨hpc, hho, -⟩ := afterUnlock_same (t := u) (s := { s.setPc u .outside with
      holder := if m' = s.live ∧ s.holder = some u then none else s.holder })
    have hs : s.step (.give u) = some ({ s.setPc u .outside with
        holder := if m' = s.live ∧ s.holder = some u then none else s.holder }.afterUnlock u) := by
      simp only [LockSys.step, hp]
    have ha : LockAct.LetsGo u (.give u) := .inr (.inr rfl)
    refine ⟨_, _, ha, hs, ⟨step_lockInv hw.inv ha.quiet hs, ?_, .inl ?_⟩, ?_⟩
    · rw [hpc]
      exact (setPc_of_ne .outside hne).trans hw.waits
    · rw [hho]
      exact if_pos ⟨hm, hu⟩
    · rw [hpc]
      show ((s.setPc u .outside).pc u).toGive < 1
      rw [setPc_self]
      exact Nat.zero_lt_succ 0
  | _ =>
    rw [hp] at hh
    cases hh

theorem toGive_le (pc : ApiPc) : pc.toGive ≤ 3 := by
  cases pc <;> simp [ApiPc.toGive]

/-- A task that waits for a lock that is free gets it. -/
theorem granted_step (hw : WaitsFor t u m s) (hfree : s.holder = none) :
    ∃ s', s.step (.granted t) = some s' ∧ s'.pc t = .locked ∧ s'.holder = some t := by
  have hh := hw.inv.handle t m (by rw [hw.waits]; rfl)
  refine ⟨{ s.setPc t .locked with holder := some t }, ?_, setPc_self .locked, rfl⟩
  simp only [LockSys.step, hw.waits]
  rw [if_pos ⟨hh.1, hh.2, hfree⟩]

/-- In every state that a quiet run reaches, a task that waits for the mutex is granted it after at
most three steps of the task that holds it. -/
theorem waiting_granted (as : List LockAct) (s : LockSys)
    (hq : AtSteps LockSys.step .init as fun _ s a => s.Quiet a)
    (h : exec LockSys.step .init as = some s) (t : ApiTask) (m : Option Nat)
    (hw : s.pc t = .waiting m) :
    ∃ bs s', bs.length ≤ 3 ∧ (∀ b ∈ bs, ∃ u, s.holder = some u ∧ LockAct.LetsGo u b) ∧
      exec LockSys.step s (bs ++ [.granted t]) = some s' ∧ s'.pc t = .locked ∧
      s'.holder = some t := by
  obtain ⟨i, -, ha⟩ := lock_simulates.run init_abstracts hq h
  cases hu : s.holder with
  | none =>
    obtain ⟨s', hs, hrest⟩ := granted_step (u := t) ⟨ha.inv, hw, .inl hu⟩ hu
    exact ⟨[], s', Nat.zero_le _, by simp, exec_single hs, hrest⟩
  | some u =>
    obtain ⟨bs, s1, he, hfree, hw1, hlen, hall⟩ := reaches (WaitsFor t u m)
      (fun s => s.holder = none) (LockAct.LetsGo u) (fun s => (s.pc u).toGive)
      (fun s hw hf => holder_goes_on hw hf) ⟨ha.inv, hw, .inr ⟨hu, ha.holding u hu⟩⟩
    obtain ⟨s', hs, hrest⟩ := granted_step hw1 hfree
    refine ⟨bs, s', Nat.le_trans hlen (toGive_le _), fun b hb => ⟨u, rfl, hall b hb⟩, ?_, hrest⟩
    rw [exec_append he]
    exact exec_single hs

/-- An application task waits while `run_cli` is in the lock. -/
def waitRun : List LockAct :=
  [.cliStep, .cliStep] ++ otSysApiLock .cli ++ otSysApiUnlock .cli ++ [.cliStep] ++
    otSysApiLock .cli ++ [.lock (.app 0), .take (.app 0)]

theorem waitRun_quiet : AtSteps LockSys.step .init waitRun fun _ s a => s.Quiet a := by
  refine .cons rfl ?_ (.cons rfl ?_ (.cons rfl ?_ (.cons rfl ?_ (.cons rfl ?_ (.cons rfl ?_
    (.cons rfl ?_ (.cons rfl ?_ (.cons rfl ?_ (.cons rfl ?_ (.cons rfl ?_ (.cons rfl ?_
    (.cons rfl ?_ .nil))))))))))))
  all_goals first
    | trivial
    | exact ⟨nofun, nofun⟩

theorem waiting_granted_app :
    ∃ s, exec LockSys.step .init waitRun = some s ∧ s.holder = some .cli ∧
      ∃ bs s', bs.length ≤ 3 ∧ (∀ b ∈ bs, ∃ u, s.holder = some u ∧ LockAct.LetsGo u b) ∧
        exec LockSys.step s (bs ++ [.granted (.app 0)]) = some s' ∧ s'.pc (.app 0) = .locked ∧
        s'.holder = some (.app 0) :=
  ⟨_, rfl, rfl, waiting_granted waitRun _ waitRun_quiet rfl (.app 0) (some 0) rfl⟩

end OtEsp32
