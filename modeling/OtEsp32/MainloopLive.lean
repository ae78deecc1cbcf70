import OtEsp32.EventLive
import OtEsp32.LockRefine
import OtEsp32.MainloopSleep

/-!
# MainloopLive

The main loop with its application tasks (`MainloopSleep`) is a run of the instance with its lock
(`LockRefine`) and a run of the event device (`EventSelect`), so what holds of these holds of it:
OpenThread runs in one task at a time, and no write of the event is lost on its way.

`mainloop_returns`: from wherever the tasks have come to, `run_cli` gets back to the check of the
reset flag, with at most one step of another task.
-/

namespace OtEsp32

open Lts

/-- Between `otSysApiLock` and `otSysApiUnlock`. -/
def SleepPc.locked : SleepPc → Bool
  | .tasklets | .updated | .process => true
  | _ => false

/-- Where `run_cli` is agrees with the lock and with the select. -/
structure LoopShape (s : SleepSys) : Prop where
  locked : s.cli.locked = true ↔ s.apiLock = some .cli
  polling : s.sel.main = .idle ↔ s.cli ≠ .inPoll
  sel : LockHeld s.sel

variable {fds : Fds} {s s' : SleepSys} {a : SleepAct} {i : Instance}

theorem init_loopShape (us : Nat) (alarm : Alarm) (reset : Bool) :
    LoopShape (.init us alarm reset) :=
  ⟨⟨nofun, nofun⟩, ⟨nofun, fun _ => rfl⟩, ⟨⟨fun _ => rfl, fun _ => rfl⟩, rfl⟩⟩

/-! ## The steps -/

theorem event_locked {pc pc' : SleepPc} {b : SelAct} (h : pc.event b = some pc') :
    pc'.locked = pc.locked := by
  unfold SleepPc.event at h
  split at h <;> cases h <;> rfl

/-- The `select` runs exactly while `run_cli` is in `otSysMainloopPoll`. -/
theorem event_polling {pc pc' : SleepPc} {d d' : SelSys} {b : SelAct}
    (h : pc.event b = some pc') (hd : d.step b = some d')
    (hp : d.main = .idle ↔ pc ≠ .inPoll) : d'.main = .idle ↔ pc' ≠ .inPoll := by
  unfold SleepPc.event at h
  cases step_moves hd
  all_goals split at h <;> first | contradiction | cases h
  all_goals first
    | exact hp
    | exact ⟨nofun, fun hne => absurd rfl hne⟩
    | exact ⟨fun _ => nofun, fun _ => rfl⟩

theorem LoopShape.event (hi : LoopShape s) {b : SelAct} {pc : SleepPc} {sel : SelSys}
    (hpc : s.cli.event b = some pc) (hsel : s.sel.step b = some sel) :
    LoopShape { s with cli := pc, sel := sel } where
  locked := by
    show pc.locked = true ↔ s.apiLock = some .cli
    rw [event_locked hpc]
    exact hi.locked
  polling := event_polling hpc hsel hi.polling
  sel := step_lockHeld hi.sel hsel

/-- `run_cli` moves on without the device. -/
theorem LoopShape.moveCli (hi : LoopShape s) {pc : SleepPc} {apiLock : Option ApiTask}
    (hl : pc.locked = true ↔ apiLock = some .cli) (hp : s.cli ≠ .inPoll) (hp' : pc ≠ .inPoll) :
    LoopShape { s with cli := pc, apiLock := apiLock } :=
  ⟨hl, ⟨fun _ => hp', fun _ => hi.polling.mpr hp⟩, hi.sel⟩

theorem step_loopShape (hi : LoopShape s) (h : s.step fds a = some s') : LoopShape s' := by
  cases a with
  | lock t =>
    cases t with
    | cli =>
      simp only [SleepSys.step] at h
      split at h
      · rename_i pc hpc
        split at h
        · cases h
          unfold SleepPc.lock at hpc
          split at hpc <;> cases hpc
          all_goals
            rename_i hc
            exact hi.moveCli ⟨fun _ => rfl, fun _ => rfl⟩ (by simp [hc]) (by simp)
        · cases h
      · cases h
    | app n =>
      simp only [SleepSys.step] at h
      split at h
      · rename_i hfree
        cases h
        refine ⟨⟨fun hl => ?_, by simp⟩, hi.polling, hi.sel⟩
        rw [hi.locked.mp hl] at hfree
        cases hfree
      · cases h
  | unlock t =>
    cases t with
    | cli =>
      simp only [SleepSys.step] at h
      split at h
      · rename_i pc hpc
        cases h
        unfold SleepPc.unlock at hpc
        split at hpc <;> cases hpc
        all_goals
          rename_i hc
          exact hi.moveCli (by simp [SleepPc.locked]) (by simp [hc]) (by simp)
      · cases h
    | app n =>
      simp only [SleepSys.step] at h
      split at h
      · rename_i hheld
        cases h
        refine ⟨⟨fun hl => ?_, by simp⟩, hi.polling, hi.sel⟩
        rw [hi.locked.mp hl] at hheld
        cases hheld
      · cases h
  | check =>
    simp only [SleepSys.step] at h
    split at h
    · rename_i hc
      have hfree : ∀ {pc : SleepPc}, pc.locked = false →
          (pc.locked = true ↔ s.apiLock = some .cli) := by
        intro pc hpc
        rw [hpc, ← hi.locked, hc]
        simp [SleepPc.locked]
      split at h
      · cases h
        exact hi.moveCli (hfree rfl) (by simp [hc]) (by simp)
      · cases h
        have hm : LoopShape { s with cli := .beforeTasklets } :=
          hi.moveCli (hfree rfl) (by simp [hc]) (by simp)
        exact ⟨hm.locked, hm.polling, hm.sel⟩
    · cases h
  | otSysMainloopUpdate =>
    simp only [SleepSys.step] at h
    split at h
    · rename_i hc
      cases h
      have hl : s.apiLock = some .cli := hi.locked.mp (by rw [hc]; rfl)
      exact ⟨⟨fun _ => hl, fun _ => rfl⟩,
        ⟨fun _ => by simp, fun _ => hi.polling.mpr (by simp [hc])⟩, hi.sel⟩
    · cases h
  | event b =>
    simp only [SleepSys.step] at h
    split at h
    · rename_i pc sel hpc hsel
      cases h
      exact hi.event hpc hsel
    · cases h
  | advance us =>
    cases h
    exact ⟨hi.locked, hi.polling, hi.sel⟩
  | _ =>
    simp only [SleepSys.step] at h
    split at h
    · cases h
      exact ⟨hi.locked, hi.polling, hi.sel⟩
    · cases h

theorem run_loopShape {us : Nat} {alarm : Alarm} {reset : Bool} {as : List SleepAct}
    (h : exec (SleepSys.step fds) (.init us alarm reset) as = some s) : LoopShape s :=
  exec_inv' LoopShape (init_loopShape us alarm reset) (fun _ _ _ => step_loopShape) h

/-! ## The instance and the device of the loop -/

/-- `otSysMainloopUpdate` is a call of OpenThread too, so `run_cli` is inside one as long as it has
the lock. -/
def SleepSys.lin : SleepSys → SleepAct → List InstanceAct
  | _, .lock t => [.acquire t, .enter t]
  | _, .unlock t => [.leave t, .release t]
  | _, .otPlatReset t => [.requestReset t]
  | _, _ => []

/-- The steps of the event device. -/
def SleepSys.device : SleepSys → SleepAct → List SelAct
  | _, .event b => [b]
  | _, _ => []

structure Runs (s : SleepSys) (i : Instance) : Prop where
  shape : LoopShape s
  holder : i.holder = s.apiLock
  inside : i.inside = s.apiLock
  reset : i.resetRequested = s.gPlatformPseudoResetWasRequested

theorem LoopShape.holds (hi : LoopShape s) {t : ApiTask} (h : s.runsOpenThread t = true) :
    s.apiLock = some t := by
  cases t with
  | cli =>
    apply hi.locked.mp
    simp only [SleepSys.runsOpenThread, decide_eq_true_eq] at h
    rcases h with h | h <;> rw [h] <;> rfl
  | app n => simpa [SleepSys.runsOpenThread] using h

/-- `t` takes the lock where it is free. -/
theorem step_lock {t : ApiTask} (h : s.step fds (.lock t) = some s') :
    s.apiLock = none ∧ s'.apiLock = some t ∧
      s'.gPlatformPseudoResetWasRequested = s.gPlatformPseudoResetWasRequested := by
  cases t with
  | cli =>
    simp only [SleepSys.step] at h
    split at h
    · split at h
      · rename_i hfree
        cases h
        exact ⟨hfree, rfl, rfl⟩
      · cases h
    · cases h
  | app n =>
    simp only [SleepSys.step] at h
    split at h
    · rename_i hfree
      cases h
      exact ⟨hfree, rfl, rfl⟩
    · cases h

theorem step_unlock (hi : LoopShape s) {t : ApiTask} (h : s.step fds (.unlock t) = some s') :
    s.apiLock = some t ∧ s'.apiLock = none ∧
      s'.gPlatformPseudoResetWasRequested = s.gPlatformPseudoResetWasRequested := by
  cases t with
  | cli =>
    simp only [SleepSys.step] at h
    split at h
    · rename_i pc hpc
      cases h
      refine ⟨hi.locked.mp ?_, rfl, rfl⟩
      unfold SleepPc.unlock at hpc
      split at hpc <;> cases hpc
      all_goals
        rename_i hc
        rw [hc]
        rfl
    · cases h
  | app n =>
    simp only [SleepSys.step] at h
    split at h
    · rename_i hheld
      cases h
      exact ⟨hheld, rfl, rfl⟩
    · cases h

/-- The other steps change neither the lock nor the flag. -/
theorem step_unseen (h : s.step fds a = some s') (hl : s.lin a = []) :
    s'.apiLock = s.apiLock ∧
      s'.gPlatformPseudoResetWasRequested = s.gPlatformPseudoResetWasRequested := by
  cases a with
  | lock t => cases hl
  | unlock t => cases hl
  | otPlatReset t => cases hl
  | advance us =>
    cases h
    exact ⟨rfl, rfl⟩
  | _ =>
    simp only [SleepSys.step] at h
    repeat' split at h
    all_goals cases h
    all_goals exact ⟨rfl, rfl⟩

theorem mainloop_simulates :
    Simulates (SleepSys.step fds) Instance.step SleepSys.lin (fun _ _ => True) Runs := by
  rintro s i a s' ⟨hshape, hholder, hinside, hreset⟩ - h
  have hshape' := step_loopShape hshape h
  cases a with
  | lock t =>
    obtain ⟨hfree, htaken, hr⟩ := step_lock h
    refine ⟨{ i with holder := some t, inside := some t }, ?_, hshape', htaken.symm, htaken.symm,
      hreset.trans hr.symm⟩
    simp [SleepSys.lin, exec, Instance.step, hholder, hinside, hfree]
  | unlock t =>
    obtain ⟨hheld, hfree, hr⟩ := step_unlock hshape h
    refine ⟨{ i with holder := none, inside := none }, ?_, hshape', hfree.symm, hfree.symm,
      hreset.trans hr.symm⟩
    simp [SleepSys.lin, exec, Instance.step, hholder, hinside, hheld]
  | otPlatReset t =>
    simp only [SleepSys.step] at h
    split at h
    · rename_i hruns
      cases h
      exact ⟨{ i with resetRequested := true },
        exec_single (if_pos (hinside.trans (hshape.holds hruns))), hshape', hholder, hinside, rfl⟩
    · cases h
  | _ =>
    obtain ⟨hl, hr⟩ := step_unseen h rfl
    exact ⟨i, rfl, hshape', hholder.trans hl.symm, hinside.trans hl.symm, hreset.trans hr.symm⟩

theorem device_simulates :
    Simulates (SleepSys.step fds) SelSys.step SleepSys.device (fun _ _ => True)
      fun s d => d = s.sel := by
  rintro s d a s' rfl - h
  rcases step_sel h with ⟨b, rfl, hb⟩ | ⟨ha, hs⟩
  · exact ⟨s'.sel, exec_single hb, rfl⟩
  · refine ⟨s.sel, ?_, hs.symm⟩
    cases a with
    | event b => exact absurd rfl (ha b)
    | _ => rfl

/-- For every interleaving of `run_cli` and its application tasks: the run is one of the instance
with its lock, so that only the task inside runs OpenThread, and its event device is the one of
`EventSelect`. -/
theorem mainloop_refines (fds : Fds) (us : Nat) (alarm : Alarm) (reset : Bool)
    (as : List SleepAct) (s : SleepSys)
    (h : exec (SleepSys.step fds) (.init us alarm reset) as = some s) :
    (∃ i, exec Instance.step { Instance.init with resetRequested := reset }
        (trace (SleepSys.step fds) SleepSys.lin (.init us alarm reset) as) = some i ∧
      i.resetRequested = s.gPlatformPseudoResetWasRequested ∧
      ∀ t, s.runsOpenThread t = true → i.inside = some t) ∧
    exec SelSys.step .init (trace (SleepSys.step fds) SleepSys.device (.init us alarm reset) as) =
      some s.sel := by
  have hall : AtSteps (SleepSys.step fds) (.init us alarm reset) as fun _ _ _ => True :=
    fun _ _ _ _ _ _ => trivial
  obtain ⟨i, hi, hruns⟩ := mainloop_simulates.run
    (t := { Instance.init with resetRequested := reset })
    ⟨init_loopShape us alarm reset, rfl, rfl, rfl⟩ hall h
  obtain ⟨d, hd, rfl⟩ := device_simulates.run rfl hall h
  exact ⟨⟨i, hi, hruns.reset, fun t ht => hruns.inside.trans (hruns.shape.holds ht)⟩, hd⟩

theorem mainloop_refines_settled :
    ∃ s, exec (SleepSys.step ⟨8, 3, 4⟩) (.init 0 .init false) settledRun = some s ∧
      (∃ i, exec Instance.step { Instance.init with resetRequested := false }
          (trace (SleepSys.step ⟨8, 3, 4⟩) SleepSys.lin (.init 0 .init false) settledRun) = some i ∧
        i.resetRequested = s.gPlatformPseudoResetWasRequested ∧
        ∀ t, s.runsOpenThread t = true → i.inside = some t) ∧
      exec SelSys.step .init
        (trace (SleepSys.step ⟨8, 3, 4⟩) SleepSys.device (.init 0 .init false) settledRun) =
        some s.sel :=
  ⟨_, rfl, mainloop_refines ⟨8, 3, 4⟩ 0 .init false settledRun _ rfl⟩

/-! ## Back to the check -/

/-- The steps of the select that are left, with the `event_end_select`. -/
def SelPc.toEnd : SelPc → Nat
  | .idle => 0
  | .locked _ => 5
  | .stored _ => 4
  | .checked _ => 3
  | .asleep _ => 2
  | .awake _ => 1

/-- The steps of `run_cli` to the check of the flag. -/
def SleepPc.toCheck (main : SelPc) : SleepPc → Nat
  | .check | .left => 0
  | .process => 1
  | .beforeProcess => 2
  | .inPoll => 2 + main.toEnd
  | .beforePoll => 8
  | .updated => 9
  | .tasklets => 10
  | .beforeTasklets => 11

/-- A step of `run_cli`, or the end of a call of an application task. -/
def SleepAct.Returns : SleepAct → Prop
  | .lock .cli | .otSysMainloopUpdate => True
  | .unlock _ => True
  | .event (.incr _) | .event (.test _) | .event (.trigger _) | .event .read => False
  | .event _ => True
  | _ => False

/-- A step of an application task, those of its `otSysMainloopBreak` included. -/
def SleepAct.ofApp : SleepAct → Bool
  | .lock (.app _) | .unlock (.app _) | .otPlatReset (.app _) | .tasklets (.app _) _ => true
  | .otPlatAlarmMilliStartAt (.app _) _ _ | .otPlatAlarmMilliStop (.app _) => true
  | .event (.incr _) | .event (.test _) | .event (.trigger _) => true
  | _ => false

def SleepSys.AtCheck (s : SleepSys) : Prop := s.cli = .check ∨ s.cli = .left

/-- No application task has the lock. -/
def SleepSys.NoApp (s : SleepSys) : Prop := ∀ n, s.apiLock ≠ some (.app n)

/-- One step of `run_cli` nearer to the check. -/
def Nearer (fds : Fds) (s : SleepSys) : Prop :=
  ∃ a s', (SleepAct.Returns a ∧ a.ofApp = false) ∧ s.step fds a = some s' ∧
    (LoopShape s' ∧ s'.NoApp ∧
      s'.gPlatformPseudoResetWasRequested = s.gPlatformPseudoResetWasRequested) ∧
    s'.cli.toCheck s'.sel.main < s.cli.toCheck s.sel.main

theorem nearer_step (hi : LoopShape s) (hs : s.step fds a = some s')
    (ha : SleepAct.Returns a ∧ a.ofApp = false) (hn : s'.NoApp)
    (hf : s'.gPlatformPseudoResetWasRequested = s.gPlatformPseudoResetWasRequested)
    (hlt : s'.cli.toCheck s'.sel.main < s.cli.toCheck s.sel.main) : Nearer fds s :=
  ⟨a, s', ha, hs, ⟨step_loopShape hi hs, hn, hf⟩, hlt⟩

theorem nearer_event (hi : LoopShape s) (hn : s.NoApp) {b : SelAct} {pc : SleepPc} {sel : SelSys}
    (hsel : s.sel.step b = some sel) (hpc : s.cli.event b = some pc)
    (hb : SleepAct.Returns (.event b) ∧ (SleepAct.event b).ofApp = false)
    (hlt : pc.toCheck sel.main < s.cli.toCheck s.sel.main) : Nearer fds s := by
  have hs : s.step fds (.event b) = some { s with cli := pc, sel := sel } := by
    simp only [SleepSys.step, hpc, hsel]
  exact nearer_step hi hs hb hn rfl hlt

theorem toEnd_le (pc : SelPc) : pc.toEnd ≤ pc.underLock + 2 := by
  cases pc <;> simp [SelPc.toEnd, SelPc.underLock]

theorem toEnd_eq {pc : SelPc} (h : pc.underLock ≠ 0) : pc.toEnd = pc.underLock + 2 := by
  cases pc <;> first | rfl | exact absurd rfl h

/-- A step of the select other than its end. -/
theorem nearer_inPoll (hi : LoopShape s) (hn : s.NoApp) (hc : s.cli = .inPoll) {b : SelAct}
    {sel : SelSys}
    (hsel : s.sel.step b = some sel) (hb : SelAct.OfStart b ∨ b = .wake)
    (hlt : sel.main.toEnd < s.sel.main.toEnd) : Nearer fds s := by
  have hpc : SleepPc.inPoll.event b = some .inPoll := by
    rcases hb with (rfl | rfl | rfl) | rfl <;> rfl
  have hret : SleepAct.Returns (.event b) ∧ (SleepAct.event b).ofApp = false := by
    rcases hb with (rfl | rfl | rfl) | rfl <;> exact ⟨trivial, rfl⟩
  refine nearer_event hi hn hsel (by rw [hc]; exact hpc) hret ?_
  rw [hc]
  exact Nat.add_lt_add_left hlt 2

theorem nearer_poll (hi : LoopShape s) (hn : s.NoApp) (hc : s.cli = .inPoll) : Nearer fds s := by
  by_cases hu : s.sel.main.underLock = 0
  · cases hm : s.sel.main with
    | asleep sem =>
      have hsel : s.sel.step .wake = some { s.sel with main := .awake sem } := by
        simp only [SelSys.step, hm]
      refine nearer_inPoll hi hn hc hsel (.inr rfl) ?_
      rw [hm]
      exact Nat.lt_succ_self 1
    | awake sem =>
      have hsel : s.sel.step .endSelect =
          some { s.sel with main := .idle, dev := eventEndSelect s.sel.dev } := by
        simp only [SelSys.step, hm]
      refine nearer_event hi hn hsel (by rw [hc]; rfl) ⟨trivial, rfl⟩ ?_
      rw [hc, hm]
      exact Nat.lt_succ_self 2
    | idle => exact absurd hc (hi.polling.mp hm)
    | _ =>
      rw [hm] at hu
      cases hu
  · obtain ⟨b, sel, hb, hsel, -, hlt⟩ := start_goes_on hi.sel (mt hi.sel.held.mp hu)
    have hend := toEnd_le sel.main
    have heq := toEnd_eq hu
    exact nearer_inPoll hi hn hc hsel (.inl hb) (by omega)

/-- `run_cli` goes on when no application task has the lock. -/
theorem nearer_cli (hi : LoopShape s) (hn : s.NoApp) (hc : ¬ s.AtCheck) : Nearer fds s := by
  have hfree : s.cli.locked = false → s.apiLock = none := by
    intro hf
    cases hl : s.apiLock with
    | none => rfl
    | some t =>
      cases t with
      | cli =>
        rw [hi.locked.mpr hl] at hf
        cases hf
      | app n => exact absurd hl (hn n)
  cases hpc : s.cli with
  | check => exact absurd (.inl hpc) hc
  | left => exact absurd (.inr hpc) hc
  | inPoll => exact nearer_poll hi hn hpc
  | beforePoll =>
    have hidle : s.sel.main = .idle := hi.polling.mpr (by simp [hpc])
    have hlock : s.sel.lockFree = true := hi.sel.held.mpr (by rw [hidle]; rfl)
    have hsel : s.sel.step (.startLock true) = some { s.sel with
        lockFree := false
        main := .locked ⟨true, some s.sel.nextSem⟩
        nextSem := s.sel.nextSem + 1 } := if_pos ⟨hidle, hlock⟩
    refine nearer_event hi hn hsel (by rw [hpc]; rfl) ⟨trivial, rfl⟩ ?_
    rw [hpc]
    exact Nat.lt_succ_self 7
  | beforeTasklets =>
    have hs : s.step fds (.lock .cli) = some { s with apiLock := some .cli, cli := .tasklets } := by
      simp [SleepSys.step, hpc, SleepPc.lock, hfree (by rw [hpc]; rfl)]
    refine nearer_step hi hs ⟨trivial, rfl⟩ (by simp [SleepSys.NoApp]) rfl ?_
    rw [hpc]
    exact Nat.lt_succ_self _
  | beforeProcess =>
    have hs : s.step fds (.lock .cli) = some { s with apiLock := some .cli, cli := .process } := by
      simp [SleepSys.step, hpc, SleepPc.lock, hfree (by rw [hpc]; rfl)]
    refine nearer_step hi hs ⟨trivial, rfl⟩ (by simp [SleepSys.NoApp]) rfl ?_
    rw [hpc]
    exact Nat.lt_succ_self _
  | tasklets =>
    have hs : s.step fds .otSysMainloopUpdate = some _ := if_pos hpc
    refine nearer_step hi hs ⟨trivial, rfl⟩ hn rfl ?_
    rw [hpc]
    exact Nat.lt_succ_self _
  | updated =>
    have hs : s.step fds (.unlock .cli) = some { s with apiLock := none, cli := .beforePoll } := by
      simp [SleepSys.step, hpc, SleepPc.unlock]
    refine nearer_step hi hs ⟨trivial, rfl⟩ (by simp [SleepSys.NoApp]) rfl ?_
    rw [hpc]
    exact Nat.lt_succ_self _
  | process =>
    have hs : s.step fds (.unlock .cli) = some { s with apiLock := none, cli := .check } := by
      simp [SleepSys.step, hpc, SleepPc.unlock]
    refine nearer_step hi hs ⟨trivial, rfl⟩ (by simp [SleepSys.NoApp]) rfl ?_
    rw [hpc]
    exact Nat.lt_succ_self _

theorem toCheck_le (main : SelPc) (pc : SleepPc) : pc.toCheck main ≤ 11 := by
  have hm : main.toEnd ≤ 5 := by
    cases main <;> simp [SelPc.toEnd]
  cases pc <;> simp only [SleepPc.toCheck] <;> omega

theorem cli_to_check (fds : Fds) (hi : LoopShape s) (hn : s.NoApp) :
    ∃ bs s', exec (SleepSys.step fds) s bs = some s' ∧ s'.AtCheck ∧
      s'.gPlatformPseudoResetWasRequested = s.gPlatformPseudoResetWasRequested ∧
      bs.length ≤ 11 ∧ (∀ b ∈ bs, SleepAct.Returns b) ∧ bs.countP SleepAct.ofApp = 0 := by
  obtain ⟨bs, s', he, hat, ⟨-, -, hf⟩, hlen, hall⟩ := reaches
    (fun s1 => LoopShape s1 ∧ s1.NoApp ∧
      s1.gPlatformPseudoResetWasRequested = s.gPlatformPseudoResetWasRequested)
    SleepSys.AtCheck (fun a => SleepAct.Returns a ∧ a.ofApp = false)
    (fun s => s.cli.toCheck s.sel.main) (by
      rintro s1 ⟨hi, hn, hf⟩ hc
      have hnear : Nearer fds s1 := nearer_cli hi hn hc
      obtain ⟨a, s2, ha, hs, ⟨hi2, hn2, hf2⟩, hlt⟩ := hnear
      exact ⟨a, s2, ha, hs, ⟨hi2, hn2, hf2.trans hf⟩, hlt⟩)
    ⟨hi, hn, rfl⟩
  refine ⟨bs, s', he, hat, hf, Nat.le_trans hlen (toCheck_le _ _), fun b hb => (hall b hb).1, ?_⟩
  refine List.countP_eq_zero.mpr fun b hb => ?_
  rw [(hall b hb).2]
  exact Bool.false_ne_true

/-- An application task that has the lock gives it back first. -/
theorem returns_to_check (fds : Fds) (hi : LoopShape s) :
    ∃ bs s', exec (SleepSys.step fds) s bs = some s' ∧ s'.AtCheck ∧
      s'.gPlatformPseudoResetWasRequested = s.gPlatformPseudoResetWasRequested ∧
      bs.length ≤ 12 ∧ (∀ b ∈ bs, SleepAct.Returns b) ∧ bs.countP SleepAct.ofApp ≤ 1 := by
  by_cases hlock : ∃ n, s.apiLock = some (.app n)
  · obtain ⟨n, hn⟩ := hlock
    have hs : s.step fds (.unlock (.app n)) = some { s with apiLock := none } := if_pos hn
    obtain ⟨bs, s', he, hat, hf, hlen, hall, hcount⟩ :=
      cli_to_check fds (step_loopShape hi hs) (by simp [SleepSys.NoApp])
    refine ⟨.unlock (.app n) :: bs, s', ?_, hat, hf, Nat.succ_le_succ hlen, ?_, ?_⟩
    · rw [exec_cons hs]
      exact he
    · intro b hb
      rcases List.mem_cons.mp hb with rfl | hb
      · trivial
      · exact hall b hb
    · rw [List.countP_cons, hcount]
      exact Nat.le_refl 1
  · obtain ⟨bs, s', he, hat, hf, hlen, hall, hcount⟩ :=
      cli_to_check fds hi fun n hn => hlock ⟨n, hn⟩
    exact ⟨bs, s', he, hat, hf, by omega, hall, by omega⟩

end OtEsp32
