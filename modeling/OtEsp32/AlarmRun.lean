import OtEsp32.Alarm
import OtEsp32.Lib.Lts

/-!
# AlarmRun

Runs of `otPlatAlarmMilliStartAt`, `otPlatAlarmMilliStop` and `platformAlarmProcess` over true
time, with a callback that may itself start, stop and take time. `World.trace` records, newest
first, what the caller did and which callbacks came.

`World.Good` ties the statics to the trace: the alarm runs exactly when the newest entry is a
start, and then holds the low 32 bits of its instant. Every step keeps it, and with it a callback
can only come right after the start it belongs to (`Sound`).
-/

namespace OtEsp32

open Lts WrapClock

/-- `t0` and `t` are instants in milliseconds of true time. -/
inductive AlarmObs where
  | startAt (t0 : Nat) (aDt : UInt32)
  | stop
  | fired (cb : AlarmCallback) (t : Nat)
  deriving DecidableEq, Repr

structure World where
  us : Nat
  alarm : Alarm
  trace : List AlarmObs
  deriving DecidableEq, Repr

def World.init (us : Nat) : World := ⟨us, Alarm.init, []⟩

def World.ms (w : World) : Nat := w.us / 1000

/-- What a task or a callback does between two calls of `platformAlarmProcess`. -/
inductive AlarmCall where
  | startAt (t0 : Nat) (aDt : UInt32)
  | stop
  | advance (us : Nat)
  deriving DecidableEq, Repr

/-- A start passes the low 32 bits of an instant that is not later than the call. -/
def World.call (w : World) : AlarmCall → Option World
  | .startAt t0 aDt =>
    if t0 ≤ w.ms then
      some { w with
        alarm := otPlatAlarmMilliStartAt (UInt32.ofNat t0) aDt
        trace := .startAt t0 aDt :: w.trace }
    else none
  | .stop =>
    some { w with alarm := otPlatAlarmMilliStop w.alarm, trace := .stop :: w.trace }
  | .advance us => some { w with us := w.us + us }

inductive AlarmEvent where
  | call (c : AlarmCall)
  | process (diagMode : Bool) (callback : List AlarmCall)
  deriving DecidableEq, Repr

/-- `callback` is what the fired callback does. -/
def World.process (diagEnable diagMode : Bool) (callback : List AlarmCall) (w : World) :
    Option World :=
  match platformAlarmProcess diagEnable diagMode w.us w.alarm with
  | (alarm, some cb) =>
    exec World.call { w with alarm := alarm, trace := .fired cb w.ms :: w.trace } callback
  | (alarm, none) => some { w with alarm := alarm }

def World.step (diagEnable : Bool) (w : World) : AlarmEvent → Option World
  | .call c => w.call c
  | .process diagMode callback => w.process diagEnable diagMode callback

/-- The last start, while it has been neither stopped nor fired. -/
def World.armed (w : World) : Option (Nat × UInt32) :=
  match w.trace with
  | .startAt t0 aDt :: _ => some (t0, aDt)
  | _ => none

def World.Fires (diagEnable diagMode : Bool) (w : World) : Prop :=
  (platformAlarmProcess diagEnable diagMode w.us w.alarm).2.isSome = true

/-! ## The invariant -/

/-- The alarm is the one that the trace says is armed. -/
structure World.Good (w : World) : Prop where
  running : w.alarm.sIsRunning = w.armed.isSome
  armed : ∀ t0 aDt, w.armed = some (t0, aDt) →
    w.alarm = otPlatAlarmMilliStartAt (UInt32.ofNat t0) aDt ∧ t0 ≤ w.ms

/-- Right before each callback comes the start it belongs to, and the callback is not early. -/
def Sound : List AlarmObs → Prop
  | [] => True
  | .fired _ t :: obs =>
    (∃ t0 aDt pre, obs = .startAt t0 aDt :: pre ∧ t0 + aDt.toNat ≤ t) ∧ Sound obs
  | _ :: obs => Sound obs

theorem init_good (us : Nat) : (World.init us).Good :=
  ⟨rfl, fun _ _ h => by cases h⟩

theorem call_startAt {w w' : World} {t0 : Nat} {aDt : UInt32}
    (h : w.call (.startAt t0 aDt) = some w') :
    t0 ≤ w.ms ∧ w' = { w with
      alarm := otPlatAlarmMilliStartAt (UInt32.ofNat t0) aDt
      trace := .startAt t0 aDt :: w.trace } := by
  simp only [World.call] at h
  split at h
  · rename_i hle
    cases h
    exact ⟨hle, rfl⟩
  · cases h

theorem call_good {w w' : World} {c : AlarmCall} (hg : w.Good) (h : w.call c = some w') :
    w'.Good := by
  cases c with
  | startAt t0 aDt =>
    obtain ⟨hle, rfl⟩ := call_startAt h
    refine ⟨rfl, ?_⟩
    intro t1 dt1 he
    cases he
    exact ⟨rfl, hle⟩
  | stop =>
    cases h
    exact ⟨rfl, fun _ _ he => by cases he⟩
  | advance us =>
    cases h
    refine ⟨hg.running, ?_⟩
    intro t0 aDt he
    obtain ⟨ha, hle⟩ := hg.armed t0 aDt he
    refine ⟨ha, Nat.le_trans hle ?_⟩
    exact Nat.div_le_div_right (Nat.le_add_right _ _)

theorem call_sound {w w' : World} {c : AlarmCall} (hs : Sound w.trace) (h : w.call c = some w') :
    Sound w'.trace := by
  cases c with
  | startAt t0 aDt =>
    obtain ⟨-, rfl⟩ := call_startAt h
    exact hs
  | stop => cases h; exact hs
  | advance us => cases h; exact hs

/-- What `platformAlarmProcess` tests of an armed alarm, in true time. -/
theorem fires_iff {w : World} (hg : w.Good) {t0 : Nat} {aDt : UInt32}
    (ha : w.armed = some (t0, aDt)) (diagEnable diagMode : Bool) :
    w.Fires diagEnable diagMode ↔ FaceDue (2 ^ 32) t0 aDt.toNat w.ms := by
  obtain ⟨halarm, -⟩ := hg.armed t0 aDt ha
  rw [World.Fires, platformAlarmProcess_fires_iff, halarm, due_startAt_face]
  exact ⟨And.right, fun hd => ⟨rfl, hd⟩⟩

theorem armed_of_fires {w : World} (hg : w.Good) {diagEnable diagMode : Bool}
    (hf : w.Fires diagEnable diagMode) : ∃ t0 aDt, w.armed = some (t0, aDt) := by
  have hr := ((platformAlarmProcess_fires_iff ..).mp hf).1
  rw [hg.running] at hr
  obtain ⟨⟨t0, aDt⟩, ha⟩ := Option.isSome_iff_exists.mp hr
  exact ⟨t0, aDt, ha⟩

/-- The two outcomes of a call: nothing changes, or the callback runs from a stopped alarm. -/
theorem process_cases {diagEnable diagMode : Bool} {callback : List AlarmCall} {w w' : World}
    (h : w.process diagEnable diagMode callback = some w') :
    (¬ w.Fires diagEnable diagMode ∧ w' = w) ∨
      (w.Fires diagEnable diagMode ∧ ∃ cb, exec World.call
        { w with alarm := otPlatAlarmMilliStop w.alarm, trace := .fired cb w.ms :: w.trace }
        callback = some w') := by
  simp only [World.process, World.Fires, platformAlarmProcess_eq] at h ⊢
  split at h
  · rename_i heq
    split at heq
    · cases heq
      rename_i hc
      right
      simp only [hc, and_self, if_true, Option.isSome_some]
      exact ⟨trivial, _, h⟩
    · cases heq
  · rename_i heq
    split at heq
    · cases heq
    · cases heq
      cases h
      rename_i hc
      left
      simp [hc]

theorem fired_good (w : World) (cb : AlarmCallback) (t : Nat) :
    World.Good { w with alarm := otPlatAlarmMilliStop w.alarm, trace := .fired cb t :: w.trace } :=
  ⟨rfl, fun _ _ h => by cases h⟩

/-- The callback is not early: the start before it is the armed one, and its deadline is past. -/
theorem fired_sound {w : World} (hg : w.Good) (hs : Sound w.trace) {diagEnable diagMode : Bool}
    (hf : w.Fires diagEnable diagMode) (cb : AlarmCallback) : Sound (.fired cb w.ms :: w.trace) := by
  obtain ⟨t0, aDt, ha⟩ := armed_of_fires hg hf
  obtain ⟨-, hle⟩ := hg.armed t0 aDt ha
  have hdue := le_of_faceDue hle ((fires_iff hg ha diagEnable diagMode).mp hf)
  refine ⟨?_, hs⟩
  simp only [World.armed] at ha
  split at ha
  · rename_i t1 dt1 pre htr
    cases ha
    exact ⟨t0, aDt, pre, htr, hdue⟩
  · cases ha

theorem step_good {diagEnable : Bool} {w w' : World} {e : AlarmEvent} (hg : w.Good)
    (h : w.step diagEnable e = some w') : w'.Good := by
  cases e with
  | call c => exact call_good hg h
  | process diagMode callback =>
    rcases process_cases h with ⟨-, rfl⟩ | ⟨-, cb, hcb⟩
    · exact hg
    · exact exec_inv' World.Good (fired_good w cb w.ms) (fun _ _ _ => call_good) hcb

theorem step_sound {diagEnable : Bool} {w w' : World} {e : AlarmEvent} (hg : w.Good)
    (hs : Sound w.trace) (h : w.step diagEnable e = some w') : Sound w'.trace := by
  cases e with
  | call c => exact call_sound hs h
  | process diagMode callback =>
    rcases process_cases h with ⟨-, rfl⟩ | ⟨hf, cb, hcb⟩
    · exact hs
    · exact exec_inv' (fun w => Sound w.trace) (fired_sound hg hs hf cb)
        (fun _ _ _ => call_sound) hcb

/-- The run lemma: the invariant of every reachable world. -/
theorem run_good_sound {diagEnable : Bool} {us : Nat} {es : List AlarmEvent} {w : World}
    (h : exec (World.step diagEnable) (World.init us) es = some w) : w.Good ∧ Sound w.trace := by
  have h0 : (World.init us).Good ∧ Sound (World.init us).trace := ⟨init_good us, trivial⟩
  exact exec_inv' (fun w => w.Good ∧ Sound w.trace) h0
    (fun _ _ _ hi hstep => ⟨step_good hi.1 hstep, step_sound hi.1 hi.2 hstep⟩) h

/-! ## Due alarms -/

/-- In every run, each `platformAlarmProcess` call made while the last start is neither stopped
nor fired and its deadline is past fires, if and only if at each such call the deadline is past by
one clock period for each wrap of the clock since the start's instant. -/
theorem due_alarm_fires_iff (diagEnable : Bool) (us : Nat) (es : List AlarmEvent) :
    AtSteps (World.step diagEnable) (World.init us) es (fun _ w e =>
        ∀ diagMode callback t0 aDt, e = .process diagMode callback → w.armed = some (t0, aDt) →
          t0 + aDt.toNat ≤ w.ms → w.Fires diagEnable diagMode) ↔
      AtSteps (World.step diagEnable) (World.init us) es (fun _ w e =>
        ∀ diagMode callback t0 aDt, e = .process diagMode callback → w.armed = some (t0, aDt) →
          t0 + aDt.toNat ≤ w.ms → t0 + aDt.toNat + 2 ^ 32 * wraps (2 ^ 32) t0 w.ms ≤ w.ms) := by
  apply atSteps_congr (fun _ w => w.Good) (init_good us)
  · intro _ _ _ _ hg h
    exact step_good hg h
  · intro _ w e hg
    refine forall₄_congr fun diagMode callback t0 aDt => ?_
    refine forall₂_congr fun _ ha => forall_congr' fun _ => ?_
    obtain ⟨-, hle⟩ := hg.armed t0 aDt ha
    rw [fires_iff hg ha, faceDue_iff hle]

/-- A start one millisecond before the clock wraps, due at the wrap. -/
def wrapRun : List AlarmEvent :=
  [.call (.advance (4294967295 * 1000)), .call (.startAt 4294967295 1), .call (.advance 1000),
    .process false []]

/-- Before the `process` of `wrapRun`: the clock shows 0. -/
def wrapWorld : World :=
  ⟨4294967296 * 1000, otPlatAlarmMilliStartAt 4294967295 1, [.startAt 4294967295 1]⟩

theorem due_alarm_missed :
    ¬ ∀ (diagEnable : Bool) (us : Nat) (es : List AlarmEvent),
      AtSteps (World.step diagEnable) (World.init us) es (fun _ w e =>
        ∀ diagMode callback t0 aDt, e = .process diagMode callback → w.armed = some (t0, aDt) →
          t0 + aDt.toNat ≤ w.ms → w.Fires diagEnable diagMode) := by
  intro h
  have hlate := h false 0 wrapRun (wrapRun.take 3) (.process false []) [] wrapWorld rfl (by decide)
  have hfires := hlate false [] 4294967295 1 rfl rfl (by decide)
  exact absurd hfires (by unfold World.Fires; decide)

/-! ## Early, stopped and double callbacks -/

/-- What the last start or stop of `calls` leaves armed; `a` if there is none. -/
def armedAfter (a : Option (Nat × UInt32)) (calls : List AlarmCall) : Option (Nat × UInt32) :=
  calls.foldl (fun a c =>
    match c with
    | .startAt t0 aDt => some (t0, aDt)
    | .stop => none
    | .advance _ => a) a

theorem sound_fired {cb : AlarmCallback} {t : Nat} {pre : List AlarmObs} :
    ∀ {post : List AlarmObs}, Sound (post ++ .fired cb t :: pre) →
      ∃ t0 aDt pre', pre = .startAt t0 aDt :: pre' ∧ t0 + aDt.toNat ≤ t := by
  intro post
  induction post with
  | nil => intro h; exact h.1
  | cons o post ih =>
    intro h
    cases o with
    | startAt t0 aDt => exact ih h
    | stop => exact ih h
    | fired cb' t' => exact ih h.2

theorem exec_call_armed {calls : List AlarmCall} :
    ∀ {w w' : World}, exec World.call w calls = some w' → w'.armed = armedAfter w.armed calls := by
  induction calls with
  | nil => intro w w' h; cases h; rfl
  | cons c calls ih =>
    intro w w' h
    simp only [exec] at h
    cases hc : w.call c with
    | none => rw [hc] at h; cases h
    | some w1 =>
      rw [hc] at h
      rw [ih h]
      cases c with
      | startAt t0 aDt =>
        obtain ⟨-, rfl⟩ := call_startAt hc
        rfl
      | stop => cases hc; rfl
      | advance us => cases hc; rfl

/-- In every run: each callback comes right after the start it belongs to, which is neither
stopped nor fired in between, and not before that start's deadline; between two callbacks there
is a start; and after a call that fires, the alarm is what the callback's last start or stop says,
and stopped if it made none. -/
theorem callbacks_belong (diagEnable : Bool) (us : Nat) (es : List AlarmEvent) (w : World)
    (h : exec (World.step diagEnable) (World.init us) es = some w) :
    (∀ post cb t pre, w.trace = post ++ .fired cb t :: pre →
      ∃ t0 aDt pre', pre = .startAt t0 aDt :: pre' ∧ t0 + aDt.toNat ≤ t) ∧
    (∀ post cb t mid cb' t' pre,
      w.trace = post ++ .fired cb t :: (mid ++ .fired cb' t' :: pre) →
      ∃ t0 aDt, AlarmObs.startAt t0 aDt ∈ mid) ∧
    (∀ diagMode callback w', w.process diagEnable diagMode callback = some w' →
      w.Fires diagEnable diagMode →
      w'.alarm.sIsRunning = (armedAfter none callback).isSome ∧
      ∀ t0 aDt, armedAfter none callback = some (t0, aDt) →
        w'.alarm = otPlatAlarmMilliStartAt (UInt32.ofNat t0) aDt) := by
  obtain ⟨hg, hs⟩ := run_good_sound h
  refine ⟨?_, ?_, ?_⟩
  · intro post cb t pre htr
    rw [htr] at hs
    exact sound_fired hs
  · intro post cb t mid cb' t' pre htr
    rw [htr] at hs
    obtain ⟨t0, aDt, pre', heq, -⟩ := sound_fired hs
    cases mid with
    | nil => cases heq
    | cons o mid =>
      cases heq
      exact ⟨t0, aDt, List.mem_cons_self⟩
  · intro diagMode callback w' hp hf
    rcases process_cases hp with ⟨hn, -⟩ | ⟨-, cb, hcb⟩
    · exact absurd hf hn
    · have hstep : w.step diagEnable (.process diagMode callback) = some w' := hp
      have hg' : w'.Good := step_good hg hstep
      have harm : w'.armed = armedAfter none callback := exec_call_armed hcb
      refine ⟨by rw [hg'.running, harm], ?_⟩
      intro t0 aDt ha
      exact (hg'.armed t0 aDt (by rw [harm, ha])).1

/-- The callback of a due alarm starts the next one. -/
def rearmRun : List AlarmEvent :=
  [.call (.advance 10000), .call (.startAt 5 3), .process true [.startAt 10 5]]

def rearmWorld : World :=
  ⟨10000, otPlatAlarmMilliStartAt 10 5,
    [.startAt 10 5, .fired .otPlatDiagAlarmFired 10, .startAt 5 3]⟩

theorem callbacks_belong_rearm :
    ∃ t0 aDt pre', [AlarmObs.startAt 5 3] = .startAt t0 aDt :: pre' ∧ t0 + aDt.toNat ≤ 10 :=
  (callbacks_belong true 0 rearmRun rearmWorld (by decide)).1 [.startAt 10 5]
    .otPlatDiagAlarmFired 10 [.startAt 5 3] rfl

end OtEsp32
