import Mathlib.Data.List.Induction

/-!
# Lib.Lts

Machines given by a partial step function `step : σ → α → Option σ`: `none` says that the action
is not enabled. An action list is an order of steps, so a statement about every action list is a
statement about every interleaving.

* `exec step s as`      — the state after the actions `as`, when each of them is enabled.
* `AtSteps step s as P` — `P` holds of every step that `as` takes: of the actions before it, of
  the state before it and of the action.
* `AtStates step s as P` — `P` holds of every state that `as` passes through.
* `Since step s as P Q` — `as` has a step of which `P` holds, and no action after it is a `Q`.

`exec_inv` is the induction over runs, with the invariant seeing the actions so far and each step
allowed a guard. `atSteps_congr` turns an equivalence at one step into one at every step.
-/

namespace Lts

variable {σ α : Type _}

def exec (step : σ → α → Option σ) : σ → List α → Option σ
  | s, [] => some s
  | s, a :: as =>
    match step s a with
    | none => none
    | some s' => exec step s' as

def AtSteps (step : σ → α → Option σ) (s : σ) (as : List α) (P : List α → σ → α → Prop) : Prop :=
  ∀ pre a post s', as = pre ++ a :: post → exec step s pre = some s' → P pre s' a

def AtStates (step : σ → α → Option σ) (s : σ) (as : List α) (P : List α → σ → Prop) : Prop :=
  ∀ pre post s', as = pre ++ post → exec step s pre = some s' → P pre s'

def Since (step : σ → α → Option σ) (s : σ) (as : List α) (P : σ → α → Prop) (Q : α → Prop) :
    Prop :=
  ∃ pre a post s', as = pre ++ a :: post ∧ exec step s pre = some s' ∧ P s' a ∧
    ∀ b ∈ post, ¬ Q b

variable {step : σ → α → Option σ} {s s' s'' : σ} {as bs : List α} {a : α}

@[simp] theorem exec_nil : exec step s [] = some s := rfl

theorem exec_cons (h : step s a = some s') : exec step s (a :: as) = exec step s' as := by
  simp only [exec, h]

/-- The last step of a run. -/
theorem exec_concat :
    exec step s (as ++ [a]) = some s'' ↔ ∃ s', exec step s as = some s' ∧ step s' a = some s'' := by
  induction as generalizing s with
  | nil =>
    simp only [List.nil_append, exec]
    cases hs : step s a with
    | none => simp [hs]
    | some s1 => simp [hs]
  | cons b as ih =>
    simp only [List.cons_append, exec]
    cases step s b with
    | none => simp
    | some s1 => exact ih

theorem AtSteps.nil {P : List α → σ → α → Prop} : AtSteps step s [] P := by
  intro pre a post s' hs
  simp at hs

theorem AtSteps.cons {P : List α → σ → α → Prop} (hs : step s a = some s') (hP : P [] s a)
    (h : AtSteps step s' as fun pre => P (a :: pre)) : AtSteps step s (a :: as) P := by
  intro pre b post s1 hl he
  cases pre with
  | nil =>
    cases hl
    cases he
    exact hP
  | cons c pre =>
    cases hl
    rw [exec_cons hs] at he
    exact h pre b post s1 rfl he

theorem AtSteps.take {P : List α → σ → α → Prop} (h : AtSteps step s (as ++ bs) P) :
    AtSteps step s as P := by
  intro pre a post s' hs he
  exact h pre a (post ++ bs) s' (by rw [hs]; simp) he

/-- Induction over a run: `I` holds at the start, and each step that meets the guard `G` keeps
it. `I` and `G` may look at the actions so far. -/
theorem exec_inv (I : List α → σ → Prop) (G : List α → σ → α → Prop) (h0 : I [] s)
    (hstep : ∀ pre s1 a s2, I pre s1 → G pre s1 a → step s1 a = some s2 → I (pre ++ [a]) s2)
    (hG : AtSteps step s as G) (h : exec step s as = some s') : I as s' := by
  induction as using List.reverseRecOn generalizing s' with
  | nil => cases h; exact h0
  | append_singleton as a ih =>
    obtain ⟨s1, h1, hs⟩ := exec_concat.mp h
    exact hstep as s1 a s' (ih hG.take h1) (hG as a [] s1 (by simp) h1) hs

/-- `exec_inv` for an invariant of the state alone, with every enabled step allowed. -/
theorem exec_inv' (I : σ → Prop) (h0 : I s)
    (hstep : ∀ s1 a s2, I s1 → step s1 a = some s2 → I s2) (h : exec step s as = some s') : I s' :=
  exec_inv (fun _ => I) (fun _ _ _ => True) h0 (fun _ s1 a s2 hi _ => hstep s1 a s2 hi)
    (fun _ _ _ _ _ _ => trivial) h

/-- An invariant gives a property of every state that a guarded run passes through. -/
theorem atStates_of_inv (I : List α → σ → Prop) {P : List α → σ → Prop}
    {G : List α → σ → α → Prop} (h0 : I [] s)
    (hstep : ∀ pre s1 a s2, I pre s1 → G pre s1 a → step s1 a = some s2 → I (pre ++ [a]) s2)
    (hP : ∀ pre s', I pre s' → P pre s') (hG : AtSteps step s as G) : AtStates step s as P := by
  intro pre post s' hs he
  subst hs
  exact hP pre s' (exec_inv I G h0 hstep hG.take he)

/-- An invariant gives a property of every step that a guarded run takes. -/
theorem atSteps_of_inv (I : List α → σ → Prop) {G P : List α → σ → α → Prop} (h0 : I [] s)
    (hstep : ∀ pre s1 a s2, I pre s1 → G pre s1 a → step s1 a = some s2 → I (pre ++ [a]) s2)
    (hP : ∀ pre s' a, I pre s' → G pre s' a → P pre s' a) (hG : AtSteps step s as G) :
    AtSteps step s as P := by
  intro pre a post s' hs he
  have hg := hG pre a post s' hs he
  subst hs
  exact hP pre s' a (exec_inv I G h0 hstep hG.take he) hg

/-- Two properties that agree at every step from a state with the invariant agree on runs. -/
theorem atSteps_congr (I : List α → σ → Prop) {P Q : List α → σ → α → Prop} (h0 : I [] s)
    (hstep : ∀ pre s1 a s2, I pre s1 → step s1 a = some s2 → I (pre ++ [a]) s2)
    (hPQ : ∀ pre s' a, I pre s' → (P pre s' a ↔ Q pre s' a)) :
    AtSteps step s as P ↔ AtSteps step s as Q := by
  have hI : ∀ {pre s'}, exec step s pre = some s' → I pre s' := fun he =>
    exec_inv I (fun _ _ _ => True) h0 (fun pre s1 a s2 hi _ => hstep pre s1 a s2 hi)
      (fun _ _ _ _ _ _ => trivial) he
  constructor
  · intro h pre a post s' hs he
    exact (hPQ pre s' a (hI he)).mp (h pre a post s' hs he)
  · intro h pre a post s' hs he
    exact (hPQ pre s' a (hI he)).mpr (h pre a post s' hs he)

theorem not_since_nil {P : σ → α → Prop} {Q : α → Prop} : ¬ Since step s [] P Q := by
  rintro ⟨pre, a, post, s', h, -⟩
  simp at h

theorem since_concat {P : σ → α → Prop} {Q : α → Prop} (h : exec step s as = some s') :
    Since step s (as ++ [a]) P Q ↔ P s' a ∨ (¬ Q a ∧ Since step s as P Q) := by
  constructor
  · rintro ⟨pre, b, post, s1, hl, he, hP, hQ⟩
    rcases List.eq_nil_or_concat post with rfl | ⟨post, c, rfl⟩
    · obtain ⟨rfl, hb⟩ := List.append_inj' hl rfl
      cases hb
      rw [h] at he
      cases he
      exact .inl hP
    · have hl : as ++ [a] = (pre ++ b :: post) ++ [c] := by simpa using hl
      obtain ⟨rfl, hc⟩ := List.append_inj' hl rfl
      cases hc
      exact .inr ⟨hQ a (by simp), pre, b, post, s1, rfl, he, hP,
        fun d hd => hQ d (by simp [hd])⟩
  · rintro (hP | ⟨hQ, pre, b, post, s1, rfl, he, hP, hpost⟩)
    · exact ⟨as, a, [], s', rfl, h, hP, by simp⟩
    · refine ⟨pre, b, post ++ [a], s1, by simp, he, hP, ?_⟩
      intro d hd
      rcases List.mem_append.mp hd with hd | hd
      · exact hpost d hd
      · rw [List.mem_singleton.mp hd]
        exact hQ

end Lts
