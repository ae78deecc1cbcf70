import OtEsp32.Lib.Lts

/-!
# Lib.Sim

One machine implements another, and a machine gets where it should.

* `trace step lin s as` — what the run `as` of `step` looks like to the machine above it: each step
  as the actions that `lin` names for it, none for a step that cannot be seen there.
* `Simulates` — each step that meets a guard is matched by these actions, along a relation.
* `Simulates.run` — so is each run of such steps.
* `Simulates.answers` — what the machines answer step by step, they answer alike over a run.
* `reaches` — a measure that some enabled step lowers until the goal holds, as a run to the goal.
-/

namespace Lts

variable {σ α τ β γ : Type _}

def trace (step : σ → α → Option σ) (lin : σ → α → List β) : σ → List α → List β
  | _, [] => []
  | s, a :: as =>
    match step s a with
    | none => lin s a
    | some s' => lin s a ++ trace step lin s' as

/-- `G` is the guard under which `step` implements `spec`. -/
def Simulates (step : σ → α → Option σ) (spec : τ → β → Option τ) (lin : σ → α → List β)
    (G : σ → α → Prop) (R : σ → τ → Prop) : Prop :=
  ∀ s t a s', R s t → G s a → step s a = some s' →
    ∃ t', exec spec t (lin s a) = some t' ∧ R s' t'

variable {step : σ → α → Option σ} {spec : τ → β → Option τ} {lin : σ → α → List β}
  {G : σ → α → Prop} {R : σ → τ → Prop} {s s' s'' : σ} {t : τ} {as bs : List α} {a : α}

theorem exec_append (h : exec step s as = some s') : exec step s (as ++ bs) = exec step s' bs := by
  induction as generalizing s with
  | nil =>
    cases h
    rfl
  | cons a as ih =>
    cases hs : step s a with
    | none => simp [exec, hs] at h
    | some s1 =>
      rw [exec_cons hs] at h
      rw [List.cons_append, exec_cons hs]
      exact ih h

theorem exec_single (h : step s a = some s') : exec step s [a] = some s' := exec_cons h

theorem trace_cons (h : step s a = some s') :
    trace step lin s (a :: as) = lin s a ++ trace step lin s' as := by
  simp only [trace, h]

theorem trace_append (h : exec step s as = some s') :
    trace step lin s (as ++ bs) = trace step lin s as ++ trace step lin s' bs := by
  induction as generalizing s with
  | nil =>
    cases h
    rfl
  | cons b as ih =>
    cases hs : step s b with
    | none => simp [exec, hs] at h
    | some s1 =>
      rw [exec_cons hs] at h
      rw [List.cons_append, trace_cons hs, trace_cons hs, ih h, List.append_assoc]

theorem trace_single : trace step lin s [a] = lin s a := by
  simp only [trace]
  split
  · rfl
  · exact List.append_nil _

theorem trace_concat (h : exec step s as = some s') :
    trace step lin s (as ++ [a]) = trace step lin s as ++ lin s' a := by
  rw [trace_append h, trace_single]

/-- Where every step is seen as itself, so is a run. -/
theorem trace_self (h : exec step s as = some s') : trace step (fun _ a => [a]) s as = as := by
  induction as generalizing s with
  | nil => rfl
  | cons a as ih =>
    cases hs : step s a with
    | none => simp [exec, hs] at h
    | some s1 =>
      rw [exec_cons hs] at h
      rw [trace_cons hs, ih h, List.singleton_append]

theorem trace_all {P : β → Prop} (h : ∀ s a, ∀ b ∈ lin s a, P b) :
    ∀ b ∈ trace step lin s as, P b := by
  induction as generalizing s with
  | nil =>
    intro b hb
    cases hb
  | cons a as ih =>
    intro b hb
    cases hs : step s a with
    | none =>
      simp only [trace, hs] at hb
      exact h s a b hb
    | some s1 =>
      rw [trace_cons hs] at hb
      rcases List.mem_append.mp hb with hb | hb
      · exact h s a b hb
      · exact ih b hb

/-- The run that a run implements. -/
theorem Simulates.run (h : Simulates step spec lin G R) (hR : R s t)
    (hG : AtSteps step s as fun _ s a => G s a) (he : exec step s as = some s') :
    ∃ t', exec spec t (trace step lin s as) = some t' ∧ R s' t' := by
  induction as using List.reverseRecOn generalizing s' with
  | nil =>
    cases he
    exact ⟨t, rfl, hR⟩
  | append_singleton as a ih =>
    obtain ⟨s1, h1, hs⟩ := exec_concat.mp he
    obtain ⟨t1, ht1, hR1⟩ := ih hG.take h1
    obtain ⟨t2, ht2, hR2⟩ := h s1 t1 a s' hR1 (hG as a [] s1 (by simp) h1) hs
    refine ⟨t2, ?_, hR2⟩
    rw [trace_concat h1, exec_append ht1]
    exact ht2

/-- Machines that answer alike at each step answer alike over a run. -/
theorem Simulates.answers {out : σ → α → List γ} {out' : τ → β → List γ}
    (h : Simulates step spec lin G R)
    (hout : ∀ s t a s', R s t → G s a → step s a = some s' → trace spec out' t (lin s a) = out s a)
    (hR : R s t) (hG : AtSteps step s as fun _ s a => G s a) (he : exec step s as = some s') :
    trace spec out' t (trace step lin s as) = trace step out s as := by
  induction as using List.reverseRecOn generalizing s' with
  | nil => rfl
  | append_singleton as a ih =>
    obtain ⟨s1, h1, hs⟩ := exec_concat.mp he
    obtain ⟨t1, ht1, hR1⟩ := h.run hR hG.take h1
    rw [trace_concat h1, trace_concat h1, trace_append ht1, ih hG.take h1]
    rw [hout s1 t1 a s' hR1 (hG as a [] s1 (by simp) h1) hs]

/-- A run to the goal: from each state with the invariant `I` that is not there yet, an allowed
step leads on and lowers the measure. -/
theorem reaches (I goal : σ → Prop) (allowed : α → Prop) (measure : σ → Nat)
    (hstep : ∀ s, I s → ¬ goal s →
      ∃ a s', allowed a ∧ step s a = some s' ∧ I s' ∧ measure s' < measure s)
    (h : I s) :
    ∃ as s', exec step s as = some s' ∧ goal s' ∧ I s' ∧ as.length ≤ measure s ∧
      ∀ a ∈ as, allowed a := by
  induction hm : measure s using Nat.strongRecOn generalizing s with
  | ind n ih =>
    by_cases hg : goal s
    · exact ⟨[], s, rfl, hg, h, Nat.zero_le _, by simp⟩
    · obtain ⟨a, s1, ha, hs, hI, hlt⟩ := hstep s h hg
      obtain ⟨as, s2, he, hg2, hI2, hl, hall⟩ := ih (measure s1) (hm ▸ hlt) hI rfl
      refine ⟨a :: as, s2, by rw [exec_cons hs]; exact he, hg2, hI2, ?_, ?_⟩
      · rw [List.length_cons]
        omega
      · intro b hb
        rcases List.mem_cons.mp hb with rfl | hb
        · exact ha
        · exact hall b hb

end Lts
