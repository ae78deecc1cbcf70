import OtEsp32.Lib.Loop

/-!
# Lib.LoopTotal

Loops of `Lib.Loop` that are left. `run_total` is the rule: a measure that each turn lowers, as many
answers as the measure counts, and a guard that fails where the measure is 0. `run_of_stuck` is what
it rests on: answers with which the loop does not go round end it.
-/

namespace Lts

variable {σ α : Type _} {step : σ → α → Option σ} {s : σ} {as : List α}

/-- The action at which a run ends. -/
theorem exec_none (h : exec step s as = none) :
    ∃ pre a post s', as = pre ++ a :: post ∧ exec step s pre = some s' ∧ step s' a = none := by
  induction as generalizing s with
  | nil => cases h
  | cons a as ih =>
    cases hs : step s a with
    | none => exact ⟨[], a, as, s, rfl, rfl, hs⟩
    | some s1 =>
      rw [exec_cons hs] at h
      obtain ⟨pre, b, post, s', rfl, he, hb⟩ := ih h
      exact ⟨a :: pre, b, post, s', rfl, by rw [exec_cons hs]; exact he, hb⟩

/-- A run is no longer than the measure that each of its steps lowers. -/
theorem length_le_of_measure {s' : σ} (I : List α → σ → Prop) (G : List α → σ → α → Prop)
    (measure : List α → σ → Nat) (h0 : I [] s)
    (hstep : ∀ pre s1 a s2, I pre s1 → G pre s1 a → step s1 a = some s2 →
      I (pre ++ [a]) s2 ∧ measure (pre ++ [a]) s2 < measure pre s1)
    (hG : AtSteps step s as G) (h : exec step s as = some s') :
    measure as s' + as.length ≤ measure [] s := by
  have hi : I as s' ∧ measure as s' + as.length ≤ measure [] s := by
    refine exec_inv (fun pre s1 => I pre s1 ∧ measure pre s1 + pre.length ≤ measure [] s) G
      ⟨h0, Nat.le_refl _⟩ ?_ hG h
    rintro pre s1 a s2 ⟨hi, hm⟩ hg hs
    obtain ⟨hi2, hlt⟩ := hstep pre s1 a s2 hi hg hs
    refine ⟨hi2, ?_⟩
    rw [List.length_append, List.length_singleton]
    omega
  exact hi.2

end Lts

namespace EnvLoop

open Lts

variable {σ ι ρ : Type _} {L : EnvLoop σ ι ρ} {s s' : σ} {i : ι} {is : List ι}

theorem leaves_of_step (h : L.step s i = none) : ∃ r, L.Leaves s (i :: is) r := by
  cases hg : L.guard s with
  | false => exact ⟨L.after s, .inl ⟨hg, rfl⟩⟩
  | true =>
    cases hb : L.body s i with
    | next s' =>
      rw [step_some.mpr ⟨hg, hb⟩] at h
      cases h
    | leave r => exact ⟨r, .inr ⟨hg, i, is, rfl, hb⟩⟩

theorem run_of_stuck (h : exec L.step s is = none) : ∃ r, L.run s is = some r := by
  obtain ⟨pre, i, post, s', rfl, he, hs⟩ := exec_none h
  obtain ⟨r, hr⟩ := leaves_of_step hs
  exact ⟨r, run_iff.mpr ⟨pre, i :: post, s', rfl, he, hr⟩⟩

/-- Termination. `I`, `G` and the measure may look at the answers so far. -/
theorem run_total (I : List ι → σ → Prop) (G : List ι → σ → ι → Prop)
    (measure : List ι → σ → Nat) (h0 : I [] s)
    (hnext : ∀ pre s1 i s2, I pre s1 → G pre s1 i → L.step s1 i = some s2 →
      I (pre ++ [i]) s2 ∧ measure (pre ++ [i]) s2 < measure pre s1)
    (hdone : ∀ pre s1, I pre s1 → measure pre s1 = 0 → L.guard s1 = false)
    (hG : AtSteps L.step s is G) (hlen : measure [] s ≤ is.length) : ∃ r, L.run s is = some r := by
  cases h : exec L.step s is with
  | none => exact run_of_stuck h
  | some s' =>
    have hm := length_le_of_measure I G measure h0 hnext hG h
    have hi := exec_inv I G h0 (fun pre s1 i s2 hi hg hs => (hnext pre s1 i s2 hi hg hs).1) hG h
    have hg : L.guard s' = false := hdone is s' hi (by omega)
    exact ⟨L.after s', run_iff.mpr ⟨is, [], s', (List.append_nil is).symm, h, .inl ⟨hg, rfl⟩⟩⟩

end EnvLoop
