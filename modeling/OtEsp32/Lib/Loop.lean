import OtEsp32.Lib.Lts

/-!
# Lib.Loop

A `while` loop whose body asks its environment for one answer a turn (what a system call returns).
`EnvLoop.run` is the loop on a list of answers, `none` when they run out before the loop is left.

`run_iff` takes a run apart: steps of `Lts.exec` up to a state in which the loop is left. `run_inv`
is the invariant rule: it gives that state with the invariant and the way in which it is left.
-/

/-- How a turn of the body ends: at the top of the loop again, or outside the loop. -/
inductive Turn (σ ρ : Type _) where
  | next (s : σ)
  | leave (r : ρ)

/-- `after` is the result when the guard fails. -/
structure EnvLoop (σ ι ρ : Type _) where
  guard : σ → Bool
  body : σ → ι → Turn σ ρ
  after : σ → ρ

namespace EnvLoop

open Lts

variable {σ ι ρ : Type _}

def run (L : EnvLoop σ ι ρ) : σ → List ι → Option ρ
  | s, [] => if L.guard s then none else some (L.after s)
  | s, i :: is =>
    if L.guard s then
      match L.body s i with
      | .next s' => L.run s' is
      | .leave r => some r
    else some (L.after s)

/-- One turn that comes back to the top. -/
def step (L : EnvLoop σ ι ρ) (s : σ) (i : ι) : Option σ :=
  if L.guard s then
    match L.body s i with
    | .next s' => some s'
    | .leave _ => none
  else none

/-- In `s` the loop is left with `r`, on its guard or by the next answer. -/
def Leaves (L : EnvLoop σ ι ρ) (s : σ) (is : List ι) (r : ρ) : Prop :=
  (L.guard s = false ∧ r = L.after s) ∨
    (L.guard s = true ∧ ∃ i rest, is = i :: rest ∧ L.body s i = .leave r)

variable {L : EnvLoop σ ι ρ} {s s' : σ} {i : ι} {is : List ι} {r : ρ}

theorem step_some : L.step s i = some s' ↔ L.guard s = true ∧ L.body s i = .next s' := by
  unfold step
  cases L.guard s with
  | false => simp
  | true =>
    cases L.body s i with
    | next s1 => simp
    | leave r => simp

theorem run_of_leaves (h : L.Leaves s is r) : L.run s is = some r := by
  rcases h with ⟨hg, rfl⟩ | ⟨hg, i, rest, rfl, hb⟩
  · cases is <;> simp [run, hg]
  · simp [run, hg, hb]

theorem run_step (h : L.step s i = some s') : L.run s (i :: is) = L.run s' is := by
  obtain ⟨hg, hb⟩ := step_some.mp h
  simp only [run, hg, hb, if_true]

theorem run_iff :
    L.run s is = some r ↔
      ∃ pre post s', is = pre ++ post ∧ exec L.step s pre = some s' ∧ L.Leaves s' post r := by
  constructor
  · intro h
    induction is generalizing s with
    | nil =>
      cases hg : L.guard s with
      | true => simp [run, hg] at h
      | false =>
        simp only [run, hg, Bool.false_eq_true, if_false, Option.some.injEq] at h
        exact ⟨[], [], s, rfl, rfl, .inl ⟨hg, h.symm⟩⟩
    | cons i is ih =>
      cases hg : L.guard s with
      | false =>
        simp only [run, hg, Bool.false_eq_true, if_false, Option.some.injEq] at h
        exact ⟨[], i :: is, s, rfl, rfl, .inl ⟨hg, h.symm⟩⟩
      | true =>
        cases hb : L.body s i with
        | leave r1 =>
          simp only [run, hg, hb, if_true, Option.some.injEq] at h
          subst h
          exact ⟨[], i :: is, s, rfl, rfl, .inr ⟨hg, i, is, rfl, hb⟩⟩
        | next s1 =>
          have hs : L.step s i = some s1 := step_some.mpr ⟨hg, hb⟩
          rw [run_step hs] at h
          obtain ⟨pre, post, s', rfl, he, hl⟩ := ih h
          exact ⟨i :: pre, post, s', rfl, by rw [exec_cons hs]; exact he, hl⟩
  · rintro ⟨pre, post, s', rfl, he, hl⟩
    induction pre generalizing s with
    | nil =>
      cases he
      exact run_of_leaves hl
    | cons i pre ih =>
      cases hs : L.step s i with
      | none => simp [exec, hs] at he
      | some s1 =>
        rw [exec_cons hs] at he
        rw [List.cons_append, run_step hs]
        exact ih he

/-- What holds at the top of each turn holds where the loop is left. -/
theorem run_inv (I : σ → Prop) (h0 : I s)
    (hnext : ∀ s i s', I s → L.guard s = true → L.body s i = .next s' → I s')
    (h : L.run s is = some r) :
    ∃ s', I s' ∧ ((L.guard s' = false ∧ r = L.after s') ∨
      (L.guard s' = true ∧ ∃ i, L.body s' i = .leave r)) := by
  obtain ⟨pre, post, s', -, he, hl⟩ := run_iff.mp h
  refine ⟨s', ?_, ?_⟩
  · refine exec_inv' I h0 ?_ he
    intro s1 i s2 hi hs
    obtain ⟨hg, hb⟩ := step_some.mp hs
    exact hnext s1 i s2 hi hg hb
  · rcases hl with hl | ⟨hg, i, rest, -, hb⟩
    · exact .inl hl
    · exact .inr ⟨hg, i, hb⟩

end EnvLoop
