import Mathlib.Logic.Function.Basic
import OtEsp32.Lib.Nor

/-!
# Lib.NorWindow

Windows on one NOR memory. The window `i` shows the memory from `base i` on, and an operation made
through it is moved there.

* `Shows` — the windows, up to the width `w`, show one memory each.
* `Apart` — no two windows overlap.
* `Shows.apply` — while the windows are apart, an operation made through one of them and staying
  within its width is the same operation on its memory and nothing to the others.
-/

namespace Nor

variable {ι β : Type _} {and : β → β → β} {blank : β} {m : Nat → β} {o : Op β} {k w q : Nat}

/-- The operation made `k` cells further on. -/
def Op.shift (k : Nat) : Op β → Op β
  | .erase lo n => .erase (k + lo) n
  | .program lo data => .program (k + lo) data

/-- The operation stays below `w`. -/
def Op.Within (w : Nat) : Op β → Prop
  | .erase lo n => lo + n ≤ w
  | .program lo data => lo + data.length ≤ w

theorem Op.Within.covers_shift {a : Nat} (h : o.Within w) (ha : (o.shift k).Covers a) :
    k ≤ a ∧ a < k + w := by
  cases o with
  | erase lo n =>
    simp only [Op.Within, Op.shift, Op.Covers] at h ha
    omega
  | program lo data =>
    simp only [Op.Within, Op.shift, Op.Covers] at h ha
    omega

theorem cell_shift (o : Op β) (k q : Nat) (x : β) :
    (o.shift k).cell and blank (k + q) x = o.cell and blank q x := by
  cases o with
  | erase lo n => simp [Op.shift, Op.cell, Nat.add_assoc]
  | program lo data =>
    have hsub : k + q - (k + lo) = q - lo := by omega
    simp only [Op.shift, Op.cell, hsub, Nat.add_le_add_iff_left]

theorem apply_shift_same (o : Op β) (m : Nat → β) (k q : Nat) :
    (o.shift k).apply and blank m (k + q) = o.cell and blank q (m (k + q)) :=
  cell_shift o k q (m (k + q))

theorem apply_shift_apart {k' : Nat} (h : o.Within w) (hk : k + w ≤ k' ∨ k' + w ≤ k) (hq : q < w) :
    (o.shift k).apply and blank m (k' + q) = m (k' + q) := by
  refine apply_outside fun hc => ?_
  have := h.covers_shift hc
  omega

/-! ## Windows -/

def Shows (base : ι → Nat) (w : Nat) (m : Nat → β) (r : ι → Nat → β) : Prop :=
  ∀ i q, q < w → m (base i + q) = r i q

def Apart (base : ι → Nat) (w : Nat) : Prop :=
  ∀ i j, i ≠ j → base i + w ≤ base j ∨ base j + w ≤ base i

/-- Each window shows what is there. -/
theorem shows_self (base : ι → Nat) (w : Nat) (m : Nat → β) :
    Shows base w m fun i q => m (base i + q) := fun _ _ _ => rfl

variable [DecidableEq ι] {base : ι → Nat} {r : ι → Nat → β}

/-- The operation `o` on the memory `i`. -/
def applyAt (and : β → β → β) (blank : β) (r : ι → Nat → β) (i : ι) (o : Op β) : ι → Nat → β :=
  Function.update r i (o.apply and blank (r i))

theorem Shows.apply (hs : Shows base w m r) (ha : Apart base w) (h : o.Within w) (i : ι) :
    Shows base w ((o.shift (base i)).apply and blank m) (applyAt and blank r i o) := by
  intro j q hq
  by_cases hij : j = i
  · subst hij
    rw [apply_shift_same, applyAt, Function.update_self, hs j q hq]
    rfl
  · rw [apply_shift_apart h (ha i j (Ne.symm hij)) hq, applyAt, Function.update_of_ne hij]
    exact hs j q hq

end Nor
