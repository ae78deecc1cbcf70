/-!
# Lib.Nor

NOR memory over any cell type: erasing a range makes its cells blank, programming a cell combines
it with the datum by an associative operation of which the blank cell is the right unit (for
bytes: AND and `0xFF`).

Programming never undoes programming, so the effect of a list of operations on a cell is known
from two facts about the list: whether an erase covers the cell (`wiped`), and what the list
leaves in a cell that starts blank (`onBlank`). `applyAll_eq` is that normal form.
-/

namespace Nor

inductive Op (β : Type _) where
  | erase (lo n : Nat)
  | program (lo : Nat) (data : List β)

variable {β : Type _} (and : β → β → β) (blank : β)

/-- The cell at `a` is in the range of the operation. -/
def Op.Covers (a : Nat) : Op β → Prop
  | .erase lo n => lo ≤ a ∧ a < lo + n
  | .program lo data => lo ≤ a ∧ a < lo + data.length

/-- What the operation does to the cell at `a`. -/
def Op.cell (a : Nat) (x : β) : Op β → β
  | .erase lo n => if lo ≤ a ∧ a < lo + n then blank else x
  | .program lo data =>
    match data[a - lo]? with
    | some d => if lo ≤ a then and x d else x
    | none => x

def Op.apply (m : Nat → β) (o : Op β) : Nat → β := fun a => o.cell and blank a (m a)

def applyAll (m : Nat → β) (ops : List (Op β)) : Nat → β := ops.foldl (Op.apply and blank) m

/-- What the operations leave in the cell at `a` when it starts blank. -/
def onBlank (ops : List (Op β)) (a : Nat) : β := applyAll and blank (fun _ => blank) ops a

/-- The operation erases the cell at `a`. -/
def Op.wipes (a : Nat) : Op β → Bool
  | .erase lo n => decide (lo ≤ a ∧ a < lo + n)
  | .program _ _ => false

/-- An erase of the list covers the cell at `a`. -/
def wiped (ops : List (Op β)) (a : Nat) : Bool := ops.any (Op.wipes a)

variable {and : β → β → β} {blank : β} {m : Nat → β} {ops : List (Op β)} {o : Op β} {a : Nat}

@[simp] theorem applyAll_nil : applyAll and blank m [] = m := rfl

@[simp] theorem applyAll_cons :
    applyAll and blank m (o :: ops) = applyAll and blank (o.apply and blank m) ops := rfl

/-- Frame: an operation changes no cell outside its range. -/
theorem apply_outside (h : ¬ o.Covers a) : o.apply and blank m a = m a := by
  cases o with
  | erase lo n =>
    simp only [Op.apply, Op.cell]
    exact if_neg h
  | program lo data =>
    simp only [Op.apply, Op.cell]
    by_cases hlo : lo ≤ a
    · have hd : data[a - lo]? = none := List.getElem?_eq_none (by
        have : ¬ a < lo + data.length := fun hlt => h ⟨hlo, hlt⟩
        omega)
      rw [hd]
    · split
      · exact if_neg hlo
      · rfl

theorem applyAll_outside (h : ∀ o ∈ ops, ¬ o.Covers a) : applyAll and blank m ops a = m a := by
  induction ops generalizing m with
  | nil => rfl
  | cons o ops ih =>
    rw [applyAll_cons, ih fun o' ho' => h o' (by simp [ho']), apply_outside (h o (by simp))]

variable [Std.LawfulRightIdentity and blank]

theorem and_blank (x : β) : and x blank = x := Std.LawfulRightIdentity.right_id x

variable [Std.Associative and]

theorem and_blank_and (x d : β) : and x (and blank d) = and x d := by
  have hassoc : and (and x blank) d = and x (and blank d) := Std.Associative.assoc x blank d
  have hright : and x blank = x := and_blank x
  rw [← hassoc, hright]

/-- The normal form for one operation. -/
theorem cell_eq (o : Op β) (a : Nat) (x : β) :
    o.cell and blank a x =
      if o.wipes a then o.cell and blank a blank else and x (o.cell and blank a blank) := by
  cases o with
  | erase lo n =>
    by_cases h : lo ≤ a ∧ a < lo + n
    · simp [Op.cell, Op.wipes, h]
    · simp only [Op.cell, Op.wipes, h, decide_false, if_false, Bool.false_eq_true]
      exact (and_blank x).symm
  | program lo data =>
    simp only [Op.cell, Op.wipes, Bool.false_eq_true, if_false]
    cases data[a - lo]? with
    | none => exact (and_blank x).symm
    | some d =>
      by_cases h : lo ≤ a
      · simp only [h, if_true]
        exact (and_blank_and x d).symm
      · simp only [h, if_false]
        exact (and_blank x).symm

/-- The normal form for a list of operations. -/
theorem applyAll_eq :
    applyAll and blank m ops a =
      if wiped ops a then onBlank and blank ops a else and (m a) (onBlank and blank ops a) := by
  induction ops generalizing m with
  | nil => exact (and_blank _).symm
  | cons o ops ih =>
    have hw : wiped (o :: ops) a = (o.wipes a || wiped ops a) := rfl
    have hb : onBlank and blank (o :: ops) a =
        applyAll and blank (o.apply and blank fun _ => blank) ops a := rfl
    -- both sides run `ops` on the cell that `o` leaves; `ih` reduces each to `onBlank ops`
    rw [applyAll_cons, hb, ih, ih, hw]
    by_cases h : wiped ops a = true
    · simp [h]
    · simp only [h, Bool.false_eq_true, Bool.or_false, if_false, Op.apply]
      rw [cell_eq o a (m a)]
      by_cases h1 : o.wipes a = true
      · simp only [h1, if_true]
      · simp only [h1, Bool.false_eq_true, if_false]
        exact Std.Associative.assoc _ _ _

end Nor
