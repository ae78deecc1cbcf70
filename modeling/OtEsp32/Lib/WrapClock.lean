/-!
# Lib.WrapClock

A clock of modulus `M` shows an unbounded instant `t` as `t % M`. A deadline `d` after an instant
`a` may be compared with a later instant `b` on the clock faces only: `a % M + d ≤ b % M`.

`faceDue_iff`: that test waits one modulus longer for each wrap between `a` and `b`. So it is
never early (`le_of_faceDue`), and without a wrap it is exact. `face_remaining` is the same for the
time that seems to remain.
-/

namespace WrapClock

/-- How often the clock wraps from `a` to `b`. -/
def wraps (M a b : Nat) : Nat := b / M - a / M

def FaceDue (M a d b : Nat) : Prop := a % M + d ≤ b % M

variable {M a b d : Nat}

/-- The faces are as far apart as the instants, less the wraps. -/
theorem face_shift (h : a ≤ b) : a % M + b = b % M + a + M * wraps M a b := by
  have ha := Nat.div_add_mod a M
  have hb := Nat.div_add_mod b M
  have hmul : M * (b / M - a / M) = M * (b / M) - M * (a / M) := Nat.mul_sub M (b / M) (a / M)
  have hle : M * (a / M) ≤ M * (b / M) := Nat.mul_le_mul_left M (Nat.div_le_div_right h)
  unfold wraps
  omega

theorem faceDue_iff (h : a ≤ b) : FaceDue M a d b ↔ a + d + M * wraps M a b ≤ b := by
  have hs : a % M + b = b % M + a + M * wraps M a b := face_shift h
  unfold FaceDue
  omega

theorem face_remaining (h : a ≤ b) : a % M + d - b % M = a + d + M * wraps M a b - b := by
  have hs : a % M + b = b % M + a + M * wraps M a b := face_shift h
  omega

theorem wraps_mono {c : Nat} (h : b ≤ c) : wraps M a b ≤ wraps M a c :=
  Nat.sub_le_sub_right (Nat.div_le_div_right h) _

theorem le_of_faceDue (h : a ≤ b) (hd : FaceDue M a d b) : a + d ≤ b := by
  have hw := (faceDue_iff h).mp hd
  omega

end WrapClock
