import Mathlib.Algebra.GroupWithZero.Nat

/-!
# BitFields — numbers side by side in one word

A word made of fields by shifting and or-ing is a number in mixed radix, as long as every field has room.

* `toNat_shiftLeft_or` — one field put above the rest of the word;
* `toNat_of_nonneg` — signed words whose sign bit is not set.
-/

namespace Myoj
namespace BitFields

variable {w : Nat}

/-- A field with room above a rest that stays below it. -/
theorem toNat_shiftLeft_or (k : Nat) {high low : BitVec w} (hhigh : high.toNat * 2 ^ k < 2 ^ w)
    (hlow : low.toNat < 2 ^ k) : (high <<< k ||| low).toNat = high.toNat * 2 ^ k + low.toNat := by
  have hshift : (high <<< k).toNat = high.toNat <<< k := by
    rw [BitVec.toNat_shiftLeft, Nat.shiftLeft_eq, Nat.mod_eq_of_lt hhigh]
  rw [BitVec.toNat_or, hshift, ← Nat.shiftLeft_add_eq_or_of_lt hlow, Nat.shiftLeft_eq]

/-! ## Signed words -/

theorem toNat_of_nonneg {x : BitVec w} (h : 0 ≤ x.toInt) : (x.toNat : Int) = x.toInt := by
  rw [BitVec.toInt_eq_toNat_cond] at h ⊢
  have hlt := x.isLt
  split at h <;> omega

end BitFields
end Myoj
