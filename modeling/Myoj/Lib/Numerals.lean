import Mathlib.Algebra.Group.Int.Defs
import Mathlib.Data.List.Basic
import Myoj.Lib.Bytes

/-!
# Numerals — reading integers off a byte string

`strtol` and its relatives skip white space, take one sign and the longest run of digits, and ignore
whatever follows.

* `strtol` — the number read, unbounded; `none` when there is no digit;
* `atoll` — the number, or 0.
-/

namespace Myoj
namespace Numerals

def isdigit (b : UInt8) : Bool := 48 ≤ b && b ≤ 57

/-- `std::isspace` in the C locale. -/
def isspace (b : UInt8) : Bool := b == 32 || (9 ≤ b && b ≤ 13)

/-- The value of a run of digits. -/
def value (ds : Bytes) : Nat := ds.foldl (fun n b => 10 * n + (b.toNat - 48)) 0

/-- The number at the start of `s`, without sign. -/
def digits (s : Bytes) : Option Nat :=
  match s.takeWhile isdigit with
  | [] => none
  | ds => some (value ds)

/-- The number `strtol(s, …, 10)` converts, before it is forced into its range. -/
def strtol (s : Bytes) : Option Int :=
  match s.dropWhile isspace with
  | 45 :: rest => (digits rest).map fun n => -(n : Int)
  | 43 :: rest => (digits rest).map Int.ofNat
  | rest => (digits rest).map Int.ofNat

/-- `atoll(s)`, for numbers in range. -/
def atoll (s : Bytes) : Int := (strtol s).getD 0

/-- The digits `std::to_string` prints. -/
def to_string (n : Int) : Bytes := bytes (toString n)

theorem bytes_ofList (cs : List Char) : bytes (String.ofList cs) = cs.flatMap String.utf8EncodeChar := by
  simp [bytes, List.utf8Encode]

theorem utf8EncodeChar_digit {c : Char} (hdigit : c.isDigit = true) :
    String.utf8EncodeChar c = [c.val.toNat.toUInt8] := by
  rw [Char.isDigit, Bool.and_eq_true, decide_eq_true_eq, decide_eq_true_eq] at hdigit
  have hhigh : c.toNat ≤ 57 := by simpa [UInt32.le_iff_toNat_le] using hdigit.2
  simp only [String.utf8EncodeChar]
  exact if_pos (hhigh.trans (by decide))

theorem isdigit_to_string (n : Nat) : (to_string n).all isdigit = true := by
  have htext : to_string n = bytes (String.ofList (Nat.toDigits 10 n)) := rfl
  rw [htext, bytes_ofList, List.all_flatMap, List.all_eq_true]
  intro c hc
  have hdigit : c.isDigit = true := Nat.isDigit_of_mem_toDigits (by decide) (by decide) hc
  rw [utf8EncodeChar_digit hdigit]
  rw [Char.isDigit, Bool.and_eq_true, decide_eq_true_eq, decide_eq_true_eq] at hdigit
  have hlow : 48 ≤ c.toNat := by simpa [UInt32.le_iff_toNat_le] using hdigit.1
  have hhigh : c.toNat ≤ 57 := by simpa [UInt32.le_iff_toNat_le] using hdigit.2
  simp [isdigit, UInt8.le_iff_toNat_le]
  omega

/-- The digits that are printed read back. -/
theorem value_to_string (n : Nat) : value (to_string n) = n := by
  have htext : to_string n = bytes (String.ofList (Nat.toDigits 10 n)) := rfl
  have hdigits : (Nat.toDigits 10 n).flatMap String.utf8EncodeChar =
      (Nat.toDigits 10 n).map fun c => c.val.toNat.toUInt8 := by
    rw [List.map_eq_flatMap]
    refine List.flatMap_congr fun c hc => ?_
    exact utf8EncodeChar_digit (Nat.isDigit_of_mem_toDigits (by decide) (by decide) hc)
  rw [htext, bytes_ofList, hdigits, value, List.foldl_map]
  refine Eq.trans (List.foldl_ext _ _ _ fun sofar c hc => ?_)
    ((Nat.ofDigitChars_eq_foldl).symm.trans Nat.ofDigitChars_ten_toDigits)
  have hdigit : c.isDigit = true := Nat.isDigit_of_mem_toDigits (by decide) (by decide) hc
  rw [Char.isDigit, Bool.and_eq_true, decide_eq_true_eq, decide_eq_true_eq] at hdigit
  have hhigh : c.toNat ≤ 57 := by simpa [UInt32.le_iff_toNat_le] using hdigit.2
  have hbyte : c.val.toNat.toUInt8.toNat = c.toNat :=
    Nat.mod_eq_of_lt (hhigh.trans_lt (by decide))
  rw [hbyte]
  rfl

theorem to_string_ne_nil (n : Int) : to_string n ≠ [] := by
  have htext : ∀ s : String, bytes s = [] → s = "" := fun s h => bytes_injective h
  intro h
  have hempty := congrArg String.toList (htext _ h)
  cases n with
  | ofNat m =>
      exact Nat.toDigits_ne_nil ((String.toList_ofList (l := Nat.toDigits 10 m)).symm.trans hempty)
  | negSucc m =>
      simp [toString, Int.repr] at hempty

theorem to_string_injective {m n : Nat} (h : to_string m = to_string n) : m = n := by
  have htext : String.ofList (Nat.toDigits 10 m) = String.ofList (Nat.toDigits 10 n) :=
    bytes_injective h
  have hdigits : Nat.toDigits 10 m = Nat.toDigits 10 n := String.ofList_injective htext
  rw [← Nat.ofDigitChars_ten_toDigits (n := m), hdigits, Nat.ofDigitChars_ten_toDigits]

theorem takeWhile_to_string_append (n : Nat) {rest : Bytes} (h : rest.takeWhile isdigit = []) :
    (to_string n ++ rest).takeWhile isdigit = to_string n := by
  have hall : (to_string n).takeWhile isdigit = to_string n :=
    List.takeWhile_eq_self_iff.2 (List.all_eq_true.1 (isdigit_to_string n))
  rw [List.takeWhile_append, hall, if_pos rfl, h, List.append_nil]

theorem digits_to_string (n : Nat) : digits (to_string n) = some n := by
  have htake : (to_string n ++ []).takeWhile isdigit = to_string n := takeWhile_to_string_append n rfl
  rw [List.append_nil] at htake
  rw [digits, htake]
  split
  · next hnil =>
    exact absurd hnil (to_string_ne_nil n)
  · rw [value_to_string]

/-- The last digit of a number stands behind the digits of the tenth of it. -/
theorem to_string_eq (n : Nat) :
    to_string n = (if n < 10 then [] else to_string (n / 10 : Nat)) ++ [(48 + n % 10).toUInt8] := by
  have hlast : bytes (String.ofList [(n % 10).digitChar]) = [(48 + n % 10).toUInt8] := by
    have hall : ∀ d < 10, bytes (String.ofList [Nat.digitChar d]) = [(48 + d).toUInt8] := by decide
    exact hall _ (Nat.mod_lt _ (by decide))
  by_cases hn : n < 10
  · have htext : to_string n = bytes (String.ofList [n.digitChar]) := by
      rw [← Nat.toDigits_of_lt_base hn]
      rfl
    rw [if_pos hn, htext, ← hlast, Nat.mod_eq_of_lt hn, List.nil_append]
  · have htext : to_string n =
        bytes (String.ofList (Nat.toDigits 10 (n / 10) ++ [(n % 10).digitChar])) := by
      rw [← Nat.toDigits_of_base_le (by decide) (not_lt.1 hn)]
      rfl
    rw [if_neg hn, htext, ← hlast, bytes_ofList, bytes_ofList, List.flatMap_append, ← bytes_ofList]
    rfl

theorem to_string_negSucc (n : Nat) : to_string (Int.negSucc n) = 45 :: to_string (n + 1 : Nat) := by
  have htext : to_string (Int.negSucc n) = bytes ("-" ++ toString (n + 1)) := rfl
  rw [htext]
  simp [bytes, to_string]
  rfl

/-- What is printed of a number reads back. -/
theorem strtol_to_string (n : Int) : strtol (to_string n) = some n := by
  cases n with
  | ofNat n =>
      obtain ⟨b, rest, htext⟩ := List.exists_cons_of_ne_nil (to_string_ne_nil (n : Int))
      have hdigit : isdigit b = true := by
        have hall := isdigit_to_string n
        rw [htext, List.all_cons, Bool.and_eq_true] at hall
        exact hall.1
      -- a digit is no space and no sign
      have hspace : isspace b = false := by
        simp only [isdigit, Bool.and_eq_true, decide_eq_true_eq, UInt8.le_iff_toNat_le] at hdigit
        simp [isspace, UInt8.le_iff_toNat_le, ← UInt8.toNat_inj] at hdigit ⊢
        omega
      have hminus : b ≠ 45 := by
        rintro rfl
        cases hdigit
      have hplus : b ≠ 43 := by
        rintro rfl
        cases hdigit
      have hdrop : (to_string n).dropWhile isspace = to_string n := by
        rw [htext, List.dropWhile_cons_of_neg (by simp [hspace])]
      rw [strtol, Int.ofNat_eq_natCast, hdrop]
      split
      · next heq => exact absurd (List.cons.inj (htext.symm.trans heq)).1 hminus
      · next heq => exact absurd (List.cons.inj (htext.symm.trans heq)).1 hplus
      · rw [digits_to_string]; rfl
  | negSucc n =>
      rw [to_string_negSucc, strtol, List.dropWhile_cons_of_neg (by decide)]
      simp only [digits_to_string]
      rfl

theorem length_to_string_le {n k : Nat} (hk : 0 < k) (h : n < 10 ^ k) : (to_string n).length ≤ k := by
  have htext : to_string n = bytes (String.ofList (Nat.toDigits 10 n)) := rfl
  rw [htext, bytes_ofList, List.length_flatMap]
  have hone : (Nat.toDigits 10 n).map (fun c => (String.utf8EncodeChar c).length) =
      (Nat.toDigits 10 n).map fun _ => 1 := by
    refine List.map_congr_left fun c hc => ?_
    have hdigit : c.isDigit = true := Nat.isDigit_of_mem_toDigits (by decide) (by decide) hc
    rw [utf8EncodeChar_digit hdigit]
    rfl
  rw [hone, List.map_const', List.sum_replicate_nat, Nat.mul_one]
  exact (Nat.length_toDigits_le_iff (by decide) hk).2 h

/-- Ten times a number has its digits and a zero. -/
theorem to_string_mul_ten {n : Nat} (hn : 0 < n) : to_string (10 * n : Nat) = to_string n ++ [48] := by
  have hlarge : ¬ 10 * n < 10 := by omega
  have htenth : 10 * n / 10 = n := by omega
  have hlast : 10 * n % 10 = 0 := by omega
  rw [to_string_eq, if_neg hlarge, htenth, hlast]
  rfl

theorem length_to_string_pow (k : Nat) : (to_string (10 ^ k : Nat)).length = k + 1 := by
  induction k with
  | zero =>
      rfl
  | succ k ih =>
      rw [pow_succ', to_string_mul_ten (Nat.pow_pos (by decide)), List.length_append, ih]
      rfl

/-- The digits of the power before it. -/
theorem take_to_string_pow (k : Nat) :
    (to_string (10 ^ (k + 1) : Nat)).take (k + 1) = to_string (10 ^ k : Nat) := by
  rw [pow_succ', to_string_mul_ten (Nat.pow_pos (by decide))]
  exact List.take_left' (length_to_string_pow k)

/-- A number of 64 bits has twenty digits at most, and a sign. -/
theorem length_to_string_int_le {n : Int} (h : n.natAbs < 2 ^ 64) : (to_string n).length ≤ 21 := by
  cases n with
  | ofNat n =>
      have hlen : (to_string n).length ≤ 20 := length_to_string_le (by decide) (h.trans (by decide))
      exact hlen.trans (by decide)
  | negSucc n =>
      have hlen : (to_string (n + 1 : Nat)).length ≤ 20 :=
        length_to_string_le (by decide) (h.trans (by decide))
      rw [to_string_negSucc, List.length_cons]
      omega

example : strtol (bytes " -12ab") = some (-12) ∧ strtol (bytes "x1") = none := by decide

end Numerals
end Myoj
