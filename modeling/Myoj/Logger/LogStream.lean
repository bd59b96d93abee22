import Myoj.Lib.Numerals
import Myoj.Logger.AsyncLogging

/-!
# LogStream — formatting into a fixed array

A `LogStream` writes into an array of 4000 bytes.  Strings are copied in when there is room for them;
the digits of a number are written from the last to the first behind `cur_`, and turned around in place.

* `CharArray` — `data_` and `cur_`; a write outside the array is undefined and gives `none`;
* `formatInteger` — the loop over the remainders, with the mirrored table of digits;
* `Insertion`, `insert` — the operators `<<`;
* `insert_eq` — what one insertion does;
* `insertions_run` — the bytes a fresh stream holds after a sequence of them.

An `int` that stands for a number of bytes is an integer of Lean: it is at most 4000.
-/

namespace Myoj
namespace Logger

def kSmallBuffer : Nat := 4000

/-- The members of a `FixedBuffer`; `cur_` counts from `data_`. -/
structure CharArray (SIZE : Nat) where
  data_ : Bytes
  size : data_.length = SIZE
  cur_ : Nat

namespace CharArray

variable {SIZE : Nat}

/-- The array is not initialised. -/
def new (data_ : { data : Bytes // data.length = SIZE }) : CharArray SIZE := ⟨data_.1, data_.2, 0⟩

section operations

variable (b : CharArray SIZE)

def avail : Int := SIZE - b.cur_

/-- `static_cast<size_t>(avail())` -/
def room : Nat := (b.avail % 2 ^ 64).toNat

/-- `*p = c` -/
def write (p : Nat) (c : UInt8) : Option (CharArray SIZE) :=
  if p < SIZE then some { b with data_ := b.data_.set p c, size := by rw [List.length_set, b.size] }
  else none

/-- `memcpy(p, buf, len)` -/
def memcpy (p : Nat) (buf : Bytes) : Option (CharArray SIZE) :=
  if h : p + buf.length ≤ SIZE then
    some { b with
      data_ := overwrite b.data_ p buf
      size := by rw [length_overwrite (by rwa [b.size]), b.size] }
  else none

/-- `std::reverse(first, last)` -/
def reverse (first last : Nat) : Option (CharArray SIZE) :=
  if h : first ≤ last ∧ last ≤ SIZE then
    some { b with
      data_ := overwrite b.data_ first ((b.data_.take last).drop first).reverse
      size := by
        have hsize := b.size
        rw [length_overwrite, hsize]
        simp only [List.length_reverse, List.length_drop, List.length_take]
        omega }
  else none

def add (len : Nat) : CharArray SIZE := { b with cur_ := b.cur_ + len }

def append (buf : Bytes) : Option (CharArray SIZE) :=
  if buf.length < b.room then (b.memcpy b.cur_ buf).map fun b => b.add buf.length else some b

/-- `toString()` -/
def text : Bytes := b.data_.take b.cur_

end operations

end CharArray

namespace LogStream

def kMaxNumericSize : Int := 48

def digits : Bytes := bytes "9876543210123456789"

/-- `zero[remainder]`; `zero` points at the middle of the table. -/
def zero (remainder : Int) : Option UInt8 :=
  if 0 ≤ 9 + remainder then digits[(9 + remainder).toNat]? else none

variable {SIZE : Nat}

/-- The loop, which leaves `cur` behind the last digit it wrote.  In every type `%` and `/` truncate, and
by 10 they stay in range. -/
def digitLoop (b : CharArray SIZE) (cur : Nat) (num : Int) : Option (CharArray SIZE × Nat) := do
  let c ← zero (num.tmod 10)
  let b ← b.write cur c
  if num.tdiv 10 ≠ 0 then digitLoop b (cur + 1) (num.tdiv 10)
  else some (b, cur + 1)
termination_by num.natAbs
decreasing_by
  rename_i h
  rw [Int.natAbs_tdiv]
  have hpos : 0 < num.natAbs := by
    rw [Int.natAbs_pos]
    rintro rfl
    exact h rfl
  exact Nat.div_lt_self hpos (by decide)

/-- `if(negative) *(cur++) = '-';` -/
def minusSign (num : Int) (b : CharArray SIZE) (cur : Nat) : Option (CharArray SIZE × Nat) :=
  if num < 0 then (b.write cur 45).map fun b => (b, cur + 1) else some (b, cur)

def formatInteger (b : CharArray SIZE) (num : Int) : Option (CharArray SIZE) :=
  if kMaxNumericSize ≤ b.avail then do
    let start := b.cur_
    let (b, cur) ← digitLoop b start num
    let (b, cur) ← minusSign num b cur
    let b ← b.write cur 0
    let b ← b.reverse start cur
    some (b.add (cur - start))
  else some b

/-- `snprintf(buffer_.current(), kMaxNumericSize, "%.12g", v)`, with what is printed. -/
def formatDouble (b : CharArray SIZE) (printed : Bytes) : Option (CharArray SIZE) :=
  if kMaxNumericSize ≤ b.avail then
    (b.memcpy b.cur_ (printed ++ [0])).map fun b => b.add printed.length
  else some b

end LogStream

/-- The right sides of `<<`. -/
inductive Insertion where
  | short (v : Int16)
  | unsignedShort (v : UInt16)
  | int (v : Int32)
  | unsignedInt (v : UInt32)
  | long (v : Int64)
  | unsignedLong (v : UInt64)
  | longLong (v : Int64)
  | unsignedLongLong (v : UInt64)
  /-- `float` or `double`, as `%.12g` prints it. -/
  | double (printed : { s : Bytes // s.length < 48 })
  | char (c : UInt8)
  /-- `const char*`, with what stands from there on, or null. -/
  | pointer (str : Option Bytes)
  | string (str : Bytes)

namespace LogStream

variable {SIZE : Nat}

def insert (b : CharArray SIZE) : Insertion → Option (CharArray SIZE)
  | .short v => formatInteger b v.toInt
  | .unsignedShort v => formatInteger b v.toNat
  | .int v => formatInteger b v.toInt
  | .unsignedInt v => formatInteger b v.toNat
  | .long v => formatInteger b v.toInt
  | .unsignedLong v => formatInteger b v.toNat
  | .longLong v => formatInteger b v.toInt
  | .unsignedLongLong v => formatInteger b v.toNat
  | .double printed => formatDouble b printed
  | .char c => b.append [c]
  | .pointer (some str) => b.append (cstr str)
  | .pointer none => b.append (bytes "(null)")
  | .string str => b.append str

end LogStream

/-! ## What is to be written -/

namespace Insertion

/-- The integer that is inserted, if it is one. -/
def number : Insertion → Option Int
  | .short v => some v.toInt
  | .unsignedShort v => some v.toNat
  | .int v => some v.toInt
  | .unsignedInt v => some v.toNat
  | .long v => some v.toInt
  | .unsignedLong v => some v.toNat
  | .longLong v => some v.toInt
  | .unsignedLongLong v => some v.toNat
  | .double _ | .char _ | .pointer _ | .string _ => none

/-- The decimal numeral, or the string itself. -/
def rendering : Insertion → Bytes
  | .short v => Numerals.to_string v.toInt
  | .unsignedShort v => Numerals.to_string v.toNat
  | .int v => Numerals.to_string v.toInt
  | .unsignedInt v => Numerals.to_string v.toNat
  | .long v => Numerals.to_string v.toInt
  | .unsignedLong v => Numerals.to_string v.toNat
  | .longLong v => Numerals.to_string v.toInt
  | .unsignedLongLong v => Numerals.to_string v.toNat
  | .double printed => printed
  | .char c => [c]
  | .pointer (some str) => cstr str
  | .pointer none => bytes "(null)"
  | .string str => str

/-- A number needs 48 bytes, whatever its digits; a string must leave one free. -/
def fits (v : Insertion) (avail : Nat) : Bool :=
  match v with
  | .char _ | .pointer _ | .string _ => v.rendering.length < avail
  | _ => 48 ≤ avail

/-- The insertions that fit, when so many bytes are in use. -/
def fitting (SIZE : Nat) : Nat → List Insertion → List Insertion
  | _, [] => []
  | used, v :: vs =>
      if v.fits (SIZE - used) then v :: fitting SIZE (used + v.rendering.length) vs
      else fitting SIZE used vs

end Insertion

/-! ## The array -/

namespace CharArray

variable {SIZE : Nat} {b b' : CharArray SIZE}

theorem avail_of_lt (h : b.cur_ < SIZE) : b.avail = (SIZE - b.cur_ : Nat) := by
  unfold avail
  omega

theorem room_of_lt (h : b.cur_ < SIZE) (hsize : SIZE < 2 ^ 64) : b.room = SIZE - b.cur_ := by
  unfold room
  rw [avail_of_lt h]
  omega

theorem length_text (h : b.cur_ ≤ SIZE) : b.text.length = b.cur_ := by
  rw [text, List.length_take, b.size, Nat.min_eq_left h]

/-- A byte behind a stretch makes it longer. -/
theorem write_eq {p : Nat} (h : p < SIZE) (c : UInt8) :
    ∃ b', b.write p c = some b' ∧ b'.cur_ = b.cur_ ∧ b'.data_.take p = b.data_.take p ∧
      b'.data_.take (p + 1) = b.data_.take p ++ [c] := by
  have hp : p < b.data_.length := by rwa [b.size]
  have hlen : (b.data_.take p).length = p := by rw [List.length_take, Nat.min_eq_left hp.le]
  refine ⟨_, if_pos h, rfl, List.take_set_of_le (Nat.le_refl p), ?_⟩
  rw [List.take_set, List.take_succ_eq_append_getElem hp, List.set_append_right _ _ hlen.le, hlen,
    Nat.sub_self, List.set_cons_zero]

/-- The buffer that holds the bytes of the array. -/
def toFixedBuffer (b : CharArray SIZE) (h : b.cur_ ≤ SIZE) : FixedBuffer SIZE where
  data := b.text
  fits := (length_text h).le.trans h

theorem avail_toFixedBuffer (h : b.cur_ ≤ SIZE) : (b.toFixedBuffer h).avail = SIZE - b.cur_ := by
  rw [FixedBuffer.avail, toFixedBuffer, length_text h]

/-- The array refines the buffer. -/
theorem append_toFixedBuffer (h : b.cur_ < SIZE) (hsize : SIZE < 2 ^ 64) (buf : Bytes) :
    ∃ b', b.append buf = some b' ∧ b'.cur_ < SIZE ∧ b'.text = ((b.toFixedBuffer h.le).append buf).data := by
  have havail := avail_toFixedBuffer h.le
  rw [append, room_of_lt h hsize]
  by_cases hroom : buf.length < SIZE - b.cur_
  · have hin : b.cur_ + buf.length ≤ SIZE := by omega
    rw [if_pos hroom, memcpy, dif_pos hin, FixedBuffer.data_append (havail ▸ hroom)]
    refine ⟨_, rfl, ?_, ?_⟩
    · simp only [add]
      omega
    · exact take_overwrite (by rwa [b.size])
  · rw [if_neg hroom, FixedBuffer.append, dif_neg (by rwa [havail])]
    exact ⟨b, rfl, h, rfl⟩

theorem append_eq (h : b.cur_ < SIZE) (hsize : SIZE < 2 ^ 64) (buf : Bytes) :
    ∃ b', b.append buf = some b' ∧ b'.cur_ < SIZE ∧
      b'.text = b.text ++ if buf.length < SIZE - b.cur_ then buf else [] := by
  obtain ⟨b', happend, hcur, htext⟩ := append_toFixedBuffer h hsize buf
  have havail := avail_toFixedBuffer h.le
  refine ⟨b', happend, hcur, htext.trans ?_⟩
  by_cases hroom : buf.length < SIZE - b.cur_
  · rw [if_pos hroom, FixedBuffer.data_append (havail ▸ hroom)]
    rfl
  · rw [if_neg hroom, List.append_nil, FixedBuffer.append, dif_neg (by rwa [havail])]
    rfl

end CharArray

/-! ## The digits of a number -/

namespace LogStream

open CharArray
open Numerals (to_string to_string_eq to_string_negSucc length_to_string_int_le)

variable {SIZE : Nat} {b : CharArray SIZE}

/-- The table is mirrored, so that a negative remainder gives the digit too. -/
theorem zero_eq {remainder : Int} (h : remainder.natAbs < 10) :
    zero remainder = some (48 + remainder.natAbs).toUInt8 := by
  have hall : ∀ d < 10, zero (d : Nat) = some (48 + d).toUInt8 ∧
      zero (-(d : Nat)) = some (48 + d).toUInt8 := by decide
  rcases Int.natAbs_eq remainder with hpos | hneg
  · rw [hpos]
    exact (hall _ h).1
  · rw [hneg, Int.natAbs_neg]
    exact (hall _ h).2

/-- The digits are written from the last to the first. -/
theorem digitLoop_eq (b : CharArray SIZE) (cur : Nat) (num : Int)
    (h : cur + (to_string num.natAbs).length ≤ SIZE) :
    ∃ b', digitLoop b cur num = some (b', cur + (to_string num.natAbs).length) ∧ b'.cur_ = b.cur_ ∧
      b'.data_.take (cur + (to_string num.natAbs).length) =
        b.data_.take cur ++ (to_string num.natAbs).reverse := by
  induction hn : num.natAbs using Nat.strong_induction_on generalizing b cur num with
  | _ n ih =>
      have hremainder : (num.tmod 10).natAbs = n % 10 := by rw [Int.natAbs_tmod, hn]; rfl
      have hquotient : (num.tdiv 10).natAbs = n / 10 := by rw [Int.natAbs_tdiv, hn]; rfl
      have hzero : zero (num.tmod 10) = some (48 + n % 10).toUInt8 := by
        rw [zero_eq (by omega), hremainder]
      rw [hn, to_string_eq n, List.length_append, List.length_singleton] at h
      obtain ⟨b₁, hwrite, hcur, -, htake⟩ := write_eq (b := b) (show cur < SIZE by omega)
        (48 + n % 10).toUInt8
      rw [digitLoop, hzero]
      simp only [Option.bind_eq_bind, Option.bind_some, hwrite]
      by_cases hlast : n < 10
      · -- no digit before this one
        have hdone : num.tdiv 10 = 0 := Int.natAbs_eq_zero.1 (by omega)
        rw [to_string_eq n, if_pos hlast, hdone]
        exact ⟨b₁, rfl, hcur, htake⟩
      · rw [if_neg hlast] at h
        have hmore : num.tdiv 10 ≠ 0 := by
          intro hdone
          rw [hdone] at hquotient
          simp at hquotient
          omega
        rw [if_pos hmore]
        obtain ⟨b₂, hrest, hcur₂, htake₂⟩ :=
          ih (n / 10) (by omega) b₁ (cur + 1) (num.tdiv 10) (by rw [hquotient]; omega) hquotient
        have hlen : (to_string n).length = (to_string (n / 10 : Nat)).length + 1 := by
          rw [to_string_eq n, if_neg hlast, List.length_append, List.length_singleton]
        have hend : cur + 1 + (to_string (n / 10 : Nat)).length = cur + (to_string n).length := by omega
        rw [hend] at hrest htake₂
        refine ⟨b₂, hrest, hcur₂.trans hcur, ?_⟩
        rw [htake₂, htake, to_string_eq n, if_neg hlast, List.reverse_append]
        simp

/-- The sign comes last: with it, what was written is the numeral back to front. -/
theorem minusSign_eq {num : Int} {start : Nat} {text : Bytes}
    (hin : start + (to_string num).length ≤ SIZE)
    (htake : b.data_.take (start + (to_string num.natAbs).length) =
      text ++ (to_string num.natAbs).reverse) :
    ∃ b', minusSign num b (start + (to_string num.natAbs).length) =
        some (b', start + (to_string num).length) ∧ b'.cur_ = b.cur_ ∧
      b'.data_.take (start + (to_string num).length) = text ++ (to_string num).reverse := by
  cases num with
  | ofNat n =>
      exact ⟨b, if_neg (by simp), rfl, htake⟩
  | negSucc n =>
      have hnat : (Int.negSucc n).natAbs = n + 1 := rfl
      rw [hnat] at htake ⊢
      rw [to_string_negSucc, List.length_cons] at hin ⊢
      obtain ⟨b', hwrite, hcur, -, htake'⟩ :=
        write_eq (b := b) (show start + (to_string (n + 1 : Nat)).length < SIZE by omega) 45
      refine ⟨b', ?_, hcur, ?_⟩
      · rw [minusSign, if_pos (Int.negSucc_lt_zero n), hwrite]
        rfl
      · rw [← Nat.add_assoc, htake', htake, List.reverse_cons, List.append_assoc]

/-- `reverse` turns around what was written behind `cur_`. -/
theorem reverse_eq {cur : Nat} {text : Bytes} (hcur : b.cur_ + text.length = cur) (hin : cur ≤ SIZE)
    (htake : b.data_.take cur = b.text ++ text.reverse) :
    ∃ b', b.reverse b.cur_ cur = some b' ∧ b'.cur_ = b.cur_ ∧
      b'.data_.take cur = b.text ++ text := by
  have hlen : b.text.length = b.cur_ := length_text (by omega)
  have hslice : ((b.data_.take cur).drop b.cur_).reverse = text := by
    rw [htake, ← hlen, List.drop_left, List.reverse_reverse]
  have hle : b.cur_ ≤ cur := by omega
  rw [CharArray.reverse, dif_pos ⟨hle, hin⟩]
  refine ⟨_, rfl, rfl, ?_⟩
  simp only [hslice]
  have hin' : b.cur_ + text.length ≤ b.data_.length := by rw [b.size]; omega
  rw [← hcur, take_overwrite hin', CharArray.text]

/-- The digits, the sign and the zero behind them stay inside the array. -/
theorem formatInteger_eq {num : Int} (hnum : num.natAbs < 2 ^ 64) (h : b.cur_ < SIZE) :
    ∃ b', formatInteger b num = some b' ∧ b'.cur_ < SIZE ∧
      b'.text = b.text ++ if 48 ≤ SIZE - b.cur_ then to_string num else [] := by
  rw [formatInteger, avail_of_lt h]
  by_cases hroom : 48 ≤ SIZE - b.cur_
  · have hroom' : kMaxNumericSize ≤ (SIZE - b.cur_ : Nat) := Int.ofNat_le.2 hroom
    rw [if_pos hroom', if_pos hroom]
    have hlen : (to_string num).length ≤ 21 := length_to_string_int_le hnum
    have habs : (to_string num.natAbs).length ≤ 21 := length_to_string_int_le ((Int.natAbs_natCast _).trans_lt hnum)
    obtain ⟨b₁, hdigits, hcur₁, htake₁⟩ := digitLoop_eq b b.cur_ num (by omega)
    obtain ⟨b₂, hsign, hcur₂, htake₂⟩ := minusSign_eq (b := b₁) (by omega) htake₁
    obtain ⟨b₃, hnul, hcur₃, htake₃, -⟩ :=
      write_eq (b := b₂) (show b.cur_ + (to_string num).length < SIZE by omega) 0
    have hcur : b₃.cur_ = b.cur_ := hcur₃.trans (hcur₂.trans hcur₁)
    have hwritten : b₃.data_.take (b.cur_ + (to_string num).length) =
        b.text ++ (to_string num).reverse := htake₃.trans htake₂
    have htext : b₃.text = b.text := by
      have hstart := congrArg (List.take b.cur_) hwritten
      rwa [List.take_take, Nat.min_eq_left (Nat.le_add_right _ _),
        List.take_left' (length_text h.le), ← hcur] at hstart
    have hend : b₃.cur_ + (to_string num).length = b.cur_ + (to_string num).length := by rw [hcur]
    obtain ⟨b₄, hreverse, hcur₄, htake₄⟩ := reverse_eq hend (by omega) (by rw [hwritten, htext])
    have hlast : b₄.cur_ = b.cur_ := hcur₄.trans hcur
    rw [hcur] at hreverse
    refine ⟨b₄.add (to_string num).length, ?_, ?_, ?_⟩
    · simp only [hdigits, hsign, hnul, hreverse, Option.bind_eq_bind, Option.bind_some,
        Nat.add_sub_cancel_left]
    · simp only [add, hlast]
      omega
    · simp only [CharArray.text, add, hlast]
      rw [htake₄, htext]
      rfl
  · have hroom' : ¬ kMaxNumericSize ≤ (SIZE - b.cur_ : Nat) := fun hle => hroom (Int.ofNat_le.1 hle)
    rw [if_neg hroom', if_neg hroom, List.append_nil]
    exact ⟨b, rfl, h, rfl⟩

/-! ## Insertions -/

/-- The integers of all types are formatted in one way. -/
theorem insert_number {v : Insertion} {num : Int} (h : v.number = some num) :
    insert b v = formatInteger b num ∧ v.rendering = to_string num ∧ num.natAbs < 2 ^ 64 ∧
      ∀ avail, v.fits avail = decide (48 ≤ avail) := by
  cases v with
  | double printed | char c | pointer str | string str =>
      cases h
  | short n =>
      obtain rfl : n.toInt = num := Option.some.inj h
      have := n.le_toInt
      have := n.toInt_lt
      exact ⟨rfl, rfl, by omega, fun _ => rfl⟩
  | int n =>
      obtain rfl : n.toInt = num := Option.some.inj h
      have := n.le_toInt
      have := n.toInt_lt
      exact ⟨rfl, rfl, by omega, fun _ => rfl⟩
  | long n | longLong n =>
      obtain rfl : n.toInt = num := Option.some.inj h
      have := n.le_toInt
      have := n.toInt_lt
      exact ⟨rfl, rfl, by omega, fun _ => rfl⟩
  | unsignedShort n =>
      obtain rfl : (n.toNat : Int) = num := Option.some.inj h
      have := n.toNat_lt
      exact ⟨rfl, rfl, by omega, fun _ => rfl⟩
  | unsignedInt n =>
      obtain rfl : (n.toNat : Int) = num := Option.some.inj h
      have := n.toNat_lt
      exact ⟨rfl, rfl, by omega, fun _ => rfl⟩
  | unsignedLong n | unsignedLongLong n =>
      obtain rfl : (n.toNat : Int) = num := Option.some.inj h
      have := n.toNat_lt
      exact ⟨rfl, rfl, by omega, fun _ => rfl⟩

/-- The zero that is printed behind the number fits too. -/
theorem formatDouble_eq {printed : Bytes} (hprinted : printed.length < 48) (h : b.cur_ < SIZE) :
    ∃ b', formatDouble b printed = some b' ∧ b'.cur_ < SIZE ∧
      b'.text = b.text ++ if 48 ≤ SIZE - b.cur_ then printed else [] := by
  rw [formatDouble, avail_of_lt h]
  by_cases hroom : 48 ≤ SIZE - b.cur_
  · have hroom' : kMaxNumericSize ≤ (SIZE - b.cur_ : Nat) := Int.ofNat_le.2 hroom
    have hin : b.cur_ + (printed ++ [0]).length ≤ SIZE := by simp; omega
    rw [if_pos hroom', if_pos hroom, memcpy, dif_pos hin]
    refine ⟨_, rfl, ?_, ?_⟩
    · simp only [add]
      omega
    · have htake : (overwrite b.data_ b.cur_ (printed ++ [0])).take (b.cur_ + (printed ++ [0]).length) =
          b.text ++ (printed ++ [0]) := take_overwrite (by rwa [b.size])
      have hlen : b.cur_ + printed.length = (b.text ++ printed).length := by
        rw [List.length_append, length_text h.le]
      calc (overwrite b.data_ b.cur_ (printed ++ [0])).take (b.cur_ + printed.length)
          = ((overwrite b.data_ b.cur_ (printed ++ [0])).take
              (b.cur_ + (printed ++ [0]).length)).take (b.cur_ + printed.length) := by
            rw [List.take_take, Nat.min_eq_left (by simp)]
        _ = ((b.text ++ printed) ++ [0]).take (b.cur_ + printed.length) := by
            rw [htake, List.append_assoc]
        _ = b.text ++ printed := by rw [hlen, List.take_left]
  · have hroom' : ¬ kMaxNumericSize ≤ (SIZE - b.cur_ : Nat) := fun hle => hroom (Int.ofNat_le.1 hle)
    rw [if_neg hroom', if_neg hroom, List.append_nil]
    exact ⟨b, rfl, h, rfl⟩

theorem insert_string {v : Insertion} (h : b.cur_ < SIZE) (hsize : SIZE < 2 ^ 64)
    (hinsert : insert b v = b.append v.rendering)
    (hfits : ∀ avail, v.fits avail = decide (v.rendering.length < avail)) :
    ∃ b', insert b v = some b' ∧ b'.cur_ < SIZE ∧
      b'.text = b.text ++ if v.fits (SIZE - b.cur_) then v.rendering else [] := by
  rw [hinsert, hfits]
  simpa only [decide_eq_true_eq] using append_eq h hsize v.rendering

/-- An insertion writes its rendering if it fits and nothing otherwise, all of it inside the array. -/
theorem insert_eq (h : b.cur_ < SIZE) (hsize : SIZE < 2 ^ 64) (v : Insertion) :
    ∃ b', insert b v = some b' ∧ b'.cur_ < SIZE ∧
      b'.text = b.text ++ if v.fits (SIZE - b.cur_) then v.rendering else [] := by
  cases hnumber : v.number with
  | some num =>
      obtain ⟨hinsert, hrendering, hnum, hfits⟩ := insert_number hnumber
      rw [hinsert]
      simpa [hrendering, hfits] using formatInteger_eq hnum h
  | none =>
      cases v with
      | double printed =>
          simpa [insert, Insertion.fits, Insertion.rendering] using formatDouble_eq printed.2 h
      | char c =>
          exact insert_string h hsize rfl fun _ => rfl
      | pointer str =>
          cases str <;> exact insert_string h hsize rfl fun _ => rfl
      | string str =>
          exact insert_string h hsize rfl fun _ => rfl
      | _ =>
          cases hnumber

theorem insertions_eq (h : b.cur_ < SIZE) (hsize : SIZE < 2 ^ 64) (vs : List Insertion) :
    ∃ b', vs.foldlM insert b = some b' ∧ b'.cur_ < SIZE ∧
      b'.text = b.text ++ ((Insertion.fitting SIZE b.cur_ vs).map Insertion.rendering).flatten := by
  induction vs generalizing b with
  | nil =>
      exact ⟨b, rfl, h, by simp [Insertion.fitting]⟩
  | cons v vs ih =>
      obtain ⟨b₁, hinsert, hcur, htext⟩ := insert_eq h hsize v
      obtain ⟨b₂, hrest, hcur₂, htext₂⟩ := ih hcur
      refine ⟨b₂, by simp [List.foldlM_cons, hinsert, hrest], hcur₂, ?_⟩
      have hused : b₁.cur_ = b.cur_ + (if v.fits (SIZE - b.cur_) then v.rendering else []).length := by
        rw [← length_text hcur.le, htext, List.length_append, length_text h.le]
      rw [htext₂, htext, Insertion.fitting]
      by_cases hfits : v.fits (SIZE - b.cur_)
      · rw [if_pos hfits] at hused ⊢
        simp [hused, hfits]
      · rw [if_neg hfits] at hused ⊢
        simp [hused, hfits]

/-- **Formatting.**  Whatever stands in the array at first, a fresh stream ends up with the renderings of
the insertions that fit, and nothing is written outside the array. -/
theorem insertions_run (data_ : { data : Bytes // data.length = kSmallBuffer }) (vs : List Insertion) :
    ∃ b, vs.foldlM insert (CharArray.new data_) = some b ∧
      b.text = ((Insertion.fitting kSmallBuffer 0 vs).map Insertion.rendering).flatten ∧
      b.cur_ < kSmallBuffer := by
  obtain ⟨b, hrun, hcur, htext⟩ :=
    insertions_eq (b := CharArray.new data_) (show 0 < kSmallBuffer by decide) (by decide) vs
  refine ⟨b, hrun, ?_, hcur⟩
  simpa [CharArray.text, CharArray.new] using htext

end LogStream

end Logger
end Myoj
