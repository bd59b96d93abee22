import Mathlib.Algebra.GroupWithZero.Nat
import Mathlib.Data.List.TakeDrop
import Mathlib.Data.List.TakeWhile

/-!
# Bytes — byte strings, searching and overwriting

`std::string` and `char` ranges are lists of bytes.  This module holds the standard-library
operations the sources use on them, and what the proofs need about each:

* `bytes` — the bytes of a string literal;
* `cutAt` — `std::find` of one byte, as the two sides of it;
* `search` — `std::search`, the first position where a pattern occurs, or the length of the range;
* `overwrite` — `std::copy` into the middle of an array;
* `getlines` — repeated `std::getline` with a delimiter;
* `cstr` — a byte string read back through a `const char*`.
-/

namespace Myoj

abbrev Bytes := List UInt8

/-- The bytes of a string literal. -/
def bytes (s : String) : Bytes := s.toUTF8.data.toList

theorem bytes_injective : Function.Injective bytes := by
  intro s t h
  have hdata : s.toUTF8.data = t.toUTF8.data := Array.toList_inj.1 h
  exact String.toByteArray_inj.1 (ByteArray.ext hdata)

@[simp] theorem bytes_inj {s t : String} : bytes s = bytes t ↔ s = t :=
  bytes_injective.eq_iff

/-! ## `std::search` -/

/-- Offset of the first occurrence of `pat` in `hay`; the length of `hay` when there is none. -/
def search (pat : Bytes) : Bytes → Nat
  | [] => 0
  | b :: hay => if pat <+: b :: hay then 0 else search pat hay + 1

/-- Searching for a single byte finds the end of the leading stretch free of it. -/
theorem search_singleton (c : UInt8) (hay : Bytes) :
    search [c] hay = (hay.takeWhile (· ≠ c)).length := by
  induction hay with
  | nil =>
      rfl
  | cons b hay ih =>
      by_cases hb : b = c
      · subst hb
        simp [search]
      · have hne : ¬ [c] <+: b :: hay := by
          simp [List.cons_prefix_cons, Ne.symm hb]
        simp [search, hne, ih, hb]

/-! ## Splitting at the first occurrence of a byte -/

section firstOccurrence

variable {c : UInt8} {xs ys : Bytes}

theorem forall_ne_of_not_mem (h : c ∉ xs) : ∀ x ∈ xs, decide (x ≠ c) = true := by
  intro x hx
  simpa using fun hxc : x = c => h (hxc ▸ hx)

theorem takeWhile_ne_of_not_mem (h : c ∉ xs) : xs.takeWhile (· ≠ c) = xs :=
  List.takeWhile_eq_self_iff.2 (forall_ne_of_not_mem h)

theorem takeWhile_ne_append (h : c ∉ xs) : (xs ++ c :: ys).takeWhile (· ≠ c) = xs := by
  rw [List.takeWhile_append_of_pos (forall_ne_of_not_mem h)]
  simp

theorem dropWhile_ne_append (h : c ∉ xs) : (xs ++ c :: ys).dropWhile (· ≠ c) = c :: ys := by
  rw [List.dropWhile_append_of_pos (forall_ne_of_not_mem h)]
  simp

/-- `std::find(s, c)` with the two sides of the byte found; `none` when there is no `c`. -/
def cutAt (c : UInt8) (s : Bytes) : Option (Bytes × Bytes) :=
  match s.span (· ≠ c) with
  | (_, []) => none
  | (before, _ :: after) => some (before, after)

theorem cutAt_append (h : c ∉ xs) : cutAt c (xs ++ c :: ys) = some (xs, ys) := by
  simp only [cutAt, List.span_eq_takeWhile_dropWhile, takeWhile_ne_append h, dropWhile_ne_append h]

theorem cutAt_of_not_mem (h : c ∉ xs) : cutAt c xs = none := by
  simp only [cutAt, List.span_eq_takeWhile_dropWhile,
    List.dropWhile_eq_nil_iff.2 (forall_ne_of_not_mem h)]

theorem cutAt_eq_some_iff {zs : Bytes} :
    cutAt c zs = some (xs, ys) ↔ zs = xs ++ c :: ys ∧ c ∉ xs := by
  constructor
  · intro h
    by_cases hc : c ∈ zs
    · rcases List.eq_append_cons_of_mem hc with ⟨as, bs, rfl, has⟩
      rw [cutAt_append has] at h
      rcases Prod.mk.inj (Option.some.inj h) with ⟨rfl, rfl⟩
      exact ⟨rfl, has⟩
    · rw [cutAt_of_not_mem hc] at h
      cases h
  · rintro ⟨rfl, h⟩
    exact cutAt_append h

theorem cutAt_eq_none_iff : cutAt c xs = none ↔ c ∉ xs := by
  refine ⟨fun h hc => ?_, cutAt_of_not_mem⟩
  rcases List.eq_append_cons_of_mem hc with ⟨as, bs, rfl, has⟩
  rw [cutAt_append has] at h
  cases h

theorem length_of_cutAt {zs : Bytes} (h : cutAt c zs = some (xs, ys)) : ys.length < zs.length := by
  rw [(cutAt_eq_some_iff.1 h).1]
  simp only [List.length_append, List.length_cons]
  omega

end firstOccurrence

/-! ## Overwriting a stretch of an array -/

/-- `std::copy(ys, ys + |ys|, xs + i)`. -/
def overwrite {α : Type*} (xs : List α) (i : Nat) (ys : List α) : List α :=
  xs.take i ++ ys ++ xs.drop (i + ys.length)

section overwrite

variable {α : Type*} {xs ys : List α} {i : Nat}

theorem length_overwrite (h : i + ys.length ≤ xs.length) :
    (overwrite xs i ys).length = xs.length := by
  simp only [overwrite, List.length_append, List.length_take, List.length_drop]
  omega

theorem take_overwrite (h : i + ys.length ≤ xs.length) :
    (overwrite xs i ys).take (i + ys.length) = xs.take i ++ ys := by
  have hlen : (xs.take i ++ ys).length = i + ys.length := by
    simp only [List.length_append, List.length_take]
    omega
  simp only [overwrite]
  rw [← hlen, List.take_left]

theorem getElem?_overwrite_of_le {k : Nat} (h : i + ys.length ≤ xs.length) (hk : i + ys.length ≤ k) :
    (overwrite xs i ys)[k]? = xs[k]? := by
  have hlen : (xs.take i ++ ys).length = i + ys.length := by
    simp only [List.length_append, List.length_take]
    omega
  rw [overwrite, List.getElem?_append_right (by omega), hlen, List.getElem?_drop]
  congr 1
  omega

/-- Writing the element behind the stretch makes the stretch longer. -/
theorem set_overwrite (h : i + ys.length < xs.length) (y : α) :
    (overwrite xs i ys).set (i + ys.length) y = overwrite xs i (ys ++ [y]) := by
  have hlen : (xs.take i ++ ys).length = i + ys.length := by
    simp only [List.length_append, List.length_take]
    omega
  have hdrop : xs.drop (i + ys.length) = xs[i + ys.length] :: xs.drop (i + ys.length + 1) :=
    List.drop_eq_getElem_cons h
  rw [overwrite, List.set_append_right _ _ (by omega), hlen, Nat.sub_self, hdrop, List.set_cons_zero,
    overwrite]
  simp [Nat.add_assoc]

end overwrite

/-- `std::copy(xs + src, xs + src + n, xs + dst)` within one array, element after element. -/
def copyForward {α : Type*} (xs : List α) (src dst : Nat) : Nat → List α
  | 0 => xs
  | n + 1 =>
      let copied := copyForward xs src dst n
      match copied[src + n]? with
      | some x => copied.set (dst + n) x
      | none => copied

/-- Copying towards the front reads every element before it is overwritten. -/
theorem copyForward_eq {α : Type*} {xs : List α} {src dst n : Nat} (hdst : dst ≤ src)
    (hsrc : src + n ≤ xs.length) :
    copyForward xs src dst n = overwrite xs dst ((xs.drop src).take n) := by
  induction n with
  | zero =>
      simp [copyForward, overwrite]
  | succ n ih =>
      have hlen : ((xs.drop src).take n).length = n := by
        rw [List.length_take, List.length_drop]
        omega
      have hread : (overwrite xs dst ((xs.drop src).take n))[src + n]? = some xs[src + n] := by
        rw [getElem?_overwrite_of_le (by omega) (by omega), List.getElem?_eq_getElem]
      have hnext : (xs.drop src).take (n + 1) = (xs.drop src).take n ++ [xs[src + n]] := by
        rw [List.take_add_one, List.getElem?_drop, List.getElem?_eq_getElem (by omega)]
        rfl
      have hset : (overwrite xs dst ((xs.drop src).take n)).set (dst + n) xs[src + n] =
          overwrite xs dst ((xs.drop src).take n ++ [xs[src + n]]) := by
        rw [← set_overwrite (by omega), hlen]
      simp only [copyForward, ih (by omega), hread]
      rw [hset, hnext]

/-! ## `std::getline` and C strings -/

/-- The strings that repeated `std::getline(stream, s, d)` yields: the pieces between delimiters,
without an empty piece at the end of the stream.  `cur` holds the characters extracted for the
current piece, `started` whether anything (also a delimiter) was extracted for it. -/
def getlinesFrom (d : UInt8) : Bytes → Bytes → Bool → List Bytes
  | [], cur, started => if started then [cur] else []
  | b :: bs, cur, _ =>
      if b = d then cur :: getlinesFrom d bs [] false else getlinesFrom d bs (cur ++ [b]) true

def getlines (d : UInt8) (s : Bytes) : List Bytes := getlinesFrom d s [] false

section getlines

variable {d : UInt8} {xs ys cur : Bytes} {started : Bool}

theorem getlinesFrom_append (h : d ∉ xs) :
    getlinesFrom d (xs ++ d :: ys) cur started = (cur ++ xs) :: getlinesFrom d ys [] false := by
  induction xs generalizing cur started with
  | nil =>
      simp [getlinesFrom]
  | cons b xs ih =>
      rw [List.mem_cons, not_or] at h
      rw [List.cons_append, getlinesFrom, if_neg (Ne.symm h.1), ih h.2, List.append_assoc]
      rfl

theorem getlinesFrom_of_not_mem (h : d ∉ xs) (hpiece : xs ≠ [] ∨ started = true) :
    getlinesFrom d xs cur started = [cur ++ xs] := by
  induction xs generalizing cur started with
  | nil =>
      simpa [getlinesFrom] using hpiece
  | cons b xs ih =>
      rw [List.mem_cons, not_or] at h
      rw [getlinesFrom, if_neg (Ne.symm h.1), ih h.2 (.inr rfl), List.append_assoc]
      rfl

/-- Reading the pieces between delimiters undoes joining them. -/
theorem getlines_intercalate {pieces : List Bytes} (h : ∀ p ∈ pieces, p ≠ [] ∧ d ∉ p) :
    getlines d ([d].intercalate pieces) = pieces := by
  rw [getlines]
  induction pieces with
  | nil =>
      rfl
  | cons p pieces ih =>
      have hp := h p (List.mem_cons_self)
      cases pieces with
      | nil =>
          rw [List.intercalate_singleton, getlinesFrom_of_not_mem hp.2 (.inl hp.1), List.nil_append]
      | cons q pieces =>
          have hrest := ih fun p' hp' => h p' (List.mem_cons_of_mem _ hp')
          rw [List.intercalate_cons_cons, List.append_assoc, List.singleton_append,
            getlinesFrom_append hp.2, hrest, List.nil_append]

end getlines

/-- One `std::getline(stream, s, d)` with what is left in the stream; `none` when it fails because
no character could be extracted. -/
def getline (d : UInt8) (s : Bytes) : Option (Bytes × Bytes) :=
  if s = [] then none
  else some ((cutAt d s).getD (s, []))

/-- What a `const char*` to the bytes denotes: the bytes before the first NUL. -/
def cstr (s : Bytes) : Bytes := s.takeWhile (· ≠ 0)

theorem cstr_of_not_mem {s : Bytes} (h : 0 ∉ s) : cstr s = s := takeWhile_ne_of_not_mem h

theorem length_cstr_lt_iff {s : Bytes} : (cstr s).length < s.length ↔ 0 ∈ s := by
  constructor
  · intro hlt
    by_contra hmem
    rw [cstr_of_not_mem hmem] at hlt
    exact absurd hlt (Nat.lt_irrefl _)
  · intro hmem
    obtain ⟨before, after, rfl, hbefore⟩ := List.eq_append_cons_of_mem hmem
    rw [cstr, takeWhile_ne_append hbefore]
    simp

theorem length_cstr_le (s : Bytes) : (cstr s).length ≤ s.length :=
  (List.takeWhile_prefix _).length_le

end Myoj
