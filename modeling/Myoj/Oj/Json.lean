import Mathlib.Data.Rat.Floor
import Myoj.Lib.Bytes

/-!
# Json — nlohmann::json values and what throws on them

The server passes every request and every answer around as `Json`.  Which accesses throw decides
whether a handler returns:

* `Json` — the values, with byte strings for `string`;
* `Exception` — what a handler can be left with;
* `Json.index` — `json["k"]` read on a non-const value: `null` for a missing key, `type_error` 305 on
  anything that is neither an object nor `null`;
* `Json.set` — `json["k"] = v`, which turns `null` into an object;
* `Json.getString`, `getInt`, `getInt64`, `getBool` — `get<T>()`, `type_error` 302 on a wrong type;
* `Json.Dumpable` — `dump()` throws `type_error` 316 on a string that is not UTF-8.

Reading a missing key of a non-const object also inserts a `null` there.  No reader below tells a
missing key from a `null` one, so `index` leaves the value as it is.
-/

namespace Myoj
namespace Oj

inductive Json where
  | null
  | boolean (b : Bool)
  | number_integer (n : Int)
  | number_unsigned (n : Nat)
  | number_float (q : Rat)
  | string (s : Bytes)
  | array (elements : List Json)
  | object (members : List (String × Json))

/-- What ends a function other than by returning. -/
inductive Exception where
  /-- `Json::parse` on malformed text. -/
  | parse_error
  /-- `nlohmann::json::type_error` with its number. -/
  | type_error (id : Nat)
  /-- `std::invalid_argument` of `std::stoi` and `std::stoll`. -/
  | invalid_argument
  /-- `std::out_of_range` of `std::stoi` and `std::stoll`. -/
  | out_of_range
  /-- Whatever the database drivers throw. -/
  | database
  /-- The `assert` in the const `operator[]`: no exception, the process is aborted.  No const value is
  indexed inside a `try`. -/
  | assertion
  deriving DecidableEq, Repr

namespace Json

/-- A string literal as a value. -/
def str (s : String) : Json := .string (bytes s)

@[simp] theorem str_inj {s t : String} : str s = str t ↔ s = t := by
  rw [str, str, string.injEq, bytes_inj]

/-! ## Members -/

/-- Assign the member `k`, in place when the key is there. -/
def assign (k : String) (v : Json) : List (String × Json) → List (String × Json)
  | [] => [(k, v)]
  | (k', v') :: ms => if k' = k then (k, v) :: ms else (k', v') :: assign k v ms

/-- `json[k]` on a non-const value, read. -/
def index (j : Json) (k : String) : Except Exception Json :=
  match j with
  | .object ms => .ok ((ms.lookup k).getD .null)
  | .null => .ok .null
  | _ => .error (.type_error 305)

/-- `json[k] = v`. -/
def set (j : Json) (k : String) (v : Json) : Except Exception Json :=
  match j with
  | .object ms => .ok (.object (assign k v ms))
  | .null => .ok (.object [(k, v)])
  | _ => .error (.type_error 305)

/-- `json[k]` on a const value: the key must be there. -/
def constIndex (j : Json) (k : String) : Except Exception Json :=
  match j with
  | .object ms =>
      match ms.lookup k with
      | some v => .ok v
      | none => .error .assertion
  | _ => .error (.type_error 305)

/-- `json[k] = v` on a value that is known to be an object or `null`. -/
def put (j : Json) (k : String) (v : Json) : Json :=
  match j with
  | .object ms => .object (assign k v ms)
  | _ => .object [(k, v)]

/-- The values `operator[]` with a key accepts. -/
def Indexable : Json → Bool
  | .object _ => true
  | .null => true
  | _ => false

/-- The value under `k`, `null` when there is none: what `index` reads where it does not throw. -/
def member (j : Json) (k : String) : Json :=
  match j with
  | .object ms => (ms.lookup k).getD .null
  | _ => .null

@[simp] theorem member_null (k : String) : (null).member k = .null := rfl

theorem index_eq (j : Json) (k : String) :
    j.index k = if j.Indexable then .ok (j.member k) else .error (.type_error 305) := by
  cases j <;> rfl

theorem index_of_indexable {j : Json} (h : j.Indexable) (k : String) :
    j.index k = .ok (j.member k) := by
  rw [index_eq, if_pos h]

theorem lookup_cons_ite (k k' : String) (v : Json) (ms : List (String × Json)) :
    ((k', v) :: ms).lookup k = if k = k' then some v else ms.lookup k := by
  by_cases hk : k = k'
  · simp [hk]
  · simp [List.lookup_cons, hk, beq_eq_false_iff_ne.2 hk]

theorem lookup_assign (k : String) (v : Json) (ms : List (String × Json)) (k' : String) :
    (assign k v ms).lookup k' = if k' = k then some v else ms.lookup k' := by
  induction ms with
  | nil =>
      simp [assign, lookup_cons_ite]
  | cons m ms ih =>
      rcases m with ⟨k₁, v₁⟩
      by_cases hk₁ : k₁ = k
      · subst hk₁
        simp only [assign, if_true, lookup_cons_ite]
        split <;> rfl
      · simp only [assign, hk₁, if_false, lookup_cons_ite, ih]
        by_cases hk : k' = k
        · simp [hk, Ne.symm hk₁]
        · simp [hk]

@[simp] theorem indexable_put (j : Json) (k : String) (v : Json) : (j.put k v).Indexable = true := by
  cases j <;> rfl

/-- Assigning to an object or to `null` gives an object that differs in that member only. -/
@[simp] theorem member_put {j : Json} (h : j.Indexable) (k : String) (v : Json) (k' : String) :
    (j.put k v).member k' = if k' = k then v else j.member k' := by
  cases j with
  | null =>
      by_cases hk : k' = k <;> simp [put, member, lookup_cons_ite, hk]
  | object ms =>
      by_cases hk : k' = k <;> simp [put, member, lookup_assign, hk]
  | _ =>
      cases h

theorem index_put {j : Json} (h : j.Indexable) (k : String) (v : Json) (k' : String) :
    (j.put k v).index k' = if k' = k then .ok v else j.index k' := by
  rw [index_of_indexable (indexable_put ..), member_put h, index_of_indexable h]
  split <;> rfl

theorem set_eq (j : Json) (k : String) (v : Json) :
    j.set k v = if j.Indexable then .ok (j.put k v) else .error (.type_error 305) := by
  cases j <;> rfl

theorem set_of_indexable {j : Json} (h : j.Indexable) (k : String) (v : Json) :
    j.set k v = .ok (j.put k v) := by
  rw [set_eq, if_pos h]

/-! ## `get<T>()` -/

def getString : Json → Except Exception Bytes
  | .string s => .ok s
  | _ => .error (.type_error 302)

def getBool : Json → Except Exception Bool
  | .boolean b => .ok b
  | _ => .error (.type_error 302)

/-- The conversion of a floating-point value to an integer type drops the fraction. -/
def truncate (q : Rat) : Int :=
  if 0 ≤ q then ⌊q⌋ else ⌈q⌉

/-- `get<int>()`: every arithmetic type converts, `boolean` included. -/
def getInt : Json → Except Exception Int32
  | .number_unsigned n => .ok (Int32.ofInt n)
  | .number_integer n => .ok (Int32.ofInt n)
  | .number_float q => .ok (Int32.ofInt (truncate q))
  | .boolean b => .ok (if b then 1 else 0)
  | _ => .error (.type_error 302)

/-- `get<int64_t>()`: the number types only. -/
def getInt64 : Json → Except Exception Int64
  | .number_unsigned n => .ok (Int64.ofInt n)
  | .number_integer n => .ok (Int64.ofInt n)
  | .number_float q => .ok (Int64.ofInt (truncate q))
  | _ => .error (.type_error 302)

/-- `get<uint64_t>()`. -/
def getUInt64 : Json → Except Exception UInt64
  | .number_unsigned n => .ok (UInt64.ofNat n)
  | .number_integer n => .ok (Int64.ofInt n).toUInt64
  | .number_float q => .ok (Int64.ofInt (truncate q)).toUInt64
  | _ => .error (.type_error 302)

@[simp] theorem getString_string (s : Bytes) : (string s).getString = .ok s := rfl

theorem getString_eq_ok_iff {j : Json} {s : Bytes} : j.getString = .ok s ↔ j = .string s := by
  cases j <;> simp [getString]

/-! ## Arrays and the rest of the interface -/

/-- `json.size()`. -/
def size : Json → Nat
  | .null => 0
  | .array xs => xs.length
  | .object ms => ms.length
  | _ => 1

/-- `json[i]` on a non-const value with `i` below or at its size (beyond the end it reads `null`). -/
def nth (j : Json) (i : Nat) : Except Exception Json :=
  match j with
  | .array xs => .ok (xs.getD i .null)
  | .null => .ok .null
  | _ => .error (.type_error 305)

/-- `json.empty()`: strings and numbers are never empty. -/
def empty : Json → Bool
  | .null => true
  | .array xs => xs.isEmpty
  | .object ms => ms.isEmpty
  | _ => false

/-- `json == "s"`. -/
def eqString (j : Json) (s : String) : Bool :=
  match j with
  | .string t => t == bytes s
  | _ => false

/-! ## `dump()` -/

/-- How many continuation bytes a lead byte announces, with the range of the first of them. -/
def utf8Lead (b : UInt8) : Option (Nat × UInt8 × UInt8) :=
  if b < 0x80 then some (0, 0x80, 0xBF)
  else if b < 0xC2 then none
  else if b < 0xE0 then some (1, 0x80, 0xBF)
  else if b = 0xE0 then some (2, 0xA0, 0xBF)
  else if b = 0xED then some (2, 0x80, 0x9F)
  else if b < 0xF0 then some (2, 0x80, 0xBF)
  else if b = 0xF0 then some (3, 0x90, 0xBF)
  else if b < 0xF4 then some (3, 0x80, 0xBF)
  else if b = 0xF4 then some (3, 0x80, 0x8F)
  else none

/-- The decoder `dump` runs over a string: `need` continuation bytes are still expected, the next one
between `lo` and `hi`. -/
def utf8From : Nat → UInt8 → UInt8 → Bytes → Bool
  | 0, _, _, [] => true
  | _ + 1, _, _, [] => false
  | 0, _, _, b :: bs =>
      match utf8Lead b with
      | some (n, lo, hi) => utf8From n lo hi bs
      | none => false
  | n + 1, lo, hi, b :: bs => lo ≤ b && b ≤ hi && utf8From n 0x80 0xBF bs

def validUtf8 (s : Bytes) : Bool := utf8From 0 0x80 0xBF s

mutual

/-- `dump()` returns: every string inside is UTF-8 (the keys are). -/
def dumpable : Json → Bool
  | .string s => validUtf8 s
  | .array xs => dumpableAll xs
  | .object ms => dumpableMembers ms
  | _ => true

def dumpableAll : List Json → Bool
  | [] => true
  | j :: js => j.dumpable && dumpableAll js

def dumpableMembers : List (String × Json) → Bool
  | [] => true
  | (_, j) :: ms => j.dumpable && dumpableMembers ms

end

/-- `dump()`, of which only the exception matters here. -/
def dump (j : Json) : Except Exception Unit :=
  if j.dumpable then .ok () else .error (.type_error 316)

end Json
end Oj
end Myoj
