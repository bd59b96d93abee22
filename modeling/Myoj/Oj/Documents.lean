import Mathlib.Data.List.Sort
import Myoj.Oj.Store
import Myoj.Oj.Utf8

/-!
# Documents — what a pipeline makes of a collection

The stages of MongoDB the code uses, on the documents of a collection in their natural order.

* `Json.same`, `Json.order` — equality and order of values;
* `valuesAt` — the values a dotted path leads to;
* `Stage.run`, `runStages` — a stage and a pipeline; an error ends the pipeline;
* `runStages_matching` — leading matches select the documents the rest works on;
* `byId_filter` — a match on `_id` finds the document with that id.

What a regular expression matches is a parameter, and so is the collection `$lookup` looks into.
Documents with equal sort keys stay in the order they are in.
-/

namespace Myoj
namespace Oj

/-! ## Values -/

namespace Json

def number : Json → Option Rat
  | .number_integer n => some n
  | .number_unsigned n => some n
  | .number_float q => some q
  | _ => none

/-- Equality of two scalars; numbers compare by their value. -/
def same (j k : Json) : Bool :=
  match j, k with
  | .string s, .string t => s == t
  | .boolean b, .boolean c => b == c
  | .null, .null => true
  | j, k => (number j).isSome && number j == number k

/-- The order of the types. -/
def rank : Json → Nat
  | .null => 0
  | .number_integer _ => 1
  | .number_unsigned _ => 1
  | .number_float _ => 1
  | .string _ => 2
  | .object _ => 3
  | .array _ => 4
  | .boolean _ => 5

/-- The order of values; objects and arrays are no sort keys. -/
def order (j k : Json) : Ordering :=
  match j, k with
  | .string s, .string t => if s < t then .lt else if s = t then .eq else .gt
  | .boolean b, .boolean c => compare b.toNat c.toNat
  | j, k => (compare j.rank k.rank).then (compare (number j) (number k))

/-- The values one step down a path: a member, or that member of every element. -/
def children (k : String) : Json → List Json
  | .object ms => (ms.lookup k).toList
  | .array xs => xs.filterMap fun
      | .object ms => ms.lookup k
      | _ => none
  | _ => []

/-- The values at the end of a path: what is there, and its elements. -/
def valuesAt : List String → Json → List Json
  | [], .array xs => .array xs :: xs
  | [], j => [j]
  | k :: ks, j => (j.children k).flatMap (valuesAt ks)

end Json

/-- `"User.Avatar"` as `User`, `Avatar`. -/
def pathOf (field : String) : List String := (field.toList.splitOn '.').map String.ofList

/-! ## Projections -/

/-- What is left of the paths below a member. -/
def tails (k : String) (paths : List (List String)) : List (List String) :=
  paths.filterMap fun
    | [] => none
    | k' :: rest => if k' = k then some rest else none

mutual

/-- The members on some path; a path that ends keeps all that is below. -/
def projectMembers (paths : List (List String)) : Members → Members
  | [] => []
  | (k, j) :: ms =>
      let below := tails k paths
      if [] ∈ below then (k, j) :: projectMembers paths ms
      else if below = [] then projectMembers paths ms
      else ((projectBelow below j).map fun j => (k, j)).toList ++ projectMembers paths ms

/-- A path that goes on keeps nothing of a scalar. -/
def projectBelow (paths : List (List String)) : Json → Option Json
  | .object ms => some (.object (projectMembers paths ms))
  | .array xs => some (.array (projectElements paths xs))
  | _ => none

def projectElements (paths : List (List String)) : List Json → List Json
  | [] => []
  | x :: xs => (projectBelow paths x).toList ++ projectElements paths xs

end

/-! ## Stages -/

/-- A document in a pipeline. -/
abbrev Row := Int64 × Members

namespace Row

def json (row : Row) : Json := .object (("_id", .number_integer row.1.toInt) :: row.2)

/-- A match on a value holds when the path leads to it. -/
def matching (field : String) (value : Json) (row : Row) : Bool :=
  (row.json.valuesAt (pathOf field)).any value.same

def matchingText (field : String) (p : Bytes → Bool) (row : Row) : Bool :=
  (row.json.valuesAt (pathOf field)).any fun
    | .string s => p s
    | _ => false

/-- Whether a row may stand before another one, by keys that go up (1) or down (-1). -/
def before : List (String × Int) → Row → Row → Bool
  | [], _, _ => true
  | (field, direction) :: keys, r, r' =>
      let o := (r.json.member field).order (r'.json.member field)
      match if direction < 0 then o.swap else o with
      | .lt => true
      | .gt => false
      | .eq => before keys r r'

def set (field : String) (value : Json) (row : Row) : Row := (row.1, Json.assign field value row.2)

end Row

/-- `$slice` of an array from a position, which may count from the end. -/
def slice (start : Int) (n : Nat) (xs : List Json) : List Json :=
  (xs.drop (if start < 0 then (xs.length + start).toNat else start.toNat)).take n

section stages

variable (regex : Bytes → Option (Bytes → Bool)) (users : List Row)

/-- The users whose `_id` a value is, or has among its elements. -/
def usersOf (value : Json) : Json :=
  .array ((users.filter fun user => (value.valuesAt []).any (Json.same (.ofInt user.1.toInt))).map
    Row.json)

/-- A comment with the users of its sons; without a son there is one that has nothing but no user. -/
def joinUsers (row : Row) : Json :=
  match Update.elements (row.2.lookup "Child_Comments") with
  | [] => .array [.object [("User", .array [])]]
  | sons => .array (sons.map fun son => son.put "User" (usersOf users (son.member "UserId")))

def Stage.run (stage : Stage) (rows : List Row) : Except Exception (List Row) :=
  match stage with
  | .matching field value => .ok (rows.filter (Row.matching field value))
  | .regex field pattern =>
      match regex pattern with
      | none => .error .database
      | some p => .ok (rows.filter (Row.matchingText field p))
  | .oneOf field values => .ok (rows.filter (Row.matchingText field (· ∈ values)))
  | .sort keys => .ok (rows.insertionSort fun r r' => Row.before keys r r' = true)
  | .skip n => if n < 0 then .error .database else .ok (rows.drop n.toInt.toNat)
  | .limit n => if n ≤ 0 then .error .database else .ok (rows.take n.toInt.toNat)
  | .lookupUser localField name =>
      .ok (rows.map fun row => row.set name (usersOf users (row.json.member localField)))
  | .childTotal =>
      rows.mapM fun row =>
        match row.2.lookup "Child_Comments" with
        | some (.array sons) => .ok (row.set "Child_Total" (.ofInt sons.length))
        | _ => .error .database
  | .childSlice start n =>
      if n ≤ 0 then .error .database
      else rows.mapM fun row =>
        match row.2.lookup "Child_Comments" with
        | some (.array sons) =>
            .ok (row.set "Child_Comments" (.array (slice start.toInt n.toInt.toNat sons)))
        | _ => .error .database
  | .joinChildren kept =>
      .ok (rows.map fun row =>
        (row.1, kept.map (fun k => (k, (row.2.lookup k).getD .null)) ++
          [("Child_Comments", joinUsers users row)]))
  | .project fields computed =>
      .ok (rows.map fun row =>
        (row.1, computed.foldl
          (fun ms c => Json.assign c.1 (row.json.member (String.ofList (c.2.toList.drop 1))) ms)
          (projectMembers (fields.map pathOf) row.2)))

def runStages : List Stage → List Row → Except Exception (List Row)
  | [], rows => .ok rows
  | stage :: stages, rows => do runStages stages (← stage.run regex users rows)

/-! ## What pipelines do -/

/-- The rows that all matches of a list select. -/
def selects (filter : List (String × Json)) (row : Row) : Bool :=
  filter.all fun (field, value) => row.matching field value

/-- Leading matches select the rows the rest of the pipeline works on. -/
theorem runStages_matching (filter : List (String × Json)) (p : List Stage) (rows : List Row) :
    runStages regex users (filter.map (fun (field, value) => .matching field value) ++ p) rows =
      runStages regex users p (rows.filter (selects filter)) := by
  induction filter generalizing rows with
  | nil =>
      have hall : rows.filter (selects []) = rows := List.filter_eq_self.2 fun _ _ => rfl
      rw [List.map_nil, List.nil_append, hall]
  | cons m filter ih =>
      have hone : runStages regex users ((m :: filter).map (fun (field, value) => .matching field value) ++ p)
          rows = runStages regex users (filter.map (fun (field, value) => .matching field value) ++ p)
            (rows.filter (Row.matching m.1 m.2)) := rfl
      rw [hone, ih, List.filter_filter]
      refine congrArg _ (List.filter_congr fun row _ => ?_)
      simp [selects, Bool.and_comm]

end stages

/-- A match on `_id` selects by the id. -/
theorem Row.matching_id (id : Int64) (row : Row) :
    row.matching "_id" (.ofInt id.toInt) = decide (row.1 = id) := by
  have hpath : pathOf "_id" = ["_id"] := by decide
  have hvalues : row.json.valuesAt (pathOf "_id") = [.number_integer row.1.toInt] := by
    simp [hpath, Row.json, Json.valuesAt, Json.children]
  rw [Row.matching, hvalues]
  simp only [List.any_cons, List.any_nil, Bool.or_false, Json.ofInt, Json.same, Json.number]
  by_cases hid : row.1 = id
  · simp [hid]
  · have hne : ¬ (id.toInt : Rat) = row.1.toInt := by
      intro heq
      exact hid (Int64.toInt_inj.1 (by exact_mod_cast heq.symm))
    simp [hid, hne]

/-- A match on a field that holds a number. -/
theorem Row.matching_number {field : String} {row : Row} {m : Int} (hpath : pathOf field = [field])
    (hid : field ≠ "_id") (hvalue : row.2.lookup field = some (.ofInt m)) (n : Int) :
    row.matching field (.ofInt n) = decide (m = n) := by
  have hlookup : (("_id", Json.number_integer row.1.toInt) :: row.2).lookup field = some (.ofInt m) := by
    rw [Json.lookup_cons_ite, if_neg hid, hvalue]
  have hvalues : row.json.valuesAt (pathOf field) = [.ofInt m] := by
    simp [hpath, Row.json, Json.valuesAt, Json.children, hlookup, Json.ofInt]
  rw [Row.matching, hvalues]
  simp only [List.any_cons, List.any_nil, Bool.or_false, Json.ofInt, Json.same, Json.number]
  by_cases heq : m = n
  · simp [heq]
  · have hne : ¬ (n : Rat) = m := fun h => heq (by exact_mod_cast h.symm)
    simp [heq, hne]

/-! ## Projections keep the text UTF-8 -/

mutual

theorem dumpable_projectMembers (paths : List (List String)) :
    ∀ ms : Members, Json.dumpableMembers ms = true →
      Json.dumpableMembers (projectMembers paths ms) = true
  | [], _ => rfl
  | (k, j) :: ms, h => by
      rw [Json.dumpableMembers, Bool.and_eq_true] at h
      have hrest := dumpable_projectMembers paths ms h.2
      rw [projectMembers]
      split
      · rw [Json.dumpableMembers, h.1, hrest]
        rfl
      · split
        · exact hrest
        · have hbelow := dumpable_projectBelow (tails k paths) j h.1
          cases hp : projectBelow (tails k paths) j with
          | none =>
              exact hrest
          | some j' =>
              simp only [Option.map_some, Option.toList_some, List.cons_append, List.nil_append,
                Json.dumpableMembers, hrest, hbelow j' hp, Bool.and_self]

theorem dumpable_projectBelow (paths : List (List String)) :
    ∀ j : Json, j.dumpable = true → ∀ j', projectBelow paths j = some j' → j'.dumpable = true
  | .object ms, h, _, heq => by
      cases heq
      exact dumpable_projectMembers paths ms h
  | .array xs, h, _, heq => by
      cases heq
      exact dumpable_projectElements paths xs h
  | .null, _, _, heq => by cases heq
  | .boolean _, _, _, heq => by cases heq
  | .number_integer _, _, _, heq => by cases heq
  | .number_unsigned _, _, _, heq => by cases heq
  | .number_float _, _, _, heq => by cases heq
  | .string _, _, _, heq => by cases heq

theorem dumpable_projectElements (paths : List (List String)) :
    ∀ xs : List Json, Json.dumpableAll xs = true →
      Json.dumpableAll (projectElements paths xs) = true
  | [], _ => rfl
  | x :: xs, h => by
      rw [Json.dumpableAll, Bool.and_eq_true] at h
      have hrest := dumpable_projectElements paths xs h.2
      have hx := dumpable_projectBelow paths x h.1
      rw [projectElements]
      cases hp : projectBelow paths x with
      | none =>
          exact hrest
      | some x' =>
          simp only [Option.toList_some, List.cons_append, List.nil_append, Json.dumpableAll, hrest,
            hx x' hp, Bool.and_self]

end

end Oj
end Myoj
