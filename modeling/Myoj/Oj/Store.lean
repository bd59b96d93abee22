import Myoj.Oj.OJServer

/-!
# Store — tokens and collections as maps

A backend in which the token store is a map and every collection is a map from `_id` to documents:
writes act on the document with the id, reads leave everything as it is.  What reads answer, and
everything else outside, is left to a backend `base` on the rest of the state.

* `World` — the state;
* `Update.apply` — what `update_one` makes of a document;
* `Backend.onWorld` — the backend.
-/

namespace Myoj
namespace Oj

/-- The members of a stored document other than its `_id`. -/
abbrev Members := List (String × Json)

structure World (S : Type) where
  tokens : Bytes → Option Bytes
  docs : Collection → Int64 → Option Members
  rest : S

/-! ## Updates -/

namespace Update

/-- `$inc` on a member: a missing one counts from 0. -/
def increased (n : Int32) : Option Json → Json
  | some (.number_integer m) => .number_integer (m + n.toInt)
  | some (.number_unsigned m) => .number_integer (m + n.toInt)
  | some (.number_float q) => .number_float (q + n.toInt)
  | _ => .number_integer n.toInt

/-- The elements of an array member. -/
def elements : Option Json → List Json
  | some (.array xs) => xs
  | _ => []

def hasId (id : Int64) (j : Json) : Bool :=
  match j.member "_id" with
  | .number_integer n => n == id.toInt
  | .number_unsigned n => (n : Int) == id.toInt
  | _ => false

/-- What the update makes of a document.  The elements added to sets carry an `_id` of their own, so
they are never there already. -/
def apply (ms : Members) : Update → Members
  | .set members => members.foldl (fun ms m => Json.assign m.1 m.2 ms) ms
  | .inc field n => Json.assign field (increased n (ms.lookup field)) ms
  | .addToSet field value => Json.assign field (.array (elements (ms.lookup field) ++ [value])) ms
  | .pull field id =>
      Json.assign field (.array ((elements (ms.lookup field)).filter fun j => !hasId id j)) ms

end Update

/-! ## Writes -/

namespace World

variable {S : Type}

/-- Put something in the place of a document. -/
def setDoc (w : World S) (coll : Collection) (id : Int64) (doc : Option Members) : World S :=
  { w with docs := fun c i => if c = coll ∧ i = id then doc else w.docs c i }

/-- A document is selected by a match on the number in one of its members. -/
def selected (ms : Members) : Stage → Bool
  | .matching field (.number_integer n) =>
      match ms.lookup field with
      | some (.number_integer m) => m == n
      | some (.number_unsigned m) => (m : Int) == n
      | _ => false
  | _ => false

/-- Remove the documents a filter selects. -/
def removeSelected (w : World S) (coll : Collection) (filter : List Stage) : World S :=
  { w with docs := fun c i =>
      if c = coll then (w.docs c i).filter fun ms => !filter.all (selected ms) else w.docs c i }

@[simp] theorem docs_setDoc (w : World S) (coll : Collection) (id : Int64) (doc : Option Members)
    (c : Collection) (i : Int64) :
    (w.setDoc coll id doc).docs c i = if c = coll ∧ i = id then doc else w.docs c i := rfl

theorem docs_removeSelected_of_ne (w : World S) {coll c : Collection} (h : c ≠ coll)
    (filter : List Stage) : (w.removeSelected coll filter).docs c = w.docs c := by
  funext i
  exact if_neg h

end World

/-! ## The backend -/

/-- A call on the rest of the world. -/
def onRest {S α : Type} (op : EStateM Exception S α) : EStateM Exception (World S) α := fun w =>
  match op w.rest with
  | .ok a rest => .ok a { w with rest }
  | .error e rest => .error e { w with rest }

def onRest' {S α : Type} (f : S → α × S) (w : World S) : α × World S :=
  ((f w.rest).1, { w with rest := (f w.rest).2 })

/-- `base`, with tokens and documents kept in maps. -/
def Backend.onWorld {S : Type} (base : Backend S) : Backend (World S) where
  parse := base.parse
  dumpText := base.dumpText
  get
    | .redis_token, key => fun w => .ok (w.tokens key) w
    | .redis_cache, key => onRest (base.get .redis_cache key)
  setex
    | .redis_token, key, _, value => fun w =>
        .ok () { w with tokens := fun k => if k = key then some value else w.tokens k }
    | .redis_cache, key, ttl, value => onRest (base.setex .redis_cache key ttl value)
  del := fun db key => onRest (base.del db key)
  queryByUserName := fun name => onRest (base.queryByUserName name)
  queryByUserId := fun id => onRest (base.queryByUserId id)
  queryNickName := fun name => onRest (base.queryNickName name)
  insertUser := fun user => onRest (base.insertUser user)
  updateProblemStatus := fun name ac n => onRest (base.updateProblemStatus name ac n)
  insertStatusRecord := fun record => onRest (base.insertStatusRecord record)
  updateProblem := fun id column => onRest (base.updateProblem id column)
  aggregate := fun coll pipe => onRest (base.aggregate coll pipe)
  aggregateSized := fun coll pipe => onRest (base.aggregateSized coll pipe)
  aggregateCount := fun coll pipe => onRest (base.aggregateCount coll pipe)
  find := fun coll filter => onRest (base.find coll filter)
  count_documents := fun coll filter => onRest (base.count_documents coll filter)
  update_one := fun coll id update w =>
    match w.docs coll id with
    | none => .ok 0 w
    | some ms => .ok 1 (w.setDoc coll id (some (update.apply ms)))
  insert_one := fun coll id members w =>
    match w.docs coll id with
    | none => .ok 1 (w.setDoc coll id (some members))
    | some _ => .error .database w
  delete_one := fun coll id w =>
    match w.docs coll id with
    | none => .ok 0 w
    | some _ => .ok 1 (w.setDoc coll id none)
  delete_many := fun coll filter w =>
    match onRest (base.delete_many coll filter) w with
    | .ok n w => .ok n (w.removeSelected coll filter)
    | .error e w => .error e w
  distinct := fun coll field => onRest (base.distinct coll field)
  nextid := onRest' base.nextid
  GetTime := fun w => base.GetTime w.rest
  judging := onRest' base.judging
  makeProblemData := fun problemid => onRest' (base.makeProblemData problemid)
  writeProblemFile := fun problemid name text => onRest' (base.writeProblemFile problemid name text)
  readProblemFile := fun problemid name w => base.readProblemFile problemid name w.rest
  removeProblemData := fun problemid => onRest' (base.removeProblemData problemid)

end Oj
end Myoj
