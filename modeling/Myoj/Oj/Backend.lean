import Myoj.Judge.Judger
import Myoj.Lib.Effect
import Myoj.Lib.Numerals

/-!
# Backend — what the server process calls, and the monad its code runs in

Redis, MySQL, MongoDB, the machine that judges, the clock and the JSON library are outside the server.
`Backend` lists the calls the code makes on them; each runs in a state `S` nobody else looks at, and
each may throw.

* `Doc`, `Stage`, `Update` — documents, pipelines and updates, as far as the code writes them;
* `Backend S` — the calls, with the results typed as the drivers guarantee them;
* `Server S` — the members of the process (authority map, id counters, tags) with the outside state;
* `stoi`, `stoll`, `toJson` — conversions shared by all of it.
-/

namespace Myoj
namespace Oj

open Effect

/-! ## Documents and queries -/

inductive Collection where
  | User
  | Problem
  | StatusRecord
  | Discuss
  | Solution
  | Announcement
  | Comment
  deriving DecidableEq, Repr

/-- A document without its `_id`, as `Json::parse(bsoncxx::to_json(doc))` shows it: BSON text is UTF-8,
or the driver throws. -/
structure Doc where
  members : List (String × Json)
  utf8 : Json.dumpableMembers members = true

/-- The pipeline stages the code uses. -/
inductive Stage where
  /-- `$match` on the value of a field. -/
  | matching (field : String) (value : Json)
  /-- `$match` with `$regex`. -/
  | regex (field : String) (pattern : Bytes)
  /-- `$match` with `$in`. -/
  | oneOf (field : String) (values : List Bytes)
  | sort (keys : List (String × Int))
  | skip (n : Int32)
  | limit (n : Int32)
  /-- `$lookup` in `User` by `_id`. -/
  | lookupUser (localField : String) (name : String)
  /-- `$set` of `Child_Total` to the size of `Child_Comments`. -/
  | childTotal
  /-- `$set` of `Child_Comments` to a slice of it. -/
  | childSlice (start : Int32) (n : Int32)
  /-- `$unwind` of `Child_Comments`, `$lookup` of their users, `$group` back with the fields kept. -/
  | joinChildren (kept : List String)
  /-- `$project` on the fields; the second list gives computed ones with the expression. -/
  | project (fields : List String) (computed : List (String × String))

inductive Update where
  | set (members : List (String × Json))
  | inc (field : String) (n : Int32)
  | addToSet (field : String) (value : Json)
  /-- `$pull` of the elements with this `_id`. -/
  | pull (field : String) (id : Int64)

/-! ## The calls -/

/-- A row of the table `user`. -/
structure User where
  id : Int64
  username : Bytes
  nickname : Bytes
  password : Bytes
  school : Bytes
  major : Bytes
  acnum : Int32
  submitnum : Int32
  deriving DecidableEq, Repr

/-- The values `statusRecordModel::insert` prints into its statement. -/
structure StatusRecord where
  problem_id : Int64
  username : Int64
  user_nickname : Bytes
  problem_title : Bytes
  status : Int32
  run_time : Bytes
  run_memory : Bytes
  length : Bytes
  language : Bytes
  submit_time : Bytes
  code : Bytes
  compiler_info : Bytes
  deriving DecidableEq, Repr

/-- The two Redis databases. -/
inductive RedisDb where
  | redis_token
  | redis_cache
  deriving DecidableEq, Repr

structure Backend (S : Type) where
  /-- `Json::parse`; the strings of a parsed value are UTF-8. -/
  parse : Bytes → Option { j : Json // j.dumpable = true }
  /-- The text of `dump()`. -/
  dumpText : Json → Bytes
  get : RedisDb → Bytes → EStateM Exception S (Option Bytes)
  setex : RedisDb → Bytes → Int → Bytes → EStateM Exception S Unit
  del : RedisDb → Bytes → EStateM Exception S Bool
  /-- `UserModel`; a row whose numbers do not convert is an exception. -/
  queryByUserName : Bytes → EStateM Exception S (Option User)
  queryByUserId : Bytes → EStateM Exception S (Option User)
  queryNickName : Bytes → EStateM Exception S Bool
  insertUser : User → EStateM Exception S (Option Int64)
  updateProblemStatus : Bytes → Bool → Int32 → EStateM Exception S Bool
  insertStatusRecord : StatusRecord → EStateM Exception S (Option Int64)
  /-- `ProblemListModel::update`. -/
  updateProblem : Int64 → String → EStateM Exception S Bool
  /-- The documents a pipeline ends with, by `_id`. -/
  aggregate : Collection → List Stage → EStateM Exception S (List (Int64 × Doc))
  /-- A pipeline that sets `Child_Total`: its documents with that number. -/
  aggregateSized : Collection → List Stage → EStateM Exception S (List (Int64 × Nat × Doc))
  /-- A pipeline that ends in `$count`: one document with the number, or none. -/
  aggregateCount : Collection → List Stage → EStateM Exception S (Option Int)
  find : Collection → List Stage → EStateM Exception S (List (Int64 × Doc))
  count_documents : Collection → List Stage → EStateM Exception S Int
  /-- The `matched_count`. -/
  update_one : Collection → Int64 → Update → EStateM Exception S Nat
  /-- The `inserted_count`. -/
  insert_one : Collection → Int64 → List (String × Json) → EStateM Exception S Nat
  /-- The `deleted_count`. -/
  delete_one : Collection → Int64 → EStateM Exception S Nat
  delete_many : Collection → List Stage → EStateM Exception S Nat
  distinct : Collection → String → EStateM Exception S (List Doc)
  /-- The next id of the snowflake generator. -/
  nextid : S → Int64 × S
  /-- `GetTime()`, ASCII text. -/
  GetTime : S → { t : Bytes // Json.validUtf8 t = true }
  /-- The machine on which a submission is judged, with what is in `judgeResult` at first. -/
  judging : S → (Judge.Machine × Judge.JudgeResult) × S
  /-- The calls on the directory of a problem's data: `mkdir`, `ofstream`, `ifstream`, `rm -rf`. -/
  makeProblemData : Bytes → S → Unit × S
  writeProblemFile : Bytes → Bytes → Bytes → S → Unit × S
  readProblemFile : Bytes → Bytes → S → Option Bytes
  removeProblemData : Bytes → S → Unit × S

/-- Nothing is stored, every call succeeds, and the only texts are malformed. -/
def Backend.idle : Backend Unit where
  parse := fun _ => none
  dumpText := fun _ => []
  get := fun _ _ => pure none
  setex := fun _ _ _ _ => pure ()
  del := fun _ _ => pure false
  queryByUserName := fun _ => pure none
  queryByUserId := fun _ => pure none
  queryNickName := fun _ => pure false
  insertUser := fun _ => pure (some 1)
  updateProblemStatus := fun _ _ _ => pure true
  insertStatusRecord := fun _ => pure (some 1)
  updateProblem := fun _ _ => pure true
  aggregate := fun _ _ => pure []
  aggregateSized := fun _ _ => pure []
  aggregateCount := fun _ _ => pure none
  find := fun _ _ => pure []
  count_documents := fun _ _ => pure 0
  update_one := fun _ _ _ => pure 0
  insert_one := fun _ _ _ => pure 1
  delete_one := fun _ _ => pure 0
  delete_many := fun _ _ => pure 0
  distinct := fun _ _ => pure []
  nextid := fun s => (1, s)
  GetTime := fun _ => ⟨bytes "2026-01-01 00:00:00", by decide⟩
  judging := fun s => (default, s)
  makeProblemData := fun _ s => ((), s)
  writeProblemFile := fun _ _ _ s => ((), s)
  readProblemFile := fun _ _ _ => none
  removeProblemData := fun _ s => ((), s)

/-- The members of the process that requests change, and everything outside. -/
structure Server (S : Type) where
  /-- `UserAuthorityMap`; 0 stands for a user that is not in it, as it does for `operator[]`. -/
  UserAuthorityMap : Int64 → Int32
  m_problemid : Int64
  m_commentid : Int64
  m_articleid : Int64
  /-- What `problemtags` holds under `Tags`, its only member. -/
  problemtags : Json
  outside : S

/-- The monad of the server's code. -/
abbrev Action (S : Type) := EStateM Exception (Server S)

variable {S α : Type}

/-- A call on the outside. -/
def call (op : EStateM Exception S α) : Action S α := fun server =>
  match op server.outside with
  | .ok a outside => .ok a { server with outside }
  | .error e outside => .error e { server with outside }

/-- Something the outside shows without a call that could fail. -/
def observe (f : S → α) : Action S α := fun server => .ok (f server.outside) server

/-- Something done outside that cannot fail. -/
def affect (f : S → α × S) : Action S α := fun server =>
  .ok (f server.outside).1 { server with outside := (f server.outside).2 }

section rules

variable {s : Server S}

@[simp] theorem returns_call {op : EStateM Exception S α} {Q : α → Server S → Prop} :
    Returns (call op) s Q ↔
      Returns op s.outside fun a outside => Q a { s with outside } := by
  cases h : op s.outside with
  | ok a outside =>
      have hcall : call op s = .ok a { s with outside } := by simp only [call, h]
      rw [returns_iff_of_ok h, returns_iff_of_ok hcall]
  | error e outside =>
      have hcall : call op s = .error e { s with outside } := by simp only [call, h]
      simp only [not_returns_of_error h, not_returns_of_error hcall]

@[simp] theorem throws_call {op : EStateM Exception S α} :
    Throws (call op) s ↔ Throws op s.outside := by
  simp only [Throws, call]
  cases op s.outside <;> rfl

@[simp] theorem returns_affect {f : S → α × S} {Q : α → Server S → Prop} :
    Returns (affect f) s Q ↔ Q (f s.outside).1 { s with outside := (f s.outside).2 } :=
  returns_iff_of_ok rfl

theorem final_affect_bind {β : Type} (f : S → α × S) (g : α → Action S β) (server : Server S) :
    final (affect f >>= g) server =
      final (g (f server.outside).1) { server with outside := (f server.outside).2 } := rfl

theorem final_observe_bind {β : Type} (f : S → α) (g : α → Action S β) (server : Server S) :
    final (observe f >>= g) server = final (g (f server.outside)) server := rfl

theorem final_call (op : EStateM Exception S α) :
    final (call op) s = { s with outside := final op s.outside } := by
  simp only [final, call]
  cases op s.outside <;> rfl

end rules

/-! ## Conversions -/

/-- `std::stoi`. -/
def stoi (s : Bytes) : Except Exception Int32 :=
  match Numerals.strtol s with
  | none => .error .invalid_argument
  | some n =>
      if Int32.minValue.toInt ≤ n ∧ n ≤ Int32.maxValue.toInt then .ok (Int32.ofInt n)
      else .error .out_of_range

/-- `std::stoll`. -/
def stoll (s : Bytes) : Except Exception Int64 :=
  match Numerals.strtol s with
  | none => .error .invalid_argument
  | some n =>
      if Int64.minValue.toInt ≤ n ∧ n ≤ Int64.maxValue.toInt then .ok (Int64.ofInt n)
      else .error .out_of_range

/-- A number that is printed is read as it was. -/
theorem stoi_to_string (n : Int32) : stoi (Numerals.to_string n.toInt) = .ok n := by
  have hrange : Int32.minValue.toInt ≤ n.toInt ∧ n.toInt ≤ Int32.maxValue.toInt :=
    ⟨n.minValue_le_toInt, n.toInt_le⟩
  simp only [stoi, Numerals.strtol_to_string, if_pos hrange, Int32.ofInt_toInt]

theorem stoll_to_string (n : Int64) : stoll (Numerals.to_string n.toInt) = .ok n := by
  have hrange : Int64.minValue.toInt ≤ n.toInt ∧ n.toInt ≤ Int64.maxValue.toInt :=
    ⟨n.minValue_le_toInt, n.toInt_le⟩
  simp only [stoll, Numerals.strtol_to_string, if_pos hrange, Int64.ofInt_toInt]

namespace Json

/-- `json[k].get<std::string>()`. -/
def stringAt (j : Json) (k : String) : Except Exception Bytes := do
  (← j.index k).getString

/-- `stoi(json[k].get<std::string>())`. -/
def intAt (j : Json) (k : String) : Except Exception Int32 := do
  stoi (← j.stringAt k)

/-- `stoll(json[k].get<std::string>())`. -/
def int64At (j : Json) (k : String) : Except Exception Int64 := do
  stoll (← j.stringAt k)

/-- A string member as a text field of a document: the builder is given `data()`. -/
def field (s : Bytes) : Json := .string (cstr s)

def ofInt (n : Int) : Json := .number_integer n

end Json

/-- `Json::parse(text)`. -/
def Backend.parseJson (b : Backend S) (text : Bytes) : Except Exception Json :=
  match b.parse text with
  | some j => .ok j.1
  | none => .error .parse_error

/-- The first part of a field name: projecting on `User.Avatar` keeps members of `User`. -/
def rootOf (path : String) : String := String.ofList (path.toList.takeWhile (· ≠ '.'))

/-- A document as JSON after a projection on `fields`; `_id` stays. -/
def Doc.toJson (fields : List String) (id : Int64) (doc : Doc) : Json :=
  .object (("_id", .number_integer id.toInt) ::
    doc.members.filter fun m => m.1 ≠ "_id" ∧ m.1 ∈ fields.map rootOf)

/-! ## Results -/

/-- `resjson["Result"] = "Success"` on an object under construction. -/
def success (resjson : Json) : Json := resjson.put "Result" (.str "Success")

/-- The two assignments of a result that is not a success. -/
def failure (result reason : String) : Json :=
  ((Json.null.put "Result" (.str result)).put "Reason" (.str reason))

/-- What the `catch` of a database function makes of `resjson`. -/
def caught (resjson : Json) (reason : String) : Json :=
  (resjson.put "Result" (.str "500")).put "Reason" (.str reason)

theorem indexable_success (j : Json) : (success j).Indexable = true := Json.indexable_put ..

theorem indexable_failure (result reason : String) : (failure result reason).Indexable = true :=
  Json.indexable_put ..

theorem indexable_caught (j : Json) (reason : String) : (caught j reason).Indexable = true :=
  Json.indexable_put ..

theorem member_success {j : Json} (hj : j.Indexable) (k : String) :
    (success j).member k = if k = "Result" then .str "Success" else j.member k :=
  Json.member_put hj ..

theorem member_failure (result reason k : String) :
    (failure result reason).member k =
      if k = "Reason" then .str reason else if k = "Result" then .str result else .null := by
  rw [failure, Json.member_put (Json.indexable_put ..), Json.member_put rfl, Json.member_null]

theorem member_caught {resjson : Json} (hj : resjson.Indexable) (reason k : String) :
    (caught resjson reason).member k =
      if k = "Reason" then .str reason else if k = "Result" then .str "500"
      else resjson.member k := by
  rw [caught, Json.member_put (Json.indexable_put ..), Json.member_put hj]

/-- `try { body } catch (…) { … }`, with what `resjson` holds when the body throws. -/
def orElse500 (resjson : Json) (reason : String) (body : Action S Json) : Action S Json :=
  attempt body fun _ => pure (caught resjson reason)

/-- What is caught is a return like any other. -/
theorem returns_orElse500 {resjson : Json} {reason : String} {body : Action S Json}
    {server : Server S} {Q : Json → Server S → Prop}
    (hQ : ∀ server, Q (caught resjson reason) server) :
    Returns (orElse500 resjson reason body) server Q ↔ Throws body server ∨ Returns body server Q :=
  returns_attempt_pure fun _ => hQ

theorem returns_orElse500_of_not {resjson : Json} {reason : String} {body : Action S Json}
    {server : Server S} {Q : Json → Server S → Prop}
    (hQ : ∀ server, ¬ Q (caught resjson reason) server) :
    Returns (orElse500 resjson reason body) server Q ↔ Returns body server Q :=
  returns_attempt_pure_of_not fun _ => hQ

end Oj
end Myoj
