import Myoj.Lib.Rows
import Myoj.Oj.Documents

/-!
# Databases — the databases as tables

A backend in which Redis is two maps, MongoDB collections are tables of documents, whose pipelines run
as `Documents` says, and the users of MySQL are a list.  Every call succeeds that MongoDB does not
refuse.  The other statements of MySQL, files, clock and judge are left to a backend `base` on the rest
of the state.

* `Databases` — the state;
* `Backend.onDatabases` — the backend;
* `selectById_apply`, `pagedList_apply`, `deleteById_apply`, `final_updateById`, `final_insertOne` — what
  the programs of `Mongo` do on it;
* `within_deleteById`, `within_DeleteFatherComment` — a deletion keeps to what its calls keep to.
-/

namespace Myoj
namespace Oj

open Effect

structure Databases (S : Type) where
  redis : RedisDb → Bytes → Option Bytes
  user : List User
  colls : Collection → Rows Int64 Doc
  rest : S

/-- The driver takes UTF-8 only. -/
def Doc.ofMembers (ms : Members) : Except Exception Doc :=
  if h : Json.dumpableMembers ms = true then .ok ⟨ms, h⟩ else .error .database

/-- An operator needs a member of the right type, or none. -/
def Update.fits (ms : Members) : Update → Bool
  | .set _ => true
  | .inc field _ =>
      match ms.lookup field with
      | none => true
      | some j => (Json.number j).isSome
  | .addToSet field _ => isArray (ms.lookup field)
  | .pull field _ => isArray (ms.lookup field)
where
  isArray : Option Json → Bool
    | none => true
    | some (.array _) => true
    | some _ => false

namespace Databases

variable {S : Type} (t : Databases S)

def empty (rest : S) : Databases S where
  redis := fun _ _ => none
  user := []
  colls := fun _ => Rows.empty
  rest := rest

def setRedis (db : RedisDb) (key : Bytes) (value : Option Bytes) : Databases S :=
  { t with redis := fun db' key' => if db' = db ∧ key' = key then value else t.redis db' key' }

def setColl (coll : Collection) (rows : Rows Int64 Doc) : Databases S :=
  { t with colls := fun coll' => if coll' = coll then rows else t.colls coll' }

/-- The documents of a collection, as a pipeline gets them. -/
def rows (coll : Collection) : List Row :=
  (t.colls coll).list.map fun (id, doc) => (id, doc.members)

@[simp] theorem redis_setRedis (db : RedisDb) (key : Bytes) (value : Option Bytes) (db' : RedisDb)
    (key' : Bytes) :
    (t.setRedis db key value).redis db' key' =
      if db' = db ∧ key' = key then value else t.redis db' key' := rfl

@[simp] theorem colls_setRedis (db : RedisDb) (key : Bytes) (value : Option Bytes) :
    (t.setRedis db key value).colls = t.colls := rfl

@[simp] theorem redis_setColl (coll : Collection) (rows : Rows Int64 Doc) :
    (t.setColl coll rows).redis = t.redis := rfl

@[simp] theorem rest_setColl (coll : Collection) (rows : Rows Int64 Doc) :
    (t.setColl coll rows).rest = t.rest := rfl

@[simp] theorem colls_setColl (coll : Collection) (rows : Rows Int64 Doc) (coll' : Collection) :
    (t.setColl coll rows).colls coll' = if coll' = coll then rows else t.colls coll' := rfl

/-- A call that only reads. -/
def reads {α : Type} (f : Databases S → Except Exception α) : EStateM Exception (Databases S) α := fun t =>
  match f t with
  | .ok a => .ok a t
  | .error e => .error e t

/-- A call on the rest. -/
def onRest {α : Type} (op : EStateM Exception S α) : EStateM Exception (Databases S) α := fun t =>
  match op t.rest with
  | .ok a rest => .ok a { t with rest }
  | .error e rest => .error e { t with rest }

def onRest' {α : Type} (f : S → α × S) (t : Databases S) : α × Databases S :=
  ((f t.rest).1, { t with rest := (f t.rest).2 })

section queries

variable (regex : Bytes → Option (Bytes → Bool)) (coll : Collection)

/-- What a pipeline makes of a collection. -/
def query (pipe : List Stage) : Except Exception (List Row) :=
  runStages regex (t.rows .User) pipe (t.rows coll)

def docsOf (rows : List Row) : Except Exception (List (Int64 × Doc)) :=
  rows.mapM fun row => do return (row.1, ← Doc.ofMembers row.2)

def sizedDocsOf (rows : List Row) : Except Exception (List (Int64 × Nat × Doc)) :=
  rows.mapM fun row =>
    match row.2.lookup "Child_Total" with
    | some (.number_integer n) => do return (row.1, n.toNat, ← Doc.ofMembers row.2)
    | _ => .error .database

/-- The different values of a field, those of an array one by one. -/
def valuesOf (field : String) : List Json :=
  ((t.rows coll).flatMap fun row => (row.json.valuesAt (pathOf field)).filter fun
    | .array _ => false
    | _ => true).pwFilter fun j k => Json.same j k = false

end queries

section writes

variable (coll : Collection) (id : Int64)

def update_one (update : Update) : EStateM Exception (Databases S) Nat := fun t =>
  match (t.colls coll).get? id with
  | none => .ok 0 t
  | some doc =>
      match Doc.ofMembers (update.apply doc.members) with
      | .error e => .error e t
      | .ok doc' =>
          if update.fits doc.members then
            .ok 1 (t.setColl coll ((t.colls coll).modify id fun _ => doc'))
          else .error .database t

def insert_one (members : Members) : EStateM Exception (Databases S) Nat := fun t =>
  match Doc.ofMembers members with
  | .error e => .error e t
  | .ok doc =>
      if h : (t.colls coll).get? id = none then .ok 1 (t.setColl coll ((t.colls coll).insert id doc h))
      else .error .database t

def delete_one : EStateM Exception (Databases S) Nat := fun t =>
  match (t.colls coll).get? id with
  | none => .ok 0 t
  | some _ => .ok 1 (t.setColl coll ((t.colls coll).erase id))

def delete_many (regex : Bytes → Option (Bytes → Bool)) (filter : List Stage) :
    EStateM Exception (Databases S) Nat := fun t =>
  match t.query regex coll filter with
  | .error e => .error e t
  | .ok selected =>
      .ok selected.length
        (t.setColl coll ((t.colls coll).filter fun row => row.1 ∉ selected.map Prod.fst))

/-- The new row gets the next number; rows are never deleted. -/
def insertUser (user : User) : EStateM Exception (Databases S) (Option Int64) := fun t =>
  let id := Int64.ofNat (t.user.length + 1)
  .ok (some id) { t with user := t.user ++ [{ user with id }] }

end writes

end Databases

/-- `base`, with Redis, MongoDB and the users kept in tables. -/
def Backend.onDatabases {S : Type} (base : Backend S) (regex : Bytes → Option (Bytes → Bool)) :
    Backend (Databases S) where
  parse := base.parse
  dumpText := base.dumpText
  get := fun db key => Databases.reads fun t => .ok (t.redis db key)
  setex := fun db key _ value t => .ok () (t.setRedis db key (some value))
  del := fun db key t => .ok (t.redis db key).isSome (t.setRedis db key none)
  queryByUserName := fun name => Databases.reads fun t => .ok (t.user.find? fun u => u.username = name)
  queryByUserId := fun text => Databases.reads fun t =>
    match stoll text with
    | .ok id => .ok (t.user.find? fun u => u.id = id)
    | .error _ => .ok none
  queryNickName := fun name => Databases.reads fun t => .ok (t.user.any fun u => u.nickname = name)
  insertUser := Databases.insertUser
  updateProblemStatus := fun name ac n => Databases.onRest (base.updateProblemStatus name ac n)
  insertStatusRecord := fun record => Databases.onRest (base.insertStatusRecord record)
  updateProblem := fun id column => Databases.onRest (base.updateProblem id column)
  aggregate := fun coll pipe => Databases.reads fun t => do Databases.docsOf (← t.query regex coll pipe)
  aggregateSized := fun coll pipe => Databases.reads fun t => do
    Databases.sizedDocsOf (← t.query regex coll pipe)
  aggregateCount := fun coll pipe => Databases.reads fun t => do
    let rows ← t.query regex coll pipe
    return if rows.isEmpty then none else some rows.length
  find := fun coll filter => Databases.reads fun t => do Databases.docsOf (← t.query regex coll filter)
  count_documents := fun coll filter => Databases.reads fun t => do
    return (← t.query regex coll filter).length
  update_one := Databases.update_one
  insert_one := Databases.insert_one
  delete_one := Databases.delete_one
  delete_many := fun coll filter => Databases.delete_many coll regex filter
  distinct := fun coll field => Databases.reads fun t => do
    return [← Doc.ofMembers [("values", .array (t.valuesOf coll field))]]
  nextid := Databases.onRest' base.nextid
  GetTime := fun t => base.GetTime t.rest
  judging := Databases.onRest' base.judging
  makeProblemData := fun problemid => Databases.onRest' (base.makeProblemData problemid)
  writeProblemFile := fun problemid name text =>
    Databases.onRest' (base.writeProblemFile problemid name text)
  readProblemFile := fun problemid name t => base.readProblemFile problemid name t.rest
  removeProblemData := fun problemid => Databases.onRest' (base.removeProblemData problemid)

/-! ## What the writes do -/

/-- A document after an update, as it was when the update is refused. -/
def Doc.update (u : Update) (doc : Doc) : Doc :=
  match Doc.ofMembers (u.apply doc.members) with
  | .ok doc' => if u.fits doc.members then doc' else doc
  | .error _ => doc

namespace Databases

variable {S : Type} (t : Databases S) (coll : Collection) (id : Int64)

/-- The document with an id. -/
def find (t : Databases S) (coll : Collection) (id : Int64) : Option Doc := (t.colls coll).get? id

theorem find_setColl (rows : Rows Int64 Doc) (c : Collection) (i : Int64) :
    (t.setColl coll rows).find c i = if c = coll then rows.get? i else t.find c i := by
  simp only [find, colls_setColl]
  split <;> rfl

theorem setColl_self : t.setColl coll (t.colls coll) = t := by
  have hcolls : (fun c => if c = coll then t.colls coll else t.colls c) = t.colls := by
    funext c
    by_cases hc : c = coll
    · simp [hc]
    · simp [hc]
  rw [setColl, hcolls]

theorem final_update_one (update : Update) :
    final (update_one coll id update) t =
      t.setColl coll ((t.colls coll).modify id (Doc.update update)) := by
  -- what is refused, or not there, changes nothing
  have hsame : (∀ doc, t.find coll id = some doc → Doc.update update doc = doc) →
      t = t.setColl coll ((t.colls coll).modify id (Doc.update update)) := fun h => by
    rw [Rows.modify_of_fixed h, setColl_self]
  simp only [final, update_one]
  cases hdoc : (t.colls coll).get? id with
  | none =>
      exact hsame fun doc hfound => by simp [find, hdoc] at hfound
  | some doc =>
      have hrefused : Doc.update update doc = doc →
          t = t.setColl coll ((t.colls coll).modify id (Doc.update update)) := by
        refine fun heq => hsame fun doc' hfound => ?_
        cases hdoc.symm.trans hfound
        exact heq
      simp only
      cases hutf8 : Doc.ofMembers (update.apply doc.members) with
      | error e =>
          exact hrefused (by simp only [Doc.update, hutf8])
      | ok doc' =>
          simp only
          by_cases hfits : update.fits doc.members = true
          · rw [if_pos hfits]
            refine congrArg (t.setColl coll) (Rows.modify_congr fun doc'' hfound => ?_)
            cases hdoc.symm.trans hfound
            simp only [Doc.update, hutf8, if_pos hfits]
          · rw [if_neg hfits]
            exact hrefused (by simp only [Doc.update, hutf8, if_neg hfits])

theorem final_delete_one :
    final (delete_one coll id) t = t.setColl coll ((t.colls coll).erase id) := by
  simp only [final, delete_one]
  cases hdoc : (t.colls coll).get? id with
  | none =>
      rw [Rows.erase_of_none hdoc, setColl_self]
  | some doc =>
      rfl

/-- The document an insertion stores, if it is taken. -/
def insertable (members : Members) : Option Doc :=
  match Doc.ofMembers members with
  | .ok doc => if t.find coll id = none then some doc else none
  | .error _ => none

variable {t coll id} in
theorem insertable_eq_some {members : Members} {doc : Doc}
    (h : t.insertable coll id members = some doc) : t.find coll id = none ∧ doc.members = members := by
  simp only [insertable, Doc.ofMembers] at h
  by_cases hutf8 : Json.dumpableMembers members = true
  · simp only [dif_pos hutf8] at h
    split at h
    · next hfree =>
      cases h
      exact ⟨hfree, rfl⟩
    · cases h
  · simp only [dif_neg hutf8] at h
    cases h

theorem final_insert_one_of_none {members : Members} (h : t.insertable coll id members = none) :
    final (insert_one coll id members) t = t := by
  simp only [insertable] at h
  simp only [final, insert_one]
  cases hutf8 : Doc.ofMembers members with
  | error e =>
      rfl
  | ok doc =>
      have htaken : ¬ (t.colls coll).get? id = none := by
        intro hfree
        have hfind : t.find coll id = none := hfree
        simp [hutf8, hfind] at h
      simp only [dif_neg htaken]

theorem find_insert_one {members : Members} {doc : Doc} (h : t.insertable coll id members = some doc)
    (c : Collection) (i : Int64) :
    (final (insert_one coll id members) t).find c i =
      if c = coll ∧ i = id then some doc else t.find c i := by
  simp only [insertable] at h
  simp only [final, insert_one]
  cases hutf8 : Doc.ofMembers members with
  | error e =>
      simp [hutf8] at h
  | ok doc' =>
      simp only [hutf8] at h
      split at h
      · next hfree =>
        cases h
        have hfree : (t.colls coll).get? id = none := hfree
        simp only [dif_pos hfree, find_setColl, Rows.get?_insert]
        by_cases hc : c = coll
        · subst hc
          simp [find]
        · simp [hc]
      · cases h

/-- The documents a filter matches are gone. -/
theorem find_delete_many (regex : Bytes → Option (Bytes → Bool)) (field : String) (value : Json)
    (c : Collection) (i : Int64) :
    (final (delete_many coll regex [.matching field value]) t).find c i =
      if c = coll then (t.find c i).filter fun doc => !Row.matching field value (i, doc.members)
      else t.find c i := by
  have hquery : t.query regex coll [.matching field value] =
      .ok ((t.rows coll).filter (Row.matching field value)) := rfl
  simp only [final, delete_many, hquery, find_setColl]
  split
  · next hc =>
    subst hc
    rw [Rows.get?_filter]
    cases hdoc : (t.colls c).get? i with
    | none =>
        simp [find, hdoc]
    | some doc =>
        -- the only row under the key is this document's
        have hselected : i ∈ ((t.rows c).filter (Row.matching field value)).map Prod.fst ↔
            Row.matching field value (i, doc.members) = true := by
          simp only [rows, List.mem_map, List.mem_filter, Prod.exists]
          constructor
          · rintro ⟨i', ms, ⟨⟨j, doc', hrow, heq⟩, hmatch⟩, rfl⟩
            cases heq
            cases (Rows.get?_eq_some_iff.2 hrow).symm.trans hdoc
            exact hmatch
          · intro hmatch
            exact ⟨i, doc.members, ⟨⟨i, doc, Rows.get?_eq_some_iff.1 hdoc, rfl⟩, hmatch⟩, rfl⟩
        rw [find, hdoc, Option.filter_some, Option.filter_some]
        simp only [hselected]
        cases Row.matching field value (i, doc.members) <;> simp
  · rfl

theorem find_update_one (update : Update) (c : Collection) (i : Int64) :
    (final (update_one coll id update) t).find c i =
      if c = coll ∧ i = id then (t.find c i).map (Doc.update update) else t.find c i := by
  rw [final_update_one, find_setColl, Rows.get?_modify]
  by_cases hc : c = coll
  · subst hc
    simp [find]
  · simp [hc]

theorem find_delete_one (c : Collection) (i : Int64) :
    (final (delete_one coll id) t).find c i = if c = coll ∧ i = id then none else t.find c i := by
  rw [final_delete_one, find_setColl, Rows.get?_erase]
  by_cases hc : c = coll
  · subst hc
    simp [find]
  · simp [hc]

@[simp] theorem redis_update_one (update : Update) :
    (final (update_one coll id update) t).redis = t.redis := by
  rw [final_update_one, redis_setColl]

@[simp] theorem redis_delete_one : (final (delete_one coll id) t).redis = t.redis := by
  rw [final_delete_one, redis_setColl]

@[simp] theorem rest_update_one (update : Update) :
    (final (update_one coll id update) t).rest = t.rest := by
  rw [final_update_one, rest_setColl]

@[simp] theorem rest_insert_one (members : Members) :
    (final (insert_one coll id members) t).rest = t.rest := by
  simp only [final, insert_one]
  cases Doc.ofMembers members with
  | error e =>
      rfl
  | ok doc =>
      by_cases hfree : (t.colls coll).get? id = none
      · simp only [dif_pos hfree, rest_setColl]
      · simp only [dif_neg hfree]

@[simp] theorem rest_delete_one : (final (delete_one coll id) t).rest = t.rest := by
  rw [final_delete_one, rest_setColl]

end Databases

/-! ## The programs of `Mongo` -/

/-- A document with some of its fields. -/
def Doc.project (fields : List String) (doc : Doc) : Doc :=
  ⟨projectMembers (fields.map pathOf) doc.members, dumpable_projectMembers _ _ doc.utf8⟩

/-- What `selectById` answers for the document found. -/
def MoDB.foundDoc (fields : List String) (notFound : String) (id : Int64) : Option Doc → Json
  | none => failure "Fail" notFound
  | some doc => success ((doc.project fields).toJson fields id)

section programs

variable {S : Type} {base : Backend S} {regex : Bytes → Option (Bytes → Bool)} {t : Databases S}

variable (regex) in
theorem Databases.query_byId (coll : Collection) (id : Int64) (pipe : List Stage) :
    t.query regex coll (MoDB.byId id :: pipe) =
      runStages regex (t.rows .User) pipe
        (((t.colls coll).get? id).toList.map fun doc => (id, doc.members)) := by
  have hrows : (t.rows coll).filter (Row.matching "_id" (.ofInt id.toInt)) =
      ((t.colls coll).get? id).toList.map fun doc => (id, doc.members) := by
    rw [Databases.rows, List.filter_map]
    have hkey : (Row.matching "_id" (.ofInt id.toInt) ∘ fun (row : Int64 × Doc) => (row.1, row.2.members)) =
        fun row => decide (row.1 = id) := by
      funext row
      exact Row.matching_id id _
    rw [hkey, Rows.filter_key, List.map_map]
    rfl
  rw [← hrows]
  rfl

theorem aggregate_byId (coll : Collection) (id : Int64) (fields : List String) :
    (base.onDatabases regex).aggregate coll [MoDB.byId id, .project fields []] t =
      .ok (((t.colls coll).get? id).toList.map fun doc => (id, doc.project fields)) t := by
  have hquery := t.query_byId regex coll id [.project fields []]
  simp only [Backend.onDatabases, Databases.reads, hquery]
  cases (t.colls coll).get? id with
  | none =>
      rfl
  | some doc =>
      have hutf8 := dumpable_projectMembers (fields.map pathOf) doc.members doc.utf8
      simp only [Option.toList_some, List.map_cons, List.map_nil, runStages, Stage.run, List.foldl_nil,
        bind, Except.bind, Databases.docsOf, List.mapM_cons, List.mapM_nil, Doc.ofMembers, dif_pos hutf8,
        pure, Except.pure]
      rfl

/-- A document is asked for by its id, and is there or not. -/
theorem MoDB.selectById_apply (coll : Collection) (idField : String) (fields : List String)
    (notFound reason : String) (queryjson : Json) (server : Server (Databases S)) :
    selectById (base.onDatabases regex) coll idField false [] fields notFound reason queryjson server =
      .ok
        (match queryjson.int64At idField with
        | .ok id => foundDoc fields notFound id ((server.outside.colls coll).get? id)
        | .error _ => caught .null reason) server := by
  simp only [selectById, orElse500, attempt]
  cases queryjson.int64At idField with
  | error e =>
      rfl
  | ok id =>
      have hcall : call ((base.onDatabases regex).aggregate coll [byId id, .project fields []]) server =
          .ok (((server.outside.colls coll).get? id).toList.map fun doc => (id, doc.project fields))
            server := by
        simp only [call, aggregate_byId]
      rw [bind_of_ok liftM_ok_apply]
      simp only [Bool.false_eq_true, if_false, List.cons_append, List.nil_append]
      rw [bind_of_ok hcall]
      cases (server.outside.colls coll).get? id <;> rfl

/-- What `pagedList` answers for what is matched, and the page of it. -/
def MoDB.pageJson (fields : List String) (reason : String) (finish : Json → List Json → Json)
    (matched page : Except Exception (List Row)) : Json :=
  match matched with
  | .error _ => caught .null reason
  | .ok rows =>
      let total := totalNum (if rows.isEmpty then none else some rows.length)
      match page >>= Databases.docsOf with
      | .error _ => caught total reason
      | .ok docs => finish total (docs.map fun (id, doc) => doc.toJson fields id)

/-- A call that only reads is a read. -/
theorem call_reads {α : Type} {f : Databases S → Except Exception α} {server : Server (Databases S)} :
    call (Databases.reads f) server = (liftM (f server.outside) : Action (Databases S) α) server := by
  simp only [call, Databases.reads]
  cases f server.outside <;> rfl

/-- A page is two queries, and leaves everything as it is. -/
theorem MoDB.pagedList_apply (coll : Collection) (query : Except Exception Page)
    (order joined : List Stage) (fields : List String) (computed : List (String × String))
    (reason : String) (finish : Page → Json → List Json → Json) (server : Server (Databases S)) :
    pagedList (base.onDatabases regex) coll query order joined fields computed reason finish server =
      .ok
        (match query with
        | .error _ => caught .null reason
        | .ok page => pageJson fields reason (finish page) (server.outside.query regex coll page.filter)
            (server.outside.query regex coll (page.pipe order joined fields computed))) server := by
  simp only [pagedList, orElse500, attempt, bind_apply, Backend.onDatabases, call_reads]
  cases query with
  | error e =>
      rfl
  | ok page =>
      simp only [liftM_ok_apply, pageJson]
      cases server.outside.query regex coll page.filter with
      | error e =>
          rfl
      | ok rows =>
          simp only [bind, Except.bind, pure, Except.pure, liftM_ok_apply]
          cases server.outside.query regex coll (page.pipe order joined fields computed) with
          | error e =>
              rfl
          | ok docs =>
              simp only
              cases Databases.docsOf docs <;> rfl

/-- What `deleteById` answers. -/
def MoDB.deleted (notDeleted : String) : Option Doc → Json
  | none => failure "Fail" notDeleted
  | some _ => success .null

variable (base regex) in
theorem MoDB.deleteById_apply (coll : Collection) (idField notDeleted : String) (json : Json)
    (server : Server (Databases S)) :
    deleteById (base.onDatabases regex) coll idField notDeleted json server =
      match json.int64At idField with
      | .ok id =>
          .ok (deleted notDeleted (server.outside.find coll id))
            { server with outside := final (Databases.delete_one coll id) server.outside }
      | .error _ => .ok (caught .null "数据库异常！") server := by
  simp only [deleteById, orElse500, attempt]
  cases json.int64At idField with
  | error e =>
      rfl
  | ok id =>
      simp only [bind_apply, liftM_ok_apply, call, Backend.onDatabases, Databases.delete_one, final,
        Databases.find]
      cases (server.outside.colls coll).get? id <;> rfl

/-- An update always succeeds or is refused. -/
theorem MoDB.final_updateById (coll : Collection) (id : Int64) (update : Update)
    (server : Server (Databases S)) :
    final (updateById (base.onDatabases regex) coll id update) server =
      { server with outside := final (Databases.update_one coll id update) server.outside } := by
  have hkeeps := final_bind_of_keeps (v := fun s : Server (Databases S) => s)
    (f := fun _ : Nat => (pure (success .null) : Action (Databases S) Json)) (fun _ => Keeps.pure _)
    (call ((base.onDatabases regex).update_one coll id update)) server
  exact hkeeps.trans (final_call _)

/-- So does an insertion. -/
theorem MoDB.final_insertOne (coll : Collection) (id : Int64) (members : Members)
    (server : Server (Databases S)) :
    final (insertOne (base.onDatabases regex) coll id members) server =
      { server with outside := final (Databases.insert_one coll id members) server.outside } := by
  have hkeeps := final_bind_of_keeps (v := fun s : Server (Databases S) => s)
    (f := fun inserted : Nat => (do
      if inserted < 1 then return failure "Fail" "数据库插入失败！"
      return success .null : Action (Databases S) Json))
    (fun inserted => by split <;> exact Keeps.pure _)
    (call ((base.onDatabases regex).insert_one coll id members)) server
  exact hkeeps.trans (final_call _)

/-- What Redis and MongoDB hold. -/
def stores (server : Server (Databases S)) : (RedisDb → Bytes → Option Bytes) × (Collection → Rows Int64 Doc) :=
  (server.outside.redis, server.outside.colls)

/-- A call that only reads changes nothing. -/
theorem keeps_reads {α γ : Type} {v : Server (Databases S) → γ} (f : Databases S → Except Exception α) :
    Keeps v (call (Databases.reads f)) := by
  intro server
  rw [final, call_reads]
  exact Keeps.liftM (f server.outside) server

/-- Calls on the rest leave them alone. -/
theorem keeps_stores_affect {α : Type} (f : S → α × S) :
    Keeps (stores (S := S)) (affect (Databases.onRest' f)) :=
  fun _ => rfl

/-! ## Deletions, whatever relation their calls keep to -/

variable {R : Server (Databases S) → Server (Databases S) → Prop} [IsPreorder (Server (Databases S)) R]

theorem MoDB.within_deleteById (coll : Collection) (idField notDeleted : String) (json : Json)
    (h : ∀ id, Within R (call (Databases.delete_one coll id))) :
    Within R (deleteById (base.onDatabases regex) coll idField notDeleted json) := by
  refine Within.attempt_pure (Within.bind (Within.liftM _) fun id => ?_) _
  refine Within.bind (h id) fun deleted => ?_
  split
  · exact Within.pure _
  · exact Within.pure _

theorem MoDB.within_DeleteArticleComment (json : Json)
    (h : ∀ value, Within R (call (Databases.delete_many .Comment regex [.matching "ParentId" value]))) :
    Within R (DeleteArticleComment (base.onDatabases regex) json) := by
  refine Within.attempt_pure (Within.bind (Within.liftM _) fun articleid => ?_) _
  exact Within.bind (h _) fun _ => Within.pure _

theorem MoDB.within_DeleteFatherComment (json : Json)
    (h : ∀ id, Within R (call (Databases.delete_one .Comment id))) :
    Within R (DeleteFatherComment (base.onDatabases regex) json) := by
  refine Within.attempt_pure (Within.bind (Within.liftM _) fun commentid => ?_) _
  refine Within.bind (Within.of_keeps (keeps_reads _)) fun docs => ?_
  split
  · exact Within.pure _
  · refine Within.bind (Within.of_keeps (keeps_reads _)) fun docs => ?_
    refine Within.bind (Within.liftM _) fun sonnum => Within.bind (Within.liftM _) fun articletype => ?_
    refine Within.bind (h commentid) fun deleted => ?_
    split
    · exact Within.pure _
    · exact Within.pure _

theorem MoDB.within_DeleteSonComment (json : Json)
    (h : ∀ father id, Within R (call (Databases.update_one .Comment father (.pull "Child_Comments" id)))) :
    Within R (DeleteSonComment (base.onDatabases regex) json) := by
  refine Within.attempt_pure (Within.bind (Within.liftM _) fun commentid => ?_) _
  refine Within.bind (Within.of_keeps (keeps_reads _)) fun docs => ?_
  cases docs.getLast? with
  | none =>
      exact Within.pure _
  | some doc =>
      refine Within.bind (Within.liftM _) fun fatherid => ?_
      refine Within.bind (Within.liftM _) fun articletype => ?_
      refine Within.bind (h fatherid commentid) fun matched => ?_
      split
      · exact Within.pure _
      · exact Within.pure _

end programs

end Oj
end Myoj
