import Myoj.Lib.Runs
import Myoj.Oj.Databases
import Myoj.Oj.ProblemConditions

/-!
# ProblemCache — problems and the texts that are cached of them

`SelectProblem` keeps the text of a problem under the string it was asked for, while the document is
found by the number the string stands for: `1` and `01` are one problem and two texts.  `UpdateProblem`
and `DeleteProblem` drop the text under their own string, the former after it has written the files.

* `ProblemRequest` — the three operations;
* `Coherent` — the next `SelectProblem` answers what `MoDB::SelectProblem` answers;
* `Filled` — every cached text is that of a problem that was found;
* `Invalidates` — no text of the changed document is left, or the document shows what it did;
* `coherent_throughout_iff` — the runs that stay coherent are those whose edits invalidate;
* `Json.text`, `texts` — the text `dump` writes, for the run with two spellings of an id.
-/

namespace Myoj
namespace Oj

open Effect

/-- `parse` reads what `dump` has written: not always the same value, but one with the same text, as
`5` may come back unsigned. -/
structure RoundTrip {S : Type} (b : Backend S) : Prop where
  nonempty : ∀ j, b.dumpText j ≠ []
  parse : ∀ j, j.dumpable = true → ∃ k, b.parse (b.dumpText j) = some k ∧ b.dumpText k.1 = b.dumpText j

inductive ProblemRequest where
  | select (queryjson : Json)
  | update (updatejson : Json)
  | delete (deletejson : Json)

namespace ProblemRequest

variable {S : Type} (b : Backend S)

def run : ProblemRequest → Action S Json
  | .select queryjson => ProblemList.SelectProblem b queryjson
  | .update updatejson => ProblemList.UpdateProblem b updatejson
  | .delete deletejson => ProblemList.DeleteProblem b deletejson

def step (server : Server S) (req : ProblemRequest) : Server S := final (req.run b) server

/-- Whatever problem is asked for now, the answer has the text of the one `MoDB::SelectProblem` gives. -/
def Coherent (server : Server S) : Prop :=
  ∀ queryjson problemid, queryjson.member "ProblemId" = .string problemid →
    Returns (ProblemList.SelectProblem b queryjson) server fun j _ =>
      Returns (MoDB.SelectProblem b queryjson) server fun k _ => b.dumpText j = b.dumpText k

/-! ## Looking a problem up -/

section lookups

variable {base : Backend S} {regex : Bytes → Option (Bytes → Bool)} {server : Server (Databases S)}
variable {queryjson : Json} {problemid : Bytes}

/-- The fields of a problem's page. -/
def pageFields : List String :=
  ["Title", "Description", "TimeLimit", "MemoryLimit", "JudgeNum", "SubmitNum", "ACNum", "UserNickName",
    "Tags"]

def problemAnswer (id : Int64) (doc : Option Doc) : Json :=
  MoDB.foundDoc pageFields "数据库未查询到该信息！" id doc

/-- What `MoDB::SelectProblem` answers to a string. -/
def answerTo (t : Databases S) (problemid : Bytes) : Json :=
  match stoll problemid with
  | .ok id => problemAnswer id (t.find .Problem id)
  | .error _ => caught .null "数据库出错啦！"

def cachedText (t : Databases S) (problemid : Bytes) : Option Bytes :=
  t.redis .redis_cache (bytes "Cache:Problem:" ++ problemid)

theorem int64At_of_member {k : String} (h : queryjson.member k = .string problemid) :
    queryjson.int64At k = stoll problemid := by
  rw [Json.int64At, stringAt_of_member h]
  rfl

theorem SelectProblem_apply (hid : queryjson.member "ProblemId" = .string problemid) :
    MoDB.SelectProblem (base.onDatabases regex) queryjson server =
      .ok (answerTo server.outside problemid) server := by
  rw [MoDB.SelectProblem, MoDB.selectById_apply, int64At_of_member hid, answerTo]
  rfl

theorem GetProblemCache_apply :
    ReDB.GetProblemCache (base.onDatabases regex) problemid server =
      .ok ((cachedText server.outside problemid).getD []) server := by
  have hcached : ReDB.cached (base.onDatabases regex) "Cache:Problem:" problemid server.outside =
      (cachedText server.outside problemid).getD [] := by
    simp only [ReDB.cached, Backend.onDatabases, Databases.reads, cachedText]
    cases server.outside.redis .redis_cache (bytes "Cache:Problem:" ++ problemid) <;> rfl
  rw [ReDB.GetProblemCache, ReDB.getCache_apply, hcached]
  rfl

variable (base regex) in
theorem SelectProblem_of_cached (hid : queryjson.member "ProblemId" = .string problemid) {text : Bytes}
    (hcached : cachedText server.outside problemid = some text) (htext : text ≠ []) :
    ProblemList.SelectProblem (base.onDatabases regex) queryjson server =
      (liftM (base.parseJson text) : Action (Databases S) Json) server := by
  rw [ProblemList.SelectProblem, stringAt_of_member hid, bind_of_ok liftM_ok_apply,
    bind_of_ok GetProblemCache_apply, hcached, Option.getD_some, if_pos htext]
  rfl

theorem dumpable_problemAnswer (id : Int64) (doc : Option Doc) : (problemAnswer id doc).dumpable = true := by
  cases doc with
  | none =>
      exact (answerable_failure _ _).2
  | some doc =>
      exact (answerable_success (Doc.dumpable_toJson ..)).2

variable (base regex) in
/-- Without a cached text the document is looked up, and its text cached if it is there. -/
theorem SelectProblem_of_not_cached (hid : queryjson.member "ProblemId" = .string problemid)
    (hcached : cachedText server.outside problemid = none) :
    ProblemList.SelectProblem (base.onDatabases regex) queryjson server =
      .ok (answerTo server.outside problemid)
        { server with
          outside :=
            match stoll problemid with
            | .error _ => server.outside
            | .ok id =>
                match server.outside.find .Problem id with
                | none => server.outside
                | some doc =>
                    server.outside.setRedis .redis_cache (bytes "Cache:Problem:" ++ problemid)
                      (some (base.dumpText (problemAnswer id (some doc)))) } := by
  rw [ProblemList.SelectProblem, stringAt_of_member hid, bind_of_ok liftM_ok_apply,
    bind_of_ok GetProblemCache_apply, hcached, Option.getD_none, if_neg (not_not.2 rfl),
    bind_of_ok (SelectProblem_apply hid), answerTo]
  cases stoll problemid with
  | error e =>
      rfl
  | ok id =>
      simp only
      -- only a problem that is found has its answer put under the key
      cases hdoc : server.outside.find .Problem id with
      | none =>
          rfl
      | some doc =>
          have hresult : (problemAnswer id (some doc)).member "Result" = .string (bytes "Success") := by
            simp [problemAnswer, MoDB.foundDoc, success, Doc.toJson, Json.put, Json.member,
              Json.lookup_assign, Json.str]
          have hdump : (problemAnswer id (some doc)).dump = .ok () :=
            if_pos (dumpable_problemAnswer id (some doc))
          simp only [ProblemList.cacheProblem, stringAt_of_member hresult, hdump, if_true, bind_apply,
            liftM_ok_apply]
          rfl

end lookups

/-! ## What is cached -/

section cache

variable {base : Backend S} {regex : Bytes → Option (Bytes → Bool)} {server : Server (Databases S)}

/-- Every cached text is that of some document, under a string with a number. -/
def Filled (base : Backend S) (server : Server (Databases S)) : Prop :=
  ∀ problemid text, cachedText server.outside problemid = some text →
    ∃ id doc, stoll problemid = .ok id ∧ text = base.dumpText (problemAnswer id (some doc))

/-- Every cached text is the one the document has now. -/
def Current (base : Backend S) (server : Server (Databases S)) : Prop :=
  ∀ problemid text, cachedText server.outside problemid = some text →
    text = base.dumpText (answerTo server.outside problemid)

theorem coherent_iff_current (hround : RoundTrip base) (hfilled : Filled base server) :
    Coherent (base.onDatabases regex) server ↔ Current base server := by
  -- with an entry, what is shown is the entry, and parsing loses nothing of it
  have hhit : ∀ {queryjson problemid text}, queryjson.member "ProblemId" = .string problemid →
      cachedText server.outside problemid = some text →
      ((Returns (ProblemList.SelectProblem (base.onDatabases regex) queryjson) server fun j _ =>
        Returns (MoDB.SelectProblem (base.onDatabases regex) queryjson) server fun k _ =>
          base.dumpText j = base.dumpText k) ↔
        text = base.dumpText (answerTo server.outside problemid)) := by
    intro queryjson problemid text hid hcached
    obtain ⟨id, doc, -, rfl⟩ := hfilled problemid text hcached
    obtain ⟨j, hparse, htext⟩ := hround.parse _ (dumpable_problemAnswer id (some doc))
    have hjson : base.parseJson (base.dumpText (problemAnswer id (some doc))) = .ok j.1 := by
      simp only [Backend.parseJson, hparse]
    have hselect := SelectProblem_of_cached base regex hid hcached
      (hround.nonempty _)
    rw [hjson, liftM_ok_apply] at hselect
    rw [returns_iff_of_ok hselect, returns_iff_of_ok (SelectProblem_apply hid), htext]
  constructor
  · intro hcoherent problemid text hcached
    have hid : (Json.object [("ProblemId", .string problemid)]).member "ProblemId" = .string problemid := rfl
    exact (hhit hid hcached).1 (hcoherent _ problemid hid)
  · intro hcurrent queryjson problemid hid
    cases hcached : cachedText server.outside problemid with
    -- without one, both are read from the database
    | none =>
        rw [returns_iff_of_ok (SelectProblem_of_not_cached base regex hid hcached),
          returns_iff_of_ok (SelectProblem_apply hid)]
    | some text =>
        exact (hhit hid hcached).2 (hcurrent problemid text hcached)

/-! ## What the requests change -/

/-- The document a request changes, and what it makes of it; an update the driver refuses changes
nothing. -/
def edit : ProblemRequest → Option (Int64 × (Doc → Option Doc))
  | .select _ => none
  | .update json =>
      match json.intAt "ProblemId", MoDB.problemMembers json with
      | .ok id, .ok members => some (id.toInt64, fun doc => some (doc.update (.set members)))
      | _, _ => none
  | .delete json =>
      match json.int64At "ProblemId" with
      | .ok id => some (id, fun _ => none)
      | .error _ => none

/-- The document with an id after a request. -/
def edited (req : ProblemRequest) (t : Databases S) (id : Int64) : Option Doc :=
  match req.edit with
  | some (id', change) => if id = id' then (t.find .Problem id).bind change else t.find .Problem id
  | none => t.find .Problem id

/-- The string whose text a request drops: `UpdateProblem` does when nothing was thrown, `DeleteProblem`
when the document was there. -/
def Drops (t : Databases S) (problemid : Bytes) : ProblemRequest → Prop
  | .select _ => False
  | .update json => json.member "ProblemId" = .string problemid ∧ DataTyped json
  | .delete json => json.member "ProblemId" = .string problemid ∧
      ∀ id, stoll problemid = .ok id → t.find .Problem id ≠ none

/-- What is cached after a request that does not look a problem up. -/
def Dropped (req : ProblemRequest) (t t' : Databases S) : Prop :=
  ∀ problemid, (req.Drops t problemid → cachedText t' problemid = none) ∧
    (¬ req.Drops t problemid → cachedText t' problemid = cachedText t problemid)

theorem cachedText_setRedis (t : Databases S) (problemid : Bytes) (value : Option Bytes) (q : Bytes) :
    cachedText (t.setRedis .redis_cache (bytes "Cache:Problem:" ++ problemid) value) q =
      if q = problemid then value else cachedText t q := by
  simp [cachedText]

theorem cachedText_congr {t t' : Databases S} (h : t'.redis = t.redis) (q : Bytes) :
    cachedText t' q = cachedText t q := by
  simp only [cachedText, h]

/-! ### `SelectProblem` -/

/-- Nothing has changed but that the text a document has may have been cached. -/
def Cached (base : Backend S) (t t' : Databases S) : Prop :=
  t'.colls = t.colls ∧
    ∀ q, cachedText t' q = cachedText t q ∨
      ∃ id doc, stoll q = .ok id ∧ t.find .Problem id = some doc ∧
        cachedText t' q = some (base.dumpText (problemAnswer id (some doc)))

variable (regex) in
theorem cached_select (hround : RoundTrip base) (hfilled : Filled base server) (queryjson : Json) :
    Cached base server.outside (step (base.onDatabases regex) server (.select queryjson)).outside := by
  have hstays : step (base.onDatabases regex) server (.select queryjson) = server →
      Cached base server.outside (step (base.onDatabases regex) server (.select queryjson)).outside := by
    intro hsame
    rw [hsame]
    exact ⟨rfl, fun _ => Or.inl rfl⟩
  cases hstring : queryjson.stringAt "ProblemId" with
  | error e =>
      refine hstays ?_
      simp only [step, run, ProblemList.SelectProblem, hstring, final_liftM_bind]
  | ok problemid =>
      have hid := stringAt_eq_ok_iff.1 hstring
      cases hcached : cachedText server.outside problemid with
      | some text =>
          -- the text is there, and stays
          obtain ⟨id, doc, -, rfl⟩ := hfilled problemid text hcached
          refine hstays ?_
          have hselect := SelectProblem_of_cached base regex hid hcached
            (hround.nonempty _)
          rw [step, run, final, hselect]
          exact final_liftM _
      | none =>
          have hselect := SelectProblem_of_not_cached base regex hid hcached
          cases hnumber : stoll problemid with
          | error e =>
              refine hstays ?_
              rw [step, run, final_of_ok hselect]
              simp only [hnumber]
          | ok id =>
              cases hdoc : server.outside.find .Problem id with
              | none =>
                  refine hstays ?_
                  rw [step, run, final_of_ok hselect]
                  simp only [hnumber, hdoc]
              | some doc =>
                  rw [step, run, final_of_ok hselect]
                  simp only [hnumber, hdoc]
                  refine ⟨rfl, fun q => ?_⟩
                  rw [cachedText_setRedis]
                  by_cases hq : q = problemid
                  · subst hq
                    exact Or.inr ⟨id, doc, hnumber, hdoc, if_pos rfl⟩
                  · exact Or.inl (if_neg hq)

/-! ### `UpdateProblem` and `DeleteProblem` -/

theorem outside_DeleteProblemCache (problemid : Bytes) :
    (final (ReDB.DeleteProblemCache (base.onDatabases regex) problemid) server).outside =
      server.outside.setRedis .redis_cache (bytes "Cache:Problem:" ++ problemid) none := by
  rw [ReDB.DeleteProblemCache, final_attempt_pure, final_call]
  rfl

variable (base regex) in
theorem keeps_files (json : Json) :
    Keeps (stores (S := S)) (ProblemList.InsertProblemDataInfo (base.onDatabases regex) json) :=
  keeps_InsertProblemDataInfo (fun _ => keeps_stores_affect _) (fun _ _ _ => keeps_stores_affect _) json

variable (base regex server) in
/-- The text is dropped when the data could be written. -/
theorem stores_updateData_of_typed {json : Json} {problemid : Bytes}
    (hid : json.member "ProblemId" = .string problemid) (hdata : DataTyped json) (tmpjson : Json) :
    stores (final (ProblemList.updateData (base.onDatabases regex) json tmpjson) server) =
      ((server.outside.setRedis .redis_cache (bytes "Cache:Problem:" ++ problemid) none).redis,
        server.outside.colls) := by
  rw [ProblemList.updateData, stringAt_of_member hid, final_liftM_bind]
  simp only
  rw [final_affect_bind]
  generalize hrm : ({ server with outside := _ } : Server (Databases S)) = removed
  have hremoved : stores removed = stores server := by
    rw [← hrm]
    rfl
  obtain ⟨_, written, hwritten, -⟩ :=
    (returns_InsertProblemDataInfo_iff (b := base.onDatabases regex) (Q := True) removed).2 ⟨hdata, trivial⟩
  have hkeeps := keeps_files base regex json removed
  rw [final_of_ok hwritten, hremoved] at hkeeps
  rw [final_bind_of_ok hwritten, final_bind_of_keeps (v := stores) (fun _ => Keeps.pure _), stores,
    outside_DeleteProblemCache]
  simp only [stores, Prod.mk.injEq] at hkeeps
  simp only [Databases.setRedis, hkeeps]

variable (base regex server) in
theorem stores_updateData_of_not_typed {json : Json} (hdata : ¬ DataTyped json) (tmpjson : Json) :
    stores (final (ProblemList.updateData (base.onDatabases regex) json tmpjson) server) =
      stores server := by
  rw [ProblemList.updateData, final_liftM_bind]
  cases json.stringAt "ProblemId" with
  | error e =>
      rfl
  | ok problemid =>
      simp only
      rw [final_affect_bind, final_bind_of_not_returns fun hreturns =>
        hdata ((returns_InsertProblemDataInfo_iff _).1 hreturns).1]
      exact keeps_files base regex json _

theorem find_congr {t t' : Databases S} (h : t'.colls = t.colls) (coll : Collection) (id : Int64) :
    t'.find coll id = t.find coll id := by
  simp only [Databases.find, h]

/-- One text is dropped, and it is the one to drop. -/
theorem dropped_of_iff {req : ProblemRequest} {t t₁ t' : Databases S} {problemid : Bytes}
    (hredis : t₁.redis = t.redis)
    (hdel : t'.redis = (t₁.setRedis .redis_cache (bytes "Cache:Problem:" ++ problemid) none).redis)
    (hdrops : ∀ q, req.Drops t q ↔ q = problemid) : Dropped req t t' := by
  intro q
  rw [cachedText_congr hdel, cachedText_setRedis, cachedText_congr hredis, hdrops q]
  exact ⟨fun h => if_pos h, fun h => if_neg h⟩

/-- No text is dropped, and there is none to drop. -/
theorem dropped_of_not {req : ProblemRequest} {t t' : Databases S} (hredis : t'.redis = t.redis)
    (hdrops : ∀ q, ¬ req.Drops t q) : Dropped req t t' :=
  fun q => ⟨fun h => absurd h (hdrops q), fun _ => cachedText_congr hredis q⟩

variable (base regex server) in
/-- The document is changed first. -/
theorem final_UpdateProblem (json : Json) :
    (final (MoDB.UpdateProblem (base.onDatabases regex) json) server).outside.redis = server.outside.redis ∧
      ∀ id, (final (MoDB.UpdateProblem (base.onDatabases regex) json) server).outside.find .Problem id =
        (ProblemRequest.update json).edited server.outside id := by
  rw [MoDB.UpdateProblem, orElse500, final_attempt_pure, final_liftM_bind]
  cases hid : json.intAt "ProblemId" with
  | error e =>
      exact ⟨rfl, fun id => by simp only [edited, edit, hid]⟩
  | ok problemid =>
      simp only [final_liftM_bind]
      cases hmembers : MoDB.problemMembers json with
      | error e =>
          exact ⟨rfl, fun id => by simp only [edited, edit, hid, hmembers]⟩
      | ok members =>
          simp only [MoDB.final_updateById, Databases.redis_update_one, true_and]
          intro id
          rw [Databases.find_update_one]
          simp only [edited, edit, hid, hmembers, true_and]
          split
          · cases server.outside.find .Problem id <;> rfl
          · rfl

variable (base regex server) in
theorem step_update (json : Json) :
    (∀ id, (step (base.onDatabases regex) server (.update json)).outside.find .Problem id =
      (ProblemRequest.update json).edited server.outside id) ∧
    Dropped (.update json) server.outside (step (base.onDatabases regex) server (.update json)).outside := by
  obtain ⟨tmpjson, hfinal⟩ := final_UpdateProblem_data (b := base.onDatabases regex) json server
  obtain ⟨hredis, hfind⟩ := final_UpdateProblem base regex server json
  rw [step, run, hfinal]
  generalize final (MoDB.UpdateProblem (base.onDatabases regex) json) server = server' at hredis hfind ⊢
  -- the key is dropped once the data is written, and the typed members decide that
  by_cases hdata : DataTyped json
  · obtain ⟨q, hq⟩ := hdata.problemid
    have hstores := stores_updateData_of_typed base regex server' hq hdata
      tmpjson
    rw [stores, Prod.mk.injEq] at hstores
    refine ⟨fun id => (find_congr hstores.2 _ _).trans (hfind id), dropped_of_iff hredis hstores.1 ?_⟩
    intro q'
    constructor
    · rintro ⟨hmember, -⟩
      cases hq.symm.trans hmember
      rfl
    · rintro rfl
      exact ⟨hq, hdata⟩
  · have hstores := stores_updateData_of_not_typed base regex server' hdata
      tmpjson
    rw [stores, stores, Prod.mk.injEq] at hstores
    exact ⟨fun id => (find_congr hstores.2 _ _).trans (hfind id),
      dropped_of_not (hstores.1.trans hredis) fun _ hdrops => hdata hdrops.2⟩

variable (base regex) in
/-- Unless the document was missing, the text is dropped. -/
theorem stores_delete {json tmpjson : Json} {problemid : Bytes} {server' : Server (Databases S)}
    (hid : json.member "ProblemId" = .string problemid)
    (hrun : MoDB.DeleteProblem (base.onDatabases regex) json server = .ok tmpjson server')
    (hindexable : tmpjson.Indexable) (hresult : (tmpjson.member "Result").eqString "Fail" = false) :
    stores (step (base.onDatabases regex) server (.delete json)) =
      ((server'.outside.setRedis .redis_cache (bytes "Cache:Problem:" ++ problemid) none).redis,
        server'.outside.colls) := by
  rw [step, run, ProblemList.DeleteProblem, final_bind_of_ok hrun, Json.index_of_indexable hindexable,
    final_liftM_bind]
  simp only [hresult, Bool.false_eq_true, if_false]
  rw [stringAt_of_member hid, final_liftM_bind]
  simp only
  rw [final_affect_bind, final_bind_of_keeps (v := stores) (fun _ => Keeps.pure _), stores,
    outside_DeleteProblemCache]
  rfl

/-- What was caught is no `Fail`, so that `DeleteProblem` goes on. -/
theorem eqString_caught (reason : String) :
    ((caught .null reason).member "Result").eqString "Fail" = false := by
  rw [member_caught rfl]
  rfl

/-- Nothing is found under what is no string, and reading it again throws. -/
theorem step_delete_of_error {json : Json} {e : Exception} (hstring : json.stringAt "ProblemId" = .error e) :
    step (base.onDatabases regex) server (.delete json) = server := by
  have hnumber : json.int64At "ProblemId" = .error e := by
    rw [Json.int64At, hstring]
    rfl
  have hrun := MoDB.deleteById_apply base regex .Problem "ProblemId" "数据库未查询到该数据！" json server
  rw [hnumber] at hrun
  rw [step, run, ProblemList.DeleteProblem, MoDB.DeleteProblem, final_bind_of_ok hrun,
    Json.index_of_indexable (indexable_caught ..), final_liftM_bind]
  simp only [eqString_caught, Bool.false_eq_true, if_false]
  rw [hstring, final_liftM_bind]

/-- There is nothing to delete. -/
theorem step_delete_of_missing {json : Json} {id : Int64} (hnumber : json.int64At "ProblemId" = .ok id)
    (hdoc : server.outside.find .Problem id = none) :
    step (base.onDatabases regex) server (.delete json) = server := by
  have hrun := MoDB.deleteById_apply base regex .Problem "ProblemId" "数据库未查询到该数据！" json server
  have hsame : final (Databases.delete_one .Problem id) server.outside = server.outside := by
    rw [Databases.final_delete_one, Rows.erase_of_none hdoc, Databases.setColl_self]
  have hindexable : (MoDB.deleted "数据库未查询到该数据！" none).Indexable = true := indexable_failure ..
  simp only [hnumber, hdoc, hsame] at hrun
  rw [step, run, ProblemList.DeleteProblem, MoDB.DeleteProblem, final_bind_of_ok hrun,
    Json.index_of_indexable hindexable, final_liftM_bind]
  rfl

theorem edited_delete {json : Json} {problemid : Bytes} (hid : json.member "ProblemId" = .string problemid)
    (t : Databases S) (id : Int64) :
    (ProblemRequest.delete json).edited t id =
      if stoll problemid = .ok id then none else t.find .Problem id := by
  simp only [edited, edit, int64At_of_member hid]
  cases stoll problemid with
  | error e =>
      rfl
  | ok id' =>
      simp only [Except.ok.injEq, eq_comm (a := id)]
      split
      · cases t.find .Problem id <;> rfl
      · rfl

theorem step_delete (json : Json) :
    (∀ id, (step (base.onDatabases regex) server (.delete json)).outside.find .Problem id =
      (ProblemRequest.delete json).edited server.outside id) ∧
    Dropped (.delete json) server.outside (step (base.onDatabases regex) server (.delete json)).outside := by
  cases hstring : json.stringAt "ProblemId" with
  | error e =>
      rw [step_delete_of_error hstring]
      refine ⟨fun id => ?_, dropped_of_not rfl fun q hdrops => ?_⟩
      · simp only [edited, edit, Json.int64At, hstring]
        rfl
      · cases hstring.symm.trans (stringAt_of_member hdrops.1)
  | ok problemid =>
      have hid := stringAt_eq_ok_iff.1 hstring
      by_cases hmissing : ∃ id, stoll problemid = .ok id ∧ server.outside.find .Problem id = none
      · obtain ⟨id, hnumber, hdoc⟩ := hmissing
        rw [step_delete_of_missing ((int64At_of_member hid).trans hnumber) hdoc]
        refine ⟨fun i => ?_, dropped_of_not rfl fun q hdrops => ?_⟩
        · rw [edited_delete hid]
          split
          · next hi =>
            cases hnumber.symm.trans hi
            exact hdoc
          · rfl
        · cases hid.symm.trans hdrops.1
          exact hdrops.2 id hnumber hdoc
      · have hdrops : ∀ q, (ProblemRequest.delete json).Drops server.outside q ↔ q = problemid := by
          intro q
          constructor
          · rintro ⟨hmember, -⟩
            cases hid.symm.trans hmember
            rfl
          · rintro rfl
            exact ⟨hid, fun id hnumber hdoc => hmissing ⟨id, hnumber, hdoc⟩⟩
        have hrun := MoDB.deleteById_apply base regex .Problem "ProblemId" "数据库未查询到该数据！" json server
        rw [int64At_of_member hid] at hrun
        cases hnumber : stoll problemid with
        | error e =>
            -- no number: the text is dropped and nothing else
            simp only [hnumber] at hrun
            have hstores := stores_delete base regex hid hrun (indexable_caught ..) (eqString_caught _)
            rw [stores, Prod.mk.injEq] at hstores
            refine ⟨fun id => (find_congr hstores.2 _ _).trans ?_, dropped_of_iff rfl hstores.1 hdrops⟩
            rw [edited_delete hid, hnumber, if_neg (by simp)]
        | ok id =>
            obtain ⟨doc, hdoc⟩ := Option.ne_none_iff_exists'.1 fun hnone => hmissing ⟨id, hnumber, hnone⟩
            simp only [hnumber, hdoc] at hrun
            have hstores := stores_delete base regex hid hrun (indexable_success _) rfl
            rw [stores, Prod.mk.injEq] at hstores
            refine ⟨fun i => (find_congr hstores.2 _ _).trans ?_,
              dropped_of_iff (Databases.redis_delete_one ..) hstores.1 hdrops⟩
            rw [Databases.find_delete_one, edited_delete hid, hnumber]
            simp only [true_and, Except.ok.injEq, eq_comm (a := i)]

/-! ## Runs -/

/-- No text is left of the document a request changes, or the document shows what it did. -/
def Invalidates (base : Backend S) (server : Server (Databases S)) (req : ProblemRequest) : Prop :=
  ∀ id change, req.edit = some (id, change) →
    ∀ problemid, stoll problemid = .ok id → cachedText server.outside problemid ≠ none →
      req.Drops server.outside problemid ∨
        base.dumpText (problemAnswer id ((server.outside.find .Problem id).bind change)) =
          base.dumpText (problemAnswer id (server.outside.find .Problem id))

theorem answerTo_of_ok {t : Databases S} {problemid : Bytes} {id : Int64} (h : stoll problemid = .ok id) :
    answerTo t problemid = problemAnswer id (t.find .Problem id) := by
  simp only [answerTo, h]

/-- What is in the cache after a step is text of a document. -/
theorem filled_step (hround : RoundTrip base) (hfilled : Filled base server) (req : ProblemRequest) :
    Filled base (step (base.onDatabases regex) server req) := by
  -- dropping keys leaves the other entries as they were
  have hdropped : Dropped req server.outside (step (base.onDatabases regex) server req).outside →
      Filled base (step (base.onDatabases regex) server req) := by
    intro hcache problemid text htext
    by_cases hdrops : req.Drops server.outside problemid
    · rw [(hcache problemid).1 hdrops] at htext
      cases htext
    · exact hfilled problemid text (((hcache problemid).2 hdrops).symm.trans htext)
  cases req with
  | select queryjson =>
      intro problemid text htext
      rcases (cached_select regex hround hfilled queryjson).2 problemid with
        hsame | ⟨id, doc, hnumber, -, hnew⟩
      · exact hfilled problemid text (hsame.symm.trans htext)
      · cases hnew.symm.trans htext
        exact ⟨id, doc, hnumber, rfl⟩
  | update json =>
      exact hdropped (step_update base regex server json).2
  | delete json =>
      exact hdropped (step_delete json).2

/-- A change of a document leaves the texts current just when it invalidates them. -/
theorem current_iff_invalidates {req : ProblemRequest} {server' : Server (Databases S)}
    (hfilled : Filled base server) (hcurrent : Current base server)
    (hfind : ∀ id, server'.outside.find .Problem id = req.edited server.outside id)
    (hcache : Dropped req server.outside server'.outside) :
    Current base server' ↔ Invalidates base server req := by
  constructor
  · intro hcurrent' id change hedit problemid hnumber hcached
    -- an entry that stays is still the answer, or the edit shows
    by_cases hdrops : req.Drops server.outside problemid
    · exact Or.inl hdrops
    · obtain ⟨text, htext⟩ := Option.ne_none_iff_exists'.1 hcached
      have hnew := hcurrent' problemid text (((hcache problemid).2 hdrops).trans htext)
      have hold := hcurrent problemid text htext
      have hedited : req.edited server.outside id = (server.outside.find .Problem id).bind change := by
        simp only [edited, hedit, if_true]
      rw [answerTo_of_ok hnumber] at hnew hold
      rw [hfind, hedited] at hnew
      exact Or.inr (hnew.symm.trans hold)
  · intro hinvalidates problemid text htext
    -- an entry that is there afterwards was not dropped
    have hdrops : ¬ req.Drops server.outside problemid := by
      intro hdrops
      rw [(hcache problemid).1 hdrops] at htext
      cases htext
    rw [(hcache problemid).2 hdrops] at htext
    obtain ⟨id, _, hnumber, -⟩ := hfilled problemid text htext
    have hold := hcurrent problemid text htext
    rw [answerTo_of_ok hnumber] at hold ⊢
    rw [hfind, hold, edited]
    cases hedit : req.edit with
    | none =>
        rfl
    | some change =>
        obtain ⟨id', change⟩ := change
        simp only
        by_cases hid : id = id'
        · subst hid
          have hleft : cachedText server.outside problemid ≠ none := by simp [htext]
          rw [if_pos rfl]
          exact ((hinvalidates id change hedit problemid hnumber hleft).resolve_left hdrops).symm
        · rw [if_neg hid]

theorem current_step_iff (hround : RoundTrip base) (hfilled : Filled base server)
    (hcurrent : Current base server) (req : ProblemRequest) :
    Current base (step (base.onDatabases regex) server req) ↔ Invalidates base server req := by
  cases req with
  | select queryjson =>
      refine iff_of_true ?_ fun id change hedit => by cases hedit
      intro problemid text htext
      obtain ⟨hcolls, hcache⟩ := cached_select regex hround hfilled queryjson
      have hanswer : answerTo (step (base.onDatabases regex) server (.select queryjson)).outside problemid =
          answerTo server.outside problemid := by
        simp only [answerTo, find_congr hcolls]
      rw [hanswer]
      rcases hcache problemid with hsame | ⟨id, doc, hnumber, hdoc, hnew⟩
      · exact hcurrent problemid text (hsame.symm.trans htext)
      · cases hnew.symm.trans htext
        rw [answerTo_of_ok hnumber, hdoc]
  | update json =>
      exact current_iff_invalidates hfilled hcurrent (step_update base regex server json).1
        (step_update base regex server json).2
  | delete json =>
      exact current_iff_invalidates hfilled hcurrent (step_delete json).1 (step_delete json).2

/-- **Problem cache.**  From an empty cache, `SelectProblem` answers throughout a run what
`MoDB::SelectProblem` answers, precisely when every update and deletion of the run invalidates the texts
of its document: those under other spellings of the id are never dropped, and the text under its own is
not when an update's data throws. -/
theorem coherent_throughout_iff (hround : RoundTrip base)
    (hempty : ∀ problemid, cachedText server.outside problemid = none) (reqs : List ProblemRequest) :
    Runs.Throughout (step (base.onDatabases regex)) (Coherent (base.onDatabases regex)) server reqs ↔
      Runs.Guarded (step (base.onDatabases regex)) (Invalidates base) server reqs := by
  have hfilled : Filled base server := fun problemid text htext => by
    cases (hempty problemid).symm.trans htext
  have hcurrent : Current base server := fun problemid text htext => by
    cases (hempty problemid).symm.trans htext
  refine (Runs.guarded_iff_throughout (I := Filled base)
    (fun server req hfilled => filled_step hround hfilled req) (fun server req hfilled hcoherent => ?_)
    hfilled ((coherent_iff_current hround hfilled).2 hcurrent)).symm
  rw [coherent_iff_current hround (filled_step hround hfilled req)]
  exact current_step_iff hround hfilled ((coherent_iff_current hround hfilled).1 hcoherent) req

end cache

end ProblemRequest

/-! ## The text of a value -/

namespace Json

/-- What `dump` writes for a byte of a string. -/
def escape (b : UInt8) : Bytes :=
  if b = 0x22 then bytes "\\\""
  else if b = 0x5C then bytes "\\\\"
  else if b = 0x08 then bytes "\\b"
  else if b = 0x09 then bytes "\\t"
  else if b = 0x0A then bytes "\\n"
  else if b = 0x0C then bytes "\\f"
  else if b = 0x0D then bytes "\\r"
  else if b < 0x20 then
    bytes "\\u00" ++ bytes (String.ofList [(b.toNat / 16).digitChar, (b.toNat % 16).digitChar])
  else [b]

def quoted (s : Bytes) : Bytes := bytes "\"" ++ s.flatMap escape ++ bytes "\""

mutual

/-- `dump()` without indentation, the members by their keys; of a float the integral part only. -/
def text : Json → Bytes
  | .null => bytes "null"
  | .boolean b => bytes (if b then "true" else "false")
  | .number_integer n => Numerals.to_string n
  | .number_unsigned n => Numerals.to_string n
  | .number_float q => Numerals.to_string (truncate q) ++ bytes ".0"
  | .string s => quoted s
  | .array xs => bytes "[" ++ (bytes ",").intercalate (textAll xs) ++ bytes "]"
  | .object ms =>
      let sorted := (textMembers ms).insertionSort fun m m' => m.1 ≤ m'.1
      bytes "\x7b" ++
        (bytes ",").intercalate (sorted.map fun m => quoted (bytes m.1) ++ bytes ":" ++ m.2) ++
          bytes "\x7d"

def textAll : List Json → List Bytes
  | [] => []
  | x :: xs => x.text :: textAll xs

def textMembers : Members → List (String × Bytes)
  | [] => []
  | (k, j) :: ms => (k, j.text) :: textMembers ms

end

open Classical in
/-- Some value with a text. -/
noncomputable def ofText (s : Bytes) : Option { j : Json // j.dumpable = true } :=
  if h : ∃ j : { j : Json // j.dumpable = true }, j.1.text = s then some h.choose else none

theorem text_ne_nil (j : Json) : j.text ≠ [] := by
  have hword : ∀ {s : String}, s ≠ "" → bytes s ≠ [] := fun hs h => hs (bytes_injective h)
  cases j with
  | null =>
      exact hword (by decide)
  | boolean b =>
      exact hword (by cases b <;> decide)
  | number_integer n =>
      exact Numerals.to_string_ne_nil n
  | number_unsigned n =>
      exact Numerals.to_string_ne_nil n
  | number_float q =>
      exact List.append_ne_nil_of_left_ne_nil (Numerals.to_string_ne_nil _) _
  | string s =>
      simp [text, quoted, hword (by decide : "\"" ≠ "")]
  | array xs =>
      simp [text, hword (by decide : "[" ≠ "")]
  | object ms =>
      simp [text, hword (by decide : "\x7b" ≠ "")]

end Json

namespace ProblemRequest

/-- The texts are those of `dump`. -/
noncomputable def texts : Backend Unit :=
  { Backend.idle with parse := Json.ofText, dumpText := Json.text }

def problemOne : Doc where
  members := [("Title", .str "A+B"), ("Description", .str ""), ("TimeLimit", .ofInt 1000),
    ("MemoryLimit", .ofInt 65536), ("JudgeNum", .ofInt 0), ("UserNickName", .str "root"),
    ("Tags", .array [])] ++ MoDB.problemCounters
  utf8 := by decide

theorem nodup_problemOne : ([((1 : Int64), problemOne)].map Prod.fst).Nodup := by decide

/-- One problem, and nothing cached. -/
def oneProblem : Server (Databases Unit) where
  UserAuthorityMap := fun _ => 0
  m_problemid := 1
  m_commentid := 0
  m_articleid := 0
  problemtags := .null
  outside := {
    redis := fun _ _ => none
    user := []
    colls := fun coll => if coll = .Problem then ⟨[(1, problemOne)], nodup_problemOne⟩ else Rows.empty
    rest := () }

/-- Another title for the problem under a spelling of its id. -/
def retitled (problemid : String) : Json :=
  .object [("ProblemId", .str problemid), ("Title", .str "A-B"), ("Description", .str ""),
    ("TimeLimit", .str "1000"), ("MemoryLimit", .str "65536"), ("JudgeNum", .str "0"),
    ("UserNickName", .str "root"), ("Tags", .array []), ("TestInfo", .array []), ("IsSPJ", .boolean false)]

theorem roundTrip_texts : RoundTrip texts where
  nonempty := Json.text_ne_nil
  parse := fun j hj => by
    have hsome : ∃ k : { k : Json // k.dumpable = true }, k.1.text = j.text := ⟨⟨j, hj⟩, rfl⟩
    exact ⟨hsome.choose, dif_pos hsome, hsome.choose_spec⟩

/-- `oneProblem` after `1` was asked for. -/
def oneCached : Server (Databases Unit) :=
  { oneProblem with
    outside := oneProblem.outside.setRedis .redis_cache (bytes "Cache:Problem:" ++ bytes "1")
      (some (problemAnswer 1 (some problemOne)).text) }

theorem step_select_one :
    step (texts.onDatabases fun _ => none) oneProblem (.select (.object [("ProblemId", .str "1")])) =
      oneCached := by
  have hid : (Json.object [("ProblemId", .str "1")]).member "ProblemId" = .string (bytes "1") := rfl
  have hempty : cachedText oneProblem.outside (bytes "1") = none := rfl
  have hselect := SelectProblem_of_not_cached texts (fun _ => none) hid hempty
  have hnumber : stoll (bytes "1") = .ok 1 := by decide
  rw [step, run, final_of_ok hselect, hnumber]
  rfl

theorem dataTyped_retitled (problemid : String) : DataTyped (retitled problemid) where
  problemid := ⟨_, rfl⟩
  tests := fun i hi => absurd (show i < 0 from List.mem_range.1 hi) (Nat.not_lt_zero i)
  spj := ⟨false, rfl, nofun⟩

/-- A problem is looked up, changed under the same spelling of its id and looked up again. -/
theorem coherent_throughout_iff_retitled :
    Runs.Throughout (step (texts.onDatabases fun _ => none)) (Coherent (texts.onDatabases fun _ => none))
      oneProblem [.select (.object [("ProblemId", .str "1")]), .update (retitled "1"),
        .select (.object [("ProblemId", .str "1")])] := by
  refine (coherent_throughout_iff roundTrip_texts (fun _ => rfl) _).2 ⟨nofun, ?_, nofun, trivial⟩
  rw [step_select_one]
  intro id change hedit problemid hnumber hcached
  by_cases hid : problemid = bytes "1"
  · subst hid
    exact .inl ⟨rfl, dataTyped_retitled "1"⟩
  · rw [oneCached, cachedText_setRedis, if_neg hid] at hcached
    exact absurd rfl hcached

/-- A problem is looked up as `1` and changed as `01`: the text cached of it stays. -/
theorem stale_other_spelling :
    ¬ Runs.Throughout (step (texts.onDatabases fun _ => none)) (Coherent (texts.onDatabases fun _ => none))
      oneProblem [.select (.object [("ProblemId", .str "1")]), .update (retitled "01")] := by
  rintro ⟨-, -, hcoherent⟩
  rw [step_select_one] at hcoherent
  obtain ⟨hfind, hcache⟩ := step_update texts (fun _ => none) oneCached (retitled "01")
  have hnumber : stoll (bytes "1") = .ok 1 := by decide
  have hcached : cachedText oneCached.outside (bytes "1") =
      some (problemAnswer 1 (some problemOne)).text := by
    rw [oneCached, cachedText_setRedis, if_pos rfl]
  have hfilled : Filled texts oneCached := by
    intro problemid text htext
    rw [oneCached, cachedText_setRedis] at htext
    split at htext
    · next hid =>
      subst hid
      cases htext
      exact ⟨1, problemOne, hnumber, rfl⟩
    · cases htext
  -- the spellings differ, so the text stays
  have hdrops : ¬ (ProblemRequest.update (retitled "01")).Drops oneCached.outside (bytes "1") := by
    rintro ⟨hid, -⟩
    have hspelling : bytes "01" = bytes "1" := Json.string.inj hid
    exact absurd hspelling (by decide)
  have hcurrent := (coherent_iff_current roundTrip_texts (filled_step roundTrip_texts hfilled _)).1 hcoherent
  have htext := hcurrent (bytes "1") _ (((hcache _).2 hdrops).trans hcached)
  rw [answerTo_of_ok hnumber, hfind] at htext
  exact absurd htext (by decide +kernel)

end ProblemRequest

end Oj
end Myoj
