import Myoj.Oj.Databases
import Myoj.Oj.OJServer

/-!
# Mutations — what a request can change

The functions of the server act through the calls of the backend and through the members of the process.
For every handler there is a list of the calls and members it may use to change something; whatever
relation between states the reading calls and the listed ones keep to, the handler keeps to.

* `Mutation` — the calls and members that change something;
* `Reads`, `Allowed` — the reading calls, or one kind of change, keep to a relation;
* `Handler.mutations` — the list of a handler;
* `run_within`, `onRequest_within` — a request keeps to what its list keeps to;
* `serve_within`, `serve_get_within` — and so does a run of requests;
* `SameColl` — such a relation on the tables: a collection is left alone.
-/

namespace Myoj
namespace Oj

open Effect

inductive Mutation where
  | setex (db : RedisDb)
  | del (db : RedisDb)
  | insertUser
  | updateProblemStatus
  | insertStatusRecord
  | updateProblem
  | update_one (coll : Collection)
  | insert_one (coll : Collection)
  | delete_one (coll : Collection)
  | delete_many (coll : Collection)
  | nextid
  | judging
  | makeProblemData
  | writeProblemFile
  | removeProblemData
  /-- An entry of `UserAuthorityMap`. -/
  | setAuthority
  | nextProblemId
  | nextArticleId
  | nextCommentId
  /-- The member `problemtags`. -/
  | problemtags
  deriving DecidableEq, Repr

section

variable {S : Type} (b : Backend S) (R : Server S → Server S → Prop)

/-- The calls that read keep to `R`. -/
class Reads : Prop where
  get : ∀ db key, Within R (call (b.get db key))
  queryByUserName : ∀ name, Within R (call (b.queryByUserName name))
  queryByUserId : ∀ id, Within R (call (b.queryByUserId id))
  queryNickName : ∀ name, Within R (call (b.queryNickName name))
  aggregate : ∀ coll pipe, Within R (call (b.aggregate coll pipe))
  aggregateSized : ∀ coll pipe, Within R (call (b.aggregateSized coll pipe))
  aggregateCount : ∀ coll pipe, Within R (call (b.aggregateCount coll pipe))
  find : ∀ coll filter, Within R (call (b.find coll filter))
  count_documents : ∀ coll filter, Within R (call (b.count_documents coll filter))
  distinct : ∀ coll field, Within R (call (b.distinct coll field))

/-- A kind of change keeps to `R`. -/
def Mutation.Within : Mutation → Prop
  | .setex db => ∀ key ttl value, Effect.Within R (call (b.setex db key ttl value))
  | .del db => ∀ key, Effect.Within R (call (b.del db key))
  | .insertUser => ∀ user, Effect.Within R (call (b.insertUser user))
  | .updateProblemStatus => ∀ name ac n, Effect.Within R (call (b.updateProblemStatus name ac n))
  | .insertStatusRecord => ∀ record, Effect.Within R (call (b.insertStatusRecord record))
  | .updateProblem => ∀ id column, Effect.Within R (call (b.updateProblem id column))
  | .update_one coll => ∀ id update, Effect.Within R (call (b.update_one coll id update))
  | .insert_one coll => ∀ id members, Effect.Within R (call (b.insert_one coll id members))
  | .delete_one coll => ∀ id, Effect.Within R (call (b.delete_one coll id))
  | .delete_many coll => ∀ filter, Effect.Within R (call (b.delete_many coll filter))
  | .nextid => Effect.Within R (affect b.nextid)
  | .judging => Effect.Within R (affect b.judging)
  | .makeProblemData => ∀ problemid, Effect.Within R (affect (b.makeProblemData problemid))
  | .writeProblemFile =>
      ∀ problemid name text, Effect.Within R (affect (b.writeProblemFile problemid name text))
  | .removeProblemData => ∀ problemid, Effect.Within R (affect (b.removeProblemData problemid))
  | .setAuthority => ∀ id authority, Effect.Within R (UserList.setAuthority id authority)
  | .nextProblemId => Effect.Within R (MoDB.nextProblemId : Action S Int64)
  | .nextArticleId => Effect.Within R (MoDB.nextArticleId : Action S Int64)
  | .nextCommentId => Effect.Within R (MoDB.nextCommentId : Action S Int64)
  | .problemtags => ∀ values,
      Effect.Within R (modify fun server => { server with problemtags := values } : Action S PUnit)

/-- The change may be used. -/
class Allowed (m : Mutation) : Prop where
  within : m.Within b R

/-- A program that keeps to `R`, for instances to find. -/
class Stays {α : Type} (m : Action S α) : Prop where
  within : Within R m

end

/-- What a handler may use to change something. -/
def Handler.mutations : Handler → List Mutation
  | .doRegisterUser => [.insertUser, .setAuthority]
  | .doLoginUser => [.nextid, .setex .redis_token]
  | .doUpdateUserInfo => [.update_one .User]
  | .doDeleteUser => [.delete_one .User, .setAuthority]
  | .doGetProblem => [.setex .redis_cache]
  | .doEditProblem =>
      [.nextProblemId, .insert_one .Problem, .update_one .Problem, .makeProblemData, .writeProblemFile,
        .removeProblemData, .del .redis_cache, .problemtags]
  | .doDeleteProblem => [.delete_one .Problem, .removeProblemData, .del .redis_cache]
  | .doGetStatusRecord => [.setex .redis_cache]
  | .doPostCode => [.judging, .insertStatusRecord, .updateProblem, .updateProblemStatus]
  | .doGetAnnouncement => [.update_one .Announcement]
  | .doInsertAnnouncement => [.nextArticleId, .insert_one .Announcement]
  | .doUpdateAnnouncement => [.update_one .Announcement]
  | .doDeleteAnnouncement => [.delete_one .Announcement, .delete_many .Comment]
  | .doGetSolution => [.update_one .Solution]
  | .doInsertSolution => [.nextArticleId, .insert_one .Solution]
  | .doUpdateSolution => [.update_one .Solution]
  | .doDeleteSolution => [.delete_one .Solution, .delete_many .Comment]
  | .doGetDiscuss => [.update_one .Discuss]
  | .doInsertDiscuss => [.nextArticleId, .insert_one .Discuss]
  | .doUpdateDiscuss => [.update_one .Discuss]
  | .doDeleteDiscuss => [.delete_one .Discuss, .delete_many .Comment]
  | .doInsertComment =>
      [.nextCommentId, .insert_one .Comment, .update_one .Comment, .update_one .Discuss,
        .update_one .Solution, .update_one .Announcement]
  | .doDeleteComment =>
      [.delete_one .Comment, .update_one .Comment, .update_one .Discuss, .update_one .Solution,
        .update_one .Announcement]
  | .doGetUserInfoByToken | .doGetUserRank | .doGetUserInfo | .doGetUserUpdateInfo | .doGetUserSetInfo
  | .doGetProblemList | .doGetProblemListByAdmin | .doGetProblemInfo | .doGetStatusRecordList
  | .doGetAnnouncementList | .doGetAnnouncementListByAdmin | .doSelectAnnouncement | .doGetSolutionList
  | .doGetSolutionListByAdmin | .doSelectSolutionByEdit | .doGetDiscussList | .doGetDiscussListByAdmin
  | .doSelectDiscussByEdit | .doSelectCommentListByAdmin | .doGetComment => []

/-- What a request may use: nothing when it has no handler. -/
def mutationsOf (req : Http.HttpRequest) : List Mutation :=
  match handlerOf req with
  | none => []
  | some handler => handler.mutations

/-! ## Rules

Whatever is put together from parts within a relation is within it; the rules are instances, so they walk
through a program by themselves. -/

namespace Stays

set_option synthInstance.maxSize 1000

variable {S α β : Type} {R : Server S → Server S → Prop}

section rules

variable {c : Prop} [Decidable c] {m m' : Action S α} [hm : Stays R m] [hm' : Stays R m']

instance ite : Stays R (if c then m else m') := by
  split
  · exact hm
  · exact hm'

instance attempt {g : Exception → α} : Stays R (attempt m fun e => pure (g e)) :=
  ⟨hm.within.attempt_pure g⟩

instance orElse500 {resjson : Json} {reason : String} {body : Action S Json} [hbody : Stays R body] :
    Stays R (orElse500 resjson reason body) :=
  ⟨hbody.within.attempt_pure _⟩

instance bind [IsTrans (Server S) R] {f : α → Action S β} [hf : ∀ a, Stays R (f a)] :
    Stays R (m >>= f) :=
  ⟨hm.within.bind fun a => (hf a).within⟩

end rules

section reads

variable [Std.Refl R]

instance pure (a : α) : Stays R (pure a : Action S α) := ⟨Within.pure a⟩

instance liftM (x : Except Exception α) : Stays R (liftM x : Action S α) := ⟨Within.liftM x⟩

instance observe (f : S → α) : Stays R (observe f : Action S α) := ⟨fun _ => Std.Refl.refl _⟩

instance get : Stays R (get : Action S (Server S)) := ⟨fun _ => Std.Refl.refl _⟩

instance mapM [IsTrans (Server S) R] {f : β → Action S α} [∀ x, Stays R (f x)] (l : List β) :
    Stays R (l.mapM f) := by
  induction l with
  | nil =>
      rw [List.mapM_nil]
      infer_instance
  | cons x l ih =>
      rw [List.mapM_cons]
      infer_instance

end reads

section calls

variable {b : Backend S} [hreads : Reads b R]

instance redisGet (db : RedisDb) (key : Bytes) : Stays R (call (b.get db key)) := ⟨hreads.get db key⟩

instance queryByUserName (name : Bytes) : Stays R (call (b.queryByUserName name)) :=
  ⟨hreads.queryByUserName name⟩

instance queryByUserId (id : Bytes) : Stays R (call (b.queryByUserId id)) := ⟨hreads.queryByUserId id⟩

instance queryNickName (name : Bytes) : Stays R (call (b.queryNickName name)) :=
  ⟨hreads.queryNickName name⟩

instance aggregate (coll : Collection) (pipe : List Stage) : Stays R (call (b.aggregate coll pipe)) :=
  ⟨hreads.aggregate coll pipe⟩

instance aggregateSized (coll : Collection) (pipe : List Stage) :
    Stays R (call (b.aggregateSized coll pipe)) :=
  ⟨hreads.aggregateSized coll pipe⟩

instance aggregateCount (coll : Collection) (pipe : List Stage) :
    Stays R (call (b.aggregateCount coll pipe)) :=
  ⟨hreads.aggregateCount coll pipe⟩

instance find (coll : Collection) (filter : List Stage) : Stays R (call (b.find coll filter)) :=
  ⟨hreads.find coll filter⟩

instance count_documents (coll : Collection) (filter : List Stage) :
    Stays R (call (b.count_documents coll filter)) :=
  ⟨hreads.count_documents coll filter⟩

instance distinct (coll : Collection) (field : String) : Stays R (call (b.distinct coll field)) :=
  ⟨hreads.distinct coll field⟩

end calls

section changes

variable {b : Backend S}

instance setex {db : RedisDb} [h : Allowed b R (.setex db)] (key : Bytes) (ttl : Int) (value : Bytes) :
    Stays R (call (b.setex db key ttl value)) := ⟨h.within key ttl value⟩

instance del {db : RedisDb} [h : Allowed b R (.del db)] (key : Bytes) : Stays R (call (b.del db key)) :=
  ⟨h.within key⟩

instance insertUser [h : Allowed b R .insertUser] (user : User) : Stays R (call (b.insertUser user)) :=
  ⟨h.within user⟩

instance updateProblemStatus [h : Allowed b R .updateProblemStatus] (name : Bytes) (ac : Bool)
    (n : Int32) : Stays R (call (b.updateProblemStatus name ac n)) := ⟨h.within name ac n⟩

instance insertStatusRecord [h : Allowed b R .insertStatusRecord] (record : StatusRecord) :
    Stays R (call (b.insertStatusRecord record)) := ⟨h.within record⟩

instance updateProblem [h : Allowed b R .updateProblem] (id : Int64) (column : String) :
    Stays R (call (b.updateProblem id column)) := ⟨h.within id column⟩

instance update_one {coll : Collection} [h : Allowed b R (.update_one coll)] (id : Int64)
    (update : Update) : Stays R (call (b.update_one coll id update)) := ⟨h.within id update⟩

instance insert_one {coll : Collection} [h : Allowed b R (.insert_one coll)] (id : Int64)
    (members : List (String × Json)) : Stays R (call (b.insert_one coll id members)) :=
  ⟨h.within id members⟩

instance delete_one {coll : Collection} [h : Allowed b R (.delete_one coll)] (id : Int64) :
    Stays R (call (b.delete_one coll id)) := ⟨h.within id⟩

instance delete_many {coll : Collection} [h : Allowed b R (.delete_many coll)] (filter : List Stage) :
    Stays R (call (b.delete_many coll filter)) := ⟨h.within filter⟩

instance nextid [h : Allowed b R .nextid] : Stays R (affect b.nextid) := ⟨h.within⟩

instance judging [h : Allowed b R .judging] : Stays R (affect b.judging) := ⟨h.within⟩

instance makeProblemData [h : Allowed b R .makeProblemData] (problemid : Bytes) :
    Stays R (affect (b.makeProblemData problemid)) := ⟨h.within problemid⟩

instance writeProblemFile [h : Allowed b R .writeProblemFile] (problemid name text : Bytes) :
    Stays R (affect (b.writeProblemFile problemid name text)) := ⟨h.within problemid name text⟩

instance removeProblemData [h : Allowed b R .removeProblemData] (problemid : Bytes) :
    Stays R (affect (b.removeProblemData problemid)) := ⟨h.within problemid⟩

end changes

/-! ## The functions of the databases -/

section programs

variable [Std.Refl R] [IsTrans (Server S) R] {b : Backend S}

section reading

variable [Reads b R]

instance selectById (coll : Collection) (idField : String) (joined : List Stage) (fields : List String)
    (notFound reason : String) (queryjson : Json) :
    Stays R (MoDB.selectById b coll idField false joined fields notFound reason queryjson) := by
  unfold MoDB.selectById
  simp only [Bool.false_eq_true, if_false]
  infer_instance

instance selectByIdCounted {coll : Collection} [Allowed b R (.update_one coll)] (idField : String)
    (joined : List Stage) (fields : List String) (notFound reason : String) (queryjson : Json) :
    Stays R (MoDB.selectById b coll idField true joined fields notFound reason queryjson) := by
  unfold MoDB.selectById
  infer_instance

instance pagedList (coll : Collection) (query : Except Exception MoDB.Page) (order joined : List Stage)
    (fields : List String) (computed : List (String × String)) (reason : String)
    (finish : MoDB.Page → Json → List Json → Json) :
    Stays R (MoDB.pagedList b coll query order joined fields computed reason finish) := by
  unfold MoDB.pagedList
  infer_instance

instance countedList (coll : Collection) (query : Except Exception (List Stage × List Stage))
    (name : String) (fields : List String) (finish : Json → Json) :
    Stays R (MoDB.countedList b coll query name fields finish) := by
  unfold MoDB.countedList
  infer_instance

instance getProblemTags : Stays R (MoDB.getProblemTags b) := by
  unfold MoDB.getProblemTags
  refine ⟨within.bind fun docs => ?_⟩
  cases docs.getLast? with
  | none =>
      exact within
  | some doc =>
      exact within

instance getSonComment (queryjson : Json) : Stays R (MoDB.getSonComment b queryjson) := by
  unfold MoDB.getSonComment
  infer_instance

instance SelectStatusRecordInMongo (queryjson : Json) : Stays R (MoDB.SelectStatusRecord b queryjson) := by
  unfold MoDB.SelectStatusRecord
  infer_instance

end reading

instance insertOne {coll : Collection} [Allowed b R (.insert_one coll)] (id : Int64)
    (members : List (String × Json)) : Stays R (MoDB.insertOne b coll id members) := by
  unfold MoDB.insertOne
  infer_instance

instance updateById {coll : Collection} [Allowed b R (.update_one coll)] (id : Int64) (update : Update) :
    Stays R (MoDB.updateById b coll id update) := by
  unfold MoDB.updateById
  infer_instance

instance deleteById {coll : Collection} [Allowed b R (.delete_one coll)] (idField notDeleted : String)
    (deletejson : Json) : Stays R (MoDB.deleteById b coll idField notDeleted deletejson) := by
  unfold MoDB.deleteById
  infer_instance

instance updateComments {coll : Collection} [Allowed b R (.update_one coll)] (updatejson : Json) :
    Stays R (MoDB.updateComments b coll updatejson) := by
  unfold MoDB.updateComments
  infer_instance

instance UpdateUserInfo [Allowed b R (.update_one .User)] (updatejson : Json) :
    Stays R (MoDB.UpdateUserInfo b updatejson) := by
  unfold MoDB.UpdateUserInfo
  infer_instance

instance InsertProblemInMongo [h : Allowed b R .nextProblemId] [Allowed b R (.insert_one .Problem)]
    (insertjson : Json) : Stays R (MoDB.InsertProblem b insertjson) := by
  have hnext : Stays R (MoDB.nextProblemId : Action S Int64) := ⟨h.within⟩
  unfold MoDB.InsertProblem
  infer_instance

instance UpdateProblemInMongo [Allowed b R (.update_one .Problem)] (updatejson : Json) :
    Stays R (MoDB.UpdateProblem b updatejson) := by
  unfold MoDB.UpdateProblem
  infer_instance

section articles

variable [h : Allowed b R .nextArticleId]

instance InsertDiscuss [Allowed b R (.insert_one .Discuss)] (insertjson : Json) :
    Stays R (MoDB.InsertDiscuss b insertjson) := by
  have hnext : Stays R (MoDB.nextArticleId : Action S Int64) := ⟨h.within⟩
  unfold MoDB.InsertDiscuss
  infer_instance

instance InsertSolution [Allowed b R (.insert_one .Solution)] (insertjson : Json) :
    Stays R (MoDB.InsertSolution b insertjson) := by
  have hnext : Stays R (MoDB.nextArticleId : Action S Int64) := ⟨h.within⟩
  unfold MoDB.InsertSolution
  infer_instance

instance InsertAnnouncement [Allowed b R (.insert_one .Announcement)] (insertjson : Json) :
    Stays R (MoDB.InsertAnnouncement b insertjson) := by
  have hnext : Stays R (MoDB.nextArticleId : Action S Int64) := ⟨h.within⟩
  unfold MoDB.InsertAnnouncement
  infer_instance

end articles

instance UpdateDiscuss [Allowed b R (.update_one .Discuss)] (updatejson : Json) :
    Stays R (MoDB.UpdateDiscuss b updatejson) := by
  unfold MoDB.UpdateDiscuss
  infer_instance

instance UpdateSolution [Allowed b R (.update_one .Solution)] (updatejson : Json) :
    Stays R (MoDB.UpdateSolution b updatejson) := by
  unfold MoDB.UpdateSolution
  infer_instance

instance UpdateAnnouncement [Allowed b R (.update_one .Announcement)] (updatejson : Json) :
    Stays R (MoDB.UpdateAnnouncement b updatejson) := by
  unfold MoDB.UpdateAnnouncement
  infer_instance

section comments

variable [h : Allowed b R .nextCommentId]

instance InsertFatherComment [Allowed b R (.insert_one .Comment)] (insertjson : Json) :
    Stays R (MoDB.InsertFatherComment b insertjson) := by
  have hnext : Stays R (MoDB.nextCommentId : Action S Int64) := ⟨h.within⟩
  unfold MoDB.InsertFatherComment
  infer_instance

instance InsertSonComment [Allowed b R (.update_one .Comment)] (insertjson : Json) :
    Stays R (MoDB.InsertSonComment b insertjson) := by
  have hnext : Stays R (MoDB.nextCommentId : Action S Int64) := ⟨h.within⟩
  unfold MoDB.InsertSonComment
  infer_instance

end comments

instance DeleteArticleComment [Allowed b R (.delete_many .Comment)] (deletejson : Json) :
    Stays R (MoDB.DeleteArticleComment b deletejson) := by
  unfold MoDB.DeleteArticleComment
  infer_instance

instance DeleteFatherComment [Reads b R] [Allowed b R (.delete_one .Comment)] (deletejson : Json) :
    Stays R (MoDB.DeleteFatherComment b deletejson) := by
  unfold MoDB.DeleteFatherComment
  refine ⟨Within.attempt_pure (within.bind fun commentid => within.bind fun docs => ?_) _⟩
  split
  · exact within
  · refine within.bind fun docs => ?_
    dsimp only
    exact within.bind fun sonnum => within.bind fun articletype => within

instance DeleteSonComment [Reads b R] [Allowed b R (.update_one .Comment)] (deletejson : Json) :
    Stays R (MoDB.DeleteSonComment b deletejson) := by
  unfold MoDB.DeleteSonComment
  refine ⟨Within.attempt_pure (within.bind fun commentid => within.bind fun docs => ?_) _⟩
  cases docs.getLast? with
  | none =>
      exact within
  | some found =>
      dsimp only
      exact within

/-! ## Users, tokens, caches -/

instance RegisterUserInMysql [Reads b R] [Allowed b R .insertUser] (registerjson : Json) :
    Stays R (MysqlDataBase.RegisterUser b registerjson) := by
  have hinsert (user : User) : Stays R (do
      match ← call (b.insertUser user) with
      | none => return failure "Fail" "数据库插入失败！"
      | some id => return (failure "Success" "注册成功！").put "Id" (.ofInt id.toInt)) := by
    refine ⟨within.bind fun id => ?_⟩
    cases id with
    | none =>
        exact within
    | some id =>
        exact within
  unfold MysqlDataBase.RegisterUser
  infer_instance

instance LoginUserInMysql [Reads b R] (loginjson : Json) : Stays R (MysqlDataBase.LoginUser b loginjson) := by
  unfold MysqlDataBase.LoginUser
  refine ⟨Within.attempt_pure (within.bind fun username => within.bind fun password =>
    within.bind fun user => ?_) _⟩
  cases user with
  | none =>
      exact within
  | some user =>
      exact within

instance LoginUserByTokenInMysql [Reads b R] (loginjson : Json) :
    Stays R (MysqlDataBase.LoginUserByToken b loginjson) := by
  unfold MysqlDataBase.LoginUserByToken
  refine ⟨Within.attempt_pure (within.bind fun id => within.bind fun user => ?_) _⟩
  cases user with
  | none =>
      exact within
  | some user =>
      exact within

instance InsertStatusRecord [Allowed b R .insertStatusRecord] (insertjson : Json) :
    Stays R (MysqlDataBase.InsertStatusRecord b insertjson) := by
  have hinsert : Stays R (MysqlDataBase.insertStatusRecord b insertjson) := by
    unfold MysqlDataBase.insertStatusRecord
    infer_instance
  unfold MysqlDataBase.InsertStatusRecord
  refine ⟨Within.attempt_pure (within.bind fun _ => within.bind fun id => ?_) _⟩
  cases id with
  | none =>
      exact within
  | some id =>
      exact within

instance UpdateProblemStatusNum [Allowed b R .updateProblem] (updatejson : Json) :
    Stays R (MysqlDataBase.UpdateProblemStatusNum b updatejson) := by
  unfold MysqlDataBase.UpdateProblemStatusNum
  infer_instance

instance UpdateUserProblemInfo [Allowed b R .updateProblemStatus] (updatejson : Json) :
    Stays R (MysqlDataBase.UpdateUserProblemInfo b updatejson) := by
  unfold MysqlDataBase.UpdateUserProblemInfo
  infer_instance

instance SetToken [Allowed b R (.setex .redis_token)] (token userid : Bytes) :
    Stays R (ReDB.SetToken b token userid) := by
  unfold ReDB.SetToken
  infer_instance

instance GetUserIdByToken [Reads b R] (token : Bytes) : Stays R (ReDB.GetUserIdByToken b token) := by
  unfold ReDB.GetUserIdByToken
  refine ⟨Within.attempt_pure (within.bind fun userid => ?_) _⟩
  cases userid with
  | none =>
      exact within
  | some userid =>
      exact within

instance addCache [Allowed b R (.setex .redis_cache)] (kind : String) (key info : Bytes) :
    Stays R (ReDB.addCache b kind key info) := by
  unfold ReDB.addCache
  infer_instance

instance getCache [Reads b R] (kind : String) (key : Bytes) : Stays R (ReDB.getCache b kind key) := by
  unfold ReDB.getCache
  refine ⟨Within.attempt_pure (within.bind fun info => ?_) _⟩
  cases info with
  | none =>
      exact within
  | some info =>
      exact within

instance DeleteProblemCache [Allowed b R (.del .redis_cache)] (problemid : Bytes) :
    Stays R (ReDB.DeleteProblemCache b problemid) := by
  unfold ReDB.DeleteProblemCache
  infer_instance

/-! ## Problems and status records -/

instance writeTests [Allowed b R .writeProblemFile] (problemid : Bytes) (testinfo : Json) (tests : List Nat) :
    Stays R (ProblemList.writeTests b problemid testinfo tests) := by
  induction tests with
  | nil =>
      unfold ProblemList.writeTests
      infer_instance
  | cons i rest ih =>
      unfold ProblemList.writeTests ProblemList.writeTest
      infer_instance

instance readTests (problemid : Bytes) (indices : List Nat) :
    Stays R (ProblemList.readTests b problemid indices) := by
  induction indices with
  | nil =>
      unfold ProblemList.readTests
      infer_instance
  | cons index rest ih =>
      unfold ProblemList.readTests ProblemList.readFile
      infer_instance

instance addTestInfo (resjson : Json) : Stays R (ProblemList.addTestInfo b resjson) := by
  unfold ProblemList.addTestInfo
  refine ⟨within.bind fun problemid => within.bind fun judgenum => within.bind fun tests =>
    within.bind fun spj => ?_⟩
  cases spj with
  | none =>
      exact within
  | some spjfile =>
      exact within

instance SelectProblemInfoByAdmin [Reads b R] (queryjson : Json) :
    Stays R (ProblemList.SelectProblemInfoByAdmin b queryjson) := by
  unfold ProblemList.SelectProblemInfoByAdmin MoDB.SelectProblemInfoByAdmin
  infer_instance

instance SelectProblem [Reads b R] [Allowed b R (.setex .redis_cache)] (queryjson : Json) :
    Stays R (ProblemList.SelectProblem b queryjson) := by
  unfold ProblemList.SelectProblem ProblemList.cacheProblem MoDB.SelectProblem ReDB.GetProblemCache
    ReDB.AddProblemCache
  infer_instance

section data

variable [Allowed b R .makeProblemData] [Allowed b R .writeProblemFile]

instance InsertProblemDataInfo (insertjson : Json) :
    Stays R (ProblemList.InsertProblemDataInfo b insertjson) := by
  unfold ProblemList.InsertProblemDataInfo
  infer_instance

instance InsertProblem [Allowed b R .nextProblemId] [Allowed b R (.insert_one .Problem)]
    (insertjson : Json) : Stays R (ProblemList.InsertProblem b insertjson) := by
  unfold ProblemList.InsertProblem ProblemList.insertData
  infer_instance

instance UpdateProblem [Allowed b R (.update_one .Problem)] [Allowed b R .removeProblemData]
    [Allowed b R (.del .redis_cache)] (updatejson : Json) :
    Stays R (ProblemList.UpdateProblem b updatejson) := by
  unfold ProblemList.UpdateProblem ProblemList.updateData
  infer_instance

end data

instance DeleteProblem [Allowed b R (.delete_one .Problem)] [Allowed b R .removeProblemData]
    [Allowed b R (.del .redis_cache)] (deletejson : Json) :
    Stays R (ProblemList.DeleteProblem b deletejson) := by
  unfold ProblemList.DeleteProblem MoDB.DeleteProblem
  infer_instance

instance SelectStatusRecord [Reads b R] [Allowed b R (.setex .redis_cache)] (queryjson : Json) :
    Stays R (StatusRecordList.SelectStatusRecord b queryjson) := by
  unfold StatusRecordList.SelectStatusRecord StatusRecordList.cacheStatusRecord
    ReDB.GetStatusRecordCache ReDB.AddStatusRecordCache
  infer_instance

instance InitProblemTags [Reads b R] [h : Allowed b R .problemtags] : Stays R (Tag.InitProblemTags b) := by
  unfold Tag.InitProblemTags
  exact ⟨within.bind fun jsonvalue => within.bind fun values => h.within values⟩

/-! ## Permissions -/

section checks

variable [Reads b R] (json : Json)

instance TokenToVerifyId : Stays R (UserList.TokenToVerifyId b json) := by
  unfold UserList.TokenToVerifyId
  infer_instance

omit [Reads b R] in
instance GetUserAuthority : Stays R (UserList.GetUserAuthority json : Action S Int32) := by
  unfold UserList.GetUserAuthority
  infer_instance

instance IsOrdinaryUser : Stays R (UserList.IsOrdinaryUser b json) := by
  unfold UserList.IsOrdinaryUser
  infer_instance

instance IsAdministrator : Stays R (UserList.IsAdministrator b json) := by
  unfold UserList.IsAdministrator
  infer_instance

instance IsAuthor : Stays R (UserList.IsAuthor b json) := by
  unfold UserList.IsAuthor
  infer_instance

end checks

instance guarded {check : Json → Action S (Bool × Json)} {act : Json → Action S Json}
    [∀ json, Stays R (check json)] [∀ json, Stays R (act json)] (json : Json) :
    Stays R (Control.guarded check act json) := by
  unfold Control.guarded
  refine ⟨within.bind fun checked => ?_⟩
  obtain ⟨allowed, json⟩ := checked
  exact within

/-! ## Requests -/

instance withParams {act : Json → Action S Json} [∀ json, Stays R (act json)] (req : Http.HttpRequest)
    (params : List String) (missing : Json) : Stays R (Oj.withParams req params missing act) := by
  unfold Oj.withParams
  infer_instance

instance withSearch {act : Json → Action S Json} [∀ json, Stays R (act json)] (req : Http.HttpRequest)
    (missing : Json) : Stays R (Oj.withSearch b req missing act) := by
  unfold Oj.withSearch
  infer_instance

instance withBody {act : Json → Action S Json} [∀ json, Stays R (act json)] (req : Http.HttpRequest) :
    Stays R (Oj.withBody b req act) := by
  unfold Oj.withBody
  infer_instance

instance withMember {act : Json → Action S Json} [∀ json, Stays R (act json)] (req : Http.HttpRequest)
    (k : String) : Stays R (Oj.withMember b req k act) := by
  unfold Oj.withMember
  infer_instance

instance deleteArticle {delete : Json → Action S Json} [∀ json, Stays R (delete json)]
    [Allowed b R (.delete_many .Comment)] (idField : String) (deletejson : Json) :
    Stays R (Control.deleteArticle b delete idField deletejson) := by
  unfold Control.deleteArticle
  infer_instance

instance GetComment [Reads b R] (queryjson : Json) : Stays R (Control.GetComment b queryjson) := by
  unfold Control.GetComment MoDB.getFatherComment
  infer_instance

section comments

variable [Allowed b R (.update_one .Discuss)] [Allowed b R (.update_one .Solution)]
  [Allowed b R (.update_one .Announcement)]

instance updateArticleComments (articletype : Bytes) (updatejson : Json) :
    Stays R (Control.updateArticleComments b articletype updatejson) := by
  unfold Control.updateArticleComments MoDB.UpdateDiscussComments MoDB.UpdateSolutionComments
    MoDB.UpdateAnnouncementComments
  infer_instance

instance insertComment [Allowed b R .nextCommentId] [Allowed b R (.insert_one .Comment)]
    [Allowed b R (.update_one .Comment)] (insertjson : Json) :
    Stays R (Control.insertComment b insertjson) := by
  unfold Control.insertComment
  infer_instance

instance deleteComment [Reads b R] [Allowed b R (.delete_one .Comment)]
    [Allowed b R (.update_one .Comment)] (deletejson : Json) :
    Stays R (Control.deleteComment b deletejson) := by
  unfold Control.deleteComment
  infer_instance

end comments

instance editProblem [Reads b R] [Allowed b R .nextProblemId] [Allowed b R (.insert_one .Problem)]
    [Allowed b R (.update_one .Problem)] [Allowed b R .makeProblemData] [Allowed b R .writeProblemFile]
    [Allowed b R .removeProblemData] [Allowed b R (.del .redis_cache)] [Allowed b R .problemtags]
    (insertjson : Json) : Stays R (Control.editProblem b insertjson) := by
  unfold Control.editProblem
  infer_instance

instance GetJudgeCode [Allowed b R .judging] [Allowed b R .insertStatusRecord]
    [Allowed b R .updateProblem] [Allowed b R .updateProblemStatus] (judgejson : Json) :
    Stays R (Control.GetJudgeCode b judgejson) := by
  unfold Control.GetJudgeCode
  infer_instance

instance RegisterUser [Reads b R] [Allowed b R .insertUser] [h : Allowed b R .setAuthority]
    (registerjson : Json) : Stays R (UserList.RegisterUser b registerjson) := by
  have hset (id : Int64) (authority : Int32) : Stays R (UserList.setAuthority id authority : Action S Unit) :=
    ⟨h.within id authority⟩
  unfold UserList.RegisterUser
  infer_instance

instance LoginUser [Reads b R] [Allowed b R .nextid] [Allowed b R (.setex .redis_token)]
    (loginjson : Json) : Stays R (UserList.LoginUser b loginjson) := by
  unfold UserList.LoginUser
  infer_instance

instance LoginUserByToken [Reads b R] (loginjson : Json) :
    Stays R (UserList.LoginUserByToken b loginjson) := by
  unfold UserList.LoginUserByToken
  infer_instance

instance DeleteUser [Allowed b R (.delete_one .User)] [h : Allowed b R .setAuthority]
    (deletejson : Json) : Stays R (UserList.DeleteUser b deletejson) := by
  have hset (id : Int64) (authority : Int32) : Stays R (UserList.setAuthority id authority : Action S Unit) :=
    ⟨h.within id authority⟩
  unfold UserList.DeleteUser MoDB.DeleteUser
  infer_instance

end programs

end Stays

section requests

variable {S : Type} {R : Server S → Server S → Prop} [Std.Refl R] [IsTrans (Server S) R] {b : Backend S}
  [Reads b R]

/-- Whatever relation the reading calls and the changes of its list keep to, a handler keeps to. -/
theorem run_within (req : Http.HttpRequest) (handler : Handler)
    (h : ∀ m ∈ handler.mutations, m.Within b R) : Within R (handler.run b req) := by
  unfold Handler.run
  cases handler with
  | doRegisterUser =>
      have hinsertUser := Allowed.mk (h .insertUser (by decide))
      have hsetAuthority := Allowed.mk (h .setAuthority (by decide))
      unfold Oj.doRegisterUser Control.RegisterUser
      exact Stays.within
  | doLoginUser =>
      have hnextid := Allowed.mk (h .nextid (by decide))
      have hsetexToken := Allowed.mk (h (.setex .redis_token) (by decide))
      unfold Oj.doLoginUser Control.LoginUser
      exact Stays.within
  | doGetUserInfoByToken =>
      unfold Oj.doGetUserInfoByToken Control.LoginUserByToken
      exact Stays.within
  | doGetUserRank =>
      unfold Oj.doGetUserRank Control.SelectUserRank MoDB.SelectUserRank
      exact Stays.within
  | doGetUserInfo =>
      unfold Oj.doGetUserInfo Control.SelectUserInfo MoDB.SelectUserInfo
      exact Stays.within
  | doUpdateUserInfo =>
      have hupdateUser := Allowed.mk (h (.update_one .User) (by decide))
      unfold Oj.doUpdateUserInfo Control.UpdateUserInfo
      exact Stays.within
  | doGetUserUpdateInfo =>
      unfold Oj.doGetUserUpdateInfo Control.SelectUserUpdateInfo MoDB.SelectUserUpdateInfo
      exact Stays.within
  | doGetUserSetInfo =>
      unfold Oj.doGetUserSetInfo Control.SelectUserSetInfo MoDB.SelectUserSetInfo
      exact Stays.within
  | doDeleteUser =>
      have hdeleteUser := Allowed.mk (h (.delete_one .User) (by decide))
      have hsetAuthority := Allowed.mk (h .setAuthority (by decide))
      unfold Oj.doDeleteUser Control.DeleteUser
      exact Stays.within
  | doGetProblem =>
      have hsetexCache := Allowed.mk (h (.setex .redis_cache) (by decide))
      unfold Oj.doGetProblem Control.SelectProblem
      exact Stays.within
  | doGetProblemList =>
      unfold Oj.doGetProblemList Control.SelectProblemList MoDB.SelectProblemList
      exact Stays.within
  | doGetProblemListByAdmin =>
      unfold Oj.doGetProblemListByAdmin Control.SelectProblemListByAdmin MoDB.SelectProblemListByAdmin
      exact Stays.within
  | doGetProblemInfo =>
      unfold Oj.doGetProblemInfo Control.SelectProblemInfoByAdmin
      exact Stays.within
  | doEditProblem =>
      have hnextProblemId := Allowed.mk (h .nextProblemId (by decide))
      have hinsertProblem := Allowed.mk (h (.insert_one .Problem) (by decide))
      have hupdateProblem := Allowed.mk (h (.update_one .Problem) (by decide))
      have hmakeProblemData := Allowed.mk (h .makeProblemData (by decide))
      have hwriteProblemFile := Allowed.mk (h .writeProblemFile (by decide))
      have hremoveProblemData := Allowed.mk (h .removeProblemData (by decide))
      have hdelCache := Allowed.mk (h (.del .redis_cache) (by decide))
      have hproblemtags := Allowed.mk (h .problemtags (by decide))
      unfold Oj.doEditProblem Control.EditProblem
      exact Stays.within
  | doDeleteProblem =>
      have hdeleteProblem := Allowed.mk (h (.delete_one .Problem) (by decide))
      have hremoveProblemData := Allowed.mk (h .removeProblemData (by decide))
      have hdelCache := Allowed.mk (h (.del .redis_cache) (by decide))
      unfold Oj.doDeleteProblem Control.DeleteProblem
      exact Stays.within
  | doGetStatusRecordList =>
      unfold Oj.doGetStatusRecordList Control.SelectStatusRecordList MoDB.SelectStatusRecordList
      exact Stays.within
  | doGetStatusRecord =>
      have hsetexCache := Allowed.mk (h (.setex .redis_cache) (by decide))
      unfold Oj.doGetStatusRecord Control.SelectStatusRecord
      exact Stays.within
  | doPostCode =>
      have hjudging := Allowed.mk (h .judging (by decide))
      have hinsertStatusRecord := Allowed.mk (h .insertStatusRecord (by decide))
      have hupdateProblem := Allowed.mk (h .updateProblem (by decide))
      have hupdateProblemStatus := Allowed.mk (h .updateProblemStatus (by decide))
      unfold Oj.doPostCode
      exact Stays.within
  | doGetAnnouncementList =>
      unfold Oj.doGetAnnouncementList Control.SelectAnnouncementList MoDB.SelectAnnouncementList
      exact Stays.within
  | doGetAnnouncementListByAdmin =>
      unfold Oj.doGetAnnouncementListByAdmin Control.SelectAnnouncementListByAdmin
        MoDB.SelectAnnouncementList
      exact Stays.within
  | doGetAnnouncement =>
      have hupdateAnnouncement := Allowed.mk (h (.update_one .Announcement) (by decide))
      unfold Oj.doGetAnnouncement Control.SelectAnnouncement MoDB.SelectAnnouncement
      exact Stays.within
  | doSelectAnnouncement =>
      unfold Oj.doSelectAnnouncement Control.SelectAnnouncementByEdit MoDB.SelectAnnouncementByEdit
      exact Stays.within
  | doInsertAnnouncement =>
      have hnextArticleId := Allowed.mk (h .nextArticleId (by decide))
      have hinsertAnnouncement := Allowed.mk (h (.insert_one .Announcement) (by decide))
      unfold Oj.doInsertAnnouncement Control.InsertAnnouncement
      exact Stays.within
  | doUpdateAnnouncement =>
      have hupdateAnnouncement := Allowed.mk (h (.update_one .Announcement) (by decide))
      unfold Oj.doUpdateAnnouncement Control.UpdateAnnouncement
      exact Stays.within
  | doDeleteAnnouncement =>
      have hdeleteAnnouncement := Allowed.mk (h (.delete_one .Announcement) (by decide))
      have hdeleteManyComment := Allowed.mk (h (.delete_many .Comment) (by decide))
      unfold Oj.doDeleteAnnouncement Control.DeleteAnnouncement MoDB.DeleteAnnouncement
      exact Stays.within
  | doGetSolutionList =>
      unfold Oj.doGetSolutionList Control.SelectSolutionList MoDB.SelectSolutionList
      exact Stays.within
  | doGetSolutionListByAdmin =>
      unfold Oj.doGetSolutionListByAdmin Control.SelectSolutionListByAdmin
        MoDB.SelectSolutionListByAdmin
      exact Stays.within
  | doGetSolution =>
      have hupdateSolution := Allowed.mk (h (.update_one .Solution) (by decide))
      unfold Oj.doGetSolution Control.SelectSolution MoDB.SelectSolution
      exact Stays.within
  | doSelectSolutionByEdit =>
      unfold Oj.doSelectSolutionByEdit Control.SelectSolutionByEdit MoDB.SelectSolutionByEdit
      exact Stays.within
  | doInsertSolution =>
      have hnextArticleId := Allowed.mk (h .nextArticleId (by decide))
      have hinsertSolution := Allowed.mk (h (.insert_one .Solution) (by decide))
      unfold Oj.doInsertSolution Control.InsertSolution
      exact Stays.within
  | doUpdateSolution =>
      have hupdateSolution := Allowed.mk (h (.update_one .Solution) (by decide))
      unfold Oj.doUpdateSolution Control.UpdateSolution
      exact Stays.within
  | doDeleteSolution =>
      have hdeleteSolution := Allowed.mk (h (.delete_one .Solution) (by decide))
      have hdeleteManyComment := Allowed.mk (h (.delete_many .Comment) (by decide))
      unfold Oj.doDeleteSolution Control.DeleteSolution MoDB.DeleteSolution
      exact Stays.within
  | doGetDiscussList =>
      unfold Oj.doGetDiscussList Control.SelectDiscussList MoDB.SelectDiscussList
      exact Stays.within
  | doGetDiscussListByAdmin =>
      unfold Oj.doGetDiscussListByAdmin Control.SelectDiscussListByAdmin MoDB.SelectDiscussListByAdmin
      exact Stays.within
  | doGetDiscuss =>
      have hupdateDiscuss := Allowed.mk (h (.update_one .Discuss) (by decide))
      unfold Oj.doGetDiscuss Control.SelectDiscuss MoDB.SelectDiscuss
      exact Stays.within
  | doSelectDiscussByEdit =>
      unfold Oj.doSelectDiscussByEdit Control.SelectDiscussByEdit MoDB.SelectDiscussByEdit
      exact Stays.within
  | doInsertDiscuss =>
      have hnextArticleId := Allowed.mk (h .nextArticleId (by decide))
      have hinsertDiscuss := Allowed.mk (h (.insert_one .Discuss) (by decide))
      unfold Oj.doInsertDiscuss Control.InsertDiscuss
      exact Stays.within
  | doUpdateDiscuss =>
      have hupdateDiscuss := Allowed.mk (h (.update_one .Discuss) (by decide))
      unfold Oj.doUpdateDiscuss Control.UpdateDiscuss
      exact Stays.within
  | doDeleteDiscuss =>
      have hdeleteDiscuss := Allowed.mk (h (.delete_one .Discuss) (by decide))
      have hdeleteManyComment := Allowed.mk (h (.delete_many .Comment) (by decide))
      unfold Oj.doDeleteDiscuss Control.DeleteDiscuss MoDB.DeleteDiscuss
      exact Stays.within
  | doSelectCommentListByAdmin =>
      unfold Oj.doSelectCommentListByAdmin Control.SelectCommentListByAdmin
        MoDB.SelectCommentListByAdmin
      exact Stays.within
  | doGetComment =>
      unfold Oj.doGetComment
      exact Stays.within
  | doInsertComment =>
      have hnextCommentId := Allowed.mk (h .nextCommentId (by decide))
      have hinsertComment := Allowed.mk (h (.insert_one .Comment) (by decide))
      have hupdateComment := Allowed.mk (h (.update_one .Comment) (by decide))
      have hupdateDiscuss := Allowed.mk (h (.update_one .Discuss) (by decide))
      have hupdateSolution := Allowed.mk (h (.update_one .Solution) (by decide))
      have hupdateAnnouncement := Allowed.mk (h (.update_one .Announcement) (by decide))
      unfold Oj.doInsertComment Control.InsertComment
      exact Stays.within
  | doDeleteComment =>
      have hdeleteComment := Allowed.mk (h (.delete_one .Comment) (by decide))
      have hupdateComment := Allowed.mk (h (.update_one .Comment) (by decide))
      have hupdateDiscuss := Allowed.mk (h (.update_one .Discuss) (by decide))
      have hupdateSolution := Allowed.mk (h (.update_one .Solution) (by decide))
      have hupdateAnnouncement := Allowed.mk (h (.update_one .Announcement) (by decide))
      unfold Oj.doDeleteComment Control.DeleteComment
      exact Stays.within

/-- What the HTTP server asks for keeps to what its list keeps to. -/
theorem onRequest_within (req : Http.HttpRequest) (resp : Http.HttpResponse)
    (h : ∀ m ∈ mutationsOf req, m.Within b R) : Within R (onRequest b req resp) := by
  unfold mutationsOf at h
  unfold onRequest
  cases hroute : handlerOf req with
  | none =>
      exact Stays.within
  | some handler =>
      rw [hroute] at h
      have hrun : Stays R (handler.run b req) := ⟨run_within req handler h⟩
      exact Stays.within

end requests

/-! ## Runs -/

section runs

variable {S : Type} (b : Backend S) (R : Server S → Server S → Prop) [Std.Refl R] [IsTrans (Server S) R]

/-- Requests, one after another. -/
def serve (reqs : List Http.HttpRequest) (server : Server S) : Server S :=
  reqs.foldl (fun server req => final (onRequest b req (.new false)) server) server

variable {b R} in
/-- A run of requests that each keep to `R`. -/
theorem within_serve {reqs : List Http.HttpRequest}
    (h : ∀ req ∈ reqs, Within R (onRequest b req (.new false))) (server : Server S) :
    R server (serve b reqs server) := by
  induction reqs generalizing server with
  | nil =>
      exact Std.Refl.refl server
  | cons req reqs ih =>
      obtain ⟨hreq, hreqs⟩ := List.forall_mem_cons.1 h
      exact IsTrans.trans _ _ _ (hreq server) (ih hreqs _)

/-- **Frame rule of the server.**  Whatever relation between states the reading calls keep to, and those
changes that the handlers of the requests have on their lists, every run of the requests keeps to. -/
theorem serve_within [Reads b R] (reqs : List Http.HttpRequest)
    (h : ∀ req ∈ reqs, ∀ m ∈ mutationsOf req, m.Within b R) (server : Server S) :
    R server (serve b reqs server) :=
  within_serve (fun req hreq => onRequest_within req _ (h req hreq)) server

/-- What a `GET` request may change: a cache, or the views of an article. -/
def viewing : List Mutation :=
  [.setex .redis_cache, .update_one .Announcement, .update_one .Solution, .update_one .Discuss]

theorem findPath_mem {path : Bytes} {routes : List (String × Handler)} {handler : Handler}
    (h : findPath path routes = some handler) : handler ∈ routes.map Prod.snd := by
  induction routes with
  | nil =>
      cases h
  | cons route routes ih =>
      obtain ⟨p, handler'⟩ := route
      unfold findPath at h
      split at h
      · cases h
        exact List.mem_cons_self
      · exact List.mem_cons_of_mem _ (ih h)

theorem viewing_of_get {req : Http.HttpRequest} (hget : req.method_ = .kGet) {m : Mutation}
    (hm : m ∈ mutationsOf req) : m ∈ viewing := by
  have hroutes : ∀ handler ∈ get_map_.map Prod.snd, ∀ m ∈ handler.mutations, m ∈ viewing := by decide
  unfold mutationsOf handlerOf at hm
  rw [if_pos hget] at hm
  cases hroute : findPath req.path_ get_map_ with
  | none =>
      rw [hroute] at hm
      cases hm
  | some handler =>
      rw [hroute] at hm
      exact hroutes handler (findPath_mem hroute) m hm

/-- **`GET` only looks.**  Any number of `GET` requests keep to whatever the reading calls, writing to the
caches and counting views keep to. -/
theorem serve_get_within [Reads b R] (hviewing : ∀ m ∈ viewing, m.Within b R)
    (reqs : List Http.HttpRequest) (hget : ∀ req ∈ reqs, req.method_ = .kGet) (server : Server S) :
    R server (serve b reqs server) :=
  within_serve (fun req hreq => onRequest_within req _
    fun m hm => hviewing m (viewing_of_get (hget req hreq) hm)) server

end runs

/-! ## One collection

On the tables a call changes the collection it names and no other. -/

section collection

variable {S : Type}

/-- The documents of the collection are what they were. -/
def SameColl (coll : Collection) (server server' : Server (Databases S)) : Prop :=
  server'.outside.colls coll = server.outside.colls coll

instance reflSameColl (coll : Collection) : Std.Refl (SameColl (S := S) coll) where
  refl _ := rfl

instance transSameColl (coll : Collection) : IsTrans (Server (Databases S)) (SameColl coll) where
  trans _ _ _ h h' := h'.trans h

theorem sameColl_reads {coll : Collection} {α : Type} (f : Databases S → Except Exception α) :
    Within (SameColl coll) (call (Databases.reads f)) := by
  intro server
  rw [SameColl, final, call_reads]
  cases f server.outside <;> rfl

instance readsSameColl (base : Backend S) (regex : Bytes → Option (Bytes → Bool)) (coll : Collection) :
    Reads (base.onDatabases regex) (SameColl coll) where
  get db key := sameColl_reads fun t => .ok (t.redis db key)
  queryByUserName name := sameColl_reads fun t => .ok (t.user.find? fun u => u.username = name)
  queryByUserId _ := sameColl_reads _
  queryNickName name := sameColl_reads fun t => .ok (t.user.any fun u => u.nickname = name)
  aggregate _ _ := sameColl_reads _
  aggregateSized _ _ := sameColl_reads _
  aggregateCount _ _ := sameColl_reads _
  find _ _ := sameColl_reads _
  count_documents _ _ := sameColl_reads _
  distinct _ _ := sameColl_reads _

theorem sameColl_update_one (base : Backend S) (regex : Bytes → Option (Bytes → Bool))
    {coll coll' : Collection} (h : coll ≠ coll') :
    (Mutation.update_one coll').Within (base.onDatabases regex) (SameColl coll) := by
  intro id update server
  rw [final_call]
  exact (congrFun (congrArg Databases.colls (Databases.final_update_one _ _ _ update)) coll).trans (if_neg h)

theorem sameColl_setex (base : Backend S) (regex : Bytes → Option (Bytes → Bool)) (coll : Collection)
    (db : RedisDb) : (Mutation.setex db).Within (base.onDatabases regex) (SameColl coll) :=
  fun _ _ _ _ => rfl

theorem sameColl_nextid (base : Backend S) (regex : Bytes → Option (Bytes → Bool)) (coll : Collection) :
    Mutation.nextid.Within (base.onDatabases regex) (SameColl coll) :=
  fun _ => rfl

end collection

/-- `GET /announcement?AnnouncementId=1` -/
def getAnnouncement : Http.HttpRequest :=
  { Http.HttpRequest.new with
    method_ := .kGet
    path_ := bytes "/announcement"
    params_ := Finmap.singleton (bytes "AnnouncementId") (bytes "1") }

/-- `POST /user/login` -/
def postLogin : Http.HttpRequest :=
  { Http.HttpRequest.new with method_ := .kPost, path_ := bytes "/user/login" }

/-- A process that has just started. -/
def freshServer : Server Unit where
  UserAuthorityMap := fun _ => 0
  m_problemid := 0
  m_commentid := 0
  m_articleid := 0
  problemtags := .null
  outside := ()

/-- `{"username": "tom", "password": "1"}` -/
def loginText : Bytes := bytes "\x7b\"username\": \"tom\", \"password\": \"1\"\x7d"

/-- The tables, and the one text that is parsed. -/
def loginTables : Backend (Databases Unit) :=
  { Backend.idle with
    parse := fun text =>
      if text = loginText then some ⟨.object [("username", .str "tom"), ("password", .str "1")], by decide⟩
      else none }.onDatabases fun _ => none

instance readsLoginTables (coll : Collection) : Reads loginTables (SameColl coll) := readsSameColl _ _ coll

def announcement : Doc where
  members := [("Title", .str "Contest"), ("Views", .ofInt 0)]
  utf8 := by decide

theorem nodup_announcement : ([((1 : Int64), announcement)].map Prod.fst).Nodup := by decide

def rowOfTom : Doc where
  members := [("NickName", .str "tom"), ("ACNum", .ofInt 2)]
  utf8 := by decide

theorem nodup_rowOfTom : ([((1 : Int64), rowOfTom)].map Prod.fst).Nodup := by decide

/-- An announcement that nobody has looked at, and one user. -/
def announcing : Server (Databases Unit) where
  UserAuthorityMap := fun _ => 0
  m_problemid := 0
  m_commentid := 0
  m_articleid := 1
  problemtags := .null
  outside :=
    { redis := fun _ _ => none
      user := [⟨1, bytes "tom", bytes "tom", bytes "1", [], [], 2, 5⟩]
      colls := fun coll =>
        if coll = .Announcement then ⟨[(1, announcement)], nodup_announcement⟩
        else if coll = .User then ⟨[(1, rowOfTom)], nodup_rowOfTom⟩
        else Rows.empty
      rest := () }

/-- How often the announcement was looked at. -/
def viewsOf (server : Server (Databases Unit)) : Option Rat :=
  (server.outside.find .Announcement 1).bind fun doc => (doc.members.lookup "Views").bind Json.number

/-- An announcement is looked at and a user logs in: a view and a token, and no change among the users. -/
theorem serve_within_login :
    let login := { postLogin with body_ := loginText }
    let server := serve loginTables [getAnnouncement, login] announcing
    SameColl .User announcing server ∧ viewsOf server = some 1 ∧
      server.outside.redis .redis_token (bytes "1") = some (bytes "1") := by
  intro login server
  have hannouncement : mutationsOf getAnnouncement = [.update_one .Announcement] := by decide +kernel
  have hlogin : mutationsOf login = [.nextid, .setex .redis_token] := by decide +kernel
  refine ⟨serve_within loginTables (SameColl .User) _ ?_ announcing, by decide +kernel, by decide +kernel⟩
  simp only [List.forall_mem_cons, hannouncement, hlogin]
  exact ⟨⟨sameColl_update_one _ _ (by decide), fun _ h => absurd h List.not_mem_nil⟩,
    ⟨sameColl_nextid _ _ _, sameColl_setex _ _ _ _, fun _ h => absurd h List.not_mem_nil⟩,
    fun _ h => absurd h List.not_mem_nil⟩

/-- The announcement is looked at twice. -/
theorem serve_get_within_announcement :
    let server := serve loginTables [getAnnouncement, getAnnouncement] announcing
    SameColl .User announcing server ∧ viewsOf server = some 2 := by
  intro server
  have hviewing : ∀ m ∈ viewing, m.Within loginTables (SameColl .User) := by
    simp only [viewing, List.forall_mem_cons]
    exact ⟨sameColl_setex _ _ _ _, sameColl_update_one _ _ (by decide), sameColl_update_one _ _ (by decide),
      sameColl_update_one _ _ (by decide), fun _ h => absurd h List.not_mem_nil⟩
  exact ⟨serve_get_within loginTables (SameColl .User) hviewing _ (by decide +kernel) announcing,
    by decide +kernel⟩

end Oj
end Myoj
