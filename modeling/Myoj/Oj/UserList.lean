import Myoj.Oj.MongoDataBase
import Myoj.Oj.MysqlDataBase
import Myoj.Oj.RedisDataBase

/-!
# UserList — logins, tokens and permissions

A permission check reads the token of the request JSON, asks Redis for the user, writes the answer into
the JSON as `VerifyId` and looks the user's authority up.  The checks return the JSON with it.

* `RegisterUser`, `LoginUser`, `LoginUserByToken`, `DeleteUser`;
* `IsOrdinaryUser`, `IsAdministrator`, `IsAuthor` — the checks;
* `tokenUser`, `authorityOf`, `mayEdit` — what they compute, with one spec lemma for each check.
-/

namespace Myoj
namespace Oj
namespace UserList

open Effect

variable {S : Type} (b : Backend S)

/-- `UserAuthorityMap[id] = authority`; erasing is assigning 0. -/
def setAuthority (id : Int64) (authority : Int32) : Action S Unit := fun server =>
  .ok () { server with
    UserAuthorityMap := fun id' => if id' = id then authority else server.UserAuthorityMap id' }

def RegisterUser (registerjson : Json) : Action S Json := do
  let json ← MysqlDataBase.RegisterUser b registerjson
  if (← json.stringAt "Result") = bytes "Success" then
    let id ← (← json.index "Id").getInt64
    setAuthority id 3
  return json

def LoginUser (loginjson : Json) : Action S Json := do
  let json ← MysqlDataBase.LoginUser b loginjson
  if (← json.index "Result").eqString "Success" then
    let token ← affect b.nextid
    let info ← json.index "Info"
    let id ← (← info.index "id").getUInt64
    let _ ← ReDB.SetToken b (Numerals.to_string token.toInt) (Numerals.to_string id.toNat)
    json.set "Info" (← info.set "Token" (.string (Numerals.to_string token.toInt)))
  else
    return json

/-- The JSON is dumped into the log first. -/
def LoginUserByToken (loginjson : Json) : Action S Json := do
  loginjson.dump
  let token ← loginjson.stringAt "Token"
  let userid ← ReDB.GetUserIdByToken b token
  let loginjson ← loginjson.set "id" (.string userid)
  MysqlDataBase.LoginUserByToken b loginjson

def DeleteUser (deletejson : Json) : Action S Json := do
  let json ← MoDB.DeleteUser b deletejson
  if (← json.stringAt "Result") = bytes "Success" then
    let id ← deletejson.int64At "UserId"
    setAuthority id 0
  return json

/-! ## Permissions -/

/-- The token of the JSON turned into the id of its user. -/
def TokenToVerifyId (json : Json) : Action S Json := do
  let token ← json.index "Token"
  if token.empty then return json
  else
    let userid ← ReDB.GetUserIdByToken b (← token.getString)
    json.set "VerifyId" (.string userid)

/-- 1 for a visitor, 3 for a user, 5 for an administrator. -/
def GetUserAuthority (json : Json) : Action S Int32 := do
  let verifyid ← json.index "VerifyId"
  if verifyid.empty then return 1
  else
    attempt
      (do
        let id ← stoll (← verifyid.getString)
        let server ← get
        if server.UserAuthorityMap id = 0 then return 1
        else return server.UserAuthorityMap id)
      fun _ => pure 1

def IsOrdinaryUser (json : Json) : Action S (Bool × Json) := do
  let json ← TokenToVerifyId b json
  return ((← GetUserAuthority json) ≥ 3, json)

def IsAdministrator (json : Json) : Action S (Bool × Json) := do
  let json ← TokenToVerifyId b json
  return ((← GetUserAuthority json) ≥ 5, json)

/-- The author is whoever the JSON's own `UserId` names. -/
def IsAuthor (json : Json) : Action S (Bool × Json) := do
  let json ← TokenToVerifyId b json
  let authority ← GetUserAuthority json
  if authority < 3 then return (false, json)
  else if authority ≥ 5 then return (true, json)
  else
    attempt
      (do
        let verifyid ← json.int64At "VerifyId"
        let userid ← json.int64At "UserId"
        return (verifyid == userid, json))
      fun _ => pure (false, json)

/-! ## What the checks compute

The user of a token and his authority as functions of the state before, and the checks in terms of
them: Redis failing is a token nobody has. -/

/-- The user a token resolves to. -/
def tokenUser (token : Bytes) (server : Server S) : Bytes :=
  match b.get .redis_token token server.outside with
  | .ok (some userid) _ => userid
  | _ => bytes "0"

/-- The state after the token was looked up. -/
def afterToken (token : Bytes) (server : Server S) : Server S :=
  match b.get .redis_token token server.outside with
  | .ok _ outside => { server with outside }
  | .error _ outside => { server with outside }

/-- The authority of a user id as text: visitors are those without an entry or without a number. -/
def authorityOf (UserAuthorityMap : Int64 → Int32) (userid : Bytes) : Int32 :=
  match stoll userid with
  | .ok id => if UserAuthorityMap id = 0 then 1 else UserAuthorityMap id
  | .error _ => 1

/-- The two ids `IsAuthor` compares are numbers, and the same. -/
def sameUser (verifyid : Bytes) (userid : Json) : Bool :=
  match stoll verifyid, userid.getString >>= stoll with
  | .ok v, .ok u => v == u
  | _, _ => false

/-- The outcome of `IsAuthor`. -/
def mayEdit (authority : Int32) (verifyid : Bytes) (userid : Json) : Bool :=
  authority ≥ 3 && (authority ≥ 5 || sameUser verifyid userid)

section specs

variable {b} {json : Json} {token : Bytes} (server : Server S)

@[simp] theorem UserAuthorityMap_afterToken :
    (afterToken b token server).UserAuthorityMap = server.UserAuthorityMap := by
  unfold afterToken
  split <;> rfl

theorem GetUserIdByToken_apply :
    ReDB.GetUserIdByToken b token server =
      .ok (tokenUser b token server) (afterToken b token server) := by
  simp only [ReDB.GetUserIdByToken, attempt, bind_apply, call, tokenUser, afterToken]
  cases b.get .redis_token token server.outside with
  | ok found outside =>
      cases found <;> rfl
  | error e outside =>
      rfl

theorem TokenToVerifyId_apply (hj : json.Indexable) (ht : json.member "Token" = .string token) :
    TokenToVerifyId b json server =
      .ok (json.put "VerifyId" (.string (tokenUser b token server))) (afterToken b token server) := by
  simp [TokenToVerifyId, bind_apply, Json.index_of_indexable hj, ht, Json.empty,
    GetUserIdByToken_apply, Json.set_of_indexable hj]

theorem GetUserAuthority_apply {userid : Bytes} (hj : json.Indexable)
    (hv : json.member "VerifyId" = .string userid) :
    GetUserAuthority json server = .ok (authorityOf server.UserAuthorityMap userid) server := by
  have hindex : json.index "VerifyId" = .ok (.string userid) := by
    rw [Json.index_of_indexable hj, hv]
  rw [GetUserAuthority, hindex, bind_of_ok liftM_ok_apply, if_neg (by simp [Json.empty])]
  simp only [attempt, bind_apply, Json.getString_string, liftM_ok_apply, authorityOf]
  cases stoll userid with
  | ok id =>
      have hget : (get : Action S (Server S)) server = .ok server server := rfl
      by_cases h : server.UserAuthorityMap id = 0
      · simp [h, hget]
      · simp [h, hget]
  | error e =>
      rfl

/-- All three checks start like this. -/
theorem authority_apply (hj : json.Indexable) :
    GetUserAuthority (json.put "VerifyId" (.string (tokenUser b token server)))
        (afterToken b token server) =
      .ok (authorityOf server.UserAuthorityMap (tokenUser b token server))
        (afterToken b token server) := by
  rw [GetUserAuthority_apply _ (Json.indexable_put ..) (by rw [Json.member_put hj, if_pos rfl]),
    UserAuthorityMap_afterToken]

theorem IsOrdinaryUser_apply (hj : json.Indexable) (ht : json.member "Token" = .string token) :
    IsOrdinaryUser b json server =
      .ok (decide (authorityOf server.UserAuthorityMap (tokenUser b token server) ≥ 3),
        json.put "VerifyId" (.string (tokenUser b token server))) (afterToken b token server) := by
  rw [IsOrdinaryUser, bind_of_ok (TokenToVerifyId_apply server hj ht),
    bind_of_ok (authority_apply server hj), pure_apply]

theorem IsAdministrator_apply (hj : json.Indexable) (ht : json.member "Token" = .string token) :
    IsAdministrator b json server =
      .ok (decide (authorityOf server.UserAuthorityMap (tokenUser b token server) ≥ 5),
        json.put "VerifyId" (.string (tokenUser b token server))) (afterToken b token server) := by
  rw [IsAdministrator, bind_of_ok (TokenToVerifyId_apply server hj ht),
    bind_of_ok (authority_apply server hj), pure_apply]

/-- The comparison of the two ids, after the exceptions are caught. -/
theorem sameUser_apply {userid : Bytes} (hj : json.Indexable)
    (hv : json.member "VerifyId" = .string userid) :
    (attempt
      (do
        let verifyid ← json.int64At "VerifyId"
        let userid ← json.int64At "UserId"
        return (verifyid == userid, json))
      (fun _ => pure (false, json)) : Action S (Bool × Json)) server =
      .ok (sameUser userid (json.member "UserId"), json) server := by
  -- both ids are read before they are compared
  have hverify : json.int64At "VerifyId" = stoll userid := by
    simp only [Json.int64At, Json.stringAt, Json.index_of_indexable hj, hv]
    rfl
  have huser : json.int64At "UserId" = ((json.member "UserId").getString >>= stoll) := by
    simp only [Json.int64At, Json.stringAt, Json.index_of_indexable hj]
    rfl
  rw [hverify, huser]
  simp only [attempt, bind_apply, sameUser]
  cases stoll userid with
  | error e =>
      rfl
  | ok v =>
      cases (json.member "UserId").getString >>= stoll with
      | error e =>
          rfl
      | ok u =>
          rfl

theorem IsAuthor_apply (hj : json.Indexable) (ht : json.member "Token" = .string token) :
    IsAuthor b json server =
      .ok (mayEdit (authorityOf server.UserAuthorityMap (tokenUser b token server))
          (tokenUser b token server) (json.member "UserId"),
        json.put "VerifyId" (.string (tokenUser b token server))) (afterToken b token server) := by
  rw [IsAuthor, bind_of_ok (TokenToVerifyId_apply server hj ht),
    bind_of_ok (authority_apply server hj)]
  generalize authorityOf server.UserAuthorityMap (tokenUser b token server) = authority
  by_cases hlow : authority < 3
  · have hnot : ¬ authority ≥ 3 := Int32.not_le.2 hlow
    simp [hlow, mayEdit, hnot]
  · have hge : authority ≥ 3 := Int32.not_lt.1 hlow
    by_cases hhigh : authority ≥ 5
    · simp [hlow, mayEdit, hge, hhigh]
    · simp only [hlow, hhigh, if_false]
      rw [sameUser_apply _ (Json.indexable_put ..) (by rw [Json.member_put hj, if_pos rfl])]
      simp [mayEdit, hge, hhigh, Json.member_put hj]

end specs

/-! ## What the checks leave alone

Looking up a token is all a check does outside. -/

section keeps

variable {b} {γ : Type} {v : Server S → γ}

theorem keeps_TokenToVerifyId (hget : ∀ token, Keeps v (call (b.get .redis_token token))) (json : Json) :
    Keeps v (TokenToVerifyId b json) := by
  refine Keeps.bind (Keeps.liftM _) fun token => ?_
  split
  · exact Keeps.pure _
  · refine Keeps.bind (Keeps.liftM _) fun text => ?_
    refine Keeps.bind (Keeps.attempt_pure (Keeps.bind (hget text) fun found => ?_) _) fun _ => Keeps.liftM _
    cases found with
    | none =>
        exact Keeps.pure _
    | some userid =>
        exact Keeps.pure _

theorem keeps_GetUserAuthority (json : Json) : Keeps v (GetUserAuthority json) := by
  refine Keeps.bind (Keeps.liftM _) fun verifyid => ?_
  split
  · exact Keeps.pure _
  · refine Keeps.attempt_pure (Keeps.bind (Keeps.liftM _) fun text => ?_) _
    refine Keeps.bind (Keeps.liftM _) fun id => Keeps.bind (fun _ => rfl) fun server => ?_
    split
    · exact Keeps.pure _
    · exact Keeps.pure _

theorem keeps_IsOrdinaryUser (hget : ∀ token, Keeps v (call (b.get .redis_token token))) (json : Json) :
    Keeps v (IsOrdinaryUser b json) :=
  Keeps.bind (keeps_TokenToVerifyId hget json) fun json =>
    Keeps.bind (keeps_GetUserAuthority json) fun _ => Keeps.pure _

theorem keeps_IsAdministrator (hget : ∀ token, Keeps v (call (b.get .redis_token token))) (json : Json) :
    Keeps v (IsAdministrator b json) :=
  Keeps.bind (keeps_TokenToVerifyId hget json) fun json =>
    Keeps.bind (keeps_GetUserAuthority json) fun _ => Keeps.pure _

theorem keeps_IsAuthor (hget : ∀ token, Keeps v (call (b.get .redis_token token))) (json : Json) :
    Keeps v (IsAuthor b json) := by
  refine Keeps.bind (keeps_TokenToVerifyId hget json) fun json => ?_
  refine Keeps.bind (keeps_GetUserAuthority json) fun authority => ?_
  split
  · exact Keeps.pure _
  · split
    · exact Keeps.pure _
    · exact Keeps.attempt_pure (Keeps.bind (Keeps.liftM _) fun _ =>
        Keeps.bind (Keeps.liftM _) fun _ => Keeps.pure _) _

end keeps

end UserList
end Oj
end Myoj
