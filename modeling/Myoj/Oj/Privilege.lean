import Myoj.Oj.Databases
import Myoj.Oj.Survival

/-!
# Privilege — what a request may change whose user is not an administrator

A check asks Redis for the user of the header's token and writes the answer into the JSON, whatever the
body has there.  The handlers that edit or delete for everybody ask `IsAdministrator`; a user's own page
is behind `IsAuthor`, which compares the same number that the update then works on.

* `Backend.onTokens` — the databases, with a token store that answers anything or fails;
* `Administrator` — the user the request's token resolves to has authority 5;
* `Handler.privileged` — the handlers that need it;
* `OnlyUser` — nothing differs but the `User` document of one user.
-/

namespace Myoj
namespace Oj

open Effect
open Http (HttpRequest HttpResponse)
open UserList (authorityOf tokenUser afterToken mayEdit sameUser)

variable {S : Type}

/-- The databases, with whatever Redis answers to a lookup, or its failure. -/
def Backend.onTokens (base : Backend S) (regex : Bytes → Option (Bytes → Bool))
    (lookup : RedisDb → Bytes → Databases S → Except Exception (Option Bytes)) :
    Backend (Databases S) :=
  { base.onDatabases regex with get := fun db key => Databases.reads (lookup db key) }

/-- The user id the token of the `Authorization` header resolves to. -/
def userOf (b : Backend S) (req : HttpRequest) (server : Server S) : Bytes :=
  tokenUser b (GetRequestToken req) server

/-- That user has the authority of an administrator. -/
def Administrator (b : Backend S) (req : HttpRequest) (server : Server S) : Prop :=
  authorityOf server.UserAuthorityMap (userOf b req server) ≥ 5

/-- The handlers that change what belongs to everybody, or to another user. -/
def Handler.privileged : Handler → Bool
  | .doDeleteUser => true
  | .doEditProblem => true
  | .doDeleteProblem => true
  | .doInsertAnnouncement => true
  | .doUpdateAnnouncement => true
  | .doDeleteAnnouncement => true
  | _ => false

/-- At most the `User` document of the user differs. -/
def OnlyUser (userid : Bytes) (server server' : Server (Databases S)) : Prop :=
  server' = server ∨
    ∃ id change, stoll userid = .ok id ∧
      server' = { server with outside :=
        server.outside.setColl .User ((server.outside.colls .User).modify id change) }

/-! ## Handlers

What holds of a state, and of the state the function behind a handler ends in for every JSON with the
request's token, holds of the state the handler ends in. -/

section handlers

variable {b : Backend S} {req : HttpRequest} {act : Json → Action S Json} {server : Server S}
  {P : Server S → Prop}

theorem final_withParams {params : List String} (htoken : "Token" ∉ params) (missing : Json)
    (hs : P server) (h : ∀ json, Tokened req json → P (final (act json) server)) :
    P (final (withParams req params missing act) server) := by
  unfold withParams
  split
  · exact h _ (tokened_queryOf req htoken)
  · exact hs

/-- The token is the last member to be written. -/
theorem final_set_token {json : Json} (hs : P server)
    (h : ∀ json, Tokened req json → P (final (act json) server)) :
    P (final (liftM (json.set "Token" (tokenOf req)) >>= act) server) := by
  refine final_liftM_bind_of hs fun json' hset => ?_
  rw [Json.set_eq] at hset
  split at hset
  · next hj =>
    cases hset
    exact h _ (tokened_put req hj)
  · cases hset

theorem final_withBody (hs : P server) (h : ∀ json, Tokened req json → P (final (act json) server)) :
    P (final (withBody b req act) server) :=
  final_liftM_bind_of hs fun _ _ => final_set_token hs h

theorem final_withMember (k : String) (hs : P server)
    (h : ∀ json, Tokened req json → P (final (act json) server)) :
    P (final (withMember b req k act) server) :=
  final_liftM_bind_of hs fun _ _ => final_liftM_bind_of hs fun _ _ => final_set_token hs h

/-- The id from the parameter goes into the body's JSON before the token. -/
theorem final_doDeleteUser (hs : P server)
    (h : ∀ json, Tokened req json → P (final (Control.DeleteUser b json) server)) :
    P (final (doDeleteUser b req) server) := by
  unfold doDeleteUser
  split
  · exact final_liftM_bind_of hs fun _ _ => final_liftM_bind_of hs fun _ _ => final_set_token hs h
  · exact hs

/-- A request changes what its handler changes. -/
theorem final_onRequest {handler : Handler} (hroute : handlerOf req = some handler)
    (resp : HttpResponse) : final (onRequest b req resp) server = final (handler.run b req) server := by
  simp only [onRequest, hroute]
  exact final_bind_of_keeps (v := fun s => s)
    (fun _ => Keeps.bind (Keeps.liftM _) fun _ => Keeps.pure _) _ _

theorem final_guarded {check : Json → Action S (Bool × Json)} {json json' : Json} {allowed : Bool}
    {server' : Server S} (hcheck : check json server = .ok (allowed, json') server') :
    final (Control.guarded check act json) server =
      if allowed = true then final (act json') server' else server' := by
  rw [Control.guarded, final_bind_of_ok hcheck]
  cases allowed <;> rfl

end handlers

/-! ## Requests -/

section requests

variable {base : Backend S} {regex : Bytes → Option (Bytes → Bool)}
  {lookup : RedisDb → Bytes → Databases S → Except Exception (Option Bytes)} {req : HttpRequest}
  {server : Server (Databases S)}

variable (base regex lookup) in
/-- Asking Redis changes nothing. -/
theorem afterToken_onTokens (token : Bytes) (server : Server (Databases S)) :
    afterToken (base.onTokens regex lookup) token server = server := by
  simp only [afterToken, Backend.onTokens, Databases.reads]
  cases lookup .redis_token token server.outside <;> rfl

/-- Whoever is no administrator is turned away, and nothing has changed. -/
theorem final_refused (h : ¬ Administrator (base.onTokens regex lookup) req server) {json : Json}
    (hj : Tokened req json) (act : Json → Action (Databases S) Json) :
    final (Control.guarded (UserList.IsAdministrator (base.onTokens regex lookup)) act json) server =
      server := by
  rw [final_guarded (UserList.IsAdministrator_apply server hj.indexable hj.token),
    afterToken_onTokens, if_neg]
  rwa [decide_eq_true_iff]

theorem run_privileged (h : ¬ Administrator (base.onTokens regex lookup) req server)
    {handler : Handler} (hprivileged : handler.privileged = true) :
    final (handler.run (base.onTokens regex lookup) req) server = server := by
  have hrefused : ∀ (act : Json → Action (Databases S) Json) json, Tokened req json →
      final (Control.guarded (UserList.IsAdministrator (base.onTokens regex lookup)) act json) server =
        server := fun act _ hj => final_refused h hj act
  cases handler <;> cases hprivileged
  · exact final_doDeleteUser (P := (· = server)) rfl (hrefused _)
  · exact final_withMember (P := (· = server)) _ rfl (hrefused _)
  · exact final_withParams (P := (· = server)) (by decide) _ rfl (hrefused _)
  · exact final_withBody (P := (· = server)) rfl (hrefused _)
  · exact final_withBody (P := (· = server)) rfl (hrefused _)
  · exact final_withParams (P := (· = server)) (by decide) _ rfl (hrefused _)

theorem onlyUser_updateById {userid : Bytes} {id : Int64} (huserid : stoll userid = .ok id)
    (update : Update) :
    OnlyUser userid server
      (final (MoDB.updateById (base.onTokens regex lookup) .User id update) server) := by
  have hupdate : final (MoDB.updateById (base.onDatabases regex) .User id update) server =
      { server with outside := final (Databases.update_one .User id update) server.outside } :=
    MoDB.final_updateById ..
  rw [Databases.final_update_one] at hupdate
  exact .inr ⟨id, Doc.update update, huserid, hupdate⟩

/-- The update works on the document the JSON's `UserId` names. -/
theorem onlyUser_UpdateUserInfo {json : Json} {userid : Bytes} {id : Int64}
    (huserid : stoll userid = .ok id) (hjson : json.int64At "UserId" = .ok id) :
    OnlyUser userid server (final (MoDB.UpdateUserInfo (base.onTokens regex lookup) json) server) := by
  have hsame : OnlyUser userid server server := .inl rfl
  unfold MoDB.UpdateUserInfo orElse500
  rw [final_attempt_pure]
  refine final_liftM_bind_of hsame fun id' hid' => ?_
  cases hjson.symm.trans hid'
  refine final_liftM_bind_of hsame fun _ _ => final_liftM_bind_of hsame fun _ _ => ?_
  refine final_liftM_bind_of hsame fun _ _ => final_liftM_bind_of hsame fun _ _ => ?_
  exact onlyUser_updateById huserid _

/-- The two ids the check compares are numbers. -/
theorem sameUser_eq_true {verifyid : Bytes} {userid : Json} (h : sameUser verifyid userid = true) :
    ∃ id, stoll verifyid = .ok id ∧ (userid.getString >>= stoll) = .ok id := by
  unfold sameUser at h
  split at h
  · next v u hv hu =>
    rw [beq_iff_eq] at h
    exact ⟨v, hv, h ▸ hu⟩
  · cases h

theorem run_doUpdateUserInfo (h : ¬ Administrator (base.onTokens regex lookup) req server) :
    OnlyUser (userOf (base.onTokens regex lookup) req server) server
      (final (doUpdateUserInfo (base.onTokens regex lookup) req) server) := by
  refine final_withBody (P := OnlyUser _ server) (.inl rfl) fun json hj => ?_
  rw [Control.UpdateUserInfo, final_guarded (UserList.IsAuthor_apply server hj.indexable hj.token),
    afterToken_onTokens]
  split
  · next hedit =>
    -- without the authority the two ids have to agree
    rw [mayEdit, Bool.and_eq_true, Bool.or_eq_true, decide_eq_true_iff] at hedit
    obtain ⟨id, huserid, hid⟩ := sameUser_eq_true (hedit.2.resolve_left (mt decide_eq_true_iff.1 h))
    refine onlyUser_UpdateUserInfo huserid ?_
    simp only [Json.int64At, Json.stringAt, Json.index_put hj.indexable, Json.index_of_indexable hj.indexable]
    exact hid
  · exact .inl rfl

/-- **Privileged operations need privilege.**  A request whose token does not resolve to an administrator
changes nothing through a privileged handler, and through `doUpdateUserInfo` at most the `User` document
of the user it resolves to. -/
theorem onRequest_of_not_administrator (h : ¬ Administrator (base.onTokens regex lookup) req server)
    (resp : HttpResponse) :
    (∀ handler, handlerOf req = some handler → handler.privileged = true →
      final (onRequest (base.onTokens regex lookup) req resp) server = server) ∧
    (handlerOf req = some .doUpdateUserInfo →
      OnlyUser (userOf (base.onTokens regex lookup) req server) server
        (final (onRequest (base.onTokens regex lookup) req resp) server)) := by
  refine ⟨fun handler hroute hprivileged => ?_, fun hroute => ?_⟩
  · rw [final_onRequest hroute]
    exact run_privileged h hprivileged
  · rw [final_onRequest hroute]
    exact run_doUpdateUserInfo h

end requests

/-! ## A member's request -/

/-- The one text that is JSON is that of the empty object. -/
def Backend.parsing : Backend Unit :=
  { Backend.idle with parse := fun text => if text = bytes "\x7b\x7d" then some ⟨.object [], rfl⟩ else none }

/-- The tokens that are stored are found. -/
def Backend.onStored : Backend (Databases Unit) :=
  Backend.parsing.onTokens (fun _ => none) fun db key t => .ok (t.redis db key)

/-- The document of user 8. -/
def otherUser : Doc where
  members := [("NickName", .str "tom"), ("SubmitNum", .ofInt 3)]
  utf8 := by decide

theorem nodup_otherUser : ([((8 : Int64), otherUser)].map Prod.fst).Nodup := by decide

/-- User 7 is no administrator; the token `t` is his. -/
def memberServer : Server (Databases Unit) where
  UserAuthorityMap := fun id => if id = 7 then 3 else 0
  m_problemid := 0
  m_commentid := 0
  m_articleid := 0
  problemtags := .null
  outside :=
    { (Databases.empty ()).setRedis .redis_token (bytes "t") (some (bytes "7")) with
      colls := fun coll => if coll = .User then ⟨[(8, otherUser)], nodup_otherUser⟩ else Rows.empty }

/-- `POST /user` for user 8, under the token `t`. -/
def deleteOther : HttpRequest :=
  { HttpRequest.new with
    method_ := .kPost
    path_ := bytes "/user"
    headers_ := Finmap.singleton (bytes "Authorization") (bytes "t")
    params_ := Finmap.singleton (bytes "UserId") (bytes "8")
    body_ := bytes "\x7b\x7d" }

/-- The request is for the deletion of a user that is there, and he stays. -/
theorem onRequest_of_not_administrator_member :
    handlerOf deleteOther = some .doDeleteUser ∧ memberServer.outside.find .User 8 = some otherUser ∧
      final (onRequest Backend.onStored deleteOther (.new false)) memberServer = memberServer := by
  have hroute : handlerOf deleteOther = some .doDeleteUser := by decide +kernel
  have hmember : ¬ Administrator Backend.onStored deleteOther memberServer := by
    unfold Administrator
    decide +kernel
  exact ⟨hroute, rfl, (onRequest_of_not_administrator hmember _).1 _ hroute rfl⟩

end Oj
end Myoj
