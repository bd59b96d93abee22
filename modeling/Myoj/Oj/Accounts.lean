import Myoj.Oj.Databases
import Myoj.Oj.ProblemConditions

/-!
# Accounts — users in two databases

Registration and login work on the table `user` of MySQL; the page, the update and the deletion of a
user on the collection `User` of MongoDB, into which nobody inserts any more.

* `UserRequest` — the five operations;
* `Account`, `History` — the registrations that were reported, beside the server;
* `OneTable` — an account can be used until it is deleted, and not after that;
* `Complete` — a registration has its five members.
-/

namespace Myoj
namespace Oj

open Effect

inductive UserRequest where
  | RegisterUser (registerjson : Json)
  | LoginUser (loginjson : Json)
  | SelectUserInfo (queryjson : Json)
  | UpdateUserInfo (updatejson : Json)
  | DeleteUser (deletejson : Json)

/-- What a registration was reported for. -/
structure Account where
  id : Int64
  username : Bytes
  nickname : Bytes
  password : Bytes
  deleted : Bool

structure History (S : Type) where
  server : Server S
  accounts : List Account

/-- `resjson["Result"]` says so. -/
def succeeded (resjson : Json) : Bool := (resjson.member "Result").eqString "Success"

theorem succeeded_iff {resjson : Json} :
    succeeded resjson = true ↔ resjson.member "Result" = .str "Success" := by
  rw [succeeded]
  cases resjson.member "Result" <;> simp [Json.eqString, Json.str]

theorem not_succeeded_failure {result : String} (hresult : result ≠ "Success") (reason : String) :
    succeeded (failure result reason) = false := by
  rw [Bool.eq_false_iff, Ne, succeeded_iff, member_failure]
  simpa using hresult

theorem not_succeeded_caught (reason : String) : succeeded (caught .null reason) = false := by
  rw [Bool.eq_false_iff, Ne, succeeded_iff, member_caught rfl]
  simp

namespace UserRequest

variable {S : Type} (b : Backend S)

def run : UserRequest → Action S Json
  | .RegisterUser registerjson => Control.RegisterUser b registerjson
  | .LoginUser loginjson => Control.LoginUser b loginjson
  | .SelectUserInfo queryjson => Control.SelectUserInfo b queryjson
  | .UpdateUserInfo updatejson => Control.UpdateUserInfo b updatejson
  | .DeleteUser deletejson => Control.DeleteUser b deletejson

/-- The account a registration was reported for. -/
def registered (registerjson resjson : Json) : Except Exception Account := do
  let id ← (← resjson.index "Id").getInt64
  let username ← registerjson.stringAt "username"
  let nickname ← registerjson.stringAt "nickname"
  let password ← registerjson.stringAt "password"
  return { id, username, nickname, password, deleted := false }

/-- What is to be remembered of a request that succeeded. -/
def note (req : UserRequest) (resjson : Json) (accounts : List Account) : List Account :=
  match req with
  | .RegisterUser registerjson =>
      match registered registerjson resjson with
      | .ok account => accounts ++ [account]
      | .error _ => accounts
  | .DeleteUser deletejson =>
      accounts.map fun account =>
        if deletejson.int64At "UserId" = .ok account.id then { account with deleted := true } else account
  | _ => accounts

def step (history : History S) (req : UserRequest) : History S :=
  match req.run b history.server with
  | .ok resjson server =>
      { server, accounts :=
          if succeeded resjson then req.note resjson history.accounts else history.accounts }
  | .error _ server => { history with server }

/-! ## One table of users -/

/-- The account is shown, can log in, and an administrator can delete it. -/
structure Usable (server : Server S) (account : Account) : Prop where
  shown : ∀ queryjson : Json, queryjson.member "UserId" = .string (Numerals.to_string account.id.toInt) →
    Returns (Control.SelectUserInfo b queryjson) server fun resjson _ =>
      succeeded resjson = true ∧ resjson.member "NickName" = .string account.nickname
  logsIn : ∀ loginjson : Json, loginjson.member "username" = .string account.username →
    loginjson.member "password" = .string account.password →
      Returns (Control.LoginUser b loginjson) server fun resjson _ => succeeded resjson = true
  deletable : ∀ deletejson : Json,
    deletejson.member "UserId" = .string (Numerals.to_string account.id.toInt) →
      (Returns (UserList.IsAdministrator b deletejson) server fun check _ => check.1 = true) →
        Returns (Control.DeleteUser b deletejson) server fun resjson _ => succeeded resjson = true

/-- Nobody logs in with the account. -/
def Closed (server : Server S) (account : Account) : Prop :=
  ∀ loginjson : Json, loginjson.member "username" = .string account.username →
    ¬ Returns (Control.LoginUser b loginjson) server fun resjson _ => succeeded resjson = true

def OneTable (history : History S) : Prop :=
  ∀ account ∈ history.accounts,
    (account.deleted = false → Usable b history.server account) ∧
      (account.deleted = true → Closed b history.server account)

/-- The members a registration reads are strings. -/
def Complete (registerjson : Json) : Prop :=
  ∀ k ∈ ["username", "nickname", "password", "school", "major"],
    ∃ text, registerjson.member k = .string text

section databases

variable {base : Backend S} {regex : Bytes → Option (Bytes → Bool)} {server : Server (Databases S)}

/-- Nobody is found in an empty collection. -/
theorem not_usable (hempty : server.outside.colls .User = Rows.empty) (account : Account) :
    ¬ Usable (base.onDatabases regex) server account := by
  intro husable
  have hshown := husable.shown (.object [("UserId", .string (Numerals.to_string account.id.toInt))]) rfl
  have hnobody : ∀ id, (server.outside.colls .User).get? id = none := by
    intro id
    rw [hempty, Rows.get?_empty]
  simp only [Control.SelectUserInfo, MoDB.SelectUserInfo] at hshown
  rw [returns_iff_of_ok (MoDB.selectById_apply ..)] at hshown
  cases hid : (Json.object [("UserId", .string (Numerals.to_string account.id.toInt))]).int64At "UserId" with
  | error e =>
      simp only [hid, not_succeeded_caught] at hshown
      cases hshown.1
  | ok id =>
      simp only [hid, hnobody, MoDB.foundDoc, not_succeeded_failure (by decide : "Fail" ≠ "Success")] at hshown
      cases hshown.1

/-- The state behind a run in which nothing was registered. -/
structure Inv (history : History (Databases S)) : Prop where
  nobody : history.server.outside.colls .User = Rows.empty
  open_ : ∀ account ∈ history.accounts, account.deleted = false
  fresh : history.accounts = [] → history.server.outside.user = []

theorem oneTable_iff {history : History (Databases S)} (h : Inv history) :
    OneTable (base.onDatabases regex) history ↔ history.accounts = [] := by
  constructor
  · intro hone
    refine List.eq_nil_iff_forall_not_mem.2 fun account hmem => ?_
    exact not_usable h.nobody account ((hone account hmem).1 (h.open_ account hmem))
  · intro hnil account hmem
    rw [hnil] at hmem
    cases hmem

/-! ## Registrations -/

variable (base regex) in
/-- A registration without one of its members is caught before anything is asked. -/
theorem RegisterUser_of_not_complete {registerjson : Json} (h : ¬ Complete registerjson) :
    Control.RegisterUser (base.onDatabases regex) registerjson server =
      .ok (caught .null "数据库异常！") server := by
  have hmysql : MysqlDataBase.RegisterUser (base.onDatabases regex) registerjson server =
      .ok (caught .null "数据库异常！") server := by
    simp only [MysqlDataBase.RegisterUser, orElse500, attempt, bind_apply]
    cases husername : registerjson.stringAt "username" with
    | error e =>
        rfl
    | ok username =>
        cases hnickname : registerjson.stringAt "nickname" with
        | error e =>
            rfl
        | ok nickname =>
            cases hpassword : registerjson.stringAt "password" with
            | error e =>
                rfl
            | ok password =>
                cases hschool : registerjson.stringAt "school" with
                | error e =>
                    rfl
                | ok school =>
                    cases hmajor : registerjson.stringAt "major" with
                    | error e =>
                        rfl
                    | ok major =>
                        refine absurd ?_ h
                        intro k hk
                        simp only [List.mem_cons, List.not_mem_nil, or_false] at hk
                        rcases hk with rfl | rfl | rfl | rfl | rfl
                        · exact ⟨username, stringAt_eq_ok_iff.1 husername⟩
                        · exact ⟨nickname, stringAt_eq_ok_iff.1 hnickname⟩
                        · exact ⟨password, stringAt_eq_ok_iff.1 hpassword⟩
                        · exact ⟨school, stringAt_eq_ok_iff.1 hschool⟩
                        · exact ⟨major, stringAt_eq_ok_iff.1 hmajor⟩
  rw [Control.RegisterUser, UserList.RegisterUser, bind_of_ok hmysql]
  rfl

variable (base regex) in
/-- The first complete registration is a success. -/
theorem RegisterUser_of_complete (huser : server.outside.user = []) {registerjson : Json}
    (h : Complete registerjson) :
    ∃ resjson server' account, Control.RegisterUser (base.onDatabases regex) registerjson server =
      .ok resjson server' ∧ succeeded resjson = true ∧ registered registerjson resjson = .ok account := by
  obtain ⟨username, husername⟩ := h "username" (by simp)
  obtain ⟨nickname, hnickname⟩ := h "nickname" (by simp)
  obtain ⟨password, hpassword⟩ := h "password" (by simp)
  obtain ⟨school, hschool⟩ := h "school" (by simp)
  obtain ⟨major, hmajor⟩ := h "major" (by simp)
  have hmysql : ∃ server' : Server (Databases S),
      MysqlDataBase.RegisterUser (base.onDatabases regex) registerjson server =
        .ok ((failure "Success" "注册成功！").put "Id" (.ofInt 1)) server' := by
    -- nobody has the name or the nickname yet
    have hname : call ((base.onDatabases regex).queryByUserName username) server = .ok none server := by
      simp only [call, Backend.onDatabases, Databases.reads, huser, List.find?_nil]
    have hnick : call ((base.onDatabases regex).queryNickName nickname) server = .ok false server := by
      simp only [call, Backend.onDatabases, Databases.reads, huser, List.any_nil]
    have hinsert : ∀ user, call ((base.onDatabases regex).insertUser user) server =
        .ok (some 1) { server with outside := { server.outside with user := [{ user with id := 1 }] } } := by
      intro user
      simp only [call, Backend.onDatabases, Databases.insertUser, huser]
      rfl
    simp only [MysqlDataBase.RegisterUser, orElse500, attempt, stringAt_of_member husername,
      stringAt_of_member hnickname, stringAt_of_member hpassword, stringAt_of_member hschool,
      stringAt_of_member hmajor, bind_of_ok liftM_ok_apply, bind_of_ok hname, bind_of_ok hnick,
      bind_of_ok (hinsert _), Option.isSome_none, Bool.false_eq_true, if_false]
    exact ⟨_, rfl⟩
  obtain ⟨server', hmysql⟩ := hmysql
  refine ⟨(failure "Success" "注册成功！").put "Id" (.ofInt 1),
    { server' with UserAuthorityMap := fun id => if id = 1 then 3 else server'.UserAuthorityMap id },
    { id := 1, username, nickname, password, deleted := false }, ?_, ?_, ?_⟩
  · rw [Control.RegisterUser, UserList.RegisterUser, bind_of_ok hmysql]
    rfl
  · rfl
  · simp only [registered, stringAt_of_member husername, stringAt_of_member hnickname,
      stringAt_of_member hpassword]
    rfl

/-! ## The other requests -/

/-- The table is left alone, and the collection stays empty if it is. -/
def Spares (server server' : Server (Databases S)) : Prop :=
  server'.outside.user = server.outside.user ∧
    (server.outside.colls .User = Rows.empty → server'.outside.colls .User = Rows.empty)

theorem Spares.refl (server : Server (Databases S)) : Spares server server := ⟨rfl, fun h => h⟩

instance : IsPreorder (Server (Databases S)) Spares where
  refl := Spares.refl
  trans := fun _ _ _ h h' => ⟨h'.1.trans h.1, fun hempty => h'.2 (h.2 hempty)⟩

theorem find_of_empty {t : Databases S} (hempty : t.colls .User = Rows.empty) (id : Int64) :
    t.find .User id = none := by
  rw [Databases.find, hempty, Rows.get?_empty]

/-- Nothing is updated in an empty collection, and nothing deleted. -/
theorem spares_update_one (id : Int64) (update : Update) :
    Within (Spares (S := S)) (call (Databases.update_one .User id update)) := by
  intro server
  rw [final_call, Databases.final_update_one]
  refine ⟨rfl, fun hempty => ?_⟩
  rw [Databases.colls_setColl, if_pos rfl, Rows.modify_of_fixed, hempty]
  intro doc hdoc
  cases (find_of_empty hempty id).symm.trans hdoc

theorem spares_delete_one (id : Int64) : Within (Spares (S := S)) (call (Databases.delete_one .User id)) := by
  intro server
  rw [final_call, Databases.final_delete_one]
  refine ⟨rfl, fun hempty => ?_⟩
  rw [Databases.colls_setColl, if_pos rfl, Rows.erase_of_none (find_of_empty hempty id), hempty]

variable (base regex) in
theorem keeps_get {γ : Type} {v : Server (Databases S) → γ} (token : Bytes) :
    Keeps v (call ((base.onDatabases regex).get .redis_token token)) :=
  keeps_reads fun t => .ok (t.redis .redis_token token)

theorem within_LoginUser (json : Json) : Within Spares (Control.LoginUser (base.onDatabases regex) json) := by
  have hmysql : Within Spares (MysqlDataBase.LoginUser (base.onDatabases regex) json) := by
    refine Within.attempt_pure (Within.bind (Within.liftM _) fun username => ?_) _
    refine Within.bind (Within.liftM _) fun password => ?_
    have hquery : Keeps (fun server => server) (call ((base.onDatabases regex).queryByUserName username)) :=
      keeps_reads fun t => .ok (t.user.find? fun u => u.username = username)
    refine Within.bind (Within.of_keeps hquery) fun user => ?_
    cases user with
    | none =>
        exact Within.pure _
    | some user =>
        simp only
        split
        · exact Within.pure _
        · exact Within.pure _
  refine Within.bind hmysql fun resjson => Within.bind (Within.liftM _) fun result => ?_
  split
  · refine Within.bind (fun server => Spares.refl server) fun token => ?_
    refine Within.bind (Within.liftM _) fun info => Within.bind (Within.liftM _) fun value => ?_
    refine Within.bind (Within.liftM _) fun id => ?_
    refine Within.bind (Within.attempt_pure (Within.bind (fun server => ?_) fun _ => Within.pure _) _)
      fun _ => ?_
    · rw [final_call]
      exact Spares.refl server
    · exact Within.bind (Within.liftM _) fun info => Within.liftM _
  · exact Within.pure _

theorem within_guarded {check : Json → Action (Databases S) (Bool × Json)}
    {act : Json → Action (Databases S) Json} (hcheck : ∀ json, Within Spares (check json))
    (hact : ∀ json, Within Spares (act json)) (json : Json) :
    Within Spares (Control.guarded check act json) := by
  refine Within.bind (hcheck json) fun result => ?_
  obtain ⟨_ | _, json⟩ := result
  · exact Within.pure _
  · exact hact json

theorem within_UpdateUserInfo (json : Json) :
    Within Spares (Control.UpdateUserInfo (base.onDatabases regex) json) := by
  refine within_guarded (fun json => Within.of_keeps (UserList.keeps_IsAuthor (keeps_get base regex) json))
    (fun json => ?_) json
  refine Within.attempt_pure (Within.bind (Within.liftM _) fun userid => ?_) _
  refine Within.bind (Within.liftM _) fun avatar => Within.bind (Within.liftM _) fun profile => ?_
  refine Within.bind (Within.liftM _) fun school => Within.bind (Within.liftM _) fun major => ?_
  exact Within.bind (spares_update_one _ _) fun _ => Within.pure _

theorem within_DeleteUser (json : Json) :
    Within Spares (Control.DeleteUser (base.onDatabases regex) json) := by
  refine within_guarded (fun json => Within.of_keeps (UserList.keeps_IsAdministrator (keeps_get base regex) json))
    (fun json => ?_) json
  refine Within.bind (Within.attempt_pure (Within.bind (Within.liftM _) fun id => ?_) _) fun resjson => ?_
  · refine Within.bind (spares_delete_one _) fun deleted => ?_
    split
    · exact Within.pure _
    · exact Within.pure _
  · refine Within.bind (Within.liftM _) fun result => ?_
    split
    · refine Within.bind (Within.liftM _) fun id => Within.bind (fun server => ?_) fun _ => Within.pure _
      exact Spares.refl server
    · exact Within.pure _

theorem within_SelectUserInfo (json : Json) :
    Within Spares (Control.SelectUserInfo (base.onDatabases regex) json) := by
  intro server
  rw [Control.SelectUserInfo, MoDB.SelectUserInfo, final_of_ok (MoDB.selectById_apply ..)]
  exact Spares.refl server

/-- Nobody is deleted from an empty collection. -/
theorem not_succeeded_DeleteUser (hempty : server.outside.colls .User = Rows.empty) {json resjson : Json}
    {server' : Server (Databases S)}
    (h : Control.DeleteUser (base.onDatabases regex) json server = .ok resjson server') :
    succeeded resjson = false := by
  have hact : ∀ json, Returns (UserList.DeleteUser (base.onDatabases regex) json) server
      fun resjson _ => succeeded resjson = false := by
    intro json
    have hdelete := MoDB.deleteById_apply base regex .User "UserId" "数据库未查询到该数据！" json server
    rw [UserList.DeleteUser, MoDB.DeleteUser, returns_bind]
    cases hid : json.int64At "UserId" with
    | error e =>
        rw [hid] at hdelete
        rw [returns_iff_of_ok hdelete]
        exact ⟨_, server, rfl, not_succeeded_caught _⟩
    | ok id =>
        rw [hid] at hdelete
        simp only [find_of_empty hempty] at hdelete
        rw [returns_iff_of_ok hdelete]
        exact ⟨_, _, rfl, not_succeeded_failure (by decide) _⟩
  have hcheck : ∀ result server₁, UserList.IsAdministrator (base.onDatabases regex) json server =
      .ok result server₁ → server₁ = server := by
    intro result server₁ hresult
    have hsame := UserList.keeps_IsAdministrator (v := id) (keeps_get base regex) json server
    rw [final_of_ok hresult] at hsame
    exact hsame
  rw [Control.DeleteUser, Control.guarded] at h
  cases hresult : UserList.IsAdministrator (base.onDatabases regex) json server with
  | error e server₁ =>
      rw [bind_apply, hresult] at h
      cases h
  | ok result server₁ =>
      cases hcheck result server₁ hresult
      rw [bind_of_ok hresult] at h
      obtain ⟨_ | _, json'⟩ := result
      · cases h
        exact not_succeeded_failure (by decide) _
      · exact (returns_iff_of_ok h).1 (hact json')

/-! ## Runs -/

theorem server_step (history : History S) (req : UserRequest) :
    (step b history req).server = final (req.run b) history.server := by
  simp only [step, final]
  cases req.run b history.server <;> rfl

theorem open_of_registered {registerjson resjson : Json} {account : Account}
    (h : registered registerjson resjson = .ok account) : account.deleted = false := by
  simp only [registered, except_bind_eq_ok_iff] at h
  obtain ⟨value, -, id, -, username, -, nickname, -, password, -, h⟩ := h
  cases h
  rfl

variable (base regex) in
theorem colls_RegisterUser (json : Json) :
    Keeps (fun server => server.outside.colls) (Control.RegisterUser (base.onDatabases regex) json) := by
  have hname : ∀ username, Keeps (fun server => server.outside.colls)
      (call ((base.onDatabases regex).queryByUserName username)) :=
    fun username => keeps_reads fun t => .ok (t.user.find? fun u => u.username = username)
  have hnick : ∀ nickname, Keeps (fun server => server.outside.colls)
      (call ((base.onDatabases regex).queryNickName nickname)) :=
    fun nickname => keeps_reads fun t => .ok (t.user.any fun u => u.nickname = nickname)
  have hmysql : Keeps (fun server => server.outside.colls)
      (MysqlDataBase.RegisterUser (base.onDatabases regex) json) := by
    refine Keeps.attempt_pure (Keeps.bind (Keeps.liftM _) fun username => ?_) _
    refine Keeps.bind (Keeps.liftM _) fun nickname => Keeps.bind (Keeps.liftM _) fun password => ?_
    refine Keeps.bind (Keeps.liftM _) fun school => Keeps.bind (Keeps.liftM _) fun major => ?_
    refine Keeps.bind (hname username) fun user => ?_
    split
    · exact Keeps.pure _
    · refine Keeps.bind (hnick nickname) fun taken => ?_
      split
      · exact Keeps.pure _
      · refine Keeps.bind (fun _ => rfl) fun id => ?_
        cases id with
        | none =>
            exact Keeps.pure _
        | some id =>
            exact Keeps.pure _
  refine Keeps.bind hmysql fun resjson => Keeps.bind (Keeps.liftM _) fun result => ?_
  split
  · refine Keeps.bind (Keeps.liftM _) fun value => Keeps.bind (Keeps.liftM _) fun id => ?_
    exact Keeps.bind (fun _ => rfl) fun _ => Keeps.pure _
  · exact Keeps.pure _

/-- The first complete registration makes an account; nothing else does. -/
theorem accounts_step {history : History (Databases S)} (h : Inv history) (req : UserRequest)
    (hnone : history.accounts = []) :
    (step (base.onDatabases regex) history req).accounts = [] ↔
      ∀ registerjson, req = .RegisterUser registerjson → ¬ Complete registerjson := by
  -- only a registration adds an account
  have hsame : (∀ resjson accounts, req.note resjson accounts = accounts) →
      (step (base.onDatabases regex) history req).accounts = [] := by
    intro hnote
    simp only [step]
    cases req.run (base.onDatabases regex) history.server with
    | ok resjson server =>
        simp only [hnote, ite_self, hnone]
    | error e server =>
        exact hnone
  cases req with
  | RegisterUser json =>
      simp only [step, run, UserRequest.RegisterUser.injEq]
      by_cases hcomplete : Complete json
      · obtain ⟨resjson, server', account, hrun, hsucceeded, hregistered⟩ :=
          RegisterUser_of_complete base regex (h.fresh hnone) hcomplete
        simp [hrun, hsucceeded, note, hregistered, hcomplete]
      · simp [RegisterUser_of_not_complete base regex hcomplete, not_succeeded_caught, hnone, hcomplete]
  | LoginUser json =>
      exact iff_of_true (hsame fun _ _ => rfl) fun _ hreq => by cases hreq
  | SelectUserInfo json =>
      exact iff_of_true (hsame fun _ _ => rfl) fun _ hreq => by cases hreq
  | UpdateUserInfo json =>
      exact iff_of_true (hsame fun _ _ => rfl) fun _ hreq => by cases hreq
  | DeleteUser json =>
      refine iff_of_true ?_ fun _ hreq => by cases hreq
      simp only [step]
      cases run (base.onDatabases regex) (.DeleteUser json) history.server with
      | ok resjson server =>
          simp [note, hnone]
      | error e server =>
          exact hnone

theorem accounts_of_note {req : UserRequest} {resjson : Json} {accounts : List Account}
    (h : req.note resjson accounts = []) : accounts = [] := by
  cases req with
  | RegisterUser json =>
      simp only [note] at h
      split at h
      · simp at h
      · exact h
  | DeleteUser json =>
      exact List.map_eq_nil_iff.1 h
  | LoginUser json =>
      exact h
  | SelectUserInfo json =>
      exact h
  | UpdateUserInfo json =>
      exact h

theorem accounts_of_step {history : History S} {req : UserRequest}
    (h : (step b history req).accounts = []) : history.accounts = [] := by
  simp only [step] at h
  cases hrun : req.run b history.server with
  | ok resjson server =>
      simp only [hrun] at h
      split at h
      · exact accounts_of_note h
      · exact h
  | error e server =>
      simpa only [hrun] using h

/-- No account is ever deleted. -/
theorem open_step {history : History (Databases S)} (h : Inv history) (req : UserRequest) :
    ∀ account ∈ (step (base.onDatabases regex) history req).accounts, account.deleted = false := by
  intro account hmem
  simp only [step] at hmem
  cases hrun : req.run (base.onDatabases regex) history.server with
  | error e server =>
      simp only [hrun] at hmem
      exact h.open_ account hmem
  | ok resjson server =>
      simp only [hrun] at hmem
      split at hmem
      · next hsucceeded =>
        cases req with
        | RegisterUser json =>
            simp only [note] at hmem
            split at hmem
            · next new hregistered =>
              rcases List.mem_append.1 hmem with hold | hnew
              · exact h.open_ account hold
              · rw [List.mem_singleton.1 hnew]
                exact open_of_registered hregistered
            · exact h.open_ account hmem
        | DeleteUser json =>
            rw [not_succeeded_DeleteUser h.nobody hrun] at hsucceeded
            cases hsucceeded
        | LoginUser json =>
            exact h.open_ account hmem
        | SelectUserInfo json =>
            exact h.open_ account hmem
        | UpdateUserInfo json =>
            exact h.open_ account hmem
      · exact h.open_ account hmem

theorem inv_step {history : History (Databases S)} (h : Inv history) (req : UserRequest) :
    Inv (step (base.onDatabases regex) history req) := by
  -- the other requests leave the table of MySQL as it is
  have hspares : Within Spares (req.run (base.onDatabases regex)) →
      Inv (step (base.onDatabases regex) history req) := by
    intro hwithin
    obtain ⟨huser, hcoll⟩ := hwithin history.server
    refine ⟨?_, open_step h req, fun hnone => ?_⟩
    · rw [server_step]
      exact hcoll h.nobody
    · rw [server_step, huser]
      exact h.fresh (accounts_of_step _ hnone)
  cases req with
  | LoginUser json =>
      exact hspares (within_LoginUser json)
  | SelectUserInfo json =>
      exact hspares (within_SelectUserInfo json)
  | UpdateUserInfo json =>
      exact hspares (within_UpdateUserInfo json)
  | DeleteUser json =>
      exact hspares (within_DeleteUser json)
  | RegisterUser json =>
      refine ⟨?_, open_step h _, fun hnone => ?_⟩
      · have hcolls := congrFun (colls_RegisterUser base regex json history.server) .User
        rw [server_step]
        exact hcolls.trans h.nobody
      · -- without an account there was no complete registration
        have hbefore := accounts_of_step _ hnone
        have hcomplete := (accounts_step h _ hbefore).1 hnone json rfl
        rw [server_step, run, final_of_ok (RegisterUser_of_not_complete base regex hcomplete)]
        exact h.fresh hbefore

/-- **One user table.**  From empty databases, what was registered can be used until it is deleted
throughout a run, precisely when no registration of the run has its five members: the first one that
does makes an account nobody can look up or delete. -/
theorem oneTable_throughout_iff (hcoll : server.outside.colls .User = Rows.empty)
    (huser : server.outside.user = []) (reqs : List UserRequest) :
    Runs.Throughout (step (base.onDatabases regex)) (OneTable (base.onDatabases regex)) ⟨server, []⟩ reqs ↔
      ∀ registerjson, .RegisterUser registerjson ∈ reqs → ¬ Complete registerjson := by
  have hinv : Inv ⟨server, []⟩ := ⟨hcoll, fun account hmem => (List.not_mem_nil hmem).elim, fun _ => huser⟩
  have hguarded : Runs.Guarded (step (base.onDatabases regex))
      (fun _ req => ∀ registerjson, req = .RegisterUser registerjson → ¬ Complete registerjson)
      ⟨server, []⟩ reqs ↔
      Runs.Throughout (step (base.onDatabases regex)) (OneTable (base.onDatabases regex)) ⟨server, []⟩ reqs := by
    refine Runs.guarded_iff_throughout (I := Inv) (fun history req h => inv_step h req)
      (fun history req h hone => ?_) hinv ((oneTable_iff hinv).2 rfl)
    rw [oneTable_iff (inv_step h req)]
    exact accounts_step h req ((oneTable_iff h).1 hone)
  rw [← hguarded, Runs.guarded_const_iff]
  constructor
  · intro hall registerjson hmem
    exact hall _ hmem registerjson rfl
  · rintro hall req hmem registerjson rfl
    exact hall registerjson hmem

end databases

/-! ## A first user -/

/-- Nobody has registered. -/
def noUsers : Server (Databases Unit) where
  UserAuthorityMap := fun _ => 0
  m_problemid := 0
  m_commentid := 0
  m_articleid := 0
  problemtags := .null
  outside := .empty ()

def registration : Json :=
  .object [("username", .str "ann"), ("nickname", .str "Ann"), ("password", .str "secret"),
    ("school", .str "XD"), ("major", .str "CS")]

theorem oneTable_throughout_iff_registration :
    Runs.Throughout (step (Backend.idle.onDatabases fun _ => none))
        (OneTable (Backend.idle.onDatabases fun _ => none)) ⟨noUsers, []⟩ [.RegisterUser registration] ↔
      ∀ registerjson, .RegisterUser registerjson ∈ [UserRequest.RegisterUser registration] →
        ¬ Complete registerjson :=
  oneTable_throughout_iff rfl rfl _

/-- The page of the first user is not found. -/
theorem registered_not_shown :
    ¬ Runs.Throughout (step (Backend.idle.onDatabases fun _ => none))
      (OneTable (Backend.idle.onDatabases fun _ => none)) ⟨noUsers, []⟩ [.RegisterUser registration] := by
  rintro ⟨-, hone⟩
  have hinv : Inv ⟨noUsers, []⟩ := ⟨rfl, fun account hmem => (List.not_mem_nil hmem).elim, fun _ => rfl⟩
  have hnone := (oneTable_iff (inv_step hinv _)).1 hone
  have hcomplete : Complete registration := by
    intro k hk
    simp only [List.mem_cons, List.not_mem_nil, or_false] at hk
    rcases hk with rfl | rfl | rfl | rfl | rfl <;> exact ⟨_, rfl⟩
  exact (accounts_step hinv _ rfl).1 hnone registration rfl hcomplete

end UserRequest

end Oj
end Myoj
