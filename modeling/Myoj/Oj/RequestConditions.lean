import Myoj.Judge.Reasons
import Myoj.Oj.ProblemConditions

/-!
# RequestConditions — when logins, submissions and comments come back with a result

* `UserUtf8` — what a login shows of a user can be dumped;
* `SubmissionAnswers` — a submission loads, and the text it is rejected with can be dumped;
* `CommentMissing` — a comment that is to be deleted is neither a father nor a son.
-/

namespace Myoj
namespace Oj

open Effect
open MysqlDataBase (userInfo loggedIn)

variable {S : Type} {b : Backend S}

theorem answers_ok {j : Json} {server : Server S} :
    Answers (liftM (.ok j : Except Exception Json)) server ↔ Answerable j :=
  returns_iff_of_ok liftM_ok_apply

/-! ## Users -/

/-- A registration that succeeded has a number under `Id`. -/
theorem always_RegisterUser_id (json : Json) :
    Always (MysqlDataBase.RegisterUser b json) fun j =>
      Answerable j ∧ (j.member "Result" = .str "Success" → ∃ id, (j.member "Id").getInt64 = .ok id) := by
  -- every result but the last is a failure
  have hfail : ∀ reason : String, Answerable (failure "Fail" reason) ∧
      ((failure "Fail" reason).member "Result" = .str "Success" →
        ∃ id, ((failure "Fail" reason).member "Id").getInt64 = .ok id) := by
    intro reason
    refine ⟨answerable_failure _ _, fun h => ?_⟩
    rw [member_failure] at h
    simp at h
  refine always_attempt ?_ fun _ => always_pure ⟨answerable_caught rfl _, fun h => ?_⟩
  · iterate 5 refine yields_bind fun _ => ?_
    refine yields_bind fun found => ?_
    split
    · exact yields_pure (hfail _)
    · refine yields_bind fun nickname => ?_
      split
      · exact yields_pure (hfail _)
      · refine yields_bind fun inserted => ?_
        split
        · exact yields_pure (hfail _)
        · rename_i id
          refine yields_pure ⟨(answerable_failure _ _).put (by decide) rfl, fun _ => ?_⟩
          rw [Json.member_put (indexable_failure _ _), if_pos rfl]
          exact ⟨_, rfl⟩
  · rw [member_caught rfl] at h
    simp at h

theorem always_setAuthority (id : Int64) (authority : Int32) :
    Always (UserList.setAuthority id authority : Action S Unit) fun _ => True :=
  fun _ => ⟨_, _, rfl, trivial⟩

theorem always_RegisterUser (json : Json) : Always (UserList.RegisterUser b json) Answerable := by
  refine (always_RegisterUser_id json).bind fun j hj => ?_
  rcases hj with ⟨hans, hid⟩
  rcases hans.1 with ⟨result, hresult⟩
  intro server
  rw [stringAt_of_member hresult, returns_bind, returns_iff_of_ok liftM_ok_apply]
  -- a success has its id read, which is there
  split
  · rename_i hsuccess
    rcases hid (by rw [hresult, hsuccess, Json.str]) with ⟨id, hid⟩
    rw [Json.index_of_indexable hans.indexable, returns_bind, returns_iff_of_ok liftM_ok_apply, hid,
      returns_bind, returns_iff_of_ok liftM_ok_apply]
    exact (always_setAuthority id 3).bind (fun _ _ => always_pure hans) server
  · exact returns_pure.2 hans

/-- A deletion that succeeded was of a number. -/
theorem always_DeleteUser_id (json : Json) :
    Always (MoDB.DeleteUser b json) fun j =>
      Answerable j ∧ (j.member "Result" = .str "Success" → ∃ id, json.int64At "UserId" = .ok id) := by
  have hfail : ∀ r reason : String, r ≠ "Success" → Answerable (failure r reason) ∧
      ((failure r reason).member "Result" = .str "Success" →
        ∃ id, json.int64At "UserId" = .ok id) := by
    intro r reason hr
    refine ⟨answerable_failure _ _, fun h => ?_⟩
    rw [member_failure] at h
    simp [hr] at h
  refine always_attempt ?_ fun _ => always_pure (hfail "500" "数据库异常！" (by decide))
  cases json.int64At "UserId" with
  | error e =>
      intro server j server' h
      cases h
  | ok id =>
      refine yields_bind fun _ => yields_bind fun deleted => ?_
      split
      · exact yields_pure ⟨answerable_failure _ _, fun _ => ⟨id, rfl⟩⟩
      · exact yields_pure ⟨answerable_success rfl, fun _ => ⟨id, rfl⟩⟩

theorem always_DeleteUser (json : Json) : Always (UserList.DeleteUser b json) Answerable := by
  refine (always_DeleteUser_id json).bind fun j hj => ?_
  rcases hj with ⟨hans, hid⟩
  rcases hans.1 with ⟨result, hresult⟩
  intro server
  rw [stringAt_of_member hresult, returns_bind, returns_iff_of_ok liftM_ok_apply]
  split
  · rename_i hsuccess
    rcases hid (by rw [hresult, hsuccess, Json.str]) with ⟨id, hid⟩
    rw [hid, returns_bind, returns_iff_of_ok liftM_ok_apply]
    exact (always_setAuthority id 0).bind (fun _ _ => always_pure hans) server
  · exact returns_pure.2 hans

/-- The texts of a row that a login shows. -/
def UserUtf8 (user : User) : Prop :=
  Json.validUtf8 user.username ∧ Json.validUtf8 user.nickname ∧ Json.validUtf8 user.school ∧
    Json.validUtf8 user.major

theorem dumpable_userInfo_iff (user : User) :
    (userInfo user).dumpable = true ↔ UserUtf8 user := by
  simp [userInfo, UserUtf8, Json.dumpable, Json.dumpableMembers, Json.ofInt]

theorem answerable_loggedIn_iff (user : User) :
    Answerable (loggedIn user) ↔ UserUtf8 user := by
  simp [Answerable, loggedIn, Json.put, Json.assign, Json.dumpable,
    Json.dumpableMembers, Json.member, Json.str, dumpable_userInfo_iff, Json.validUtf8_bytes]

/-- What follows a login that did not succeed. -/
theorem answers_after_login {json : Json} {r : String} (hans : Answerable json)
    (hr : json.member "Result" = .str r) (hne : r ≠ "Success") (server : Server S) :
    Answers (do
      if (← json.index "Result").eqString "Success" then
        let token ← affect b.nextid
        let info ← json.index "Info"
        let id ← (← info.index "id").getUInt64
        let _ ← ReDB.SetToken b (Numerals.to_string token.toInt) (Numerals.to_string id.toNat)
        json.set "Info" (← info.set "Token" (.string (Numerals.to_string token.toInt)))
      else
        return json) server := by
  rw [Json.index_of_indexable hans.indexable, answers_bind, returns_iff_of_ok liftM_ok_apply,
    eqString_of_member "Success" hr, decide_eq_false hne]
  exact answers_pure.2 hans

theorem always_SetToken (token userid : Bytes) : Always (ReDB.SetToken b token userid) fun _ => True :=
  always_attempt (fun _ _ _ _ => trivial) fun _ => always_pure trivial

/-- A login that did succeed gets a token; its result is dumped with the texts of the row. -/
theorem answers_after_loggedIn_iff (user : User) (server : Server S) :
    Answers (do
      if (← (loggedIn user).index "Result").eqString "Success" then
        let token ← affect b.nextid
        let info ← (loggedIn user).index "Info"
        let id ← (← info.index "id").getUInt64
        let _ ← ReDB.SetToken b (Numerals.to_string token.toInt) (Numerals.to_string id.toNat)
        (loggedIn user).set "Info"
          (← info.set "Token" (.string (Numerals.to_string token.toInt)))
      else
        return loggedIn user) server ↔ UserUtf8 user := by
  -- every access finds what it asks for, so only the texts count
  have hresult : (loggedIn user).index "Result" = .ok (.str "Success") := rfl
  have hinfo : (loggedIn user).index "Info" = .ok (userInfo user) := rfl
  have hid : (userInfo user).index "id" = .ok (.ofInt user.id.toInt) := rfl
  have hnum : (Json.ofInt user.id.toInt).getUInt64 = .ok (Int64.ofInt user.id.toInt).toUInt64 := rfl
  have htoken : ∀ v, (userInfo user).set "Token" v = .ok ((userInfo user).put "Token" v) :=
    fun _ => rfl
  have hset : ∀ v, (loggedIn user).set "Info" v = .ok ((loggedIn user).put "Info" v) := fun _ => rfl
  have hans : ∀ token, Answerable ((loggedIn user).put "Info"
      ((userInfo user).put "Token" (.string (Numerals.to_string token)))) ↔ UserUtf8 user := by
    intro token
    simp [Answerable, loggedIn, userInfo, UserUtf8, Json.put, Json.assign, Json.dumpable,
      Json.dumpableMembers, Json.member, Json.str, Json.ofInt, Json.validUtf8_bytes,
      Json.validUtf8_to_string]
  rw [hresult, answers_bind, returns_iff_of_ok liftM_ok_apply,
    if_pos (by simp [Json.str, Json.eqString])]
  simp only [hinfo, hid, hnum, htoken, hset, hans, answers_bind, answers_ok, returns_liftM,
    Except.ok.injEq, exists_eq_left', returns_affect, (always_SetToken _ _).returns_const_iff]

/-- The row a query answers with. -/
def foundUser : EStateM.Result Exception S (Option User) → Option User
  | .ok found _ => found
  | .error _ _ => none

/-- The user a login is for: the name is known, and the password is his. -/
def loginUser (b : Backend S) (json : Json) (outside : S) : Option User :=
  match json.stringAt "username", json.stringAt "password" with
  | .ok username, .ok password =>
      (foundUser (b.queryByUserName username outside)).filter fun user => user.password = password
  | _, _ => none

/-- A result that is not a success. -/
def Refused (json : Json) : Prop :=
  Answerable json ∧ ∃ r, json.member "Result" = .str r ∧ r ≠ "Success"

theorem refused_failure (reason : String) : Refused (failure "Fail" reason) :=
  ⟨answerable_failure _ _, "Fail", rfl, by decide⟩

theorem refused_caught (reason : String) : Refused (caught .null reason) :=
  ⟨answerable_caught rfl _, "500", rfl, by decide⟩

/-- What the database function returns for a login. -/
theorem returns_LoginUser (json : Json) (server : Server S) :
    Returns (MysqlDataBase.LoginUser b json) server fun j _ =>
      match loginUser b json server.outside with
      | some user => j = loggedIn user
      | none => Refused j := by
  rw [MysqlDataBase.LoginUser, orElse500, returns_attempt]
  -- whatever throws on the way leaves the `"500"`
  cases husername : json.stringAt "username" with
  | error e =>
      simpa [loginUser, husername, bind_apply] using refused_caught _
  | ok username =>
  cases hpassword : json.stringAt "password" with
  | error e =>
      simpa [loginUser, husername, hpassword, bind_apply] using refused_caught _
  | ok password =>
  cases hquery : b.queryByUserName username server.outside with
  | error e outside =>
      simpa [loginUser, husername, hpassword, bind_apply, call, hquery, foundUser] using
        refused_caught _
  | ok found outside =>
  cases found with
  | none =>
      simpa [loginUser, husername, hpassword, bind_apply, call, hquery, foundUser] using
        refused_failure _
  | some user =>
      by_cases hown : user.password = password
      · simp [loginUser, husername, hpassword, bind_apply, call, hquery, foundUser, hown,
          Option.filter]
      · simpa [loginUser, husername, hpassword, bind_apply, call, hquery, foundUser, hown,
          Option.filter] using refused_failure _

theorem answers_LoginUser_iff (json : Json) (server : Server S) :
    Answers (UserList.LoginUser b json) server ↔
      ∀ user, loginUser b json server.outside = some user → UserUtf8 user := by
  rcases returns_LoginUser (b := b) json server with ⟨j, server', hlogin, hj⟩
  rw [UserList.LoginUser, answers_bind, returns_iff_of_ok hlogin]
  cases hfound : loginUser b json server.outside with
  | none =>
      rw [hfound] at hj
      rcases hj with ⟨hans, r, hr, hne⟩
      exact iff_of_true (answers_after_login hans hr hne server') (by simp)
  | some user =>
      rw [hfound] at hj
      subst hj
      simpa using answers_after_loggedIn_iff user server'

/-- The user of the token is not found, or his texts can be dumped; so can the token. -/
def TokenLoginAnswers (b : Backend S) (token : Bytes) (server : Server S) : Prop :=
  Json.validUtf8 token = true ∧
    ∀ user, foundUser (b.queryByUserId (UserList.tokenUser b token server)
        (UserList.afterToken b token server).outside) = some user → UserUtf8 user

theorem answers_MysqlLoginUserByToken_iff {json : Json} {userid : Bytes}
    (hid : json.member "id" = .string userid) (server : Server S) :
    Answers (MysqlDataBase.LoginUserByToken b json) server ↔
      ∀ user, foundUser (b.queryByUserId userid server.outside) = some user → UserUtf8 user := by
  rw [MysqlDataBase.LoginUserByToken, answers_orElse500 rfl, stringAt_of_member hid, throws_bind,
    answers_bind, returns_iff_of_ok liftM_ok_apply, returns_iff_of_ok liftM_ok_apply, throws_bind,
    answers_bind, throws_call, returns_call, returns_call]
  -- the query throws into the `catch`, finds nobody, or finds a row
  cases hquery : b.queryByUserId userid server.outside with
  | error e outside =>
      refine iff_of_true (Or.inl (Or.inr (Or.inl ?_))) ?_
      · simp only [Throws, hquery]
      · simp [foundUser]
  | ok found outside =>
      rw [returns_iff_of_ok hquery, returns_iff_of_ok hquery]
      cases found with
      | none =>
          refine iff_of_true (Or.inr ?_) ?_
          · exact answers_pure.2 (answerable_failure _ _)
          · simp [foundUser]
      | some user =>
          simp [Throws, hquery, foundUser, answers_pure, answerable_loggedIn_iff]

theorem answers_LoginUserByToken_iff (token : Bytes) (server : Server S) :
    Answers (UserList.LoginUserByToken b (.object [("Token", .string token)])) server ↔
      TokenLoginAnswers b token server := by
  have hindex : (Json.object [("Token", .string token)]).stringAt "Token" = .ok token := rfl
  rw [UserList.LoginUserByToken, TokenLoginAnswers, Json.dump]
  by_cases hutf8 : Json.validUtf8 token = true
  · have hdump : (Json.object [("Token", .string token)]).dumpable = true := by
      simp [Json.dumpable, Json.dumpableMembers, hutf8]
    rw [if_pos hdump, answers_bind, returns_iff_of_ok liftM_ok_apply, hindex, answers_bind,
      returns_iff_of_ok liftM_ok_apply, answers_bind,
      returns_iff_of_ok (UserList.GetUserIdByToken_apply server), Json.set_of_indexable rfl,
      answers_bind, returns_iff_of_ok liftM_ok_apply, answers_MysqlLoginUserByToken_iff rfl]
    simp [hutf8]
  · have hdump : ¬ (Json.object [("Token", .string token)]).dumpable = true := by
      simpa [Json.dumpable, Json.dumpableMembers] using hutf8
    rw [if_neg hdump]
    exact iff_of_false (not_returns_of_error rfl) fun h => hutf8 h.1

/-! ## Submissions -/

/-- What the judger is given of a request. -/
def submissionOf (json : Json) : Json :=
  .object (Control.runMembers.map fun k => (k, json.member k))

theorem mapM_index {json : Json} (hj : json.Indexable) (ks : List String) (server : Server S) :
    (ks.mapM fun k => do return (k, ← json.index k) : Action S (List (String × Json))) server =
      .ok (ks.map fun k => (k, json.member k)) server := by
  induction ks with
  | nil =>
      rfl
  | cons k ks ih =>
      simp only [List.mapM_cons, Json.index_of_indexable hj] at ih ⊢
      simp only [bind_apply, liftM_ok_apply, pure_apply, ih, List.map_cons]

theorem always_InsertStatusRecord (json : Json) :
    Always (MysqlDataBase.InsertStatusRecord b json) fun _ => True :=
  always_attempt (fun _ _ _ _ => trivial) fun _ => always_pure trivial

theorem always_UpdateProblemStatusNum (json : Json) :
    Always (MysqlDataBase.UpdateProblemStatusNum b json) fun _ => True :=
  always_attempt (fun _ _ _ _ => trivial) fun _ => always_pure trivial

theorem always_UpdateUserProblemInfo (json : Json) :
    Always (MysqlDataBase.UpdateUserProblemInfo b json) fun _ => True :=
  always_attempt (fun _ _ _ _ => trivial) fun _ => always_pure trivial

/-- The members of a submission have the types the judger asks for, and can be logged. -/
structure SubmissionTyped (json : Json) : Prop where
  texts : ∀ k ∈ ["SubmitId", "ProblemId", "Code", "Language"], ∃ s, json.member k = .string s
  judgenum : ∃ n, (json.member "JudgeNum").getInt = .ok n
  timelimit : ∃ n, (json.member "TimeLimit").getInt = .ok n
  memorylimit : ∃ n, (json.member "MemoryLimit").getInt64 = .ok n
  utf8 : (submissionOf json).dumpable = true

theorem submissionOf_index {json : Json} {k : String} (hk : k ∈ Control.runMembers) :
    (submissionOf json).index k = .ok (json.member k) := by
  simp only [submissionOf, Json.index]
  congr 1
  generalize Control.runMembers = ks at hk
  induction ks with
  | nil =>
      cases hk
  | cons k' ks ih =>
      rw [List.map_cons, Json.lookup_cons_ite]
      by_cases heq : k = k'
      · simp [heq]
      · rw [if_neg heq]
        exact ih ((List.mem_cons.1 hk).resolve_left heq)

theorem exists_load_iff (json : Json) :
    (∃ j, Judge.Judger.load (submissionOf json) = .ok j) ↔ SubmissionTyped json := by
  have hindex : ∀ k ∈ Control.runMembers, (submissionOf json).index k = .ok (json.member k) :=
    fun k hk => submissionOf_index hk
  simp only [Control.runMembers, List.forall_mem_cons] at hindex
  -- the getters in the order of the source
  simp only [Judge.Judger.load, Json.dump, except_bind_eq_ok_iff, hindex, Except.ok.injEq,
    exists_eq_left', Json.getString_eq_ok_iff]
  constructor
  · rintro ⟨j, _, hdump, submitid, hsubmitid, problemid, hproblemid, code, hcode, judgenum,
      hjudgenum, timelimit, htimelimit, memorylimit, hmemorylimit, language, hlanguage, -⟩
    refine ⟨?_, ⟨judgenum, hjudgenum⟩, ⟨timelimit, htimelimit⟩, ⟨memorylimit, hmemorylimit⟩, ?_⟩
    · simp [hsubmitid, hproblemid, hcode, hlanguage]
    · by_contra hnot
      rw [if_neg hnot] at hdump
      cases hdump
  · rintro ⟨htexts, ⟨judgenum, hjudgenum⟩, ⟨timelimit, htimelimit⟩, ⟨memorylimit, hmemorylimit⟩,
      hutf8⟩
    simp only [List.forall_mem_cons] at htexts
    rcases htexts with ⟨⟨submitid, hsubmitid⟩, ⟨problemid, hproblemid⟩, ⟨code, hcode⟩,
      ⟨language, hlanguage⟩, -⟩
    refine ⟨_, (), if_pos hutf8, submitid, hsubmitid, problemid, hproblemid, code, hcode, judgenum,
      hjudgenum, timelimit, htimelimit, memorylimit, hmemorylimit, language, hlanguage, rfl⟩

/-- The members have their types, and what the compiler or the last program that crashed has written, if
the submission is rejected for it, is UTF-8. -/
def SubmissionAnswers (b : Backend S) (json : Json) (outside : S) : Prop :=
  SubmissionTyped json ∧ ∀ j, Judge.Judger.load (submissionOf json) = .ok j →
    Json.validUtf8 (j.reason (b.judging outside).1.1) = true

theorem member_Status_reportJson (report : Judge.Judger.Report) :
    (reportJson report).member "Status" = .ofInt report.Status.toNat := by
  rw [reportJson, member_pushDocs (by decide) _ rfl]
  rfl

theorem member_ComplierInfo_reportJson (report : Judge.Judger.Report) :
    (reportJson report).member "ComplierInfo" = .string report.ComplierInfo := by
  rw [reportJson, member_pushDocs (by decide) _ rfl]
  rfl

/-- Of the answer to a submission only the compiler's text may be no UTF-8. -/
theorem answerable_judged_iff (report : Judge.Judger.Report) (isFirstAC : Bool) :
    Answerable (.object [("IsFirstAC", .boolean isFirstAC), ("Result", .str "Success"),
      ("Status", (reportJson report).member "Status"),
      ("ComplierInfo", (reportJson report).member "ComplierInfo")]) ↔
      Json.validUtf8 report.ComplierInfo = true := by
  rw [member_Status_reportJson, member_ComplierInfo_reportJson]
  simp [Answerable, Json.member, Json.lookup_cons_ite, Json.str, Json.ofInt, Json.dumpable,
    Json.dumpableMembers, Json.validUtf8_bytes]

theorem answers_GetJudgeCode_iff {json : Json} (hj : json.Indexable) (server : Server S) :
    Answers (Control.GetJudgeCode b json) server ↔ SubmissionAnswers b json server.outside := by
  rw [Control.GetJudgeCode, answers_bind, returns_iff_of_ok (mapM_index hj _ _)]
  -- past the judger every write is behind a `try`
  simp only [answers_bind, returns_affect, Json.index_of_indexable hj, returns_liftM, answers_pure,
    Except.ok.injEq, exists_eq_left', answerable_judged_iff,
    (always_InsertStatusRecord _).returns_const_iff,
    (always_UpdateProblemStatusNum _).returns_const_iff,
    (always_UpdateUserProblemInfo _).returns_const_iff]
  rw [SubmissionAnswers, ← exists_load_iff, ← submissionOf]
  cases hload : Judge.Judger.load (submissionOf json) with
  | error e =>
      simp [Judge.Judger.Run, hload, bind, Except.bind]
  | ok j =>
      have hreason := Judge.Judger.finish_reason (b.judging server.outside).1.1
        (b.judging server.outside).1.2 (Judge.Judger.load_spec hload).1 (Judge.Judger.load_reason hload)
      simp [Judge.Judger.Run, hload, bind, Except.bind, pure, Except.pure, Judge.Judger.Done, hreason]

/-! ## Comments -/

theorem answers_GetComment_iff {json : Json} {type : Bytes} (htype : json.member "Type" = .string type)
    (server : Server S) :
    Answers (Control.GetComment b json) server ↔
      if type = bytes "Father" then CountFails b .Comment (MoDB.fatherQuery json) server.outside
      else SonsFail b json server.outside := by
  rw [Control.GetComment, stringAt_of_member htype, answers_bind, returns_iff_of_ok liftM_ok_apply]
  by_cases hfather : type = bytes "Father"
  · rw [if_pos hfather, if_pos hfather, answers_getFatherComment_iff]
  · rw [if_neg hfather, if_neg hfather, answers_getSonComment_iff]

theorem always_updateComments (coll : Collection) (json : Json) :
    Always (MoDB.updateComments b coll json) fun _ => True :=
  always_attempt (fun _ _ _ _ => trivial) fun _ => always_pure trivial

theorem always_updateArticleComments (articletype : Bytes) (json : Json) :
    Always (Control.updateArticleComments b articletype json) fun _ => True := by
  have hunit : ∀ coll, Always (do
      let _ ← MoDB.updateComments b coll json : Action S Unit) fun _ => True :=
    fun coll => (always_updateComments coll json).bind fun _ _ => always_pure trivial
  unfold Control.updateArticleComments
  split
  · exact hunit .Discuss
  · split
    · exact hunit .Solution
    · split
      · exact hunit .Announcement
      · exact always_pure trivial

/-- The members that say what a new comment belongs to are strings. -/
def CommentTyped (json : Json) : Prop :=
  (∃ articletype, json.member "ArticleType" = .string articletype) ∧
    ∃ type, json.member "Type" = .string type

theorem answers_insertComment_iff (json : Json) (server : Server S) :
    Answers (Control.insertComment b json) server ↔ CommentTyped json := by
  have hinsert : ∀ (type : Bytes) (server : Server S), Answers
      (if type = bytes "Father" then MoDB.InsertFatherComment b json
        else MoDB.InsertSonComment b json) server := by
    intro type server
    split
    · exact always_InsertFatherComment b json server
    · exact always_InsertSonComment b json server
  constructor
  · intro h
    simp only [Control.insertComment, answers_bind, returns_liftM, stringAt_eq_ok_iff] at h
    rcases h with ⟨articleid, -, articletype, harticle, -, -, -, type, htype, -⟩
    exact ⟨⟨articletype, harticle⟩, type, htype⟩
  · rintro ⟨⟨articletype, harticle⟩, type, htype⟩
    rw [Control.insertComment, Json.index_of_indexable (Json.indexable_of_member harticle),
      stringAt_of_member harticle, stringAt_of_member htype]
    simp only [answers_bind, returns_liftM, Except.ok.injEq, exists_eq_left', hinsert,
      (always_updateArticleComments _ _).returns_const_iff]

/-- The comment's id is a number, and neither search finds anything. -/
def CommentMissing (b : Backend S) (json : Json) (outside : S) : Prop :=
  ∃ id, json.int64At "CommentId" = .ok id ∧
    Returns (b.find .Comment [MoDB.byId id]) outside fun docs outside =>
      docs.isEmpty = true ∧
        Returns (b.find .Comment [.matching "Child_Comments._id" (.ofInt id.toInt)]) outside
          fun docs _ => docs.isEmpty = true

/-- What is not found is reported as `Fail`; what is found ends in the `"500"`, because the total of
its sons is a number and is read as a string. -/
theorem returns_DeleteFatherComment_iff {json : Json} {Q : Json → Server S → Prop}
    (hcaught : ∀ server, ¬ Q (caught .null "数据库异常！") server) (server : Server S) :
    Returns (MoDB.DeleteFatherComment b json) server Q ↔
      ∃ id, json.int64At "CommentId" = .ok id ∧
        Returns (b.find .Comment [MoDB.byId id]) server.outside fun docs outside =>
          docs.isEmpty = true ∧ Q (failure "Fail" "数据库未查询到该评论！") { server with outside } := by
  rw [MoDB.DeleteFatherComment, returns_orElse500_of_not hcaught]
  simp only [returns_bind, returns_liftM, returns_call]
  refine exists_congr fun id => and_congr_right fun hid => returns_congr fun docs outside => ?_
  by_cases hempty : docs.isEmpty = true
  · rw [if_pos hempty, returns_pure, and_iff_right hempty]
  · rw [if_neg hempty]
    refine iff_of_false ?_ fun h => hempty h.1
    simp only [returns_bind, returns_liftM, returns_call]
    rintro ⟨found, outside', -, sonnum, hsonnum, -⟩
    refine intAt_ne_ok (fun s => ?_) sonnum hsonnum
    cases found.getLast? with
    | none =>
        simp
    | some last =>
        rw [Json.member_put rfl, if_pos rfl]
        simp [Json.ofInt]

/-- As for a father: the id of the father is a number and is read as a string. -/
theorem returns_DeleteSonComment_iff {json : Json} {Q : Json → Server S → Prop}
    (hcaught : ∀ server, ¬ Q (caught .null "数据库异常！") server) (server : Server S) :
    Returns (MoDB.DeleteSonComment b json) server Q ↔
      ∃ id, json.int64At "CommentId" = .ok id ∧
        Returns (b.find .Comment [.matching "Child_Comments._id" (.ofInt id.toInt)]) server.outside
          fun docs outside =>
            docs.isEmpty = true ∧ Q (failure "Fail" "数据库未查询到数据！") { server with outside } := by
  rw [MoDB.DeleteSonComment, returns_orElse500_of_not hcaught]
  simp only [returns_bind, returns_liftM, returns_call]
  refine exists_congr fun id => and_congr_right fun hid => returns_congr fun docs outside => ?_
  -- the last document found decides
  cases hlast : docs.getLast? with
  | none =>
      rw [List.getLast?_eq_none_iff] at hlast
      simp [hlast]
  | some last =>
      have hempty : ¬ docs.isEmpty = true := by
        intro h
        rw [List.isEmpty_iff.1 h] at hlast
        cases hlast
      refine iff_of_false ?_ fun h => hempty h.1
      simp only [returns_bind, returns_liftM]
      rintro ⟨fatherid, hfatherid, -⟩
      refine int64At_ne_ok (fun s => ?_) fatherid hfatherid
      rw [Json.member_put rfl, if_pos rfl]
      simp [Json.ofInt]

/-- What follows the two deletions, on a result without the number of deleted comments. -/
theorem answers_after_delete_iff {json : Json} {r : String} {articleid : Bytes}
    (hr : json.member "Result" = .str r) (hnum : ∀ s, json.member "DeleteNum" ≠ .string s)
    (server : Server S) :
    Answers (do
      if (← json.index "Result").eqString "Fail" then
        return failure "Fail" "数据库未查询到数据！"
      else
        let num ← json.intAt "DeleteNum"
        let articlejson : Json :=
          .object [("Num", .ofInt (-num).toInt), ("ArticleId", .string articleid)]
        Control.updateArticleComments b (← json.stringAt "ArticleType") articlejson
        return success .null) server ↔ r = "Fail" := by
  rw [Json.index_of_indexable (Json.indexable_of_member hr), answers_bind,
    returns_iff_of_ok liftM_ok_apply, eqString_of_member "Fail" hr]
  by_cases hfail : r = "Fail"
  · simp only [hfail, decide_true, if_true, answers_pure, answerable_failure]
  · simp only [hfail, decide_false, Bool.false_eq_true, if_false, iff_false, answers_bind,
      returns_liftM]
    rintro ⟨num, hread, -⟩
    exact intAt_ne_ok hnum num hread

theorem answers_deleteComment_iff {json : Json} {articleid : Bytes}
    (harticle : json.member "ArticleId" = .string articleid) (server : Server S) :
    Answers (Control.deleteComment b json) server ↔ CommentMissing b json server.outside := by
  have hcaught : ∀ s, (caught .null "数据库异常！").member "DeleteNum" ≠ .string s := by
    intro s
    rw [member_caught rfl]
    simp
  have hfailed : ∀ reason s, (failure "Fail" reason).member "DeleteNum" ≠ .string s := by
    intro reason s
    rw [member_failure]
    simp
  rw [Control.deleteComment, stringAt_of_member harticle, answers_bind,
    returns_iff_of_ok liftM_ok_apply, answers_bind, returns_DeleteFatherComment_iff]
  · -- no father: the son is looked for in the state the first search has left
    refine exists_congr fun id => and_congr_right fun hid => returns_congr fun docs outside =>
      and_congr_right fun _ => ?_
    rw [Json.index_of_indexable (indexable_failure ..), answers_bind,
      returns_iff_of_ok liftM_ok_apply, eqString_of_member "Fail" (member_failure ..)]
    simp only [decide_true, if_true]
    rw [answers_bind, returns_DeleteSonComment_iff fun server h => absurd
      ((answers_after_delete_iff (member_caught rfl ..) hcaught server).1 h) (by decide)]
    constructor
    · rintro ⟨id', hid', h⟩
      cases hid.symm.trans hid'
      exact h.mono fun _ _ hfind => hfind.1
    · intro h
      exact ⟨id, hid, h.mono fun _ _ hfind =>
        ⟨hfind, (answers_after_delete_iff (member_failure ..) (hfailed _) _).2 rfl⟩⟩
  · intro server
    rw [Json.index_of_indexable (indexable_caught ..), answers_bind,
      returns_iff_of_ok liftM_ok_apply, eqString_of_member "Fail" (member_caught rfl ..)]
    intro h
    simp only [(by decide : decide ("500" = "Fail") = false), Bool.false_eq_true, if_false,
      answers_bind, returns_pure] at h
    have hafter := (answers_after_delete_iff (member_caught rfl ..) hcaught server).1
      (answers_bind.2 h)
    exact absurd hafter (by decide)

/-! ## Articles -/

theorem always_DeleteArticleComment (json : Json) :
    Always (MoDB.DeleteArticleComment b json) fun _ => True :=
  always_attempt (fun _ _ _ _ => trivial) fun _ => always_pure trivial

/-- The comments of a deleted article go with it; whether they do is not looked at. -/
theorem always_deleteArticle {delete : Json → Action S Json} {idField : String} {json : Json}
    (hj : json.Indexable) (hdelete : Always (delete json) Answerable) :
    Always (Control.deleteArticle b delete idField json) Answerable := by
  refine hdelete.bind fun resjson hans => ?_
  rcases hans.1 with ⟨result, hresult⟩
  intro server
  rw [stringAt_of_member hresult, returns_bind, returns_iff_of_ok liftM_ok_apply]
  split
  · rw [Json.index_of_indexable hj, returns_bind, returns_iff_of_ok liftM_ok_apply]
    exact (always_DeleteArticleComment _).bind (fun _ _ => always_pure hans) server
  · exact returns_pure.2 hans

end Oj
end Myoj
