import Myoj.Oj.RequestConditions

/-!
# Survival — which requests the server comes back from

Nothing above `onRequest` catches, so an exception that leaves a handler ends the process.  A handler
that returns has passed a JSON with a string under `Result` to `SetResponseStatus` and a dumpable one to
`dump`; `Answers` is both.

* `ParamsHold`, `SearchHolds`, `BodyHolds`, `MemberHolds`, `GuardHolds` — what the shapes of the
  handlers leave to the functions behind them, each with its equivalence;
* `Responds` — for each handler the exact condition on the request, on what the databases answer and on
  who asks;
* `returnsNormally_iff` — no exception leaves `onRequest` exactly then.
-/

namespace Myoj
namespace Oj

open Effect
open Http (HttpRequest HttpResponse)
open UserList (authorityOf tokenUser afterToken mayEdit)

variable {S : Type} {b : Backend S} {req : HttpRequest} {act : Json → Action S Json}

/-! ## Shapes of handlers -/

/-- The JSON of a handler holds the request's token. -/
structure Tokened (req : HttpRequest) (json : Json) : Prop where
  indexable : json.Indexable = true
  token : json.member "Token" = .string (GetRequestToken req)

theorem tokened_put (req : HttpRequest) {json : Json} (hj : json.Indexable = true) :
    Tokened req (json.put "Token" (tokenOf req)) :=
  ⟨Json.indexable_put .., by rw [Json.member_put hj, if_pos rfl, tokenOf]⟩

theorem tokened_queryOf (req : HttpRequest) {params : List String} (h : "Token" ∉ params) :
    Tokened req (queryOf req params) :=
  ⟨rfl, by rw [member_queryOf, if_neg h, if_pos rfl, tokenOf]⟩

/-- When the parameters are all there, `P` holds of the query. -/
def ParamsHold (req : HttpRequest) (params : List String) (P : Json → Prop) : Prop :=
  params.all (hasParam req) = true → P (queryOf req params)

theorem answers_withParams_iff {params : List String} {missing : Json} {P : Json → Prop}
    {server : Server S} (hmissing : Answerable missing)
    (h : Answers (act (queryOf req params)) server ↔ P (queryOf req params)) :
    Answers (withParams req params missing act) server ↔ ParamsHold req params P := by
  unfold withParams ParamsHold
  by_cases hall : params.all (hasParam req) = true
  · rw [if_pos hall, forall_prop_of_true hall, h]
  · rw [if_neg hall, forall_prop_of_false hall, answers_pure, iff_true]
    exact hmissing

theorem answers_parse_iff {text : Bytes} {f : Json → Action S Json} (server : Server S) :
    Answers (do f (← b.parseJson text)) server ↔
      ∃ j, b.parse text = some j ∧ Answers (f j.1) server := by
  rw [answers_bind, returns_liftM, Backend.parseJson]
  cases b.parse text with
  | none =>
      simp
  | some j =>
      simp

/-- When the parameters of a search are there, the first is JSON, and `P` holds of the query. -/
def SearchHolds (b : Backend S) (req : HttpRequest) (P : Json → Prop) : Prop :=
  searchParams.all (hasParam req) = true →
    ∃ j, b.parse (getParam req "SearchInfo") = some j ∧ P (searchOf req j.1)

theorem answers_withSearch_iff {missing : Json} {P : Json → Prop} {server : Server S}
    (hmissing : Answerable missing) (h : ∀ json, Answers (act json) server ↔ P json) :
    Answers (withSearch b req missing act) server ↔ SearchHolds b req P := by
  unfold withSearch SearchHolds
  by_cases hall : searchParams.all (hasParam req) = true
  · rw [if_pos hall, forall_prop_of_true hall]
    exact (answers_parse_iff server).trans (exists_congr fun j => and_congr_right fun _ => h _)
  · rw [if_neg hall, forall_prop_of_false hall, answers_pure, iff_true]
    exact hmissing

/-- Assigning to a parsed value throws unless it is an object or `null`. -/
theorem answers_set_iff {j v : Json} {k : String} {f : Json → Action S Json} (server : Server S) :
    Answers (do f (← j.set k v)) server ↔ j.Indexable = true ∧ Answers (f (j.put k v)) server := by
  rw [answers_bind, returns_liftM, Json.set_eq]
  by_cases hj : j.Indexable = true
  · simp [hj]
  · simp [hj]

/-- The body is an object or `null`, and `P` holds of it with the token. -/
def BodyHolds (b : Backend S) (req : HttpRequest) (P : Json → Prop) : Prop :=
  ∃ j, b.parse req.body_ = some j ∧ j.1.Indexable = true ∧ P (j.1.put "Token" (tokenOf req))

theorem answers_withBody_iff {P : Json → Prop} {server : Server S}
    (h : ∀ json, Tokened req json → (Answers (act json) server ↔ P json)) :
    Answers (withBody b req act) server ↔ BodyHolds b req P := by
  rw [withBody, answers_parse_iff]
  refine exists_congr fun j => and_congr_right fun _ => (answers_set_iff server).trans ?_
  exact and_congr_right fun hj => h _ (tokened_put req hj)

/-- The body is an object or `null`, so is the member, and `P` holds of the member with the token. -/
def MemberHolds (b : Backend S) (req : HttpRequest) (k : String) (P : Json → Prop) : Prop :=
  ∃ j, b.parse req.body_ = some j ∧ j.1.Indexable = true ∧ (j.1.member k).Indexable = true ∧
    P ((j.1.member k).put "Token" (tokenOf req))

theorem answers_withMember_iff {k : String} {P : Json → Prop} {server : Server S}
    (h : ∀ json, Tokened req json → (Answers (act json) server ↔ P json)) :
    Answers (withMember b req k act) server ↔ MemberHolds b req k P := by
  rw [withMember, answers_parse_iff]
  refine exists_congr fun j => and_congr_right fun _ => ?_
  rw [answers_bind, returns_liftM, Json.index_eq]
  by_cases hj : j.1.Indexable = true
  · simp only [hj, if_true, true_and, Except.ok.injEq, exists_eq_left']
    exact (answers_set_iff server).trans (and_congr_right fun hk => h _ (tokened_put req hk))
  · simp [hj]

/-! ## Guards -/

/-- Whoever the token belongs to has the authority, and then `P` holds of the JSON with his id, once
Redis was asked. -/
def GuardHolds (b : Backend S) (req : HttpRequest) (level : Int32) (server : Server S) (json : Json)
    (P : Json → Server S → Prop) : Prop :=
  authorityOf server.UserAuthorityMap (tokenUser b (GetRequestToken req) server) ≥ level →
    P (json.put "VerifyId" (.string (tokenUser b (GetRequestToken req) server)))
      (afterToken b (GetRequestToken req) server)

theorem answerable_NoPermission : Answerable Control.NoPermission := answerable_failure _ _

theorem answers_guarded_iff {check : Json → Action S (Bool × Json)} {json json' : Json}
    {allowed : Bool} {server server' : Server S}
    (hcheck : check json server = .ok (allowed, json') server') :
    Answers (Control.guarded check act json) server ↔
      (allowed = true → Answers (act json') server') := by
  rw [Control.guarded, answers_bind, returns_iff_of_ok hcheck]
  cases allowed with
  | true =>
      simp
  | false =>
      simp [answers_pure, answerable_NoPermission]

theorem answers_IsOrdinaryUser_iff {json : Json} {P : Json → Server S → Prop} {server : Server S}
    (hj : Tokened req json) (h : ∀ json server, Answers (act json) server ↔ P json server) :
    Answers (Control.guarded (UserList.IsOrdinaryUser b) act json) server ↔
      GuardHolds b req 3 server json P := by
  rw [answers_guarded_iff (UserList.IsOrdinaryUser_apply server hj.indexable hj.token),
    decide_eq_true_iff, GuardHolds, h]

theorem answers_IsAdministrator_iff {json : Json} {P : Json → Server S → Prop} {server : Server S}
    (hj : Tokened req json) (h : ∀ json server, Answers (act json) server ↔ P json server) :
    Answers (Control.guarded (UserList.IsAdministrator b) act json) server ↔
      GuardHolds b req 5 server json P := by
  rw [answers_guarded_iff (UserList.IsAdministrator_apply server hj.indexable hj.token),
    decide_eq_true_iff, GuardHolds, h]

/-- The check decides without throwing and adds the user of the token. -/
def Decides (b : Backend S) (req : HttpRequest) (check : Json → Action S (Bool × Json)) : Prop :=
  ∀ json, Tokened req json → ∀ server, ∃ allowed,
    check json server =
      .ok (allowed, json.put "VerifyId" (.string (tokenUser b (GetRequestToken req) server)))
        (afterToken b (GetRequestToken req) server)

theorem decides_IsOrdinaryUser : Decides b req (UserList.IsOrdinaryUser b) :=
  fun _ hj server => ⟨_, UserList.IsOrdinaryUser_apply server hj.indexable hj.token⟩

theorem decides_IsAdministrator : Decides b req (UserList.IsAdministrator b) :=
  fun _ hj server => ⟨_, UserList.IsAdministrator_apply server hj.indexable hj.token⟩

theorem decides_IsAuthor : Decides b req (UserList.IsAuthor b) :=
  fun _ hj server => ⟨_, UserList.IsAuthor_apply server hj.indexable hj.token⟩

/-- Behind a guard, a function that always answers leaves nothing to ask. -/
theorem answers_guarded {check : Json → Action S (Bool × Json)} {json : Json}
    (hcheck : Decides b req check) (hj : Tokened req json)
    (h : ∀ userid : Bytes, Always (act (json.put "VerifyId" (.string userid))) Answerable)
    (server : Server S) : Answers (Control.guarded check act json) server := by
  rcases hcheck json hj server with ⟨allowed, hallowed⟩
  exact (answers_guarded_iff hallowed).2 fun _ => h _ _

theorem answerable_missingParam : Answerable missingParam := answerable_failure _ _

theorem answerable_wrongParam : Answerable wrongParam := answerable_failure _ _

/-- A query for a function that always answers. -/
theorem answers_withParams_always_iff {params : List String} {missing : Json}
    (hmissing : Answerable missing) (h : ∀ json, Always (act json) Answerable) (server : Server S) :
    Answers (withParams req params missing act) server ↔ True := by
  rw [answers_withParams_iff (P := fun _ => True) hmissing (iff_true_intro (h _ server))]
  exact iff_true_intro fun _ => trivial

/-- A query for such a function behind a guard. -/
theorem answers_withParams_guarded_iff {params : List String} {missing : Json}
    {check : Json → Action S (Bool × Json)} (hcheck : Decides b req check)
    (htoken : "Token" ∉ params) (hmissing : Answerable missing)
    (h : ∀ userid : Bytes,
      Always (act ((queryOf req params).put "VerifyId" (.string userid))) Answerable)
    (server : Server S) :
    Answers (withParams req params missing (Control.guarded check act)) server ↔ True := by
  have hguard := answers_guarded hcheck (tokened_queryOf req htoken) h server
  rw [answers_withParams_iff (P := fun _ => True) hmissing (iff_true_intro hguard)]
  exact iff_true_intro fun _ => trivial

/-- A query for an administrator. -/
theorem answers_withParams_admin_iff {params : List String} {missing : Json}
    {P : Json → Server S → Prop} {server : Server S} (htoken : "Token" ∉ params)
    (hmissing : Answerable missing) (h : ∀ json server, Answers (act json) server ↔ P json server) :
    Answers (withParams req params missing (Control.guarded (UserList.IsAdministrator b) act))
        server ↔
      ParamsHold req params fun json => GuardHolds b req 5 server json P :=
  answers_withParams_iff hmissing (answers_IsAdministrator_iff (tokened_queryOf req htoken) h)

/-- A body for such a function behind a guard. -/
theorem answers_withBody_guarded_iff {check : Json → Action S (Bool × Json)}
    (hcheck : Decides b req check) (h : ∀ json, Always (act json) Answerable) (server : Server S) :
    Answers (withBody b req (Control.guarded check act)) server ↔ BodyHolds b req fun _ => True :=
  answers_withBody_iff fun _ hj => iff_true_intro (answers_guarded hcheck hj (fun _ => h _) server)

/-! ## The handlers -/

/-- The condition under which a handler comes back. -/
def Responds (b : Backend S) (req : HttpRequest) (server : Server S) : Handler → Prop
  -- the functions behind these always answer, whatever is asked
  | .doGetUserRank | .doGetUserInfo | .doGetUserUpdateInfo | .doGetUserSetInfo | .doDeleteProblem
  | .doGetAnnouncementList | .doGetAnnouncementListByAdmin | .doGetAnnouncement
  | .doSelectAnnouncement | .doDeleteAnnouncement | .doGetSolution | .doSelectSolutionByEdit
  | .doDeleteSolution | .doGetDiscuss | .doSelectDiscussByEdit | .doDeleteDiscuss => True
  -- the body is parsed outside of every `try`, and the token is assigned into it
  | .doUpdateUserInfo | .doInsertAnnouncement | .doUpdateAnnouncement | .doInsertSolution
  | .doUpdateSolution | .doInsertDiscuss | .doUpdateDiscuss => BodyHolds b req fun _ => True
  | .doRegisterUser => ∃ j, b.parse req.body_ = some j
  | .doLoginUser =>
      ∃ j, b.parse req.body_ = some j ∧
        ∀ user, loginUser b j.1 server.outside = some user → UserUtf8 user
  | .doGetUserInfoByToken => TokenLoginAnswers b (GetRequestToken req) server
  | .doDeleteUser =>
      hasParam req "UserId" = true → ∃ j, b.parse req.body_ = some j ∧ j.1.Indexable = true
  -- so is the search of a list
  | .doGetSolutionList | .doGetDiscussList => SearchHolds b req fun _ => True
  | .doGetProblemList =>
      SearchHolds b req fun json =>
        PageFails b .Problem (MoDB.problemPage json) problemPipe server.outside
  | .doGetStatusRecordList =>
      SearchHolds b req fun json =>
        PageFails b .StatusRecord (MoDB.statusRecordPage json) recordPipe server.outside
  -- of these lists only the error has a `Result`
  | .doGetProblemListByAdmin =>
      ParamsHold req ["Page", "PageSize"] fun json =>
        GuardHolds b req 5 server json fun json server =>
          PageFails b .Problem (MoDB.pageOf [] json) problemPipe server.outside
  | .doGetSolutionListByAdmin =>
      ParamsHold req ["Page", "PageSize"] fun json =>
        GuardHolds b req 5 server json fun json server =>
          PageFails b .Solution (MoDB.pageOf [] json) articlePipeByAdmin server.outside
  | .doGetDiscussListByAdmin =>
      ParamsHold req ["Page", "PageSize"] fun json =>
        GuardHolds b req 5 server json fun json server =>
          PageFails b .Discuss (MoDB.pageOf [] json) articlePipeByAdmin server.outside
  | .doSelectCommentListByAdmin =>
      ParamsHold req ["Page", "PageSize"] fun json =>
        GuardHolds b req 5 server json fun json server =>
          CountFails b .Comment (MoDB.commentQueryByAdmin json) server.outside
  | .doGetComment =>
      ParamsHold req ["Type", "ParentId", "Page", "PageSize", "SonNum"] fun json =>
        if getParam req "Type" = bytes "Father" then
          CountFails b .Comment (MoDB.fatherQuery json) server.outside
        else SonsFail b json server.outside
  -- what is cached is parsed, and what is found in the database is read with the wrong type
  | .doGetProblem =>
      ParamsHold req ["ProblemId"] fun _ =>
        ProblemAnswers b (getParam req "ProblemId") server.outside
  | .doGetProblemInfo =>
      ParamsHold req ["ProblemId"] fun json =>
        GuardHolds b req 5 server json fun json server => ProblemMissing b json server.outside
  | .doGetStatusRecord =>
      ParamsHold req ["SubmitId"] fun json =>
        StatusRecordAnswers b json (getParam req "SubmitId") server
  | .doEditProblem =>
      MemberHolds b req "datainfo" fun json => GuardHolds b req 5 server json (EditAnswers b)
  | .doPostCode => BodyHolds b req fun json => SubmissionAnswers b json server.outside
  | .doInsertComment =>
      MemberHolds b req "Info" fun json =>
        GuardHolds b req 3 server json fun json _ => CommentTyped json
  | .doDeleteComment =>
      ParamsHold req ["ArticleId", "CommentId"] fun json =>
        GuardHolds b req 3 server json fun json server => CommentMissing b json server.outside

theorem answers_doDeleteUser_iff (server : Server S) :
    Answers (doDeleteUser b req) server ↔
      (hasParam req "UserId" = true → ∃ j, b.parse req.body_ = some j ∧ j.1.Indexable = true) := by
  unfold doDeleteUser
  by_cases hparam : hasParam req "UserId" = true
  · rw [if_pos hparam, forall_prop_of_true hparam, answers_parse_iff]
    refine exists_congr fun j => and_congr_right fun _ => ?_
    refine (answers_set_iff server).trans (and_iff_left_of_imp fun _ => ?_)
    refine (answers_set_iff server).2 ⟨Json.indexable_put .., ?_⟩
    exact answers_guarded decides_IsAdministrator (tokened_put req (Json.indexable_put ..))
      (fun _ => always_DeleteUser _) server
  · rw [if_neg hparam, forall_prop_of_false hparam, answers_pure, iff_true]
    exact answerable_missingParam

/-- A handler comes back exactly under its condition. -/
theorem answers_run_iff (handler : Handler) (server : Server S) :
    Answers (handler.run b req) server ↔ Responds b req server handler := by
  have hmissing := answerable_missingParam
  have hwrong := answerable_wrongParam
  -- one case for each handler: the lemma of its shape at the lemma of its function
  cases handler with
  | doRegisterUser =>
      exact (answers_parse_iff server).trans
        (exists_congr fun j => and_iff_left (always_RegisterUser j.1 server))
  | doLoginUser =>
      exact (answers_parse_iff server).trans
        (exists_congr fun j => and_congr_right fun _ => answers_LoginUser_iff j.1 server)
  | doGetUserInfoByToken =>
      exact answers_LoginUserByToken_iff (GetRequestToken req) server
  | doGetUserRank =>
      exact answers_withParams_always_iff hmissing (always_SelectUserRank b) server
  | doGetUserInfo =>
      exact answers_withParams_always_iff hmissing (always_SelectUserInfo b) server
  | doUpdateUserInfo =>
      exact answers_withBody_guarded_iff decides_IsAuthor (always_UpdateUserInfo b) server
  | doGetUserUpdateInfo =>
      exact answers_withParams_guarded_iff decides_IsAuthor (by decide) hmissing
        (fun _ => always_SelectUserUpdateInfo b _) server
  | doGetUserSetInfo =>
      exact answers_withParams_guarded_iff decides_IsAdministrator (by decide) hmissing
        (fun _ => always_SelectUserSetInfo b _) server
  | doDeleteUser =>
      exact answers_doDeleteUser_iff server
  | doGetProblem =>
      rw [Responds]
      refine answers_withParams_iff hmissing ?_
      exact answers_SelectProblem_iff rfl server
  | doGetProblemList =>
      exact answers_withSearch_iff hwrong fun json => answers_SelectProblemList_iff json server
  | doGetProblemListByAdmin =>
      rw [Responds]
      exact answers_withParams_admin_iff (by decide) hwrong answers_SelectProblemListByAdmin_iff
  | doGetProblemInfo =>
      rw [Responds]
      exact answers_withParams_admin_iff (by decide) hwrong answers_SelectProblemInfoByAdmin_iff
  | doEditProblem =>
      exact answers_withMember_iff fun json hj =>
        answers_IsAdministrator_iff hj answers_editProblem_iff
  | doDeleteProblem =>
      exact answers_withParams_guarded_iff decides_IsAdministrator (by decide) hwrong
        (fun _ => always_deleteProblem rfl) server
  | doGetStatusRecordList =>
      exact answers_withSearch_iff hmissing fun json =>
        answers_SelectStatusRecordList_iff json server
  | doGetStatusRecord =>
      rw [Responds]
      refine answers_withParams_iff hmissing ?_
      exact answers_SelectStatusRecord_iff rfl server
  | doPostCode =>
      exact answers_withBody_iff fun json hj => answers_GetJudgeCode_iff hj.indexable server
  | doGetAnnouncementList =>
      exact answers_withParams_always_iff hmissing (always_SelectAnnouncementList b) server
  | doGetAnnouncementListByAdmin =>
      exact answers_withParams_guarded_iff decides_IsAdministrator (by decide) hmissing
        (fun _ => always_SelectAnnouncementList b _) server
  | doGetAnnouncement =>
      exact answers_withParams_always_iff hmissing (always_SelectAnnouncement b) server
  | doSelectAnnouncement =>
      exact answers_withParams_guarded_iff decides_IsAdministrator (by decide) hmissing
        (fun _ => always_SelectAnnouncementByEdit b _) server
  | doInsertAnnouncement =>
      exact answers_withBody_guarded_iff decides_IsAdministrator (always_InsertAnnouncement b) server
  | doUpdateAnnouncement =>
      exact answers_withBody_guarded_iff decides_IsAdministrator (always_UpdateAnnouncement b) server
  | doDeleteAnnouncement =>
      exact answers_withParams_guarded_iff decides_IsAdministrator (by decide) hmissing
        (fun _ => always_deleteArticle rfl (always_DeleteAnnouncement b _)) server
  | doGetSolutionList =>
      exact answers_withSearch_iff hmissing fun json =>
        iff_true_intro (always_SelectSolutionList b json server)
  | doGetSolutionListByAdmin =>
      rw [Responds]
      exact answers_withParams_admin_iff (by decide) hmissing answers_SelectSolutionListByAdmin_iff
  | doGetSolution =>
      exact answers_withParams_always_iff hmissing (always_SelectSolution b) server
  | doSelectSolutionByEdit =>
      exact answers_withParams_guarded_iff decides_IsOrdinaryUser (by decide) hmissing
        (fun _ => always_SelectSolutionByEdit b _) server
  | doInsertSolution =>
      exact answers_withBody_guarded_iff decides_IsOrdinaryUser (always_InsertSolution b) server
  | doUpdateSolution =>
      exact answers_withBody_guarded_iff decides_IsAuthor (always_UpdateSolution b) server
  | doDeleteSolution =>
      exact answers_withParams_guarded_iff decides_IsAuthor (by decide) hmissing
        (fun _ => always_deleteArticle rfl (always_DeleteSolution b _)) server
  | doGetDiscussList =>
      exact answers_withSearch_iff hmissing fun json =>
        iff_true_intro (always_SelectDiscussList b json server)
  | doGetDiscussListByAdmin =>
      rw [Responds]
      exact answers_withParams_admin_iff (by decide) hmissing answers_SelectDiscussListByAdmin_iff
  | doGetDiscuss =>
      exact answers_withParams_always_iff hmissing (always_SelectDiscuss b) server
  | doSelectDiscussByEdit =>
      exact answers_withParams_guarded_iff decides_IsOrdinaryUser (by decide) hmissing
        (fun _ => always_SelectDiscussByEdit b _) server
  | doInsertDiscuss =>
      exact answers_withBody_guarded_iff decides_IsOrdinaryUser (always_InsertDiscuss b) server
  | doUpdateDiscuss =>
      exact answers_withBody_guarded_iff decides_IsAuthor (always_UpdateDiscuss b) server
  | doDeleteDiscuss =>
      exact answers_withParams_guarded_iff decides_IsAuthor (by decide) hmissing
        (fun _ => always_deleteArticle rfl (always_DeleteDiscuss b _)) server
  | doSelectCommentListByAdmin =>
      rw [Responds]
      exact answers_withParams_admin_iff (by decide) hmissing answers_SelectCommentListByAdmin_iff
  | doGetComment =>
      rw [Responds]
      refine answers_withParams_iff hmissing ?_
      exact answers_GetComment_iff rfl server
  | doInsertComment =>
      exact answers_withMember_iff fun json hj =>
        answers_IsOrdinaryUser_iff hj answers_insertComment_iff
  | doDeleteComment =>
      rw [Responds]
      refine answers_withParams_iff hmissing ?_
      refine (answers_guarded_iff (UserList.IsOrdinaryUser_apply server rfl rfl)).trans ?_
      rw [decide_eq_true_iff]
      exact imp_congr_right fun _ => answers_deleteComment_iff rfl _

/-! ## The server -/

/-- Behind a handler, the status and the body take what is an answer. -/
theorem returns_onRequest_iff {handler : Handler} (hroute : handlerOf req = some handler)
    (resp : HttpResponse) (server : Server S) :
    (Returns (onRequest b req resp) server fun _ _ => True) ↔ Answers (handler.run b req) server := by
  have hrespond : ∀ (resjson : Json) (server : Server S),
      (Returns (do
        let resp ← respond b resjson resp
        return finishResponse resp : Action S HttpResponse) server fun _ _ => True) ↔
        Answerable resjson := by
    intro resjson server
    rw [returns_bind, returns_liftM]
    simp only [returns_pure, and_true]
    exact respond_eq_ok_iff b resp
  simp only [onRequest, hroute]
  rw [returns_bind]
  exact returns_congr hrespond

/-- `onRequest` returns, and every JSON its handler ends with has a string as the result. -/
def ReturnsNormally (b : Backend S) (req : HttpRequest) (resp : HttpResponse) (server : Server S) :
    Prop :=
  (Returns (onRequest b req resp) server fun _ _ => True) ∧
    ∀ handler resjson server', handlerOf req = some handler →
      handler.run b req server = .ok resjson server' →
        ∃ result, resjson.member "Result" = .string result

/-- The server returns from a request exactly when the handler the request is routed to responds. -/
theorem returnsNormally_iff {S : Type} (b : Backend S) (req : HttpRequest) (resp : HttpResponse)
    (server : Server S) :
    ReturnsNormally b req resp server ↔
      ∀ handler, handlerOf req = some handler → Responds b req server handler := by
  unfold ReturnsNormally
  cases hroute : handlerOf req with
  | none =>
      simp [onRequest, hroute]
  | some handler =>
      rw [returns_onRequest_iff hroute, answers_run_iff]
      constructor
      · rintro ⟨hresponds, -⟩ handler' heq
        cases heq
        exact hresponds
      · intro h
        refine ⟨h handler rfl, fun handler' resjson server' heq hrun => ?_⟩
        cases heq
        exact ((returns_iff_of_ok hrun).1 ((answers_run_iff handler server).2 (h handler rfl))).1

/-- A server on which nobody has registered. -/
def emptyServer : Server Unit where
  UserAuthorityMap := fun _ => 0
  m_problemid := 0
  m_commentid := 0
  m_articleid := 0
  problemtags := .null
  outside := ()

end Oj
end Myoj
