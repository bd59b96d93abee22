import Myoj.Oj.Store

/-!
# Authorship — who changes an article

The update and delete handlers of solutions and discussions ask `IsAuthor`, which compares the user of
the token with the `UserId` of the request, and then change the document with the requested id, whose
own `UserId` nobody reads.

* `ArticleHandler` — the four handlers, with the JSON they hand on and the edit it asks for;
* `docs_run` — what one request does to the two collections;
* `OnlyAuthors` — nobody but the author or an administrator changes an article;
* `Forged` — the request names its sender as the author of somebody else's article.
-/

namespace Myoj
namespace Oj

open Effect UserList
open Http (HttpRequest)

variable {S : Type}

/-! ## The handlers -/

inductive ArticleHandler where
  | doUpdateSolution
  | doDeleteSolution
  | doUpdateDiscuss
  | doDeleteDiscuss
  deriving DecidableEq, Repr

/-- An edit of the document with one id: a new document or its removal. -/
structure Edit where
  id : Int64
  change : Members → Option Members

namespace ArticleHandler

def handler : ArticleHandler → Handler
  | .doUpdateSolution => .doUpdateSolution
  | .doDeleteSolution => .doDeleteSolution
  | .doUpdateDiscuss => .doUpdateDiscuss
  | .doDeleteDiscuss => .doDeleteDiscuss

def coll : ArticleHandler → Collection
  | .doUpdateSolution => .Solution
  | .doDeleteSolution => .Solution
  | .doUpdateDiscuss => .Discuss
  | .doDeleteDiscuss => .Discuss

/-- What runs once `IsAuthor` has agreed. -/
def act (b : Backend S) : ArticleHandler → Json → Action S Json
  | .doUpdateSolution => MoDB.UpdateSolution b
  | .doDeleteSolution => Control.deleteArticle b (MoDB.DeleteSolution b) "SolutionId"
  | .doUpdateDiscuss => MoDB.UpdateDiscuss b
  | .doDeleteDiscuss => Control.deleteArticle b (MoDB.DeleteDiscuss b) "DiscussId"

/-- The body's JSON with the token in it, when it can take one. -/
def bodyJson (b : Backend S) (req : HttpRequest) : Option Json :=
  match b.parse req.body_ with
  | none => none
  | some j => if j.1.Indexable then some (j.1.put "Token" (tokenOf req)) else none

/-- The query of a request that has all the parameters. -/
def paramJson (req : HttpRequest) (params : List String) : Option Json :=
  if params.all (hasParam req) then some (queryOf req params) else none

/-- The JSON that reaches `Control`, if any does. -/
def requestJson (b : Backend S) (req : HttpRequest) : ArticleHandler → Option Json
  | .doUpdateSolution => bodyJson b req
  | .doDeleteSolution => paramJson req ["SolutionId", "UserId"]
  | .doUpdateDiscuss => bodyJson b req
  | .doDeleteDiscuss => paramJson req ["DiscussId", "UserId"]

/-- The edit a JSON asks for, if everything it needs is there. -/
def editOf (now : Bytes) (json : Json) : ArticleHandler → Except Exception Edit
  | .doUpdateSolution => do
      let id ← json.int64At "SolutionId"
      let title ← json.stringAt "Title"
      let content ← json.stringAt "Content"
      let ispublic ← (← json.index "Public").getBool
      return { id, change := fun ms => some (Update.apply ms (.set [("Title", .field title),
        ("Content", .field content), ("Public", .boolean ispublic), ("UpdateTime", .field now)])) }
  | .doDeleteSolution => do
      let id ← json.int64At "SolutionId"
      return { id, change := fun _ => none }
  | .doUpdateDiscuss => do
      let id ← json.int64At "DiscussId"
      let title ← json.stringAt "Title"
      let content ← json.stringAt "Content"
      return { id, change := fun ms => some (Update.apply ms (.set [("Title", .field title),
        ("Content", .field content), ("UpdateTime", .field now)])) }
  | .doDeleteDiscuss => do
      let id ← json.int64At "DiscussId"
      return { id, change := fun _ => none }

/-! ## One request -/

/-- The JSON reaching `Control` can be indexed and carries the token. -/
theorem requestJson_spec {b : Backend S} {req : HttpRequest} {h : ArticleHandler} {json : Json}
    (hjson : requestJson b req h = some json) :
    json.Indexable ∧ json.member "Token" = .string (GetRequestToken req) := by
  have hbody : ∀ {json : Json}, bodyJson b req = some json →
      json.Indexable ∧ json.member "Token" = .string (GetRequestToken req) := by
    intro json hb
    unfold bodyJson at hb
    split at hb
    · cases hb
    · split at hb
      · rename_i hindexable
        cases hb
        exact ⟨Json.indexable_put .., by rw [Json.member_put hindexable, if_pos rfl]; rfl⟩
      · cases hb
  have hparam : ∀ {params : List String} {json : Json}, paramJson req params = some json →
      "Token" ∉ params → json.Indexable ∧ json.member "Token" = .string (GetRequestToken req) := by
    intro params json hp hmem
    unfold paramJson at hp
    split at hp
    · cases hp
      refine ⟨rfl, ?_⟩
      rw [member_queryOf, if_neg hmem, if_pos rfl]
      rfl
    · cases hp
  -- an update comes with a body, a deletion with parameters
  cases h with
  | doUpdateSolution =>
      exact hbody hjson
  | doDeleteSolution =>
      exact hparam hjson (by decide)
  | doUpdateDiscuss =>
      exact hbody hjson
  | doDeleteDiscuss =>
      exact hparam hjson (by decide)

/-- A handler is its check and its act on the JSON of the request. -/
theorem final_run (b : Backend S) (req : HttpRequest) (h : ArticleHandler) (server : Server S) :
    final (h.handler.run b req) server =
      match requestJson b req h with
      | none => server
      | some json => final (Control.guarded (IsAuthor b) (h.act b) json) server := by
  have hbody : ∀ act : Json → Action S Json,
      final (withBody b req act) server =
        match bodyJson b req with
        | none => server
        | some json => final (act json) server := by
    intro act
    simp only [withBody, bodyJson, Backend.parseJson]
    cases b.parse req.body_ with
    | none =>
        rfl
    | some j =>
        rw [final_bind_of_ok liftM_ok_apply, final_liftM_bind, Json.set_eq]
        by_cases hj : j.1.Indexable
        · simp [hj]
        · simp [hj]
  have hparam : ∀ (params : List String) (act : Json → Action S Json),
      final (withParams req params missingParam act) server =
        match paramJson req params with
        | none => server
        | some json => final (act json) server := by
    intro params act
    unfold withParams paramJson
    by_cases hall : params.all (hasParam req)
    · rw [if_pos hall, if_pos hall]
    · rw [if_neg hall, if_neg hall, final_pure]
  cases h with
  | doUpdateSolution =>
      exact hbody _
  | doDeleteSolution =>
      exact hparam _ _
  | doUpdateDiscuss =>
      exact hbody _
  | doDeleteDiscuss =>
      exact hparam _ _

/-- The check adds a member no edit reads. -/
theorem editOf_put {json : Json} (hj : json.Indexable) (now userid : Bytes) (h : ArticleHandler) :
    editOf now (json.put "VerifyId" (.string userid)) h = editOf now json h := by
  cases h <;> simp [editOf, Json.int64At, Json.stringAt, Json.index_put hj]

/-! ## What an act does to the collections -/

/-- The collections after an edit of one of them. -/
def edited (coll : Collection) (edit : Except Exception Edit)
    (docs : Collection → Int64 → Option Members) (c : Collection) (i : Int64) : Option Members :=
  match edit with
  | .ok e => if c = coll ∧ i = e.id then (docs c i).bind e.change else docs c i
  | .error _ => docs c i

section acts

variable {base : Backend S} (server : Server (World S)) (c : Collection) (i : Int64)

theorem docs_updateById (coll : Collection) (id : Int64) (update : Update) :
    (final (MoDB.updateById base.onWorld coll id update) server).outside.docs c i =
      if c = coll ∧ i = id then (server.outside.docs c i).bind fun ms => some (update.apply ms)
      else server.outside.docs c i := by
  simp only [MoDB.updateById]
  rw [final_bind_of_keeps (v := fun s : Server (World S) => s.outside.docs c i)
    (fun _ => Keeps.pure _)]
  simp only [final, call, Backend.onWorld]
  -- an update of a document that is not there does nothing
  cases hdoc : server.outside.docs coll id with
  | none =>
      by_cases hci : c = coll ∧ i = id
      · simp [hci, hdoc]
      · simp [hci]
  | some ms =>
      by_cases hci : c = coll ∧ i = id
      · simp [hci, hdoc]
      · simp [hci]

theorem docs_deleteById (coll : Collection) (idField notDeleted : String) (json : Json) :
    (final (MoDB.deleteById base.onWorld coll idField notDeleted json) server).outside.docs c i =
      edited coll (do return { id := ← json.int64At idField, change := fun _ => none })
        server.outside.docs c i := by
  simp only [MoDB.deleteById, orElse500, final_attempt_pure, final_liftM_bind]
  cases json.int64At idField with
  | error e =>
      rfl
  | ok id =>
      rw [final_bind_of_keeps (v := fun s : Server (World S) => s.outside.docs c i) (fun _ => by
        split
        · exact Keeps.pure _
        · exact Keeps.pure _)]
      simp only [final, call, Backend.onWorld]
      cases hdoc : server.outside.docs coll id with
      | none =>
          by_cases hci : c = coll ∧ i = id
          · simp [edited, hci, hdoc]
          · simp [edited, hci]
      | some ms =>
          by_cases hci : c = coll ∧ i = id
          · simp [edited, hci, hdoc]
          · simp [edited, hci]

/-- Deleting the comments of an article is all that follows a deletion. -/
theorem keeps_DeleteArticleComment (hc : c ≠ .Comment) (json : Json) :
    Keeps (fun s : Server (World S) => s.outside.docs c i)
      (MoDB.DeleteArticleComment base.onWorld json) := by
  refine Keeps.attempt_pure (Keeps.bind (Keeps.liftM _) fun articleid => ?_) _
  refine Keeps.bind (fun s => ?_) fun _ => Keeps.pure _
  simp only [final, call, Backend.onWorld, onRest]
  cases base.delete_many .Comment [.matching "ParentId" (.ofInt articleid.toInt)] s.outside.rest with
  | ok n rest =>
      simp only [World.docs_removeSelected_of_ne _ hc]
  | error e rest =>
      rfl

theorem docs_deleteArticle (hc : c ≠ .Comment) (delete : Json → Action (World S) Json)
    (idField : String) (json : Json) :
    (final (Control.deleteArticle base.onWorld delete idField json) server).outside.docs c i =
      (final (delete json) server).outside.docs c i := by
  refine final_bind_of_keeps (v := fun s : Server (World S) => s.outside.docs c i)
    (fun resjson => ?_) (delete json) server
  refine Keeps.bind (Keeps.liftM _) fun result => ?_
  split
  · refine Keeps.bind (Keeps.liftM _) fun id => ?_
    exact Keeps.bind (keeps_DeleteArticleComment c i hc _) fun _ => Keeps.pure _
  · exact Keeps.pure _

/-- A read of the JSON throws on both sides, or goes on with the same value. -/
theorem docs_liftM_bind {α : Type} {coll : Collection} (x : Except Exception α)
    {f : α → Action (World S) Json} {g : α → Except Exception Edit}
    (h : ∀ a, (final (f a) server).outside.docs c i = edited coll (g a) server.outside.docs c i) :
    (final (liftM x >>= f) server).outside.docs c i =
      edited coll (x >>= g) server.outside.docs c i := by
  cases x with
  | ok a =>
      exact h a
  | error e =>
      rfl

/-- An act edits its collection as its JSON says, and leaves the other articles alone. -/
theorem docs_act (hc : c ≠ .Comment) (json : Json) (h : ArticleHandler) :
    (final (h.act base.onWorld json) server).outside.docs c i =
      edited h.coll (editOf (base.GetTime server.outside.rest).1 json h) server.outside.docs c i := by
  cases h with
  | doUpdateSolution =>
      simp only [act, MoDB.UpdateSolution, orElse500, final_attempt_pure]
      refine docs_liftM_bind server c i _ fun id => ?_
      refine docs_liftM_bind server c i _ fun title => ?_
      refine docs_liftM_bind server c i _ fun content => ?_
      refine docs_liftM_bind server c i _ fun json => ?_
      refine docs_liftM_bind server c i _ fun ispublic => ?_
      rw [final_observe_bind, docs_updateById]
      rfl
  | doDeleteSolution =>
      rw [act, docs_deleteArticle _ _ _ hc, MoDB.DeleteSolution, docs_deleteById]
      rfl
  | doUpdateDiscuss =>
      simp only [act, MoDB.UpdateDiscuss, orElse500, final_attempt_pure]
      refine docs_liftM_bind server c i _ fun id => ?_
      refine docs_liftM_bind server c i _ fun title => ?_
      refine docs_liftM_bind server c i _ fun content => ?_
      rw [final_observe_bind, docs_updateById]
      rfl
  | doDeleteDiscuss =>
      rw [act, docs_deleteArticle _ _ _ hc, MoDB.DeleteDiscuss, docs_deleteById]
      rfl

end acts

/-! ## What a request does -/

section requests

variable (base : Backend S) (req : HttpRequest) (h : ArticleHandler) (server : Server (World S))

/-- The user of the request's token. -/
def requester : Bytes := tokenUser base.onWorld (GetRequestToken req) server

/-- His authority. -/
def authority : Int32 := authorityOf server.UserAuthorityMap (requester base req server)

/-- The edit a request asks for. -/
def asked : Option (Json × Edit) :=
  match requestJson base.onWorld req h with
  | none => none
  | some json =>
      match editOf (base.GetTime server.outside.rest).1 json h with
      | .ok e => some (json, e)
      | .error _ => none

/-- Looking up a token changes nothing in the maps. -/
theorem afterToken_onWorld (token : Bytes) :
    afterToken base.onWorld token server = server := rfl

/-- What one request does: the edit it asks for, when `IsAuthor` agrees. -/
theorem docs_run {c : Collection} (hc : c ≠ .Comment) (i : Int64) :
    (final (h.handler.run base.onWorld req) server).outside.docs c i =
      match asked base req h server with
      | none => server.outside.docs c i
      | some (json, e) =>
          if mayEdit (authority base req server) (requester base req server) (json.member "UserId") ∧
              c = h.coll ∧ i = e.id then
            (server.outside.docs c i).bind e.change
          else server.outside.docs c i := by
  rw [final_run, asked]
  cases hjson : requestJson base.onWorld req h with
  | none =>
      rfl
  | some json =>
      rcases requestJson_spec hjson with ⟨hj, ht⟩
      -- the check reads the token store only, and decides
      simp only
      rw [Control.guarded, final_bind_of_ok (IsAuthor_apply server hj ht), afterToken_onWorld]
      simp only [authority, requester]
      by_cases hmay : mayEdit
          (authorityOf server.UserAuthorityMap
            (tokenUser base.onWorld (GetRequestToken req) server))
          (tokenUser base.onWorld (GetRequestToken req) server) (json.member "UserId") = true
      · simp only [hmay, if_true]
        rw [docs_act _ _ _ hc, editOf_put hj]
        cases editOf (base.GetTime server.outside.rest).1 json h with
        | ok e =>
            simp [edited, hmay]
        | error e =>
            rfl
      · simp only [hmay]
        cases editOf (base.GetTime server.outside.rest).1 json h with
        | ok e =>
            simp [hmay]
        | error e =>
            simp

/-! ## Only authors -/

/-- The author a document names. -/
def storedUserId (ms : Members) : Option Int :=
  match ms.lookup "UserId" with
  | some (.number_integer n) => some n
  | some (.number_unsigned n) => some n
  | _ => none

/-- The user wrote the document. -/
def Wrote (userid : Bytes) (ms : Members) : Prop :=
  ∃ v, stoll userid = .ok v ∧ storedUserId ms = some v.toInt

/-- A solution or discussion the request changes or removes is the requester's own, or the requester
is an administrator. -/
def OnlyAuthors : Prop :=
  ∀ c i ms, c = .Solution ∨ c = .Discuss → server.outside.docs c i = some ms →
    (final (h.handler.run base.onWorld req) server).outside.docs c i ≠ some ms →
      Wrote (requester base req server) ms ∨ authority base req server ≥ 5

/-- An ordinary user asks for a change of an article and gives himself as its `UserId`, which is not
the one the document has. -/
def Forged : Prop :=
  ∃ json e ms, asked base req h server = some (json, e) ∧
    server.outside.docs h.coll e.id = some ms ∧ e.change ms ≠ some ms ∧
    3 ≤ authority base req server ∧ authority base req server < 5 ∧
    sameUser (requester base req server) (json.member "UserId") = true ∧
    ¬ Wrote (requester base req server) ms

theorem coll_ne_comment : h.coll ≠ .Comment := by
  cases h <;> decide

theorem coll_article : h.coll = .Solution ∨ h.coll = .Discuss := by
  cases h <;> simp [coll]

/-- What `IsAuthor` accepts below administrators. -/
theorem mayEdit_of_sameUser {a : Int32} {userid : Bytes} {claimed : Json} (ha : 3 ≤ a)
    (hsame : sameUser userid claimed = true) : mayEdit a userid claimed = true := by
  simp [mayEdit, ha, hsame]

/-- Articles are changed by their authors and by administrators only, unless the request is forged. -/
theorem only_authors_iff :
    OnlyAuthors base req h server ↔ ¬ Forged base req h server := by
  constructor
  · rintro honly ⟨json, e, ms, hasked, hdoc, hchange, hlow, hhigh, hsame, hother⟩
    -- a forged request passes the check and changes the document
    have hmay : mayEdit (authority base req server) (requester base req server)
        (json.member "UserId") = true := mayEdit_of_sameUser hlow hsame
    have hafter : (final (h.handler.run base.onWorld req) server).outside.docs h.coll e.id =
        e.change ms := by
      rw [docs_run base req h server (coll_ne_comment h), hasked]
      simp [hmay, hdoc]
    rcases honly h.coll e.id ms (coll_article h) hdoc (hafter ▸ hchange) with hwrote | hadmin
    · exact hother hwrote
    · exact Int32.not_le.2 hhigh hadmin
  · intro hforged c i ms hc hdoc hafter
    have hne : c ≠ .Comment := by
      rcases hc with rfl | rfl <;> decide
    rw [docs_run base req h server hne] at hafter
    -- the document changes only if the request asks for it and `IsAuthor` agrees
    cases hasked : asked base req h server with
    | none =>
        rw [hasked] at hafter
        exact absurd hdoc hafter
    | some ask =>
        rcases ask with ⟨json, e⟩
        rw [hasked] at hafter
        simp only at hafter
        split at hafter
        · rename_i hcond
          rcases hcond with ⟨hmay, rfl, rfl⟩
          rw [hdoc] at hafter
          simp only [mayEdit, Bool.and_eq_true, Bool.or_eq_true, decide_eq_true_eq] at hmay
          rcases hmay with ⟨hlow, hadmin | hsame⟩
          · exact Or.inr hadmin
          · by_contra hnot
            rw [not_or] at hnot
            exact hforged ⟨json, e, ms, hasked, hdoc, hafter, hlow, Int32.not_le.1 hnot.2, hsame,
              hnot.1⟩
        · exact absurd hdoc hafter

end requests

/-! ## A solution deleted by another user -/

/-- User 2 is logged in with the token `t2`, and the solution 7 is by user 1. -/
def ownedByOther : Server (World Unit) where
  UserAuthorityMap := fun id => if id = 1 ∨ id = 2 then 3 else 0
  m_problemid := 0
  m_commentid := 0
  m_articleid := 7
  problemtags := .null
  outside := {
    tokens := fun token => if token = bytes "t2" then some (bytes "2") else none
    docs := fun c i =>
      if c = .Solution ∧ i = 7 then
        some [("Title", .str "A"), ("UserId", .number_integer 1), ("Public", .boolean true)]
      else none
    rest := () }

/-- `POST /solution` with the ids 7 and 2. -/
def deleteRequest : HttpRequest :=
  { HttpRequest.new with
    method_ := .kPost
    path_ := bytes "/solution"
    headers_ := Finmap.singleton (bytes "Authorization") (bytes "t2")
    params_ := (Finmap.singleton (bytes "SolutionId") (bytes "7")).insert (bytes "UserId") (bytes "2") }

/-- User 2 deletes the solution of user 1 by giving 2 as the author. -/
theorem solution_deleted_by_other :
    ¬ OnlyAuthors Backend.idle deleteRequest .doDeleteSolution ownedByOther := by
  intro honly
  have hgone : ((final (Handler.run Backend.idle.onWorld deleteRequest .doDeleteSolution)
      ownedByOther).outside.docs .Solution 7).isNone = true := by
    decide +kernel
  have hkept := honly .Solution 7 _ (Or.inl rfl) rfl
  rcases hkept (by rw [handler, Option.isNone_iff_eq_none.1 hgone]; simp) with ⟨v, hv, hwrote⟩ | hadmin
  · -- the token is user 2's, the document is user 1's
    have huser : stoll (requester Backend.idle deleteRequest ownedByOther) = .ok 2 := by
      decide +kernel
    cases huser.symm.trans hv
    exact absurd hwrote (by decide)
  · exact absurd hadmin (by decide +kernel)

end ArticleHandler

end Oj
end Myoj
