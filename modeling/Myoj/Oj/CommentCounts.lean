import Myoj.Oj.Conditions
import Myoj.Oj.Databases

/-!
# CommentCounts — the comments of an article and the number it shows

An article's `Comments` is counted up before a comment is stored and down after one was deleted.  The
amount goes from `Control` to `MoDB` as a number and is read as a string, so the counters stay at the 0
they were inserted with; deleting a comment reads numbers as strings as well and never gets that far.

* `CommentRequest` — comments and articles come and go;
* `Counted` — each stored article shows the number of its comments;
* `stored` — the document a request adds, `Shrinks` — what the other requests do;
* `StaysApart` — no comment and article come together.
-/

namespace Myoj
namespace Oj

open Effect

inductive Article where
  | Discuss
  | Solution
  | Announcement
  deriving DecidableEq, Repr

namespace Article

variable {S : Type} (b : Backend S)

def coll : Article → Collection
  | .Discuss => .Discuss
  | .Solution => .Solution
  | .Announcement => .Announcement

def idField : Article → String
  | .Discuss => "DiscussId"
  | .Solution => "SolutionId"
  | .Announcement => "AnnouncementId"

def insert : Article → Json → Action S Json
  | .Discuss => MoDB.InsertDiscuss b
  | .Solution => MoDB.InsertSolution b
  | .Announcement => MoDB.InsertAnnouncement b

def delete : Article → Json → Action S Json
  | .Discuss => MoDB.DeleteDiscuss b
  | .Solution => MoDB.DeleteSolution b
  | .Announcement => MoDB.DeleteAnnouncement b

/-- The document of a new article. -/
def document (now : Bytes) (json : Json) : Article → Except Exception Members
  | .Discuss => do
      let title ← json.stringAt "Title"
      let content ← json.stringAt "Content"
      let parentid ← MoDB.atollAt json "ParentId"
      let userid ← MoDB.atollAt json "UserId"
      return [("Title", .field title), ("Content", .field content), ("ParentId", parentid),
        ("UserId", userid)] ++ MoDB.articleMembers now
  | .Solution => do
      let title ← json.stringAt "Title"
      let content ← json.stringAt "Content"
      let parentid ← json.int64At "ParentId"
      let userid ← json.int64At "UserId"
      let ispublic ← (← json.index "Public").getBool
      return [("Title", .field title), ("Content", .field content), ("ParentId", .ofInt parentid.toInt),
        ("UserId", .ofInt userid.toInt), ("Public", .boolean ispublic)] ++ MoDB.articleMembers now
  | .Announcement => do
      let title ← json.stringAt "Title"
      let content ← json.stringAt "Content"
      let userid ← json.int64At "UserId"
      let level ← json.intAt "Level"
      return [("Title", .field title), ("Content", .field content), ("UserId", .ofInt userid.toInt),
        ("Level", .ofInt level.toInt)] ++ MoDB.articleMembers now

theorem coll_ne_comment (article : Article) : article.coll ≠ .Comment := by
  cases article <;> decide

end Article

inductive CommentRequest where
  | insertComment (json : Json)
  | deleteComment (json : Json)
  | insertArticle (article : Article) (json : Json)
  | deleteArticle (article : Article) (json : Json)

namespace CommentRequest

variable {S : Type} (b : Backend S)

def run : CommentRequest → Action S Json
  | .insertComment json => Control.InsertComment b json
  | .deleteComment json => Control.DeleteComment b json
  | .insertArticle .Discuss json => Control.InsertDiscuss b json
  | .insertArticle .Solution json => Control.InsertSolution b json
  | .insertArticle .Announcement json => Control.InsertAnnouncement b json
  | .deleteArticle .Discuss json => Control.DeleteDiscuss b json
  | .deleteArticle .Solution json => Control.DeleteSolution b json
  | .deleteArticle .Announcement json => Control.DeleteAnnouncement b json

def step (server : Server S) (req : CommentRequest) : Server S := final (req.run b) server

/-! ## Permission -/

def json : CommentRequest → Json
  | .insertComment json => json
  | .deleteComment json => json
  | .insertArticle _ json => json
  | .deleteArticle _ json => json

/-- Who may: everybody who is logged in, the author, or an administrator. -/
def check : CommentRequest → Json → Action S (Bool × Json)
  | .insertComment _ => UserList.IsOrdinaryUser b
  | .deleteComment _ => UserList.IsOrdinaryUser b
  | .insertArticle .Announcement _ => UserList.IsAdministrator b
  | .insertArticle _ _ => UserList.IsOrdinaryUser b
  | .deleteArticle .Announcement _ => UserList.IsAdministrator b
  | .deleteArticle _ _ => UserList.IsAuthor b

/-- What runs when the check has agreed. -/
def act : CommentRequest → Json → Action S Json
  | .insertComment _ => Control.insertComment b
  | .deleteComment _ => Control.deleteComment b
  | .insertArticle article _ => article.insert b
  | .deleteArticle article _ => Control.deleteArticle b (article.delete b) article.idField

theorem run_eq (req : CommentRequest) : req.run b = Control.guarded (req.check b) (req.act b) req.json := by
  cases req with
  | insertComment json =>
      rfl
  | deleteComment json =>
      rfl
  | insertArticle article json =>
      cases article <;> rfl
  | deleteArticle article json =>
      cases article <;> rfl

/-- The JSON of a request that passes its check, as the check leaves it. -/
def allowed (server : Server S) (req : CommentRequest) : Option Json :=
  match req.check b req.json server with
  | .ok (true, json) _ => some json
  | _ => none

/-! ## The documents of insertions -/

/-- Whether a comment answers an article, once the members read before are there. -/
def isFather (json : Json) : Except Exception Bool := do
  let _ ← json.index "ArticleId"
  let _ ← json.stringAt "ArticleType"
  return (← json.stringAt "Type") = bytes "Father"

/-- The document of a new father. -/
def fatherDocument (now : Bytes) (json : Json) : Except Exception Members := do
  let parentid ← json.int64At "ParentId"
  let parenttype ← json.stringAt "ArticleType"
  let content ← json.stringAt "Content"
  let userid ← json.int64At "UserId"
  return [("ParentId", .ofInt parentid.toInt), ("ParentType", .field parenttype),
    ("Content", .field content), ("UserId", .ofInt userid.toInt), ("Likes", .ofInt 0),
    ("CreateTime", .field now), ("Child_Comments", .array [])]

/-- The document a request inserts, if it gets that far. -/
def document (now : Bytes) (json : Json) : CommentRequest → Option (Collection × Members)
  | .insertComment _ =>
      match isFather json, fatherDocument now json with
      | .ok true, .ok members => some (.Comment, members)
      | _, _ => none
  | .insertArticle article _ =>
      match article.document now json with
      | .ok members => some (article.coll, members)
      | .error _ => none
  | .deleteComment _ => none
  | .deleteArticle _ _ => none

section databases

variable {base : Backend S} {regex : Bytes → Option (Bytes → Bool)} (server : Server (Databases S))

variable (base regex) in
theorem keeps_check {γ : Type} {v : Server (Databases S) → γ} (req : CommentRequest) (json : Json) :
    Keeps v (req.check (base.onDatabases regex) json) := by
  have hget : ∀ token, Keeps v (call ((base.onDatabases regex).get .redis_token token)) :=
    fun token => keeps_reads fun t => .ok (t.redis .redis_token token)
  cases req with
  | insertComment _ =>
      exact UserList.keeps_IsOrdinaryUser hget json
  | deleteComment _ =>
      exact UserList.keeps_IsOrdinaryUser hget json
  | insertArticle article _ =>
      cases article with
      | Announcement =>
          exact UserList.keeps_IsAdministrator hget json
      | Discuss =>
          exact UserList.keeps_IsOrdinaryUser hget json
      | Solution =>
          exact UserList.keeps_IsOrdinaryUser hget json
  | deleteArticle article _ =>
      cases article with
      | Announcement =>
          exact UserList.keeps_IsAdministrator hget json
      | Discuss =>
          exact UserList.keeps_IsAuthor hget json
      | Solution =>
          exact UserList.keeps_IsAuthor hget json

/-- A request does what it does once it is allowed. -/
theorem step_eq (req : CommentRequest) :
    step (base.onDatabases regex) server req =
      match req.allowed (base.onDatabases regex) server with
      | some json => final (req.act (base.onDatabases regex) json) server
      | none => server := by
  have hsame := keeps_check base regex (v := id) req req.json server
  rw [step, run_eq, Control.guarded, allowed]
  cases hcheck : req.check (base.onDatabases regex) req.json server with
  | error e server' =>
      rw [final, hcheck] at hsame
      cases hsame
      rw [final_bind_of_error hcheck]
  | ok result server' =>
      rw [final_of_ok hcheck] at hsame
      cases hsame
      rw [final_bind_of_ok hcheck]
      obtain ⟨_ | _, json⟩ := result
      · rfl
      · rfl

/-! ## Comments -/

/-- The number is no string. -/
theorem updateComments_of_number {coll : Collection} {updatejson : Json} {n : Int}
    (hindexable : updatejson.Indexable) (hnum : updatejson.member "Num" = .ofInt n) :
    MoDB.updateComments b coll updatejson = pure false := by
  have hthrows : updatejson.intAt "Num" = .error (.type_error 302) := by
    simp only [Json.intAt, Json.stringAt, Json.index_of_indexable hindexable, hnum]
    rfl
  funext server
  simp only [MoDB.updateComments, attempt, hthrows]
  cases updatejson.int64At "ArticleId" <;> rfl

/-- Neither is the amount `Control` passes on, so no counter changes. -/
theorem updateArticleComments_of_number {updatejson : Json} {n : Int} (articletype : Bytes)
    (hindexable : updatejson.Indexable) (hnum : updatejson.member "Num" = .ofInt n) :
    Control.updateArticleComments b articletype updatejson = pure () := by
  have hnone : ∀ coll, (do let _ ← MoDB.updateComments b coll updatejson : Action S Unit) = pure () := by
    intro coll
    rw [updateComments_of_number b hindexable hnum]
    rfl
  simp only [Control.updateArticleComments, MoDB.UpdateDiscussComments, MoDB.UpdateSolutionComments,
    MoDB.UpdateAnnouncementComments, hnone, ite_self]

/-- All that is left of `insertComment` is the insertion. -/
theorem insertComment_eq (json : Json) :
    Control.insertComment b json = (do
      if ← isFather json then MoDB.InsertFatherComment b json else MoDB.InsertSonComment b json) := by
  have hnone : ∀ articleid articletype, Control.updateArticleComments b articletype
      (.object [("ArticleId", articleid), ("Num", .ofInt 1)]) = pure () :=
    fun articleid articletype => updateArticleComments_of_number b articletype rfl rfl
  simp only [Control.insertComment, isFather, liftM_bind, liftM_pure, bind_assoc, pure_bind, hnone,
    decide_eq_true_eq]

theorem final_InsertFatherComment (json : Json) :
    final (MoDB.InsertFatherComment (base.onDatabases regex) json) server =
      { server with
        m_commentid := server.m_commentid + 1
        outside :=
          match fatherDocument (base.GetTime server.outside.rest).1 json with
          | .ok members =>
              final (Databases.insert_one .Comment (server.m_commentid + 1) members) server.outside
          | .error _ => server.outside } := by
  rw [MoDB.InsertFatherComment, orElse500, final_attempt_pure, final_bind_of_ok (rfl : MoDB.nextCommentId server = _)]
  simp only [final_liftM_bind, final_observe_bind]
  rw [fatherDocument]
  cases json.int64At "ParentId" with
  | error e =>
      rfl
  | ok parentid =>
      cases json.stringAt "ArticleType" with
      | error e =>
          rfl
      | ok parenttype =>
          cases json.stringAt "Content" with
          | error e =>
              rfl
          | ok content =>
              cases json.int64At "UserId" with
              | error e =>
                  rfl
              | ok userid =>
                  exact (final_bind_of_keeps (v := id) (fun _ => Keeps.pure _) _ _).trans (final_call _)

/-- The insertion of an article, whose id is used up in any case. -/
theorem final_insertArticle (article : Article) (json : Json) :
    final (article.insert (base.onDatabases regex) json) server =
      { server with
        m_articleid := server.m_articleid + 1
        outside :=
          match article.document (base.GetTime server.outside.rest).1 json with
          | .ok members =>
              final (Databases.insert_one article.coll (server.m_articleid + 1) members) server.outside
          | .error _ => server.outside } := by
  have hid : MoDB.nextArticleId server = .ok (server.m_articleid + 1)
      { server with m_articleid := server.m_articleid + 1 } := rfl
  cases article with
  | Discuss =>
      rw [Article.insert, MoDB.InsertDiscuss, orElse500, final_attempt_pure, final_bind_of_ok hid]
      simp only [final_liftM_bind, final_observe_bind, MoDB.final_insertOne, Article.document]
      cases json.stringAt "Title" with
      | error e =>
          rfl
      | ok title =>
          cases json.stringAt "Content" with
          | error e =>
              rfl
          | ok content =>
              cases MoDB.atollAt json "ParentId" with
              | error e =>
                  rfl
              | ok parentid =>
                  cases MoDB.atollAt json "UserId" <;> rfl
  | Solution =>
      rw [Article.insert, MoDB.InsertSolution, orElse500, final_attempt_pure, final_bind_of_ok hid]
      simp only [final_liftM_bind, final_observe_bind, MoDB.final_insertOne, Article.document]
      cases json.stringAt "Title" with
      | error e =>
          rfl
      | ok title =>
          cases json.stringAt "Content" with
          | error e =>
              rfl
          | ok content =>
              cases json.int64At "ParentId" with
              | error e =>
                  rfl
              | ok parentid =>
                  cases json.int64At "UserId" with
                  | error e =>
                      rfl
                  | ok userid =>
                      cases json.index "Public" with
                      | error e =>
                          rfl
                      | ok value =>
                          cases hpublic : value.getBool with
                          | error e =>
                              simp only [hpublic, bind, Except.bind]
                          | ok ispublic =>
                              simp only [hpublic, bind, Except.bind]
                              rfl
  | Announcement =>
      rw [Article.insert, MoDB.InsertAnnouncement, orElse500, final_attempt_pure, final_bind_of_ok hid]
      simp only [final_liftM_bind, final_observe_bind, MoDB.final_insertOne, Article.document]
      cases json.stringAt "Title" with
      | error e =>
          rfl
      | ok title =>
          cases json.stringAt "Content" with
          | error e =>
              rfl
          | ok content =>
              cases json.int64At "UserId" with
              | error e =>
                  rfl
              | ok userid =>
                  cases json.intAt "Level" <;> rfl

/-! ## What is neither comment nor article -/

/-- The article a father answers. -/
def parent (t : Databases S) (id : Int64) : Option (Option Json) :=
  (t.find .Comment id).map fun father => father.members.lookup "ParentId"

/-- No article has come or changed, and no father. -/
def Shrinks (server server' : Server (Databases S)) : Prop :=
  (∀ (article : Article) id doc, server'.outside.find article.coll id = some doc →
    server.outside.find article.coll id = some doc) ∧
  ∀ id p, parent server'.outside id = some p → parent server.outside id = some p

theorem Shrinks.refl (server : Server (Databases S)) : Shrinks server server :=
  ⟨fun _ _ _ h => h, fun _ _ h => h⟩

instance : IsPreorder (Server (Databases S)) Shrinks where
  refl := Shrinks.refl
  trans := fun _ _ _ h h' =>
    ⟨fun article id doc hdoc => h.1 article id doc (h'.1 article id doc hdoc),
      fun id p hp => h.2 id p (h'.2 id p hp)⟩

theorem shrinks_delete_one (coll : Collection) (id : Int64) :
    Within (Shrinks (S := S)) (call (Databases.delete_one coll id)) := by
  intro server
  rw [final_call]
  constructor
  · intro article i doc hdoc
    rw [Databases.find_delete_one] at hdoc
    split at hdoc
    · cases hdoc
    · exact hdoc
  · intro i p hp
    rw [parent, Databases.find_delete_one] at hp
    split at hp
    · cases hp
    · exact hp

theorem shrinks_delete_many (coll : Collection) (regex : Bytes → Option (Bytes → Bool)) (field : String)
    (value : Json) : Within (Shrinks (S := S)) (call (Databases.delete_many coll regex [.matching field value])) := by
  have hfind : ∀ (t : Databases S) c i doc,
      (final (Databases.delete_many coll regex [.matching field value]) t).find c i = some doc →
        t.find c i = some doc := by
    intro t c i doc hdoc
    rw [Databases.find_delete_many] at hdoc
    split at hdoc
    · exact (Option.filter_eq_some_iff.1 hdoc).1
    · exact hdoc
  intro server
  rw [final_call]
  refine ⟨fun article i doc hdoc => hfind _ _ _ _ hdoc, fun i p hp => ?_⟩
  obtain ⟨doc, hdoc, rfl⟩ := Option.map_eq_some_iff.1 hp
  exact Option.map_eq_some_iff.2 ⟨doc, hfind _ _ _ _ hdoc, rfl⟩

/-- Sons come and go below the father's `ParentId`. -/
theorem shrinks_update_sons {update : Update} (id : Int64)
    (hsons : ∀ ms, (update.apply ms).lookup "ParentId" = ms.lookup "ParentId") :
    Within (Shrinks (S := S)) (call (Databases.update_one .Comment id update)) := by
  have hparent : ∀ doc, (Doc.update update doc).members.lookup "ParentId" = doc.members.lookup "ParentId" := by
    intro doc
    simp only [Doc.update, Doc.ofMembers]
    by_cases hutf8 : Json.dumpableMembers (update.apply doc.members) = true
    · simp only [dif_pos hutf8]
      split
      · exact hsons doc.members
      · rfl
    · simp only [dif_neg hutf8]
  intro server
  rw [final_call]
  constructor
  · intro article i doc hdoc
    rwa [Databases.find_update_one, if_neg fun h => article.coll_ne_comment h.1] at hdoc
  · intro i p hp
    rw [parent, Databases.find_update_one] at hp
    split at hp
    · have hsame : (fun father : Doc => father.members.lookup "ParentId") ∘ Doc.update update =
          fun father => father.members.lookup "ParentId" := funext hparent
      rwa [Option.map_map, hsame] at hp
    · exact hp

theorem within_insertSonComment (json : Json) :
    Within Shrinks (MoDB.InsertSonComment (base.onDatabases regex) json) := by
  refine Within.attempt_pure (Within.bind (Within.liftM _) fun parentid => ?_) _
  -- an id is used up
  refine Within.bind Shrinks.refl fun id => ?_
  refine Within.bind (Within.liftM _) fun content => Within.bind (Within.liftM _) fun userid => ?_
  refine Within.bind Shrinks.refl fun now => ?_
  refine Within.bind (shrinks_update_sons parentid fun ms => ?_) fun _ => Within.pure _
  rw [Update.apply, Json.lookup_assign]
  exact if_neg (by decide)

theorem within_deleteComment (json : Json) :
    Within Shrinks (Control.deleteComment (base.onDatabases regex) json) := by
  have hfather : Within Shrinks (MoDB.DeleteFatherComment (base.onDatabases regex) json) :=
    MoDB.within_DeleteFatherComment json fun id => shrinks_delete_one .Comment id
  have hson : Within Shrinks (MoDB.DeleteSonComment (base.onDatabases regex) json) := by
    refine MoDB.within_DeleteSonComment json fun father id => shrinks_update_sons father fun ms => ?_
    rw [Update.apply, Json.lookup_assign]
    exact if_neg (by decide)
  refine Within.bind (Within.liftM _) fun articleid => Within.bind hfather fun json₁ => ?_
  refine Within.bind (Within.liftM _) fun result => ?_
  refine Within.ite_bind hson (Within.pure json₁) fun json₂ => ?_
  refine Within.bind (Within.liftM _) fun result => ?_
  split
  · exact Within.pure _
  · refine Within.bind (Within.liftM _) fun num => Within.bind (Within.liftM _) fun articletype => ?_
    rw [updateArticleComments_of_number _ articletype rfl rfl]
    exact Within.bind (Within.pure _) fun _ => Within.pure _

theorem within_deleteArticle (article : Article) (json : Json) :
    Within Shrinks (Control.deleteArticle (base.onDatabases regex)
      (article.delete (base.onDatabases regex)) article.idField json) := by
  have hdelete : Within Shrinks (article.delete (base.onDatabases regex) json) := by
    have hbyId : ∀ coll idField notDeleted,
        Within Shrinks (MoDB.deleteById (base.onDatabases regex) coll idField notDeleted json) :=
      fun coll idField notDeleted =>
        MoDB.within_deleteById coll idField notDeleted json fun id => shrinks_delete_one coll id
    cases article <;> exact hbyId _ _ _
  refine Within.bind hdelete fun resjson => Within.bind (Within.liftM _) fun result => ?_
  split
  · refine Within.bind (Within.liftM _) fun id => Within.bind ?_ fun _ => Within.pure _
    exact MoDB.within_DeleteArticleComment _ fun value => shrinks_delete_many .Comment regex _ value
  · exact Within.pure _

/-! ## What a request stores -/

variable (base regex) in
/-- The document a request adds, with its id: it is allowed, its members are there, and MongoDB takes
the document. -/
def stored (req : CommentRequest) : Option (Collection × Int64 × Doc) :=
  match req.allowed (base.onDatabases regex) server with
  | none => none
  | some json =>
      match req.document (base.GetTime server.outside.rest).1 json with
      | none => none
      | some (coll, members) =>
          let id := if coll = .Comment then server.m_commentid + 1 else server.m_articleid + 1
          (server.outside.insertable coll id members).map fun doc => (coll, id, doc)

variable {server}

/-- A new father names an article, under a new comment id. -/
def NewFather (server : Server (Databases S)) (coll : Collection) (id : Int64) (doc : Doc) : Prop :=
  coll = .Comment ∧ id = server.m_commentid + 1 ∧
    ∃ parentid : Int64, doc.members.lookup "ParentId" = some (.ofInt parentid.toInt)

/-- A new article has no comments, under a new article id. -/
def NewArticle (server : Server (Databases S)) (coll : Collection) (id : Int64) (doc : Doc) : Prop :=
  ∃ article : Article, coll = article.coll ∧ id = server.m_articleid + 1 ∧
    doc.members.lookup "Comments" = some (.ofInt 0)

theorem fatherDocument_spec {now : Bytes} {json : Json} {members : Members}
    (h : fatherDocument now json = .ok members) :
    ∃ parentid : Int64, members.lookup "ParentId" = some (.ofInt parentid.toInt) := by
  simp only [fatherDocument, except_bind_eq_ok_iff] at h
  obtain ⟨parentid, -, parenttype, -, content, -, userid, -, h⟩ := h
  cases h
  exact ⟨parentid, rfl⟩

theorem articleDocument_spec {now : Bytes} {json : Json} {article : Article} {members : Members}
    (h : article.document now json = .ok members) : members.lookup "Comments" = some (.ofInt 0) := by
  cases article with
  | Discuss =>
      simp only [Article.document, except_bind_eq_ok_iff] at h
      obtain ⟨title, -, content, -, parentid, -, userid, -, h⟩ := h
      cases h
      rfl
  | Solution =>
      simp only [Article.document, except_bind_eq_ok_iff] at h
      obtain ⟨title, -, content, -, parentid, -, userid, -, value, -, ispublic, -, h⟩ := h
      cases h
      rfl
  | Announcement =>
      simp only [Article.document, except_bind_eq_ok_iff] at h
      obtain ⟨title, -, content, -, userid, -, level, -, h⟩ := h
      cases h
      rfl

/-- A request that stores nothing. -/
theorem shrinks_step {req : CommentRequest} (h : stored base regex server req = none) :
    Shrinks server (step (base.onDatabases regex) server req) := by
  rw [step_eq]
  simp only [stored] at h
  cases hallowed : req.allowed (base.onDatabases regex) server with
  | none =>
      exact Shrinks.refl server
  | some json =>
      simp only [hallowed] at h
      -- what is not inserted leaves the databases as they are
      have hsame : ∀ server' : Server (Databases S), server'.outside = server.outside →
          Shrinks server server' := by
        intro server' houtside
        rw [Shrinks, houtside]
        exact Shrinks.refl server
      cases req with
      | insertComment json₀ =>
          simp only [act, insertComment_eq, final_liftM_bind]
          simp only [document] at h
          cases hfather : isFather json with
          | error e =>
              exact Shrinks.refl server
          | ok father =>
              cases father with
              | false =>
                  exact within_insertSonComment json server
              | true =>
                  simp only [if_true, final_InsertFatherComment]
                  refine hsame _ ?_
                  simp only
                  cases hdoc : fatherDocument (base.GetTime server.outside.rest).1 json with
                  | error e =>
                      rfl
                  | ok members =>
                      simp only [hfather, hdoc, if_true, Option.map_eq_none_iff] at h
                      exact Databases.final_insert_one_of_none _ _ _ h
      | deleteComment json₀ =>
          exact within_deleteComment json server
      | insertArticle article json₀ =>
          simp only [act, final_insertArticle]
          simp only [document] at h
          refine hsame _ ?_
          simp only
          cases hdoc : article.document (base.GetTime server.outside.rest).1 json with
          | error e =>
              rfl
          | ok members =>
              simp only [hdoc, if_neg article.coll_ne_comment, Option.map_eq_none_iff] at h
              exact Databases.final_insert_one_of_none _ _ _ h
      | deleteArticle article json₀ =>
          exact within_deleteArticle article json server

/-- A request that stores a document. -/
theorem step_stored {req : CommentRequest} {coll : Collection} {id : Int64} {doc : Doc}
    (h : stored base regex server req = some (coll, id, doc)) :
    server.outside.find coll id = none ∧ (NewFather server coll id doc ∨ NewArticle server coll id doc) ∧
      ∀ c i, (step (base.onDatabases regex) server req).outside.find c i =
        if c = coll ∧ i = id then some doc else server.outside.find c i := by
  rw [step_eq]
  simp only [stored] at h
  cases hallowed : req.allowed (base.onDatabases regex) server with
  | none =>
      simp [hallowed] at h
  | some json =>
      simp only [hallowed] at h
      cases req with
      | insertComment json₀ =>
          simp only [document] at h
          cases hfather : isFather json with
          | error e =>
              simp [hfather] at h
          | ok father =>
              cases hdoc : fatherDocument (base.GetTime server.outside.rest).1 json with
              | error e =>
                  simp [hfather, hdoc] at h
              | ok members =>
                  cases father with
                  | false =>
                      simp [hfather, hdoc] at h
                  | true =>
                      simp only [hfather, hdoc, if_true, Option.map_eq_some_iff, Prod.mk.injEq] at h
                      obtain ⟨doc', hinsert, rfl, rfl, rfl⟩ := h
                      obtain ⟨hfree, rfl⟩ := Databases.insertable_eq_some hinsert
                      refine ⟨hfree, Or.inl ⟨rfl, rfl, fatherDocument_spec hdoc⟩, ?_⟩
                      simp only [act, insertComment_eq, final_liftM_bind, hfather, if_true,
                        final_InsertFatherComment, hdoc]
                      exact Databases.find_insert_one _ _ _ hinsert
      | insertArticle article json₀ =>
          simp only [document] at h
          cases hdoc : article.document (base.GetTime server.outside.rest).1 json with
          | error e =>
              simp [hdoc] at h
          | ok members =>
              simp only [hdoc, if_neg article.coll_ne_comment, Option.map_eq_some_iff, Prod.mk.injEq] at h
              obtain ⟨doc', hinsert, rfl, rfl, rfl⟩ := h
              obtain ⟨hfree, rfl⟩ := Databases.insertable_eq_some hinsert
              refine ⟨hfree, Or.inr ⟨article, rfl, rfl, articleDocument_spec hdoc⟩, ?_⟩
              simp only [act, final_insertArticle, hdoc]
              exact Databases.find_insert_one _ _ _ hinsert
      | deleteComment json₀ =>
          simp [document] at h
      | deleteArticle article json₀ =>
          simp [document] at h

/-! ## Counters -/

/-- The comments stored for an article: the fathers that name it, and their sons. -/
def commentsOf (t : Databases S) (articleid : Int64) : Nat :=
  (((t.rows .Comment).filter (Row.matching "ParentId" (.ofInt articleid.toInt))).map fun row =>
    1 + (Update.elements (row.2.lookup "Child_Comments")).length).sum

/-- Each stored article shows the number of its comments. -/
def Counted (server : Server (Databases S)) : Prop :=
  ∀ (article : Article) id doc, server.outside.find article.coll id = some doc →
    (doc.members.lookup "Comments").bind Json.number = some (commentsOf server.outside id : Rat)

/-- The counters have not moved, and every father names an article by its number. -/
structure Inv (server : Server (Databases S)) : Prop where
  unmoved : ∀ (article : Article) id doc, server.outside.find article.coll id = some doc →
    doc.members.lookup "Comments" = some (.ofInt 0)
  numbers : ∀ id p, parent server.outside id = some p →
    ∃ articleid : Int64, p = some (.ofInt articleid.toInt)

/-- No stored father names the article. -/
def Unanswered (t : Databases S) (articleid : Int64) : Prop :=
  ∀ id, parent t id ≠ some (some (.ofInt articleid.toInt))

theorem commentsOf_eq_zero_iff (h : Inv server) (articleid : Int64) :
    commentsOf server.outside articleid = 0 ↔ Unanswered server.outside articleid := by
  have hempty : commentsOf server.outside articleid = 0 ↔
      ∀ row ∈ server.outside.rows .Comment,
        ¬ row.matching "ParentId" (.ofInt articleid.toInt) = true := by
    rw [commentsOf, List.sum_eq_zero_iff_forall_eq_nat, ← List.filter_eq_nil_iff]
    constructor
    · intro hzero
      refine List.eq_nil_iff_forall_not_mem.2 fun row hrow => ?_
      have hone := hzero _ (List.mem_map_of_mem hrow)
      omega
    · intro hnil
      rw [hnil]
      simp
  have hmatching : ∀ id father, server.outside.find .Comment id = some father →
      (Row.matching "ParentId" (.ofInt articleid.toInt) (id, father.members) = true ↔
        parent server.outside id = some (some (.ofInt articleid.toInt))) := by
    intro id father hfather
    have hparent : parent server.outside id = some (father.members.lookup "ParentId") := by
      rw [parent, hfather]
      rfl
    obtain ⟨n, hn⟩ := h.numbers id _ hparent
    rw [Row.matching_number (by decide) (by decide) hn, hparent, hn]
    simp [Json.ofInt]
  rw [hempty]
  constructor
  · intro hnone id hparent
    obtain ⟨father, hfather, -⟩ := Option.map_eq_some_iff.1 hparent
    have hrow : (id, father.members) ∈ server.outside.rows .Comment :=
      List.mem_map.2 ⟨(id, father), Rows.get?_eq_some_iff.1 hfather, rfl⟩
    exact hnone _ hrow ((hmatching id father hfather).2 hparent)
  · intro hnone row hrow hmatch
    obtain ⟨⟨id, father⟩, hmem, rfl⟩ := List.mem_map.1 hrow
    have hfather : server.outside.find .Comment id = some father := Rows.get?_eq_some_iff.2 hmem
    exact hnone id ((hmatching id father hfather).1 hmatch)

/-- With counters that have not moved, all articles must be without comments. -/
theorem counted_iff (h : Inv server) :
    Counted server ↔ ∀ (article : Article) id, server.outside.find article.coll id ≠ none →
      Unanswered server.outside id := by
  constructor
  · intro hcounted article id hstored
    obtain ⟨doc, hdoc⟩ := Option.ne_none_iff_exists'.1 hstored
    have hnumber := hcounted article id doc hdoc
    rw [h.unmoved article id doc hdoc] at hnumber
    have hzero : (commentsOf server.outside id : Rat) = 0 := (Option.some.inj hnumber).symm
    exact (commentsOf_eq_zero_iff h id).1 (by exact_mod_cast hzero)
  · intro hunanswered article id doc hdoc
    have hzero := (commentsOf_eq_zero_iff h id).2 (hunanswered article id (by simp [hdoc]))
    rw [h.unmoved article id doc hdoc, hzero]
    rfl

/-! ## Runs -/

variable (base regex) in
/-- The request stores no father that names a stored article, and no article that a stored father
names. -/
def StaysApart (server : Server (Databases S)) (req : CommentRequest) : Prop :=
  ∀ coll id doc, stored base regex server req = some (coll, id, doc) →
    (coll = .Comment → ∀ (article : Article) (articleid : Int64),
      doc.members.lookup "ParentId" = some (.ofInt articleid.toInt) →
        server.outside.find article.coll articleid = none) ∧
    (coll ≠ .Comment → Unanswered server.outside id)

theorem inv_step (h : Inv server) (req : CommentRequest) :
    Inv (step (base.onDatabases regex) server req) := by
  cases hstored : stored base regex server req with
  | none =>
      obtain ⟨harticles, hfathers⟩ := shrinks_step hstored
      exact ⟨fun article id doc hdoc => h.unmoved article id doc (harticles article id doc hdoc),
        fun id p hp => h.numbers id p (hfathers id p hp)⟩
  | some new =>
      obtain ⟨coll, id, doc⟩ := new
      obtain ⟨-, hnew, hfind⟩ := step_stored hstored
      constructor
      · intro article i doc' hdoc'
        rw [hfind] at hdoc'
        split at hdoc'
        · next hself =>
          cases hdoc'
          rcases hnew with ⟨hcoll, -⟩ | ⟨-, -, -, hcomments⟩
          · exact absurd (hself.1.trans hcoll) article.coll_ne_comment
          · exact hcomments
        · exact h.unmoved article i doc' hdoc'
      · intro i p hp
        rw [parent, hfind] at hp
        split at hp
        · next hself =>
          cases hp
          rcases hnew with ⟨-, -, hparent⟩ | ⟨article, hcoll, -⟩
          · exact hparent
          · exact absurd (hself.1.trans hcoll).symm article.coll_ne_comment
        · exact h.numbers i p hp

/-- No article that is stored is answered by a father. -/
def Apart (t : Databases S) : Prop :=
  ∀ (article : Article) id, t.find article.coll id ≠ none → Unanswered t id

/-- A new father may answer no stored article. -/
theorem apart_father_iff {t t' : Databases S} {id : Int64} {doc : Doc} (hapart : Apart t)
    (hfind : ∀ c i, t'.find c i = if c = .Comment ∧ i = id then some doc else t.find c i) :
    Apart t' ↔ ∀ (article : Article) (articleid : Int64),
      doc.members.lookup "ParentId" = some (.ofInt articleid.toInt) →
        t.find article.coll articleid = none := by
  -- the articles are those there were
  have harticle : ∀ (article : Article) i, t'.find article.coll i = t.find article.coll i := by
    intro article i
    rw [hfind, if_neg fun hself => article.coll_ne_comment hself.1]
  have hparent : ∀ i, parent t' i =
      if i = id then some (doc.members.lookup "ParentId") else parent t i := by
    intro i
    rw [parent, hfind]
    by_cases hi : i = id
    · simp [hi]
    · simp [hi, parent]
  constructor
  · intro hapart' article articleid hlookup
    by_contra hstays
    refine hapart' article articleid (by rwa [harticle]) id ?_
    rw [hparent, if_pos rfl, hlookup]
  · intro hnone article articleid hstays i hp
    rw [harticle] at hstays
    rw [hparent] at hp
    split at hp
    · exact hstays (hnone article articleid (Option.some.inj hp))
    · exact hapart article articleid hstays i hp

/-- A new article may not have been answered before. -/
theorem apart_article_iff {t t' : Databases S} {id : Int64} {doc : Doc} (hapart : Apart t)
    {article : Article}
    (hfind : ∀ c i, t'.find c i = if c = article.coll ∧ i = id then some doc else t.find c i) :
    Apart t' ↔ Unanswered t id := by
  -- the fathers are those there were
  have hparent : ∀ i, parent t' i = parent t i := by
    intro i
    rw [parent, hfind, if_neg fun hself => article.coll_ne_comment hself.1.symm, parent]
  have hunanswered : ∀ articleid, Unanswered t' articleid ↔ Unanswered t articleid := by
    intro articleid
    simp only [Unanswered, hparent]
  constructor
  · intro hapart'
    refine (hunanswered id).1 (hapart' article id ?_)
    simp [hfind]
  · intro hnew article' articleid hstays
    rw [hunanswered]
    rw [hfind] at hstays
    split at hstays
    · next hself =>
      rw [hself.2]
      exact hnew
    · exact hapart article' articleid hstays

theorem counted_step_iff (h : Inv server) (hcounted : Counted server) (req : CommentRequest) :
    Counted (step (base.onDatabases regex) server req) ↔ StaysApart base regex server req := by
  rw [counted_iff (inv_step h req)]
  have hapart : Apart server.outside := (counted_iff h).1 hcounted
  cases hstored : stored base regex server req with
  | none =>
      -- nothing new, and of the old documents some may be gone
      obtain ⟨harticles, hfathers⟩ := shrinks_step hstored
      refine iff_of_true (fun article id hdoc i hp => ?_) fun coll id doc hsome => by
        cases hstored.symm.trans hsome
      obtain ⟨doc, hdoc⟩ := Option.ne_none_iff_exists'.1 hdoc
      exact hapart article id (by simp [harticles article id doc hdoc]) i (hfathers i _ hp)
  | some new =>
      obtain ⟨coll, id, doc⟩ := new
      obtain ⟨hfree, hnew, hfind⟩ := step_stored hstored
      have hguard : StaysApart base regex server req ↔
          (coll = .Comment → ∀ (article : Article) (articleid : Int64),
            doc.members.lookup "ParentId" = some (.ofInt articleid.toInt) →
              server.outside.find article.coll articleid = none) ∧
          (coll ≠ .Comment → Unanswered server.outside id) := by
        constructor
        · intro hstays
          exact hstays coll id doc hstored
        · intro hstays coll' id' doc' hstored'
          cases hstored.symm.trans hstored'
          exact hstays
      rw [hguard]
      rcases hnew with ⟨rfl, -⟩ | ⟨article, rfl, -⟩
      · rw [forall_prop_of_true rfl, and_iff_left fun hne => absurd rfl hne]
        exact apart_father_iff hapart hfind
      · rw [forall_prop_of_true article.coll_ne_comment,
          and_iff_right fun hcomment => absurd hcomment article.coll_ne_comment]
        exact apart_article_iff hapart hfind

/-- **Comment counters.**  From empty collections, the articles show the numbers of their comments
throughout a run precisely when no comment is ever stored under a stored article, and no article under an
id that stored comments name: the counters never move. -/
theorem counted_throughout_iff (hcomments : server.outside.colls .Comment = Rows.empty)
    (harticles : ∀ article : Article, server.outside.colls article.coll = Rows.empty)
    (reqs : List CommentRequest) :
    Runs.Throughout (step (base.onDatabases regex)) Counted server reqs ↔
      Runs.Guarded (step (base.onDatabases regex)) (StaysApart base regex) server reqs := by
  have hnoarticle : ∀ (article : Article) id, server.outside.find article.coll id = none := by
    intro article id
    rw [Databases.find, harticles, Rows.get?_empty]
  have hinv : Inv server := by
    constructor
    · intro article id doc hdoc
      cases (hnoarticle article id).symm.trans hdoc
    · intro id p hp
      simp [parent, Databases.find, hcomments] at hp
  refine (Runs.guarded_iff_throughout (I := Inv) (fun server req h => inv_step h req)
    (fun server req h hcounted => counted_step_iff h hcounted req) hinv ?_).symm
  intro article id doc hdoc
  cases (hnoarticle article id).symm.trans hdoc

end databases

/-! ## A comment under an article -/

/-- User 7 is logged in, and nothing is stored. -/
def loggedIn : Server (Databases Unit) where
  UserAuthorityMap := fun id => if id = 7 then 3 else 0
  m_problemid := 0
  m_commentid := 0
  m_articleid := 0
  problemtags := .null
  outside := {
    redis := fun db key => if db = .redis_token ∧ key = bytes "100" then some (bytes "7") else none
    user := []
    colls := fun _ => Rows.empty
    rest := () }

def newDiscuss : Json :=
  .object [("Title", .str "DP"), ("Content", .str "..."), ("ParentId", .str "0"), ("UserId", .str "7"),
    ("Token", .str "100")]

def newFather : Json :=
  .object [("ArticleId", .str "1"), ("ArticleType", .str "Discuss"), ("Type", .str "Father"),
    ("ParentId", .str "1"), ("Content", .str "+1"), ("UserId", .str "7"), ("Token", .str "100")]

theorem counted_throughout_iff_comment :
    Runs.Throughout (step (Backend.idle.onDatabases fun _ => none)) Counted loggedIn
        [.insertComment newFather] ↔
      Runs.Guarded (step (Backend.idle.onDatabases fun _ => none)) (StaysApart Backend.idle fun _ => none)
        loggedIn [.insertComment newFather] :=
  counted_throughout_iff rfl (fun _ => rfl) _

/-- A discussion gets its first comment, and goes on showing none. -/
theorem first_comment_not_counted :
    ¬ Runs.Throughout (step (Backend.idle.onDatabases fun _ => none)) Counted loggedIn
      [.insertArticle .Discuss newDiscuss, .insertComment newFather] := by
  rintro ⟨-, -, hcounted⟩
  -- what the discussion shows, and what there is
  have hshown : ((step (Backend.idle.onDatabases fun _ => none)
      (step (Backend.idle.onDatabases fun _ => none) loggedIn (.insertArticle .Discuss newDiscuss))
      (.insertComment newFather)).outside.find .Discuss 1).map
        (fun doc => (doc.members.lookup "Comments").bind Json.number) = some (some 0) := by
    decide +kernel
  have hstored : commentsOf (step (Backend.idle.onDatabases fun _ => none)
      (step (Backend.idle.onDatabases fun _ => none) loggedIn (.insertArticle .Discuss newDiscuss))
      (.insertComment newFather)).outside 1 = 1 := by
    decide +kernel
  obtain ⟨doc, hdoc, hzero⟩ := Option.map_eq_some_iff.1 hshown
  have hone := hcounted .Discuss 1 doc hdoc
  rw [hzero, hstored] at hone
  cases hone

end CommentRequest

end Oj
end Myoj
