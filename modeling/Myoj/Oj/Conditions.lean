import Myoj.Oj.Answers

/-!
# Conditions — when the other functions come back with a result

A function whose success is not an answer, or that throws outside of its `try`, answers under a
condition on its input and on what the database answers.  Each condition is a definition, followed by
the theorem that the function answers exactly then.

* lists that forget `Result`: `PageFails`, `CountFails` — only the `"500"` is an answer;
* caches: `CacheAnswers`; records: `RecordAnswers`;
* numbers read as strings: `ProblemMissing`, `CommentMissing`;
* logins, edits of problems and submissions.
-/

namespace Myoj
namespace Oj

open Effect
open Http (HttpRequest)

variable {S : Type} {b : Backend S}

theorem not_answerable {j : Json} (h : j.member "Result" = .null) : ¬ Answerable j := by
  rintro ⟨⟨result, hresult⟩, -⟩
  cases h.symm.trans hresult

theorem answers_orElse500 {resjson : Json} {reason : String} {body : Action S Json}
    (hj : resjson.dumpable = true) (server : Server S) :
    Answers (orElse500 resjson reason body) server ↔ Throws body server ∨ Answers body server :=
  returns_orElse500 fun _ => answerable_caught hj reason

/-- A function behind a `try` does not throw. -/
theorem not_throws_orElse500 {resjson : Json} {reason : String} {body : Action S Json}
    (server : Server S) : ¬ Throws (orElse500 resjson reason body) server := by
  simp only [Throws, orElse500, attempt]
  cases body server <;> exact id

/-- A body without answers leaves the `"500"`. -/
theorem answers_orElse500_of_not {resjson : Json} {reason : String} {body : Action S Json}
    {server : Server S} (hj : resjson.dumpable = true) (h : ¬ Answers body server) :
    Answers (orElse500 resjson reason body) server ↔ Throws body server := by
  rw [answers_orElse500 hj, or_iff_left h]

/-- A body that returns no answers does not answer. -/
theorem not_answers_of_yields {body : Action S Json} (h : Yields body fun j => ¬ Answerable j)
    (server : Server S) : ¬ Answers body server := by
  rintro ⟨j, server', hbody, hj⟩
  exact h server j server' hbody hj

/-- A call with nothing after it that could throw. -/
theorem throws_call_pure {α β : Type} {op : EStateM Exception S α} {f : α → β}
    {server : Server S} :
    Throws (do return f (← call op) : Action S β) server ↔ Throws op server.outside := by
  simp only [throws_bind, throws_call, throws_pure, not_returns_false, or_false]

/-! ## Documents -/

/-- A document shows the fields it is projected on. -/
theorem member_toJson {fields : List String} {k : String} (hid : k ≠ "_id")
    (hk : k ∉ fields.map rootOf) (id : Int64) (doc : Doc) : (doc.toJson fields id).member k = .null := by
  simp only [Doc.toJson, Json.member, Json.lookup_cons_ite, if_neg hid]
  rw [List.lookup_eq_none_iff.2]
  · rfl
  · intro m hm
    have hmem := (List.mem_filter.1 hm).2
    simp only [decide_eq_true_eq] at hmem
    refine bne_iff_ne.2 fun hkm => hk ?_
    rw [hkm]
    exact hmem.2

theorem member_id_toJson (fields : List String) (id : Int64) (doc : Doc) :
    (doc.toJson fields id).member "_id" = .number_integer id.toInt := by
  simp [Doc.toJson, Json.member]

@[simp] theorem indexable_totalNum (total : Option Int) : (MoDB.totalNum total).Indexable = true := by
  cases total <;> rfl

theorem member_totalNum {k : String} (hk : k ≠ "TotalNum") (total : Option Int) :
    (MoDB.totalNum total).member k = .null := by
  cases total with
  | none =>
      rfl
  | some n =>
      simp [MoDB.totalNum, Json.member, Json.lookup_cons_ite, hk]

@[simp] theorem indexable_pushDocs {name : String} {resjson : Json} {docs : List Json}
    (hj : resjson.Indexable) : (MoDB.pushDocs name resjson docs).Indexable = true := by
  unfold MoDB.pushDocs
  split
  · exact hj
  · exact Json.indexable_put ..

theorem member_pushDocs {name k : String} (hk : k ≠ name) {resjson : Json} (docs : List Json)
    (hj : resjson.Indexable) : (MoDB.pushDocs name resjson docs).member k = resjson.member k := by
  unfold MoDB.pushDocs
  split
  · rfl
  · rw [Json.member_put hj, if_neg hk]

/-! ## Lists without a result -/

/-- The request describes no page, the count throws, or the page does. -/
def PageFails (b : Backend S) (coll : Collection) (query : Except Exception MoDB.Page)
    (pipe : MoDB.Page → List Stage) (outside : S) : Prop :=
  match query with
  | .error _ => True
  | .ok page =>
      Throws (b.aggregateCount coll page.filter) outside ∨
        Returns (b.aggregateCount coll page.filter) outside fun _ outside =>
          Throws (b.aggregate coll (pipe page)) outside

theorem answers_pagedList_iff {coll : Collection} {query : Except Exception MoDB.Page}
    {order joined : List Stage} {fields : List String} {computed : List (String × String)}
    {reason : String} {finish : MoDB.Page → Json → List Json → Json}
    (hfinish : ∀ page total docs, (finish page (MoDB.totalNum total) docs).member "Result" = .null)
    (server : Server S) :
    Answers (MoDB.pagedList b coll query order joined fields computed reason finish) server ↔
      PageFails b coll query (fun page => page.pipe order joined fields computed)
        server.outside := by
  rw [MoDB.pagedList, answers_orElse500 rfl]
  cases query with
  | error e =>
      simp only [PageFails, throws_bind, throws_liftM, Except.error.injEq, exists_eq', true_or]
  | ok page =>
      -- behind the count, only the inner `catch` leaves a result
      have hfetch : ∀ (total : Option Int) (shown : List (Int64 × Doc) → List Json) (server : Server S),
          Answers (orElse500 (MoDB.totalNum total) reason do
            let docs ← call (b.aggregate coll (page.pipe order joined fields computed))
            return finish page (MoDB.totalNum total) (shown docs)) server ↔
            Throws (b.aggregate coll (page.pipe order joined fields computed)) server.outside := by
        intro total shown server
        rw [answers_orElse500_of_not (dumpable_totalNum total)
          (not_answers_of_yields
            (yields_bind fun docs => yields_pure (not_answerable (hfinish page total _))) server)]
        exact throws_call_pure
      simp only [PageFails, throws_bind, throws_liftM, returns_liftM, throws_call, answers_bind,
        returns_call, hfetch, not_throws_orElse500, not_returns_false, reduceCtorEq, exists_false,
        Except.ok.injEq, exists_eq_left', false_or, or_false]

/-- The request describes no page, the page throws, or the count does. -/
def CountFails (b : Backend S) (coll : Collection)
    (query : Except Exception (List Stage × List Stage)) (outside : S) : Prop :=
  match query with
  | .error _ => True
  | .ok (filter, pipe) =>
      Throws (b.aggregate coll pipe) outside ∨
        Returns (b.aggregate coll pipe) outside fun _ outside =>
          Throws (b.count_documents coll filter) outside

theorem answers_countedList_iff {coll : Collection}
    {query : Except Exception (List Stage × List Stage)} {name : String} {fields : List String}
    (hname : "Result" ≠ name) (server : Server S) :
    Answers (MoDB.countedList b coll query name fields id) server ↔
      CountFails b coll query server.outside := by
  rw [MoDB.countedList, answers_orElse500 rfl]
  cases query with
  | error e =>
      simp only [CountFails, throws_bind, throws_liftM, Except.error.injEq, exists_eq', true_or]
  | ok query =>
      rcases query with ⟨filter, pipe⟩
      have hnull : Json.null.dumpable = true := rfl
      -- behind the documents, only the inner `catch` leaves a result
      have hcount : ∀ (docs : List (Int64 × Doc)) (shown : (Int64 × Doc) → Json) (server : Server S),
          (∀ doc ∈ docs.map shown, doc.dumpable = true) →
          (Answers (orElse500 (id (MoDB.pushDocs name .null (docs.map shown))) "数据库异常！" do
            let count ← call (b.count_documents coll filter)
            return (id (MoDB.pushDocs name .null (docs.map shown))).put "TotalNum"
              (.string (Numerals.to_string count))) server ↔
            Throws (b.count_documents coll filter) server.outside) := by
        intro docs shown server hdocs
        refine (answers_orElse500_of_not (dumpable_pushDocs name hnull hdocs)
          (not_answers_of_yields (yields_bind fun count => yields_pure (not_answerable ?_))
            server)).trans throws_call_pure
        rw [id_eq, Json.member_put (indexable_pushDocs rfl), if_neg (by decide),
          member_pushDocs hname _ rfl]
        rfl
      simp only [CountFails, throws_bind, throws_liftM, returns_liftM, throws_call, answers_bind,
        returns_call, hcount _ _ _ (dumpable_docs fields _), not_throws_orElse500, not_returns_false, reduceCtorEq, exists_false,
        Except.ok.injEq, exists_eq_left', false_or, or_false]

/-- The pipelines behind a page of problems, of records and of articles. -/
def problemPipe (page : MoDB.Page) : List Stage :=
  page.pipe [.sort [("_id", 1)]] [] MoDB.problemFields [("ProblemId", "$_id")]

def recordPipe (page : MoDB.Page) : List Stage :=
  page.pipe [.sort [("SubmitTime", -1)]] [] MoDB.recordFields []

def articlePipeByAdmin (page : MoDB.Page) : List Stage :=
  page.pipe [.sort [("CreateTime", -1)]] [.lookupUser "UserId" "User"] MoDB.articleFieldsByAdmin []

theorem answers_SelectProblemList_iff (json : Json) (server : Server S) :
    Answers (MoDB.SelectProblemList b json) server ↔
      PageFails b .Problem (MoDB.problemPage json) problemPipe server.outside :=
  answers_pagedList_iff (fun page total docs => by
    rw [Json.member_put (indexable_pushDocs (indexable_totalNum total)), if_neg (by decide),
      member_pushDocs (by decide) _ (indexable_totalNum total), member_totalNum (by decide)]) server

theorem member_assignDocs (total : Option Int) (docs : List Json) :
    (MoDB.assignDocs (MoDB.totalNum total) docs).member "Result" = .null := by
  rw [MoDB.assignDocs, Json.member_put (indexable_totalNum total), if_neg (by decide),
    member_totalNum (by decide)]

theorem answers_SelectProblemListByAdmin_iff (json : Json) (server : Server S) :
    Answers (MoDB.SelectProblemListByAdmin b json) server ↔
      PageFails b .Problem (MoDB.pageOf [] json) problemPipe server.outside :=
  answers_pagedList_iff (fun _ => member_assignDocs) server

theorem answers_SelectStatusRecordList_iff (json : Json) (server : Server S) :
    Answers (MoDB.SelectStatusRecordList b json) server ↔
      PageFails b .StatusRecord (MoDB.statusRecordPage json) recordPipe server.outside :=
  answers_pagedList_iff (fun _ => member_assignDocs) server

theorem member_pushDocs_totalNum (total : Option Int) (docs : List Json) :
    (MoDB.pushDocs "ArrayInfo" (MoDB.totalNum total) docs).member "Result" = .null := by
  rw [member_pushDocs (by decide) _ (indexable_totalNum total), member_totalNum (by decide)]

theorem answers_SelectDiscussListByAdmin_iff (json : Json) (server : Server S) :
    Answers (MoDB.SelectDiscussListByAdmin b json) server ↔
      PageFails b .Discuss (MoDB.pageOf [] json) articlePipeByAdmin server.outside :=
  answers_pagedList_iff (fun _ => member_pushDocs_totalNum) server

theorem answers_SelectSolutionListByAdmin_iff (json : Json) (server : Server S) :
    Answers (MoDB.SelectSolutionListByAdmin b json) server ↔
      PageFails b .Solution (MoDB.pageOf [] json) articlePipeByAdmin server.outside :=
  answers_pagedList_iff (fun _ => member_pushDocs_totalNum) server

theorem answers_SelectCommentListByAdmin_iff (json : Json) (server : Server S) :
    Answers (MoDB.SelectCommentListByAdmin b json) server ↔
      CountFails b .Comment (MoDB.commentQueryByAdmin json) server.outside :=
  answers_countedList_iff (by decide) server

theorem answers_getFatherComment_iff (json : Json) (server : Server S) :
    Answers (MoDB.getFatherComment b json) server ↔
      CountFails b .Comment (MoDB.fatherQuery json) server.outside :=
  answers_countedList_iff (by decide) server

/-- The sons of a comment are not described by the request, or cannot be fetched. -/
def SonsFail (b : Backend S) (json : Json) (outside : S) : Prop :=
  match MoDB.sonQuery json with
  | .error _ => True
  | .ok pipe => Throws (b.aggregate .Comment pipe) outside

theorem member_lastDoc {fields : List String} {k : String} (hid : k ≠ "_id")
    (hk : k ∉ fields.map rootOf) (docs : List (Int64 × Doc)) :
    (MoDB.lastDoc fields docs).member k = .null := by
  unfold MoDB.lastDoc
  cases docs.getLast? with
  | none =>
      rfl
  | some found =>
      exact member_toJson hid hk _ _

theorem indexable_lastDoc (fields : List String) (docs : List (Int64 × Doc)) :
    (MoDB.lastDoc fields docs).Indexable = true := by
  unfold MoDB.lastDoc
  cases docs.getLast? <;> rfl

theorem answers_getSonComment_iff (json : Json) (server : Server S) :
    Answers (MoDB.getSonComment b json) server ↔ SonsFail b json server.outside := by
  rw [MoDB.getSonComment, answers_orElse500_of_not rfl]
  -- the document has no `Result`, so only what throws is an answer
  · cases hquery : MoDB.sonQuery json with
    | error e =>
        simp only [SonsFail, hquery, throws_bind, throws_liftM, Except.error.injEq, exists_eq',
          true_or]
    | ok pipe =>
        simp only [SonsFail, hquery, throws_bind, throws_liftM, returns_liftM, throws_call,
          throws_pure, not_returns_false, reduceCtorEq, exists_false,
          Except.ok.injEq, exists_eq_left', false_or, or_false]
  · refine not_answers_of_yields (yields_bind fun pipe => yields_bind fun docs => ?_) server
    exact yields_pure (not_answerable (member_lastDoc (by decide) (by decide) docs))

/-! ## Caches, records and problems -/

/-- A cached text is an answer: JSON with a string under `Result`. -/
def TextAnswers (b : Backend S) (text : Bytes) : Prop :=
  ∃ j, b.parse text = some j ∧ ∃ result, j.1.member "Result" = .string result

theorem answers_parseJson_iff (text : Bytes) (server : Server S) :
    Answers (liftM (b.parseJson text)) server ↔ TextAnswers b text := by
  simp only [Answers, returns_liftM, Backend.parseJson, TextAnswers]
  cases b.parse text with
  | none =>
      simp only [reduceCtorEq, false_and, exists_false]
  | some j =>
      simp only [Except.ok.injEq, exists_eq_left', Option.some.injEq, Answerable, j.2, and_true]

theorem always_addCache (kind : String) (key info : Bytes) :
    Always (ReDB.addCache b kind key info) fun _ => True :=
  always_attempt (fun _ _ _ _ => trivial) fun _ => always_pure trivial

/-- Dumping an answer into a cache does not fail. -/
theorem always_cache (kind : String) (key : Bytes) {resjson : Json}
    (h : resjson.dumpable = true) :
    Always (do
      resjson.dump
      let _ ← ReDB.addCache b kind key (b.dumpText resjson) : Action S Unit) fun _ => True := by
  intro server
  rw [Json.dump, if_pos h, returns_bind, returns_iff_of_ok liftM_ok_apply]
  exact (always_addCache kind key _).bind (fun _ _ => always_pure trivial) server

theorem stringAt_of_member {j : Json} {k : String} {s : Bytes} (h : j.member k = .string s) :
    j.stringAt k = .ok s := by
  rw [Json.stringAt, Json.index_of_indexable (Json.indexable_of_member h), h]
  rfl

/-- Caching a problem that was looked up does not fail. -/
theorem always_cacheProblem (problemid : Bytes) {resjson : Json} (h : Answerable resjson) :
    Always (ProblemList.cacheProblem b problemid resjson) fun _ => True := by
  rcases h with ⟨⟨result, hresult⟩, hdump⟩
  intro server
  simp only [ProblemList.cacheProblem, stringAt_of_member hresult, returns_bind, returns_liftM,
    Except.ok.injEq, exists_eq_left']
  split
  · exact always_cache _ _ hdump server
  · exact returns_pure.2 trivial

/-- The problem is looked up, unless a text is cached. -/
def ProblemAnswers (b : Backend S) (problemid : Bytes) (outside : S) : Prop :=
  ReDB.cached b "Cache:Problem:" problemid outside ≠ [] →
    TextAnswers b (ReDB.cached b "Cache:Problem:" problemid outside)

theorem answers_SelectProblem_iff {json : Json} {problemid : Bytes}
    (hid : json.member "ProblemId" = .string problemid) (server : Server S) :
    Answers (ProblemList.SelectProblem b json) server ↔
      ProblemAnswers b problemid server.outside := by
  rw [ProblemList.SelectProblem, stringAt_of_member hid, answers_bind, returns_iff_of_ok
    liftM_ok_apply, answers_bind, ReDB.GetProblemCache, returns_iff_of_ok (ReDB.getCache_apply ..)]
  by_cases htext : ReDB.cached b "Cache:Problem:" problemid server.outside = []
  · rw [if_neg (not_not.2 htext), ProblemAnswers]
    refine iff_of_true ?_ fun hne => absurd htext hne
    refine (always_SelectProblem b json).bind (fun resjson hres => ?_) _
    exact (always_cacheProblem problemid hres).bind fun _ _ => always_pure hres
  · rw [if_pos htext, answers_parseJson_iff, ProblemAnswers]
    exact ⟨fun h _ => h, fun h => h htext⟩

/-- The id is no number, the query throws, or the record has a number as its status. -/
def RecordAnswers (b : Backend S) (json : Json) (outside : S) : Prop :=
  match json.int64At "SubmitId" with
  | .error _ => True
  | .ok submitid =>
      Throws (b.aggregate .StatusRecord [MoDB.byId submitid, .project MoDB.statusRecordFields []])
          outside ∨
        Returns (b.aggregate .StatusRecord
            [MoDB.byId submitid, .project MoDB.statusRecordFields []]) outside fun docs _ =>
          ∃ status, ((MoDB.lastDoc MoDB.statusRecordFields docs).member "Status").getInt = .ok status

/-- What is cached of a record: an error is not, and a success must have a status. -/
theorem returns_cacheStatusRecord_iff (statusrecordid : Bytes) {resjson : Json}
    (h : Answerable resjson) (server : Server S) :
    (Returns (StatusRecordList.cacheStatusRecord b statusrecordid resjson) server fun _ _ => True) ↔
      (resjson.member "Result" = .str "Success" →
        ∃ status, (resjson.member "Status").getInt = .ok status) := by
  rcases h with ⟨⟨result, hresult⟩, hdump⟩
  have hindex := Json.index_of_indexable (Json.indexable_of_member hresult) "Status"
  simp only [StatusRecordList.cacheStatusRecord, stringAt_of_member hresult, hindex, returns_bind,
    returns_liftM, Except.ok.injEq, exists_eq_left', hresult, Json.str, Json.string.injEq]
  -- only a success is looked at any further
  split
  · rename_i hsuccess
    simp only [hsuccess, forall_const, returns_bind, returns_liftM, Except.ok.injEq,
      exists_eq_left']
    refine exists_congr fun status => and_iff_left_of_imp fun _ => ?_
    split
    · exact always_cache _ _ hdump server
    · exact returns_pure.2 trivial
  · rename_i hother
    exact iff_of_true (returns_pure.2 trivial) fun heq => absurd heq hother

theorem answers_record_iff (statusrecordid : Bytes) {resjson : Json} (h : Answerable resjson)
    (server : Server S) :
    (Answers (do
      StatusRecordList.cacheStatusRecord b statusrecordid resjson
      return resjson) server) ↔
      (resjson.member "Result" = .str "Success" →
        ∃ status, (resjson.member "Status").getInt = .ok status) := by
  rw [answers_bind, ← returns_cacheStatusRecord_iff (b := b) statusrecordid h server]
  simp only [answers_pure, h]

/-- The text is cached, or the record is looked up. -/
def StatusRecordAnswers (b : Backend S) (json : Json) (submitid : Bytes) (server : Server S) :
    Prop :=
  if ReDB.cached b "Cache:StatusRecord:" submitid server.outside ≠ [] then
    TextAnswers b (ReDB.cached b "Cache:StatusRecord:" submitid server.outside)
  else RecordAnswers b json (ReDB.afterCache b "Cache:StatusRecord:" submitid server).outside

theorem answers_SelectStatusRecord_iff {json : Json} {submitid : Bytes}
    (hid : json.member "SubmitId" = .string submitid) (server : Server S) :
    Answers (StatusRecordList.SelectStatusRecord b json) server ↔
      StatusRecordAnswers b json submitid server := by
  rw [StatusRecordList.SelectStatusRecord, stringAt_of_member hid, answers_bind, returns_iff_of_ok
    liftM_ok_apply, answers_bind, ReDB.GetStatusRecordCache,
    returns_iff_of_ok (ReDB.getCache_apply ..), StatusRecordAnswers]
  by_cases htext : ReDB.cached b "Cache:StatusRecord:" submitid server.outside = []
  · rw [if_neg (not_not.2 htext), if_neg (not_not.2 htext)]
    generalize ReDB.afterCache b "Cache:StatusRecord:" submitid server = server
    -- an exception is an answer, a record must have a status
    have hcaught := answerable_caught (j := .null) rfl "数据库异常！"
    rw [answers_bind, MoDB.SelectStatusRecord, returns_orElse500 fun server =>
      (answers_record_iff submitid hcaught server).2 (by rw [member_caught rfl]; simp)]
    cases hsubmit : json.int64At "SubmitId" with
    | error e =>
        simp only [RecordAnswers, hsubmit, throws_bind, throws_liftM, Except.error.injEq,
          exists_eq', true_or]
    | ok id =>
        have hanswer : ∀ docs, Answerable (success (MoDB.lastDoc MoDB.statusRecordFields docs)) :=
          fun docs => answerable_success (dumpable_lastDoc _ docs)
        simp only [RecordAnswers, hsubmit, throws_bind, throws_liftM, returns_liftM, throws_call,
          returns_call, returns_bind, returns_pure, throws_pure, not_returns_false, reduceCtorEq,
          exists_false, Except.ok.injEq, exists_eq_left', false_or, or_false,
          answers_record_iff submitid (hanswer _), member_success (indexable_lastDoc _ _),
          if_true, forall_const]
        simp
  · rw [if_pos htext, if_pos htext, answers_parseJson_iff]

end Oj
end Myoj
