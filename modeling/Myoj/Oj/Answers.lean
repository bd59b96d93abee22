import Myoj.Oj.OJServer
import Myoj.Oj.Utf8

/-!
# Answers — which functions always come back with a result

A handler survives when it ends with a JSON that has a string under `Result` and can be dumped.

* `Answerable` — such a JSON; `respond` returns on these and on no other;
* `always_orElse500` — a database function answers as soon as whatever its body returns is an answer,
  because everything the body throws becomes a `"500"`;
* one lemma for each shape of `Mongo`, and from these one for each function of `MoDB`.
-/

namespace Myoj
namespace Oj

open Effect
open Http (HttpRequest HttpResponse)

/-- `SetResponseStatus` and `dump` take the JSON. -/
def Answerable (j : Json) : Prop :=
  (∃ result, j.member "Result" = .string result) ∧ j.dumpable = true

namespace Json

theorem constIndex_string_iff {j : Json} {k : String} {s : Bytes} :
    j.constIndex k = .ok (.string s) ↔ j.member k = .string s := by
  cases j with
  | object ms =>
      simp only [constIndex, member]
      cases ms.lookup k with
      | none =>
          simp
      | some v =>
          simp
  | _ =>
      simp [constIndex, member]

/-- A JSON with a string inside is an object. -/
theorem indexable_of_member {j : Json} {k : String} {s : Bytes} (h : j.member k = .string s) :
    j.Indexable := by
  cases j with
  | object ms =>
      rfl
  | _ =>
      cases h

end Json

section answerable

variable {j : Json}

theorem Answerable.indexable (h : Answerable j) : j.Indexable := by
  rcases h with ⟨⟨result, hresult⟩, -⟩
  exact Json.indexable_of_member hresult

theorem respond_eq_ok_iff {S : Type} (b : Backend S) (resp : HttpResponse) :
    (∃ resp', respond b j resp = .ok resp') ↔ Answerable j := by
  constructor
  · rintro ⟨resp', h⟩
    -- the status is read first, then the text is dumped
    simp only [respond, SetResponseStatus, bind, Except.bind, pure, Except.pure] at h
    cases hindex : j.constIndex "Result" with
    | error e =>
        simp [hindex] at h
    | ok v =>
    cases hv : v.getString with
    | error e =>
        simp [hindex, hv] at h
    | ok s =>
        obtain rfl := Json.getString_eq_ok_iff.1 hv
        refine ⟨⟨s, Json.constIndex_string_iff.1 hindex⟩, ?_⟩
        by_contra hdump
        simp [hindex, Json.dump, hdump] at h
  · rintro ⟨⟨result, hresult⟩, hdump⟩
    simp [respond, SetResponseStatus, Json.constIndex_string_iff.2 hresult, Json.dump, hdump, bind,
      Except.bind, pure, Except.pure]

/-- Writing the result makes any dumpable value an answer. -/
theorem answerable_put_result (hj : j.dumpable = true) (result : String) :
    Answerable (j.put "Result" (.str result)) := by
  refine ⟨⟨bytes result, ?_⟩, Json.dumpable_put hj (Json.dumpable_str _)⟩
  cases j with
  | object ms =>
      simp [Json.put, Json.member, Json.lookup_assign, Json.str]
  | _ =>
      rfl

/-- Writing another member of an answer leaves it one. -/
theorem Answerable.put (h : Answerable j) {k : String} (hk : k ≠ "Result") {v : Json}
    (hv : v.dumpable = true) : Answerable (j.put k v) := by
  rcases h with ⟨⟨result, hresult⟩, hdump⟩
  refine ⟨⟨result, ?_⟩, Json.dumpable_put hdump hv⟩
  rw [Json.member_put (Json.indexable_of_member hresult), if_neg (Ne.symm hk), hresult]

theorem answerable_success (hj : j.dumpable = true) : Answerable (success j) :=
  answerable_put_result hj _

theorem answerable_caught (hj : j.dumpable = true) (reason : String) :
    Answerable (caught j reason) :=
  (answerable_put_result hj "500").put (by decide) (Json.dumpable_str _)

theorem answerable_failure (result reason : String) : Answerable (failure result reason) :=
  have hnull : Json.null.dumpable = true := rfl
  (answerable_put_result hnull result).put (by decide) (Json.dumpable_str _)

end answerable

/-! ## The shapes -/

section shapes

variable {S : Type} {b : Backend S}

/-- The program comes back with an answer from this state. -/
def Answers (m : Action S Json) (server : Server S) : Prop :=
  Returns m server fun j _ => Answerable j

theorem answers_pure {j : Json} {server : Server S} :
    Answers (pure j : Action S Json) server ↔ Answerable j := returns_pure

theorem answers_bind {α : Type} {m : Action S α} {f : α → Action S Json} {server : Server S} :
    Answers (m >>= f) server ↔ Returns m server fun a server => Answers (f a) server := returns_bind

theorem always_orElse500 {resjson : Json} {reason : String} {body : Action S Json}
    (hj : resjson.dumpable = true) (h : Yields body Answerable) :
    Always (orElse500 resjson reason body) Answerable :=
  always_attempt h fun _ => always_pure (answerable_caught hj reason)

theorem yields_insertOne {coll : Collection} {id : Int64} {members : List (String × Json)} :
    Yields (MoDB.insertOne b coll id members) Answerable := by
  refine yields_bind fun inserted => ?_
  split
  · exact yields_pure (answerable_failure _ _)
  · exact yields_pure (answerable_success rfl)

theorem yields_updateById {coll : Collection} {id : Int64} {update : Update} :
    Yields (MoDB.updateById b coll id update) Answerable :=
  yields_bind fun _ => yields_pure (answerable_success rfl)

theorem always_deleteById {coll : Collection} {idField notDeleted : String} {deletejson : Json} :
    Always (MoDB.deleteById b coll idField notDeleted deletejson) Answerable := by
  refine always_orElse500 rfl (yields_bind fun id => yields_bind fun deleted => ?_)
  split
  · exact yields_pure (answerable_failure _ _)
  · exact yields_pure (answerable_success rfl)

theorem dumpable_lastDoc (fields : List String) (docs : List (Int64 × Doc)) :
    (MoDB.lastDoc fields docs).dumpable = true := by
  unfold MoDB.lastDoc
  cases docs.getLast? with
  | none =>
      rfl
  | some found =>
      exact Doc.dumpable_toJson ..

theorem answerable_found (fields : List String) (notFound : String) (docs : List (Int64 × Doc)) :
    Answerable (MoDB.found fields notFound docs) := by
  unfold MoDB.found
  split
  · exact answerable_failure _ _
  · exact answerable_success (dumpable_lastDoc fields docs)

theorem always_selectById {coll : Collection} {idField : String} {views : Bool}
    {joined : List Stage} {fields : List String} {notFound reason : String} {queryjson : Json} :
    Always (MoDB.selectById b coll idField views joined fields notFound reason queryjson)
      Answerable := by
  refine always_orElse500 rfl (yields_bind fun id => ?_)
  cases views with
  | true =>
      exact yields_bind fun _ => yields_bind fun docs => yields_pure (answerable_found ..)
  | false =>
      exact yields_bind fun docs => yields_pure (answerable_found ..)

theorem dumpable_totalNum (total : Option Int) : (MoDB.totalNum total).dumpable = true := by
  cases total <;> rfl

theorem dumpable_array {docs : List Json} (h : ∀ doc ∈ docs, doc.dumpable = true) :
    (Json.array docs).dumpable = true :=
  Json.dumpableAll_iff.2 h

theorem dumpable_pushDocs (name : String) {resjson : Json} {docs : List Json}
    (hj : resjson.dumpable = true) (h : ∀ doc ∈ docs, doc.dumpable = true) :
    (MoDB.pushDocs name resjson docs).dumpable = true := by
  unfold MoDB.pushDocs
  split
  · exact hj
  · exact Json.dumpable_put hj (dumpable_array h)

/-- The documents of a query, as they come out of the driver. -/
theorem dumpable_docs (fields : List String) (docs : List (Int64 × Doc)) :
    ∀ doc ∈ docs.map fun (id, doc) => doc.toJson fields id, doc.dumpable = true := by
  intro doc hdoc
  rcases List.mem_map.1 hdoc with ⟨found, -, rfl⟩
  exact Doc.dumpable_toJson ..

theorem always_pagedList {coll : Collection} {query : Except Exception MoDB.Page}
    {order joined : List Stage} {fields : List String} {computed : List (String × String)}
    {reason : String} {finish : MoDB.Page → Json → List Json → Json}
    (hfinish : ∀ page resjson docs, resjson.dumpable = true →
      (∀ doc ∈ docs, doc.dumpable = true) → Answerable (finish page resjson docs)) :
    Always (MoDB.pagedList b coll query order joined fields computed reason finish) Answerable := by
  refine always_orElse500 rfl (yields_bind fun page => yields_bind fun total => ?_)
  refine (always_orElse500 (dumpable_totalNum total) (yields_bind fun docs => ?_)).yields
  exact yields_pure (hfinish page _ _ (dumpable_totalNum total) (dumpable_docs fields docs))

theorem always_countedList {coll : Collection} {query : Except Exception (List Stage × List Stage)}
    {name : String} {fields : List String} {finish : Json → Json}
    (hfinish : ∀ resjson, resjson.dumpable = true → Answerable (finish resjson)) :
    Always (MoDB.countedList b coll query name fields finish) Answerable := by
  refine always_orElse500 rfl (yields_bind fun page => yields_bind fun docs => ?_)
  have hnull : Json.null.dumpable = true := rfl
  have hres := hfinish _ (dumpable_pushDocs name hnull (dumpable_docs fields docs))
  refine (always_orElse500 hres.2 (yields_bind fun count => yields_pure ?_)).yields
  exact hres.put (by decide) (Json.validUtf8_to_string _)

end shapes

/-! ## The functions that always answer -/

section functions

variable {S : Type} (b : Backend S) (json : Json)

theorem dumpable_ranked (rank : Int32) {docs : List Json}
    (h : ∀ doc ∈ docs, doc.dumpable = true) :
    ∀ doc ∈ MoDB.ranked rank docs, doc.dumpable = true := by
  induction docs generalizing rank with
  | nil =>
      simp [MoDB.ranked]
  | cons doc docs ih =>
      rcases List.forall_mem_cons.1 h with ⟨hdoc, hdocs⟩
      exact List.forall_mem_cons.2 ⟨Json.dumpable_put hdoc rfl, ih (rank + 1) hdocs⟩

theorem always_SelectUserRank : Always (MoDB.SelectUserRank b json) Answerable := by
  refine always_pagedList fun page resjson docs hj hdocs => ?_
  refine answerable_success (Json.dumpable_put hj ?_)
  split
  · rfl
  · exact dumpable_array (dumpable_ranked _ hdocs)

theorem always_SelectUserInfo : Always (MoDB.SelectUserInfo b json) Answerable :=
  always_selectById

theorem always_UpdateUserInfo : Always (MoDB.UpdateUserInfo b json) Answerable := by
  refine always_orElse500 rfl ?_
  iterate 5 refine yields_bind fun _ => ?_
  exact yields_updateById

theorem always_SelectUserUpdateInfo : Always (MoDB.SelectUserUpdateInfo b json) Answerable :=
  always_selectById

theorem always_SelectUserSetInfo : Always (MoDB.SelectUserSetInfo b json) Answerable :=
  always_countedList fun _ => answerable_success

theorem always_SelectProblem : Always (MoDB.SelectProblem b json) Answerable :=
  always_selectById

theorem always_DeleteProblem : Always (MoDB.DeleteProblem b json) Answerable :=
  always_deleteById

theorem always_SelectDiscussList : Always (MoDB.SelectDiscussList b json) Answerable :=
  always_pagedList fun _ _ _ hj hdocs => answerable_success (dumpable_pushDocs _ hj hdocs)

theorem always_SelectDiscussByEdit : Always (MoDB.SelectDiscussByEdit b json) Answerable :=
  always_selectById

theorem always_SelectDiscuss : Always (MoDB.SelectDiscuss b json) Answerable :=
  always_selectById

theorem always_InsertDiscuss : Always (MoDB.InsertDiscuss b json) Answerable := by
  refine always_orElse500 rfl ?_
  iterate 6 refine yields_bind fun _ => ?_
  exact yields_insertOne

theorem always_UpdateDiscuss : Always (MoDB.UpdateDiscuss b json) Answerable := by
  refine always_orElse500 rfl ?_
  iterate 4 refine yields_bind fun _ => ?_
  exact yields_updateById

theorem always_DeleteDiscuss : Always (MoDB.DeleteDiscuss b json) Answerable :=
  always_deleteById

theorem always_SelectSolutionList : Always (MoDB.SelectSolutionList b json) Answerable :=
  always_pagedList fun _ _ _ hj hdocs => answerable_success (dumpable_pushDocs _ hj hdocs)

theorem always_SelectSolutionByEdit : Always (MoDB.SelectSolutionByEdit b json) Answerable :=
  always_selectById

theorem always_SelectSolution : Always (MoDB.SelectSolution b json) Answerable :=
  always_selectById

theorem always_InsertSolution : Always (MoDB.InsertSolution b json) Answerable := by
  refine always_orElse500 rfl ?_
  iterate 8 refine yields_bind fun _ => ?_
  exact yields_insertOne

theorem always_UpdateSolution : Always (MoDB.UpdateSolution b json) Answerable := by
  refine always_orElse500 rfl ?_
  iterate 6 refine yields_bind fun _ => ?_
  exact yields_updateById

theorem always_DeleteSolution : Always (MoDB.DeleteSolution b json) Answerable :=
  always_deleteById

theorem always_SelectAnnouncementList : Always (MoDB.SelectAnnouncementList b json) Answerable :=
  always_pagedList fun _ _ _ hj hdocs => answerable_success (dumpable_pushDocs _ hj hdocs)

theorem always_SelectAnnouncementByEdit :
    Always (MoDB.SelectAnnouncementByEdit b json) Answerable :=
  always_selectById

theorem always_SelectAnnouncement : Always (MoDB.SelectAnnouncement b json) Answerable :=
  always_selectById

theorem always_InsertAnnouncement : Always (MoDB.InsertAnnouncement b json) Answerable := by
  refine always_orElse500 rfl ?_
  iterate 6 refine yields_bind fun _ => ?_
  exact yields_insertOne

theorem always_UpdateAnnouncement : Always (MoDB.UpdateAnnouncement b json) Answerable := by
  refine always_orElse500 rfl ?_
  iterate 5 refine yields_bind fun _ => ?_
  exact yields_updateById

theorem always_DeleteAnnouncement : Always (MoDB.DeleteAnnouncement b json) Answerable :=
  always_deleteById

theorem answerable_inserted (id : Int64) {createtime : Bytes}
    (h : Json.validUtf8 createtime = true) : Answerable (MoDB.inserted id createtime) :=
  answerable_success
    (Json.dumpable_put (Json.dumpable_put rfl (Json.validUtf8_to_string _)) h)

theorem always_InsertFatherComment : Always (MoDB.InsertFatherComment b json) Answerable := by
  refine always_orElse500 rfl ?_
  iterate 5 refine yields_bind fun _ => ?_
  refine yields_bind fun createtime => yields_bind fun _ => yields_pure ?_
  exact answerable_inserted _ createtime.2

theorem always_InsertSonComment : Always (MoDB.InsertSonComment b json) Answerable := by
  refine always_orElse500 rfl ?_
  iterate 4 refine yields_bind fun _ => ?_
  refine yields_bind fun createtime => yields_bind fun _ => yields_pure ?_
  exact answerable_inserted _ createtime.2

end functions

end Oj
end Myoj
