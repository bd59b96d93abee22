import Myoj.Oj.Conditions

/-!
# ProblemConditions — when the operations on problems come back with a result

The id of a problem is a number in the database and a string in a request, and the code reads it as a
string in both.  So what was found or inserted makes the reader throw, and only what was not found or
not inserted is reported.

* `ProblemMissing` — the problem to be shown to an administrator is not there;
* `InsertRefused` — the new problem was not inserted;
* `DataTyped` — the data of a changed problem has the types the code asks for;
* `afterUpdate` — where the calls of an update leave the databases and the files;
* `EditAnswers` — the two kinds of edit, with the tag query after them.
-/

namespace Myoj
namespace Oj

open Effect

variable {S : Type} {b : Backend S}

/-- A value that is not a string is not read as one. -/
theorem stringAt_error {j : Json} {k : String} (h : ∀ s, j.member k ≠ .string s) :
    ∃ e, j.stringAt k = .error e := by
  cases hk : j.stringAt k with
  | error e =>
      exact ⟨e, rfl⟩
  | ok s =>
      rw [Json.stringAt, Json.index_eq] at hk
      split at hk
      · exact absurd (Json.getString_eq_ok_iff.1 hk) (h s)
      · cases hk

theorem intAt_ne_ok {j : Json} {k : String} (h : ∀ s, j.member k ≠ .string s) (n : Int32) :
    j.intAt k ≠ .ok n := by
  rcases stringAt_error h with ⟨e, he⟩
  simp [Json.intAt, he, bind, Except.bind]

theorem int64At_ne_ok {j : Json} {k : String} (h : ∀ s, j.member k ≠ .string s) (n : Int64) :
    j.int64At k ≠ .ok n := by
  rcases stringAt_error h with ⟨e, he⟩
  simp [Json.int64At, he, bind, Except.bind]

theorem stringAt_eq_ok_iff {j : Json} {k : String} {s : Bytes} :
    j.stringAt k = .ok s ↔ j.member k = .string s := by
  refine ⟨fun h => ?_, stringAt_of_member⟩
  by_contra hne
  rcases stringAt_error fun s' hs' => hne (by
    cases (stringAt_of_member hs').symm.trans h
    exact hs') with ⟨e, he⟩
  cases he.symm.trans h

/-- A program that starts by reading what is no string does not return. -/
theorem not_returns_stringAt {α : Type} {j : Json} {k : String} {f : Bytes → Action S α}
    {server : Server S} {Q : α → Server S → Prop} (h : ∀ s, j.member k ≠ .string s) :
    ¬ Returns ((liftM (j.stringAt k) : Action S Bytes) >>= f) server Q := by
  rcases stringAt_error h with ⟨e, he⟩
  simp only [he, returns_bind, returns_liftM, reduceCtorEq, false_and, exists_false,
    not_false_eq_true]

theorem eqString_of_member {j : Json} {k r : String} (s : String) (h : j.member k = .str r) :
    (j.member k).eqString s = decide (r = s) := by
  rw [h]
  by_cases hrs : r = s
  · simp [Json.str, Json.eqString, hrs]
  · simp [Json.str, Json.eqString, hrs]

/-! ## The problem shown to an administrator -/

/-- The id is a number, the query returns, and finds nothing. -/
def ProblemMissing (b : Backend S) (json : Json) (outside : S) : Prop :=
  ∃ id, json.int64At "ProblemId" = .ok id ∧
    Returns (b.aggregate .Problem [MoDB.byId id, .project MoDB.problemInfoFields []]) outside
      fun docs _ => docs.isEmpty = true

/-- What follows the check for `Fail`, on a result that has no string as its `_id`. -/
theorem answers_after_fail_iff {resjson : Json} {r : String} (hans : Answerable resjson)
    (hr : resjson.member "Result" = .str r) (hid : ∀ s, resjson.member "_id" ≠ .string s)
    (server : Server S) :
    Answers (do
      if (← resjson.stringAt "Result") = bytes "Fail" then return resjson
      else ProblemList.addTestInfo b resjson) server ↔ r = "Fail" := by
  rw [stringAt_of_member hr, answers_bind, returns_iff_of_ok liftM_ok_apply]
  by_cases hfail : r = "Fail"
  · simp only [hfail, if_true, answers_pure, hans]
  · rw [if_neg (by simpa using hfail)]
    exact iff_of_false (not_returns_stringAt hid) hfail

theorem member_found (fields : List String) (notFound : String) (docs : List (Int64 × Doc)) :
    (MoDB.found fields notFound docs).member "Result" =
      .str (if docs.isEmpty then "Fail" else "Success") := by
  unfold MoDB.found
  split
  · rw [member_failure]
    rfl
  · rw [member_success (indexable_lastDoc _ _), if_pos rfl]

theorem member_id_found (fields : List String) (notFound : String) (docs : List (Int64 × Doc))
    (s : Bytes) : (MoDB.found fields notFound docs).member "_id" ≠ .string s := by
  unfold MoDB.found
  split
  · rw [member_failure]
    simp
  · rw [member_success (indexable_lastDoc _ _), if_neg (by decide), MoDB.lastDoc]
    cases docs.getLast? with
    | none =>
        simp
    | some found =>
        rw [member_id_toJson]
        simp

theorem answers_SelectProblemInfoByAdmin_iff (json : Json) (server : Server S) :
    Answers (ProblemList.SelectProblemInfoByAdmin b json) server ↔
      ProblemMissing b json server.outside := by
  have hcaught := answerable_caught (j := .null) rfl "数据库异常！"
  -- a result without a string as its `_id` throws unless it is a `Fail`
  have hid : ∀ s, (caught .null "数据库异常！").member "_id" ≠ .string s := by
    intro s
    rw [member_caught rfl]
    simp
  have hfound : ∀ (docs : List (Int64 × Doc)) (server : Server S),
      Answers (do
        if (← (MoDB.found MoDB.problemInfoFields "数据库未查询到该信息！" docs).stringAt "Result") =
            bytes "Fail" then
          return MoDB.found MoDB.problemInfoFields "数据库未查询到该信息！" docs
        else
          ProblemList.addTestInfo b
            (MoDB.found MoDB.problemInfoFields "数据库未查询到该信息！" docs)) server ↔
        docs.isEmpty = true := by
    intro docs server
    refine (answers_after_fail_iff (answerable_found _ _ docs) (member_found _ _ docs)
      (fun s => member_id_found _ _ docs s) server).trans ?_
    cases docs <;> simp
  rw [ProblemList.SelectProblemInfoByAdmin, answers_bind, MoDB.SelectProblemInfoByAdmin,
    MoDB.selectById, returns_orElse500_of_not fun server => by
      rw [answers_after_fail_iff hcaught (member_caught rfl ..) hid]
      decide]
  simp only [ProblemMissing, Bool.false_eq_true, if_false, List.cons_append, List.nil_append,
    returns_bind, returns_liftM, returns_call, returns_pure, hfound]

/-! ## A new problem -/

/-- The fields are there, the insertion returns, and inserts nothing. -/
def InsertRefused (b : Backend S) (json : Json) (server : Server S) : Prop :=
  ∃ members, MoDB.problemMembers json = .ok members ∧
    Returns (b.insert_one .Problem (server.m_problemid + 1).toInt32.toInt64
        (members ++ MoDB.problemCounters)) server.outside
      fun inserted _ => inserted < 1

/-- The data of a problem is not written under a number: reading that as a string throws. -/
theorem insertData_error (insertjson : Json) {tmpjson : Json}
    (hid : ∀ s, tmpjson.member "ProblemId" ≠ .string s) (server : Server S) : ∃ e, ProblemList.insertData b insertjson tmpjson server = .error e server := by
  rw [ProblemList.insertData, Json.index_eq]
  by_cases htmp : tmpjson.Indexable = true
  · rw [if_pos htmp, bind_of_ok liftM_ok_apply, Json.set_eq]
    by_cases hjson : insertjson.Indexable = true
    · obtain ⟨e, he⟩ := stringAt_error (k := "ProblemId") fun s => by
        rw [Json.member_put hjson "ProblemId" (tmpjson.member "ProblemId"), if_pos rfl]
        exact hid s
      rw [if_pos hjson, bind_of_ok liftM_ok_apply, ProblemList.InsertProblemDataInfo, he]
      exact ⟨e, rfl⟩
    · rw [if_neg hjson]
      exact ⟨_, rfl⟩
  · rw [if_neg htmp]
    exact ⟨_, rfl⟩

theorem not_returns_insertData {insertjson tmpjson : Json} {server : Server S}
    {Q : Json → Server S → Prop} (hid : ∀ s, tmpjson.member "ProblemId" ≠ .string s) :
    ¬ Returns (ProblemList.insertData b insertjson tmpjson) server Q := by
  obtain ⟨e, he⟩ := insertData_error (b := b) insertjson hid server
  exact not_returns_of_error he

/-- What follows the insertion, on a result without a string as its id. -/
theorem answers_after_insert_iff {insertjson tmpjson : Json} {r : String}
    (hans : Answerable tmpjson) (hr : tmpjson.member "Result" = .str r)
    (hid : ∀ s, tmpjson.member "ProblemId" ≠ .string s) (server : Server S) :
    Answers (do
      if (← tmpjson.index "Result").eqString "Fail" then return tmpjson
      else ProblemList.insertData b insertjson tmpjson) server ↔ r = "Fail" := by
  rw [Json.index_of_indexable hans.indexable, answers_bind, returns_iff_of_ok liftM_ok_apply,
    eqString_of_member "Fail" hr]
  by_cases hfail : r = "Fail"
  · simp only [hfail, decide_true, if_true, answers_pure, hans]
  · simp only [hfail, decide_false, Bool.false_eq_true, if_false, iff_false]
    exact not_returns_insertData hid

theorem answerable_insertedProblem (problemid : Int32) (inserted : Nat) :
    Answerable (MoDB.insertedProblem problemid inserted) := by
  unfold MoDB.insertedProblem
  split
  · exact answerable_failure _ _
  · exact (answerable_success rfl).put (by decide) (Json.dumpable_ofInt _)

theorem member_insertedProblem (problemid : Int32) (inserted : Nat) :
    (MoDB.insertedProblem problemid inserted).member "Result" =
      .str (if inserted < 1 then "Fail" else "Success") := by
  unfold MoDB.insertedProblem
  split
  · rw [member_failure]
    rfl
  · rfl

theorem member_id_insertedProblem (problemid : Int32) (inserted : Nat) (s : Bytes) :
    (MoDB.insertedProblem problemid inserted).member "ProblemId" ≠ .string s := by
  unfold MoDB.insertedProblem
  split
  · rw [member_failure]
    simp
  · rw [Json.member_put (indexable_success _), if_pos rfl]
    simp [Json.ofInt]

theorem answers_InsertProblem_iff (json : Json) (server : Server S) :
    Answers (ProblemList.InsertProblem b json) server ↔ InsertRefused b json server := by
  have hcaught := answerable_caught (j := .null) rfl "数据库异常！"
  -- the same for the id of an insertion, which is a number where there is one
  have hid : ∀ s, (caught .null "数据库异常！").member "ProblemId" ≠ .string s := by
    intro s
    rw [member_caught rfl]
    simp
  have hinserted : ∀ (problemid : Int32) (inserted : Nat) (server : Server S),
      Answers (do
        if (← (MoDB.insertedProblem problemid inserted).index "Result").eqString "Fail" then
          return MoDB.insertedProblem problemid inserted
        else
          ProblemList.insertData b json (MoDB.insertedProblem problemid inserted)) server ↔
        inserted < 1 := by
    intro problemid inserted server
    refine (answers_after_insert_iff (answerable_insertedProblem problemid inserted)
      (member_insertedProblem problemid inserted)
      (fun s => member_id_insertedProblem problemid inserted s) server).trans ?_
    split <;> simp [*]
  have hnext : MoDB.nextProblemId server =
      .ok (server.m_problemid + 1) { server with m_problemid := server.m_problemid + 1 } := rfl
  rw [ProblemList.InsertProblem, answers_bind, MoDB.InsertProblem,
    returns_orElse500_of_not fun server => by
      rw [answers_after_insert_iff hcaught (member_caught rfl ..) hid]
      decide]
  simp only [InsertRefused, returns_bind, returns_iff_of_ok hnext, returns_liftM, returns_call,
    returns_pure, hinserted]

/-! ## The data of a problem -/

/-- Every test has the text of its two files. -/
def TestsTyped (testinfo : Json) (indices : List Nat) : Prop :=
  ∀ i ∈ indices, ∃ test, testinfo.nth i = .ok test ∧
    (∃ text, test.member "in" = .string text) ∧ ∃ text, test.member "out" = .string text

/-- The members that are written to the files of a problem. -/
structure DataTyped (json : Json) : Prop where
  problemid : ∃ problemid, json.member "ProblemId" = .string problemid
  tests : TestsTyped (json.member "TestInfo") (List.range (json.member "TestInfo").size)
  spj : ∃ isspj, json.member "IsSPJ" = .boolean isspj ∧
    (isspj = true → ∃ spj, json.member "SPJ" = .string spj)

theorem returns_writeTests_iff (problemid : Bytes) (testinfo : Json) (indices : List Nat)
    {Q : Prop} (server : Server S) :
    (Returns (ProblemList.writeTests b problemid testinfo indices) server fun _ _ => Q) ↔
      TestsTyped testinfo indices ∧ Q := by
  induction indices generalizing server with
  | nil =>
      simp [ProblemList.writeTests, TestsTyped]
  | cons i indices ih =>
      simp only [ProblemList.writeTests, ProblemList.writeTest, returns_bind, returns_liftM,
        returns_affect, stringAt_eq_ok_iff, ih, TestsTyped, List.forall_mem_cons]
      -- each test is read twice, once for each of its files
      constructor
      · rintro ⟨test, htest, intext, hin, test', htest', outtext, hout, htests, hQ⟩
        cases htest.symm.trans htest'
        exact ⟨⟨⟨test, htest, ⟨intext, hin⟩, ⟨outtext, hout⟩⟩, htests⟩, hQ⟩
      · rintro ⟨⟨⟨test, htest, ⟨intext, hin⟩, ⟨outtext, hout⟩⟩, htests⟩, hQ⟩
        exact ⟨test, htest, intext, hin, test, htest, outtext, hout, htests, hQ⟩

theorem getBool_eq_ok_iff {j : Json} {x : Bool} : j.getBool = .ok x ↔ j = .boolean x := by
  cases j <;> simp [Json.getBool]

/-- The special judge is read when there is one. -/
theorem returns_writeSpj_iff {json : Json} {problemid : Bytes} {isspj : Bool} {Q : Prop}
    (server : Server S) :
    (Returns (if isspj = true then do
        let spj ← json.stringAt "SPJ"
        affect (b.writeProblemFile problemid (bytes "spj.cpp") spj)
      else pure () : Action S Unit) server fun _ _ => Q) ↔
      (isspj = true → ∃ spj, json.member "SPJ" = .string spj) ∧ Q := by
  cases isspj with
  | true =>
      simp [stringAt_eq_ok_iff]
  | false =>
      simp

theorem returns_InsertProblemDataInfo_iff {json : Json} {Q : Prop} (server : Server S) :
    (Returns (ProblemList.InsertProblemDataInfo b json) server fun _ _ => Q) ↔
      DataTyped json ∧ Q := by
  have hindex : ∀ {problemid : Bytes} (k : String),
      json.member "ProblemId" = .string problemid → json.index k = .ok (json.member k) :=
    fun k hid => Json.index_of_indexable (Json.indexable_of_member hid) k
  simp only [ProblemList.InsertProblemDataInfo, returns_bind, returns_liftM, returns_affect,
    stringAt_eq_ok_iff, getBool_eq_ok_iff, returns_writeSpj_iff, returns_writeTests_iff]
  constructor
  · rintro ⟨problemid, hid, testinfo, htestinfo, htests, value, hvalue, isspj, hisspj, hspj, hQ⟩
    cases (hindex _ hid).symm.trans htestinfo
    cases (hindex _ hid).symm.trans hvalue
    exact ⟨⟨⟨problemid, hid⟩, htests, isspj, hisspj, hspj⟩, hQ⟩
  · rintro ⟨⟨⟨problemid, hid⟩, htests, isspj, hisspj, hspj⟩, hQ⟩
    exact ⟨problemid, hid, _, hindex _ hid, htests, _, hindex _ hid, isspj, hisspj, hspj, hQ⟩

section files

variable {γ : Type} {v : Server S → γ}

theorem keeps_writeTests
    (hwrite : ∀ problemid name text, Keeps v (affect (b.writeProblemFile problemid name text)))
    (problemid : Bytes) (testinfo : Json) (is : List Nat) :
    Keeps v (ProblemList.writeTests b problemid testinfo is) := by
  have htest : ∀ test index k extension,
      Keeps v (ProblemList.writeTest b problemid test index k extension) :=
    fun _ _ _ _ => Keeps.bind (Keeps.liftM _) fun _ => hwrite _ _ _
  induction is with
  | nil =>
      exact Keeps.pure _
  | cons i is ih =>
      -- an input file and an output file for each test
      refine Keeps.bind (Keeps.liftM _) fun test => Keeps.bind (htest _ _ _ _) fun _ => ?_
      exact Keeps.bind (Keeps.liftM _) fun test => Keeps.bind (htest _ _ _ _) fun _ => ih

/-- Once the directory is made, there are only files to write. -/
theorem keeps_problemFiles
    (hwrite : ∀ problemid name text, Keeps v (affect (b.writeProblemFile problemid name text)))
    (json : Json) (problemid : Bytes) :
    Keeps v (do
      let testinfo ← json.index "TestInfo"
      ProblemList.writeTests b problemid testinfo (List.range testinfo.size)
      if ← (← json.index "IsSPJ").getBool then
        let spj ← json.stringAt "SPJ"
        affect (b.writeProblemFile problemid (bytes "spj.cpp") spj) : Action S Unit) := by
  refine Keeps.bind (Keeps.liftM _) fun testinfo => Keeps.bind (keeps_writeTests hwrite _ _ _) fun _ => ?_
  refine Keeps.bind (Keeps.liftM _) fun isSpj => Keeps.bind (Keeps.liftM _) fun spj => ?_
  split
  · exact Keeps.bind (Keeps.liftM _) fun text => hwrite _ _ _
  · exact Keeps.pure _

/-- The data of a problem is in its files only. -/
theorem keeps_InsertProblemDataInfo
    (hmake : ∀ problemid, Keeps v (affect (b.makeProblemData problemid)))
    (hwrite : ∀ problemid name text, Keeps v (affect (b.writeProblemFile problemid name text)))
    (json : Json) : Keeps v (ProblemList.InsertProblemDataInfo b json) :=
  Keeps.bind (Keeps.liftM _) fun problemid =>
    Keeps.bind (hmake _) fun _ => keeps_problemFiles hwrite json problemid

end files

theorem always_DeleteProblemCache (problemid : Bytes) :
    Always (ReDB.DeleteProblemCache b problemid) fun _ => True :=
  always_attempt (fun _ _ _ _ => trivial) fun _ => always_pure trivial

theorem answers_updateData_iff {json tmpjson : Json} (hans : Answerable tmpjson)
    (server : Server S) :
    Answers (ProblemList.updateData b json tmpjson) server ↔ DataTyped json := by
  have hcache : ∀ problemid : Bytes, Always (ReDB.DeleteProblemCache b problemid) fun _ => True :=
    always_DeleteProblemCache
  simp only [ProblemList.updateData, answers_bind, returns_liftM, returns_affect, answers_pure, hans,
    stringAt_eq_ok_iff, (hcache _).returns_const_iff, returns_InsertProblemDataInfo_iff, and_true]
  exact ⟨fun h => h.choose_spec.2, fun h => ⟨h.problemid.choose, h.problemid.choose_spec, h⟩⟩

/-- The update of the document never reports `Fail`. -/
theorem always_UpdateProblem_not_fail (json : Json) :
    Always (MoDB.UpdateProblem b json) fun j =>
      Answerable j ∧ ∃ result, j.member "Result" = .str result ∧ result ≠ "Fail" := by
  refine always_attempt ?_ fun _ => always_pure ?_
  · iterate 2 refine yields_bind fun _ => ?_
    refine yields_bind fun _ => yields_pure ⟨answerable_success rfl, "Success", rfl, by decide⟩
  · exact ⟨answerable_caught rfl _, "500", member_caught rfl .., by decide⟩

/-- Whatever becomes of the document, the data is written anew. -/
theorem final_UpdateProblem_data (json : Json) (server : Server S) :
    ∃ tmpjson, final (ProblemList.UpdateProblem b json) server =
      final (ProblemList.updateData b json tmpjson) (final (MoDB.UpdateProblem b json) server) := by
  obtain ⟨tmpjson, server', hupdate, -, result, hresult, hfail⟩ :=
    always_UpdateProblem_not_fail (b := b) json server
  refine ⟨tmpjson, ?_⟩
  rw [ProblemList.UpdateProblem, final_bind_of_ok hupdate, final_of_ok hupdate, stringAt_of_member hresult,
    final_liftM_bind]
  simp only
  rw [if_neg (by simpa using hfail)]

theorem answers_UpdateProblem_iff (json : Json) (server : Server S) :
    Answers (ProblemList.UpdateProblem b json) server ↔ DataTyped json := by
  refine (always_UpdateProblem_not_fail json).returns_bind_iff ?_ server
  rintro tmpjson server ⟨hans, result, hresult, hfail⟩
  rw [stringAt_of_member hresult, returns_bind, returns_iff_of_ok liftM_ok_apply,
    if_neg (by simpa using hfail)]
  exact answers_updateData_iff hans server

/-! ## The two edits -/

/-- The tags can be asked for, which is done after every edit. -/
def TagsAnswer (b : Backend S) (outside : S) : Prop :=
  Returns (b.distinct .Problem "Tags") outside fun _ _ => True

theorem returns_InitProblemTags_iff {Q : Prop} (server : Server S) :
    (Returns (Tag.InitProblemTags b) server fun _ _ => Q) ↔ TagsAnswer b server.outside ∧ Q := by
  rw [Tag.InitProblemTags, returns_bind, MoDB.getProblemTags, returns_bind, returns_call, TagsAnswer]
  cases h : b.distinct .Problem "Tags" server.outside with
  | error e outside =>
      exact iff_of_false (not_returns_of_error h) fun hand => not_returns_of_error h hand.1
  | ok docs outside =>
      rw [returns_iff_of_ok h, returns_iff_of_ok h, true_and]
      -- `null` or the object of the last document
      cases docs.getLast? with
      | none =>
          simp [Json.index]
      | some doc =>
          simp [Json.index]

/-- An edit with the tags behind it. -/
theorem answers_edit_iff (edit : Action S Json) (server : Server S) :
    Answers (do
      let resjson ← edit
      Tag.InitProblemTags b
      return resjson) server ↔
      Answers edit server ∧ TagsAnswer b (final edit server).outside := by
  simp only [Answers, returns_bind, returns_pure, returns_InitProblemTags_iff]
  simp only [and_comm (a := TagsAnswer b _)]
  exact returns_and_final

/-! What the calls of an edit leave outside, one call after the other. -/

/-- A member that is read as a string. -/
def textAt (j : Json) (k : String) : Bytes :=
  match j.member k with
  | .string s => s
  | _ => []

theorem textAt_of_member {j : Json} {k : String} {s : Bytes} (h : j.member k = .string s) :
    textAt j k = s := by
  rw [textAt, h]

/-- The files of the tests with their texts, in the order in which they are written. -/
def testFiles (testinfo : Json) (indices : List Nat) : List (Bytes × Bytes) :=
  indices.flatMap fun i =>
    let test := (testinfo.nth i).toOption.getD .null
    [(ProblemList.testFile (i + 1) ".in", textAt test "in"),
      (ProblemList.testFile (i + 1) ".out", textAt test "out")]

/-- All files of a problem. -/
def dataFiles (json : Json) : List (Bytes × Bytes) :=
  testFiles (json.member "TestInfo") (List.range (json.member "TestInfo").size) ++
    match json.member "IsSPJ" with
    | .boolean true => [(bytes "spj.cpp", textAt json "SPJ")]
    | _ => []

def afterFiles (b : Backend S) (problemid : Bytes) (files : List (Bytes × Bytes)) (outside : S) : S :=
  files.foldl (fun outside file => (b.writeProblemFile problemid file.1 file.2 outside).2) outside

/-- The update of the document, which is asked for when its members have the right types. -/
def afterDocument (b : Backend S) (json : Json) (outside : S) : S :=
  match json.intAt "ProblemId", MoDB.problemMembers json with
  | .ok id, .ok members => final (b.update_one .Problem id.toInt64 (.set members)) outside
  | _, _ => outside

/-- The document is updated, the data written anew, the cache dropped. -/
def afterUpdate (b : Backend S) (json : Json) (outside : S) : S :=
  let problemid := textAt json "ProblemId"
  let outside := afterDocument b json outside
  let outside := (b.removeProblemData problemid outside).2
  let outside := (b.makeProblemData problemid outside).2
  let outside := afterFiles b problemid (dataFiles json) outside
  final (b.del .redis_cache (bytes "Cache:Problem:" ++ problemid)) outside

theorem final_MoDB_UpdateProblem (json : Json) (server : Server S) :
    final (MoDB.UpdateProblem b json) server =
      { server with outside := afterDocument b json server.outside } := by
  rw [MoDB.UpdateProblem, orElse500, final_attempt_pure, final_liftM_bind, afterDocument]
  cases json.intAt "ProblemId" with
  | error e =>
      rfl
  | ok id =>
      simp only
      rw [final_liftM_bind]
      cases MoDB.problemMembers json with
      | error e =>
          rfl
      | ok members =>
          have hkeeps : ∀ n : Nat, Keeps (fun server : Server S => server)
              (return success .null : Action S Json) := fun _ => Keeps.pure _
          exact (final_bind_of_keeps hkeeps _ server).trans (final_call _)

theorem writeTests_apply {testinfo : Json} {indices : List Nat} (htests : TestsTyped testinfo indices)
    (problemid : Bytes) (server : Server S) :
    ProblemList.writeTests b problemid testinfo indices server =
      .ok () { server with outside := afterFiles b problemid (testFiles testinfo indices) server.outside } := by
  induction indices generalizing server with
  | nil =>
      rfl
  | cons i indices ih =>
      obtain ⟨⟨test, htest, ⟨intext, hin⟩, ⟨outtext, hout⟩⟩, hrest⟩ := List.forall_mem_cons.1 htests
      simp only [ProblemList.writeTests, ProblemList.writeTest, bind_apply, htest, liftM_ok_apply,
        stringAt_of_member hin, stringAt_of_member hout, affect, ih hrest]
      simp only [testFiles, List.flatMap_cons, afterFiles, List.foldl_append, htest, Except.toOption,
        Option.getD_some, textAt_of_member hin, textAt_of_member hout]
      rfl

theorem InsertProblemDataInfo_apply {json : Json} (hdata : DataTyped json) (server : Server S) :
    ProblemList.InsertProblemDataInfo b json server =
      .ok () { server with
        outside := afterFiles b (textAt json "ProblemId") (dataFiles json)
          (b.makeProblemData (textAt json "ProblemId") server.outside).2 } := by
  obtain ⟨⟨problemid, hid⟩, htests, isspj, hisspj, hspj⟩ := hdata
  have hindex := Json.index_of_indexable (Json.indexable_of_member hid)
  rw [ProblemList.InsertProblemDataInfo, stringAt_of_member hid, textAt_of_member hid]
  simp only [bind_apply, liftM_ok_apply, affect, hindex, writeTests_apply htests, hisspj, Json.getBool]
  cases isspj with
  | false =>
      simp only [dataFiles, hisspj, List.append_nil]
      rfl
  | true =>
      obtain ⟨spj, htext⟩ := hspj rfl
      simp only [dataFiles, hisspj, if_true, bind_apply, stringAt_of_member htext, textAt_of_member htext,
        liftM_ok_apply, afterFiles, List.foldl_append]
      rfl

theorem outside_UpdateProblem {json : Json} (hdata : DataTyped json) (server : Server S) :
    (final (ProblemList.UpdateProblem b json) server).outside = afterUpdate b json server.outside := by
  obtain ⟨problemid, hid⟩ := hdata.problemid
  obtain ⟨tmpjson, hfinal⟩ := final_UpdateProblem_data (b := b) json server
  have hkeeps : ∀ dropped : Bool, Keeps (fun server : Server S => server) (return tmpjson : Action S Json) :=
    fun _ => Keeps.pure _
  rw [hfinal, final_MoDB_UpdateProblem, ProblemList.updateData, stringAt_of_member hid, final_liftM_bind]
  simp only [final_affect_bind]
  rw [final_bind_of_ok (InsertProblemDataInfo_apply hdata _), afterUpdate, textAt_of_member hid]
  refine (congrArg Server.outside (final_bind_of_keeps hkeeps _ _)).trans ?_
  rw [ReDB.DeleteProblemCache, final_attempt_pure, final_call]

/-- A refused insertion does nothing outside but the insertion. -/
theorem outside_InsertProblem_of_refused {json : Json} {members : List (String × Json)} {inserted : Nat}
    {server : Server S} {outside : S} (hmembers : MoDB.problemMembers json = .ok members)
    (hinsert : b.insert_one .Problem (server.m_problemid + 1).toInt32.toInt64
      (members ++ MoDB.problemCounters) server.outside = .ok inserted outside)
    (hnone : inserted < 1) :
    (final (ProblemList.InsertProblem b json) server).outside = outside := by
  have hrefused : MoDB.InsertProblem b json server =
      .ok (MoDB.insertedProblem (server.m_problemid + 1).toInt32 inserted)
        { server with m_problemid := server.m_problemid + 1, outside } := by
    simp only [MoDB.InsertProblem, orElse500, attempt, bind_apply, MoDB.nextProblemId, hmembers,
      liftM_ok_apply, call, hinsert]
    rfl
  have hresult := member_insertedProblem (server.m_problemid + 1).toInt32 inserted
  have hans := answerable_insertedProblem (server.m_problemid + 1).toInt32 inserted
  rw [if_pos hnone] at hresult
  rw [ProblemList.InsertProblem, final_bind_of_ok hrefused, Json.index_of_indexable hans.indexable,
    final_liftM_bind]
  simp only
  rw [eqString_of_member "Fail" hresult]
  rfl

/-- The kinds of edit a request can ask for, with what each needs: an insertion that the database refuses, or
an update with all its data; and the tags, where the calls before have left the database. -/
def EditAnswers (b : Backend S) (json : Json) (server : Server S) : Prop :=
  (json.member "EditType" = .str "Insert" ∧ ∃ members, MoDB.problemMembers json = .ok members ∧
      Returns (b.insert_one .Problem (server.m_problemid + 1).toInt32.toInt64
          (members ++ MoDB.problemCounters)) server.outside
        fun inserted outside => inserted < 1 ∧ TagsAnswer b outside) ∨
    (json.member "EditType" = .str "Update" ∧ DataTyped json ∧
      TagsAnswer b (afterUpdate b json server.outside))

theorem answers_insert_iff (json : Json) (server : Server S) :
    (Answers (ProblemList.InsertProblem b json) server ∧
        TagsAnswer b (final (ProblemList.InsertProblem b json) server).outside) ↔
      ∃ members, MoDB.problemMembers json = .ok members ∧
        Returns (b.insert_one .Problem (server.m_problemid + 1).toInt32.toInt64
            (members ++ MoDB.problemCounters)) server.outside
          fun inserted outside => inserted < 1 ∧ TagsAnswer b outside := by
  rw [answers_InsertProblem_iff]
  constructor
  · rintro ⟨⟨members, hmembers, inserted, outside, hinsert, hnone⟩, htags⟩
    rw [outside_InsertProblem_of_refused hmembers hinsert hnone] at htags
    exact ⟨members, hmembers, inserted, outside, hinsert, hnone, htags⟩
  · rintro ⟨members, hmembers, inserted, outside, hinsert, hnone, htags⟩
    refine ⟨⟨members, hmembers, inserted, outside, hinsert, hnone⟩, ?_⟩
    rwa [outside_InsertProblem_of_refused hmembers hinsert hnone]

theorem answers_update_iff (json : Json) (server : Server S) :
    (Answers (ProblemList.UpdateProblem b json) server ∧
        TagsAnswer b (final (ProblemList.UpdateProblem b json) server).outside) ↔
      DataTyped json ∧ TagsAnswer b (afterUpdate b json server.outside) := by
  rw [answers_UpdateProblem_iff]
  exact and_congr_right fun hdata => by rw [outside_UpdateProblem hdata]

theorem answers_editProblem_iff (json : Json) (server : Server S) :
    Answers (Control.editProblem b json) server ↔ EditAnswers b json server := by
  rw [Control.editProblem, answers_bind, returns_liftM]
  simp only [stringAt_eq_ok_iff, EditAnswers]
  constructor
  · rintro ⟨edittype, htype, h⟩
    split at h
    · rename_i hinsert
      rw [answers_edit_iff, answers_insert_iff] at h
      exact Or.inl ⟨by rw [htype, hinsert, Json.str], h⟩
    · split at h
      · rename_i hupdate
        rw [answers_edit_iff, answers_update_iff] at h
        exact Or.inr ⟨by rw [htype, hupdate, Json.str], h⟩
      · rw [answers_edit_iff, answers_pure] at h
        exact absurd h.1 (not_answerable rfl)
  · rintro (⟨htype, h⟩ | ⟨htype, h⟩)
    · refine ⟨bytes "Insert", htype, ?_⟩
      rwa [if_pos rfl, answers_edit_iff, answers_insert_iff]
    · refine ⟨bytes "Update", htype, ?_⟩
      rwa [if_neg (by simp), if_pos rfl, answers_edit_iff, answers_update_iff]

/-! ## A problem to delete -/

theorem always_deleteProblem {json : Json} {problemid : Bytes}
    (hid : json.member "ProblemId" = .string problemid) :
    Always (ProblemList.DeleteProblem b json) Answerable := by
  refine (always_DeleteProblem b json).bind fun tmpjson hans => ?_
  rw [Json.index_of_indexable hans.indexable, stringAt_of_member hid]
  intro server
  rw [returns_bind, returns_iff_of_ok liftM_ok_apply]
  split
  · exact returns_pure.2 hans
  · rw [returns_bind, returns_iff_of_ok liftM_ok_apply, returns_bind, returns_affect]
    exact (always_DeleteProblemCache problemid).bind (fun _ _ => always_pure hans) _

end Oj
end Myoj
