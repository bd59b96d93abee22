import Mathlib.Logic.Function.Basic
import Myoj.Oj.Identifiers
import Myoj.Oj.Privilege
import Myoj.Oj.ProblemCache
import Myoj.Oj.Watch

/-!
# ProblemData — problems and the directories of their tests

A problem is a document and a directory with the files of its tests.  `InsertProblem` writes the document
and then throws before the directory is made: the id it reported is a number, and is read as a string.
`UpdateProblem` never looks at whether there was a document to change.

* `Disk` — the directories, `Backend.onDisk` — a backend with them;
* `Holds` — the tests of a directory are those of a `TestInfo`;
* `DataRequest` — the requests of an administrator that change problems;
* `Together` — a problem has a document just when it has a directory, with the tests last written;
* `together_throughout_iff` — the runs that keep it so.
-/

namespace Myoj
namespace Oj

open Effect
open UserList (authorityOf tokenUser afterToken)

/-- The files of a directory. -/
abbrev Directory := Bytes → Option Bytes

/-- What is in `PROBLEMDATAPATH`, for ids that are the name of a directory. -/
abbrev Disk := Bytes → Option Directory

namespace Disk

variable (disk : Disk) (problemid : Bytes)

/-- `mkdir`: a directory that is there stays as it is. -/
def make : Disk := Function.update disk problemid (some ((disk problemid).getD fun _ => none))

/-- `ofstream`: without the directory the file does not open. -/
def write (name text : Bytes) : Disk :=
  Function.update disk problemid ((disk problemid).map fun dir => Function.update dir name (some text))

/-- `rm -rf`. -/
def remove : Disk := Function.update disk problemid none

/-- `ifstream`. -/
def read (name : Bytes) : Option Bytes := (disk problemid).bind fun dir => dir name

end Disk

def diskWatch : Watch Disk where
  makeProblemData := fun problemid disk => disk.make problemid
  removeProblemData := fun problemid disk => disk.remove problemid
  insertStatusRecord := fun _ disk => disk
  updateProblem := fun _ _ disk => disk

variable {S : Type}

/-- `base`, with the data of the problems on a disk. -/
def Backend.onDisk (base : Backend S) : Backend (S × Disk) :=
  { base.watched diskWatch with
    writeProblemFile := fun problemid name text s =>
      ((), (base.writeProblemFile problemid name text s.1).2, s.2.write problemid name text)
    readProblemFile := fun problemid name s => s.2.read problemid name }

def diskOf (server : Server (Databases (S × Disk))) : Disk := server.outside.rest.2

/-! ## The tests of a directory -/

/-- The test with an index is in its two files. -/
def HoldsTest (dir : Directory) (testinfo : Json) (i : Nat) : Prop :=
  ∃ test intext outtext, testinfo.nth i = .ok test ∧
    test.member "in" = .string intext ∧ dir (ProblemList.testFile (i + 1) ".in") = some intext ∧
    test.member "out" = .string outtext ∧ dir (ProblemList.testFile (i + 1) ".out") = some outtext

/-- `name` is a file of the test. -/
def FileOf (name : Bytes) (i : Nat) : Prop :=
  name = ProblemList.testFile (i + 1) ".in" ∨ name = ProblemList.testFile (i + 1) ".out"

/-- The directory has the files of the tests, and no others but the special judge. -/
structure Holds (dir : Directory) (testinfo : Json) : Prop where
  test : ∀ i < testinfo.size, HoldsTest dir testinfo i
  only : ∀ name, dir name ≠ none → name = bytes "spj.cpp" ∨ ∃ i < testinfo.size, FileOf name i

theorem takeWhile_testFile (i : Nat) {extension : String}
    (h : (bytes extension).takeWhile Numerals.isdigit = []) :
    (ProblemList.testFile i extension).takeWhile Numerals.isdigit = Numerals.to_string i :=
  Numerals.takeWhile_to_string_append i h

/-- A file belongs to one test. -/
theorem FileOf.unique {name : Bytes} {i j : Nat} (hi : FileOf name i) (hj : FileOf name j) : i = j := by
  have hdigits : ∀ {i}, FileOf name i →
      name.takeWhile Numerals.isdigit = Numerals.to_string (i + 1 : Nat) := by
    rintro i (rfl | rfl)
    · exact takeWhile_testFile (i + 1) (by decide)
    · exact takeWhile_testFile (i + 1) (by decide)
  have hsame := Numerals.to_string_injective ((hdigits hi).symm.trans (hdigits hj))
  omega

theorem not_fileOf_spj (i : Nat) : ¬ FileOf (bytes "spj.cpp") i := by
  have hdigits : (bytes "spj.cpp").takeWhile Numerals.isdigit = [] := by decide
  rintro (h | h)
  · rw [h, takeWhile_testFile (i + 1) (by decide)] at hdigits
    exact Numerals.to_string_ne_nil _ hdigits
  · rw [h, takeWhile_testFile (i + 1) (by decide)] at hdigits
    exact Numerals.to_string_ne_nil _ hdigits

theorem testFile_in_ne_out (i : Nat) : ProblemList.testFile i ".in" ≠ ProblemList.testFile i ".out" := by
  intro h
  have hextension := List.append_cancel_left h
  exact absurd (bytes_injective hextension) (by decide)

/-- Other files do not matter for a test. -/
theorem HoldsTest.congr {dir dir' : Directory} {testinfo : Json} {i : Nat} (h : HoldsTest dir testinfo i)
    (hsame : ∀ name, FileOf name i → dir' name = dir name) : HoldsTest dir' testinfo i := by
  obtain ⟨test, intext, outtext, htest, hin, hinfile, hout, houtfile⟩ := h
  exact ⟨test, intext, outtext, htest, hin, (hsame _ (Or.inl rfl)).trans hinfile, hout,
    (hsame _ (Or.inr rfl)).trans houtfile⟩

/-! ## Writing the tests -/

section writing

variable {base : Backend S} {regex : Bytes → Option (Bytes → Bool)}
  {server : Server (Databases (S × Disk))} {problemid : Bytes} {dir : Directory}

/-- One file, in a directory that is there. -/
theorem returns_writeProblemFile {Q : Server (Databases (S × Disk)) → Prop} (name text : Bytes)
    (hdir : diskOf server problemid = some dir)
    (h : ∀ server', diskOf server' =
      Function.update (diskOf server) problemid (some (Function.update dir name (some text))) → Q server') :
    Returns (affect ((base.onDisk.onDatabases regex).writeProblemFile problemid name text)) server
      fun _ server' => Q server' := by
  rw [returns_affect]
  refine h _ ?_
  have hwrite : ((diskOf server).write problemid name text) =
      Function.update (diskOf server) problemid (some (Function.update dir name (some text))) := by
    rw [Disk.write, hdir, Option.map_some]
  exact hwrite

/-- The loop writes the tests of its indices, and touches no other file. -/
theorem returns_writeTests {testinfo : Json} {indices : List Nat} (htests : TestsTyped testinfo indices)
    (hnodup : indices.Nodup) (hdir : diskOf server problemid = some dir) :
    Returns (ProblemList.writeTests (base.onDisk.onDatabases regex) problemid testinfo indices) server
      fun _ server' => ∃ dir', diskOf server' = Function.update (diskOf server) problemid (some dir') ∧
        (∀ i ∈ indices, HoldsTest dir' testinfo i) ∧
        ∀ name, (∀ i ∈ indices, ¬ FileOf name i) → dir' name = dir name := by
  induction indices generalizing server dir with
  | nil =>
      simp only [ProblemList.writeTests, returns_pure]
      refine ⟨dir, ?_, by simp, fun _ _ => rfl⟩
      rw [← hdir, Function.update_eq_self]
  | cons i indices ih =>
      obtain ⟨⟨test, htest, ⟨intext, hin⟩, ⟨outtext, hout⟩⟩, hrest⟩ := List.forall_mem_cons.1 htests
      obtain ⟨hnotin, hnodup⟩ := List.nodup_cons.1 hnodup
      simp only [ProblemList.writeTests, ProblemList.writeTest, returns_bind, returns_liftM,
        stringAt_eq_ok_iff]
      refine ⟨test, htest, intext, hin, returns_writeProblemFile _ _ hdir fun server₁ h₁ => ?_⟩
      have hdir₁ : diskOf server₁ problemid =
          some (Function.update dir (ProblemList.testFile (i + 1) ".in") (some intext)) := by
        rw [h₁, Function.update_self]
      refine ⟨test, htest, outtext, hout, returns_writeProblemFile _ _ hdir₁ fun server₂ h₂ => ?_⟩
      rw [h₁, Function.update_idem] at h₂
      have hdir₂ := congrFun h₂ problemid
      rw [Function.update_self] at hdir₂
      refine (ih hrest hnodup hdir₂).mono fun _ server' hdone => ?_
      obtain ⟨dir', hdisk, hholds, hothers⟩ := hdone
      rw [h₂, Function.update_idem] at hdisk
      -- the files of this test are none of the later ones
      have hkept : ∀ name, FileOf name i → ∀ j ∈ indices, ¬ FileOf name j := by
        intro name hi j hj hfile
        exact hnotin (hi.unique hfile ▸ hj)
      refine ⟨dir', hdisk, List.forall_mem_cons.2 ⟨?_, hholds⟩, fun name hname => ?_⟩
      · refine ⟨test, intext, outtext, htest, hin, ?_, hout, ?_⟩
        · rw [hothers _ (hkept _ (Or.inl rfl)), Function.update_of_ne (testFile_in_ne_out _),
            Function.update_self]
        · rw [hothers _ (hkept _ (Or.inr rfl)), Function.update_self]
      · obtain ⟨hhere, hlater⟩ := List.forall_mem_cons.1 hname
        rw [hothers name hlater, Function.update_of_ne fun h => hhere (Or.inr h),
          Function.update_of_ne fun h => hhere (Or.inl h)]

variable (base regex) in
/-- A directory that was not there has the files of the request afterwards. -/
theorem returns_InsertProblemDataInfo {json : Json} (hdata : DataTyped json)
    (hid : json.member "ProblemId" = .string problemid) (hnone : diskOf server problemid = none) :
    Returns (ProblemList.InsertProblemDataInfo (base.onDisk.onDatabases regex) json) server
      fun _ server' => ∃ dir, diskOf server' = Function.update (diskOf server) problemid (some dir) ∧
        Holds dir (json.member "TestInfo") := by
  obtain ⟨isspj, hisspj, hspj⟩ := hdata.spj
  have hindex : ∀ k, json.index k = .ok (json.member k) := fun k =>
    Json.index_of_indexable (Json.indexable_of_member hid) k
  simp only [ProblemList.InsertProblemDataInfo, returns_bind, returns_liftM, returns_affect]
  refine ⟨problemid, stringAt_of_member hid, _, hindex "TestInfo", ?_⟩
  generalize hmade : ({ server with outside := _ } : Server (Databases (S × Disk))) = made
  have hdisk : diskOf made = Function.update (diskOf server) problemid (some fun _ => none) := by
    have hmake : diskOf made = (diskOf server).make problemid := by
      rw [← hmade]
      rfl
    rw [hmake, Disk.make, hnone, Option.getD_none]
  have hdir : diskOf made problemid = some fun _ => none := by rw [hdisk, Function.update_self]
  refine (returns_writeTests hdata.tests List.nodup_range hdir).mono fun _ written hwritten => ?_
  obtain ⟨dir, hdisk', htests, hothers⟩ := hwritten
  rw [hdisk, Function.update_idem] at hdisk'
  have honly : ∀ name, dir name ≠ none → ∃ i < (json.member "TestInfo").size, FileOf name i := by
    intro name hname
    by_contra hnot
    refine hname (hothers name fun i hi hfile => hnot ⟨i, List.mem_range.1 hi, hfile⟩)
  refine ⟨_, hindex "IsSPJ", isspj, getBool_eq_ok_iff.2 hisspj, ?_⟩
  cases isspj with
  | false =>
      simp only [Bool.false_eq_true, if_false, returns_pure]
      exact ⟨dir, hdisk', fun i hi => htests i (List.mem_range.2 hi), fun name hname => Or.inr (honly name hname)⟩
  | true =>
      obtain ⟨spj, hspj⟩ := hspj rfl
      simp only [if_true, returns_bind, returns_liftM]
      have hdir' : diskOf written problemid = some dir := by rw [hdisk', Function.update_self]
      refine ⟨spj, stringAt_of_member hspj, returns_writeProblemFile _ _ hdir' fun server' h => ?_⟩
      rw [hdisk', Function.update_idem] at h
      refine ⟨_, h, fun i hi => ?_, fun name hname => ?_⟩
      -- the special judge is not a file of a test
      · refine (htests i (List.mem_range.2 hi)).congr fun name hfile => Function.update_of_ne ?_ _ _
        rintro rfl
        exact not_fileOf_spj i hfile
      · by_cases hspjfile : name = bytes "spj.cpp"
        · exact Or.inl hspjfile
        · rw [Function.update_of_ne hspjfile] at hname
          exact Or.inr (honly name hname)

end writing

/-! ## What becomes of the disk -/

section disk

variable (base : Backend S) (regex : Bytes → Option (Bytes → Bool))
  (server : Server (Databases (S × Disk)))

/-- The tables are not on the disk. -/
theorem keeps_diskOf_call {α : Type} {op : EStateM Exception (Databases (S × Disk)) α}
    (h : ∀ t, (final op t).rest = t.rest) : Keeps diskOf (call op) := by
  intro server
  rw [final_call, diskOf, h]
  rfl

theorem keeps_diskOf_UpdateProblem (json : Json) :
    Keeps diskOf (MoDB.UpdateProblem (base.onDisk.onDatabases regex) json) := by
  refine Keeps.attempt_pure (Keeps.bind (Keeps.liftM _) fun problemid => ?_) _
  refine Keeps.bind (Keeps.liftM _) fun members => ?_
  refine Keeps.bind (keeps_diskOf_call fun t => ?_) fun _ => Keeps.pure _
  exact Databases.rest_update_one t .Problem problemid.toInt64 (.set members)

theorem keeps_diskOf_DeleteProblem (json : Json) :
    Keeps diskOf (MoDB.DeleteProblem (base.onDisk.onDatabases regex) json) := by
  refine Keeps.attempt_pure (Keeps.bind (Keeps.liftM _) fun problemid => ?_) _
  refine Keeps.bind (keeps_diskOf_call fun t => ?_) fun deleted => ?_
  · exact Databases.rest_delete_one t .Problem problemid
  · split
    · exact Keeps.pure _
    · exact Keeps.pure _

/-- The cache is not on it either. -/
theorem keeps_diskOf_dropCache (problemid : Bytes) (tmpjson : Json) :
    Keeps diskOf (do
      let _ ← ReDB.DeleteProblemCache (base.onDisk.onDatabases regex) problemid
      return tmpjson : Action (Databases (S × Disk)) Json) := by
  refine Keeps.bind (Keeps.attempt_pure ?_ _) fun _ => Keeps.pure _
  exact keeps_diskOf_call fun _ => rfl

variable {json : Json} {problemid : Bytes}

/-- The directory is made anew, whether or not there is a document. -/
theorem disk_UpdateProblem (hdata : DataTyped json) (hid : json.member "ProblemId" = .string problemid) :
    ∃ dir, diskOf (final (ProblemList.UpdateProblem (base.onDisk.onDatabases regex) json) server) =
        Function.update (diskOf server) problemid (some dir) ∧
      Holds dir (json.member "TestInfo") := by
  obtain ⟨tmpjson, hfinal⟩ := final_UpdateProblem_data (b := base.onDisk.onDatabases regex) json server
  have hkept := keeps_diskOf_UpdateProblem base regex json server
  rw [hfinal, ProblemList.updateData, stringAt_of_member hid, final_liftM_bind]
  simp only
  rw [final_affect_bind]
  generalize hrm : ({ final (MoDB.UpdateProblem _ json) server with outside := _ } :
    Server (Databases (S × Disk))) = removed
  have hremoved : diskOf removed = Function.update (diskOf server) problemid none := by
    rw [← hkept, ← hrm]
    rfl
  have hnone : diskOf removed problemid = none := by rw [hremoved, Function.update_self]
  obtain ⟨_, written, hwritten, dir, hdisk, hholds⟩ :=
    returns_InsertProblemDataInfo base regex hdata hid hnone
  rw [final_bind_of_ok hwritten, keeps_diskOf_dropCache base regex problemid tmpjson written]
  rw [hremoved, Function.update_idem] at hdisk
  exact ⟨dir, hdisk, hholds⟩

/-- The directory goes with the document. -/
theorem disk_DeleteProblem {id : Int64} (hid : json.member "ProblemId" = .string problemid)
    (hnumber : stoll problemid = .ok id) :
    diskOf (final (ProblemList.DeleteProblem (base.onDisk.onDatabases regex) json) server) =
      if server.outside.find .Problem id = none then diskOf server
      else Function.update (diskOf server) problemid none := by
  have hint : json.int64At "ProblemId" = .ok id := (ProblemRequest.int64At_of_member hid).trans hnumber
  split
  · next hnone =>
    have hsame : ProblemRequest.step (base.onDisk.onDatabases regex) server (.delete json) = server :=
      ProblemRequest.step_delete_of_missing hint hnone
    exact congrArg diskOf hsame
  · next hsome =>
    obtain ⟨doc, hdoc⟩ := Option.ne_none_iff_exists'.1 hsome
    have hkept := keeps_diskOf_DeleteProblem base regex json server
    have hrun :=
      MoDB.deleteById_apply base.onDisk regex .Problem "ProblemId" "数据库未查询到该数据！" json server
    simp only [hint, hdoc, MoDB.deleted] at hrun
    rw [MoDB.DeleteProblem, final_of_ok hrun] at hkept
    rw [ProblemList.DeleteProblem, MoDB.DeleteProblem, final_bind_of_ok hrun,
      Json.index_of_indexable (indexable_success _), final_liftM_bind]
    simp only
    rw [if_neg (by decide), stringAt_of_member hid, final_liftM_bind]
    simp only
    rw [final_affect_bind, keeps_diskOf_dropCache base regex problemid, ← hkept]
    rfl

end disk

/-! ## A new problem -/

section insertion

variable {b : Backend S}

/-- Whatever the insertion reports as its id is no string. -/
theorem always_InsertProblem (json : Json) :
    Always (MoDB.InsertProblem b json) fun j =>
      j.Indexable = true ∧ ∀ s, j.member "ProblemId" ≠ .string s := by
  refine always_attempt ?_ fun _ => always_pure ⟨indexable_caught .., fun s => ?_⟩
  · iterate 3 refine yields_bind fun _ => ?_
    exact yields_pure ⟨(answerable_insertedProblem _ _).indexable, member_id_insertedProblem _ _⟩
  · rw [member_caught rfl]
    simp

/-- All that an insertion does is done by `MoDB`. -/
theorem final_InsertProblem (json : Json) (server : Server S) :
    final (ProblemList.InsertProblem b json) server = final (MoDB.InsertProblem b json) server := by
  obtain ⟨tmpjson, server', hinsert, hindexable, hid⟩ := always_InsertProblem (b := b) json server
  rw [ProblemList.InsertProblem, final_bind_of_ok hinsert, final_of_ok hinsert,
    Json.index_of_indexable hindexable, final_liftM_bind]
  simp only
  split
  · rfl
  · obtain ⟨e, herror⟩ := insertData_error (b := b) json hid server'
    rw [final, herror]

end insertion

/-- The document an insertion stores, if it is taken. -/
def newProblem (server : Server (Databases S)) (json : Json) : Option Doc :=
  match MoDB.problemMembers json with
  | .ok members =>
      server.outside.insertable .Problem (Counter.m_problemid.next server) (members ++ MoDB.problemCounters)
  | .error _ => none

section insertion

variable (base : Backend S) (regex : Bytes → Option (Bytes → Bool)) (server : Server (Databases S))

theorem outside_InsertProblem (json : Json) :
    (final (MoDB.InsertProblem (base.onDatabases regex) json) server).outside =
      match MoDB.problemMembers json with
      | .ok members =>
          final (Databases.insert_one .Problem (Counter.m_problemid.next server)
            (members ++ MoDB.problemCounters)) server.outside
      | .error _ => server.outside := by
  have hnext : MoDB.nextProblemId server =
      .ok (server.m_problemid + 1) { server with m_problemid := server.m_problemid + 1 } := rfl
  rw [MoDB.InsertProblem, orElse500, final_attempt_pure, final_bind_of_ok hnext, final_liftM_bind]
  cases MoDB.problemMembers json with
  | error e =>
      rfl
  | ok members =>
      simp only
      rw [final_bind_of_keeps (v := Server.outside) (fun _ => Keeps.pure _), final_call]
      rfl

/-- A refused insertion changes nothing outside. -/
theorem outside_InsertProblem_of_none {json : Json} (h : newProblem server json = none) :
    (final (MoDB.InsertProblem (base.onDatabases regex) json) server).outside = server.outside := by
  rw [outside_InsertProblem]
  rw [newProblem] at h
  cases hmembers : MoDB.problemMembers json with
  | error e =>
      rfl
  | ok members =>
      simp only [hmembers] at h
      exact Databases.final_insert_one_of_none _ _ _ h

theorem outside_InsertProblem_of_some {json : Json} {doc : Doc} (h : newProblem server json = some doc) :
    server.outside.find .Problem (Counter.m_problemid.next server) = none ∧
      (final (MoDB.InsertProblem (base.onDatabases regex) json) server).outside.rest = server.outside.rest ∧
      ∀ id, (final (MoDB.InsertProblem (base.onDatabases regex) json) server).outside.find .Problem id =
        if id = Counter.m_problemid.next server then some doc else server.outside.find .Problem id := by
  rw [outside_InsertProblem]
  rw [newProblem] at h
  cases hmembers : MoDB.problemMembers json with
  | error e =>
      simp only [hmembers] at h
      cases h
  | ok members =>
      simp only [hmembers] at h
      refine ⟨(Databases.insertable_eq_some h).1, Databases.rest_insert_one .., fun id => ?_⟩
      rw [Databases.find_insert_one _ _ _ h]
      simp only [true_and]

end insertion

/-! ## The requests of an administrator -/

/-- The requests that change problems, for what they ask. -/
inductive DataRequest where
  | Insert (insertjson : Json)
  | Update (updatejson : Json)
  | Delete (deletejson : Json)

/-- The databases and the disk, with what was written. -/
structure Site (S : Type) where
  server : Server (Databases (S × Disk))
  /-- The `TestInfo` each problem was last inserted or changed with. -/
  testinfo : Int64 → Json

/-- The name of a problem's directory. -/
def directoryOf (id : Int64) : Bytes := Numerals.to_string id.toInt

theorem directoryOf_injective {id id' : Int64} (h : directoryOf id = directoryOf id') : id = id' := by
  have hsame := stoll_to_string id
  rw [directoryOf, directoryOf] at h
  rw [h, stoll_to_string] at hsame
  cases hsame
  rfl

/-- The directories after a change of one. -/
theorem update_directoryOf (disk : Disk) (id : Int64) (dir : Option Directory) (i : Int64) :
    Function.update disk (directoryOf id) dir (directoryOf i) =
      if i = id then dir else disk (directoryOf i) := by
  split
  · next hi =>
    rw [hi, Function.update_self]
  · next hi =>
    exact Function.update_of_ne (fun hsame => hi (directoryOf_injective hsame)) _ _

theorem intAt_directoryOf {json : Json} {id : Int32}
    (h : json.member "ProblemId" = .string (directoryOf id.toInt64)) : json.intAt "ProblemId" = .ok id := by
  have hspelling : directoryOf id.toInt64 = Numerals.to_string id.toInt := by
    rw [directoryOf, Int32.toInt_toInt64]
  rw [Json.intAt, stringAt_of_member h, hspelling]
  exact stoi_to_string id

/-- The problem has a document just when it has a directory, and that has the tests last written. -/
structure Site.Matches (site : Site S) (id : Int64) : Prop where
  both : site.server.outside.find .Problem id ≠ none ↔ diskOf site.server (directoryOf id) ≠ none
  tests : ∀ dir, diskOf site.server (directoryOf id) = some dir → Holds dir (site.testinfo id)

/-- What is seen of a problem decides. -/
theorem Site.Matches.congr {site site' : Site S} {id : Int64} (h : site.Matches id)
    (hfind : site'.server.outside.find .Problem id = site.server.outside.find .Problem id)
    (hdisk : diskOf site'.server (directoryOf id) = diskOf site.server (directoryOf id))
    (htestinfo : site'.testinfo id = site.testinfo id) : site'.Matches id := by
  constructor
  · rw [hfind, hdisk]
    exact h.both
  · rw [hdisk, htestinfo]
    exact h.tests

/-- Problems and their test data are there together. -/
def Together (site : Site S) : Prop := ∀ id, site.Matches id

/-- Without the document there is no directory to take away. -/
theorem Together.no_directory {site : Site S} (h : Together site) {id : Int64}
    (hnone : site.server.outside.find .Problem id = none) (i : Int64) :
    diskOf site.server (directoryOf i) = if i = id then none else diskOf site.server (directoryOf i) := by
  split
  · next hi =>
    rw [hi]
    exact not_not.1 (mt (h id).both.2 (not_not.2 hnone))
  · rfl

/-- The user the token of the JSON resolves to has the authority of an administrator. -/
def ByAdministrator (b : Backend S) (json : Json) (server : Server S) : Prop :=
  ∃ token, json.member "Token" = .string token ∧
    authorityOf server.UserAuthorityMap (tokenUser b token server) ≥ 5

section permission

variable (base : Backend S) (regex : Bytes → Option (Bytes → Bool)) {server : Server (Databases S)}

/-- An administrator's request is acted on, with the id of its user in it. -/
theorem final_byAdministrator {json : Json} (h : ByAdministrator (base.onDatabases regex) json server)
    (act : Json → Action (Databases S) Json) :
    ∃ userid, final (Control.guarded (UserList.IsAdministrator (base.onDatabases regex)) act json) server =
      final (act (json.put "VerifyId" (.string userid))) server := by
  obtain ⟨token, htoken, hauthority⟩ := h
  have hafter : afterToken (base.onDatabases regex) token server = server :=
    afterToken_onTokens base regex (fun db key t => .ok (t.redis db key)) token server
  refine ⟨tokenUser (base.onDatabases regex) token server, ?_⟩
  rw [final_guarded (UserList.IsAdministrator_apply server (Json.indexable_of_member htoken) htoken),
    hafter, if_pos (decide_eq_true hauthority)]

theorem keeps_outside_InitProblemTags :
    Keeps Server.outside (Tag.InitProblemTags (base.onDatabases regex)) := by
  refine Keeps.bind (Keeps.bind (keeps_reads _) fun docs => ?_) fun jsonvalue => ?_
  · split
    · exact Keeps.pure _
    · exact Keeps.pure _
  · exact Keeps.bind (Keeps.liftM _) fun values => fun _ => rfl

/-- The tags are asked for after the edit. -/
theorem outside_edit (edit : Action (Databases S) Json) (server : Server (Databases S)) :
    (final (do
      let resjson ← edit
      Tag.InitProblemTags (base.onDatabases regex)
      return resjson) server).outside = (final edit server).outside :=
  final_bind_of_keeps (fun _ => Keeps.bind (keeps_outside_InitProblemTags base regex) fun _ => Keeps.pure _)
    edit server

end permission

namespace DataRequest

def json : DataRequest → Json
  | .Insert json => json
  | .Update json => json
  | .Delete json => json

def run (b : Backend S) : DataRequest → Action S Json
  | .Insert json => Control.EditProblem b json
  | .Update json => Control.EditProblem b json
  | .Delete json => Control.DeleteProblem b json

/-- The request says what it asks for, names the problem by its id as it is printed, and has data of the
types that are read. -/
def WellFormed : DataRequest → Prop
  | .Insert json => json.member "EditType" = .str "Insert"
  | .Update json => json.member "EditType" = .str "Update" ∧ DataTyped json ∧
      ∃ id : Int32, json.member "ProblemId" = .string (directoryOf id.toInt64)
  | .Delete json => ∃ id : Int64, json.member "ProblemId" = .string (directoryOf id)

/-- The `TestInfo`s after a request: an insertion counts if its document is stored. -/
def written (site : Site S) : DataRequest → Int64 → Json
  | .Insert json =>
      if (newProblem site.server json).isSome then
        Function.update site.testinfo (Counter.m_problemid.next site.server) (json.member "TestInfo")
      else site.testinfo
  | .Update json =>
      match json.intAt "ProblemId" with
      | .ok id => Function.update site.testinfo id.toInt64 (json.member "TestInfo")
      | .error _ => site.testinfo
  | .Delete _ => site.testinfo

def step (b : Backend (Databases (S × Disk))) (site : Site S) (req : DataRequest) : Site S where
  server := final (req.run b) site.server
  testinfo := req.written site

/-- A well-formed request of an administrator. -/
def Admitted (b : Backend (Databases (S × Disk))) (site : Site S) (req : DataRequest) : Prop :=
  req.WellFormed ∧ ByAdministrator b req.json site.server

/-- Nothing is inserted, and what is changed is there. -/
def Harmless (site : Site S) : DataRequest → Prop
  | .Insert json => newProblem site.server json = none
  | .Update json => ∀ id, json.intAt "ProblemId" = .ok id →
      site.server.outside.find .Problem id.toInt64 ≠ none
  | .Delete _ => True

section steps

variable {base : Backend S} {regex : Bytes → Option (Bytes → Bool)} {site site' : Site S}

/-- What the check writes into the JSON is not read afterwards. -/
theorem member_put_verifyId {json : Json} (hj : json.Indexable = true) (userid : Json) {k : String}
    (hk : k ≠ "VerifyId") : (json.put "VerifyId" userid).member k = json.member k := by
  rw [Json.member_put hj, if_neg hk]

theorem problemMembers_put {json : Json} (hj : json.Indexable = true) (userid : Json) :
    MoDB.problemMembers (json.put "VerifyId" userid) = MoDB.problemMembers json := by
  simp [MoDB.problemMembers, Json.intAt, Json.stringAt, Json.index_put hj]

theorem dataTyped_put {json : Json} (h : DataTyped json) (userid : Json) :
    DataTyped (json.put "VerifyId" userid) := by
  obtain ⟨problemid, hid⟩ := h.problemid
  have hmember : ∀ {k : String}, k ≠ "VerifyId" → (json.put "VerifyId" userid).member k = json.member k :=
    member_put_verifyId (Json.indexable_of_member hid) userid
  constructor
  · rw [hmember (by decide)]
    exact h.problemid
  · rw [hmember (by decide)]
    exact h.tests
  · rw [hmember (by decide), hmember (by decide)]
    exact h.spj

/-- A step is judged by what it makes of the one problem it is about. -/
theorem together_iff_of_changes {id : Int64} {doc : Option Doc} {dir : Option Directory} (h : Together site)
    (hfind : ∀ i, site'.server.outside.find .Problem i =
      if i = id then doc else site.server.outside.find .Problem i)
    (hdisk : ∀ i, diskOf site'.server (directoryOf i) =
      if i = id then dir else diskOf site.server (directoryOf i))
    (htestinfo : ∀ i ≠ id, site'.testinfo i = site.testinfo i) :
    Together site' ↔ (doc ≠ none ↔ dir ≠ none) ∧ ∀ d, dir = some d → Holds d (site'.testinfo id) := by
  have hdoc : site'.server.outside.find .Problem id = doc := (hfind id).trans (if_pos rfl)
  have hdir : diskOf site'.server (directoryOf id) = dir := (hdisk id).trans (if_pos rfl)
  constructor
  · intro h'
    have hmatches := h' id
    rw [← hdoc, ← hdir]
    exact ⟨hmatches.both, hmatches.tests⟩
  · rintro ⟨hboth, htests⟩ i
    by_cases hi : i = id
    · subst hi
      constructor
      · rw [hdoc, hdir]
        exact hboth
      · rw [hdir]
        exact htests
    · exact (h i).congr ((hfind i).trans (if_neg hi)) ((hdisk i).trans (if_neg hi)) (htestinfo i hi)

variable (base regex) in
/-- What an administrator's edit does outside is the edit of its kind. -/
theorem outside_EditProblem {json : Json} {edittype : Bytes} {server : Server (Databases S)}
    (htype : json.member "EditType" = .string edittype)
    (hadmin : ByAdministrator (base.onDatabases regex) json server) :
    ∃ userid : Bytes, (final (Control.EditProblem (base.onDatabases regex) json) server).outside =
      (final
        (if edittype = bytes "Insert" then
          ProblemList.InsertProblem (base.onDatabases regex) (json.put "VerifyId" (.string userid))
        else if edittype = bytes "Update" then
          ProblemList.UpdateProblem (base.onDatabases regex) (json.put "VerifyId" (.string userid))
        else pure .null) server).outside := by
  obtain ⟨userid, hfinal⟩ :=
    final_byAdministrator base regex hadmin (Control.editProblem (base.onDatabases regex))
  have htype' : (json.put "VerifyId" (.string userid)).member "EditType" = .string edittype :=
    (member_put_verifyId (Json.indexable_of_member htype) _ (by decide)).trans htype
  refine ⟨userid, ?_⟩
  rw [Control.EditProblem, hfinal, Control.editProblem, stringAt_of_member htype', final_liftM_bind]
  simp only
  split
  · exact outside_edit base regex _ _
  · split
    · exact outside_edit base regex _ _
    · exact outside_edit base regex _ _

/-! ### An insertion -/

/-- A document that is stored has no directory. -/
theorem together_insert_iff {json : Json} (htype : json.member "EditType" = .str "Insert")
    (hadmin : ByAdministrator (base.onDisk.onDatabases regex) json site.server) (h : Together site) :
    Together ((Insert json).step (base.onDisk.onDatabases regex) site) ↔
      newProblem site.server json = none := by
  obtain ⟨userid, houtside⟩ := outside_EditProblem base.onDisk regex htype hadmin
  rw [if_pos rfl, final_InsertProblem] at houtside
  have hsame : newProblem site.server (json.put "VerifyId" (.string userid)) =
      newProblem site.server json := by
    simp only [newProblem, problemMembers_put (Json.indexable_of_member htype)]
  cases hnew : newProblem site.server json with
  | none =>
      rw [outside_InsertProblem_of_none base.onDisk regex _ (hsame.trans hnew)] at houtside
      refine iff_of_true (fun id => (h id).congr ?_ ?_ ?_) rfl
      · exact congrArg (fun t => Databases.find t .Problem id) houtside
      · exact congrArg (fun t => t.rest.2 (directoryOf id)) houtside
      · simp only [step, written, hnew, Option.isSome_none, Bool.false_eq_true, if_false]
  | some doc =>
      obtain ⟨hfree, hrest, hfind⟩ :=
        outside_InsertProblem_of_some base.onDisk regex _ (hsame.trans hnew)
      rw [← houtside] at hrest hfind
      have hdisk : diskOf ((Insert json).step (base.onDisk.onDatabases regex) site).server =
          diskOf site.server := congrArg Prod.snd hrest
      -- the new document has no directory, as there was none without it
      have hdisk' : ∀ i, diskOf ((Insert json).step (base.onDisk.onDatabases regex) site).server (directoryOf i) =
          if i = Counter.m_problemid.next site.server then none else diskOf site.server (directoryOf i) :=
        fun i => (congrFun hdisk _).trans (h.no_directory hfree i)
      rw [together_iff_of_changes h hfind hdisk' fun i hi => by
        simp only [step, written, hnew, Option.isSome_some, if_true, Function.update_of_ne hi]]
      simp

/-! ### An update -/

/-- The update leaves the other documents alone, and this one in place. -/
theorem edited_update {json : Json} {id : Int32} (hint : json.intAt "ProblemId" = .ok id)
    (t : Databases S) :
    ∃ change : Doc → Doc, ∀ i, (ProblemRequest.update json).edited t i =
      if i = id.toInt64 then (t.find .Problem id.toInt64).map change else t.find .Problem i := by
  cases hmembers : MoDB.problemMembers json with
  | error e =>
      refine ⟨fun doc => doc, fun i => ?_⟩
      simp only [ProblemRequest.edited, ProblemRequest.edit, hint, hmembers, Option.map_id']
      split
      · next hi =>
        rw [hi]
      · rfl
  | ok members =>
      refine ⟨Doc.update (.set members), fun i => ?_⟩
      simp only [ProblemRequest.edited, ProblemRequest.edit, hint, hmembers, Option.map_eq_bind]
      split
      · next hi =>
        rw [hi]
        rfl
      · rfl

theorem together_update_iff {json : Json} {id : Int32} (htype : json.member "EditType" = .str "Update")
    (hdata : DataTyped json) (hid : json.member "ProblemId" = .string (directoryOf id.toInt64))
    (hadmin : ByAdministrator (base.onDisk.onDatabases regex) json site.server) (h : Together site) :
    Together ((Update json).step (base.onDisk.onDatabases regex) site) ↔
      site.server.outside.find .Problem id.toInt64 ≠ none := by
  obtain ⟨userid, houtside⟩ := outside_EditProblem base.onDisk regex htype hadmin
  rw [if_neg (by decide), if_pos rfl] at houtside
  have hmember : ∀ {k : String}, k ≠ "VerifyId" →
      (json.put "VerifyId" (.string userid)).member k = json.member k :=
    member_put_verifyId (Json.indexable_of_member htype) _
  have hid' : (json.put "VerifyId" (.string userid)).member "ProblemId" = .string (directoryOf id.toInt64) :=
    (hmember (by decide)).trans hid
  obtain ⟨dir, hupdated, hholds⟩ :=
    disk_UpdateProblem base regex site.server (dataTyped_put hdata (.string userid)) hid'
  obtain ⟨change, hedited⟩ := edited_update (intAt_directoryOf hid') site.server.outside
  have hfind : ∀ i, ((Update json).step (base.onDisk.onDatabases regex) site).server.outside.find .Problem i =
      if i = id.toInt64 then (site.server.outside.find .Problem id.toInt64).map change
      else site.server.outside.find .Problem i := by
    intro i
    rw [← hedited, ← (ProblemRequest.step_update base.onDisk regex site.server _).1]
    exact congrArg (fun t => Databases.find t .Problem i) houtside
  have hdisk : ∀ i, diskOf ((Update json).step (base.onDisk.onDatabases regex) site).server (directoryOf i) =
      if i = id.toInt64 then some dir else diskOf site.server (directoryOf i) := by
    intro i
    rw [← update_directoryOf, ← hupdated]
    exact congrArg (fun t => t.rest.2 (directoryOf i)) houtside
  have hwritten : ((Update json).step (base.onDisk.onDatabases regex) site).testinfo =
      Function.update site.testinfo id.toInt64 (json.member "TestInfo") := by
    simp only [step, written, intAt_directoryOf hid]
  rw [together_iff_of_changes h hfind hdisk fun i hi => by rw [hwritten, Function.update_of_ne hi],
    hwritten, Function.update_self, ← hmember (k := "TestInfo") (by decide)]
  -- there is a directory now, so there has to be a document
  constructor
  · intro htogether
    simpa using htogether.1
  · intro hstored
    refine ⟨by simpa using hstored, fun d hd => ?_⟩
    cases hd
    exact hholds

/-! ### A deletion -/

theorem together_delete {json : Json} {id : Int64} (hid : json.member "ProblemId" = .string (directoryOf id))
    (hadmin : ByAdministrator (base.onDisk.onDatabases regex) json site.server) (h : Together site) :
    Together ((Delete json).step (base.onDisk.onDatabases regex) site) := by
  obtain ⟨userid, hfinal⟩ := final_byAdministrator base.onDisk regex hadmin
    (ProblemList.DeleteProblem (base.onDisk.onDatabases regex))
  have hid' : (json.put "VerifyId" (.string userid)).member "ProblemId" = .string (directoryOf id) :=
    (member_put_verifyId (Json.indexable_of_member hid) _ (by decide)).trans hid
  have hdeleted := disk_DeleteProblem base regex site.server hid' (stoll_to_string id)
  have hfind : ∀ i, ((Delete json).step (base.onDisk.onDatabases regex) site).server.outside.find .Problem i =
      if i = id then none else site.server.outside.find .Problem i := by
    intro i
    have hnumber : stoll (directoryOf id) = .ok id := stoll_to_string id
    have hedited : (ProblemRequest.step (base.onDisk.onDatabases regex) site.server
        (.delete (json.put "VerifyId" (.string userid)))).outside.find .Problem i = _ :=
      (ProblemRequest.step_delete _).1 i
    rw [ProblemRequest.edited_delete hid', hnumber] at hedited
    simp only [Except.ok.injEq, eq_comm (a := id)] at hedited
    exact (congrArg (fun server => Databases.find (Server.outside server) .Problem i) hfinal).trans hedited
  have hdisk : ∀ i, diskOf ((Delete json).step (base.onDisk.onDatabases regex) site).server (directoryOf i) =
      if i = id then none else diskOf site.server (directoryOf i) := by
    intro i
    refine (congrFun ((congrArg diskOf hfinal).trans hdeleted) (directoryOf i)).trans ?_
    split
    · next hmissing =>
      exact h.no_directory hmissing i
    · exact update_directoryOf ..
  rw [together_iff_of_changes h hfind hdisk fun _ _ => rfl]
  simp

/-! ### Runs -/

/-- One request keeps problems and data together just when it is harmless. -/
theorem together_step_iff {req : DataRequest} (hadmitted : req.Admitted (base.onDisk.onDatabases regex) site)
    (h : Together site) :
    Together (req.step (base.onDisk.onDatabases regex) site) ↔ req.Harmless site := by
  obtain ⟨hwell, hadmin⟩ := hadmitted
  cases req with
  | Insert json =>
      exact together_insert_iff hwell hadmin h
  | Update json =>
      obtain ⟨htype, hdata, id, hid⟩ := hwell
      have hint := intAt_directoryOf hid
      refine (together_update_iff htype hdata hid hadmin h).trans ⟨fun hstored id' hid' => ?_, fun h => h id hint⟩
      cases hint.symm.trans hid'
      exact hstored
  | Delete json =>
      obtain ⟨id, hid⟩ := hwell
      exact iff_of_true (together_delete hid hadmin h) trivial

/-- **Problems and their test data.**  From a state in which they are together, well-formed requests of
administrators keep them together throughout a run precisely when none of them inserts a problem, which
never gets a directory, and every update is of a problem that is there: one that is not gets a directory
all the same. -/
theorem together_throughout_iff {reqs : List DataRequest}
    (hadmitted : Runs.Guarded (step (base.onDisk.onDatabases regex)) (Admitted (base.onDisk.onDatabases regex))
      site reqs) (h : Together site) :
    Runs.Throughout (step (base.onDisk.onDatabases regex)) Together site reqs ↔
      Runs.Guarded (step (base.onDisk.onDatabases regex)) Harmless site reqs :=
  (hadmitted.guarded_iff_throughout (fun _ _ hreq htogether => together_step_iff hreq htogether) h).symm

end steps

/-! ### An administrator's requests -/

/-- One administrator, and no problem. -/
def noProblem : Site Unit where
  server := {
    UserAuthorityMap := fun id => if id = 1 then 5 else 0
    m_problemid := 0
    m_commentid := 0
    m_articleid := 0
    problemtags := .null
    outside := (Databases.empty ((), fun _ => none)).setRedis .redis_token (bytes "token") (some (bytes "1")) }
  testinfo := fun _ => .null

/-- A problem with one test. -/
def sumProblem (edittype problemid : String) : Json :=
  .object [("Token", .str "token"), ("EditType", .str edittype), ("ProblemId", .str problemid),
    ("Title", .str "A+B"), ("Description", .str ""), ("TimeLimit", .str "1000"), ("MemoryLimit", .str "65536"),
    ("JudgeNum", .str "1"), ("UserNickName", .str "root"), ("Tags", .array []), ("IsSPJ", .boolean false),
    ("TestInfo", .array [.object [("in", .str "1 2"), ("out", .str "3")]])]

theorem dataTyped_sumProblem (edittype problemid : String) : DataTyped (sumProblem edittype problemid) where
  problemid := ⟨_, rfl⟩
  tests := by
    intro i hi
    have hi : i = 0 := Nat.lt_one_iff.1 (List.mem_range.1 hi)
    subst hi
    exact ⟨_, rfl, ⟨_, rfl⟩, ⟨_, rfl⟩⟩
  spj := ⟨false, rfl, by simp⟩

theorem together_noProblem : Together noProblem := fun _ =>
  ⟨iff_of_false (not_not.2 rfl) (not_not.2 rfl), fun _ h => nomatch h⟩

/-- The first problem gets a document and no directory. -/
theorem apart_after_insert :
    Together noProblem ∧
      Runs.Guarded (step (Backend.idle.onDisk.onDatabases fun _ => none))
        (Admitted (Backend.idle.onDisk.onDatabases fun _ => none)) noProblem
        [.Insert (sumProblem "Insert" "")] ∧
      ¬ Runs.Throughout (step (Backend.idle.onDisk.onDatabases fun _ => none)) Together noProblem
        [.Insert (sumProblem "Insert" "")] := by
  have hadmitted : Admitted (Backend.idle.onDisk.onDatabases fun _ => none) noProblem
      (.Insert (sumProblem "Insert" "")) := ⟨rfl, bytes "token", rfl, by decide⟩
  refine ⟨together_noProblem, ⟨hadmitted, trivial⟩, fun hthroughout => ?_⟩
  have hrefused := (together_step_iff hadmitted together_noProblem).1 hthroughout.2
  have hstored : (newProblem noProblem.server (sumProblem "Insert" "")).isSome = true := by decide
  rw [hrefused] at hstored
  cases hstored

/-- The problem is there, and so is its directory. -/
def oneSite : Site Unit where
  server := { noProblem.server with
    outside := { noProblem.server.outside with
      colls := fun coll =>
        if coll = .Problem then ⟨[(1, ProblemRequest.problemOne)], ProblemRequest.nodup_problemOne⟩ else Rows.empty
      rest := ((), Function.update (fun _ => none) (directoryOf 1) (some fun _ => none)) } }
  testinfo := fun _ => .null

theorem together_oneSite : Together oneSite := by
  have hfind : ∀ i, oneSite.server.outside.find .Problem i =
      if i = 1 then some ProblemRequest.problemOne else noProblem.server.outside.find .Problem i := by
    intro i
    by_cases hi : i = 1
    · subst hi
      rfl
    · have hkey : (i == 1) = false := beq_eq_false_iff_ne.2 hi
      simp [Databases.find, Rows.get?, oneSite, noProblem, Databases.empty, Rows.empty, List.lookup_cons, hi, hkey]
  have hdisk : ∀ i, diskOf oneSite.server (directoryOf i) =
      if i = 1 then some fun _ => none else diskOf noProblem.server (directoryOf i) :=
    update_directoryOf (diskOf noProblem.server) 1 _
  refine (together_iff_of_changes together_noProblem hfind hdisk fun _ _ => rfl).2 ⟨by simp, fun dir hdir => ?_⟩
  cases hdir
  exact ⟨fun i hi => absurd hi (Nat.not_lt_zero i), fun name hname => absurd rfl hname⟩

theorem together_throughout_iff_update :
    Runs.Throughout (step (Backend.idle.onDisk.onDatabases fun _ => none)) Together oneSite
        [.Update (sumProblem "Update" "1")] ↔
      Runs.Guarded (step (Backend.idle.onDisk.onDatabases fun _ => none)) Harmless oneSite
        [.Update (sumProblem "Update" "1")] :=
  have hspelling : bytes "1" = directoryOf (Int32.toInt64 1) := by decide
  have hwell : WellFormed (.Update (sumProblem "Update" "1")) :=
    ⟨rfl, dataTyped_sumProblem .., 1, congrArg Json.string hspelling⟩
  together_throughout_iff ⟨⟨hwell, bytes "token", rfl, by decide⟩, trivial⟩ together_oneSite

end DataRequest

end Oj
end Myoj
