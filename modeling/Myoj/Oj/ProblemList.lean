import Myoj.Oj.MongoDataBase
import Myoj.Oj.RedisDataBase

/-!
# ProblemList — problems with their data files and caches, status records, tags

`ProblemList`, `StatusRecordList` and `Tag`: what stands between `Control` and the databases where it
does more than pass a call on.
-/

namespace Myoj
namespace Oj

open Effect

variable {S : Type} (b : Backend S)

namespace ProblemList

/-- The name of a test file, `"3.in"`. -/
def testFile (index : Nat) (extension : String) : Bytes :=
  Numerals.to_string index ++ bytes extension

/-- The text of a file; a stream that did not open reads nothing. -/
def readFile (problemid name : Bytes) : Action S Json :=
  observe fun s => .string ((b.readProblemFile problemid name s).getD [])

/-- The tests of a problem, numbered from 1. -/
def readTests (problemid : Bytes) : List Nat → Action S (List Json)
  | [] => return []
  | index :: rest => do
      let infile ← readFile b problemid (testFile index ".in")
      let outfile ← readFile b problemid (testFile index ".out")
      let tests ← readTests problemid rest
      return .object [("in", infile), ("out", outfile)] :: tests

/-- The tests and the special judge of a problem, from the files named by its id. -/
def addTestInfo (resjson : Json) : Action S Json := do
  -- the id is a number in a problem that was found, and missing from an error
  let problemid ← resjson.stringAt "_id"
  let judgenum ← resjson.intAt "JudgeNum"
  let tests ← readTests b problemid ((List.range judgenum.toInt.toNat).map (· + 1))
  let resjson := MoDB.pushDocs "TestInfo" resjson tests
  match ← observe (b.readProblemFile problemid (bytes "spj.cpp")) with
  | none => return resjson.put "IsSPJ" (.boolean false)
  | some spjfile => return (resjson.put "SPJ" (.string spjfile)).put "IsSPJ" (.boolean true)

def SelectProblemInfoByAdmin (queryjson : Json) : Action S Json := do
  let resjson ← MoDB.SelectProblemInfoByAdmin b queryjson
  if (← resjson.stringAt "Result") = bytes "Fail" then return resjson
  else addTestInfo b resjson

/-- A problem that was found goes into the cache. -/
def cacheProblem (problemid : Bytes) (resjson : Json) : Action S Unit := do
  if (← resjson.stringAt "Result") = bytes "Success" then
    resjson.dump
    let _ ← ReDB.AddProblemCache b problemid (b.dumpText resjson)

def SelectProblem (queryjson : Json) : Action S Json := do
  let problemid ← queryjson.stringAt "ProblemId"
  let resstr ← ReDB.GetProblemCache b problemid
  if resstr ≠ [] then b.parseJson resstr
  else
    let resjson ← MoDB.SelectProblem b queryjson
    cacheProblem b problemid resjson
    return resjson

/-- One test file.  The source opens it before it reads the member, and leaves it empty when that throws; here
nothing is written then. -/
def writeTest (problemid : Bytes) (test : Json) (index : Nat) (k : String) (extension : String) :
    Action S Unit := do
  let text ← test.stringAt k
  affect (b.writeProblemFile problemid (testFile index extension) text)

/-- The loop over `TestInfo`. -/
def writeTests (problemid : Bytes) (testinfo : Json) : List Nat → Action S Unit
  | [] => return ()
  | i :: rest => do
      writeTest b problemid (← testinfo.nth i) (i + 1) "in" ".in"
      writeTest b problemid (← testinfo.nth i) (i + 1) "out" ".out"
      writeTests problemid testinfo rest

def InsertProblemDataInfo (insertjson : Json) : Action S Unit := do
  let problemid ← insertjson.stringAt "ProblemId"
  affect (b.makeProblemData problemid)
  let testinfo ← insertjson.index "TestInfo"
  writeTests b problemid testinfo (List.range testinfo.size)
  if ← (← insertjson.index "IsSPJ").getBool then
    let spj ← insertjson.stringAt "SPJ"
    affect (b.writeProblemFile problemid (bytes "spj.cpp") spj)

/-- The data of a new problem, under the id its insertion reported: a number, handed on as it is. -/
def insertData (insertjson tmpjson : Json) : Action S Json := do
  let insertjson ← insertjson.set "ProblemId" (← tmpjson.index "ProblemId")
  InsertProblemDataInfo b insertjson
  return tmpjson

def InsertProblem (insertjson : Json) : Action S Json := do
  let tmpjson ← MoDB.InsertProblem b insertjson
  if (← tmpjson.index "Result").eqString "Fail" then return tmpjson
  else insertData b insertjson tmpjson

/-- The data of a changed problem, written anew. -/
def updateData (updatejson tmpjson : Json) : Action S Json := do
  let problemid ← updatejson.stringAt "ProblemId"
  affect (b.removeProblemData problemid)
  InsertProblemDataInfo b updatejson
  let _ ← ReDB.DeleteProblemCache b problemid
  return tmpjson

def UpdateProblem (updatejson : Json) : Action S Json := do
  let tmpjson ← MoDB.UpdateProblem b updatejson
  if (← tmpjson.stringAt "Result") = bytes "Fail" then return tmpjson
  else updateData b updatejson tmpjson

def DeleteProblem (deletejson : Json) : Action S Json := do
  let tmpjson ← MoDB.DeleteProblem b deletejson
  if (← tmpjson.index "Result").eqString "Fail" then return tmpjson
  else
    let problemid ← deletejson.stringAt "ProblemId"
    affect (b.removeProblemData problemid)
    let _ ← ReDB.DeleteProblemCache b problemid
    return tmpjson

end ProblemList

namespace StatusRecordList

/-- A record goes into the cache unless it is still waiting. -/
def cacheStatusRecord (statusrecordid : Bytes) (resjson : Json) : Action S Unit := do
  if (← resjson.stringAt "Result") = bytes "Success" then
    if (← (← resjson.index "Status").getInt) > 0 then
      resjson.dump
      let _ ← ReDB.AddStatusRecordCache b statusrecordid (b.dumpText resjson)

def SelectStatusRecord (queryjson : Json) : Action S Json := do
  let statusrecordid ← queryjson.stringAt "SubmitId"
  let resstr ← ReDB.GetStatusRecordCache b statusrecordid
  if resstr ≠ [] then b.parseJson resstr
  else
    let resjson ← MoDB.SelectStatusRecord b queryjson
    cacheStatusRecord b statusrecordid resjson
    return resjson

end StatusRecordList

namespace Tag

def InitProblemTags : Action S Unit := do
  let jsonvalue ← MoDB.getProblemTags b
  let values ← jsonvalue.index "values"
  modify fun server => { server with problemtags := values }

end Tag

end Oj
end Myoj
