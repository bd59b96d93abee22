import Myoj.Oj.Backend

/-!
# Mongo — the shapes the MongoDB functions come in

Almost every function of `MoDB` is one of a few programs over a collection, applied to its own fields
and texts.  The programs are here, the functions in `MongoDataBase`.

* `selectById` — one document, found or not;
* `pagedList`, `countedList` — a page of documents with the total number;
* `insertOne`, `updateById`, `deleteById`, `updateComments` — the writes.

A driver that throws in the middle of a cursor is modelled as one whose query throws: the answer is the
same `"500"`, without the documents read so far.
-/

namespace Myoj
namespace Oj
namespace MoDB

open Effect

variable {S : Type} (b : Backend S)

/-- `kvp("_id", id)`. -/
def byId (id : Int64) : Stage := .matching "_id" (.ofInt id.toInt)

/-! ## Reading one document -/

/-- `for (auto doc : cursor) resjson = …`: the last document, or `null`. -/
def lastDoc (fields : List String) (docs : List (Int64 × Doc)) : Json :=
  match docs.getLast? with
  | none => .null
  | some (id, doc) => doc.toJson fields id

/-- The result for the documents found. -/
def found (fields : List String) (notFound : String) (docs : List (Int64 × Doc)) : Json :=
  if docs.isEmpty then failure "Fail" notFound else success (lastDoc fields docs)

/-- `stoll` of the id, the view counted where the page shows an article, and the document. -/
def selectById (coll : Collection) (idField : String) (views : Bool) (joined : List Stage)
    (fields : List String) (notFound reason : String) (queryjson : Json) : Action S Json :=
  orElse500 .null reason do
    let id ← queryjson.int64At idField
    if views then
      let _ ← call (b.update_one coll id (.inc "Views" 1))
    let docs ← call (b.aggregate coll (byId id :: joined ++ [.project fields []]))
    return found fields notFound docs

/-! ## Reading a page -/

/-- The matches of a query, and its page. -/
structure Page where
  filter : List Stage
  skip : Int32
  limit : Int32

/-- `Page` and `PageSize` of a request. -/
def pageOf (filter : List Stage) (queryjson : Json) : Except Exception Page := do
  let page ← queryjson.intAt "Page"
  let pagesize ← queryjson.intAt "PageSize"
  return { filter, skip := (page - 1) * pagesize, limit := pagesize }

/-- The document of `$count`: there is none when nothing matches. -/
def totalNum : Option Int → Json
  | none => .null
  | some n => .object [("TotalNum", .ofInt n)]

/-- `resjson[name].push_back(…)` for every document. -/
def pushDocs (name : String) (resjson : Json) (docs : List Json) : Json :=
  if docs.isEmpty then resjson else resjson.put name (.array docs)

/-- The pipeline of a page. -/
def Page.pipe (page : Page) (order joined : List Stage) (fields : List String)
    (computed : List (String × String)) : List Stage :=
  page.filter ++ order ++ [.skip page.skip, .limit page.limit] ++ joined ++
    [.project fields computed]

/-- Count what matches, then fetch the page; what the count has put into `resjson` stays when the
second query throws. -/
def pagedList (coll : Collection) (query : Except Exception Page) (order joined : List Stage)
    (fields : List String) (computed : List (String × String)) (reason : String)
    (finish : Page → Json → List Json → Json) : Action S Json :=
  orElse500 .null reason do
    let page ← query
    let total ← call (b.aggregateCount coll page.filter)
    orElse500 (totalNum total) reason do
      let docs ← call (b.aggregate coll (page.pipe order joined fields computed))
      return finish page (totalNum total) (docs.map fun (id, doc) => doc.toJson fields id)

/-- Fetch the page with a pipeline, then count the matches of a filter with `count_documents`; the
documents are in `resjson` by then. -/
def countedList (coll : Collection) (query : Except Exception (List Stage × List Stage))
    (name : String) (fields : List String) (finish : Json → Json) : Action S Json :=
  orElse500 .null "数据库异常！" do
    let (filter, pipe) ← query
    let docs ← call (b.aggregate coll pipe)
    let resjson := finish (pushDocs name .null (docs.map fun (id, doc) => doc.toJson fields id))
    orElse500 resjson "数据库异常！" do
      let count ← call (b.count_documents coll filter)
      return resjson.put "TotalNum" (.string (Numerals.to_string count))

/-! ## Writing -/

/-- `insert_one`, and the result of a function that reports nothing else. -/
def insertOne (coll : Collection) (id : Int64) (members : List (String × Json)) :
    Action S Json := do
  let inserted ← call (b.insert_one coll id members)
  if inserted < 1 then return failure "Fail" "数据库插入失败！"
  return success .null

/-- `update_one`, whose result is not looked at. -/
def updateById (coll : Collection) (id : Int64) (update : Update) : Action S Json := do
  let _ ← call (b.update_one coll id update)
  return success .null

def deleteById (coll : Collection) (idField : String) (notDeleted : String) (deletejson : Json) :
    Action S Json :=
  orElse500 .null "数据库异常！" do
    let id ← deletejson.int64At idField
    let deleted ← call (b.delete_one coll id)
    if deleted < 1 then return failure "Fail" notDeleted
    return success .null

/-- The number of comments of an article, changed by `Num`. -/
def updateComments (coll : Collection) (updatejson : Json) : Action S Bool :=
  attempt
    (do
      let id ← updatejson.int64At "ArticleId"
      let num ← updatejson.intAt "Num"
      let _ ← call (b.update_one coll id (.inc "Comments" num))
      return true)
    fun _ => pure false

/-! ## Members of the process -/

/-- `++m_problemid`. -/
def nextProblemId : Action S Int64 := fun server =>
  .ok (server.m_problemid + 1) { server with m_problemid := server.m_problemid + 1 }

/-- `++m_articleid`. -/
def nextArticleId : Action S Int64 := fun server =>
  .ok (server.m_articleid + 1) { server with m_articleid := server.m_articleid + 1 }

/-- `++m_commentid`. -/
def nextCommentId : Action S Int64 := fun server =>
  .ok (server.m_commentid + 1) { server with m_commentid := server.m_commentid + 1 }

/-! ## Searching -/

/-- The strings of an array, one `get<std::string>()` each. -/
def stringsOf (tags : Json) : Except Exception (List Bytes) :=
  (List.range tags.size).mapM fun i => do (← tags.nth i).getString

/-- A search field adds a match unless it is the empty string. -/
def searched (searchinfo : Json) (k : String) (match_ : Bytes → Except Exception Stage) :
    Except Exception (List Stage) := do
  let text ← searchinfo.stringAt k
  if text.isEmpty then return []
  return [← match_ text]

/-- `mystoi` and `mystoll`: the digits of a short text, 0 for a long one. -/
def digitsOf (size : Nat) (num : Bytes) : Int :=
  if num.length ≥ size ∨ num.length = 0 then 0
  else Numerals.value (num.filter Numerals.isdigit)

def mystoi (num : Bytes) : Int := digitsOf 4 num

def mystoll (num : Bytes) : Int := digitsOf 19 num

end MoDB
end Oj
end Myoj
