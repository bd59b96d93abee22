import Myoj.Lib.Runs
import Myoj.Oj.Databases

/-!
# Identifiers — where ids come from, and whether they are used again

`MoDB` numbers problems, articles and comments with three counters that start at 0 with the process;
asking the collections for the largest id is commented out.  The three kinds of articles share a
counter, and so do comments and the comments nested in them.

* `Request` — the insertions, the deletions, and a new `MoDB` over the same collections;
* `HasId` — the ids stored in a collection, or nested in the comments;
* `Adds` — what a program may store, `step_adds` — the one id a request stores;
* `Fresh` — the id an insertion takes is stored nowhere;
* `Continues` — an insertion with its counter at 0 finds nothing stored;
* `fresh_of_continues` — along runs of such steps no id is used again.
-/

namespace Myoj
namespace Oj

open Effect

/-- The counters of `MoDB`. -/
inductive Counter where
  | m_problemid
  | m_articleid
  | m_commentid
  deriving DecidableEq, Repr

/-- Where ids are stored: as the `_id` of a document, or of a comment nested in one. -/
inductive Place where
  | document (coll : Collection)
  | son
  deriving DecidableEq, Repr

namespace Counter

variable {S : Type}

/-- The places whose ids the counter gives. -/
def serves : Counter → List Place
  | .m_problemid => [.document .Problem]
  | .m_articleid => [.document .Discuss, .document .Solution, .document .Announcement]
  | .m_commentid => [.document .Comment, .son]

def read (server : Server S) : Counter → Int64
  | .m_problemid => server.m_problemid
  | .m_articleid => server.m_articleid
  | .m_commentid => server.m_commentid

def increment (server : Server S) : Counter → Server S
  | .m_problemid => { server with m_problemid := server.m_problemid + 1 }
  | .m_articleid => { server with m_articleid := server.m_articleid + 1 }
  | .m_commentid => { server with m_commentid := server.m_commentid + 1 }

/-- The id the next insertion takes; `int problemid` drops the upper half. -/
def next (server : Server S) : Counter → Int64
  | .m_problemid => (server.m_problemid + 1).toInt32.toInt64
  | .m_articleid => server.m_articleid + 1
  | .m_commentid => server.m_commentid + 1

end Counter

/-- The insertions and deletions of `MoDB`, and the start of a new process. -/
inductive Request where
  | InsertProblem (json : Json)
  | InsertDiscuss (json : Json)
  | InsertSolution (json : Json)
  | InsertAnnouncement (json : Json)
  | InsertFatherComment (json : Json)
  | InsertSonComment (json : Json)
  | DeleteProblem (json : Json)
  | DeleteDiscuss (json : Json)
  | DeleteSolution (json : Json)
  | DeleteAnnouncement (json : Json)
  | DeleteArticleComment (json : Json)
  | DeleteFatherComment (json : Json)
  | DeleteSonComment (json : Json)
  | restart

namespace Request

variable {S : Type} (b : Backend S)

/-- A new `MoDB`: its counters are 0. -/
def restarted (server : Server S) : Server S :=
  { server with m_problemid := 0, m_articleid := 0, m_commentid := 0 }

def step (server : Server S) : Request → Server S
  | .InsertProblem json => final (MoDB.InsertProblem b json) server
  | .InsertDiscuss json => final (MoDB.InsertDiscuss b json) server
  | .InsertSolution json => final (MoDB.InsertSolution b json) server
  | .InsertAnnouncement json => final (MoDB.InsertAnnouncement b json) server
  | .InsertFatherComment json => final (MoDB.InsertFatherComment b json) server
  | .InsertSonComment json => final (MoDB.InsertSonComment b json) server
  | .DeleteProblem json => final (MoDB.DeleteProblem b json) server
  | .DeleteDiscuss json => final (MoDB.DeleteDiscuss b json) server
  | .DeleteSolution json => final (MoDB.DeleteSolution b json) server
  | .DeleteAnnouncement json => final (MoDB.DeleteAnnouncement b json) server
  | .DeleteArticleComment json => final (MoDB.DeleteArticleComment b json) server
  | .DeleteFatherComment json => final (MoDB.DeleteFatherComment b json) server
  | .DeleteSonComment json => final (MoDB.DeleteSonComment b json) server
  | .restart => restarted server

/-- The counter an insertion takes its id from, and the place it stores it in. -/
def inserts : Request → Option (Counter × Place)
  | .InsertProblem _ => some (.m_problemid, .document .Problem)
  | .InsertDiscuss _ => some (.m_articleid, .document .Discuss)
  | .InsertSolution _ => some (.m_articleid, .document .Solution)
  | .InsertAnnouncement _ => some (.m_articleid, .document .Announcement)
  | .InsertFatherComment _ => some (.m_commentid, .document .Comment)
  | .InsertSonComment _ => some (.m_commentid, .son)
  | _ => none

end Request

/-! ## The ids that are stored -/

/-- The ids of the comments nested in a document. -/
def Doc.HasSon (doc : Doc) (id : Int64) : Prop :=
  ∃ son ∈ Update.elements (doc.members.lookup "Child_Comments"), Update.hasId id son = true

namespace Databases

variable {S : Type}

def HasId (t : Databases S) : Place → Int64 → Prop
  | .document coll, id => ∃ doc, t.find coll id = some doc
  | .son, id => ∃ father doc, t.find .Comment father = some doc ∧ doc.HasSon id

end Databases

section adds

variable {S : Type} {base : Backend S} {regex : Bytes → Option (Bytes → Bool)}
  {server server' : Server (Databases S)}

/-- The counters are as they were, and every id that is stored was, or is one of `new`. -/
structure Adds (new : Place → Int64 → Prop) (server server' : Server (Databases S)) : Prop where
  counters : ∀ k : Counter, k.read server' = k.read server
  stored : ∀ p id, server'.outside.HasId p id → server.outside.HasId p id ∨ new p id

theorem Adds.refl (new : Place → Int64 → Prop) (server : Server (Databases S)) :
    Adds new server server :=
  ⟨fun _ => rfl, fun _ _ h => .inl h⟩

instance (new : Place → Int64 → Prop) : IsPreorder (Server (Databases S)) (Adds new) where
  refl := Adds.refl new
  trans := fun _ _ _ h h' =>
    ⟨fun k => (h'.counters k).trans (h.counters k), fun p id hid => by
      rcases h'.stored p id hid with hid | hnew
      · exact h.stored p id hid
      · exact .inr hnew⟩

/-- One id in one place. -/
def only (p : Place) (id : Int64) : Place → Int64 → Prop := fun p' id' => p' = p ∧ id' = id

def nothing : Place → Int64 → Prop := fun _ _ => False

/-! ## What the calls store -/

/-- A call after which every document was there before. -/
theorem adds_of_find {α : Type} {op : EStateM Exception (Databases S) α}
    (h : ∀ t c i doc, (final op t).find c i = some doc → t.find c i = some doc) :
    Within (Adds nothing) (call op) := by
  intro server
  rw [final_call]
  refine ⟨fun k => by cases k <;> rfl, ?_⟩
  rintro (c | _) i hid
  · obtain ⟨doc, hdoc⟩ := hid
    exact .inl ⟨doc, h _ _ _ _ hdoc⟩
  · obtain ⟨father, doc, hdoc, hson⟩ := hid
    exact .inl ⟨father, doc, h _ _ _ _ hdoc, hson⟩

theorem adds_delete_one (coll : Collection) (id : Int64) :
    Within (Adds (S := S) nothing) (call (Databases.delete_one coll id)) := by
  refine adds_of_find fun t c i doc hdoc => ?_
  rw [Databases.find_delete_one] at hdoc
  split at hdoc
  · cases hdoc
  · exact hdoc

theorem adds_delete_many (coll : Collection) (field : String) (value : Json) :
    Within (Adds (S := S) nothing)
      (call (Databases.delete_many coll regex [.matching field value])) := by
  refine adds_of_find fun t c i doc hdoc => ?_
  rw [Databases.find_delete_many] at hdoc
  split at hdoc
  · exact (Option.filter_eq_some_iff.1 hdoc).1
  · exact hdoc

/-- A new comment has no sons. -/
theorem adds_insert_one (coll : Collection) (id : Int64) (members : Members)
    (hsons : coll = .Comment → Update.elements (members.lookup "Child_Comments") = []) :
    Within (Adds (S := S) (only (.document coll) id))
      (call (Databases.insert_one coll id members)) := by
  intro server
  rw [final_call]
  cases hdoc : server.outside.insertable coll id members with
  | none =>
      rw [Databases.final_insert_one_of_none _ _ _ hdoc]
      exact Adds.refl _ _
  | some doc =>
      have hfind := Databases.find_insert_one _ coll id hdoc
      refine ⟨fun k => by cases k <;> rfl, ?_⟩
      rintro (c | _) i hid
      · obtain ⟨doc', hdoc'⟩ := hid
        rw [hfind] at hdoc'
        split at hdoc'
        · next heq =>
          exact .inr ⟨congrArg _ heq.1, heq.2⟩
        · exact .inl ⟨doc', hdoc'⟩
      · obtain ⟨father, doc', hdoc', hson⟩ := hid
        rw [hfind] at hdoc'
        split at hdoc'
        · next heq =>
          obtain ⟨son, hmem, -⟩ := hson
          cases hdoc'
          rw [(Databases.insertable_eq_some hdoc).2, hsons heq.1.symm] at hmem
          cases hmem
        · exact .inl ⟨father, doc', hdoc', hson⟩

/-- An update of a comment whose new sons have the id. -/
theorem adds_update_sons (father : Int64) {update : Update} {new : Place → Int64 → Prop}
    (h : ∀ ms, ∀ son ∈ Update.elements ((update.apply ms).lookup "Child_Comments"),
      son ∈ Update.elements (ms.lookup "Child_Comments") ∨
        ∀ id, Update.hasId id son = true → new .son id) :
    Within (Adds (S := S) new) (call (Databases.update_one .Comment father update)) := by
  have hsons : ∀ (doc : Doc) id, (Doc.update update doc).HasSon id → doc.HasSon id ∨ new .son id := by
    rintro doc id ⟨son, hmem, hid⟩
    simp only [Doc.update, Doc.ofMembers] at hmem
    by_cases hutf8 : Json.dumpableMembers (update.apply doc.members) = true
    · simp only [dif_pos hutf8] at hmem
      split at hmem
      · rcases h doc.members son hmem with hold | hnew
        · exact .inl ⟨son, hold, hid⟩
        · exact .inr (hnew id hid)
      · exact .inl ⟨son, hmem, hid⟩
    · simp only [dif_neg hutf8] at hmem
      exact .inl ⟨son, hmem, hid⟩
  intro server
  rw [final_call]
  refine ⟨fun k => by cases k <;> rfl, ?_⟩
  rintro (c | _) i hid
  · obtain ⟨doc, hdoc⟩ := hid
    rw [Databases.find_update_one] at hdoc
    split at hdoc
    · obtain ⟨doc', hdoc', -⟩ := Option.map_eq_some_iff.1 hdoc
      exact .inl ⟨doc', hdoc'⟩
    · exact .inl ⟨doc, hdoc⟩
  · obtain ⟨father', doc, hdoc, hson⟩ := hid
    rw [Databases.find_update_one] at hdoc
    split at hdoc
    · obtain ⟨doc', hdoc', rfl⟩ := Option.map_eq_some_iff.1 hdoc
      rcases hsons doc' i hson with hold | hnew
      · exact .inl ⟨father', doc', hdoc', hold⟩
      · exact .inr hnew
    · exact .inl ⟨father', doc, hdoc, hson⟩

/-! ## What the programs store -/

theorem within_insertOne (coll : Collection) (id : Int64) (members : Members)
    (hcoll : coll ≠ .Comment) :
    Within (Adds (only (.document coll) id))
      (MoDB.insertOne (base.onDatabases regex) coll id members) := by
  refine Within.bind (adds_insert_one _ _ _ fun h => absurd h hcoll) fun inserted => ?_
  split
  · exact Within.pure _
  · exact Within.pure _

/-- An insertion goes on from the counter it has incremented. -/
theorem adds_insertion {k : Counter} {p : Place} {fetch : Action (Databases S) Int64}
    {f : Int64 → Action (Databases S) Json}
    (hfetch : fetch server = .ok (k.read server + 1) (k.increment server))
    (hf : Within (Adds (only p (k.next server))) (f (k.read server + 1))) :
    Adds (only p (k.next server)) (k.increment server)
      (final (orElse500 .null "数据库异常！" (fetch >>= f)) server) := by
  rw [orElse500, final_attempt_pure, final_bind_of_ok hfetch]
  exact hf _

theorem adds_InsertProblem (json : Json) :
    Adds (only (.document .Problem) (Counter.m_problemid.next server))
      (Counter.m_problemid.increment server)
      (final (MoDB.InsertProblem (base.onDatabases regex) json) server) := by
  refine adds_insertion (k := .m_problemid) rfl (Within.bind (Within.liftM _) fun members => ?_)
  exact Within.bind (adds_insert_one _ _ _ fun h => nomatch h) fun inserted => Within.pure _

theorem adds_InsertDiscuss (json : Json) :
    Adds (only (.document .Discuss) (Counter.m_articleid.next server))
      (Counter.m_articleid.increment server)
      (final (MoDB.InsertDiscuss (base.onDatabases regex) json) server) := by
  refine adds_insertion (k := .m_articleid) rfl (Within.bind (Within.liftM _) fun title => ?_)
  refine Within.bind (Within.liftM _) fun content => Within.bind (Within.liftM _) fun parentid => ?_
  refine Within.bind (Within.liftM _) fun userid => Within.bind (Adds.refl _) fun now => ?_
  exact within_insertOne _ _ _ (by decide)

theorem adds_InsertSolution (json : Json) :
    Adds (only (.document .Solution) (Counter.m_articleid.next server))
      (Counter.m_articleid.increment server)
      (final (MoDB.InsertSolution (base.onDatabases regex) json) server) := by
  refine adds_insertion (k := .m_articleid) rfl (Within.bind (Within.liftM _) fun title => ?_)
  refine Within.bind (Within.liftM _) fun content => Within.bind (Within.liftM _) fun parentid => ?_
  refine Within.bind (Within.liftM _) fun userid => Within.bind (Within.liftM _) fun value => ?_
  refine Within.bind (Within.liftM _) fun ispublic => Within.bind (Adds.refl _) fun now => ?_
  exact within_insertOne _ _ _ (by decide)

theorem adds_InsertAnnouncement (json : Json) :
    Adds (only (.document .Announcement) (Counter.m_articleid.next server))
      (Counter.m_articleid.increment server)
      (final (MoDB.InsertAnnouncement (base.onDatabases regex) json) server) := by
  refine adds_insertion (k := .m_articleid) rfl (Within.bind (Within.liftM _) fun title => ?_)
  refine Within.bind (Within.liftM _) fun content => Within.bind (Within.liftM _) fun userid => ?_
  refine Within.bind (Within.liftM _) fun level => Within.bind (Adds.refl _) fun now => ?_
  exact within_insertOne _ _ _ (by decide)

theorem adds_InsertFatherComment (json : Json) :
    Adds (only (.document .Comment) (Counter.m_commentid.next server))
      (Counter.m_commentid.increment server)
      (final (MoDB.InsertFatherComment (base.onDatabases regex) json) server) := by
  refine adds_insertion (k := .m_commentid) rfl (Within.bind (Within.liftM _) fun parentid => ?_)
  refine Within.bind (Within.liftM _) fun parenttype => Within.bind (Within.liftM _) fun content => ?_
  refine Within.bind (Within.liftM _) fun userid => Within.bind (Adds.refl _) fun now => ?_
  exact Within.bind (adds_insert_one _ _ _ fun _ => rfl) fun inserted => Within.pure _

/-- The id of a new son is looked up by its number. -/
theorem hasId_ofInt {id i : Int64} {members : Members}
    (h : Update.hasId i (.object (("_id", .ofInt id.toInt) :: members)) = true) : i = id := by
  have hnumber : id.toInt = i.toInt := by
    simpa [Update.hasId, Json.member, Json.ofInt] using h
  exact (Int64.toInt_inj.1 hnumber).symm

variable (base regex server) in
/-- The parent of a son is read before an id is taken. -/
theorem adds_InsertSonComment (json : Json) :
    Adds nothing server (final (MoDB.InsertSonComment (base.onDatabases regex) json) server) ∨
      Adds (only .son (Counter.m_commentid.next server)) (Counter.m_commentid.increment server)
        (final (MoDB.InsertSonComment (base.onDatabases regex) json) server) := by
  rw [MoDB.InsertSonComment, orElse500, final_attempt_pure, final_liftM_bind]
  cases json.int64At "ParentId" with
  | error e =>
      exact .inl (Adds.refl _ _)
  | ok parentid =>
      refine .inr ?_
      have hid : MoDB.nextCommentId server =
          .ok (server.m_commentid + 1) (Counter.m_commentid.increment server) := rfl
      simp only
      rw [final_bind_of_ok hid]
      refine Within.bind (Within.liftM _) (fun content => Within.bind (Within.liftM _) fun userid => ?_) _
      refine Within.bind (Adds.refl _) fun now => ?_
      refine Within.bind (adds_update_sons _ fun ms son hmem => ?_) fun _ => Within.pure _
      rw [Update.apply, Json.lookup_assign, if_pos rfl] at hmem
      rcases List.mem_append.1 hmem with hold | hnew
      · exact .inl hold
      · refine .inr fun i hson => ⟨rfl, ?_⟩
        rw [List.mem_singleton.1 hnew] at hson
        exact hasId_ofInt hson

end adds

namespace Request

variable {S : Type} {base : Backend S} {regex : Bytes → Option (Bytes → Bool)}
  {server : Server (Databases S)}

variable (base regex server) in
/-- **What a request stores.** At most one id, the next of its counter, which is used up then. -/
theorem step_adds (req : Request) (hrestart : req ≠ .restart) :
    Adds nothing server (step (base.onDatabases regex) server req) ∨
      ∃ k p, req.inserts = some (k, p) ∧
        Adds (only p (k.next server)) (k.increment server) (step (base.onDatabases regex) server req) := by
  have hbyId : ∀ coll idField notDeleted json,
      Within (Adds nothing) (MoDB.deleteById (base.onDatabases regex) coll idField notDeleted json) :=
    fun coll _ _ _ => MoDB.within_deleteById _ _ _ _ fun id => adds_delete_one coll id
  cases req with
  | InsertProblem json =>
      exact .inr ⟨_, _, rfl, adds_InsertProblem json⟩
  | InsertDiscuss json =>
      exact .inr ⟨_, _, rfl, adds_InsertDiscuss json⟩
  | InsertSolution json =>
      exact .inr ⟨_, _, rfl, adds_InsertSolution json⟩
  | InsertAnnouncement json =>
      exact .inr ⟨_, _, rfl, adds_InsertAnnouncement json⟩
  | InsertFatherComment json =>
      exact .inr ⟨_, _, rfl, adds_InsertFatherComment json⟩
  | InsertSonComment json =>
      rcases adds_InsertSonComment base regex server json with h | h
      · exact .inl h
      · exact .inr ⟨_, _, rfl, h⟩
  | DeleteProblem json =>
      exact .inl (hbyId _ _ _ json server)
  | DeleteDiscuss json =>
      exact .inl (hbyId _ _ _ json server)
  | DeleteSolution json =>
      exact .inl (hbyId _ _ _ json server)
  | DeleteAnnouncement json =>
      exact .inl (hbyId _ _ _ json server)
  | DeleteArticleComment json =>
      exact .inl (MoDB.within_DeleteArticleComment json
        (fun value => adds_delete_many .Comment "ParentId" value) server)
  | DeleteFatherComment json =>
      exact .inl (MoDB.within_DeleteFatherComment json (fun id => adds_delete_one .Comment id) server)
  | DeleteSonComment json =>
      refine .inl (MoDB.within_DeleteSonComment json (fun father id => ?_) server)
      refine adds_update_sons father fun ms son hmem => .inl ?_
      rw [Update.apply, Json.lookup_assign, if_pos rfl] at hmem
      exact (List.mem_filter.1 hmem).1
  | restart =>
      exact absurd rfl hrestart

end Request

/-! ## The order of the ids -/

namespace Counter

variable {S : Type} {server : Server S} {k k' : Counter} {p : Place}

/-- How many ids there are before they come again. -/
def period : Counter → Nat
  | .m_problemid => 2 ^ 32
  | .m_articleid => 2 ^ 64
  | .m_commentid => 2 ^ 64

/-- The position of an id among those a counter gives. -/
def order (k : Counter) (id : Int64) : Nat := id.toBitVec.toNat % k.period

theorem order_succ (k : Counter) (id : Int64) : k.order (id + 1) = (k.order id + 1) % k.period := by
  have hdvd : k.period ∣ 2 ^ 64 := by cases k <;> decide
  have hadd : (id + 1).toBitVec.toNat = (id.toBitVec.toNat + 1) % 2 ^ 64 := by
    rw [Int64.toBitVec_add, BitVec.toNat_add]
    rfl
  rw [order, order, hadd, Nat.mod_mod_of_dvd _ hdvd, Nat.mod_add_mod]

/-- The half of a problem id that is dropped does not count. -/
theorem order_toInt64 (id : Int64) : m_problemid.order id.toInt32.toInt64 = m_problemid.order id := by
  have htrunc : ∀ i : Int64, m_problemid.order i = i.toInt32.toBitVec.toNat := by
    intro i
    rw [order, Int64.toBitVec_toInt32, BitVec.signExtend_eq_setWidth_of_le _ (by decide),
      BitVec.toNat_setWidth]
    rfl
  rw [htrunc, htrunc, Int32.toInt32_toInt64]

theorem order_next (k : Counter) (server : Server S) :
    k.order (k.next server) = (k.order (k.read server) + 1) % k.period := by
  rw [← order_succ]
  cases k with
  | m_problemid =>
      exact order_toInt64 _
  | m_articleid =>
      rfl
  | m_commentid =>
      rfl

theorem read_increment (k : Counter) (server : Server S) :
    k.read (k.increment server) = k.read server + 1 := by
  cases k <;> rfl

theorem read_increment_of_ne (h : k ≠ k') : k'.read (k.increment server) = k'.read server := by
  cases k <;> cases k' <;> first | rfl | exact absurd rfl h

@[simp] theorem outside_increment : (k.increment server).outside = server.outside := by
  cases k <;> rfl

theorem serves_disjoint (h : p ∈ k.serves) (h' : p ∈ k'.serves) : k = k' := by
  cases k <;> cases k' <;> simp [serves] at h h' ⊢ <;> aesop

end Counter

namespace Request

theorem mem_serves {req : Request} {k : Counter} {p : Place} (h : req.inserts = some (k, p)) :
    p ∈ k.serves := by
  cases req <;> cases h <;> decide

/-! ## Ids are not used again -/

section runs

variable {S : Type} {base : Backend S} {regex : Bytes → Option (Bytes → Bool)}
  {server : Server (Databases S)}

/-- The id the insertion takes is stored in none of the places its counter serves. -/
def Fresh (server : Server (Databases S)) (req : Request) : Prop :=
  ∀ k p, req.inserts = some (k, p) → ∀ q ∈ k.serves, ¬ server.outside.HasId q (k.next server)

/-- No two kinds of articles share an id. -/
def ArticlesDistinct (server : Server (Databases S)) : Prop :=
  ∀ p ∈ Counter.m_articleid.serves, ∀ q ∈ Counter.m_articleid.serves, ∀ id,
    server.outside.HasId p id → server.outside.HasId q id → p = q

/-- An insertion whose counter is at 0, in a new process or after all its ids have been given, finds
nothing stored. -/
def Continues (server : Server (Databases S)) (req : Request) : Prop :=
  ∀ k p, req.inserts = some (k, p) → k.order (k.read server) = 0 →
    ∀ q ∈ k.serves, ∀ id, ¬ server.outside.HasId q id

/-- Unless the counter is at 0, it is ahead of what is stored. -/
def Ahead (server : Server (Databases S)) (k : Counter) : Prop :=
  k.order (k.read server) = 0 ∨
    ∀ q ∈ k.serves, ∀ id, server.outside.HasId q id →
      0 < k.order id ∧ k.order id ≤ k.order (k.read server)

structure Inv (server : Server (Databases S)) : Prop where
  ahead : ∀ k, Ahead server k
  distinct : ArticlesDistinct server

/-- An id the counter is not ahead of is not stored. -/
theorem Inv.fresh (h : Inv server) {req : Request} (hreq : Continues server req) : Fresh server req := by
  intro k p hins q hq hid
  have hnext := k.order_next server
  have hlt : k.order (k.read server) < k.period := Nat.mod_lt _ (by cases k <;> decide)
  rcases h.ahead k with hzero | hahead
  · exact hreq k p hins hzero q hq _ hid
  · obtain ⟨hpos, hle⟩ := hahead q hq _ hid
    rw [hnext] at hpos hle
    rcases Nat.lt_or_ge (k.order (k.read server) + 1) k.period with hmore | hlast
    · rw [Nat.mod_eq_of_lt hmore] at hle
      omega
    · have hperiod : k.order (k.read server) + 1 = k.period := by omega
      rw [hperiod, Nat.mod_self] at hpos
      exact absurd hpos (Nat.lt_irrefl _)

/-- Counters that stay keep ahead of less. -/
theorem Ahead.mono {server' : Server (Databases S)} {k : Counter} (h : Ahead server k)
    (hread : k.read server' = k.read server)
    (hstored : ∀ q ∈ k.serves, ∀ id, server'.outside.HasId q id → server.outside.HasId q id) :
    Ahead server' k := by
  rw [Ahead, hread]
  exact h.imp_right fun hahead q hq id hid => hahead q hq id (hstored q hq id hid)

/-- The counter an id is taken from stays ahead. -/
theorem Ahead.increment {server' : Server (Databases S)} {k : Counter} {p : Place} (h : Ahead server k)
    (hzero : k.order (k.read server) = 0 → ∀ q ∈ k.serves, ∀ id, ¬ server.outside.HasId q id)
    (hadds : Adds (only p (k.next server)) (k.increment server) server') : Ahead server' k := by
  have hread : k.order (k.read server') = (k.order (k.read server) + 1) % k.period := by
    rw [hadds.counters, Counter.read_increment, Counter.order_succ]
  rcases Nat.eq_zero_or_pos ((k.order (k.read server) + 1) % k.period) with hwrap | hpos
  · exact .inl (hread.trans hwrap)
  · have hlt : k.order (k.read server) < k.period := Nat.mod_lt _ (by cases k <;> decide)
    have hmore : k.order (k.read server) + 1 < k.period := by
      by_contra hlast
      have hperiod : k.order (k.read server) + 1 = k.period := by omega
      rw [hperiod, Nat.mod_self] at hpos
      exact absurd hpos (Nat.lt_irrefl _)
    rw [Nat.mod_eq_of_lt hmore] at hread
    refine .inr fun q hq id hid => ?_
    rw [hread]
    rcases hadds.stored q id hid with hold | ⟨-, rfl⟩
    · rw [Counter.outside_increment] at hold
      rcases h with hcounter | hahead
      · exact absurd hold (hzero hcounter q hq id)
      · have := hahead q hq id hold
        omega
    · rw [Counter.order_next, Nat.mod_eq_of_lt hmore]
      omega

/-- Less is stored, and the articles stay apart. -/
theorem ArticlesDistinct.mono {server' : Server (Databases S)} (h : ArticlesDistinct server)
    (hstored : ∀ q id, server'.outside.HasId q id → server.outside.HasId q id) :
    ArticlesDistinct server' :=
  fun p hp q hq id hid hid' => h p hp q hq id (hstored p id hid) (hstored q id hid')

/-- A fresh id is in one kind of articles only. -/
theorem ArticlesDistinct.adds {server' : Server (Databases S)} {k : Counter} {p : Place}
    (h : ArticlesDistinct server) (hp : p ∈ k.serves)
    (hfresh : ∀ q ∈ k.serves, ¬ server.outside.HasId q (k.next server))
    (hadds : Adds (only p (k.next server)) (k.increment server) server') : ArticlesDistinct server' := by
  have hstored : ∀ q id, server'.outside.HasId q id →
      server.outside.HasId q id ∨ (q = p ∧ id = k.next server) := fun q id hid => by
    have hcases := hadds.stored q id hid
    rwa [Counter.outside_increment] at hcases
  intro q₁ hq₁ q₂ hq₂ id hid₁ hid₂
  rcases hstored q₁ id hid₁ with hold₁ | ⟨rfl, rfl⟩
  · rcases hstored q₂ id hid₂ with hold₂ | ⟨rfl, rfl⟩
    · exact h q₁ hq₁ q₂ hq₂ id hold₁ hold₂
    · cases Counter.serves_disjoint hp hq₂
      exact absurd hold₁ (hfresh q₁ hq₁)
  · rcases hstored q₂ _ hid₂ with hold₂ | ⟨rfl, -⟩
    · cases Counter.serves_disjoint hp hq₁
      exact absurd hold₂ (hfresh q₂ hq₂)
    · rfl

theorem inv_started (hcounters : ∀ k : Counter, k.read server = 0) (h : ArticlesDistinct server) :
    Inv server where
  ahead := fun k => .inl (by
    rw [hcounters]
    cases k <;> decide)
  distinct := h

/-- **Step lemma.** -/
theorem Inv.step (h : Inv server) {req : Request} (hreq : Continues server req) :
    Inv (req.step (base.onDatabases regex) server) := by
  by_cases hrestart : req = .restart
  · subst hrestart
    exact inv_started (fun k => by cases k <;> rfl) h.distinct
  · rcases step_adds base regex server req hrestart with hadds | ⟨k, p, hins, hadds⟩
    · have hstored : ∀ q id, (req.step (base.onDatabases regex) server).outside.HasId q id →
          server.outside.HasId q id := fun q id hid =>
        (hadds.stored q id hid).resolve_right not_false
      exact
        { ahead := fun k => (h.ahead k).mono (hadds.counters k) fun q _ => hstored q
          distinct := h.distinct.mono hstored }
    · refine ⟨fun k' => ?_, h.distinct.adds (mem_serves hins) (h.fresh hreq k p hins) hadds⟩
      by_cases hk : k = k'
      · subst hk
        exact (h.ahead k).increment (hreq k p hins) hadds
      · -- the new id is in none of the places of another counter
        refine (h.ahead k').mono ?_ fun q hq id hid => ?_
        · rw [hadds.counters, Counter.read_increment_of_ne hk]
        · rcases hadds.stored q id hid with hold | ⟨rfl, -⟩
          · rwa [Counter.outside_increment] at hold
          · exact absurd (Counter.serves_disjoint (mem_serves hins) hq) hk

variable (base regex) in
/-- **Ids are not used again.** From a new process on, in every run whose insertions find nothing stored
when their counter is at 0, every insertion takes an id that is stored nowhere, and no two kinds of
articles ever share one. -/
theorem fresh_of_continues (hcounters : ∀ k : Counter, k.read server = 0)
    (harticles : ArticlesDistinct server) {reqs : List Request}
    (h : Runs.Guarded (step (base.onDatabases regex)) Continues server reqs) :
    Runs.Guarded (step (base.onDatabases regex)) Fresh server reqs ∧
      Runs.Throughout (step (base.onDatabases regex)) ArticlesDistinct server reqs := by
  have hinv := inv_started hcounters harticles
  exact ⟨h.weaken (I := Inv) (fun _ _ hI hG => hI.step hG) (fun _ _ hI hG => hI.fresh hG) hinv,
    h.throughout (I := Inv) (fun _ _ hI hG => hI.step hG) (fun _ hI => hI.distinct) hinv⟩

end runs

/-! ## A process that starts over what is stored -/

/-- A new process over empty collections. -/
def started : Server (Databases Unit) where
  UserAuthorityMap := fun _ => 0
  m_problemid := 0
  m_commentid := 0
  m_articleid := 0
  problemtags := .null
  outside := Databases.empty ()

def discussion : Json :=
  .object [("Title", .str "DP"), ("Content", .str "..."), ("ParentId", .str "0"), ("UserId", .str "7")]

def solution : Json :=
  .object [("Title", .str "Greedy"), ("Content", .str "..."), ("ParentId", .str "3"), ("UserId", .str "7"),
    ("Public", .boolean true)]

/-- A comment without sons. -/
def storedComment : Doc where
  members := [("ParentId", .ofInt 3), ("Content", .str "?"), ("Child_Comments", .array [])]
  utf8 := by decide

theorem nodup_storedComment : ([((5 : Int64), storedComment)].map Prod.fst).Nodup := by decide

/-- A new process over a comment, but no article. -/
def stocked : Server (Databases Unit) :=
  { started with
    outside :=
      { Databases.empty () with
        colls := fun coll => if coll = .Comment then ⟨[(5, storedComment)], nodup_storedComment⟩ else Rows.empty } }

theorem continues_of_ne {S : Type} {server : Server (Databases S)} {req : Request} {k : Counter} {p : Place}
    (hins : req.inserts = some (k, p)) (hcounter : k.order (k.read server) ≠ 0) : Continues server req := by
  intro k' p' hins' hzero
  cases hins.symm.trans hins'
  exact absurd hzero hcounter

/-- A discussion, a solution, and another discussion when the first was deleted. -/
def articleRequests : List Request :=
  [.InsertDiscuss discussion, .InsertSolution solution, .DeleteDiscuss (.object [("DiscussId", .str "1")]),
    .InsertDiscuss discussion]

/-- The second discussion takes the number 3, though that of the first is free. -/
theorem fresh_of_continues_stocked :
    Runs.Guarded (step (Backend.idle.onDatabases fun _ => none)) Fresh stocked articleRequests ∧
      Runs.Throughout (step (Backend.idle.onDatabases fun _ => none)) ArticlesDistinct stocked articleRequests ∧
      let server := articleRequests.foldl (step (Backend.idle.onDatabases fun _ => none)) stocked
      (server.outside.find .Discuss 1).isSome = false ∧ (server.outside.find .Discuss 3).isSome = true := by
  have hnone : ∀ coll, coll ≠ .Comment → ∀ id, stocked.outside.find coll id = none :=
    fun coll hcoll id => congrArg (Rows.get? · id) (if_neg hcoll)
  have hempty : ∀ q ∈ Counter.m_articleid.serves, ∀ id, ¬ stocked.outside.HasId q id := by
    simp only [Counter.serves, List.forall_mem_cons, Databases.HasId, not_exists]
    refine ⟨fun id doc h => ?_, fun id doc h => ?_, fun id doc h => ?_, fun _ h => absurd h List.not_mem_nil⟩
    all_goals cases (hnone _ (by decide) id).symm.trans h
  have hcontinues :
      Runs.Guarded (step (Backend.idle.onDatabases fun _ => none)) Continues stocked articleRequests := by
    refine ⟨?_, continues_of_ne rfl (by decide +kernel), ?_, continues_of_ne rfl (by decide +kernel), trivial⟩
    · intro k p hins _
      cases hins
      exact hempty
    · intro k p hins
      cases hins
  obtain ⟨hfresh, hdistinct⟩ := fresh_of_continues Backend.idle (fun _ => none) (fun k => by cases k <;> rfl)
    (fun p hp _ _ id hid _ => absurd hid (hempty p hp id)) hcontinues
  exact ⟨hfresh, hdistinct, by decide +kernel, by decide +kernel⟩

/-- A discussion, a restart, a discussion: the second takes the id of the first. -/
theorem not_fresh_restarted :
    ¬ ∀ reqs, Runs.Guarded (step (Backend.idle.onDatabases fun _ => none)) Fresh started reqs := by
  intro h
  obtain ⟨-, -, hfresh, -⟩ :=
    h [.InsertDiscuss discussion, .restart, .InsertDiscuss discussion]
  have hfound : ((step (Backend.idle.onDatabases fun _ => none)
      (step (Backend.idle.onDatabases fun _ => none) started (.InsertDiscuss discussion))
      .restart).outside.find .Discuss 1).isSome = true := by
    decide +kernel
  exact hfresh .m_articleid (.document .Discuss) rfl (.document .Discuss) (by decide)
    (Option.isSome_iff_exists.1 hfound)

end Request

end Oj
end Myoj
