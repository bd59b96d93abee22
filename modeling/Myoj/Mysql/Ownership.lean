import Mathlib.Data.List.Perm.Basic
import Myoj.Mysql.ConnectionPool

/-!
# Ownership — how many connections live, and who holds them

A connection is in `connectionQueue_` or in the hands of one borrower.  `getConnection` moves it out,
the deleter of the `shared_ptr` moves it back, and only the recycler and the destructor delete.

* `live` — the connections that exist;
* `Exclusive` — each of them is in one place;
* `RecyclesIdle` — what `recycleConnection` deletes was idle;
* `Inv` — what every step keeps.

The bound does not rest on `currentSize_` being right: it is ahead of the live connections by the number
ever made, so the producer stops early.
-/

namespace Myoj
namespace Mysql
namespace ConnectionPool

/-- The connections that exist, idle or handed out. -/
def live (pool : ConnectionPool) : List MysqlConn := pool.connectionQueue_ ++ pool.handedOut

/-- No connection is in the queue twice, handed out twice, or idle and handed out. -/
def Exclusive (pool : ConnectionPool) : Prop :=
  (pool.connectionQueue_.map MysqlConn.id).Nodup ∧ (pool.handedOut.map MysqlConn.id).Nodup ∧
    ∀ idle ∈ pool.connectionQueue_, ∀ out ∈ pool.handedOut, idle.id ≠ out.id

/-- The recycler deletes from the front of the queue, nothing that is handed out, and leaves the
borrowers alone. -/
def RecyclesIdle (conf : Config) (pool : ConnectionPool) : Prop :=
  ∀ clock, ∃ deleted,
    pool.connectionQueue_ = deleted ++ (pool.recycleConnection conf clock).connectionQueue_ ∧
      (pool.recycleConnection conf clock).handedOut = pool.handedOut ∧
      ∀ conn ∈ deleted, ∀ out ∈ pool.handedOut, conn.id ≠ out.id

/-- As many connections as the configuration allows; a negative maximum allows none. -/
def Bounded (conf : Config) (pool : ConnectionPool) : Prop :=
  (pool.live.length : Int) ≤ max conf.maxSize_ 0

structure Inv (conf : Config) (pool : ConnectionPool) : Prop where
  counted : pool.CountedTwice
  nodup : (pool.live.map MysqlConn.id).Nodup
  fresh : ∀ conn ∈ pool.live, conn.id < pool.created
  bounded : pool.Bounded conf
  constructing : ∀ i, pool.phase = .constructing i → pool.live.length = i

section lemmas

variable {conf : Config} {pool : ConnectionPool}

@[simp] theorem length_live :
    pool.live.length = pool.connectionQueue_.length + pool.handedOut.length :=
  List.length_append

theorem Inv.exclusive (h : pool.Inv conf) : pool.Exclusive := by
  have hnodup := h.nodup
  rw [live, List.map_append, List.nodup_append] at hnodup
  obtain ⟨hidle, hout, hdisjoint⟩ := hnodup
  refine ⟨hidle, hout, ?_⟩
  intro idle hmem out hmem'
  exact hdisjoint _ (List.mem_map_of_mem hmem) _ (List.mem_map_of_mem hmem')

/-- The recycler's loop takes a prefix off the queue. -/
theorem recycleLoop_suffix (conf : Config) (clock : Nat → Int) (k : Nat) (n : Int)
    (queue : List MysqlConn) : ∃ deleted, queue = deleted ++ (recycleLoop conf clock k n queue).2 := by
  induction queue generalizing k n with
  | nil =>
      exact ⟨[], rfl⟩
  | cons conn rest ih =>
      simp only [recycleLoop]
      split
      · split
        · obtain ⟨deleted, hrest⟩ := ih (k + 1) (n - 1)
          exact ⟨conn :: deleted, congrArg (conn :: ·) hrest⟩
        · exact ⟨[], rfl⟩
      · exact ⟨[], rfl⟩

theorem Inv.recyclesIdle (h : pool.Inv conf) : pool.RecyclesIdle conf := by
  intro clock
  obtain ⟨deleted, hqueue⟩ :=
    recycleLoop_suffix conf clock 0 pool.currentSize_ pool.connectionQueue_
  refine ⟨deleted, hqueue, rfl, ?_⟩
  intro conn hdeleted
  have hidle : conn ∈ pool.connectionQueue_ := by
    rw [hqueue]
    exact List.mem_append_left _ hdeleted
  exact h.exclusive.2.2 conn hidle

/-! ## What the operations do to the connections that exist -/

/-- A new connection has an id of its own. -/
theorem Inv.addAndCount (h : pool.Inv conf) (now : Int) (phase : Phase)
    (hroom : (pool.live.length : Int) + 1 ≤ max conf.maxSize_ 0)
    (hphase : ∀ i, phase = .constructing i → pool.live.length + 1 = i) :
    Inv conf { pool.addAndCount now with phase := phase } where
  counted := countedTwice_addAndCount h.counted now
  nodup := by
    have hperm : ((pool.addAndCount now).live.map MysqlConn.id).Perm
        (pool.created :: pool.live.map MysqlConn.id) := by
      simp only [ConnectionPool.addAndCount, addConnection, live, List.map_append, List.map_cons,
        List.append_assoc, List.singleton_append]
      exact List.perm_middle
    refine hperm.nodup_iff.2 (List.nodup_cons.2 ⟨?_, h.nodup⟩)
    -- the new id is above those of all connections ever made
    intro hmem
    obtain ⟨conn, hconn, hid⟩ := List.mem_map.1 hmem
    have := h.fresh conn hconn
    omega
  fresh := by
    intro conn hmem
    have hcases : conn ∈ pool.live ∨ conn = { id := pool.created, m_alivetime := now } := by
      simp only [ConnectionPool.addAndCount, addConnection, live, List.mem_append,
        List.mem_singleton] at hmem ⊢
      tauto
    have hcreated : (pool.addAndCount now).created = pool.created + 1 := rfl
    rcases hcases with hold | rfl
    · have := h.fresh conn hold
      simp only [hcreated]
      omega
    · simp only [hcreated]
      omega
  bounded := by
    simp only [Bounded, length_live, ConnectionPool.addAndCount, addConnection, List.length_append,
      List.length_singleton] at hroom ⊢
    omega
  constructing := by
    intro i hi
    have := hphase i hi
    simp only [length_live, ConnectionPool.addAndCount, addConnection, List.length_append,
      List.length_singleton] at this ⊢
    omega

/-- Fewer connections, or the same in other places, and nothing made. -/
theorem Inv.of_subperm (h : pool.Inv conf) {pool' : ConnectionPool} (hcounted : pool'.CountedTwice)
    (hids : (pool'.live.map MysqlConn.id).Subperm (pool.live.map MysqlConn.id))
    (hcreated : pool'.created = pool.created) (hphase : ∀ i, pool'.phase ≠ .constructing i) :
    pool'.Inv conf where
  counted := hcounted
  nodup := by
    obtain ⟨ids, hperm, hsub⟩ := hids
    exact hperm.nodup_iff.1 (hsub.nodup h.nodup)
  fresh := by
    intro conn hmem
    have hid : conn.id ∈ pool.live.map MysqlConn.id := hids.subset (List.mem_map_of_mem hmem)
    -- ids are what survives a move, and a touched `m_alivetime`
    obtain ⟨old, hold, heq⟩ := List.mem_map.1 hid
    rw [hcreated, ← heq]
    exact h.fresh old hold
  bounded := by
    have hlen := hids.length_le
    rw [List.length_map, List.length_map] at hlen
    have := h.bounded
    simp only [Bounded] at this ⊢
    omega
  constructing := fun i hi => absurd hi (hphase i)

theorem subperm_recycleConnection (clock : Nat → Int) :
    ((pool.recycleConnection conf clock).live.map MysqlConn.id).Subperm
      (pool.live.map MysqlConn.id) := by
  obtain ⟨deleted, hqueue⟩ :=
    recycleLoop_suffix conf clock 0 pool.currentSize_ pool.connectionQueue_
  have hlive : pool.live = deleted ++ (pool.recycleConnection conf clock).live := by
    rw [live, hqueue, List.append_assoc]
    rfl
  rw [hlive, List.map_append]
  exact (List.sublist_append_right _ _).subperm

theorem perm_getConnection : pool.getConnection.live.Perm pool.live := by
  unfold getConnection
  cases hqueue : pool.connectionQueue_ with
  | nil =>
      exact List.Perm.refl _
  | cons conn rest =>
      -- from the front of the queue to the back of the borrowers
      simp only [live, hqueue, List.cons_append, ← List.append_assoc]
      exact List.perm_append_singleton conn (rest ++ pool.handedOut)

theorem perm_release (i : Nat) (now : Int) :
    ((pool.release i now).live.map MysqlConn.id).Perm (pool.live.map MysqlConn.id) := by
  unfold release
  cases hconn : pool.handedOut[i]? with
  | none =>
      exact List.Perm.refl _
  | some conn =>
      obtain ⟨hi, hget⟩ := List.getElem?_eq_some_iff.1 hconn
      have hback : (conn :: pool.handedOut.eraseIdx i).Perm pool.handedOut := by
        rw [← hget]
        exact List.getElem_cons_eraseIdx_perm hi
      -- the refreshed time is not part of who the connection is
      have hid : (conn.refreshAliveTime now).id = conn.id := rfl
      simp only [live, List.append_assoc, List.singleton_append, List.map_append, List.map_cons, hid]
      have := (hback.map MysqlConn.id).append_left (pool.connectionQueue_.map MysqlConn.id)
      simpa only [List.map_cons] using this

theorem inv_start (conf : Config) : start.Inv conf where
  counted := by decide
  nodup := List.nodup_nil
  fresh := by simp [start, live]
  bounded := Int.le_max_right _ _
  constructing := by
    intro i hi
    cases hi
    rfl

theorem inv_construct (hconf : conf.minSize_ ≤ conf.maxSize_) (h : pool.Inv conf) (now : Int) :
    (pool.construct conf now).Inv conf := by
  unfold construct
  split
  · next i hphase =>
    have hlive := h.constructing i hphase
    split
    · refine h.addAndCount now _ (by omega) ?_
      intro j hj
      cases hj
      omega
    · exact h.of_subperm h.counted (List.Subperm.refl _) rfl (by simp)
  · exact h

theorem inv_produceConnection (h : pool.Inv conf) (hrunning : pool.phase = .running) (now : Int) :
    (pool.produceConnection conf now).Inv conf := by
  unfold produceConnection
  split
  · exact h
  · split
    · next hroom =>
      have hcounted := h.counted
      simp only [CountedTwice] at hcounted
      have hkeep : pool.addAndCount now = { pool.addAndCount now with phase := .running } := by
        rw [← hrunning]
        rfl
      rw [hkeep]
      -- `currentSize_` below the maximum leaves room, being too large
      refine h.addAndCount now _ ?_ (by simp)
      simp only [length_live]
      omega
    · exact h

theorem inv_step (hconf : conf.minSize_ ≤ conf.maxSize_) (pool : ConnectionPool) (e : Event)
    (h : pool.Inv conf) : (step conf pool e).Inv conf := by
  -- every step but the two that make connections only moves or deletes some
  have hcounted : (step conf pool e).CountedTwice := countedTwice_step h.counted e
  cases e with
  | construct now =>
      exact inv_construct hconf h now
  | produceConnection now =>
      simp only [step]
      split
      · next hrunning => exact inv_produceConnection h hrunning now
      · exact h
  | recycleConnection clock =>
      simp only [step] at hcounted ⊢
      split at hcounted
      · next hrunning =>
        rw [if_pos hrunning]
        exact h.of_subperm hcounted (subperm_recycleConnection clock) rfl
          (by simp [recycleConnection, hrunning])
      · next hother => rwa [if_neg hother]
  | getConnection =>
      simp only [step] at hcounted ⊢
      split at hcounted
      · next hrunning =>
        rw [if_pos hrunning]
        refine h.of_subperm hcounted (perm_getConnection.map _).subperm ?_ ?_ <;>
          unfold getConnection <;> split <;> simp [hrunning]
      · next hother => rwa [if_neg hother]
  | release i now =>
      simp only [step] at hcounted ⊢
      split at hcounted
      · next hrunning =>
        rw [if_pos hrunning]
        refine h.of_subperm hcounted (perm_release i now).subperm ?_ ?_ <;>
          unfold release <;> split <;> simp [hrunning]
      · next hother => rwa [if_neg hother]
  | destruct =>
      simp only [step] at hcounted ⊢
      split at hcounted
      · next hrunning =>
        rw [if_pos hrunning]
        refine h.of_subperm hcounted ?_ rfl (by simp [destruct])
        simp only [destruct, live, List.nil_append, List.map_append]
        -- the idle connections go, the borrowed ones stay
        exact (List.sublist_append_right _ _).subperm
      · next hother => rwa [if_neg hother]

end lemmas

/-- **The pool bound and exclusive ownership.**  With a minimum not above the maximum, in every state
of every run there are at most `maxSize_` connections (none, should it be negative), each of them idle or
handed out to one borrower, and the recycler deletes idle ones only. -/
theorem bounded_and_exclusive (conf : Config) (hconf : conf.minSize_ ≤ conf.maxSize_)
    (es : List Event) :
    (es.foldl (step conf) start).Bounded conf ∧ (es.foldl (step conf) start).Exclusive ∧
      (es.foldl (step conf) start).RecyclesIdle conf := by
  have h : (es.foldl (step conf) start).Inv conf :=
    Runs.invariant_run (inv_step hconf) (inv_start conf) es
  exact ⟨h.bounded, h.exclusive, h.recyclesIdle⟩

theorem bounded_and_exclusive_two :
    (2 : Int) ≤ 4 ∧
      ([.construct 0, .construct 0, .construct 0, .getConnection].foldl
        (step { minSize_ := 2, maxSize_ := 4, maxIdleTime_ := 0 }) start).Exclusive :=
  ⟨by decide, (bounded_and_exclusive { minSize_ := 2, maxSize_ := 4, maxIdleTime_ := 0 } (by decide)
    _).2.1⟩

/-- Below a negative maximum not even the empty pool stays. -/
theorem negative_maximum_exceeded :
    let conf : Config := { minSize_ := -1, maxSize_ := -1, maxIdleTime_ := 0 }
    conf.minSize_ ≤ conf.maxSize_ ∧
      ¬ (([.construct 0].foldl (step conf) start).live.length : Int) ≤ conf.maxSize_ := by
  decide

end ConnectionPool
end Mysql
end Myoj
