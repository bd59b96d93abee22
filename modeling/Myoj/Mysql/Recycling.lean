import Mathlib.Data.Int.Order.Basic
import Mathlib.Order.Nat
import Myoj.Mysql.Ownership

/-!
# Recycling — the idle connections stand in the order in which they became idle

The recycler looks at the front of the queue only and stops at the first connection that has not been
idle for long enough.  This is sound because whatever enters the queue is refreshed on the way in, and
enters at the back.

* `Clocked`, `Call`, `call` — the pool under calls in any order, with the readings taken so far;
* `Recycles` — the order of the queue, and what a pass deletes and keeps;
* `recycles_run` — they hold in every state that is reached.
-/

namespace Myoj
namespace Mysql

/-- What is refreshed later has been idle for less. -/
theorem MysqlConn.getAliveTime_anti {conn conn' : MysqlConn} (h : conn.m_alivetime ≤ conn'.m_alivetime)
    (now : Int) : conn'.getAliveTime now ≤ conn.getAliveTime now :=
  Int.tdiv_le_tdiv (by decide) (by omega)

theorem MysqlConn.getAliveTime_mono (conn : MysqlConn) {now now' : Int} (h : now ≤ now') :
    conn.getAliveTime now ≤ conn.getAliveTime now' :=
  Int.tdiv_le_tdiv (by decide) (by omega)

theorem toSizeT_le {n : Int} (h : 0 ≤ n) : (toSizeT n : Int) ≤ n := by
  unfold toSizeT
  omega

namespace ConnectionPool

/-- The pool, and how many readings of the clock were taken. -/
structure Clocked where
  pool : ConnectionPool
  readings : Nat

namespace Clocked

def start : Clocked := ⟨ConnectionPool.start, 0⟩

inductive Call where
  | addConnection
  | getConnection
  | release (i : Nat)
  | recycleConnection

/-- How often the recycler's loop looks at a connection. -/
def looks (conf : Config) (clock : Nat → Int) : Nat → List MysqlConn → Nat
  | _, [] => 0
  | k, conn :: rest =>
      if toSizeT conf.minSize_ < rest.length + 1 then
        if conf.maxIdleTime_ ≤ conn.getAliveTime (clock k) then looks conf clock (k + 1) rest + 1
        else 1
      else 0

/-- One pass of the recycler. -/
def recycle (conf : Config) (clock : Clock) (s : Clocked) : Clocked :=
  let now (k : Nat) : Int := clock.reading (s.readings + k)
  { pool := s.pool.recycleConnection conf now
    readings := s.readings + looks conf now 0 s.pool.connectionQueue_ }

def call (conf : Config) (clock : Clock) (s : Clocked) : Call → Clocked
  | .addConnection =>
      { pool := s.pool.addConnection (clock.reading s.readings), readings := s.readings + 1 }
  | .getConnection => { s with pool := s.pool.getConnection }
  | .release i =>
      { pool := s.pool.release i (clock.reading s.readings), readings := s.readings + 1 }
  | .recycleConnection => s.recycle conf clock

/-! ## What a pass is to do -/

/-- `size() > minSize_` is false.  It compares as `size_t`, which makes a negative minimum a huge one. -/
def AtMostMinSize (conf : Config) (n : Nat) : Prop :=
  n ≤ toSizeT conf.minSize_ ∧ (0 ≤ conf.minSize_ → (n : Int) ≤ conf.minSize_)

/-- The front of the queue has been idle for longest. -/
def IdleOrder (queue : List MysqlConn) : Prop :=
  queue.Pairwise fun conn conn' => ∀ now, conn'.getAliveTime now ≤ conn.getAliveTime now

variable (conf : Config) (clock : Clock)

/-- The `i`-th deleted connection was idle for too long at the `i`-th reading. -/
def Stale (s : Clocked) (deleted : List MysqlConn) : Prop :=
  ∀ i conn, deleted[i]? = some conn →
    s.readings + i < (s.recycle conf clock).readings ∧
      conf.maxIdleTime_ ≤ conn.getAliveTime (clock.reading (s.readings + i))

/-- The pass has taken a reading, and what it leaves was idle for less at every reading it took. -/
def NoneStale (s : Clocked) : Prop :=
  s.readings < (s.recycle conf clock).readings ∧
    ∀ conn ∈ (s.recycle conf clock).pool.connectionQueue_, ∀ r,
      s.readings ≤ r → r < (s.recycle conf clock).readings →
        conn.getAliveTime (clock.reading r) < conf.maxIdleTime_

/-- The queue is in order, and a pass of the recycler over it removes everything that is stale, and
nothing else. -/
structure Recycles (s : Clocked) : Prop where
  ordered : IdleOrder s.pool.connectionQueue_
  deleted : ∃ deleted, Stale conf clock s deleted ∧
    s.pool.connectionQueue_ = deleted ++ (s.recycle conf clock).pool.connectionQueue_
  kept : AtMostMinSize conf (s.recycle conf clock).pool.connectionQueue_.length ∨
    NoneStale conf clock s

/-! ## The order -/

/-- What the pool keeps: the queue is ordered by the last refresh, and none of those is still to come. -/
structure Inv (s : Clocked) : Prop where
  ordered : s.pool.connectionQueue_.Pairwise fun conn conn' => conn.m_alivetime ≤ conn'.m_alivetime
  past : ∀ conn ∈ s.pool.connectionQueue_, conn.m_alivetime ≤ clock.reading s.readings

variable {conf clock} {s s' : Clocked}

theorem inv_start : Inv clock start := ⟨List.Pairwise.nil, by simp [start, ConnectionPool.start]⟩

theorem Inv.idleOrder (h : Inv clock s) : IdleOrder s.pool.connectionQueue_ :=
  h.ordered.imp fun hle now => MysqlConn.getAliveTime_anti hle now

/-- Connections leave. -/
theorem Inv.of_sublist (h : Inv clock s)
    (hqueue : s'.pool.connectionQueue_.Sublist s.pool.connectionQueue_)
    (hreadings : s.readings ≤ s'.readings) : Inv clock s' where
  ordered := h.ordered.sublist hqueue
  past := fun conn hmem => (h.past conn (hqueue.subset hmem)).trans (clock.monotone hreadings)

/-- A connection enters at the back, refreshed. -/
theorem Inv.of_push {conn : MysqlConn} (h : Inv clock s)
    (hqueue : s'.pool.connectionQueue_ = s.pool.connectionQueue_ ++ [conn])
    (hconn : conn.m_alivetime = clock.reading s.readings) (hreadings : s.readings ≤ s'.readings) :
    Inv clock s' where
  ordered := by
    rw [hqueue, List.pairwise_append]
    refine ⟨h.ordered, List.pairwise_singleton _ _, fun old hold new hnew => ?_⟩
    rw [List.mem_singleton.1 hnew, hconn]
    exact h.past old hold
  past := by
    intro c hc
    rw [hqueue, List.mem_append, List.mem_singleton] at hc
    have hle : c.m_alivetime ≤ clock.reading s.readings := by
      rcases hc with hold | rfl
      · exact h.past c hold
      · exact hconn.le
    exact hle.trans (clock.monotone hreadings)

theorem sublist_getConnection (pool : ConnectionPool) :
    pool.getConnection.connectionQueue_.Sublist pool.connectionQueue_ := by
  unfold getConnection
  split
  · exact List.Sublist.refl _
  · next hqueue =>
    rw [hqueue]
    exact List.sublist_cons_self _ _

theorem sublist_recycleConnection (pool : ConnectionPool) (now : Nat → Int) :
    (pool.recycleConnection conf now).connectionQueue_.Sublist pool.connectionQueue_ := by
  obtain ⟨deleted, hqueue⟩ := recycleLoop_suffix conf now 0 pool.currentSize_ pool.connectionQueue_
  rw [hqueue]
  exact List.sublist_append_right _ _

theorem inv_call (s : Clocked) (e : Call) (h : Inv clock s) : Inv clock (call conf clock s e) := by
  cases e with
  | addConnection =>
      exact h.of_push rfl rfl (Nat.le_succ _)
  | getConnection =>
      exact h.of_sublist (sublist_getConnection _) (Nat.le_refl _)
  | release i =>
      cases hconn : s.pool.handedOut[i]? with
      | none =>
          refine h.of_sublist ?_ (Nat.le_succ _)
          simp [call, ConnectionPool.release, hconn]
      | some conn =>
          have hqueue : (call conf clock s (.release i)).pool.connectionQueue_ =
              s.pool.connectionQueue_ ++ [conn.refreshAliveTime (clock.reading s.readings)] := by
            simp [call, ConnectionPool.release, hconn]
          exact h.of_push hqueue rfl (Nat.le_succ _)
  | recycleConnection =>
      exact h.of_sublist (sublist_recycleConnection _ _) (Nat.le_add_right _ _)

/-! ## One pass -/

/-- The loop deletes what is stale at its look at it, and stops at the minimum or at a connection that
is not. -/
theorem recycleLoop_cases (conf : Config) (now : Nat → Int) (k : Nat) (n : Int)
    (queue : List MysqlConn) :
    ∃ deleted, queue = deleted ++ (recycleLoop conf now k n queue).2 ∧
      deleted.length ≤ looks conf now k queue ∧
      (∀ i (conn : MysqlConn), deleted[i]? = some conn →
        conf.maxIdleTime_ ≤ conn.getAliveTime (now (k + i))) ∧
      ((recycleLoop conf now k n queue).2.length ≤ toSizeT conf.minSize_ ∨
        looks conf now k queue = deleted.length + 1 ∧ ∃ front rest,
          (recycleLoop conf now k n queue).2 = front :: rest ∧
            front.getAliveTime (now (k + deleted.length)) < conf.maxIdleTime_) := by
  induction queue generalizing k n with
  | nil =>
      exact ⟨[], rfl, Nat.le_refl _, by simp, .inl (Nat.zero_le _)⟩
  | cons conn rest ih =>
      simp only [recycleLoop, looks]
      by_cases hsize : toSizeT conf.minSize_ < rest.length + 1
      · rw [if_pos hsize, if_pos hsize]
        by_cases hstale : conf.maxIdleTime_ ≤ conn.getAliveTime (now k)
        · rw [if_pos hstale, if_pos hstale]
          obtain ⟨deleted, hqueue, hlooks, hdeleted, hkept⟩ := ih (k + 1) (n - 1)
          refine ⟨conn :: deleted, congrArg (conn :: ·) hqueue, Nat.succ_le_succ hlooks, ?_, ?_⟩
          · rintro (_ | i) c hc
            · obtain rfl : conn = c := by simpa using hc
              exact hstale
            · have := hdeleted i c hc
              rwa [Nat.add_right_comm, Nat.add_assoc] at this
          · refine hkept.imp_right ?_
            rintro ⟨hlast, front, tail, hfront, hfresh⟩
            refine ⟨congrArg (· + 1) hlast, front, tail, hfront, ?_⟩
            rwa [Nat.add_right_comm, Nat.add_assoc] at hfresh
        · rw [if_neg hstale, if_neg hstale]
          exact ⟨[], rfl, Nat.zero_le _, by simp, .inr ⟨rfl, conn, rest, rfl, not_le.1 hstale⟩⟩
      · rw [if_neg hsize, if_neg hsize]
        exact ⟨[], rfl, Nat.le_refl _, by simp, .inl (not_lt.1 hsize)⟩

/-- When the front has not been idle for long enough, the rest has not either. -/
theorem IdleOrder.fresh {front : MysqlConn} {rest : List MysqlConn} {now : Int}
    (h : IdleOrder (front :: rest)) (hfront : front.getAliveTime now < conf.maxIdleTime_) :
    ∀ conn ∈ front :: rest, conn.getAliveTime now < conf.maxIdleTime_ := by
  intro conn hmem
  rcases List.mem_cons.1 hmem with rfl | hrest
  · exact hfront
  · exact (List.rel_of_pairwise_cons h hrest now).trans_lt hfront

theorem Inv.recycles (h : Inv clock s) : Recycles conf clock s := by
  obtain ⟨deleted, hqueue, hlooks, hdeleted, hkept⟩ :=
    recycleLoop_cases conf (fun k => clock.reading (s.readings + k)) 0 s.pool.currentSize_
      s.pool.connectionQueue_
  refine ⟨h.idleOrder, ⟨deleted, fun i conn hconn => ⟨?_, ?_⟩, hqueue⟩, ?_⟩
  · have hi : i < deleted.length := (List.getElem?_eq_some_iff.1 hconn).1
    exact Nat.add_lt_add_left (hi.trans_le hlooks) _
  · simpa using hdeleted i conn hconn
  · rcases hkept with hsize | ⟨hlast, front, rest, hfront, hfresh⟩
    · exact .inl ⟨hsize, fun hmin => (Int.ofNat_le.2 hsize).trans (toSizeT_le hmin)⟩
    · have hreadings : (s.recycle conf clock).readings = s.readings + (deleted.length + 1) :=
        congrArg (s.readings + ·) hlast
      refine .inr ⟨by omega, fun conn hmem r _ hlt => ?_⟩
      -- the look at the front is the last reading of the pass
      have hle : clock.reading r ≤ clock.reading (s.readings + (0 + deleted.length)) :=
        clock.monotone (by omega)
      have horder : IdleOrder (front :: rest) := by
        rw [← hfront]
        exact h.idleOrder.sublist (sublist_recycleConnection s.pool _)
      have hconn : conn ∈ front :: rest := hfront ▸ hmem
      exact (conn.getAliveTime_mono hle).trans_lt (horder.fresh hfresh conn hconn)

/-- **Recycling.**  Whatever the calls and their order, the queue is ordered by idle time, and the next
pass removes all that is stale above the minimum, and nothing that is not. -/
theorem recycles_run (conf : Config) (clock : Clock) (es : List Call) :
    Recycles conf clock (es.foldl (call conf clock) start) :=
  (Runs.invariant_run inv_call inv_start es).recycles

/-- With a negative minimum a pass deletes nothing, unless the queue is longer than memory allows. -/
theorem recycle_of_negative (hmin : conf.minSize_ < 0) (hint : -2 ^ 31 ≤ conf.minSize_)
    (hqueue : s.pool.connectionQueue_.length ≤ 2 ^ 63) :
    (s.recycle conf clock).pool.connectionQueue_ = s.pool.connectionQueue_ := by
  have hhuge : 2 ^ 63 ≤ toSizeT conf.minSize_ := by
    unfold toSizeT
    omega
  change (recycleLoop conf _ 0 s.pool.currentSize_ s.pool.connectionQueue_).2 = _
  cases hcase : s.pool.connectionQueue_ with
  | nil =>
      rfl
  | cons conn rest =>
      have hlen : ¬ toSizeT conf.minSize_ < rest.length + 1 := by
        rw [hcase, List.length_cons] at hqueue
        omega
      rw [recycleLoop, if_neg hlen]

end Clocked
end ConnectionPool
end Mysql
end Myoj
