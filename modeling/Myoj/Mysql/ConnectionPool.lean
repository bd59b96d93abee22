import Mathlib.Algebra.Group.Int.Defs
import Myoj.Lib.Runs

/-!
# ConnectionPool — the shared connections to MySQL

The pool keeps idle connections in a queue.  The constructor fills it, one background thread adds a
connection when the queue has run empty, another deletes connections that were idle for too long, and
the deleter of the `shared_ptr` handed out puts a connection back.

* `ConnectionPool` — the members, with the connections that are out and a count of those ever made;
* `produceConnection`, `recycleConnection`, `getConnection`, `release` — one critical section each, all
  under `mutex_`;
* `Event`, `step` — the interleavings.

Clock readings come with the events; they are nanoseconds of `steady_clock`.
-/

namespace Myoj
namespace Mysql

/-- A connection, as far as the pool looks at it: which object it is and when it became idle. -/
structure MysqlConn where
  id : Nat
  m_alivetime : Int
  deriving DecidableEq, Repr

namespace MysqlConn

def refreshAliveTime (conn : MysqlConn) (now : Int) : MysqlConn := { conn with m_alivetime := now }

/-- Milliseconds since the last refresh; `duration_cast` drops the rest. -/
def getAliveTime (conn : MysqlConn) (now : Int) : Int := (now - conn.m_alivetime).tdiv 1000000

end MysqlConn

/-- The members that `parseJsonFile` sets. -/
structure Config where
  minSize_ : Int
  maxSize_ : Int
  maxIdleTime_ : Int
  deriving DecidableEq, Repr

/-- The conversion of an `int` to `size_t`. -/
def toSizeT (n : Int) : Nat := (n % 2 ^ 64).toNat

/-- How far the life of the pool has come; `constructing i` is the counter of the constructor's loop. -/
inductive Phase where
  | constructing (i : Nat)
  | running
  | destroyed
  deriving DecidableEq, Repr

structure ConnectionPool where
  currentSize_ : Int
  connectionQueue_ : List MysqlConn
  /-- The connections whose `shared_ptr` is alive. -/
  handedOut : List MysqlConn
  /-- How many connections were made. -/
  created : Nat
  phase : Phase
  deriving DecidableEq, Repr

namespace ConnectionPool

/-- The static pool before its constructor runs. -/
def start : ConnectionPool where
  currentSize_ := 0
  connectionQueue_ := []
  handedOut := []
  created := 0
  phase := .constructing 0

section operations

variable (conf : Config) (pool : ConnectionPool)

/-- A new connection goes to the back of the queue and is counted. -/
def addConnection (now : Int) : ConnectionPool :=
  let conn : MysqlConn := { id := pool.created, m_alivetime := now }
  { pool with
    connectionQueue_ := pool.connectionQueue_ ++ [conn]
    currentSize_ := pool.currentSize_ + 1
    created := pool.created + 1 }

/-- `addConnection(); currentSize_++;` -/
def addAndCount (now : Int) : ConnectionPool :=
  let pool := pool.addConnection now
  { pool with currentSize_ := pool.currentSize_ + 1 }

/-- One round of the constructor's loop, or the start of the two threads behind it. -/
def construct (now : Int) : ConnectionPool :=
  match pool.phase with
  | .constructing i =>
      if (i : Int) < conf.minSize_ then
        { pool.addAndCount now with phase := .constructing (i + 1) }
      else { pool with phase := .running }
  | _ => pool

/-- The producer waits while there are idle connections. -/
def produceConnection (now : Int) : ConnectionPool :=
  if pool.connectionQueue_ ≠ [] then pool
  else if pool.currentSize_ < conf.maxSize_ then pool.addAndCount now
  else pool

/-- The inner loop of `recycleConnection` over the queue; `clock k` is what its `k`-th look at a
connection reads. -/
def recycleLoop (clock : Nat → Int) : Nat → Int → List MysqlConn → Int × List MysqlConn
  | _, currentSize_, [] => (currentSize_, [])
  | k, currentSize_, conn :: rest =>
      if toSizeT conf.minSize_ < rest.length + 1 then
        if conf.maxIdleTime_ ≤ conn.getAliveTime (clock k) then
          recycleLoop clock (k + 1) (currentSize_ - 1) rest
        else (currentSize_, conn :: rest)
      else (currentSize_, conn :: rest)

def recycleConnection (clock : Nat → Int) : ConnectionPool :=
  let (currentSize_, connectionQueue_) :=
    recycleLoop conf clock 0 pool.currentSize_ pool.connectionQueue_
  { pool with currentSize_, connectionQueue_ }

/-- The front of the queue is handed out; with an empty queue the caller waits. -/
def getConnection : ConnectionPool :=
  match pool.connectionQueue_ with
  | [] => pool
  | conn :: rest => { pool with connectionQueue_ := rest, handedOut := pool.handedOut ++ [conn] }

/-- The deleter of the `i`-th `shared_ptr` that is alive. -/
def release (i : Nat) (now : Int) : ConnectionPool :=
  match pool.handedOut[i]? with
  | none => pool
  | some conn =>
      { pool with
        connectionQueue_ := pool.connectionQueue_ ++ [conn.refreshAliveTime now]
        handedOut := pool.handedOut.eraseIdx i }

/-- `~ConnectionPool`: the idle connections are deleted one by one. -/
def destruct : ConnectionPool :=
  { pool with
    currentSize_ := pool.currentSize_ - pool.connectionQueue_.length
    connectionQueue_ := []
    phase := .destroyed }

end operations

inductive Event where
  | construct (now : Int)
  | produceConnection (now : Int)
  | recycleConnection (clock : Nat → Int)
  | getConnection
  | release (i : Nat) (now : Int)
  | destruct

/-- Threads and callers get to the pool once it is constructed. -/
def step (conf : Config) (pool : ConnectionPool) : Event → ConnectionPool
  | .construct now => pool.construct conf now
  | .produceConnection now =>
      if pool.phase = .running then pool.produceConnection conf now else pool
  | .recycleConnection clock =>
      if pool.phase = .running then pool.recycleConnection conf clock else pool
  | .getConnection => if pool.phase = .running then pool.getConnection else pool
  | .release i now => if pool.phase = .running then pool.release i now else pool
  | .destruct => if pool.phase = .running then pool.destruct else pool

/-! ## Accounting -/

/-- `currentSize_` is the number of live connections, idle or handed out. -/
def Accounted (pool : ConnectionPool) : Prop :=
  pool.currentSize_ = pool.connectionQueue_.length + pool.handedOut.length

instance (pool : ConnectionPool) : Decidable pool.Accounted := inferInstanceAs (Decidable (_ = _))

/-- The event makes a connection: a round of the constructor's loop, or the producer at an empty queue
below the maximum. -/
def Creates (conf : Config) (pool : ConnectionPool) : Event → Prop
  | .construct _ => ∃ i : Nat, pool.phase = .constructing i ∧ (i : Int) < conf.minSize_
  | .produceConnection _ =>
      pool.phase = .running ∧ pool.connectionQueue_ = [] ∧ pool.currentSize_ < conf.maxSize_
  | _ => False

/-- Every connection that was made has been counted twice. -/
def CountedTwice (pool : ConnectionPool) : Prop :=
  pool.currentSize_ = pool.connectionQueue_.length + pool.handedOut.length + pool.created

instance (pool : ConnectionPool) : Decidable pool.CountedTwice :=
  inferInstanceAs (Decidable (_ = _))

theorem accounted_iff {pool : ConnectionPool} (h : pool.CountedTwice) :
    pool.Accounted ↔ pool.created = 0 := by
  simp only [CountedTwice] at h
  simp only [Accounted]
  omega

section lemmas

variable {conf : Config} {pool : ConnectionPool}

theorem countedTwice_addAndCount (h : pool.CountedTwice) (now : Int) :
    (pool.addAndCount now).CountedTwice := by
  simp only [CountedTwice] at h
  simp only [CountedTwice, addAndCount, addConnection, List.length_append, List.length_singleton]
  omega

/-- The recycler takes off the counter what it takes off the queue. -/
theorem recycleLoop_spec (conf : Config) (clock : Nat → Int) (k : Nat) (n : Int)
    (queue : List MysqlConn) :
    (recycleLoop conf clock k n queue).1 - (recycleLoop conf clock k n queue).2.length =
      n - queue.length := by
  induction queue generalizing k n with
  | nil =>
      rfl
  | cons conn rest ih =>
      simp only [recycleLoop]
      split
      · split
        -- one connection less in the queue, one less on the counter
        · have hrest := ih (k + 1) (n - 1)
          simp only [List.length_cons]
          omega
        · rfl
      · rfl

theorem countedTwice_recycleConnection (h : pool.CountedTwice) (clock : Nat → Int) :
    (pool.recycleConnection conf clock).CountedTwice := by
  have hloop := recycleLoop_spec conf clock 0 pool.currentSize_ pool.connectionQueue_
  simp only [CountedTwice] at h
  simp only [CountedTwice, recycleConnection]
  omega

theorem countedTwice_getConnection (h : pool.CountedTwice) : pool.getConnection.CountedTwice := by
  unfold getConnection
  cases hqueue : pool.connectionQueue_ with
  | nil =>
      exact h
  | cons conn rest =>
      simp only [CountedTwice, hqueue, List.length_cons] at h
      simp only [CountedTwice, List.length_append, List.length_singleton]
      omega

theorem countedTwice_release (h : pool.CountedTwice) (i : Nat) (now : Int) :
    (pool.release i now).CountedTwice := by
  unfold release
  cases hconn : pool.handedOut[i]? with
  | none =>
      exact h
  | some conn =>
      have hi : i < pool.handedOut.length := (List.getElem?_eq_some_iff.1 hconn).1
      -- it changes its place only
      have hlen : (pool.handedOut.eraseIdx i).length + 1 = pool.handedOut.length := by
        rw [List.length_eraseIdx_of_lt hi]
        omega
      simp only [CountedTwice] at h
      simp only [CountedTwice, List.length_append, List.length_singleton]
      omega

theorem countedTwice_destruct (h : pool.CountedTwice) : pool.destruct.CountedTwice := by
  simp only [CountedTwice] at h
  simp only [CountedTwice, destruct, List.length_nil]
  omega

/-- In every state the counter is ahead of the live connections by the number of connections made. -/
theorem countedTwice_step (h : pool.CountedTwice) (e : Event) :
    (step conf pool e).CountedTwice := by
  cases e with
  | construct now =>
      simp only [step, construct]
      split
      · split
        · exact countedTwice_addAndCount h now
        · exact h
      · exact h
  | produceConnection now =>
      simp only [step, produceConnection]
      split
      · split
        · exact h
        · split
          · exact countedTwice_addAndCount h now
          · exact h
      · exact h
  | recycleConnection clock =>
      simp only [step]
      split
      · exact countedTwice_recycleConnection h clock
      · exact h
  | getConnection =>
      simp only [step]
      split
      · exact countedTwice_getConnection h
      · exact h
  | release i now =>
      simp only [step]
      split
      · exact countedTwice_release h i now
      · exact h
  | destruct =>
      simp only [step]
      split
      · exact countedTwice_destruct h
      · exact h

/-- Connections are made by the events that create, one each. -/
theorem created_step (conf : Config) (pool : ConnectionPool) (e : Event) :
    Creates conf pool e ∧ (step conf pool e).created = pool.created + 1 ∨
      ¬ Creates conf pool e ∧ (step conf pool e).created = pool.created := by
  cases e with
  | construct now =>
      simp only [step, construct, Creates]
      cases hphase : pool.phase with
      | constructing i =>
          by_cases hi : (i : Int) < conf.minSize_
          · exact Or.inl ⟨⟨i, rfl, hi⟩, by simp [hi, addAndCount, addConnection]⟩
          · refine Or.inr ⟨?_, by simp [hi]⟩
            rintro ⟨j, hj, hlt⟩
            cases hj
            exact hi hlt
      | running =>
          exact Or.inr ⟨by simp, rfl⟩
      | destroyed =>
          exact Or.inr ⟨by simp, rfl⟩
  | produceConnection now =>
      simp only [step, produceConnection, Creates]
      by_cases hcreates :
          pool.phase = .running ∧ pool.connectionQueue_ = [] ∧ pool.currentSize_ < conf.maxSize_
      · refine Or.inl ⟨hcreates, ?_⟩
        simp [hcreates.1, hcreates.2.1, hcreates.2.2, addAndCount, addConnection]
      · -- not running, not empty or full: it goes back to waiting
        refine Or.inr ⟨hcreates, ?_⟩
        split
        · next hrunning =>
          split
          · rfl
          · next hempty =>
            have hfull : ¬ pool.currentSize_ < conf.maxSize_ := fun hlt =>
              hcreates ⟨hrunning, not_ne_iff.1 hempty, hlt⟩
            rw [if_neg hfull]
        · rfl
  | recycleConnection clock =>
      refine Or.inr ⟨id, ?_⟩
      simp only [step]
      split <;> rfl
  | getConnection =>
      refine Or.inr ⟨id, ?_⟩
      simp only [step, getConnection]
      split
      · split <;> rfl
      · rfl
  | release i now =>
      refine Or.inr ⟨id, ?_⟩
      simp only [step, release]
      split
      · split <;> rfl
      · rfl
  | destruct =>
      refine Or.inr ⟨id, ?_⟩
      simp only [step]
      split <;> rfl

end lemmas

/-- **The counter is right as long as no connection is made.**  A run keeps `currentSize_` equal to the
number of live connections in every state precisely when none of its events makes one. -/
theorem accounted_throughout_iff (conf : Config) (es : List Event) :
    Runs.Throughout (step conf) Accounted start es ↔
      Runs.Guarded (step conf) (fun pool e => ¬ Creates conf pool e) start es := by
  have hkept : ∀ pool e, CountedTwice pool → CountedTwice (step conf pool e) :=
    fun _ e h => countedTwice_step h e
  have hsurvives : ∀ pool e, CountedTwice pool → Accounted pool →
      (Accounted (step conf pool e) ↔ ¬ Creates conf pool e) := by
    intro pool e hcount haccounted
    -- as long as the counter is right nothing was made
    have hnone : pool.created = 0 := (accounted_iff hcount).1 haccounted
    rw [accounted_iff (countedTwice_step hcount e)]
    rcases created_step conf pool e with ⟨hcreates, hone⟩ | ⟨hkeeps, hsame⟩
    · rw [hone]
      simp [hcreates]
    · rw [hsame]
      simp [hkeeps, hnone]
  have hstart : start.CountedTwice := by decide
  have hstart' : start.Accounted := by decide
  exact (Runs.guarded_iff_throughout hkept hsurvives hstart hstart').symm

/-- One connection made by the constructor is counted as two. -/
theorem constructor_miscounts :
    ¬ Runs.Throughout (step { minSize_ := 1, maxSize_ := 1, maxIdleTime_ := 0 }) Accounted start
      [.construct 0] := by
  decide

end ConnectionPool
end Mysql
end Myoj
