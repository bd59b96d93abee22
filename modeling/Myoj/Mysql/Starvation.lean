import Mathlib.Data.Int.Order.Basic
import Mathlib.Order.Nat
import Myoj.Mysql.Ownership

/-!
# Starvation — a pool that recycles its connections wears out

The producer stops at `maxSize_` by a counter that is ahead of the live connections by the number ever
made.  What the recycler deletes is therefore never replaced in full: every connection that comes and goes
leaves the counter one higher, for good.

* `Steady` — runs on a clock that does not go back;
* `Starved` — from here on `getConnection` waits, whatever the threads and the borrowers do;
* `Spent` — nothing is left and the producer has stopped, which no step undoes;
* `Supply` — how the pool keeps from running dry: the recycler leaves `minSize_` connections;
* `wear` — the run that makes and recycles one connection at a time;
* `starves_iff` — the configurations under which the pool can starve.
-/

namespace Myoj
namespace Mysql
namespace ConnectionPool

/-- The readings of the run follow one another, from `t` on. -/
def Steady : Int → List Event → Prop
  | _, [] => True
  | t, .construct now :: es => t ≤ now ∧ Steady now es
  | t, .produceConnection now :: es => t ≤ now ∧ Steady now es
  | t, .recycleConnection clock :: es =>
      ∃ t', (∀ k, t ≤ clock k ∧ clock k ≤ clock (k + 1) ∧ clock k ≤ t') ∧ Steady t' es
  | t, .getConnection :: es => Steady t es
  | t, .release _ now :: es => t ≤ now ∧ Steady now es
  | t, .destruct :: es => Steady t es

/-- The pool is up, and no continuation brings an idle connection. -/
def Starved (conf : Config) (pool : ConnectionPool) : Prop :=
  pool.phase = .running ∧ ∀ fs : List Event, (fs.foldl (step conf) pool).connectionQueue_ = []

/-- No connection is left and the producer may not make one. -/
structure Spent (conf : Config) (pool : ConnectionPool) : Prop where
  constructed : ∀ i, pool.phase ≠ .constructing i
  idle : pool.connectionQueue_ = []
  out : pool.handedOut = []
  full : conf.maxSize_ ≤ pool.currentSize_

/-- What stands between the pool and starvation: the constructor has made its connections, and those that
were recycled since have left `minSize_` others behind. -/
structure Supply (conf : Config) (pool : ConnectionPool) : Prop where
  counted : pool.CountedTwice
  constructing : ∀ i, pool.phase = .constructing i → pool.created = i
  filled : pool.phase = .running → conf.minSize_ ≤ pool.created
  stocked : pool.phase ≠ .destroyed →
    pool.created ≤ pool.live.length ∨ toSizeT conf.minSize_ ≤ pool.live.length

section lemmas

variable {conf : Config} {pool : ConnectionPool}

/-! ## A spent pool -/

/-- No event finds anything to do: there is nothing to hand out, to take back or to recycle. -/
theorem spent_step (pool : ConnectionPool) (e : Event) (h : pool.Spent conf) :
    (step conf pool e).Spent conf := by
  obtain ⟨hphase, hidle, hout, hfull⟩ := h
  have hsame : pool.Spent conf := ⟨hphase, hidle, hout, hfull⟩
  cases e with
  | construct now =>
      have hdone : pool.construct conf now = pool := by
        unfold construct
        split
        · next i hi => exact absurd hi (hphase i)
        · rfl
      rwa [step, hdone]
  | produceConnection now =>
      have hstop : pool.produceConnection conf now = pool := by
        simp [produceConnection, hidle, not_lt.2 hfull]
      simp only [step, hstop, ite_self]
      exact hsame
  | recycleConnection clock =>
      have hstop : pool.recycleConnection conf clock = pool := by
        cases pool
        simp_all [recycleConnection, recycleLoop]
      simp only [step, hstop, ite_self]
      exact hsame
  | getConnection =>
      have hwait : pool.getConnection = pool := by
        simp [getConnection, hidle]
      simp only [step, hwait, ite_self]
      exact hsame
  | release i now =>
      have hnone : pool.release i now = pool := by
        simp [release, hout]
      simp only [step, hnone, ite_self]
      exact hsame
  | destruct =>
      simp only [step]
      split
      · refine ⟨by simp [destruct], rfl, hout, ?_⟩
        -- there is nothing to count down
        simpa [destruct, hidle] using hfull
      · exact hsame

theorem Spent.starved (h : pool.Spent conf) (hrunning : pool.phase = .running) : pool.Starved conf :=
  ⟨hrunning, fun fs => (Runs.invariant_run spent_step h fs).idle⟩

/-- A starved pool has no borrower either: the first to give its connection back would end it. -/
theorem Starved.live_eq_nil (h : pool.Starved conf) : pool.live = [] := by
  have hidle : pool.connectionQueue_ = [] := h.2 []
  cases hout : pool.handedOut with
  | nil =>
      simp [live, hidle, hout]
  | cons conn rest =>
      have hback := h.2 [.release 0 0]
      simp [step, release, h.1, hout] at hback

/-- The producer is not to blame: it has stopped. -/
theorem Starved.full (h : pool.Starved conf) : conf.maxSize_ ≤ pool.currentSize_ := by
  by_contra hroom
  have hidle : pool.connectionQueue_ = [] := h.2 []
  have hmade := h.2 [.produceConnection 0]
  simp [step, produceConnection, addAndCount, addConnection, h.1, hidle, not_le.1 hroom] at hmade

/-! ## What keeps a pool from starving -/

/-- The recycler's loop leaves the queue alone, or leaves the minimum in it. -/
theorem recycleLoop_keeps (conf : Config) (clock : Nat → Int) (k : Nat) (n : Int)
    (queue : List MysqlConn) : (recycleLoop conf clock k n queue).2 = queue ∨
      toSizeT conf.minSize_ ≤ (recycleLoop conf clock k n queue).2.length := by
  induction queue generalizing k n with
  | nil =>
      exact .inl rfl
  | cons conn rest ih =>
      simp only [recycleLoop]
      split
      · next hsize =>
        split
        -- one went, so the rest had the minimum still
        · rcases ih (k + 1) (n - 1) with hsame | hmin
          · rw [hsame]
            exact .inr (Nat.le_of_lt_succ hsize)
          · exact .inr hmin
        · exact .inl rfl
      · exact .inl rfl

theorem supply_start (conf : Config) : start.Supply conf where
  counted := by decide
  constructing := by
    intro i hi
    cases hi
    rfl
  filled := nofun
  stocked := fun _ => .inl (Nat.le_refl _)

theorem length_live_addAndCount (now : Int) :
    (pool.addAndCount now).live.length = pool.live.length + 1 := by
  simp only [length_live, addAndCount, addConnection, List.length_append, List.length_singleton]
  omega

/-- Once the pool is up it is enough to look at what there is and what was made. -/
theorem Supply.of_running (h : pool.Supply conf) (hrunning : pool.phase = .running)
    {pool' : ConnectionPool} (hcounted : pool'.CountedTwice)
    (hphase : ∀ i, pool'.phase ≠ .constructing i) (hcreated : pool.created ≤ pool'.created)
    (hstocked : pool'.phase ≠ .destroyed →
      pool'.created ≤ pool'.live.length ∨ toSizeT conf.minSize_ ≤ pool'.live.length) :
    pool'.Supply conf where
  counted := hcounted
  constructing := fun i hi => absurd hi (hphase i)
  filled := by
    intro _
    have := h.filled hrunning
    omega
  stocked := hstocked

theorem supply_construct (h : pool.Supply conf) (now : Int) :
    (pool.construct conf now).Supply conf := by
  unfold construct
  split
  · next i hphase =>
    have hcreated := h.constructing i hphase
    have hstocked := h.stocked (by simp [hphase])
    split
    · have hmade : (pool.addAndCount now).created = pool.created + 1 := rfl
      have hlive : (pool.addAndCount now).live.length = pool.live.length + 1 :=
        length_live_addAndCount now
      refine ⟨countedTwice_addAndCount h.counted now, ?_, nofun, fun _ => ?_⟩
      · intro j hj
        cases hj
        exact congrArg (· + 1) hcreated
      · change (pool.addAndCount now).created ≤ (pool.addAndCount now).live.length ∨
          _ ≤ (pool.addAndCount now).live.length
        omega
    -- the loop is over: it has made its `minSize_` connections
    · next hdone =>
      refine ⟨h.counted, nofun, fun _ => ?_, fun _ => hstocked⟩
      change conf.minSize_ ≤ (pool.created : Int)
      omega
  · exact h

theorem supply_produceConnection (h : pool.Supply conf) (hrunning : pool.phase = .running) (now : Int) :
    (pool.produceConnection conf now).Supply conf := by
  unfold produceConnection
  split
  · exact h
  · split
    · have hstocked := h.stocked (by simp [hrunning])
      have hmade : (pool.addAndCount now).created = pool.created + 1 := rfl
      have hlive : (pool.addAndCount now).live.length = pool.live.length + 1 :=
        length_live_addAndCount now
      refine h.of_running hrunning (countedTwice_addAndCount h.counted now) ?_ (by omega)
        (fun _ => by omega)
      simp [addAndCount, addConnection, hrunning]
    · exact h

theorem supply_recycleConnection (h : pool.Supply conf) (hrunning : pool.phase = .running)
    (clock : Nat → Int) : (pool.recycleConnection conf clock).Supply conf := by
  refine h.of_running hrunning (countedTwice_recycleConnection h.counted clock)
    (by simp [recycleConnection, hrunning]) (Nat.le_refl _) (fun _ => ?_)
  have hstocked := h.stocked (by simp [hrunning])
  rcases recycleLoop_keeps conf clock 0 pool.currentSize_ pool.connectionQueue_ with hsame | hmin
  · simpa [recycleConnection, hsame] using hstocked
  · -- what is idle is enough, whoever holds the others
    refine .inr (hmin.trans ?_)
    rw [length_live]
    exact Nat.le_add_right _ _

/-- Moving a connection between the queue and a borrower leaves the supply as it is. -/
theorem Supply.of_moved (h : pool.Supply conf) (hrunning : pool.phase = .running)
    {pool' : ConnectionPool} (hcounted : pool'.CountedTwice) (hphase : pool'.phase = pool.phase)
    (hcreated : pool'.created = pool.created) (hlive : pool'.live.length = pool.live.length) :
    pool'.Supply conf := by
  refine h.of_running hrunning hcounted (by simp [hphase, hrunning]) hcreated.ge (fun _ => ?_)
  rw [hcreated, hlive]
  exact h.stocked (by simp [hrunning])

theorem supply_getConnection (h : pool.Supply conf) (hrunning : pool.phase = .running) :
    pool.getConnection.Supply conf := by
  refine h.of_moved hrunning (countedTwice_getConnection h.counted) ?_ ?_ perm_getConnection.length_eq
  all_goals
    unfold getConnection
    split <;> rfl

theorem supply_release (h : pool.Supply conf) (hrunning : pool.phase = .running) (i : Nat) (now : Int) :
    (pool.release i now).Supply conf := by
  have hperm : ((pool.release i now).live.map MysqlConn.id).Perm (pool.live.map MysqlConn.id) :=
    perm_release i now
  have hlive : (pool.release i now).live.length = pool.live.length := by
    simpa only [List.length_map] using hperm.length_eq
  refine h.of_moved hrunning (countedTwice_release h.counted i now) ?_ ?_ hlive
  all_goals
    unfold release
    split <;> rfl

theorem supply_destruct (h : pool.Supply conf) (hrunning : pool.phase = .running) :
    pool.destruct.Supply conf :=
  h.of_running hrunning (countedTwice_destruct h.counted) (by simp [destruct]) (Nat.le_refl _)
    (fun hlives => absurd rfl hlives)

theorem supply_step (pool : ConnectionPool) (e : Event) (h : pool.Supply conf) :
    (step conf pool e).Supply conf := by
  -- the events other than `construct` do something only while the pool runs
  cases e with
  | construct now =>
      exact supply_construct h now
  | produceConnection now =>
      simp only [step]
      split
      · next hrunning => exact supply_produceConnection h hrunning now
      · exact h
  | recycleConnection clock =>
      simp only [step]
      split
      · next hrunning => exact supply_recycleConnection h hrunning clock
      · exact h
  | getConnection =>
      simp only [step]
      split
      · next hrunning => exact supply_getConnection h hrunning
      · exact h
  | release i now =>
      simp only [step]
      split
      · next hrunning => exact supply_release h hrunning i now
      · exact h
  | destruct =>
      simp only [step]
      split
      · next hrunning => exact supply_destruct h hrunning
      · exact h

/-- A pool with a supply that starves all the same was told to keep nothing, or to make nothing. -/
theorem Supply.of_starved (h : pool.Supply conf) (hstarved : pool.Starved conf)
    (hmin : -2 ^ 31 ≤ conf.minSize_) (hmax : conf.minSize_ < 2 ^ 31) :
    conf.minSize_ = 0 ∨ conf.minSize_ < 0 ∧ conf.maxSize_ ≤ 0 := by
  have hlive := hstarved.live_eq_nil
  have hfull := hstarved.full
  have hfilled := h.filled hstarved.1
  have hcounted := h.counted
  have hnone : pool.connectionQueue_.length + pool.handedOut.length = 0 := by
    rw [← length_live, hlive, List.length_nil]
  simp only [CountedTwice] at hcounted
  have hstocked : pool.created = 0 ∨ toSizeT conf.minSize_ = 0 := by
    simpa [hlive] using h.stocked (by simp [hstarved.1])
  rcases hstocked with hcreated | hsize
  -- nothing was ever made, by the constructor or by the producer
  · omega
  · unfold toSizeT at hsize
    omega

/-! ## The run that wears the pool out -/

/-- How long a connection has to lie idle until the recycler takes it, in nanoseconds. -/
def patience (conf : Config) : Int := 1000000 * max conf.maxIdleTime_ 0

/-- One connection after another is made, left idle and recycled. -/
def wear (conf : Config) : Int → Nat → List Event
  | _, 0 => []
  | t, n + 1 =>
      .produceConnection t :: .recycleConnection (fun _ => t + patience conf) ::
        wear conf (t + patience conf) n

theorem patience_nonneg (conf : Config) : 0 ≤ patience conf := by
  unfold patience
  omega

theorem steady_wear (conf : Config) (t : Int) (n : Nat) : Steady t (wear conf t n) := by
  induction n generalizing t with
  | zero =>
      trivial
  | succ n ih =>
      have hlater : t ≤ t + patience conf := by
        have := patience_nonneg conf
        omega
      exact ⟨Int.le_refl _, _, fun _ => ⟨hlater, Int.le_refl _, Int.le_refl _⟩, ih _⟩

theorem maxIdleTime_le_getAliveTime (conf : Config) (id : Nat) (t : Int) :
    conf.maxIdleTime_ ≤ (MysqlConn.mk id t).getAliveTime (t + patience conf) := by
  have hidle : t + patience conf - t = max conf.maxIdleTime_ 0 * 1000000 := by
    unfold patience
    omega
  simp only [MysqlConn.getAliveTime]
  rw [hidle, Int.mul_tdiv_cancel _ (by decide)]
  exact Int.le_max_left _ _

/-- One round leaves an empty pool as empty as it was, with the counter one higher. -/
theorem wear_round (hmin : conf.minSize_ = 0) (hrunning : pool.phase = .running)
    (hidle : pool.connectionQueue_ = []) (hroom : pool.currentSize_ < conf.maxSize_) (t : Int) :
    step conf (step conf pool (.produceConnection t))
        (.recycleConnection fun _ => t + patience conf) =
      { pool with currentSize_ := pool.currentSize_ + 1, created := pool.created + 1 } := by
  have hmade : step conf pool (.produceConnection t) = pool.addAndCount t := by
    simp [step, produceConnection, hrunning, hidle, hroom]
  have hstale := maxIdleTime_le_getAliveTime conf pool.created t
  have hsize : toSizeT conf.minSize_ < 0 + 1 := by
    rw [hmin]
    decide
  rw [hmade]
  simp only [step, addAndCount, addConnection, recycleConnection, recycleLoop, hrunning, hidle,
    List.nil_append, List.length_nil, if_pos hsize, if_pos hstale, if_true]
  congr 1
  omega

theorem spent_wear (hmin : conf.minSize_ = 0) (n : Nat) (t : Int) (hrunning : pool.phase = .running)
    (hlive : pool.live = []) (hn : (conf.maxSize_ - pool.currentSize_).toNat = n) :
    Starved conf ((wear conf t n).foldl (step conf) pool) := by
  obtain ⟨hidle, hout⟩ := List.append_eq_nil_iff.1 hlive
  induction n generalizing pool t with
  | zero =>
      have hspent : pool.Spent conf := ⟨by simp [hrunning], hidle, hout, by omega⟩
      exact hspent.starved hrunning
  | succ n ih =>
      have hroom : pool.currentSize_ < conf.maxSize_ := by omega
      rw [wear, List.foldl_cons, List.foldl_cons, wear_round hmin hrunning hidle hroom]
      exact ih _ hrunning hlive (by simp only; omega) hidle hout

end lemmas

/-- **Starvation.**  With an `int` for a minimum, the pool can come to a state from which no
`getConnection` ever returns precisely when the minimum is 0, or it is negative and the maximum allows no
connection.  A steady clock does not prevent it. -/
theorem starves_iff (conf : Config) (hmin : -2 ^ 31 ≤ conf.minSize_) (hmax : conf.minSize_ < 2 ^ 31) :
    (∃ es, Steady 0 es ∧ Starved conf (es.foldl (step conf) start)) ↔
      conf.minSize_ = 0 ∨ conf.minSize_ < 0 ∧ conf.maxSize_ ≤ 0 := by
  have hup (hle : conf.minSize_ ≤ 0) :
      step conf start (.construct 0) = { start with phase := .running } := by
    simp [step, construct, start, hle]
  constructor
  · rintro ⟨es, -, hstarved⟩
    have hsupply : (es.foldl (step conf) start).Supply conf :=
      Runs.invariant_run supply_step (supply_start conf) es
    exact hsupply.of_starved hstarved hmin hmax
  · rintro (hzero | ⟨hneg, hnone⟩)
    · -- `maxSize_` connections, one after another, use the counter up
      refine ⟨.construct 0 :: wear conf 0 conf.maxSize_.toNat, ⟨Int.le_refl _, steady_wear _ _ _⟩, ?_⟩
      rw [List.foldl_cons, hup hzero.le]
      exact spent_wear hzero _ _ rfl rfl (by simp [start])
    · refine ⟨[.construct 0], ⟨Int.le_refl _, trivial⟩, ?_⟩
      rw [List.foldl_cons, hup hneg.le]
      have hspent : Spent conf { start with phase := .running } := ⟨by simp, rfl, rfl, hnone⟩
      exact hspent.starved rfl

theorem starves_iff_two :
    ∃ es, Steady 0 es ∧ Starved { minSize_ := 0, maxSize_ := 2, maxIdleTime_ := 1000 }
      (es.foldl (step { minSize_ := 0, maxSize_ := 2, maxIdleTime_ := 1000 }) start) :=
  (starves_iff { minSize_ := 0, maxSize_ := 2, maxIdleTime_ := 1000 } (by decide) (by decide)).2
    (.inl rfl)

end ConnectionPool
end Mysql
end Myoj
