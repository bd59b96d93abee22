import Myoj.Net.Lifecycle

/-!
# WriteInterest — the interest in writing tracks the pending output

`sendInLoop` fills `outputBuffer_` and asks for write events, `handleWrite` drains it and gives the
interest up again.  As long as the connection is not disconnected, the interest is registered just when
there are bytes to be sent.

* `Outbox.Tracks` — the property on the abstract sending side, kept by `offer` and `drain`;
* `TcpConnection.Tracked` — the property of a connection;
* `ConnRun` — the calls on a connection, from its constructor on;
* `OnLoop.Tracked` — the property of a connection on its loop, where the interest is a bit of the mask
  that the poller knows, and the handlers are called by `handleEventWithGuard`.
-/

namespace Myoj
namespace Net

open Epoll (EpollPoller Polled)

namespace Outbox

/-- Write interest is on just when something is held. -/
def Tracks (o : Outbox) : Prop := o.writing = true ↔ o.queued ≠ []

variable {o : Outbox}

theorem Tracks.of_idle (h : o.idle) : o.Tracks := by
  simp [Tracks, h.1, h.2]

/-- What the kernel does not take of a payload is held, and write events are asked for. -/
theorem Tracks.offer (h : o.Tracks) (data : Bytes) (r : WriteResult) : (o.offer data r).Tracks := by
  by_cases hidle : o.idle
  · cases r with
    | accepted n =>
        simp [Tracks, Outbox.offer, hidle, List.drop_eq_nil_iff]
    | failed errno =>
        simpa [Outbox.offer, hidle] using h
  · rwa [offer_of_not_idle hidle]

/-- The interest goes with the last byte. -/
theorem Tracks.drain (h : o.Tracks) (r : WriteResult) : (o.drain r).Tracks := by
  cases r with
  | accepted n =>
      simp only [Outbox.drain]
      split
      · simp [Tracks, List.drop_eq_nil_iff]
      · exact h
  | failed errno =>
      exact h

end Outbox

namespace TcpConnection

def Tracked (c : TcpConnection) : Prop :=
  c.state_ ≠ .kDisconnected →
    (c.channel_.isWriting = true ↔ 0 < c.outputBuffer_.readableBytes)

/-- A connection that is not established yet: nobody can send on it. -/
structure Fresh (c : TcpConnection) : Prop where
  state : c.state_ ≠ .kConnected
  pending : c.pendingFunctors_ = []
  idle : c.outbox.idle

section tracked

variable {c : TcpConnection}

theorem tracked_iff (c : TcpConnection) :
    c.Tracked ↔ (c.state_ ≠ .kDisconnected → c.outbox.Tracks) := by
  have hsome : c.outbox.queued ≠ [] ↔ 0 < c.outputBuffer_.readableBytes :=
    (not_congr (Buffer.readable_eq_nil_iff _)).trans Nat.pos_iff_ne_zero.symm
  rw [Tracked, Outbox.Tracks, hsome]
  rfl

theorem tracked_of_disconnected (h : c.state_ = .kDisconnected) : c.Tracked :=
  fun hopen => absurd h hopen

/-- The property looks at the connection only through these observations. -/
theorem Tracked.congr {c' : TcpConnection} (h : c.Tracked) (hstate : c'.state_ = c.state_)
    (hout : c'.outbox = c.outbox) : c'.Tracked := by
  rw [tracked_iff] at h ⊢
  rwa [hstate, hout]

theorem Tracked.sendInLoop (h : c.Tracked) (data : Bytes) (r : WriteResult) :
    (c.sendInLoop data r).Tracked := by
  rw [tracked_iff] at h ⊢
  intro hopen
  rw [sendInLoop_state_] at hopen
  rw [outbox_sendInLoop _ _ _ hopen]
  exact (h hopen).offer data r

theorem Tracked.handleWrite (h : c.Tracked) (r : WriteResult) : (c.handleWrite r).Tracked := by
  rw [tracked_iff] at h ⊢
  intro hopen
  rw [handleWrite_state_] at hopen
  rw [outbox_handleWrite]
  exact (h hopen).drain r

theorem Tracked.shutdownInLoop (h : c.Tracked) : c.shutdownInLoop.Tracked :=
  h.congr (shutdownInLoop_state_ c) (outbox_shutdownInLoop c)

theorem Tracked.shutdown (h : c.Tracked) (isInLoopThread : Bool) :
    (c.shutdown isInLoopThread).Tracked := by
  unfold TcpConnection.shutdown
  split
  · next hstate =>
    -- the state changes, but the connection was not disconnected before
    have hmoved : (c.setState .kDisconnecting).Tracked := fun _ => h (by simp [hstate])
    cases isInLoopThread with
    | true =>
        exact hmoved.shutdownInLoop
    | false =>
        exact hmoved.congr rfl rfl
  · exact h

theorem state_handleClose (c : TcpConnection) : c.handleClose.state_ = .kDisconnected := by
  simp only [handleClose]
  split <;> rfl

theorem Tracked.connectDestroyed (h : c.Tracked) : c.connectDestroyed.Tracked := by
  unfold TcpConnection.connectDestroyed
  split
  · exact tracked_of_disconnected (state_handleClose c)
  · exact h

theorem Tracked.handleRead (h : c.Tracked) (n : Int) : (c.handleRead n).Tracked := by
  unfold TcpConnection.handleRead
  split
  · exact h
  · split
    · exact tracked_of_disconnected (state_handleClose c)
    · exact h

theorem Tracked.runFunctor (h : c.Tracked) (f : Functor) (r : WriteResult) :
    (c.runFunctor f r).Tracked := by
  cases f with
  | sendInLoop arg ref =>
      cases arg with
      | string =>
          exact h.sendInLoop _ r
      | buffer =>
          have hemptied : (c.setVar ref []).Tracked := h.congr rfl rfl
          exact hemptied.sendInLoop _ r
  | shutdownInLoop =>
      exact h.shutdownInLoop
  | writeCompleteCallback | highWaterMarkCallback size =>
      exact h.congr rfl (by simp [TcpConnection.runFunctor, Action.bytesWritten])

theorem Tracked.runPending (h : c.Tracked) (r : WriteResult) : (c.runPending r).Tracked := by
  unfold TcpConnection.runPending
  split
  · exact h
  · next f fs hp =>
    have hpopped : Tracked { c with pendingFunctors_ := fs } := h.congr rfl rfl
    exact hpopped.runFunctor f r

/-! ## Before the connection is established -/

theorem Fresh.tracked (h : c.Fresh) : c.Tracked :=
  (tracked_iff c).2 fun _ => .of_idle h.idle

theorem Fresh.handleClose (h : c.Fresh) : c.handleClose.Fresh := by
  have hidle : (c.setState .kDisconnected).disableAll.outbox.idle := ⟨rfl, h.idle.2⟩
  simp only [TcpConnection.handleClose]
  split
  · exact ⟨by simp [perform, disableAll, setState], h.pending, rfl, hidle.2⟩
  · exact ⟨by simp [disableAll, setState], h.pending, hidle⟩

theorem Fresh.connectEstablished (h : c.Fresh) : c.connectEstablished.Tracked := by
  have hidle : (c.setState .kConnected).enableReading.outbox.idle := h.idle
  rw [tracked_iff]
  intro _
  simp only [TcpConnection.connectEstablished]
  split
  · exact .of_idle ⟨hidle.1, hidle.2⟩
  · exact .of_idle hidle

end tracked

end TcpConnection

/-! ## Runs of a connection -/

/-- What is called on a connection: by its owner, by its channel, by its user on the loop thread or on
another one, and by the loop that comes to its functors.  A caller may assign its variables at any
time. -/
inductive ConnCall where
  | connectEstablished
  | connectDestroyed
  | handleRead (n : Int)
  | handleWrite (r : WriteResult)
  | handleClose
  | send (buf : Bytes) (r : WriteResult)
  | sendFromOtherThread (arg : SendArg) (ref : Nat)
  | shutdown (isInLoopThread : Bool)
  | assign (ref : Nat) (value : Bytes)
  | runPending (r : WriteResult)

/-- The connection, and whether its owner has called `connectEstablished`, which it does once. -/
structure ConnRun where
  conn : TcpConnection
  established : Bool

namespace ConnRun

def start (callbacks : Callbacks) (highWaterMark : Nat) (vars : Nat → Bytes) : ConnRun :=
  ⟨.new callbacks highWaterMark vars, false⟩

def step (s : ConnRun) : ConnCall → ConnRun
  | .connectEstablished => if s.established then s else ⟨s.conn.connectEstablished, true⟩
  | .connectDestroyed => { s with conn := s.conn.connectDestroyed }
  | .handleRead n => { s with conn := s.conn.handleRead n }
  | .handleWrite r => { s with conn := s.conn.handleWrite r }
  | .handleClose => { s with conn := s.conn.handleClose }
  | .send buf r => { s with conn := s.conn.send buf r }
  | .sendFromOtherThread arg ref => { s with conn := s.conn.sendFromOtherThread arg ref }
  | .shutdown b => { s with conn := s.conn.shutdown b }
  | .assign ref value => { s with conn := s.conn.setVar ref value }
  | .runPending r => { s with conn := s.conn.runPending r }

structure Inv (s : ConnRun) : Prop where
  tracked : s.conn.Tracked
  fresh : s.established = false → s.conn.Fresh

theorem inv_start (callbacks : Callbacks) (highWaterMark : Nat) (vars : Nat → Bytes) :
    (start callbacks highWaterMark vars).Inv := by
  have hfresh : (TcpConnection.new callbacks highWaterMark vars).Fresh :=
    ⟨by simp [TcpConnection.new], rfl, rfl, by simp [TcpConnection.outbox, TcpConnection.new]⟩
  exact ⟨hfresh.tracked, fun _ => hfresh⟩

/-- Every call keeps the property. -/
theorem tracked_step {s : ConnRun} (h : s.Inv) (call : ConnCall) : (s.step call).conn.Tracked := by
  have htracked := h.tracked
  cases call with
  | connectEstablished =>
      simp only [step]
      split
      · exact htracked
      · next hnew => exact (h.fresh (by simpa using hnew)).connectEstablished
  | connectDestroyed =>
      exact htracked.connectDestroyed
  | handleRead n =>
      exact htracked.handleRead n
  | handleWrite r =>
      exact htracked.handleWrite r
  | handleClose =>
      exact TcpConnection.tracked_of_disconnected (TcpConnection.state_handleClose s.conn)
  | send buf r =>
      simp only [step, TcpConnection.send]
      split
      · exact htracked.sendInLoop buf r
      · exact htracked
  | sendFromOtherThread arg ref =>
      simp only [step, TcpConnection.sendFromOtherThread]
      split
      · exact htracked.congr rfl rfl
      · exact htracked
  | shutdown b =>
      exact htracked.shutdown b
  | assign ref value =>
      exact htracked.congr rfl rfl
  | runPending r =>
      exact htracked.runPending r

/-- Before the connection is established a call closes it, or leaves it as it is. -/
theorem fresh_step {s : ConnRun} (h : s.Inv) (call : ConnCall)
    (hnew : (s.step call).established = false) : (s.step call).conn.Fresh := by
  have hbefore : s.established = false := by
    cases call with
    | connectEstablished =>
        simp only [step] at hnew
        split at hnew
        · exact hnew
        · cases hnew
    | _ =>
        exact hnew
  have hfresh := h.fresh hbefore
  have hoff : s.conn.channel_.isWriting = false := hfresh.idle.1
  cases call with
  | connectEstablished =>
      simp [step, hbefore] at hnew
  | connectDestroyed =>
      simpa [step, TcpConnection.connectDestroyed, hfresh.state] using hfresh
  | handleRead n =>
      simp only [step, TcpConnection.handleRead]
      split
      · exact hfresh
      · split
        · exact hfresh.handleClose
        · exact hfresh
  | handleWrite r =>
      simpa [step, TcpConnection.handleWrite, hoff] using hfresh
  | handleClose =>
      exact hfresh.handleClose
  | send buf r =>
      simpa [step, TcpConnection.send, hfresh.state] using hfresh
  | sendFromOtherThread arg ref =>
      simpa [step, TcpConnection.sendFromOtherThread, hfresh.state] using hfresh
  | shutdown b =>
      simpa [step, TcpConnection.shutdown, hfresh.state] using hfresh
  | assign ref value =>
      exact ⟨hfresh.state, hfresh.pending, hfresh.idle⟩
  | runPending r =>
      simpa [step, TcpConnection.runPending, hfresh.pending] using hfresh

theorem inv_step (s : ConnRun) (call : ConnCall) (h : s.Inv) : (s.step call).Inv :=
  ⟨tracked_step h call, fresh_step h call⟩

theorem tracked_run (callbacks : Callbacks) (highWaterMark : Nat) (vars : Nat → Bytes)
    (calls : List ConnCall) :
    (calls.foldl step (start callbacks highWaterMark vars)).conn.Tracked :=
  (Runs.invariant_run inv_step (inv_start callbacks highWaterMark vars) calls).tracked

end ConnRun

/-! ## On the loop -/

namespace Lifecycle
namespace OnLoop

section tracked

variable {ι : Type} {c : ι} {a : OnLoop ι}

def Tracked (a : OnLoop ι) : Prop :=
  a.conn.state_ ≠ .kDisconnected → (a.conn.channel_.isWriting = true ↔ a.conn.outputBuffer_ ≠ [])

theorem tracked_iff (a : OnLoop ι) :
    a.Tracked ↔ (a.conn.state_ ≠ .kDisconnected → a.outbox.Tracks) := Iff.rfl

theorem tracked_of_disconnected (h : a.conn.state_ = .kDisconnected) : a.Tracked :=
  fun hopen => absurd h hopen

/-- The mask of the channel follows the abstract sending side. -/
theorem tracked_carry {o : Outbox} (h : a.conn.state_ ≠ .kDisconnected → o.Tracks) :
    (a.carry c o).Tracked := by
  rw [tracked_iff, outbox_carry, state_carry]
  exact h

theorem Tracked.sendInLoop (h : a.Tracked) (data : Bytes) (r : WriteResult) :
    (a.sendInLoop c data r).Tracked := by
  unfold OnLoop.sendInLoop
  split
  · exact h
  · exact tracked_carry fun hopen => ((tracked_iff a).1 h hopen).offer data r

theorem Tracked.send (h : a.Tracked) (data : Bytes) (r : WriteResult) :
    (a.send c data r).Tracked := by
  unfold OnLoop.send
  split
  · exact h.sendInLoop data r
  · exact h

theorem Tracked.shutdown (h : a.Tracked) : a.shutdown.Tracked := by
  unfold OnLoop.shutdown
  split
  · next hstate => exact fun _ => h (by simp [hstate])
  · exact h

theorem tracked_handleClose (c : ι) (a : OnLoop ι) : (a.handleClose c).Tracked :=
  tracked_of_disconnected rfl

theorem Tracked.connectDestroyed (h : a.Tracked) : (a.connectDestroyed c).Tracked := by
  unfold OnLoop.connectDestroyed
  split
  · exact tracked_of_disconnected rfl
  · exact h

theorem Tracked.calls (h : a.Tracked) (calls : List UserCall) :
    (calls.foldl (userCall c) a).Tracked := by
  refine Runs.invariant_run (I := OnLoop.Tracked) ?_ h calls
  intro b call hb
  cases call with
  | send data r =>
      exact hb.send data r
  | shutdown =>
      exact hb.shutdown

theorem Tracked.handleRead (h : a.Tracked) (answers : Handling) :
    (a.handleRead c answers).Tracked := by
  unfold OnLoop.handleRead
  split
  · have hnotified : (a.notify .messageCallback).Tracked := h
    exact hnotified.calls answers.calls
  · split
    · exact tracked_handleClose c a
    · exact h

theorem Tracked.handleWrite (h : a.Tracked) (r : WriteResult) : (a.handleWrite c r).Tracked := by
  unfold OnLoop.handleWrite
  split
  · exact tracked_carry fun hopen => ((tracked_iff a).1 h hopen).drain r
  · exact h

theorem Tracked.handleEventWithGuard (h : a.Tracked) (revents : Mask) (answers : Handling) :
    (a.handleEventWithGuard c revents answers).Tracked := by
  simp only [OnLoop.handleEventWithGuard]
  -- the handlers one after the other, each where its events are reported
  have hclosed : (if closes revents then a.handleClose c else a).Tracked := by
    split
    · exact tracked_handleClose c a
    · exact h
  generalize (if closes revents then a.handleClose c else a) = b at hclosed ⊢
  have hread : (if reads revents then b.handleRead c answers else b).Tracked := by
    split
    · exact hclosed.handleRead answers
    · exact hclosed
  generalize (if reads revents then b.handleRead c answers else b) = d at hread ⊢
  split
  · exact hread.handleWrite answers.written
  · exact hread

theorem tracked_start (c : ι) (sockfd : Int) (poller : EpollPoller ι) :
    (start c sockfd poller).Tracked := by
  have hoff : (start c sockfd poller).conn.channel_.isWriting = false := by
    -- the channel is registered with an interest in reading only
    have hevents : (start c sockfd poller).conn.channel_.events_ =
        Epoll.Channel.kNoneEvent ||| Epoll.Channel.kReadEvent :=
      Polled.events_update c ⟨poller, .new sockfd⟩
        (Epoll.Channel.kNoneEvent ||| Epoll.Channel.kReadEvent)
    rw [Epoll.Channel.isWriting, hevents]
    decide
  exact fun _ => iff_of_false (by simp [hoff]) (fun hsome => hsome rfl)

theorem tracked_step [DecidableEq ι] (c : ι) (a : OnLoop ι) (e : Event) (h : a.Tracked) :
    (a.step c e).Tracked := by
  cases e with
  | poll revents =>
      simp only [step, poll]
      split <;> exact h
  | handleEvent answers =>
      simp only [step, handleEvent]
      split
      · exact h
      · next revents _ =>
        have htaken : Tracked { a with conn := { a.conn with revents_ := none } } := h
        exact htaken.handleEventWithGuard revents answers
  | send data r =>
      exact h.send data r
  | sendInLoop data r =>
      exact h.sendInLoop data r
  | shutdown =>
      exact h.shutdown
  | handleClose =>
      exact tracked_handleClose c a
  | connectDestroyed =>
      exact h.connectDestroyed

theorem tracked_run [DecidableEq ι] (c : ι) (sockfd : Int) (poller : EpollPoller ι)
    (es : List Event) : (es.foldl (step c) (start c sockfd poller)).Tracked :=
  Runs.invariant_run (tracked_step c) (tracked_start c sockfd poller) es

end tracked

end OnLoop
end Lifecycle

/-- **The interest in writing tracks the pending output**, in every state but `kDisconnected` of every
run: of a connection whose members are called in any order, and of one on its loop.  The two send alike. -/
theorem write_interest_tracks_output :
    (∀ (callbacks : Callbacks) (highWaterMark : Nat) (vars : Nat → Bytes) (calls : List ConnCall),
      (calls.foldl ConnRun.step (ConnRun.start callbacks highWaterMark vars)).conn.Tracked) ∧
    ∀ (ι : Type) [DecidableEq ι] (c : ι) (sockfd : Int) (poller : EpollPoller ι)
      (es : List Lifecycle.Event),
      (es.foldl (Lifecycle.OnLoop.step c) (Lifecycle.OnLoop.start c sockfd poller)).Tracked ∧
      ∀ (conn : TcpConnection) (a : Lifecycle.OnLoop ι), Lifecycle.OnLoop.Sees conn a →
        (∀ data r, Lifecycle.OnLoop.Sees (conn.sendInLoop data r) (a.sendInLoop c data r)) ∧
          ∀ r, Lifecycle.OnLoop.Sees (conn.handleWrite r) (a.handleWrite c r) := by
  refine ⟨ConnRun.tracked_run, fun ι _ c sockfd poller es => ⟨Lifecycle.OnLoop.tracked_run c sockfd poller es, ?_⟩⟩
  intro conn a hsees
  exact ⟨Lifecycle.OnLoop.sees_sendInLoop hsees, Lifecycle.OnLoop.sees_handleWrite hsees⟩

end Net
end Myoj
