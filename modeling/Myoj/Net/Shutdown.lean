import Myoj.Net.OutputStream

/-!
# Shutdown — the half close of a connection

`shutdown()` asks for the write side to be closed once everything has been sent.  The half close is
attempted in `shutdownInLoop`, and a second time in `handleWrite` when the last bytes leave
`outputBuffer_`.  The second attempt tests for `kDisconnected`, a state in which no write interest is
left, so it is never made: a connection that still had bytes to send when `shutdownInLoop` ran stays
half open.

`Closing` is what a run is judged by; `graceful_iff` characterises the runs on which the shutdown
works as intended.
-/

namespace Myoj
namespace Net

def Action.halfClose : Action → Option Bytes
  | .shutdownWrite unsent => some unsent
  | _ => none

/-- Where the half close stands: whether a `shutdownInLoop` functor is queued, and the bytes that
were still unsent at each `shutdownWrite` made so far. -/
structure Closing where
  queued : Bool
  halfCloses : List Bytes

namespace TcpConnection

def closing (c : TcpConnection) : Closing where
  queued := c.pendingFunctors_.contains .shutdownInLoop
  halfCloses := c.log.filterMap Action.halfClose

/-! ## Only `shutdown` and its functor touch the half close -/

section closing

variable (c : TcpConnection) (data : Bytes) (r : WriteResult)

theorem closing_queueIf (b : Bool) {f : Functor} (hf : f ≠ .shutdownInLoop) :
    (c.queueIf b f).closing = c.closing := by
  cases b with
  | false =>
      rfl
  | true =>
      simp [queueIf, queueInLoop, closing, hf.symm]

theorem closing_perform {a : Action} (ha : a.halfClose = none) :
    (c.perform a).closing = c.closing := by
  simp [perform, closing, ha]

theorem closing_writeDirect : (c.writeDirect data r).1.closing = c.closing := by
  unfold writeDirect
  split
  · cases r with
    | accepted n =>
        exact (closing_queueIf _ _ (by simp)).trans (closing_perform _ rfl)
    | failed errno =>
        rfl
  · rfl

theorem closing_queueRemaining (a : Attempt) : (c.queueRemaining data a).closing = c.closing := by
  simp only [queueRemaining]
  split
  · split
    · exact closing_queueIf _ _ (by simp)
    · exact closing_queueIf _ _ (by simp)
  · rfl

theorem closing_sendInLoop : (c.sendInLoop data r).closing = c.closing := by
  unfold sendInLoop
  split
  · rfl
  · exact (closing_queueRemaining _ _ _).trans (closing_writeDirect _ _ _)

theorem closing_handleWrite (hstate : c.state_ ≠ .kDisconnected) :
    (c.handleWrite r).closing = c.closing := by
  cases r with
  | failed errno =>
      simp [handleWrite]
  | accepted k =>
      -- the retry in `outputDrained` is for `kDisconnected` only
      have hdrained : ∀ x : TcpConnection, x.state_ ≠ .kDisconnected →
          x.outputDrained.closing = x.closing := by
        intro x hx
        have hstay : ¬ (x.disableWriting.queueIf x.disableWriting.writeCompleteCallback_
            .writeCompleteCallback).state_ = .kDisconnected := by
          simpa [disableWriting] using hx
        simp only [outputDrained, if_neg hstay]
        exact closing_queueIf _ _ (by simp)
      simp only [handleWrite]
      split
      · split
        · split
          · refine (hdrained _ ?_).trans ?_
            · exact hstate
            · exact closing_perform c (a := .write _) rfl
          · exact closing_perform c (a := .write _) rfl
        · rfl
      · rfl

/-- The half close goes through precisely when no write interest is registered. -/
theorem closing_shutdownInLoop :
    c.shutdownInLoop.closing =
      { c.closing with
        halfCloses := c.closing.halfCloses ++
          if c.outbox.writing then [] else [c.outbox.queued] } := by
  cases h : c.channel_.isWriting <;>
    simp [shutdownInLoop, perform, closing, outbox, h, Action.halfClose]

end closing

end TcpConnection

/-! ## Runs of `send`, `shutdown` and `handleWrite` -/

/-- Calls from the loop thread and from other threads, write events, and the loop running its next
functor.  A caller may assign its variables at any time. -/
inductive CloseEvent
  | assign (ref : Nat) (value : Bytes)
  | send (payload : Bytes) (r : WriteResult)
  | sendFromOtherThread (arg : SendArg) (ref : Nat)
  | shutdown (isInLoopThread : Bool)
  | handleWrite (r : WriteResult)
  | runPending (r : WriteResult)

/-- The connection, and whether `shutdown()` has been called on it while it was `kConnected`. -/
structure CloseRun where
  conn : TcpConnection
  asked : Bool

namespace CloseRun

open TcpConnection

def start (callbacks : Callbacks) (highWaterMark : Nat) (vars : Nat → Bytes) : CloseRun :=
  ⟨(TcpConnection.new callbacks highWaterMark vars).connectEstablished, false⟩

def step (s : CloseRun) : CloseEvent → CloseRun
  | .assign ref value => { s with conn := s.conn.setVar ref value }
  | .send payload r => { s with conn := s.conn.send payload r }
  | .sendFromOtherThread arg ref => { s with conn := s.conn.sendFromOtherThread arg ref }
  | .shutdown b => ⟨s.conn.shutdown b, s.asked || s.conn.state_ = .kConnected⟩
  | .handleWrite r => { s with conn := s.conn.handleWrite r }
  | .runPending r => { s with conn := s.conn.runPending r }

/-- No half close has cut off unsent bytes; and once `shutdown()` was called, its functor has run, no
close has occurred and nothing is left to send, the half close has been made. -/
def Graceful (s : CloseRun) : Prop :=
  (∀ unsent ∈ s.conn.closing.halfCloses, unsent = []) ∧
    (s.asked = true → s.conn.closing.queued = false → s.conn.state_ ≠ .kDisconnected →
      s.conn.outbox.idle → s.conn.closing.halfCloses ≠ [])

/-- A write event that takes the last held bytes of a connection being shut down finds the half
close made already, or its functor still queued. -/
def LeavesClosing (s : CloseRun) : CloseEvent → Prop
  | .handleWrite (.accepted n) =>
      s.conn.state_ = .kDisconnecting → s.conn.channel_.isWriting = true →
        s.conn.outputBuffer_.readable ≠ [] → s.conn.outputBuffer_.readable.length ≤ n →
          s.conn.closing.queued = true ∨ s.conn.closing.halfCloses ≠ []
  | _ => True

/-- What every run keeps: without write interest nothing is held back, and a connection is
`kDisconnecting` from the call of `shutdown()` on. -/
structure Inv (s : CloseRun) : Prop where
  quiet : s.conn.outbox.writing = false → s.conn.outbox.queued = []
  phase : s.conn.state_ = if s.asked then .kDisconnecting else .kConnected

section steps

variable (s : CloseRun)

theorem quiet_offer {o : Outbox} (h : o.writing = false → o.queued = []) (data : Bytes)
    (r : WriteResult) : (o.offer data r).writing = false → (o.offer data r).queued = [] := by
  by_cases hidle : o.idle
  · cases r with
    | failed errno =>
        simpa [Outbox.offer, hidle] using h
    | accepted n =>
        simp [Outbox.offer, hidle, List.drop_eq_nil_iff]
  · rwa [Outbox.offer_of_not_idle hidle]

theorem quiet_drain {o : Outbox} (h : o.writing = false → o.queued = []) (r : WriteResult) :
    (o.drain r).writing = false → (o.drain r).queued = [] := by
  cases r with
  | failed errno =>
      exact h
  | accepted n =>
      simp only [Outbox.drain]
      split
      · simp [List.drop_eq_nil_iff]
      · exact h

/-- Draining leaves nothing behind just when nothing was held or everything is taken. -/
theorem idle_drain_iff (o : Outbox) (n : Nat) :
    (o.drain (.accepted n)).idle ↔
      o.idle ∨ o.writing = true ∧ o.queued ≠ [] ∧ o.queued.length ≤ n := by
  have hpos : o.queued ≠ [] ↔ 0 < o.queued.length := List.length_pos_iff.symm
  -- the drain takes something, or leaves everything as it is
  by_cases hdrain : o.writing = true ∧ 0 < min n o.queued.length
  · have hheld : o.queued ≠ [] := hpos.2 (by omega)
    simp [Outbox.drain, hdrain, Outbox.idle, hheld, List.drop_eq_nil_iff]
  · have hstay : o.drain (.accepted n) = o := if_neg hdrain
    have hnone : ¬ (o.writing = true ∧ o.queued ≠ [] ∧ o.queued.length ≤ n) := by
      rintro ⟨hw, hheld, hle⟩
      have := hpos.1 hheld
      exact hdrain ⟨hw, by omega⟩
    rw [hstay, or_iff_left hnone]

/-- An offer never leaves the sending side idle unless it was. -/
theorem idle_of_idle_offer {o : Outbox} {data : Bytes} {r : WriteResult}
    (h : (o.offer data r).idle) : o.idle := by
  by_contra hbusy
  rw [Outbox.offer_of_not_idle hbusy] at h
  exact hbusy h

theorem inv_start (callbacks : Callbacks) (highWaterMark : Nat) (vars : Nat → Bytes) :
    Inv (start callbacks highWaterMark vars) where
  quiet := by
    cases h : callbacks.connection <;>
      simp [start, connectEstablished, TcpConnection.new, setState, enableReading, perform, outbox, h]
  phase := OutRun.connected_start callbacks highWaterMark vars

theorem graceful_start (callbacks : Callbacks) (highWaterMark : Nat) (vars : Nat → Bytes) :
    Graceful (start callbacks highWaterMark vars) := by
  refine ⟨?_, fun h => absurd h (by simp [start])⟩
  cases h : callbacks.connection <;>
    simp [start, connectEstablished, TcpConnection.new, setState, enableReading, perform, closing, h,
      Action.halfClose]

variable {s}

theorem Inv.not_disconnected (h : Inv s) : s.conn.state_ ≠ .kDisconnected := by
  rw [h.phase]
  split <;> simp

/-- The invariant and the property look at the connection only through these observations. -/
theorem Inv.congr {c : TcpConnection} (h : Inv s) (hstate : c.state_ = s.conn.state_)
    (hout : c.outbox = s.conn.outbox) : Inv ⟨c, s.asked⟩ :=
  ⟨by simpa only [hout] using h.quiet, hstate.trans h.phase⟩

theorem Graceful.congr {c : TcpConnection} (h : s.Graceful) (hclosing : c.closing = s.conn.closing)
    (hstate : c.state_ = s.conn.state_) (hidle : c.outbox.idle → s.conn.outbox.idle) :
    Graceful ⟨c, s.asked⟩ := by
  refine ⟨by simpa only [hclosing] using h.1, ?_⟩
  intro hasked hqueued hopen hc
  simp only [hclosing, hstate] at hqueued hopen ⊢
  exact h.2 hasked hqueued hopen (hidle hc)

theorem inv_sendInLoop (h : Inv s) (data : Bytes) (r : WriteResult) :
    Inv ⟨s.conn.sendInLoop data r, s.asked⟩ where
  quiet := by
    simpa only [outbox_sendInLoop _ _ _ h.not_disconnected] using quiet_offer h.quiet data r
  phase := (sendInLoop_state_ _ _ _).trans h.phase

theorem graceful_sendInLoop (hinv : Inv s) (h : s.Graceful) (data : Bytes) (r : WriteResult) :
    Graceful ⟨s.conn.sendInLoop data r, s.asked⟩ := by
  refine h.congr (closing_sendInLoop _ _ _) (sendInLoop_state_ _ _ _) ?_
  rw [outbox_sendInLoop _ _ _ hinv.not_disconnected]
  exact idle_of_idle_offer

theorem inv_shutdownInLoop (h : Inv s) : Inv ⟨s.conn.shutdownInLoop, s.asked⟩ :=
  h.congr (shutdownInLoop_state_ _) (outbox_shutdownInLoop _)

/-- `shutdownInLoop` either makes the half close with nothing unsent, or leaves it to the write
event that will empty the buffer. -/
theorem graceful_shutdownInLoop (hinv : Inv s)
    (h : ∀ unsent ∈ s.conn.closing.halfCloses, unsent = []) :
    Graceful ⟨s.conn.shutdownInLoop, s.asked⟩ := by
  cases hw : s.conn.outbox.writing with
  | true =>
      -- write interest is on, so something is held and the half close may wait
      refine ⟨by simpa [closing_shutdownInLoop, hw] using h, ?_⟩
      intro _ _ _ hidle
      simp [outbox_shutdownInLoop, Outbox.idle, hw] at hidle
  | false =>
      -- without write interest nothing is held, so nothing is cut off
      have hnothing := hinv.quiet hw
      refine ⟨?_, by simp [closing_shutdownInLoop, hw]⟩
      intro unsent hmem
      simp only [closing_shutdownInLoop, hw, hnothing, List.mem_append] at hmem
      rcases hmem with hmem | hmem
      · exact h unsent hmem
      · simpa using hmem

theorem inv_shutdown (h : Inv s) (b : Bool) : Inv (s.step (.shutdown b)) := by
  by_cases hconn : s.conn.state_ = .kConnected
  · -- the call moves the connection on, then closes at once or queues its functor
    have hmoved : Inv ⟨s.conn.setState .kDisconnecting, true⟩ := ⟨h.quiet, rfl⟩
    cases b with
    | true =>
        simpa [step, shutdown, hconn] using inv_shutdownInLoop hmoved
    | false =>
        have hqueued : Inv ⟨(s.conn.setState .kDisconnecting).queueInLoop .shutdownInLoop, true⟩ :=
          hmoved.congr rfl rfl
        simpa [step, shutdown, hconn] using hqueued
  · simpa [step, shutdown, hconn] using h

theorem graceful_shutdown (hinv : Inv s) (h : s.Graceful) (b : Bool) :
    (s.step (.shutdown b)).Graceful := by
  by_cases hconn : s.conn.state_ = .kConnected
  · have hmoved : Inv ⟨s.conn.setState .kDisconnecting, true⟩ := ⟨hinv.quiet, rfl⟩
    cases b with
    | true =>
        simpa [step, shutdown, hconn] using graceful_shutdownInLoop hmoved h.1
    | false =>
        -- the functor is queued, and the property waits for it
        have hqueued : (queueInLoop (s.conn.setState .kDisconnecting)
            .shutdownInLoop).closing.queued = true := by
          simp [closing, queueInLoop]
        simp only [step, shutdown, hconn]
        refine ⟨h.1, fun _ hno => ?_⟩
        simp [hqueued] at hno
  · simpa [step, shutdown, hconn] using h

/-- Taking another functor off the queue does not change where the half close stands. -/
theorem graceful_pop (h : s.Graceful) {f : Functor} {fs : List Functor}
    (hp : s.conn.pendingFunctors_ = f :: fs) (hf : f ≠ .shutdownInLoop) :
    Graceful ⟨{ s.conn with pendingFunctors_ := fs }, s.asked⟩ := by
  refine h.congr ?_ rfl id
  simp [closing, hp, hf.symm]

theorem inv_runFunctor (h : Inv s) (f : Functor) (r : WriteResult) :
    Inv ⟨s.conn.runFunctor f r, s.asked⟩ := by
  cases f with
  | sendInLoop arg ref =>
      cases arg with
      | string =>
          exact inv_sendInLoop h _ r
      | buffer =>
          exact inv_sendInLoop (s := ⟨s.conn.setVar ref [], s.asked⟩) (h.congr rfl rfl) _ r
  | shutdownInLoop =>
      exact inv_shutdownInLoop h
  | writeCompleteCallback =>
      exact h.congr rfl (by simp [runFunctor, Action.bytesWritten])
  | highWaterMarkCallback size =>
      exact h.congr rfl (by simp [runFunctor, Action.bytesWritten])

theorem graceful_runFunctor (hinv : Inv s) (h : s.Graceful) (f : Functor) (r : WriteResult) :
    Graceful ⟨s.conn.runFunctor f r, s.asked⟩ := by
  cases f with
  | sendInLoop arg ref =>
      cases arg with
      | string =>
          exact graceful_sendInLoop hinv h _ r
      | buffer =>
          exact graceful_sendInLoop (s := ⟨s.conn.setVar ref [], s.asked⟩)
            (hinv.congr rfl rfl) (h.congr rfl rfl id) _ r
  | shutdownInLoop =>
      exact graceful_shutdownInLoop hinv h.1
  | writeCompleteCallback =>
      exact h.congr (closing_perform _ rfl) rfl (by simp [runFunctor, Outbox.idle])
  | highWaterMarkCallback size =>
      exact h.congr (closing_perform _ rfl) rfl (by simp [runFunctor, Outbox.idle])

theorem inv_step (s : CloseRun) (e : CloseEvent) (h : Inv s) : Inv (s.step e) := by
  cases e with
  | assign ref value =>
      exact h.congr rfl rfl
  | send payload r =>
      simp only [step, send]
      split
      · exact inv_sendInLoop h payload r
      · exact h
  | sendFromOtherThread arg ref =>
      simp only [step, sendFromOtherThread]
      split
      · exact h.congr rfl rfl
      · exact h
  | shutdown b =>
      exact inv_shutdown h b
  | handleWrite r =>
      refine ⟨?_, (handleWrite_state_ _ _).trans h.phase⟩
      simpa only [step, outbox_handleWrite] using quiet_drain h.quiet r
  | runPending r =>
      simp only [step, runPending]
      split
      · exact h
      · next f fs hp =>
        have hpopped : Inv ⟨{ s.conn with pendingFunctors_ := fs }, s.asked⟩ := h.congr rfl rfl
        exact inv_runFunctor hpopped f r

theorem graceful_runPending (hinv : Inv s) (h : s.Graceful) (r : WriteResult) :
    (s.step (.runPending r)).Graceful := by
  simp only [step, runPending]
  split
  · exact h
  · next f fs hp =>
    have hpopped : Inv ⟨{ s.conn with pendingFunctors_ := fs }, s.asked⟩ := hinv.congr rfl rfl
    by_cases hf : f = .shutdownInLoop
    · subst hf
      exact graceful_shutdownInLoop hpopped h.1
    · exact graceful_runFunctor hpopped (graceful_pop h hp hf) f r

/-- A write event keeps the property precisely when it does not strand the half close. -/
theorem graceful_handleWrite_iff (hinv : Inv s) (h : s.Graceful) (r : WriteResult) :
    (s.step (.handleWrite r)).Graceful ↔ s.LeavesClosing (.handleWrite r) := by
  have hopen := hinv.not_disconnected
  cases r with
  | failed errno =>
      exact iff_of_true (h.congr (closing_handleWrite _ _ hopen) (handleWrite_state_ _ _)
        (by simp [outbox_handleWrite, Outbox.drain])) trivial
  | accepted n =>
      simp only [Graceful, LeavesClosing, step, closing_handleWrite _ _ hopen, handleWrite_state_,
        outbox_handleWrite, idle_drain_iff]
      constructor
      · rintro ⟨-, hafter⟩ hstate hwriting hheld hall
        -- the event strands the half close: it is neither made nor queued any more
        have hasked : s.asked = true := by
          by_contra hno
          simp [hinv.phase, hno] at hstate
        by_contra hstranded
        rw [not_or, Bool.not_eq_true] at hstranded
        exact hstranded.2 (hafter hasked hstranded.1 hopen (.inr ⟨hwriting, hheld, hall⟩))
      · intro hguard
        refine ⟨h.1, ?_⟩
        intro hasked hqueued _ hdrained
        -- idle before the event, or made idle by it
        rcases hdrained with hidle | ⟨hwriting, hheld, hall⟩
        · exact h.2 hasked hqueued hopen hidle
        · have hstate : s.conn.state_ = .kDisconnecting := by simp [hinv.phase, hasked]
          exact (hguard hstate hwriting hheld hall).resolve_left (by simp [hqueued])

theorem graceful_step_iff (s : CloseRun) (e : CloseEvent) (hinv : Inv s) (h : s.Graceful) :
    (s.step e).Graceful ↔ s.LeavesClosing e := by
  cases e with
  | assign ref value =>
      exact iff_of_true (h.congr rfl rfl id) trivial
  | send payload r =>
      refine iff_of_true ?_ trivial
      simp only [step, send]
      split
      · exact graceful_sendInLoop hinv h payload r
      · exact h
  | sendFromOtherThread arg ref =>
      refine iff_of_true ?_ trivial
      simp only [step, sendFromOtherThread]
      split
      · exact h.congr (by simp [closing, queueInLoop]) rfl id
      · exact h
  | shutdown b =>
      exact iff_of_true (graceful_shutdown hinv h b) trivial
  | handleWrite r =>
      exact graceful_handleWrite_iff hinv h r
  | runPending r =>
      exact iff_of_true (graceful_runPending hinv h r) trivial

end steps

/-- A run shuts down gracefully in every state of it if and only if no write event of the run takes
the last held bytes behind the back of the half close. -/
theorem graceful_iff (callbacks : Callbacks) (highWaterMark : Nat) (vars : Nat → Bytes)
    (es : List CloseEvent) :
    Runs.Throughout step Graceful (start callbacks highWaterMark vars) es ↔
      Runs.Guarded step LeavesClosing (start callbacks highWaterMark vars) es :=
  (Runs.guarded_iff_throughout inv_step graceful_step_iff (inv_start callbacks highWaterMark vars)
    (graceful_start callbacks highWaterMark vars)).symm

/-- A partial write, then `shutdown()`, then the drain: everything is sent, every functor has run,
and the half close is never made. -/
theorem half_close_never_made :
    let s := [.send (bytes "ab") (.accepted 1), .shutdown true, .handleWrite (.accepted 1),
      .runPending (.accepted 0)].foldl step (start ⟨true, true, true⟩ 67108864 (fun _ => []))
    s.asked = true ∧ s.conn.pendingFunctors_ = [] ∧ s.conn.state_ = .kDisconnecting ∧
      s.conn.outputBuffer_.readable = [] ∧ s.conn.channel_.isWriting = false ∧
      s.conn.closing.halfCloses = [] := by
  decide +kernel

end CloseRun
end Net
end Myoj
