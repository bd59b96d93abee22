import Myoj.Net.WriteInterest

/-!
# Payloads — a payload goes out whole or not at all

`sendInLoop` forgets the payload it cannot write at once.  A payload of which the kernel takes any part is
kept, and the next one is taken only when nothing of it is left, so that the stream is never torn inside a
payload: what has been written is the payloads that were taken, one after the other, and only the end of the
last of them can be missing.

* `Outbox.Whole` — the property on the abstract sending side, kept by `offer` and `drain`;
* `ConnRun.offered`, `ConnRun.taken` — the payloads `sendInLoop` is called with, and those it takes;
* `ConnRun.Whole`, `whole_run` — the property in every state of every run of calls.
-/

namespace Myoj
namespace Net

namespace Outbox

/-- The bytes are those of the payloads, and what is held is the end of the last. -/
structure Whole (o : Outbox) (payloads : List Bytes) : Prop where
  stream : o.written ++ o.queued = payloads.flatten
  held : o.queued <:+ payloads.getLastD []

/-- The payload is taken when nothing is held back and the kernel does not refuse it. -/
def takes (o : Outbox) (data : Bytes) : WriteResult → List Bytes
  | .accepted _ => if o.idle then [data] else []
  | .failed _ => []

variable {o : Outbox} {payloads : List Bytes}

theorem takes_of_not_idle (h : ¬ o.idle) (data : Bytes) (r : WriteResult) : o.takes data r = [] := by
  cases r with
  | accepted n =>
      exact if_neg h
  | failed errno =>
      rfl

theorem Whole.offer (h : o.Whole payloads) (data : Bytes) (r : WriteResult) :
    (o.offer data r).Whole (payloads ++ o.takes data r) := by
  by_cases hidle : o.idle
  · cases r with
    | accepted n =>
        have hstream : o.written = payloads.flatten := by
          rw [← h.stream, hidle.2, List.append_nil]
        have hoffer : o.offer data (.accepted n) =
            ⟨o.written ++ data.take n, data.drop n, decide (n < data.length)⟩ := if_pos hidle
        rw [hoffer, takes, if_pos hidle]
        constructor
        · calc o.written ++ data.take n ++ data.drop n
              = o.written ++ data := by rw [List.append_assoc, List.take_append_drop]
            _ = (payloads ++ [data]).flatten := by simp [hstream]
        · rw [List.getLastD_concat]
          exact List.drop_suffix n data
    | failed errno =>
        rw [takes, List.append_nil]
        simpa [Outbox.offer] using h
  · rw [offer_of_not_idle hidle, takes_of_not_idle hidle, List.append_nil]
    exact h

theorem Whole.drain (h : o.Whole payloads) (r : WriteResult) : (o.drain r).Whole payloads := by
  cases r with
  | accepted n =>
      simp only [Outbox.drain]
      split
      · constructor
        · rw [List.append_assoc, List.take_append_drop]
          exact h.stream
        · exact (List.drop_suffix n o.queued).trans h.held
      · exact h
  | failed errno =>
      exact h

end Outbox

/-! ## On the connection -/

namespace TcpConnection

/-- What has been written and what is held are the payloads, the last one possibly unfinished. -/
def Whole (c : TcpConnection) (payloads : List Bytes) : Prop := c.outbox.Whole payloads

/-- The payload, when `sendInLoop` takes it. -/
def takes (c : TcpConnection) (data : Bytes) (r : WriteResult) : List Bytes :=
  if c.state_ = .kDisconnected then [] else c.outbox.takes data r

section whole

variable {c : TcpConnection} {payloads : List Bytes}

theorem Whole.congr {c' : TcpConnection} (h : c.Whole payloads) (hwritten : c'.written = c.written)
    (hqueued : c'.outputBuffer_ = c.outputBuffer_) : c'.Whole payloads := by
  constructor
  · rw [outbox, hwritten, hqueued]
    exact h.stream
  · rw [outbox, hqueued]
    exact h.held

theorem Whole.append_nil (h : c.Whole payloads) : c.Whole (payloads ++ []) := by
  rw [List.append_nil]
  exact h

theorem Whole.perform (h : c.Whole payloads) {a : Action} (ha : a.bytesWritten = []) :
    (c.perform a).Whole payloads := by
  refine h.congr ?_ rfl
  simp [written, TcpConnection.perform, ha]

theorem Whole.sendInLoop (h : c.Whole payloads) (data : Bytes) (r : WriteResult) :
    (c.sendInLoop data r).Whole (payloads ++ c.takes data r) := by
  by_cases hdown : c.state_ = .kDisconnected
  · rw [takes, if_pos hdown, List.append_nil, TcpConnection.sendInLoop, if_pos hdown]
    exact h
  · rw [takes, if_neg hdown, Whole, outbox_sendInLoop _ _ _ hdown]
    exact h.offer data r

theorem Whole.handleWrite (h : c.Whole payloads) (r : WriteResult) : (c.handleWrite r).Whole payloads := by
  rw [Whole, outbox_handleWrite]
  exact h.drain r

theorem Whole.shutdownInLoop (h : c.Whole payloads) : c.shutdownInLoop.Whole payloads := by
  rw [Whole, outbox_shutdownInLoop]
  exact h

theorem Whole.shutdown (h : c.Whole payloads) (isInLoopThread : Bool) :
    (c.shutdown isInLoopThread).Whole payloads := by
  unfold TcpConnection.shutdown
  split
  · have hmoved : (c.setState .kDisconnecting).Whole payloads := h.congr rfl rfl
    cases isInLoopThread with
    | true =>
        exact hmoved.shutdownInLoop
    | false =>
        exact hmoved.congr rfl rfl
  · exact h

theorem Whole.handleClose (h : c.Whole payloads) : c.handleClose.Whole payloads := by
  have hmoved : (c.setState .kDisconnected).disableAll.Whole payloads := h.congr rfl rfl
  simp only [TcpConnection.handleClose]
  split
  · exact hmoved.perform rfl
  · exact hmoved

theorem Whole.connectDestroyed (h : c.Whole payloads) : c.connectDestroyed.Whole payloads := by
  unfold TcpConnection.connectDestroyed
  split
  · exact h.handleClose
  · exact h

theorem Whole.connectEstablished (h : c.Whole payloads) : c.connectEstablished.Whole payloads := by
  have hmoved : (c.setState .kConnected).enableReading.Whole payloads := h.congr rfl rfl
  simp only [TcpConnection.connectEstablished]
  split
  · exact hmoved.perform rfl
  · exact hmoved

theorem Whole.handleRead (h : c.Whole payloads) (n : Int) : (c.handleRead n).Whole payloads := by
  unfold TcpConnection.handleRead
  split
  · exact h
  · split
    · exact h.handleClose
    · exact h

/-- What a functor calls `sendInLoop` with. -/
def functorPayload (c : TcpConnection) : Functor → Option Bytes
  | .sendInLoop _ ref => some (c.vars ref)
  | .shutdownInLoop | .writeCompleteCallback | .highWaterMarkCallback _ => none

/-- What the functor at the head of the queue calls `sendInLoop` with. -/
def pendingPayload (c : TcpConnection) : Option Bytes := c.pendingFunctors_.head?.bind c.functorPayload

/-- What is taken of the payload, if there is one. -/
def takesOf (c : TcpConnection) (payload : Option Bytes) (r : WriteResult) : List Bytes :=
  payload.toList.flatMap fun data => c.takes data r

theorem takesOf_some (data : Bytes) (r : WriteResult) : c.takesOf (some data) r = c.takes data r := by
  simp [takesOf]

theorem Whole.runFunctor (h : c.Whole payloads) (f : Functor) (r : WriteResult) :
    (c.runFunctor f r).Whole (payloads ++ c.takesOf (c.functorPayload f) r) := by
  cases f with
  | sendInLoop arg ref =>
      rw [functorPayload, takesOf_some]
      cases arg with
      | string =>
          exact h.sendInLoop _ r
      | buffer =>
          have hemptied : (c.setVar ref []).Whole payloads := h.congr rfl rfl
          exact hemptied.sendInLoop _ r
  | shutdownInLoop =>
      exact h.shutdownInLoop.append_nil
  | writeCompleteCallback | highWaterMarkCallback size =>
      exact (h.perform rfl).append_nil

theorem Whole.runPending (h : c.Whole payloads) (r : WriteResult) :
    (c.runPending r).Whole (payloads ++ c.takesOf c.pendingPayload r) := by
  unfold TcpConnection.runPending
  split
  · next hempty =>
      rw [pendingPayload, hempty]
      simpa [takesOf] using h
  · next f fs hp =>
      have hpopped : Whole { c with pendingFunctors_ := fs } payloads := h.congr rfl rfl
      have hpayload : c.pendingPayload = c.functorPayload f := by
        rw [pendingPayload, hp]
        rfl
      rw [hpayload]
      cases f <;> exact hpopped.runFunctor _ r

end whole

end TcpConnection

/-! ## Along a run -/

namespace ConnRun

/-- The payload that `sendInLoop` is called with. -/
def offered (s : ConnRun) : ConnCall → List Bytes
  | .send buf _ => if s.conn.state_ = .kConnected then [buf] else []
  | .runPending _ => s.conn.pendingPayload.toList
  | _ => []

/-- The payload, when it is taken. -/
def taken (s : ConnRun) : ConnCall → List Bytes
  | .send buf r => if s.conn.state_ = .kConnected then s.conn.takes buf r else []
  | .runPending r => s.conn.takesOf s.conn.pendingPayload r
  | _ => []

/-- The payloads of the calls of a run, in order. -/
def along (payloads : ConnRun → ConnCall → List Bytes) : ConnRun → List ConnCall → List Bytes
  | _, [] => []
  | s, call :: calls => payloads s call ++ along payloads (s.step call) calls

/-- Of the payloads that were offered some were taken, the others left no trace. -/
structure Whole (s : ConnRun) (offered taken : List Bytes) : Prop where
  sublist : List.Sublist taken offered
  stream : s.conn.written ++ s.conn.outputBuffer_.readable = taken.flatten
  /-- Only of the last of them can anything be missing. -/
  held : s.conn.outputBuffer_.readable <:+ taken.getLastD []
  clear : s.conn.state_ ≠ .kDisconnected → s.conn.channel_.isWriting = false →
    s.conn.written = taken.flatten

theorem sublist_takes (c : TcpConnection) (data : Bytes) (r : WriteResult) :
    List.Sublist (c.takes data r) [data] := by
  unfold TcpConnection.takes
  split
  · exact List.nil_sublist _
  · cases r with
    | accepted n =>
        rw [Outbox.takes]
        split
        · exact List.Sublist.refl _
        · exact List.nil_sublist _
    | failed errno =>
        exact List.nil_sublist _

theorem sublist_taken (s : ConnRun) (call : ConnCall) : List.Sublist (s.taken call) (s.offered call) := by
  cases call with
  | send buf r =>
      simp only [taken, offered]
      split
      · exact sublist_takes _ buf r
      · exact List.Sublist.refl _
  | runPending r =>
      simp only [taken, offered]
      cases s.conn.pendingPayload with
      | none =>
          exact List.Sublist.refl _
      | some data =>
          rw [TcpConnection.takesOf_some]
          exact sublist_takes _ data r
  | _ =>
      exact List.Sublist.refl _

theorem sublist_along (s : ConnRun) (calls : List ConnCall) :
    List.Sublist (along taken s calls) (along offered s calls) := by
  induction calls generalizing s with
  | nil =>
      exact List.Sublist.refl _
  | cons call calls ih =>
      exact (sublist_taken s call).append (ih (s.step call))

/-- **One call.** -/
theorem whole_step {s : ConnRun} {payloads : List Bytes} (h : s.conn.Whole payloads) (call : ConnCall) :
    (s.step call).conn.Whole (payloads ++ s.taken call) := by
  cases call with
  | send buf r =>
      simp only [step, taken, TcpConnection.send]
      split
      · exact h.sendInLoop buf r
      · exact h.append_nil
  | runPending r =>
      exact h.runPending r
  | connectEstablished =>
      simp only [step]
      split
      · exact h.append_nil
      · exact h.connectEstablished.append_nil
  | connectDestroyed =>
      exact h.connectDestroyed.append_nil
  | handleRead n =>
      exact (h.handleRead n).append_nil
  | handleWrite r =>
      exact (h.handleWrite r).append_nil
  | handleClose =>
      exact h.handleClose.append_nil
  | sendFromOtherThread arg ref =>
      simp only [step, TcpConnection.sendFromOtherThread]
      split
      · exact (h.congr rfl rfl).append_nil
      · exact h.append_nil
  | shutdown b =>
      exact (h.shutdown b).append_nil
  | assign ref value =>
      exact (h.congr rfl rfl).append_nil

theorem whole_foldl {s : ConnRun} {payloads : List Bytes} (h : s.conn.Whole payloads) (calls : List ConnCall) :
    (calls.foldl step s).conn.Whole (payloads ++ along taken s calls) := by
  induction calls generalizing s payloads with
  | nil =>
      rw [along, List.append_nil]
      exact h
  | cons call calls ih =>
      rw [along, ← List.append_assoc]
      exact ih (whole_step h call)

/-- **A payload goes out whole or not at all, in every state of every run of calls.** -/
theorem whole_run (callbacks : Callbacks) (highWaterMark : Nat) (vars : Nat → Bytes) (calls : List ConnCall) :
    (calls.foldl step (start callbacks highWaterMark vars)).Whole
      (along offered (start callbacks highWaterMark vars) calls)
      (along taken (start callbacks highWaterMark vars) calls) := by
  have hstart : (start callbacks highWaterMark vars).conn.Whole [] := ⟨rfl, List.suffix_refl _⟩
  have hwhole := whole_foldl hstart calls
  rw [List.nil_append] at hwhole
  refine ⟨sublist_along _ _, hwhole.stream, hwhole.held, ?_⟩
  intro hopen hoff
  -- without write interest nothing is held
  have htracked := tracked_run callbacks highWaterMark vars calls hopen
  have hempty : (calls.foldl step (start callbacks highWaterMark vars)).conn.outputBuffer_.readable = [] := by
    rw [Buffer.readable_eq_nil_iff]
    by_contra hsome
    have hon := htracked.2 (Nat.pos_of_ne_zero hsome)
    rw [hoff] at hon
    cases hon
  rw [← hwhole.stream]
  calc (calls.foldl step (start callbacks highWaterMark vars)).conn.written
      = (calls.foldl step (start callbacks highWaterMark vars)).conn.written ++ [] := (List.append_nil _).symm
    _ = _ := by rw [← hempty]; rfl

end ConnRun
end Net
end Myoj
