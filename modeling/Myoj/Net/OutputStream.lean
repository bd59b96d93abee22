import Myoj.Lib.Runs
import Myoj.Net.TcpConnection

/-!
# OutputStream — what a connection has sent and what it still holds

`Outbox` is the abstract sending side: the bytes the kernel took, the bytes still held, and the write
interest.  `Outbox.offer` and `Outbox.drain` are the abstract `sendInLoop` and `handleWrite`; the
`outbox_*` theorems say that the connection implements them.

The stream property compares the two byte strings with the payloads passed to `send`.  A payload goes
through `offer` untouched only when it is written directly: otherwise `remaining` keeps its initial
value `0` and nothing of the payload is queued.
-/

namespace Myoj
namespace Net

/-- The abstract sending side. -/
structure Outbox where
  written : Bytes
  queued : Bytes
  writing : Bool

namespace Outbox

def idle (o : Outbox) : Prop := o.writing = false ∧ o.queued = []

instance (o : Outbox) : Decidable o.idle := inferInstanceAs (Decidable (_ ∧ _))

/-- A payload is offered to the kernel if nothing is held back, and forgotten otherwise. -/
def offer (o : Outbox) (data : Bytes) (r : WriteResult) : Outbox :=
  if o.idle then
    match r with
    | .accepted n => ⟨o.written ++ data.take n, data.drop n, decide (n < data.length)⟩
    | .failed _ => o
  else o

theorem offer_of_not_idle {o : Outbox} (h : ¬ o.idle) (data : Bytes) (r : WriteResult) :
    o.offer data r = o := by
  simp [offer, h]

/-- The kernel takes some of the held bytes. -/
def drain (o : Outbox) (r : WriteResult) : Outbox :=
  match r with
  | .accepted n =>
      if o.writing = true ∧ 0 < min n o.queued.length then
        ⟨o.written ++ o.queued.take n, o.queued.drop n, decide (n < o.queued.length)⟩
      else o
  | .failed _ => o

end Outbox

def Action.bytesWritten : Action → Bytes
  | .write bs => bs
  | _ => []

namespace TcpConnection

/-- The bytes the kernel has accepted so far. -/
def written (c : TcpConnection) : Bytes := c.log.flatMap Action.bytesWritten

def outbox (c : TcpConnection) : Outbox :=
  ⟨c.written, c.outputBuffer_.readable, c.channel_.isWriting⟩

/-! ## The connection implements the outbox -/

section outbox

variable (c : TcpConnection) (data : Bytes) (r : WriteResult)

@[simp] theorem queueIf_state_ (b : Bool) (f : Functor) : (c.queueIf b f).state_ = c.state_ := by
  cases b <;> rfl

@[simp] theorem queueIf_channel_ (b : Bool) (f : Functor) :
    (c.queueIf b f).channel_ = c.channel_ := by
  cases b <;> rfl

@[simp] theorem outbox_queueIf (b : Bool) (f : Functor) : (c.queueIf b f).outbox = c.outbox := by
  cases b <;> rfl

@[simp] theorem outbox_perform (a : Action) :
    (c.perform a).outbox = { c.outbox with written := c.outbox.written ++ a.bytesWritten } := by
  simp [outbox, perform, written]

@[simp] theorem outbox_appendOutput :
    (c.appendOutput data).outbox = { c.outbox with queued := c.outbox.queued ++ data } := by
  simp [outbox, appendOutput, written]

@[simp] theorem outbox_retrieveOutput (n : Nat) :
    (c.retrieveOutput n).outbox = { c.outbox with queued := c.outbox.queued.drop n } := by
  simp [outbox, retrieveOutput, written]

@[simp] theorem outbox_enableWriting :
    c.enableWriting.outbox = { c.outbox with writing := true } := rfl

@[simp] theorem outbox_disableWriting :
    c.disableWriting.outbox = { c.outbox with writing := false } := rfl

theorem outbox_shutdownInLoop : c.shutdownInLoop.outbox = c.outbox := by
  unfold shutdownInLoop
  split
  · simp [Action.bytesWritten]
  · rfl

@[simp] theorem outbox_outputDrained :
    c.outputDrained.outbox = { c.outbox with writing := false } := by
  simp only [outputDrained]
  split <;> simp [outbox_shutdownInLoop]

theorem idle_iff :
    c.outbox.idle ↔ (!c.channel_.isWriting && c.outputBuffer_.readableBytes == 0) = true := by
  rw [Outbox.idle, outbox, Buffer.readable_eq_nil_iff]
  simp

/-- With data held back or write interest on, `sendInLoop` drops its payload. -/
theorem sendInLoop_of_not_idle (h : ¬ c.outbox.idle) : c.sendInLoop data r = c := by
  rw [idle_iff] at h
  simp [sendInLoop, writeDirect, h, queueRemaining]

/-- So does a failed direct write, whatever the error. -/
theorem sendInLoop_failed (errno : Errno) : c.sendInLoop data (.failed errno) = c := by
  simp only [sendInLoop, writeDirect]
  split
  · rfl
  · split <;> simp [queueRemaining]

theorem outbox_queueRemaining (a : Attempt) (hfault : a.faultError = false) :
    (c.queueRemaining data a).outbox =
      { c.outbox with
        queued := c.outbox.queued ++ (data.drop a.nwrote).take a.remaining
        writing := c.outbox.writing || decide (0 < a.remaining) } := by
  unfold queueRemaining
  by_cases hrem : 0 < a.remaining
  · simp only [hfault, hrem, Bool.not_false, decide_true, Bool.and_true, if_true]
    split
    · simp
    · next hw =>
      have hwriting : c.outbox.writing = true := by
        simpa [outbox, appendOutput] using hw
      simp [hwriting]
  · have hzero : a.remaining = 0 := by omega
    simp [hzero]

/-- `sendInLoop` offers its payload to the abstract sending side. -/
theorem outbox_sendInLoop (hstate : c.state_ ≠ .kDisconnected) :
    (c.sendInLoop data r).outbox = c.outbox.offer data r := by
  by_cases hidle : c.outbox.idle
  · cases r with
    | failed errno =>
        simp [sendInLoop_failed, Outbox.offer]
    | accepted n =>
        have hfree := (idle_iff c).1 hidle
        have hrest : (data.drop (min n data.length)).take (data.length - min n data.length) =
            data.drop n := by
          rcases Nat.le_total n data.length with hn | hn
          · rw [Nat.min_eq_left hn, List.take_of_length_le (by simp)]
          · simp [Nat.min_eq_right hn, List.drop_of_length_le hn]
        simp only [sendInLoop, if_neg hstate, writeDirect, if_pos hfree]
        rw [outbox_queueRemaining _ _ _ rfl]
        simp [Outbox.offer, hidle, hidle.1, hidle.2, Action.bytesWritten, hrest]
  · rw [sendInLoop_of_not_idle _ _ _ hidle, Outbox.offer_of_not_idle hidle]

theorem outbox_send (hstate : c.state_ = .kConnected) :
    (c.send data r).outbox = c.outbox.offer data r := by
  rw [send, if_pos hstate, outbox_sendInLoop _ _ _ (by simp [hstate])]

/-- `handleWrite` drains the abstract sending side. -/
theorem outbox_handleWrite : (c.handleWrite r).outbox = c.outbox.drain r := by
  cases r with
  | failed errno =>
      simp [handleWrite, Outbox.drain]
  | accepted k =>
      have hlen : c.outputBuffer_.readableBytes = c.outbox.queued.length :=
        (Buffer.length_readable _).symm
      by_cases hdrain : c.outbox.writing = true ∧ 0 < min k c.outbox.queued.length
      · have hwriting : c.channel_.isWriting = true := hdrain.1
        -- the buffer is seen through its readable bytes
        have hdone : ∀ x : TcpConnection, (x.outputBuffer_.readableBytes == 0) = true ↔
            x.outbox.queued = [] := by
          intro x
          rw [beq_iff_eq, ← Buffer.readable_eq_nil_iff]
          rfl
        have hempty : c.outbox.queued.drop (min k c.outbox.queued.length) = [] ↔
            ¬ k < c.outbox.queued.length := by
          rw [List.drop_eq_nil_iff]
          omega
        have htake : c.outputBuffer_.readable = c.outbox.queued := rfl
        simp only [handleWrite, if_pos hwriting, hlen, if_pos hdrain.2, Outbox.drain, if_pos hdrain,
          hdone, outbox_retrieveOutput, outbox_perform, hempty, htake]
        -- part of what is held goes out, or all of it and the write interest with it
        by_cases hk : k < c.outbox.queued.length
        · simp [hk, hdrain.1, Nat.min_eq_left hk.le, Action.bytesWritten]
        · have hall : c.outbox.queued.length ≤ k := Nat.le_of_not_lt hk
          simp [hk, Nat.min_eq_right hall, Action.bytesWritten, List.take_of_length_le hall,
            List.drop_of_length_le hall]
      -- without write interest, or with nothing taken, the event changes nothing
      · have hstay : c.handleWrite (.accepted k) = c := by
          simp only [handleWrite, hlen]
          split
          · next hwriting => exact if_neg fun hpos => hdrain ⟨hwriting, hpos⟩
          · rfl
        rw [hstay, Outbox.drain, if_neg hdrain]

@[simp] theorem sendInLoop_state_ : (c.sendInLoop data r).state_ = c.state_ := by
  by_cases hidle : c.outbox.idle
  · cases r with
    | failed errno =>
        rw [sendInLoop_failed]
    | accepted n =>
        have hfree := (idle_iff c).1 hidle
        simp only [sendInLoop, writeDirect, if_pos hfree]
        split
        · rfl
        · simp only [queueRemaining]
          split
          · split <;> simp [enableWriting, appendOutput, perform]
          · simp [perform]
  · rw [sendInLoop_of_not_idle _ _ _ hidle]

@[simp] theorem shutdownInLoop_state_ : c.shutdownInLoop.state_ = c.state_ := by
  unfold shutdownInLoop
  split <;> rfl

@[simp] theorem handleWrite_state_ : (c.handleWrite r).state_ = c.state_ := by
  cases r with
  | failed errno =>
      simp [handleWrite]
  | accepted k =>
      simp only [handleWrite, outputDrained]
      repeat' split
      all_goals simp [retrieveOutput, perform, disableWriting]

end outbox

end TcpConnection

/-! ## Runs of `send` and `handleWrite` -/

/-- An event on the loop thread, with what the kernel answers: the count it accepts, or `none` for
`EWOULDBLOCK`. -/
inductive OutEvent
  | send (payload : Bytes) (kernel : Option Nat)
  | handleWrite (kernel : Option Nat)
  deriving DecidableEq, Repr

def writeResult : Option Nat → WriteResult
  | some n => .accepted n
  | none => .failed .EWOULDBLOCK

/-- The connection, and the concatenation of the payloads passed to `send` so far. -/
structure OutRun where
  conn : TcpConnection
  payloads : Bytes

namespace OutRun

/-- A connection that has just been established. -/
def start (callbacks : Callbacks) (highWaterMark : Nat) (vars : Nat → Bytes) : OutRun :=
  ⟨(TcpConnection.new callbacks highWaterMark vars).connectEstablished, []⟩

def step (s : OutRun) : OutEvent → OutRun
  | .send payload k => ⟨s.conn.send payload (writeResult k), s.payloads ++ payload⟩
  | .handleWrite k => ⟨s.conn.handleWrite (writeResult k), s.payloads⟩

/-- Nothing is dropped, duplicated or reordered. -/
def Intact (s : OutRun) : Prop := s.conn.written ++ s.conn.outputBuffer_.readable = s.payloads

instance (s : OutRun) : Decidable s.Intact := inferInstanceAs (Decidable (_ = _))

/-- A `send` that the connection carries out: an empty payload, or nothing held back, no write
interest and a `::write` that does not fail. -/
def CarriedOut (s : OutRun) : OutEvent → Prop
  | .send payload k =>
      payload = [] ∨
        s.conn.channel_.isWriting = false ∧ s.conn.outputBuffer_.readable = [] ∧ k ≠ none
  | .handleWrite _ => True

theorem connected_start (callbacks : Callbacks) (highWaterMark : Nat) (vars : Nat → Bytes) :
    (start callbacks highWaterMark vars).conn.state_ = .kConnected := by
  simp only [start, TcpConnection.connectEstablished]
  split <;> rfl

theorem intact_start (callbacks : Callbacks) (highWaterMark : Nat) (vars : Nat → Bytes) :
    (start callbacks highWaterMark vars).Intact := by
  cases h : callbacks.connection <;>
    simp [start, Intact, TcpConnection.connectEstablished, TcpConnection.new, TcpConnection.setState,
      TcpConnection.enableReading, TcpConnection.perform, TcpConnection.written, h,
      Action.bytesWritten]

theorem connected_step (s : OutRun) (e : OutEvent) (h : s.conn.state_ = .kConnected) :
    (s.step e).conn.state_ = .kConnected := by
  cases e with
  | send payload k =>
      simp [step, TcpConnection.send, h]
  | handleWrite k =>
      simp [step, h]

/-- On the abstract side, offering a payload keeps the stream intact exactly when nothing of the
payload is lost. -/
theorem offer_stream_iff (o : Outbox) (payload : Bytes) (k : Option Nat) :
    (o.offer payload (writeResult k)).written ++ (o.offer payload (writeResult k)).queued =
        o.written ++ o.queued ++ payload ↔
      payload = [] ∨ o.writing = false ∧ o.queued = [] ∧ k ≠ none := by
  by_cases hidle : o.idle
  · cases k with
    | none =>
        simp [writeResult, Outbox.offer]
    | some n =>
        simp [writeResult, Outbox.offer, hidle, hidle.1, hidle.2]
  · have hlost : ¬ (o.writing = false ∧ o.queued = [] ∧ k ≠ none) :=
      fun h => hidle ⟨h.1, h.2.1⟩
    simp [Outbox.offer_of_not_idle hidle, hlost]

/-- Draining moves bytes from the queue to the kernel, in order. -/
theorem drain_stream (o : Outbox) (r : WriteResult) :
    (o.drain r).written ++ (o.drain r).queued = o.written ++ o.queued := by
  unfold Outbox.drain
  split
  · split
    · simp
    · rfl
  · rfl

theorem intact_iff (s : OutRun) :
    s.Intact ↔ s.conn.outbox.written ++ s.conn.outbox.queued = s.payloads := Iff.rfl

/-- One step keeps the stream intact precisely when the event is carried out. -/
theorem intact_step_iff (s : OutRun) (e : OutEvent) (hconn : s.conn.state_ = .kConnected)
    (h : s.Intact) : (s.step e).Intact ↔ s.CarriedOut e := by
  rw [intact_iff] at h ⊢
  cases e with
  | send payload k =>
      simp only [step, TcpConnection.outbox_send _ _ _ hconn, ← h, offer_stream_iff]
      rfl
  | handleWrite k =>
      simp only [step, TcpConnection.outbox_handleWrite, drain_stream, CarriedOut, h]

/-- The outgoing byte stream of a run is intact in every state of it if and only if every `send` of
the run is carried out. -/
theorem stream_intact_iff (callbacks : Callbacks) (highWaterMark : Nat) (vars : Nat → Bytes)
    (es : List OutEvent) :
    Runs.Throughout step Intact (start callbacks highWaterMark vars) es ↔
      Runs.Guarded step CarriedOut (start callbacks highWaterMark vars) es :=
  (Runs.guarded_iff_throughout (I := fun s => s.conn.state_ = .kConnected) connected_step
    intact_step_iff (connected_start callbacks highWaterMark vars)
    (intact_start callbacks highWaterMark vars)).symm

/-- After a partial write of the first payload, the second one is gone. -/
theorem stream_not_intact :
    ¬ Runs.Throughout step Intact (start ⟨true, true, true⟩ 67108864 (fun _ => []))
      [.send (bytes "ab") (some 1), .send (bytes "c") (some 1), .handleWrite (some 1)] := by
  decide +kernel

end OutRun
end Net
end Myoj
