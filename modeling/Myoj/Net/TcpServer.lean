import Myoj.Lib.Numerals
import Myoj.Net.Registration

/-!
# TcpServer — the connections of a server and the loops they live on

The base loop accepts and keeps the table `connections_`; each connection lives on an I/O loop, which is
the base loop when there is no other.  What one loop wants of another it queues as a functor.

* `Functor` — what the server puts into the queues;
* `newConnection`, `removeConnection`, `removeConnectionInLoop`, `~TcpServer`;
* `Event`, `step` — the interleavings: a loop runs its next functor, a channel is reported and handled,
  the user sends and shuts down;
* `Table` — what every step keeps of `connections_`, the queues and the log.

Connections are numbered in the order in which they are accepted; the number stands for the pointer.
Loop 0 is the base loop.  A connection whose last `shared_ptr` is gone is `freed`, and its fd closed, so
that `accept` may give it out again.
-/

namespace Myoj
namespace Net

open Epoll (EpollPoller Polled)
open Lifecycle (Connection OnLoop Handling)

namespace TcpServer

/-- What the constructor gets: the name of the server and the address it listens on. -/
structure Config where
  name_ : Bytes
  ip : UInt8 × UInt8 × UInt8 × UInt8
  port : UInt16
  deriving DecidableEq, Repr

section names

variable (conf : Config)

/-- `InetAddress::toIpPort`. -/
def Config.ipPort_ : Bytes :=
  let (a, b, c, d) := conf.ip
  Numerals.to_string a.toNat ++ bytes "." ++ (Numerals.to_string b.toNat ++ bytes ".") ++
    (Numerals.to_string c.toNat ++ bytes ".") ++ Numerals.to_string d.toNat ++
    (bytes ":" ++ Numerals.to_string conf.port.toNat)

/-- What `snprintf` leaves in a buffer of this size. -/
def snprintf (size : Nat) (text : Bytes) : Bytes := text.take (size - 1)

def connName (nextConnId_ : BitVec 32) : Bytes :=
  conf.name_ ++
    snprintf 64 (bytes "-" ++ conf.ipPort_ ++ bytes "#" ++ Numerals.to_string nextConnId_.toInt)

end names

inductive Functor where
  | connectEstablished (c : Nat)
  | connectDestroyed (c : Nat)
  | removeConnectionInLoop (c : Nat)
  deriving DecidableEq, Repr

def Functor.conn : Functor → Nat
  | .connectEstablished c => c
  | .connectDestroyed c => c
  | .removeConnectionInLoop c => c

/-- What has happened: a functor was run, an event of a connection was handled. -/
inductive Occurrence where
  | ran (f : Functor)
  | handled (c : Nat)
  deriving DecidableEq, Repr

/-- A `TcpConnection` as the server sees it. -/
structure Entry where
  name_ : Bytes
  ioLoop : Nat
  conn : Connection
  freed : Bool

inductive Phase where
  | serving
  /-- `~TcpServer` runs on the thread of a loop, or on another. -/
  | destructing (thread : Option Nat)
  deriving DecidableEq, Repr

end TcpServer

structure TcpServer where
  nextConnId_ : BitVec 32
  connections_ : Bytes → Option Nat
  entry : Nat → TcpServer.Entry
  /-- The fds that were accepted, in order. -/
  sockfds : List Int
  pendingFunctors_ : Nat → List TcpServer.Functor
  pollers : Nat → EpollPoller Nat
  phase : TcpServer.Phase
  log : List TcpServer.Occurrence

namespace TcpServer

def start : TcpServer where
  nextConnId_ := 1
  connections_ := fun _ => none
  entry := fun _ => { name_ := [], ioLoop := 0, conn := .new 0, freed := false }
  sockfds := []
  pendingFunctors_ := fun _ => []
  pollers := fun _ => .new
  phase := .serving
  log := []

section operations

variable (s : TcpServer)

def note (o : Occurrence) : TcpServer := { s with log := s.log ++ [o] }

def queueInLoop (loop : Nat) (f : Functor) : TcpServer :=
  { s with
    pendingFunctors_ := Function.update s.pendingFunctors_ loop (s.pendingFunctors_ loop ++ [f]) }

/-- Connection `c` with the poller of its loop. -/
def onLoop (c : Nat) : OnLoop Nat where
  conn := (s.entry c).conn
  poller := s.pollers (s.entry c).ioLoop

def put (c : Nat) (a : OnLoop Nat) : TcpServer :=
  { s with
    entry := Function.update s.entry c { s.entry c with conn := a.conn }
    pollers := Function.update s.pollers (s.entry c).ioLoop a.poller }

/-- The table forgets the connection, and its loop is to destroy it.  Without a server the functor is
undefined; it does nothing here. -/
def removeConnectionInLoop (c : Nat) : TcpServer :=
  if s.phase = .serving then
    let s := s.note (.ran (.removeConnectionInLoop c))
    let s := { s with connections_ := Function.update s.connections_ (s.entry c).name_ none }
    -- queued even when the caller is that loop, so that `handleClose` returns first
    s.queueInLoop (s.entry c).ioLoop (.connectDestroyed c)
  else s

def runFunctor : Functor → TcpServer
  | .connectEstablished c =>
      (s.put c ((s.onLoop c).connectEstablished c)).note (.ran (.connectEstablished c))
  | .connectDestroyed c =>
      (s.put c ((s.onLoop c).connectDestroyed c)).note (.ran (.connectDestroyed c))
  | .removeConnectionInLoop c => s.removeConnectionInLoop c

/-- `thread` is the loop whose thread makes the call, if any. -/
def runInLoop (thread : Option Nat) (loop : Nat) (f : Functor) : TcpServer :=
  if thread = some loop then s.runFunctor f else s.queueInLoop loop f

/-- `closeCallback_` of every connection, called on its loop. -/
def removeConnection (c : Nat) : TcpServer :=
  s.runInLoop (some (s.entry c).ioLoop) 0 (.removeConnectionInLoop c)

/-- A connection that was accepted and still exists. -/
def alive (c : Nat) : Bool := decide (c < s.sockfds.length) && !(s.entry c).freed

def isOpen (fd : Int) : Bool :=
  (List.range s.sockfds.length).any fun c => s.alive c && (s.entry c).conn.channel_.fd_ == fd

/-- The base loop has accepted `sockfd`, which is not the fd of another connection;
`getNextLoopByMinLoad` has chosen `ioLoop`. -/
def newConnection (conf : Config) (sockfd : Int) (ioLoop : Nat) : TcpServer :=
  if s.phase = .serving ∧ s.isOpen sockfd = false then
    let c := s.sockfds.length
    let name := connName conf s.nextConnId_
    let s : TcpServer :=
      { s with
        nextConnId_ := s.nextConnId_ + 1
        entry := Function.update s.entry c
          { name_ := name, ioLoop, conn := .new sockfd, freed := false }
        connections_ := Function.update s.connections_ name (some c)
        sockfds := s.sockfds ++ [sockfd] }
    -- the table has the connection before its loop hears of it
    s.runInLoop (some 0) ioLoop (.connectEstablished c)
  else s

/-- The loop runs the next of its functors. -/
def runPending (loop : Nat) : TcpServer :=
  match s.pendingFunctors_ loop with
  | [] => s
  | f :: fs =>
      let s := { s with pendingFunctors_ := Function.update s.pendingFunctors_ loop fs }
      s.runFunctor f

/-- How often `closeCallback_` was called in between. -/
def closeCalls (before after : Connection) : Nat :=
  (after.notices.drop before.notices.length).count .closeCallback

/-- The loop of the connection comes to its channel, if the last `poll` reported it. -/
def handleEvent (c : Nat) (h : Handling) : TcpServer :=
  if s.alive c && (s.entry c).conn.revents_.isSome then
    let a := (s.onLoop c).handleEvent c h
    let n := closeCalls (s.entry c).conn a.conn
    let s := (s.note (.handled c)).put c a
    -- `closeCallback_` is bound to `removeConnection`
    (fun s : TcpServer => s.removeConnection c)^[n] s
  else s

/-- Something else that happens to a connection on its loop. -/
def onConn (c : Nat) (f : OnLoop Nat → OnLoop Nat) : TcpServer :=
  if s.alive c then s.put c (f (s.onLoop c)) else s

/-- Nothing of the server refers to the connection any more. -/
def unreferenced (c : Nat) : Bool :=
  s.connections_ (s.entry c).name_ != some c &&
    ((s.pendingFunctors_ (s.entry c).ioLoop).all fun f => f.conn != c) &&
    ((s.pendingFunctors_ 0).all fun f => f.conn != c)

/-- The last `shared_ptr` is gone: the fd is closed, and the kernel takes it out of the epoll set. -/
def release (c : Nat) : TcpServer :=
  if s.alive c && s.unreferenced c then
    let poller := s.pollers (s.entry c).ioLoop
    let fd := (s.entry c).conn.channel_.fd_
    -- a closed fd leaves the epoll set by itself, its entry in `channels_` stays
    { s with
      entry := Function.update s.entry c { s.entry c with freed := true }
      pollers := Function.update s.pollers (s.entry c).ioLoop
        { poller with epoll := Function.update poller.epoll fd none } }
  else s

/-- One round of the loop in `~TcpServer`, over the connections in any order. -/
def destroyNext (name : Bytes) : TcpServer :=
  match s.phase, s.connections_ name with
  | .destructing thread, some c =>
      -- the pointer in the table is reset before the loop is called
      let s := { s with connections_ := Function.update s.connections_ name none }
      s.runInLoop thread (s.entry c).ioLoop (.connectDestroyed c)
  | _, _ => s

end operations

inductive Event where
  | newConnection (sockfd : Int) (ioLoop : Nat)
  | runPending (loop : Nat)
  | poll (c : Nat) (revents : Mask)
  | handleEvent (c : Nat) (h : Handling)
  | send (c : Nat) (data : Bytes) (r : WriteResult)
  /-- The functor of a `send` from another thread; it was queued by an established connection. -/
  | sendInLoop (c : Nat) (data : Bytes) (r : WriteResult)
  | shutdown (c : Nat)
  | release (c : Nat)
  | destruct (thread : Option Nat)
  | destroyNext (name : Bytes)

def step (conf : Config) (s : TcpServer) : Event → TcpServer
  | .newConnection sockfd ioLoop => s.newConnection conf sockfd ioLoop
  | .runPending loop => s.runPending loop
  | .poll c revents => s.onConn c fun a => a.poll c revents
  | .handleEvent c h => s.handleEvent c h
  | .send c data r => s.onConn c fun a => a.send c data r
  | .sendInLoop c data r =>
      if (s.entry c).conn.state_ = .kConnecting then s
      else s.onConn c fun a => a.sendInLoop c data r
  | .shutdown c => s.onConn c OnLoop.shutdown
  | .release c => s.release c
  | .destruct thread => if s.phase = .serving then { s with phase := .destructing thread } else s
  | .destroyNext name => s.destroyNext name

end TcpServer
end Net
end Myoj
