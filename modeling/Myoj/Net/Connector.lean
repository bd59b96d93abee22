import Mathlib.Data.List.Perm.Basic
import Myoj.Lib.Runs

/-!
# Connector — who owns the socket of an attempt

`connect` makes a socket; from then on it is held by the channel of the attempt, until it is passed to
`newConnectionCallback` or closed.  The functions run in the loop's thread one at a time, in any order the
caller, the poller and the queue of the loop bring about.

* `Connector`, `Event`, `step` — the code, with the answers of `::connect` and `getsockopt` as part of
  the event;
* `owners` — the places a socket is in, and `Placed`, that every socket made is in exactly one;
* `Keeps` — the steps that lose no socket;
* `keeps_iff_placed` — along a run every socket stays in its place exactly when every step is one of
  them.
-/

namespace Myoj
namespace Net

/-! ## The code -/

inductive Connector.States where
  | kDisconnected | kConnecting | kConnected
  deriving DecidableEq, Repr

/-- What `queueInLoop` is given. -/
inductive Connector.Functor where
  | startInLoop | stopInLoop | resetChannel
  deriving DecidableEq, Repr

/-- Sockets are numbered as they are made, so that a descriptor used again is another socket. -/
structure Connector.Channel where
  sockfd : Nat
  registered : Bool
  deriving DecidableEq, Repr

/-- The members of a `Connector`, the functors of its loop, and what has become of the sockets made so
far. -/
structure Connector where
  connect_ : Bool
  state_ : Connector.States
  channel_ : Option Connector.Channel
  retryDelayMs_ : Int32
  pendingFunctors_ : List Connector.Functor
  created : Nat
  delivered : List Nat
  closed : List Nat
  crashed : Bool
  deriving DecidableEq, Repr

namespace Connector

/-- The constructor leaves `connect_`, `state_` and `retryDelayMs_` as they are. -/
def new (connect_ : Bool) (state_ : States) (retryDelayMs_ : Int32) : Connector where
  connect_ := connect_
  state_ := state_
  channel_ := none
  retryDelayMs_ := retryDelayMs_
  pendingFunctors_ := []
  created := 0
  delivered := []
  closed := []
  crashed := false

def kInitRetryDelayMs : Int32 := 500

def EINTR : Int32 := 4
def EAGAIN : Int32 := 11
def EADDRINUSE : Int32 := 98
def EADDRNOTAVAIL : Int32 := 99
def ENETUNREACH : Int32 := 101
def EISCONN : Int32 := 106
def ECONNREFUSED : Int32 := 111
def EINPROGRESS : Int32 := 115

/-- What a system call reports: its result, or its `errno`. -/
abbrev Answer (α : Type) := Except Int32 α

def queueInLoop (c : Connector) (f : Functor) : Connector :=
  { c with pendingFunctors_ := c.pendingFunctors_ ++ [f] }

def setState (c : Connector) (s : States) : Connector := { c with state_ := s }

def resetChannel (c : Connector) : Connector := { c with channel_ := none }

/-- `::close` -/
def close (c : Connector) (sockfd : Nat) : Connector := { c with closed := c.closed ++ [sockfd] }

def newConnectionCallback (c : Connector) (sockfd : Nat) : Connector :=
  { c with delivered := c.delivered ++ [sockfd] }

/-- A null `channel_` is used. -/
def crash (c : Connector) : Connector := { c with crashed := true }

/-- The body is still to be written. -/
def retry (c : Connector) (_ : Nat) : Connector := c

/-- The socket of the channel, which is taken off the poller; `none` when `channel_` is null. -/
def removeAndResetChannel (c : Connector) : Option (Nat × Connector) :=
  match c.channel_ with
  | none => none
  | some channel =>
      some (channel.sockfd,
        { c with channel_ := some { channel with registered := false } }.queueInLoop .resetChannel)

/-- `connecting`; `enableWriting` registers the new channel. -/
def connecting (c : Connector) (sockfd : Nat) : Connector :=
  let c := c.setState .kConnecting
  if c.channel_.isSome then c
  else { c with channel_ := some { sockfd, registered := true } }

/-- `ret == 0 ? 0 : errno` -/
def savedErrno : Answer Unit → Int32
  | .ok () => 0
  | .error errno => errno

def connect (c : Connector) (answer : Answer Unit) : Connector :=
  let sockfd := c.created
  let c := { c with created := c.created + 1 }
  let savedErrno := savedErrno answer
  if savedErrno ||| 0 ||| EINPROGRESS ||| EINTR ||| EISCONN ≠ 0 then c.connecting sockfd
  else if savedErrno ||| EAGAIN ||| EADDRINUSE ||| EADDRNOTAVAIL ||| ENETUNREACH ≠ 0 then
    c.retry sockfd
  else c.close sockfd

def startInLoop (c : Connector) (isInLoopThread : Bool) (answer : Answer Unit) : Connector :=
  if !isInLoopThread then c
  else if c.connect_ then c.connect answer
  else c

/-- `runInLoop` calls the functor at once in the loop's own thread. -/
def start (c : Connector) (isInLoopThread : Bool) (answer : Answer Unit) : Connector :=
  let c := { c with connect_ := true }
  if isInLoopThread then c.startInLoop true answer
  else c.queueInLoop .startInLoop

def stop (c : Connector) (isInLoopThread : Bool) : Connector :=
  if !isInLoopThread then c
  else { c with connect_ := false }.queueInLoop .stopInLoop

def stopInLoop (c : Connector) (isInLoopThread : Bool) : Connector :=
  if !isInLoopThread then c
  else if c.state_ = .kConnecting then
    let c := c.setState .kDisconnected
    match c.removeAndResetChannel with
    | none => c.crash
    | some (sockfd, c) => c.retry sockfd
  else c

def restart (c : Connector) (isInLoopThread : Bool) (answer : Answer Unit) : Connector :=
  if !isInLoopThread then c
  else
    { c.setState .kDisconnected with retryDelayMs_ := kInitRetryDelayMs, connect_ := true }.startInLoop
      isInLoopThread answer

/-- The error `handleWrite` finds: why `getsockopt` failed, or what it read. -/
def err : Answer Int32 → Int32
  | .error errno => errno
  | .ok optval => optval

def handleWrite (c : Connector) (answer : Answer Int32) : Connector :=
  if c.state_ ≠ .kConnecting then c
  else
    match c.removeAndResetChannel with
    | none => c.crash
    | some (sockfd, c) =>
        if err answer ≠ 0 then c.retry sockfd
        else
          let c := c.setState .kConnected
          if c.connect_ then c.newConnectionCallback sockfd
          else c.close sockfd

def handleError (c : Connector) : Connector :=
  if c.state_ = .kConnecting then
    match c.removeAndResetChannel with
    | none => c.crash
    | some (sockfd, c) => c.retry sockfd
  else c

/-- What happens next to a connector.  The functors of the loop are run in its thread, oldest first; the
answer is that of `::connect`, should it be called. -/
inductive Event where
  | start (isInLoopThread : Bool) (answer : Answer Unit)
  | stop (isInLoopThread : Bool)
  | restart (isInLoopThread : Bool) (answer : Answer Unit)
  | handleWrite (answer : Answer Int32)
  | handleError
  | runFunctor (answer : Answer Unit)

def runFunctor (c : Connector) (answer : Answer Unit) : Connector :=
  match c.pendingFunctors_ with
  | [] => c
  | f :: rest =>
      let c := { c with pendingFunctors_ := rest }
      match f with
      | .startInLoop => c.startInLoop true answer
      | .stopInLoop => c.stopInLoop true
      | .resetChannel => c.resetChannel

/-- Nothing is known of a connector that has used a null pointer. -/
def step (c : Connector) (e : Event) : Connector :=
  if c.crashed then c
  else
    match e with
    | .start isInLoopThread answer => c.start isInLoopThread answer
    | .stop isInLoopThread => c.stop isInLoopThread
    | .restart isInLoopThread answer => c.restart isInLoopThread answer
    | .handleWrite answer => c.handleWrite answer
    | .handleError => c.handleError
    | .runFunctor answer => c.runFunctor answer

/-! ## Where the sockets are -/

/-- The socket of the live channel: one that has not been taken off the poller. -/
def held (c : Connector) : List Nat :=
  match c.channel_ with
  | some { sockfd, registered := true } => [sockfd]
  | _ => []

/-- The places sockets are in: the live channel, what the callback was given, what was closed. -/
def owners (c : Connector) : List Nat := c.held ++ c.delivered ++ c.closed

/-- Every socket made is in exactly one place, once. -/
def Placed (c : Connector) : Prop := ∀ sockfd < c.created, c.owners.count sockfd = 1

instance decidablePlaced : DecidablePred Placed := fun c =>
  inferInstanceAs (Decidable (∀ sockfd < c.created, _))

/-! ## The steps that lose no socket -/

/-- The step calls `connect`. -/
def Attempts (c : Connector) : Event → Prop
  | .start isInLoopThread _ => isInLoopThread = true
  | .restart isInLoopThread _ => isInLoopThread = true
  | .runFunctor _ => c.pendingFunctors_.head? = some .startInLoop ∧ c.connect_ = true
  | _ => False

/-- The step gives the attempt up and calls `retry`. -/
def GivesUp (c : Connector) : Event → Prop
  | .handleWrite answer => c.state_ = .kConnecting ∧ err answer ≠ 0
  | .handleError => c.state_ = .kConnecting
  | .runFunctor _ => c.pendingFunctors_.head? = some .stopInLoop ∧ c.state_ = .kConnecting
  | _ => False

/-- An attempt neither begins nor is given up while `channel_` is set. -/
def Keeps (c : Connector) (e : Event) : Prop :=
  c.crashed = false → c.Attempts e ∨ c.GivesUp e → c.channel_ = none

/-- The channel has been taken off the poller and waits for `resetChannel`. -/
def waiting (c : Connector) : Nat :=
  match c.channel_ with
  | some { sockfd := _, registered := false } => 1
  | _ => 0

/-- What holds while no socket has been lost. -/
structure Inv (c : Connector) : Prop where
  placed : c.Placed
  fresh : ∀ sockfd ∈ c.owners, sockfd < c.created
  connecting : c.state_ = .kConnecting → c.waiting = 0
  resets : c.pendingFunctors_.count .resetChannel = c.waiting

section lemmas

variable {c c' : Connector} {answer : Answer Unit} {sockfd : Nat}

theorem inv_new (connect_ : Bool) (state_ : States) (retryDelayMs_ : Int32) :
    (new connect_ state_ retryDelayMs_).Inv where
  placed := by
    intro sockfd hlt
    exact absurd hlt (Nat.not_lt_zero _)
  fresh := by
    intro sockfd hmem
    cases hmem
  connecting := fun _ => rfl
  resets := rfl

/-- The invariant looks at the sockets, at whether an attempt is under way and at the resets queued. -/
theorem Inv.congr (h : c.Inv) (hchannel : c'.channel_ = c.channel_) (hcreated : c'.created = c.created)
    (hdelivered : c'.delivered = c.delivered) (hclosed : c'.closed = c.closed)
    (hstate : c'.state_ = .kConnecting → c.state_ = .kConnecting)
    (hresets : c'.pendingFunctors_.count .resetChannel = c.pendingFunctors_.count .resetChannel) :
    c'.Inv := by
  have howners : c'.owners = c.owners := by
    simp only [owners, held, hchannel, hdelivered, hclosed]
  have hwaiting : c'.waiting = c.waiting := by
    simp only [waiting, hchannel]
  exact
    { placed := by
        rw [Placed, howners, hcreated]
        exact h.placed
      fresh := by
        rw [howners, hcreated]
        exact h.fresh
      connecting := fun hc => hwaiting.trans (h.connecting (hstate hc))
      resets := by rw [hresets, hwaiting, h.resets] }

theorem Inv.queueInLoop (h : c.Inv) {f : Functor} (hf : f ≠ .resetChannel) : (c.queueInLoop f).Inv :=
  h.congr rfl rfl rfl rfl id <| by
    rw [Connector.queueInLoop, List.count_append, List.count_singleton]
    simp [hf]

/-- Every answer of `::connect` is taken for an attempt under way. -/
theorem connect_eq_connecting (c : Connector) (answer : Answer Unit) :
    c.connect answer = { c with created := c.created + 1 }.connecting c.created := by
  have hset : savedErrno answer ||| 0 ||| EINPROGRESS ||| EINTR ||| EISCONN ≠ 0 := by
    intro hzero
    have hlast : EISCONN = 0 := (Int32.or_eq_zero_iff.1 hzero).2
    exact absurd hlast (by decide)
  rw [connect]
  exact if_pos hset

theorem connect_of_none (hnone : c.channel_ = none) :
    c.connect answer =
      { c with
        created := c.created + 1
        state_ := .kConnecting
        channel_ := some { sockfd := c.created, registered := true } } := by
  rw [connect_eq_connecting]
  simp [connecting, setState, hnone]

theorem connect_of_ne_none (hsome : c.channel_ ≠ none) :
    c.connect answer = { c with created := c.created + 1, state_ := .kConnecting } := by
  rw [connect_eq_connecting]
  exact if_pos (Option.isSome_iff_ne_none.2 hsome)

theorem Inv.not_mem_created (h : c.Inv) : c.created ∉ c.owners := fun hmem =>
  absurd (h.fresh _ hmem) (Nat.lt_irrefl _)

theorem Inv.connect (h : c.Inv) (hnone : c.channel_ = none) : (c.connect answer).Inv := by
  have howners : (c.connect answer).owners = c.created :: c.owners := by
    rw [connect_of_none hnone]
    simp [owners, held, hnone]
  have hcreated : (c.connect answer).created = c.created + 1 := by
    rw [connect_of_none hnone]
  have hwaiting : c.waiting = 0 := by simp [waiting, hnone]
  refine
    { placed := ?_
      fresh := ?_
      connecting := ?_
      resets := ?_ }
  · intro sockfd hlt
    rw [hcreated] at hlt
    rw [howners, List.count_cons]
    rcases Nat.lt_succ_iff_lt_or_eq.1 hlt with hold | rfl
    · rw [h.placed sockfd hold]
      simpa using Nat.ne_of_gt hold
    · rw [List.count_eq_zero.2 h.not_mem_created]
      simp
  · intro sockfd hmem
    rw [howners] at hmem
    rw [hcreated]
    rcases List.mem_cons.1 hmem with rfl | hmem
    · exact Nat.lt_succ_self _
    · exact Nat.lt_succ_of_lt (h.fresh sockfd hmem)
  · intro _
    rw [connect_of_none hnone]
    rfl
  · rw [connect_of_none hnone]
    exact h.resets.trans hwaiting

/-- A socket made while `channel_` is set is in no place. -/
theorem Inv.not_placed_connect (h : c.Inv) (hsome : c.channel_ ≠ none) :
    ¬ (c.connect answer).Placed := by
  intro hplaced
  rw [connect_of_ne_none hsome] at hplaced
  have hlost : c.owners.count c.created = 1 := hplaced c.created (Nat.lt_succ_self _)
  rw [List.count_eq_zero.2 h.not_mem_created] at hlost
  exact absurd hlost Nat.zero_ne_one

/-- The connector after `removeAndResetChannel`. -/
def removed (c : Connector) (channel : Channel) : Connector :=
  { c with channel_ := some { channel with registered := false } }.queueInLoop .resetChannel

theorem removeAndResetChannel_some {channel : Channel} (hchannel : c.channel_ = some channel) :
    c.removeAndResetChannel = some (channel.sockfd, c.removed channel) := by
  rw [removeAndResetChannel, hchannel]
  rfl

theorem removeAndResetChannel_none (hnone : c.channel_ = none) : c.removeAndResetChannel = none := by
  rw [removeAndResetChannel, hnone]

/-- While an attempt is under way its channel is the live one. -/
theorem Inv.owners_eq (h : c.Inv) (hstate : c.state_ = .kConnecting) {channel : Channel}
    (hchannel : c.channel_ = some channel) :
    channel.registered = true ∧ c.owners = channel.sockfd :: (c.removed channel).owners := by
  have hwaiting := h.connecting hstate
  obtain ⟨sockfd, registered⟩ := channel
  cases registered with
  | false =>
      simp [waiting, hchannel] at hwaiting
  | true =>
      exact ⟨rfl, by simp [owners, held, removed, Connector.queueInLoop, hchannel]⟩

/-- An attempt that is given up takes its socket with it. -/
theorem Inv.not_placed_removed (h : c.Inv) (hstate : c.state_ = .kConnecting) {channel : Channel}
    (hchannel : c.channel_ = some channel) : ¬ (c.removed channel).Placed := by
  intro hplaced
  have howners := (h.owners_eq hstate hchannel).2
  have hmem : channel.sockfd ∈ c.owners := by
    rw [howners]
    exact List.mem_cons_self
  have hone := h.placed _ (h.fresh _ hmem)
  rw [howners, List.count_cons_self] at hone
  have hlost : (c.removed channel).owners.count channel.sockfd = 1 := hplaced _ (h.fresh _ hmem)
  omega

/-- An attempt that succeeds passes its socket on. -/
theorem Inv.handOver (h : c.Inv) (hstate : c.state_ = .kConnecting) {channel : Channel}
    (howners : c'.owners.Perm c.owners) (hcreated : c'.created = c.created) (hafter : c'.state_ = .kConnected)
    (hchannel' : c'.channel_ = (c.removed channel).channel_)
    (hpending : c'.pendingFunctors_ = (c.removed channel).pendingFunctors_) : c'.Inv where
  placed := by
    intro sockfd hlt
    rw [howners.count_eq]
    exact h.placed sockfd (hcreated ▸ hlt)
  fresh := by
    intro sockfd hmem
    rw [hcreated]
    exact h.fresh sockfd (howners.mem_iff.1 hmem)
  connecting := by
    intro hconnecting
    rw [hafter] at hconnecting
    cases hconnecting
  resets := by
    have hnone : c.waiting = 0 := h.connecting hstate
    have hresets := h.resets
    have hwaiting : c'.waiting = 1 := by
      rw [waiting, hchannel']
      rfl
    rw [hpending, hwaiting, removed, Connector.queueInLoop, List.count_append, List.count_singleton_self]
    exact congrArg (· + 1) (hresets.trans hnone)

/-- `G` decides whether a step that ends in `c'` has lost a socket. -/
structure Decides (c' : Connector) (G : Prop) : Prop where
  inv : G → c'.Inv
  guard : c'.Placed → G

theorem Decides.of_inv {G : Prop} (h : c'.Inv) (hG : G) : Decides c' G := ⟨fun _ => h, fun _ => hG⟩

theorem Decides.congr {G G' : Prop} (h : Decides c' G) (hG : G ↔ G') : Decides c' G' :=
  ⟨fun h' => h.inv (hG.2 h'), fun hplaced => hG.1 (h.guard hplaced)⟩

theorem Inv.connect_decides (h : c.Inv) : Decides (c.connect answer) (c.channel_ = none) where
  inv := h.connect
  guard := fun hplaced => by_contra fun hsome => h.not_placed_connect hsome hplaced

theorem Inv.startInLoop_decides (h : c.Inv) (inLoop : Bool) :
    Decides (c.startInLoop inLoop answer) (inLoop = true → c.connect_ = true → c.channel_ = none) := by
  unfold startInLoop
  cases inLoop with
  | false =>
      exact .of_inv h (by simp)
  | true =>
      cases hconnect : c.connect_ with
      | false =>
          simpa [hconnect] using Decides.of_inv h trivial
      | true =>
          simpa [hconnect] using h.connect_decides

theorem Inv.start_decides (h : c.Inv) (inLoop : Bool) :
    Decides (c.start inLoop answer) (inLoop = true → c.channel_ = none) := by
  have hset : Inv { c with connect_ := true } := h.congr rfl rfl rfl rfl id rfl
  unfold start
  cases inLoop with
  | false =>
      exact .of_inv (hset.queueInLoop (by decide)) (by simp)
  | true =>
      exact (hset.startInLoop_decides true).congr (by simp)

theorem Inv.restart_decides (h : c.Inv) (inLoop : Bool) :
    Decides (c.restart inLoop answer) (inLoop = true → c.channel_ = none) := by
  unfold restart
  cases inLoop with
  | false =>
      exact .of_inv h (by simp)
  | true =>
      have hset : Inv { c.setState .kDisconnected with
          retryDelayMs_ := kInitRetryDelayMs, connect_ := true } :=
        h.congr rfl rfl rfl rfl (fun hstate => by cases hstate) rfl
      exact (hset.startInLoop_decides true).congr (by simp [setState])

theorem Inv.stop (h : c.Inv) (inLoop : Bool) : (c.stop inLoop).Inv := by
  have hset : Inv { c with connect_ := false } := h.congr rfl rfl rfl rfl id rfl
  unfold Connector.stop
  cases inLoop with
  | false =>
      exact h
  | true =>
      exact hset.queueInLoop (by decide)

theorem Inv.crash (h : c.Inv) : c.crash.Inv := h.congr rfl rfl rfl rfl id rfl

theorem Inv.handleError_decides (h : c.Inv) :
    Decides c.handleError (c.state_ = .kConnecting → c.channel_ = none) := by
  unfold handleError
  split
  · next hstate =>
    cases hchannel : c.channel_ with
    | none =>
        rw [removeAndResetChannel_none hchannel]
        exact .of_inv h.crash fun _ => rfl
    | some channel =>
        rw [removeAndResetChannel_some hchannel]
        -- `retry` drops the socket
        exact ⟨fun hguard => (nomatch hguard hstate), fun hplaced =>
          absurd hplaced (h.not_placed_removed hstate hchannel)⟩
  · next hstate =>
    exact .of_inv h fun hconnecting => absurd hconnecting hstate

theorem Inv.stopInLoop_decides (h : c.Inv) :
    Decides (c.stopInLoop true) (c.state_ = .kConnecting → c.channel_ = none) := by
  unfold stopInLoop
  simp only [Bool.not_true, Bool.false_eq_true, if_false]
  split
  · next hstate =>
    cases hchannel : c.channel_ with
    | none =>
        rw [removeAndResetChannel_none (c := c.setState .kDisconnected) hchannel]
        have hset : (c.setState .kDisconnected).crash.Inv :=
          h.congr rfl rfl rfl rfl (fun hconnecting => nomatch hconnecting) rfl
        exact .of_inv hset fun _ => rfl
    | some channel =>
        rw [removeAndResetChannel_some (c := c.setState .kDisconnected) hchannel]
        exact ⟨fun hguard => (nomatch hguard hstate), fun hplaced =>
          absurd hplaced (h.not_placed_removed hstate hchannel)⟩
  · next hstate =>
    exact .of_inv h fun hconnecting => absurd hconnecting hstate

theorem Inv.handleWrite_decides (h : c.Inv) (answer : Answer Int32) :
    Decides (c.handleWrite answer) (c.state_ = .kConnecting ∧ err answer ≠ 0 → c.channel_ = none) := by
  unfold handleWrite
  split
  · next hstate =>
    exact .of_inv h fun hguard => absurd hguard.1 hstate
  · next hstate =>
    have hstate : c.state_ = .kConnecting := not_not.1 hstate
    cases hchannel : c.channel_ with
    | none =>
        rw [removeAndResetChannel_none hchannel]
        exact .of_inv h.crash fun _ => rfl
    | some channel =>
        rw [removeAndResetChannel_some hchannel]
        by_cases herr : err answer = 0
        · -- the socket goes to the callback, or is closed when the connector has been stopped
          refine .of_inv ?_ fun hguard => absurd herr hguard.2
          have howners : c.owners = channel.sockfd :: (c.delivered ++ c.closed) :=
            (h.owners_eq hstate hchannel).2
          simp only [herr, ne_eq, not_true_eq_false, if_false]
          split
          · refine h.handOver hstate ?_ rfl rfl rfl rfl
            rw [howners]
            show ((c.delivered ++ [channel.sockfd]) ++ c.closed).Perm _
            simp
          · refine h.handOver hstate ?_ rfl rfl rfl rfl
            rw [howners]
            show (c.delivered ++ (c.closed ++ [channel.sockfd])).Perm _
            rw [← List.append_assoc]
            exact List.perm_append_singleton _ _
        · dsimp only
          rw [if_pos herr]
          exact ⟨fun hguard => (nomatch hguard ⟨hstate, herr⟩), fun hplaced =>
            absurd hplaced (h.not_placed_removed hstate hchannel)⟩

/-- A reset that is run finds a channel that has been taken off the poller. -/
theorem Inv.resetChannel (h : c.Inv) {rest : List Functor}
    (hpending : c.pendingFunctors_ = .resetChannel :: rest) :
    ({ c with pendingFunctors_ := rest } : Connector).resetChannel.Inv := by
  have hresets := h.resets
  rw [hpending, List.count_cons_self] at hresets
  obtain ⟨hheld, hone⟩ : c.held = [] ∧ c.waiting = 1 := by
    unfold waiting at hresets ⊢
    unfold held
    split at hresets <;> simp_all
  have howners : ({ c with pendingFunctors_ := rest } : Connector).resetChannel.owners = c.owners := by
    rw [owners, owners, hheld]
    rfl
  exact
    { placed := by
        rw [Placed, howners]
        exact h.placed
      fresh := by
        rw [howners]
        exact h.fresh
      connecting := fun _ => rfl
      resets := by
        have hrest : rest.count .resetChannel = 0 := by omega
        exact hrest }

theorem Inv.runFunctor_decides (h : c.Inv) :
    Decides (c.runFunctor answer)
      (c.Attempts (.runFunctor answer) ∨ c.GivesUp (.runFunctor answer) → c.channel_ = none) := by
  unfold runFunctor
  cases hpending : c.pendingFunctors_ with
  | nil =>
      exact .of_inv h (by simp [Attempts, GivesUp, hpending])
  | cons f rest =>
      have hpop : f ≠ .resetChannel → Inv { c with pendingFunctors_ := rest } := fun hf =>
        h.congr rfl rfl rfl rfl id (by simp [hpending, hf])
      cases f with
      | startInLoop =>
          exact ((hpop (by decide)).startInLoop_decides true).congr
            (by simp [Attempts, GivesUp, hpending])
      | stopInLoop =>
          exact (hpop (by decide)).stopInLoop_decides.congr (by simp [Attempts, GivesUp, hpending])
      | resetChannel =>
          exact .of_inv (h.resetChannel hpending) (by simp [Attempts, GivesUp, hpending])

/-- **Step lemma.** A step out of a state in which no socket is lost loses none exactly when it is one that
keeps them. -/
theorem Inv.step_decides (h : c.Inv) (e : Event) : Decides (c.step e) (c.Keeps e) := by
  unfold step Keeps
  cases hcrashed : c.crashed with
  | true =>
      exact .of_inv h (by simp)
  | false =>
      simp only [Bool.false_eq_true, if_false, true_implies]
      cases e with
      | start inLoop answer =>
          exact (h.start_decides inLoop).congr (by simp [Attempts, GivesUp])
      | stop inLoop =>
          exact .of_inv (h.stop inLoop) (by simp [Attempts, GivesUp])
      | restart inLoop answer =>
          exact (h.restart_decides inLoop).congr (by simp [Attempts, GivesUp])
      | handleWrite answer =>
          exact (h.handleWrite_decides answer).congr (by simp [Attempts, GivesUp])
      | handleError =>
          exact h.handleError_decides.congr (by simp [Attempts, GivesUp])
      | runFunctor answer =>
          exact h.runFunctor_decides

end lemmas

/-- **No socket is lost.** Whatever the constructor leaves in the members, in a run every socket is in
exactly one place after every step exactly when no step begins an attempt, or gives one up, while
`channel_` is set. -/
theorem keeps_iff_placed (connect_ : Bool) (state_ : States) (retryDelayMs_ : Int32) (es : List Event) :
    Runs.Guarded step Keeps (new connect_ state_ retryDelayMs_) es ↔
      Runs.Throughout step Placed (new connect_ state_ retryDelayMs_) es :=
  Runs.guarded_iff_of_invariant (I := Inv) (fun _ e h hG => (h.step_decides e).inv hG)
    (fun _ h => h.placed) (fun _ e h hplaced => (h.step_decides e).guard hplaced)
    (inv_new connect_ state_ retryDelayMs_)

/-- A connection that is refused: its socket is neither passed on nor closed. -/
theorem not_placed_refused :
    ¬ ∀ es, Runs.Throughout step Placed (new false .kDisconnected 0) es := by
  intro h
  have hrefused := h [.start true (.error EINPROGRESS), .handleWrite (.ok ECONNREFUSED)]
  revert hrefused
  decide

end Connector
end Net
end Myoj
