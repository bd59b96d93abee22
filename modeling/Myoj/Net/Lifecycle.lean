import Myoj.Net.EpollPoller
import Myoj.Net.OutputStream

/-!
# Lifecycle — a connection on its loop

From `connectEstablished` on a connection lives on its loop: the poller reports events, the loop hands
them to `Channel::handleEvent`, and the handlers close the connection, read, and write.  A functor ends
it with `connectDestroyed`.

* `Connection` — `state_`, the channel and what is held for sending; the sending side is the `Outbox`
  that `sendInLoop` and `handleWrite` were shown to implement;
* `OnLoop` — a connection with the poller of its loop, and the members of `TcpConnection`;
* `Notice` — what the connection goes through and whom it calls, in order;
* `Story` — the same without the channel: what the notices can look like;
* `Orderly` — what they should look like.
-/

namespace Myoj
namespace Net

open Epoll (EpollPoller Polled)

inductive Notice where
  | setState (state : StateE)
  | connectionCallback (state : StateE)
  | messageCallback
  | closeCallback
  deriving DecidableEq, Repr

namespace Outbox

/-- What was written before does not matter to the rest. -/
theorem forget_offer (o : Outbox) (data : Bytes) (r : WriteResult) :
    { o.offer data r with written := [] } =
      { { o with written := [] }.offer data r with written := [] } := by
  obtain ⟨written, queued, writing⟩ := o
  cases r with
  | accepted n =>
      cases writing <;> cases queued <;> simp [offer, idle]
  | failed errno =>
      simp [offer]

theorem forget_drain (o : Outbox) (r : WriteResult) :
    { o.drain r with written := [] } = { { o with written := [] }.drain r with written := [] } := by
  cases r with
  | accepted n =>
      by_cases h : o.writing = true ∧ 0 < min n o.queued.length
      · simp only [drain, if_pos h]
      · simp only [drain, if_neg h]
  | failed errno =>
      rfl

end Outbox

namespace Lifecycle

structure Connection where
  state_ : StateE
  channel_ : Epoll.Channel
  /-- The readable bytes of `outputBuffer_`. -/
  outputBuffer_ : Bytes
  /-- What the last `poll` reported, as long as the loop has not come to it. -/
  revents_ : Option Mask
  notices : List Notice
  deriving DecidableEq, Repr

/-- The constructor; the user and the server have set all three callbacks. -/
def Connection.new (sockfd : Int) : Connection where
  state_ := .kConnecting
  channel_ := .new sockfd
  outputBuffer_ := []
  revents_ := none
  notices := []

/-- A call by the user on the loop thread, from inside a callback. -/
inductive UserCall where
  | send (data : Bytes) (r : WriteResult)
  | shutdown

/-- What the kernel answers and the user does while one channel is handled: the result of `readFd`, the
calls made by the message callback, the result of `writeFd`. -/
structure Handling where
  n : Int
  calls : List UserCall
  written : WriteResult

structure OnLoop (ι : Type) where
  conn : Connection
  poller : EpollPoller ι

namespace OnLoop

section members

variable {ι : Type} (c : ι) (a : OnLoop ι)

def notify (notice : Notice) : OnLoop ι :=
  { a with conn := { a.conn with notices := a.conn.notices ++ [notice] } }

def setState (state : StateE) : OnLoop ι :=
  notify { a with conn := { a.conn with state_ := state } } (.setState state)

def polled : Polled ι where
  poller := a.poller
  channel := a.conn.channel_

/-- A call on `channel_`, with what it makes the poller do. -/
def onChannel (p : Polled ι) : OnLoop ι where
  conn := { a.conn with channel_ := p.channel }
  poller := p.poller

def connectionCallback : OnLoop ι := a.notify (.connectionCallback a.conn.state_)

/-- The sending side as `sendInLoop` and `handleWrite` see it. -/
def outbox : Outbox where
  written := []
  queued := a.conn.outputBuffer_
  writing := a.conn.channel_.isWriting

/-- The buffer after sending, and the interest in writing where it changes. -/
def carry (o : Outbox) : OnLoop ι :=
  let a := { a with conn := { a.conn with outputBuffer_ := o.queued } }
  if o.writing && !a.conn.channel_.isWriting then a.onChannel (a.polled.enableWriting c)
  else if !o.writing && a.conn.channel_.isWriting then a.onChannel (a.polled.disableWriting c)
  else a

def sendInLoop (data : Bytes) (r : WriteResult) : OnLoop ι :=
  if a.conn.state_ = .kDisconnected then a else a.carry c (a.outbox.offer data r)

def send (data : Bytes) (r : WriteResult) : OnLoop ι :=
  if a.conn.state_ = .kConnected then a.sendInLoop c data r else a

/-- The half close that follows does not touch the connection. -/
def shutdown : OnLoop ι :=
  if a.conn.state_ = .kConnected then a.setState .kDisconnecting else a

def connectEstablished : OnLoop ι :=
  let a := a.setState .kConnected
  -- from here on the poller knows the fd
  let a := a.onChannel (a.polled.enableReading c)
  a.connectionCallback

/-- `channel_->remove()` is commented out. -/
def connectDestroyed : OnLoop ι :=
  if a.conn.state_ = .kConnected then
    let a := a.setState .kDisconnected
    let a := a.onChannel (a.polled.disableAll c)
    a.connectionCallback
  else a

def handleClose : OnLoop ι :=
  let a := a.setState .kDisconnected
  let a := a.onChannel (a.polled.disableAll c)
  a.connectionCallback.notify .closeCallback

def userCall (a : OnLoop ι) : UserCall → OnLoop ι
  | .send data r => a.send c data r
  | .shutdown => a.shutdown

/-- `n` is the result of `readFd`; `handleError`, for a negative one, only logs. -/
def handleRead (h : Handling) : OnLoop ι :=
  if 0 < h.n then h.calls.foldl (userCall c) (a.notify .messageCallback)
  else if h.n = 0 then a.handleClose c
  else a

def handleWrite (r : WriteResult) : OnLoop ι :=
  if a.conn.channel_.isWriting then a.carry c (a.outbox.drain r) else a

/-- The tests of `handleEventWithGuard` on `revents_`. -/
def closes (revents : Mask) : Bool := revents &&& EPOLLHUP != 0#32 && revents &&& EPOLLIN == 0#32

def reads (revents : Mask) : Bool := revents &&& (EPOLLIN ||| EPOLLPRI) != 0#32

def writes (revents : Mask) : Bool := revents &&& EPOLLOUT != 0#32

/-- The error callback only logs. -/
def handleEventWithGuard (revents : Mask) (h : Handling) : OnLoop ι :=
  -- one test after the other, none is the `else` of another
  let a := if closes revents then a.handleClose c else a
  let a := if reads revents then a.handleRead c h else a
  if writes revents then a.handleWrite c h.written else a

/-- The loop comes to the channel, if the last `poll` reported it. -/
def handleEvent (h : Handling) : OnLoop ι :=
  match a.conn.revents_ with
  | none => a
  | some revents =>
      handleEventWithGuard c { a with conn := { a.conn with revents_ := none } } revents h

/-- What `epoll_wait` may report: events that were asked for, errors and hang-ups, of a registered fd. -/
def mayReport [DecidableEq ι] (revents : Mask) : Bool :=
  match a.poller.epoll a.conn.channel_.fd_ with
  | none => false
  | some (events, d) => d == c && revents &&& ~~~(events ||| EPOLLERR ||| EPOLLHUP) == 0#32

def poll [DecidableEq ι] (revents : Mask) : OnLoop ι :=
  if a.mayReport c revents then { a with conn := { a.conn with revents_ := some revents } } else a

/-! ## The sending side -/

theorem outbox_carry (o : Outbox) : (a.carry c o).outbox = { o with written := [] } := by
  simp only [carry]
  split
  · next h =>
    have hwriting : o.writing = true := (Bool.and_eq_true_iff.1 h).1
    rw [outbox, hwriting]
    congr 1
    exact Polled.isWriting_enableWriting c _
  · next hon =>
    split
    · next h =>
      have hwriting : o.writing = false := by simpa using (Bool.and_eq_true_iff.1 h).1
      rw [outbox, hwriting]
      congr 1
      exact Polled.isWriting_disableWriting c _
    · next hoff =>
      -- the interest is what it was
      have hwriting : a.conn.channel_.isWriting = o.writing := by
        cases h : o.writing <;> simp_all
      simp only [outbox, hwriting]

/-- The connection of the sending side and the one on the loop are in the same state. -/
def Sees (conn : TcpConnection) (a : OnLoop ι) : Prop :=
  conn.state_ = a.conn.state_ ∧ { conn.outbox with written := [] } = a.outbox

variable {c a} {conn : TcpConnection}

theorem state_carry (o : Outbox) : (a.carry c o).conn.state_ = a.conn.state_ := by
  simp only [carry]
  split
  · rfl
  · split <;> rfl

theorem state_sendInLoop (data : Bytes) (r : WriteResult) :
    (a.sendInLoop c data r).conn.state_ = a.conn.state_ := by
  unfold sendInLoop
  split
  · rfl
  · exact state_carry _

theorem state_handleWrite (r : WriteResult) :
    (a.handleWrite c r).conn.state_ = a.conn.state_ := by
  unfold handleWrite
  split
  · exact state_carry _
  · rfl

theorem sees_sendInLoop (h : Sees conn a) (data : Bytes) (r : WriteResult) :
    Sees (conn.sendInLoop data r) (a.sendInLoop c data r) := by
  obtain ⟨hstate, houtbox⟩ := h
  refine ⟨by rw [TcpConnection.sendInLoop_state_, hstate, state_sendInLoop], ?_⟩
  by_cases hdown : conn.state_ = .kDisconnected
  · rw [sendInLoop, if_pos (hstate ▸ hdown), TcpConnection.sendInLoop, if_pos hdown, houtbox]
  · rw [sendInLoop, if_neg (hstate ▸ hdown), outbox_carry, TcpConnection.outbox_sendInLoop _ _ _ hdown,
      ← houtbox]
    exact Outbox.forget_offer conn.outbox data r

theorem sees_handleWrite (h : Sees conn a) (r : WriteResult) :
    Sees (conn.handleWrite r) (a.handleWrite c r) := by
  obtain ⟨hstate, houtbox⟩ := h
  refine ⟨by rw [TcpConnection.handleWrite_state_, hstate, state_handleWrite], ?_⟩
  have hwriting : conn.outbox.writing = a.conn.channel_.isWriting := congrArg Outbox.writing houtbox
  rw [TcpConnection.outbox_handleWrite, handleWrite]
  split
  · rw [outbox_carry, ← houtbox]
    exact Outbox.forget_drain conn.outbox r
  · next hoff =>
    -- without write interest nothing is drained
    have hstay : conn.outbox.drain r = conn.outbox := by
      cases r with
      | accepted n =>
          exact if_neg fun hdrain => hoff (hwriting ▸ hdrain.1)
      | failed errno =>
          rfl
    rw [hstay, houtbox]

end members

end OnLoop

/-! ## The story of a connection -/

/-- Where the connection stands and what led there. -/
structure Story where
  state_ : StateE
  notices : List Notice

/-- The members that change the state or call back. -/
inductive Move where
  | shutdown
  | close
  | destroy
  | message

namespace Story

def notify (story : Story) (notice : Notice) : Story :=
  { story with notices := story.notices ++ [notice] }

def enter (story : Story) (state : StateE) : Story :=
  notify { story with state_ := state } (.setState state)

def step (story : Story) : Move → Story
  | .shutdown => if story.state_ = .kConnected then story.enter .kDisconnecting else story
  | .close =>
      ((story.enter .kDisconnected).notify (.connectionCallback .kDisconnected)).notify .closeCallback
  | .destroy =>
      if story.state_ = .kConnected then
        (story.enter .kDisconnected).notify (.connectionCallback .kDisconnected)
      else story
  | .message => story.notify .messageCallback

end Story

def UserCall.moves : UserCall → List Move
  | .send _ _ => []
  | .shutdown => [.shutdown]

namespace OnLoop

def story {ι : Type} (a : OnLoop ι) : Story where
  state_ := a.conn.state_
  notices := a.conn.notices

section story

variable {ι : Type} (c : ι) (a : OnLoop ι)

@[simp] theorem story_onChannel (p : Polled ι) : (a.onChannel p).story = a.story := rfl

@[simp] theorem story_notify (notice : Notice) : (a.notify notice).story = a.story.notify notice := rfl

@[simp] theorem story_setState (state : StateE) : (a.setState state).story = a.story.enter state := rfl

@[simp] theorem story_connectionCallback :
    a.connectionCallback.story = a.story.notify (.connectionCallback a.story.state_) := rfl

/-- Sending is no part of the story. -/
@[simp] theorem story_carry (o : Outbox) : (a.carry c o).story = a.story := by
  simp only [carry]
  split
  · rfl
  · split <;> rfl

@[simp] theorem story_sendInLoop (data : Bytes) (r : WriteResult) :
    (a.sendInLoop c data r).story = a.story := by
  unfold sendInLoop
  split
  · rfl
  · exact story_carry c a _

@[simp] theorem story_send (data : Bytes) (r : WriteResult) : (a.send c data r).story = a.story := by
  unfold send
  split
  · exact story_sendInLoop c a data r
  · rfl

@[simp] theorem story_handleWrite (r : WriteResult) : (a.handleWrite c r).story = a.story := by
  unfold handleWrite
  split
  · exact story_carry c a _
  · rfl

theorem story_shutdown : a.shutdown.story = a.story.step .shutdown := by
  simp only [shutdown, Story.step]
  split
  · next h => exact (if_pos (c := a.story.state_ = .kConnected) h).symm
  · next h => exact (if_neg (c := a.story.state_ = .kConnected) h).symm

theorem story_handleClose : (a.handleClose c).story = a.story.step .close := rfl

theorem story_connectDestroyed : (a.connectDestroyed c).story = a.story.step .destroy := by
  simp only [connectDestroyed, Story.step]
  split
  · next h => exact (if_pos (c := a.story.state_ = .kConnected) h).symm
  · next h => exact (if_neg (c := a.story.state_ = .kConnected) h).symm

theorem story_calls (calls : List UserCall) :
    (calls.foldl (userCall c) a).story = (calls.flatMap UserCall.moves).foldl Story.step a.story := by
  induction calls generalizing a with
  | nil =>
      rfl
  | cons call calls ih =>
      rw [List.foldl_cons, ih, List.flatMap_cons, List.foldl_append]
      congr 1
      cases call with
      | send data r =>
          exact story_send c a data r
      | shutdown =>
          exact story_shutdown a

/-- What one round of handling can do to the story. -/
def handlingMoves (revents : Mask) (h : Handling) : List Move :=
  (if closes revents then [.close] else []) ++
    if reads revents then
      if 0 < h.n then .message :: h.calls.flatMap UserCall.moves
      else if h.n = 0 then [.close]
      else []
    else []

theorem story_handleRead (h : Handling) :
    (a.handleRead c h).story =
      (if 0 < h.n then .message :: h.calls.flatMap UserCall.moves
        else if h.n = 0 then [.close] else []).foldl Story.step a.story := by
  unfold handleRead
  split
  · exact story_calls c _ h.calls
  · split <;> rfl

theorem story_handleEventWithGuard (revents : Mask) (h : Handling) :
    (a.handleEventWithGuard c revents h).story =
      (handlingMoves revents h).foldl Story.step a.story := by
  -- writing gives no notice
  have hwritten : ∀ b : OnLoop ι, (if writes revents then b.handleWrite c h.written else b).story =
      b.story := by
    intro b
    split
    · exact story_handleWrite c b h.written
    · rfl
  have hread : ∀ b : OnLoop ι, (if reads revents then b.handleRead c h else b).story =
      (if reads revents then
        if 0 < h.n then .message :: h.calls.flatMap UserCall.moves
        else if h.n = 0 then [.close] else []
      else []).foldl Story.step b.story := by
    intro b
    split
    · exact story_handleRead c b h
    · rfl
  simp only [handleEventWithGuard, hwritten, hread, handlingMoves, List.foldl_append]
  congr 1
  split <;> rfl

end story

end OnLoop

/-! ## Orderly stories -/

/-- The stages of a connection in order. -/
def stage : StateE → Nat
  | .kConnecting => 0
  | .kConnected => 1
  | .kDisconnecting => 2
  | .kDisconnected => 3

def Notice.entered : Notice → Option StateE
  | .setState state => some state
  | _ => none

namespace Story

/-- Connected once, disconnected and closed at most once, no message after that, and no way back. -/
structure Orderly (story : Story) : Prop where
  connected : story.notices.count (.connectionCallback .kConnected) = 1
  disconnected : story.notices.count (.connectionCallback .kDisconnected) ≤ 1
  closed : story.notices.count .closeCallback ≤ 1
  silent : story.notices.Pairwise fun before after =>
    before = .connectionCallback .kDisconnected → after ≠ .messageCallback
  forward : (story.notices.filterMap Notice.entered).Pairwise fun before after =>
    stage before ≤ stage after

/-- What every move keeps. -/
structure Inv (story : Story) : Prop where
  connected : story.notices.count (.connectionCallback .kConnected) = 1
  told : story.state_ = .kDisconnected ↔ .connectionCallback .kDisconnected ∈ story.notices
  closed : story.notices.count .closeCallback ≤
    story.notices.count (.connectionCallback .kDisconnected)
  forward : (story.notices.filterMap Notice.entered).Pairwise fun before after =>
    stage before ≤ stage after
  latest : ∀ state ∈ story.notices.filterMap Notice.entered, stage state ≤ stage story.state_

/-- The move does not close a connection that is disconnected or bring it a message. -/
def Allowed (story : Story) : Move → Prop
  | .close => story.state_ ≠ .kDisconnected
  | .message => story.state_ ≠ .kDisconnected
  | _ => True

/-- Once connected, always connected or on the way down. -/
theorem Inv.enter {story : Story} (h : story.Inv) {state : StateE} (calls : List Notice)
    (hstage : stage story.state_ ≤ stage state)
    (hnone : calls.filterMap Notice.entered = [])
    (hconnected : .connectionCallback .kConnected ∉ calls)
    (htold : state = .kDisconnected ↔ .connectionCallback .kDisconnected ∈ story.notices ++ calls)
    (hclosed : calls.count .closeCallback ≤ calls.count (.connectionCallback .kDisconnected)) :
    Inv { state_ := state, notices := story.notices ++ .setState state :: calls } where
  connected := by
    simp [h.connected, List.count_eq_zero.2 hconnected]
  told := by
    rw [htold]
    simp
  closed := by
    have := h.closed
    simp only [List.count_append, List.count_cons]
    simp
    omega
  forward := by
    simp only [List.filterMap_append, List.filterMap_cons, Notice.entered, hnone]
    -- no state entered before is later than the new one
    refine List.pairwise_append.2 ⟨h.forward, List.pairwise_singleton _ _, ?_⟩
    intro before hbefore after hafter
    rw [List.mem_singleton.1 hafter]
    exact (h.latest before hbefore).trans hstage
  latest := by
    simp only [List.filterMap_append, List.filterMap_cons, Notice.entered, hnone, List.mem_append,
      List.mem_singleton]
    rintro old (hold | rfl)
    · exact (h.latest old hold).trans hstage
    · exact Nat.le_refl _

theorem stage_le_kDisconnected (state : StateE) : stage state ≤ stage .kDisconnected := by
  cases state <;> decide

theorem inv_step (story : Story) (move : Move) (h : story.Inv) : (story.step move).Inv := by
  cases move with
  | shutdown =>
      simp only [step]
      split
      · next hstate =>
        refine h.enter [] (by simp [hstate, stage]) rfl (by simp) ?_ (by simp)
        have := h.told
        -- a connection that is up was never told that it is down
        simp only [hstate, reduceCtorEq, false_iff] at this
        simp [this]
      · exact h
  | close =>
      have := h.enter [.connectionCallback .kDisconnected, .closeCallback]
        (stage_le_kDisconnected story.state_) rfl (by simp) (by simp) (by simp)
      simpa [step, Story.enter, notify] using this
  | destroy =>
      simp only [step]
      split
      · have := h.enter [.connectionCallback .kDisconnected]
          (stage_le_kDisconnected story.state_) rfl (by simp) (by simp) (by simp)
        simpa [Story.enter, notify] using this
      · exact h
  | message =>
      -- a message enters no state
      have hentered : (story.notices ++ [Notice.messageCallback]).filterMap Notice.entered =
          story.notices.filterMap Notice.entered := by
        simp [Notice.entered]
      exact
        { connected := by simpa [step, notify] using h.connected
          told := by simpa [step, notify] using h.told
          closed := by simpa [step, notify] using h.closed
          forward := by simpa only [step, notify, hentered] using h.forward
          latest := by simpa only [step, notify, hentered] using h.latest }

/-- Under the invariant only two parts are at stake. -/
theorem orderly_iff {story : Story} (h : story.Inv) :
    story.Orderly ↔ story.notices.count (.connectionCallback .kDisconnected) ≤ 1 ∧
      story.notices.Pairwise fun before after =>
        before = .connectionCallback .kDisconnected → after ≠ .messageCallback := by
  constructor
  · exact fun horderly => ⟨horderly.disconnected, horderly.silent⟩
  · rintro ⟨hdisconnected, hsilent⟩
    exact ⟨h.connected, hdisconnected, h.closed.trans hdisconnected, hsilent, h.forward⟩

/-- Notices are only added. -/
theorem notices_step (story : Story) (move : Move) :
    ∃ added, (story.step move).notices = story.notices ++ added := by
  cases move with
  | shutdown =>
      simp only [step]
      split
      · exact ⟨_, rfl⟩
      · exact ⟨[], (List.append_nil _).symm⟩
  | close =>
      exact ⟨[.setState .kDisconnected, .connectionCallback .kDisconnected, .closeCallback],
        by simp [step, enter, notify]⟩
  | destroy =>
      simp only [step]
      split
      · exact ⟨[.setState .kDisconnected, .connectionCallback .kDisconnected],
          by simp [enter, notify]⟩
      · exact ⟨[], (List.append_nil _).symm⟩
  | message =>
      exact ⟨_, rfl⟩

theorem orderly_of_step (story : Story) (move : Move) (h : story.Inv)
    (horderly : (story.step move).Orderly) : story.Orderly := by
  obtain ⟨added, hadded⟩ := notices_step story move
  obtain ⟨-, hdisconnected, -, hsilent, -⟩ := horderly
  rw [hadded] at hdisconnected hsilent
  rw [List.count_append] at hdisconnected
  exact (orderly_iff h).2 ⟨by omega, (List.pairwise_append.1 hsilent).1⟩

/-- **One move.**  An orderly story stays orderly unless a connection that is disconnected is closed, or
has a message read. -/
theorem orderly_step_iff (story : Story) (move : Move) (h : story.Inv) (horderly : story.Orderly) :
    (story.step move).Orderly ↔ story.Allowed move := by
  rw [orderly_iff (inv_step story move h)]
  obtain ⟨hdisconnected, hsilent⟩ := (orderly_iff h).1 horderly
  have htold : story.state_ = .kDisconnected ↔
      0 < story.notices.count (.connectionCallback .kDisconnected) := by
    rw [h.told, List.count_pos_iff]
  cases move with
  | shutdown =>
      refine iff_of_true ?_ trivial
      simp only [step]
      split
      · refine ⟨by simpa [enter, notify] using hdisconnected, ?_⟩
        exact List.pairwise_append.2 ⟨hsilent, List.pairwise_singleton _ _, by simp⟩
      · exact ⟨hdisconnected, hsilent⟩
  | close =>
      have hcount : (story.step .close).notices.count (.connectionCallback .kDisconnected) =
          story.notices.count (.connectionCallback .kDisconnected) + 1 := by
        simp [step, enter, notify]
      have hquiet : (story.step .close).notices.Pairwise fun before after =>
          before = .connectionCallback .kDisconnected → after ≠ .messageCallback := by
        simp only [step, enter, notify, List.append_assoc]
        exact List.pairwise_append.2 ⟨hsilent, by simp, by simp⟩
      rw [hcount, Allowed, ne_eq, htold]
      constructor
      · rintro ⟨hle, -⟩
        omega
      · exact fun hfirst => ⟨by omega, hquiet⟩
  | destroy =>
      refine iff_of_true ?_ trivial
      simp only [step]
      split
      · next hstate =>
        -- the first to be told
        have hfirst : story.notices.count (.connectionCallback .kDisconnected) = 0 := by
          have := htold.not.1 (by simp [hstate])
          omega
        refine ⟨by simp [enter, notify, hfirst], ?_⟩
        simp only [enter, notify, List.append_assoc]
        exact List.pairwise_append.2 ⟨hsilent, by simp, by simp⟩
      · exact ⟨hdisconnected, hsilent⟩
  | message =>
      have hcount : (story.step .message).notices.count (.connectionCallback .kDisconnected) =
          story.notices.count (.connectionCallback .kDisconnected) := by
        simp [step, notify]
      rw [hcount, Allowed, ne_eq, h.told]
      simp only [step, notify, List.pairwise_append, hdisconnected, hsilent, List.pairwise_singleton,
        List.mem_singleton, true_and]
      constructor
      · intro hno hmem
        exact hno _ hmem _ rfl rfl rfl
      · intro hno before hbefore after _ heq _
        exact hno (heq ▸ hbefore)

/-- A series of moves leaves the story orderly precisely when each of them is allowed. -/
theorem orderly_foldl_iff {story : Story} (h : story.Inv) (horderly : story.Orderly)
    (moves : List Move) :
    (moves.foldl step story).Orderly ↔ Runs.Guarded step Allowed story moves := by
  rw [Runs.guarded_iff_throughout inv_step orderly_step_iff h horderly]
  exact (Runs.throughout_iff_final inv_step orderly_of_step h).symm

end Story

/-! ## Runs of a connection -/

/-- What happens to a connection once it is established, on its loop. -/
inductive Event where
  | poll (revents : Mask)
  | handleEvent (h : Handling)
  | send (data : Bytes) (r : WriteResult)
  /-- The functor of a `send` from another thread. -/
  | sendInLoop (data : Bytes) (r : WriteResult)
  | shutdown
  | handleClose
  | connectDestroyed

namespace OnLoop

section runs

variable {ι : Type} (c : ι)

/-- The connection on the poller of its loop, established. -/
def start (sockfd : Int) (poller : EpollPoller ι) : OnLoop ι :=
  connectEstablished c { conn := .new sockfd, poller }

/-- The event closes the connection at most once, and only while it is not disconnected; and it does not
read from it when it is disconnected or has just been closed, except in vain. -/
def ClosesOnce (a : OnLoop ι) : Event → Prop
  | .handleEvent h =>
      ∀ revents, a.conn.revents_ = some revents →
        (closes revents = true → a.conn.state_ ≠ .kDisconnected) ∧
          (reads revents = true → 0 ≤ h.n →
            a.conn.state_ ≠ .kDisconnected ∧ closes revents = false)
  | .handleClose => a.conn.state_ ≠ .kDisconnected
  | _ => True

variable {c}

/-- The moves an event makes. -/
def moves (a : OnLoop ι) : Event → List Move
  | .handleEvent h =>
      match a.conn.revents_ with
      | none => []
      | some revents => handlingMoves revents h
  | .shutdown => [.shutdown]
  | .handleClose => [.close]
  | .connectDestroyed => [.destroy]
  | _ => []

/-- Shutdowns are always allowed. -/
theorem guarded_calls (story : Story) (calls : List UserCall) :
    Runs.Guarded Story.step Story.Allowed story (calls.flatMap UserCall.moves) := by
  induction calls generalizing story with
  | nil =>
      trivial
  | cons call calls ih =>
      cases call with
      | send data r =>
          exact ih story
      | shutdown =>
          exact ⟨trivial, ih _⟩

theorem guarded_moves_iff (a : OnLoop ι) (e : Event) :
    Runs.Guarded Story.step Story.Allowed a.story (a.moves e) ↔ a.ClosesOnce e := by
  cases e with
  | handleEvent h =>
      simp only [moves, ClosesOnce]
      cases hrevents : a.conn.revents_ with
      | none =>
          simp [Runs.Guarded]
      | some revents =>
          have hstate : a.story.state_ = a.conn.state_ := rfl
          simp only [handlingMoves, Runs.guarded_append, Option.some.injEq, forall_eq']
          -- whether the event closes before it reads decides in which state it reads
          cases hcloses : closes revents with
          | false =>
              -- an error, the end of the stream, or bytes
              rcases Int.lt_trichotomy h.n 0 with hn | hn | hn
              · simp [Runs.Guarded, not_lt_of_gt hn, hn.ne, not_le_of_gt hn]
              · cases hreads : reads revents <;> simp [Runs.Guarded, Story.Allowed, hn, hstate]
              · cases hreads : reads revents <;>
                  simp [Runs.Guarded, Story.Allowed, hn, hn.le, hstate, guarded_calls]
          | true =>
              have hclosed : (a.story.step .close).state_ = .kDisconnected := rfl
              rcases Int.lt_trichotomy h.n 0 with hn | hn | hn
              · simp [Runs.Guarded, Story.Allowed, hstate, not_lt_of_gt hn, hn.ne, not_le_of_gt hn]
              · cases hreads : reads revents <;>
                  simp [Runs.Guarded, Story.Allowed, hn, hstate, hclosed]
              · cases hreads : reads revents <;>
                  simp [Runs.Guarded, Story.Allowed, hn, hn.le, hstate, hclosed]
  | handleClose =>
      simp [moves, Runs.Guarded, Story.Allowed, ClosesOnce, story]
  | _ =>
      simp [moves, Runs.Guarded, Story.Allowed, ClosesOnce]

theorem story_start (sockfd : Int) (poller : EpollPoller ι) :
    (start c sockfd poller).story =
      { state_ := .kConnected
        notices := [.setState .kConnected, .connectionCallback .kConnected] } := rfl

theorem inv_start (sockfd : Int) (poller : EpollPoller ι) :
    (start c sockfd poller).story.Inv := by
  rw [story_start]
  exact ⟨by decide, by decide, by decide, by decide, by decide⟩

theorem orderly_start (sockfd : Int) (poller : EpollPoller ι) :
    (start c sockfd poller).story.Orderly := by
  rw [story_start]
  exact ⟨by decide, by decide, by decide, by decide, by decide⟩

variable [DecidableEq ι]

def step (c : ι) (a : OnLoop ι) : Event → OnLoop ι
  | .poll revents => a.poll c revents
  | .handleEvent h => a.handleEvent c h
  | .send data r => a.send c data r
  | .sendInLoop data r => a.sendInLoop c data r
  | .shutdown => a.shutdown
  | .handleClose => a.handleClose c
  | .connectDestroyed => a.connectDestroyed c

theorem story_step (a : OnLoop ι) (e : Event) :
    (a.step c e).story = (a.moves e).foldl Story.step a.story := by
  cases e with
  | poll revents =>
      simp only [step, poll]
      split <;> rfl
  | handleEvent h =>
      simp only [step, handleEvent, moves]
      split
      · rfl
      · exact story_handleEventWithGuard c _ _ h
  | send data r =>
      exact story_send c a data r
  | sendInLoop data r =>
      exact story_sendInLoop c a data r
  | shutdown =>
      exact story_shutdown a
  | handleClose =>
      exact story_handleClose c a
  | connectDestroyed =>
      exact story_connectDestroyed c a

theorem inv_story_step (a : OnLoop ι) (e : Event) (h : a.story.Inv) : (a.step c e).story.Inv := by
  rw [story_step]
  exact Runs.invariant_run Story.inv_step h _

theorem orderly_step_iff (a : OnLoop ι) (e : Event) (h : a.story.Inv) (horderly : a.story.Orderly) :
    (a.step c e).story.Orderly ↔ a.ClosesOnce e := by
  rw [story_step, Story.orderly_foldl_iff h horderly, guarded_moves_iff]

/-- **The callbacks of a connection come in order precisely when no event closes it twice or reads from
it after the close.** -/
theorem orderly_throughout_iff (c : ι) (sockfd : Int) (poller : EpollPoller ι) (es : List Event) :
    Runs.Throughout (step c) (fun a => a.story.Orderly) (start c sockfd poller) es ↔
      Runs.Guarded (step c) ClosesOnce (start c sockfd poller) es :=
  (Runs.guarded_iff_throughout inv_story_step orderly_step_iff (inv_start sockfd poller)
    (orderly_start sockfd poller)).symm

end runs

/-- A hang-up together with urgent data, and nothing to read: the connection is closed twice. -/
theorem hang_up_closes_twice :
    let a := [Event.poll (EPOLLHUP ||| EPOLLPRI), .handleEvent ⟨0, [], .accepted 0⟩].foldl (step ())
      (start () 5 .new)
    a.conn.notices =
      [.setState .kConnected, .connectionCallback .kConnected,
        .setState .kDisconnected, .connectionCallback .kDisconnected, .closeCallback,
        .setState .kDisconnected, .connectionCallback .kDisconnected, .closeCallback] ∧
      ¬ a.story.Orderly := by
  intro a
  have hnotices : a.conn.notices =
      [.setState .kConnected, .connectionCallback .kConnected,
        .setState .kDisconnected, .connectionCallback .kDisconnected, .closeCallback,
        .setState .kDisconnected, .connectionCallback .kDisconnected, .closeCallback] := by
    decide
  refine ⟨hnotices, ?_⟩
  intro horderly
  -- `closeCallback_` was called twice
  have hclosed : a.conn.notices.count .closeCallback ≤ 1 := horderly.closed
  rw [hnotices] at hclosed
  exact absurd hclosed (by decide)

end OnLoop
end Lifecycle
end Net
end Myoj
