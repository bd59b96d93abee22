import Myoj.Net.Lifecycle

/-!
# Registration — what a connection leaves in the poller of its loop

Every member of `TcpConnection` goes to the poller through the connection's own channel.

* `Entered` — index, epoll set and `channels_` agree on one channel;
* `Confined` — nothing but the entries of that channel was touched;
* `Consistent` — what the state of a connection says about its channel;
* `Keeps` — a member keeps the connection consistent and stays with its own entries.

The members are composed of few calls, and so are the proofs.
-/

namespace Myoj
namespace Net

open Epoll (EpollPoller Polled)

namespace Epoll
namespace Polled

variable {ι : Type}

/-- The epoll set holds an added channel with its mask, and `channels_` no channel that is not added. -/
structure Entered (c : ι) (p : Polled ι) : Prop where
  entry : p.poller.epoll p.channel.fd_ =
    if p.channel.index_ = .kAdded then some (p.channel.events_, c) else none
  mapped : p.channel.index_ ≠ .kAdded → p.poller.channels_ p.channel.fd_ ≠ some c

/-- Between `p` and `q` the poller was asked for nothing but the fd of the channel. -/
structure Confined (c : ι) (p q : Polled ι) : Prop where
  fd : q.channel.fd_ = p.channel.fd_
  epoll : ∀ fd, fd ≠ p.channel.fd_ → q.poller.epoll fd = p.poller.epoll fd
  channels : ∀ fd, fd ≠ p.channel.fd_ → q.poller.channels_ fd = p.poller.channels_ fd
  mapped : ∀ d, q.poller.channels_ p.channel.fd_ = some d →
    d = c ∨ p.poller.channels_ p.channel.fd_ = some d

variable {c : ι} {p q r : Polled ι}

theorem Entered.isSome (h : p.Entered c) :
    (p.poller.epoll p.channel.fd_).isSome = true ↔ p.channel.index_ = .kAdded := by
  rw [h.entry]
  split <;> simp [*]

/-- The entry at the fd is that of the channel. -/
theorem Entered.owner (h : p.Entered c) {events : Mask} {d : ι}
    (hfound : p.poller.epoll p.channel.fd_ = some (events, d)) :
    d = c ∧ p.channel.index_ = .kAdded := by
  have hentry := h.entry
  rw [hfound] at hentry
  by_cases hadded : p.channel.index_ = .kAdded
  · rw [if_pos hadded, Option.some.injEq, Prod.mk.injEq] at hentry
    exact ⟨hentry.2, hadded⟩
  · rw [if_neg hadded] at hentry
    exact absurd hentry (by simp)

theorem Confined.refl (c : ι) (p : Polled ι) : Confined c p p where
  fd := rfl
  epoll := fun _ _ => rfl
  channels := fun _ _ => rfl
  mapped := fun _ h => Or.inr h

theorem Confined.trans (h : Confined c p q) (h' : Confined c q r) : Confined c p r where
  fd := h'.fd.trans h.fd
  epoll := by
    intro fd hfd
    rw [h'.epoll fd (by rwa [h.fd]), h.epoll fd hfd]
  channels := by
    intro fd hfd
    rw [h'.channels fd (by rwa [h.fd]), h.channels fd hfd]
  mapped := by
    intro d hd
    rw [← h.fd] at hd
    rcases h'.mapped d hd with rfl | hq
    · exact Or.inl rfl
    · rw [h.fd] at hq
      exact h.mapped d hq

theorem Entered.update (h : p.Entered c) (events : Mask) : (p.update c events).Entered c where
  entry := by
    rw [update_eq c h.isSome]
    exact Function.update_self ..
  mapped := by
    rw [update_eq c h.isSome]
    intro hindex
    -- only the update that takes the channel out leaves it without being added
    have hdrops : p.channel.index_ = .kAdded ∧ events = 0#32 := by
      by_contra hkeeps
      exact hindex (by simp [Channel.afterUpdate, hkeeps])
    simp [Channel.afterUpdate, hdrops]

theorem Entered.confined_update (h : p.Entered c) (events : Mask) :
    Confined c p (p.update c events) := by
  rw [update_eq c h.isSome]
  refine ⟨rfl, fun fd hfd => Function.update_of_ne hfd .., fun fd hfd => Function.update_of_ne hfd ..,
    ?_⟩
  intro d hd
  have hd : (if p.channel.index_ = .kNew then some c
      else if p.channel.index_ = .kAdded ∧ events = 0#32 then none
      else p.poller.channels_ p.channel.fd_) = some d := by
    simpa using hd
  split at hd
  · exact Or.inl (Option.some.inj hd).symm
  · split at hd
    · simp at hd
    · exact Or.inr hd

end Polled
end Epoll

namespace Lifecycle
namespace OnLoop

section consistency

variable {ι : Type}

/-- What the state of the connection says about its channel. -/
structure Consistent (c : ι) (a : OnLoop ι) : Prop where
  entered : a.polled.Entered c
  connecting : a.conn.state_ = .kConnecting →
    a.conn.channel_.index_ = .kNew ∧ a.conn.channel_.events_ = 0#32
  connected : a.conn.state_ = .kConnected ∨ a.conn.state_ = .kDisconnecting →
    a.conn.channel_.index_ = .kAdded ∧ a.conn.channel_.isReading = true
  disconnected : a.conn.state_ = .kDisconnected → a.conn.channel_.events_ = 0#32
  reported : a.conn.revents_.isSome = true → a.conn.state_ ≠ .kConnecting

structure Keeps (c : ι) (a b : OnLoop ι) : Prop where
  consistent : b.Consistent c
  confined : a.polled.Confined c b.polled
  connecting : b.conn.state_ = .kConnecting ↔ a.conn.state_ = .kConnecting

variable {c : ι} {a b d : OnLoop ι}

theorem Consistent.keeps (h : a.Consistent c) : Keeps c a a :=
  ⟨h, .refl c _, Iff.rfl⟩

theorem Keeps.trans (h : Keeps c a b) (h' : Keeps c b d) : Keeps c a d :=
  ⟨h'.consistent, h.confined.trans h'.confined, h'.connecting.trans h.connecting⟩

/-- Notices are nothing to the poller. -/
theorem Consistent.notify (h : a.Consistent c) (notice : Notice) : (a.notify notice).Consistent c :=
  ⟨h.entered, h.connecting, h.connected, h.disconnected, h.reported⟩

theorem Keeps.notify (h : Keeps c a b) (notice : Notice) : Keeps c a (b.notify notice) :=
  ⟨h.consistent.notify notice, h.confined, h.connecting⟩

theorem Consistent.shutdown (h : a.Consistent c) : Keeps c a a.shutdown := by
  unfold OnLoop.shutdown
  split
  · next hstate =>
    exact
      { consistent :=
          { entered := h.entered
            connecting := by simp [OnLoop.setState, OnLoop.notify]
            connected := fun _ => h.connected (Or.inl hstate)
            disconnected := by simp [OnLoop.setState, OnLoop.notify]
            reported := by simp [OnLoop.setState, OnLoop.notify] }
        confined := .refl c _
        connecting := by simp [OnLoop.setState, OnLoop.notify, hstate] }
  · exact h.keeps

/-- The channel gives up all interest, which takes it out of the epoll set, or puts it in again. -/
theorem Consistent.disableAll (h : a.Consistent c) (hstate : a.conn.state_ ≠ .kConnecting) :
    let b := a.setState .kDisconnected
    Keeps c a (b.onChannel (b.polled.disableAll c)) where
  consistent :=
    { entered := h.entered.update Epoll.Channel.kNoneEvent
      connecting := by simp [OnLoop.onChannel, OnLoop.setState, OnLoop.notify]
      connected := by simp [OnLoop.onChannel, OnLoop.setState, OnLoop.notify]
      disconnected := fun _ => Polled.events_update c _ _
      reported := by simp [OnLoop.onChannel, OnLoop.setState, OnLoop.notify] }
  confined := h.entered.confined_update Epoll.Channel.kNoneEvent
  connecting := by simp [OnLoop.onChannel, OnLoop.setState, OnLoop.notify, hstate]

theorem Consistent.handleClose (h : a.Consistent c) (hstate : a.conn.state_ ≠ .kConnecting) :
    Keeps c a (a.handleClose c) :=
  ((h.disableAll hstate).notify _).notify _

theorem Consistent.connectDestroyed (h : a.Consistent c) : Keeps c a (a.connectDestroyed c) := by
  unfold OnLoop.connectDestroyed
  split
  · next hstate => exact (h.disableAll (by simp [hstate])).notify _
  · exact h.keeps

/-- The connection is entered with an interest in reading. -/
theorem Consistent.connectEstablished (h : a.Consistent c) (hstate : a.conn.state_ = .kConnecting) :
    (a.connectEstablished c).Consistent c ∧
      a.polled.Confined c (a.connectEstablished c).polled ∧
      (a.connectEstablished c).conn.state_ = .kConnected := by
  obtain ⟨hnew, hnone⟩ := h.connecting hstate
  have hchannel : (a.polled.enableReading c).channel =
      { a.conn.channel_ with events_ := Epoll.Channel.kReadEvent, index_ := .kAdded } := by
    have heq := Polled.update_eq c h.entered.isSome
      (a.conn.channel_.events_ ||| Epoll.Channel.kReadEvent)
    -- no interest so far, so that the update adds the channel
    have hmask : a.conn.channel_.events_ ||| Epoll.Channel.kReadEvent = Epoll.Channel.kReadEvent := by
      rw [hnone]
      decide
    rw [hmask] at heq
    simp only [Polled.enableReading, polled, hmask] at heq ⊢
    rw [heq]
    simp [Epoll.Channel.afterUpdate, hnew]
  refine ⟨?_, h.entered.confined_update _, rfl⟩
  exact
    { entered := h.entered.update _
      connecting := by simp [OnLoop.connectEstablished, OnLoop.connectionCallback, OnLoop.notify,
        OnLoop.onChannel, OnLoop.setState]
      connected := by
        intro _
        have hconn : (a.connectEstablished c).conn.channel_ =
            { a.conn.channel_ with events_ := Epoll.Channel.kReadEvent, index_ := .kAdded } :=
          hchannel
        rw [hconn]
        exact ⟨rfl, by simp [Epoll.Channel.isReading, Epoll.Channel.kReadEvent, EPOLLIN, EPOLLPRI]⟩
      disconnected := by simp [OnLoop.connectEstablished, OnLoop.connectionCallback, OnLoop.notify,
        OnLoop.onChannel, OnLoop.setState]
      reported := by simp [OnLoop.connectEstablished, OnLoop.connectionCallback, OnLoop.notify,
        OnLoop.onChannel, OnLoop.setState] }

/-- An update that leaves an interest in reading. -/
theorem Consistent.update (h : a.Consistent c)
    (hup : a.conn.state_ = .kConnected ∨ a.conn.state_ = .kDisconnecting) {events : Mask}
    (hreading : events &&& Epoll.Channel.kReadEvent ≠ 0#32) :
    Keeps c a (a.onChannel (a.polled.update c events)) := by
  have hchannel : (a.polled.update c events).channel =
      { a.conn.channel_ with events_ := events, index_ := .kAdded } := by
    -- a mask with reading in it is not empty
    have hsome : events ≠ 0#32 := by
      rintro rfl
      exact hreading (by simp)
    rw [Polled.update_eq c h.entered.isSome]
    simp [Epoll.Channel.afterUpdate, hsome, polled]
  have hconn : (a.onChannel (a.polled.update c events)).conn.channel_ =
      { a.conn.channel_ with events_ := events, index_ := .kAdded } := hchannel
  have hstate : (a.onChannel (a.polled.update c events)).conn.state_ = a.conn.state_ := rfl
  exact
    { consistent :=
        { entered := h.entered.update _
          connecting := by
            intro hconnecting
            rw [hstate] at hconnecting
            simp [hconnecting] at hup
          connected := by
            intro _
            rw [hconn]
            exact ⟨rfl, bne_iff_ne.2 hreading⟩
          disconnected := by
            intro hdown
            rw [hstate] at hdown
            simp [hdown] at hup
          reported := h.reported }
      confined := h.entered.confined_update _
      connecting := Iff.rfl }

theorem reading_enableWriting {events : Mask} (h : events &&& Epoll.Channel.kReadEvent ≠ 0#32) :
    (events ||| Epoll.Channel.kWriteEvent) &&& Epoll.Channel.kReadEvent ≠ 0#32 := by
  rw [BitVec.and_comm, BitVec.and_or_distrib_left, BitVec.and_comm _ events]
  simpa [Epoll.Channel.kWriteEvent, Epoll.Channel.kReadEvent, EPOLLIN, EPOLLPRI, EPOLLOUT] using h

theorem reading_disableWriting {events : Mask} (h : events &&& Epoll.Channel.kReadEvent ≠ 0#32) :
    events &&& ~~~Epoll.Channel.kWriteEvent &&& Epoll.Channel.kReadEvent ≠ 0#32 := by
  have hmask : ~~~Epoll.Channel.kWriteEvent &&& Epoll.Channel.kReadEvent =
      Epoll.Channel.kReadEvent := by
    decide
  rwa [BitVec.and_assoc, hmask]

theorem Consistent.carry (h : a.Consistent c)
    (hup : a.conn.state_ = .kConnected ∨ a.conn.state_ = .kDisconnecting) (o : Outbox) :
    Keeps c a (a.carry c o) := by
  have hreading := bne_iff_ne.1 (h.connected hup).2
  -- the buffer is nothing to the poller
  let b : OnLoop ι := { a with conn := { a.conn with outputBuffer_ := o.queued } }
  have hb : b.Consistent c := ⟨h.entered, h.connecting, h.connected, h.disconnected, h.reported⟩
  have hab : Keeps c a b := ⟨hb, .refl c _, Iff.rfl⟩
  simp only [OnLoop.carry]
  split
  · exact hab.trans (hb.update hup (reading_enableWriting hreading))
  · split
    · exact hab.trans (hb.update hup (reading_disableWriting hreading))
    · exact hab

/-- Before it is established and after it is closed a connection sends nothing. -/
theorem Consistent.sendInLoop (h : a.Consistent c) (hstate : a.conn.state_ ≠ .kConnecting)
    (data : Bytes) (r : WriteResult) : Keeps c a (a.sendInLoop c data r) := by
  unfold OnLoop.sendInLoop
  split
  · exact h.keeps
  · next hopen =>
    refine h.carry ?_ _
    cases hcases : a.conn.state_ with
    | kConnecting =>
        exact absurd hcases hstate
    | kConnected =>
        exact Or.inl rfl
    | kDisconnecting =>
        exact Or.inr rfl
    | kDisconnected =>
        exact absurd hcases hopen

theorem Consistent.send (h : a.Consistent c) (data : Bytes) (r : WriteResult) :
    Keeps c a (a.send c data r) := by
  unfold OnLoop.send
  split
  · next hstate => exact h.sendInLoop (by simp [hstate]) data r
  · exact h.keeps

theorem Consistent.handleWrite (h : a.Consistent c) (r : WriteResult) :
    Keeps c a (a.handleWrite c r) := by
  unfold OnLoop.handleWrite
  split
  · next hwriting =>
    refine h.carry ?_ _
    have hsome : a.conn.channel_.events_ ≠ 0#32 := by
      intro hnone
      simp [Epoll.Channel.isWriting, hnone] at hwriting
    cases hcases : a.conn.state_ with
    | kConnecting =>
        exact absurd (h.connecting hcases).2 hsome
    | kConnected =>
        exact Or.inl rfl
    | kDisconnecting =>
        exact Or.inr rfl
    | kDisconnected =>
        exact absurd (h.disconnected hcases) hsome
  · exact h.keeps

theorem Consistent.calls (h : a.Consistent c) (calls : List UserCall) :
    Keeps c a (calls.foldl (userCall c) a) := by
  induction calls generalizing a with
  | nil =>
      exact h.keeps
  | cons call calls ih =>
      have hone : Keeps c a (a.userCall c call) := by
        cases call with
        | send data r =>
            exact h.send data r
        | shutdown =>
            exact h.shutdown
      exact hone.trans (ih hone.consistent)

theorem Consistent.handleRead (h : a.Consistent c) (hstate : a.conn.state_ ≠ .kConnecting)
    (handling : Handling) : Keeps c a (a.handleRead c handling) := by
  unfold OnLoop.handleRead
  split
  · exact (h.keeps.notify .messageCallback).trans ((h.notify .messageCallback).calls handling.calls)
  · split
    · exact h.handleClose hstate
    · exact h.keeps

theorem Consistent.handleEventWithGuard (h : a.Consistent c) (hstate : a.conn.state_ ≠ .kConnecting)
    (revents : Mask) (handling : Handling) :
    Keeps c a (a.handleEventWithGuard c revents handling) := by
  have hclose : Keeps c a (if closes revents then a.handleClose c else a) := by
    split
    · exact h.handleClose hstate
    · exact h.keeps
  have hread : ∀ b, Keeps c a b → Keeps c a (if reads revents then b.handleRead c handling else b) := by
    intro b hb
    split
    · exact hb.trans (hb.consistent.handleRead (fun heq => hstate (hb.connecting.1 heq)) handling)
    · exact hb
  have hwrite : ∀ b, Keeps c a b →
      Keeps c a (if writes revents then b.handleWrite c handling.written else b) := by
    intro b hb
    split
    · exact hb.trans (hb.consistent.handleWrite handling.written)
    · exact hb
  exact hwrite _ (hread _ hclose)

theorem Consistent.handleEvent (h : a.Consistent c) (handling : Handling) :
    Keeps c a (a.handleEvent c handling) := by
  unfold OnLoop.handleEvent
  cases hrevents : a.conn.revents_ with
  | none =>
      exact h.keeps
  | some revents =>
      have hstate : a.conn.state_ ≠ .kConnecting := h.reported (by simp [hrevents])
      let b : OnLoop ι := { a with conn := { a.conn with revents_ := none } }
      have hb : b.Consistent c := ⟨h.entered, h.connecting, h.connected, h.disconnected, by simp [b]⟩
      have hab : Keeps c a b := ⟨hb, .refl c _, Iff.rfl⟩
      exact hab.trans (hb.handleEventWithGuard hstate revents handling)

/-- What is reported is registered, and that takes `connectEstablished`. -/
theorem Consistent.poll [DecidableEq ι] (h : a.Consistent c) (revents : Mask) :
    Keeps c a (a.poll c revents) := by
  unfold OnLoop.poll
  split
  · next hreport =>
    have hstate : a.conn.state_ ≠ .kConnecting := by
      intro hconnecting
      have hentry := h.entered.entry
      simp only [polled, (h.connecting hconnecting).1, reduceCtorEq, if_false] at hentry
      simp [OnLoop.mayReport, hentry] at hreport
    exact
      { consistent := ⟨h.entered, h.connecting, h.connected, h.disconnected, fun _ => hstate⟩
        confined := .refl c _
        connecting := Iff.rfl }
  · exact h.keeps

/-! ## After the close -/

/-- Where the index says that the channel is not registered, the connection neither is up nor sends. -/
theorem Consistent.down (h : a.Consistent c) (hindex : a.conn.channel_.index_ ≠ .kAdded) :
    a.conn.state_ = .kConnecting ∨ a.conn.state_ = .kDisconnected := by
  -- a connection that is up has its channel in the poller
  cases hstate : a.conn.state_ with
  | kConnecting =>
      exact Or.inl rfl
  | kConnected =>
      exact absurd (h.connected (Or.inl hstate)).1 hindex
  | kDisconnecting =>
      exact absurd (h.connected (Or.inr hstate)).1 hindex
  | kDisconnected =>
      exact Or.inr rfl

/-- Another close puts the channel in when it was out, and takes it out when it was in. -/
theorem Consistent.index_handleClose (h : a.Consistent c) :
    (a.handleClose c).conn.channel_.index_ =
      if a.conn.channel_.index_ = .kAdded then .kDeleted else .kAdded := by
  have hchannel : (a.handleClose c).conn.channel_ = (a.polled.disableAll c).channel := rfl
  rw [hchannel, Polled.disableAll, Polled.update_eq c h.entered.isSome]
  simp [Epoll.Channel.afterUpdate, polled, Epoll.Channel.kNoneEvent]

theorem calls_disconnected (hstate : a.conn.state_ = .kDisconnected) (calls : List UserCall) :
    calls.foldl (userCall c) a = a := by
  induction calls with
  | nil =>
      rfl
  | cons call calls ih =>
      have hone : a.userCall c call = a := by
        cases call with
        | send data r =>
            simp [userCall, send, hstate]
        | shutdown =>
            simp [userCall, shutdown, hstate]
      rw [List.foldl_cons, hone, ih]

theorem Consistent.handleWrite_disconnected (h : a.Consistent c)
    (hstate : a.conn.state_ = .kDisconnected) (r : WriteResult) : a.handleWrite c r = a := by
  have hwriting : a.conn.channel_.isWriting = false := by
    simp [Epoll.Channel.isWriting, h.disconnected hstate]
  simp [OnLoop.handleWrite, hwriting]

/-- A read on a connection that is disconnected closes it again when there are no bytes, and does nothing
to the channel otherwise. -/
theorem Consistent.handleRead_disconnected (h : a.Consistent c)
    (hstate : a.conn.state_ = .kDisconnected) (handling : Handling) :
    (a.handleRead c handling).Consistent c ∧
      (a.handleRead c handling).conn.state_ = .kDisconnected ∧
      (a.handleRead c handling).conn.channel_.index_ =
        if handling.n = 0 then (a.handleClose c).conn.channel_.index_ else a.conn.channel_.index_ := by
  refine ⟨(h.handleRead (by simp [hstate]) handling).consistent, ?_⟩
  unfold OnLoop.handleRead
  split
  · next hpos =>
    rw [calls_disconnected (by exact hstate), if_neg (by omega)]
    exact ⟨hstate, rfl⟩
  · split
    · exact ⟨rfl, rfl⟩
    · exact ⟨hstate, rfl⟩

/-- An event handled on a connection that is disconnected leaves its channel registered just when it
closes the connection once. -/
theorem Consistent.index_handleEvent (h : a.Consistent c) (hstate : a.conn.state_ = .kDisconnected)
    (hindex : a.conn.channel_.index_ ≠ .kAdded) {revents : Mask}
    (hrevents : a.conn.revents_ = some revents) (handling : Handling) :
    (a.handleEvent c handling).conn.channel_.index_ ≠ .kAdded ↔
      (closes revents = true ↔ reads revents = true ∧ handling.n = 0) := by
  -- the loop takes the report first
  let b : OnLoop ι := { a with conn := { a.conn with revents_ := none } }
  have hb : b.Consistent c := ⟨h.entered, h.connecting, h.connected, h.disconnected, by simp [b]⟩
  have hwrite : ∀ d : OnLoop ι, d.Consistent c → d.conn.state_ = .kDisconnected →
      (if writes revents then d.handleWrite c handling.written else d) = d := by
    intro d hd hdown
    split
    · exact hd.handleWrite_disconnected hdown _
    · rfl
  have hclosed : (b.handleClose c).Consistent c := (hb.handleClose (by simp [b, hstate])).consistent
  -- closing again adds the channel, and once more deletes it
  have hin : (b.handleClose c).conn.channel_.index_ = .kAdded := by
    rw [hb.index_handleClose]
    exact if_neg hindex
  have hout : ((b.handleClose c).handleClose c).conn.channel_.index_ = .kDeleted := by
    rw [hclosed.index_handleClose, if_pos hin]
  have hevent : a.handleEvent c handling = b.handleEventWithGuard c revents handling := by
    simp only [OnLoop.handleEvent, hrevents, b]
  have hbdown : b.conn.state_ = .kDisconnected := hstate
  have hbindex : b.conn.channel_.index_ ≠ .kAdded := hindex
  rw [hevent]
  simp only [OnLoop.handleEventWithGuard]
  -- close, read and write in the order of the guard
  cases hcloses : closes revents with
  | true =>
      obtain ⟨hcons, hdown, hresult⟩ := hclosed.handleRead_disconnected rfl handling
      cases hreads : reads revents with
      | true =>
          simp only [if_true]
          rw [hwrite _ hcons hdown, hresult, hout, hin]
          by_cases hn : handling.n = 0
          · simp [hn]
          · simp [hn]
      | false =>
          simp only [if_true, Bool.false_eq_true, if_false]
          rw [hwrite _ hclosed rfl, hin]
          simp
  | false =>
      obtain ⟨hcons, hdown, hresult⟩ := hb.handleRead_disconnected hbdown handling
      cases hreads : reads revents with
      | true =>
          simp only [if_true, Bool.false_eq_true, if_false]
          rw [hwrite _ hcons hdown, hresult, hin]
          by_cases hn : handling.n = 0
          · simp [hn]
          · simp [hn, hbindex]
      | false =>
          simp only [Bool.false_eq_true, if_false]
          rw [hwrite _ hb hbdown]
          simp [hbindex]

end consistency

end OnLoop
end Lifecycle
end Net
end Myoj
