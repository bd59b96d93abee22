import Myoj.Net.ConnectionTable

/-!
# Deregistration — destroyed connections and the pollers

A connection leaves the poller of its loop when it gives up all interest, in `handleClose` or in
`connectDestroyed`; nothing else takes it out.

* `Wired` — every entry of a poller is that of a connection on its loop, and says what the connection
  thinks it says;
* `Begun` — a connection is `kConnecting` until it is established, and nothing happens to it before;
* `Served` — the table of a server in service, from the point of view of its connections;
* `Deregistered` — no connection that was destroyed is in a poller;
* `Clears` — the steps that keep it so; by `deregistered_throughout_iff` no others do.
-/

namespace Myoj
namespace Net
namespace TcpServer

open Epoll (EpollPoller Polled)
open Lifecycle (Connection OnLoop Handling)
open Lifecycle.OnLoop (Consistent Keeps closes reads)

/-- The fd of a connection. -/
def fd (s : TcpServer) (c : Nat) : Int := (s.entry c).conn.channel_.fd_

/-! ## The pollers and the connections -/

structure Wired (s : TcpServer) : Prop where
  fds : ∀ c < s.sockfds.length, s.sockfds[c]? = some (s.fd c)
  consistent : ∀ c, s.alive c = true → (s.onLoop c).Consistent c
  distinct : ∀ c d, s.alive c = true → s.alive d = true → s.fd c = s.fd d → c = d
  owner : ∀ loop fd events c, (s.pollers loop).epoll fd = some (events, c) →
    s.alive c = true ∧ (s.entry c).ioLoop = loop ∧ s.fd c = fd
  mapped : ∀ loop fd c, (s.pollers loop).channels_ fd = some c →
    c < s.sockfds.length ∧ (s.entry c).ioLoop = loop ∧ s.fd c = fd

section wired

variable {s : TcpServer}

/-- The pollers do not look at the table, the queues and the log. -/
theorem Wired.congr (h : s.Wired) {t : TcpServer} (hsockfds : t.sockfds = s.sockfds)
    (hentry : t.entry = s.entry) (hpollers : t.pollers = s.pollers) : t.Wired := by
  -- fds and lives are read off the entries
  have halive : ∀ c, t.alive c = s.alive c := fun c => by simp only [alive, hsockfds, hentry]
  have hfd : ∀ c, t.fd c = s.fd c := fun c => by simp only [fd, hentry]
  exact
    { fds := by
        intro c hc
        rw [hsockfds] at hc ⊢
        rw [hfd, h.fds c hc]
      consistent := by
        intro c hc
        rw [halive] at hc
        have hon : t.onLoop c = s.onLoop c := by simp only [onLoop, hentry, hpollers]
        rw [hon]
        exact h.consistent c hc
      distinct := by
        intro c d hc hd heq
        rw [halive] at hc hd
        rw [hfd, hfd] at heq
        exact h.distinct c d hc hd heq
      owner := by
        intro loop f events c hentry'
        rw [hpollers] at hentry'
        rw [halive, hentry, hfd]
        exact h.owner loop f events c hentry'
      mapped := by
        intro loop f c hentry'
        rw [hpollers] at hentry'
        rw [hsockfds, hentry, hfd]
        exact h.mapped loop f c hentry' }

theorem onLoop_put_self (c : Nat) (a : OnLoop Nat) : (s.put c a).onLoop c = a := by
  simp [onLoop, put]

theorem entry_put_of_ne (c : Nat) (a : OnLoop Nat) {d : Nat} (hd : d ≠ c) :
    (s.put c a).entry d = s.entry d :=
  Function.update_of_ne hd ..

theorem pollers_put_self (c : Nat) (a : OnLoop Nat) :
    (s.put c a).pollers (s.entry c).ioLoop = a.poller :=
  Function.update_self ..

theorem pollers_put_of_ne (c : Nat) (a : OnLoop Nat) {loop : Nat} (h : loop ≠ (s.entry c).ioLoop) :
    (s.put c a).pollers loop = s.pollers loop :=
  Function.update_of_ne h ..

theorem fd_put {c : Nat} {a : OnLoop Nat}
    (hconfined : Polled.Confined c (s.onLoop c).polled a.polled) (d : Nat) :
    (s.put c a).fd d = s.fd d := by
  by_cases hd : d = c
  · subst hd
    have : (s.put d a).fd d = a.conn.channel_.fd_ := by simp [fd, put]
    rw [this]
    exact hconfined.fd
  · rw [fd, entry_put_of_ne c a hd, fd]

/-- What another connection sees of its poller. -/
theorem consistent_congr {c : Nat} {a b : OnLoop Nat} (h : a.Consistent c) (hconn : b.conn = a.conn)
    (hepoll : b.poller.epoll a.conn.channel_.fd_ = a.poller.epoll a.conn.channel_.fd_)
    (hchannels : b.poller.channels_ a.conn.channel_.fd_ = a.poller.channels_ a.conn.channel_.fd_) :
    b.Consistent c where
  entered := by
    refine ⟨?_, ?_⟩
    · -- only its own fd matters
      simp only [OnLoop.polled, hconn, hepoll]
      exact h.entered.entry
    · simp only [OnLoop.polled, hconn, hchannels]
      exact h.entered.mapped
  connecting := by
    rw [hconn]
    exact h.connecting
  connected := by
    rw [hconn]
    exact h.connected
  disconnected := by
    rw [hconn]
    exact h.disconnected
  reported := by
    rw [hconn]
    exact h.reported

/-- Under the other descriptors nothing happens to a poller. -/
theorem pollers_put_of_fd_ne {c : Nat} {a : OnLoop Nat}
    (hconfined : Polled.Confined c (s.onLoop c).polled a.polled) (loop : Nat) {f : Int}
    (hf : f ≠ s.fd c) :
    ((s.put c a).pollers loop).epoll f = (s.pollers loop).epoll f ∧
      ((s.put c a).pollers loop).channels_ f = (s.pollers loop).channels_ f := by
  by_cases hloop : loop = (s.entry c).ioLoop
  · subst hloop
    rw [pollers_put_self]
    exact ⟨hconfined.epoll f hf, hconfined.channels f hf⟩
  · rw [pollers_put_of_ne c a hloop]
    exact ⟨rfl, rfl⟩

/-- The other connections do not notice. -/
theorem Wired.consistent_put_of_ne (h : s.Wired) {c d : Nat} (hc : s.alive c = true)
    (hd : s.alive d = true) (hdc : d ≠ c) {a : OnLoop Nat}
    (hconfined : Polled.Confined c (s.onLoop c).polled a.polled) :
    ((s.put c a).onLoop d).Consistent d := by
  have hne : s.fd d ≠ s.fd c := fun heq => hdc (h.distinct d c hd hc heq)
  have hkept := pollers_put_of_fd_ne hconfined (s.entry d).ioLoop hne
  refine consistent_congr (h.consistent d hd) ?_ ?_ ?_
  · simp only [onLoop, entry_put_of_ne c a hdc]
  · simp only [onLoop, entry_put_of_ne c a hdc]
    exact hkept.1
  · simp only [onLoop, entry_put_of_ne c a hdc]
    exact hkept.2

/-- A connection does something on its loop. -/
theorem Wired.put (h : s.Wired) {c : Nat} (hc : s.alive c = true) {a : OnLoop Nat}
    (hconsistent : a.Consistent c) (hconfined : Polled.Confined c (s.onLoop c).polled a.polled) :
    (s.put c a).Wired where
  fds := by
    intro d hd
    rw [fd_put hconfined]
    exact h.fds d hd
  consistent := by
    intro d hd
    rw [alive_put] at hd
    by_cases hdc : d = c
    · subst hdc
      rw [onLoop_put_self]
      exact hconsistent
    · exact h.consistent_put_of_ne hc hd hdc hconfined
  distinct := by
    intro d d' hd hd' heq
    rw [alive_put] at hd hd'
    rw [fd_put hconfined, fd_put hconfined] at heq
    exact h.distinct d d' hd hd' heq
  owner := by
    intro loop f events d hfound
    rw [alive_put, ioLoop_put, fd_put hconfined]
    by_cases hown : loop = (s.entry c).ioLoop ∧ f = s.fd c
    · -- the entry of the channel itself
      obtain ⟨rfl, rfl⟩ := hown
      have hfd : a.conn.channel_.fd_ = s.fd c := hconfined.fd
      rw [pollers_put_self, ← hfd] at hfound
      obtain ⟨rfl, -⟩ := hconsistent.entered.owner hfound
      exact ⟨hc, rfl, rfl⟩
    · refine h.owner loop f events d ?_
      by_cases hf : f = s.fd c
      · rwa [pollers_put_of_ne c a fun hloop => hown ⟨hloop, hf⟩] at hfound
      · rwa [(pollers_put_of_fd_ne hconfined loop hf).1] at hfound
  mapped := by
    intro loop f d hfound
    rw [ioLoop_put, fd_put hconfined]
    by_cases hown : loop = (s.entry c).ioLoop ∧ f = s.fd c
    · -- under its fd there is the channel itself, or what was there
      obtain ⟨rfl, rfl⟩ := hown
      rw [pollers_put_self] at hfound
      rcases hconfined.mapped d hfound with rfl | hold
      · have hlt : d < s.sockfds.length := lt_of_alive hc
        exact ⟨hlt, rfl, rfl⟩
      · exact h.mapped _ _ d hold
    · refine h.mapped loop f d ?_
      by_cases hf : f = s.fd c
      · rwa [pollers_put_of_ne c a fun hloop => hown ⟨hloop, hf⟩] at hfound
      · rwa [(pollers_put_of_fd_ne hconfined loop hf).2] at hfound

/-! An accepted connection. -/

section accepted

variable {conf : Config} {sockfd : Int} {ioLoop : Nat}

/-- A descriptor that is not open is none of a connection. -/
theorem fd_ne_of_not_isOpen (hopen : s.isOpen sockfd = false) {c : Nat} (hc : s.alive c = true) :
    s.fd c ≠ sockfd := by
  intro heq
  simp only [isOpen, List.any_eq_false, List.mem_range] at hopen
  exact hopen c (lt_of_alive hc) (by simp [hc, ← heq, fd])

theorem fd_accepted_self : (accepted conf s sockfd ioLoop).fd s.sockfds.length = sockfd := by
  rw [fd, entry_accepted_self]
  rfl

theorem fd_accepted_of_lt {c : Nat} (hc : c < s.sockfds.length) :
    (accepted conf s sockfd ioLoop).fd c = s.fd c := by
  rw [fd, entry_accepted_of_lt hc, fd]

/-- The connections are the new one and those there were. -/
theorem alive_of_accepted {c : Nat} (hc : (accepted conf s sockfd ioLoop).alive c = true) :
    c = s.sockfds.length ∨ s.alive c = true := by
  have hlt := lt_of_alive hc
  rw [length_accepted] at hlt
  by_cases hlast : c = s.sockfds.length
  · exact Or.inl hlast
  · refine Or.inr ?_
    have hless : c < s.sockfds.length := by omega
    simp only [alive, entry_accepted_of_lt hless, Bool.and_eq_true, decide_eq_true_eq] at hc ⊢
    exact ⟨hless, hc.2⟩

/-- The new connection is in no poller: nobody else has its fd, and nobody had its number. -/
theorem Wired.consistent_accepted (h : s.Wired) (hopen : s.isOpen sockfd = false) :
    ((accepted conf s sockfd ioLoop).onLoop s.sockfds.length).Consistent s.sockfds.length := by
  have hconn : ((TcpServer.accepted conf s sockfd ioLoop).onLoop s.sockfds.length).conn =
      .new sockfd := by
    rw [onLoop, entry_accepted_self]
  have hpoller : ((TcpServer.accepted conf s sockfd ioLoop).onLoop s.sockfds.length).poller =
      s.pollers ioLoop := by
    rw [onLoop, entry_accepted_self]
    rfl
  have hempty : (s.pollers ioLoop).epoll sockfd = none := by
    cases hentry : (s.pollers ioLoop).epoll sockfd with
    | none =>
        rfl
    | some entry =>
        -- an entry would belong to a connection that still has the fd
        obtain ⟨halive, -, hfd⟩ := h.owner ioLoop sockfd entry.1 entry.2 hentry
        exact absurd hfd (fd_ne_of_not_isOpen hopen halive)
  have hunmapped : (s.pollers ioLoop).channels_ sockfd ≠ some s.sockfds.length := by
    intro hentry
    -- `channels_` has only numbers that were given out
    exact absurd (h.mapped ioLoop sockfd _ hentry).1 (Nat.lt_irrefl _)
  exact
    { entered := by
        refine ⟨?_, fun _ => ?_⟩
        · simp only [OnLoop.polled, hconn, hpoller]
          exact hempty
        · simp only [OnLoop.polled, hconn, hpoller]
          exact hunmapped
      connecting := by
        rw [hconn]
        exact fun _ => ⟨rfl, rfl⟩
      connected := by simp [hconn, Connection.new]
      disconnected := by simp [hconn, Connection.new]
      reported := by simp [hconn, Connection.new] }

/-- A connection that was accepted has an fd of its own and is in no poller yet. -/
theorem Wired.accepted (h : s.Wired) (hopen : s.isOpen sockfd = false) :
    (accepted conf s sockfd ioLoop).Wired where
  fds := by
    intro c hc
    rw [length_accepted] at hc
    by_cases hlast : c = s.sockfds.length
    · rw [hlast, fd_accepted_self]
      exact List.getElem?_concat_length ..
    · have hless : c < s.sockfds.length := by omega
      rw [fd_accepted_of_lt hless, ← h.fds c hless]
      exact List.getElem?_append_left hless
  consistent := by
    intro c hc
    -- the new connection, or an old one with entry and poller as before
    rcases alive_of_accepted hc with rfl | hc
    · exact h.consistent_accepted hopen
    · have hentry : (TcpServer.accepted conf s sockfd ioLoop).entry c = s.entry c :=
        entry_accepted_of_lt (lt_of_alive hc)
      have hon : (TcpServer.accepted conf s sockfd ioLoop).onLoop c = s.onLoop c := by
        rw [onLoop, hentry]
        rfl
      rw [hon]
      exact h.consistent c hc
  distinct := by
    intro c d hc hd heq
    rcases alive_of_accepted hc with rfl | hc
    · rcases alive_of_accepted hd with rfl | hd
      · rfl
      · rw [fd_accepted_self, fd_accepted_of_lt (lt_of_alive hd)] at heq
        exact absurd heq.symm (fd_ne_of_not_isOpen hopen hd)
    · rcases alive_of_accepted hd with rfl | hd
      · rw [fd_accepted_self, fd_accepted_of_lt (lt_of_alive hc)] at heq
        exact absurd heq (fd_ne_of_not_isOpen hopen hc)
      · rw [fd_accepted_of_lt (lt_of_alive hc), fd_accepted_of_lt (lt_of_alive hd)] at heq
        exact h.distinct c d hc hd heq
  owner := by
    intro loop f events c hentry
    obtain ⟨halive, hloop, hfd⟩ := h.owner loop f events c hentry
    have hlt := lt_of_alive halive
    exact ⟨alive_accepted halive, by rw [entry_accepted_of_lt hlt, hloop],
      by rw [fd_accepted_of_lt hlt, hfd]⟩
  mapped := by
    intro loop f c hentry
    obtain ⟨hlt, hloop, hfd⟩ := h.mapped loop f c hentry
    refine ⟨?_, by rw [entry_accepted_of_lt hlt, hloop], by rw [fd_accepted_of_lt hlt, hfd]⟩
    rw [length_accepted]
    omega

end accepted

section release

variable (s) (c : Nat)

theorem ioLoop_release (d : Nat) : ((s.release c).entry d).ioLoop = (s.entry d).ioLoop := by
  unfold TcpServer.release
  split
  · by_cases hd : d = c <;> simp [hd]
  · rfl

theorem conn_release (d : Nat) : ((s.release c).entry d).conn = (s.entry d).conn := by
  unfold TcpServer.release
  split
  · by_cases hd : d = c <;> simp [hd]
  · rfl

theorem channels_release (loop : Nat) : ((s.release c).pollers loop).channels_ = (s.pollers loop).channels_ := by
  unfold TcpServer.release
  split
  · by_cases hloop : loop = (s.entry c).ioLoop
    · subst hloop
      simp
    · simp [hloop]
  · rfl

variable {s c}

theorem alive_release (hfree : (s.alive c && s.unreferenced c) = true) (d : Nat) :
    (s.release c).alive d = true ↔ d ≠ c ∧ s.alive d = true := by
  rw [TcpServer.release, if_pos hfree]
  by_cases hd : d = c
  · simp [alive, hd]
  · simp [alive, hd]

/-- The closed fd leaves the epoll set, the others stay. -/
theorem epoll_release (hfree : (s.alive c && s.unreferenced c) = true) (loop : Nat) (f : Int) :
    ((s.release c).pollers loop).epoll f =
      if loop = (s.entry c).ioLoop ∧ f = s.fd c then none else (s.pollers loop).epoll f := by
  rw [TcpServer.release, if_pos hfree]
  by_cases hloop : loop = (s.entry c).ioLoop
  · subst hloop
    simp [fd, Function.update_apply]
  · simp [hloop]

end release

/-- Closing the fd takes its entry out of the epoll set and leaves `channels_`. -/
theorem Wired.release (h : s.Wired) (c : Nat) : (s.release c).Wired := by
  by_cases hfree : (s.alive c && s.unreferenced c) = true
  · have hc : s.alive c = true := (Bool.and_eq_true_iff.1 hfree).1
    have hfd : ∀ d, (s.release c).fd d = s.fd d := fun d => congrArg (·.channel_.fd_) (conn_release s c d)
    have hsockfds : (s.release c).sockfds = s.sockfds := by rw [TcpServer.release, if_pos hfree]
    exact
      { fds := by
          intro d hd
          rw [hsockfds] at hd ⊢
          rw [hfd]
          exact h.fds d hd
        consistent := by
          intro d hd
          obtain ⟨hdc, hd⟩ := (alive_release hfree d).1 hd
          -- the fd of a connection that stays is another one
          have hother : s.fd d ≠ s.fd c := fun heq => hdc (h.distinct d c hd hc heq)
          refine consistent_congr (h.consistent d hd) (conn_release s c d) ?_ ?_
          · simp only [onLoop, ioLoop_release]
            exact (epoll_release hfree _ _).trans (if_neg fun hand => hother hand.2)
          · simp only [onLoop, ioLoop_release]
            exact congrFun (channels_release s c _) _
        distinct := by
          intro d d' hd hd' heq
          rw [hfd, hfd] at heq
          exact h.distinct d d' ((alive_release hfree d).1 hd).2 ((alive_release hfree d').1 hd').2 heq
        owner := by
          intro loop f events d hfound
          rw [epoll_release hfree] at hfound
          split at hfound
          · cases hfound
          · next hne =>
            obtain ⟨hd, hloop, hfd'⟩ := h.owner loop f events d hfound
            have hdc : d ≠ c := by
              rintro rfl
              exact hne ⟨hloop.symm, hfd'.symm⟩
            exact ⟨(alive_release hfree d).2 ⟨hdc, hd⟩, (ioLoop_release s c d).trans hloop, (hfd d).trans hfd'⟩
        mapped := by
          intro loop f d hfound
          rw [channels_release] at hfound
          rw [hsockfds, ioLoop_release, hfd]
          exact h.mapped loop f d hfound }
  · rw [TcpServer.release, if_neg hfree]
    exact h

end wired

/-! ## Nothing before `connectEstablished` -/

/-- Every event in the log comes after the connection was established. -/
def Ordered (log : List Occurrence) : Prop :=
  ∀ before c after, log = before ++ .handled c :: after → .ran (.connectEstablished c) ∈ before

theorem Ordered.append {log : List Occurrence} (h : Ordered log) {o : Occurrence}
    (ho : ∀ c, o = .handled c → .ran (.connectEstablished c) ∈ log) : Ordered (log ++ [o]) := by
  intro before c after heq
  rcases List.eq_nil_or_concat after with rfl | ⟨after', last, rfl⟩
  · obtain ⟨rfl, hlast⟩ := List.append_inj' heq rfl
    exact ho c (List.singleton_inj.1 hlast)
  · have hsplit : log ++ [o] = (before ++ .handled c :: after') ++ [last] := by
      rw [heq]
      simp
    exact h before c after' (List.append_inj' hsplit rfl).1

structure Begun (s : TcpServer) : Prop where
  connecting : ∀ c < s.sockfds.length,
    (s.entry c).conn.state_ = .kConnecting ↔ .ran (.connectEstablished c) ∉ s.log
  ordered : Ordered s.log

section begun

variable {s : TcpServer}

theorem Begun.congr (h : s.Begun) {t : TcpServer} (hsockfds : t.sockfds = s.sockfds)
    (hentry : ∀ c, (t.entry c).conn = (s.entry c).conn) (hlog : t.log = s.log) : t.Begun where
  connecting := by
    intro c hc
    rw [hsockfds] at hc
    rw [hentry, hlog, h.connecting c hc]
  ordered := by
    rw [hlog]
    exact h.ordered

theorem Begun.put (h : s.Begun) {c : Nat} {a : OnLoop Nat}
    (hconnecting : a.conn.state_ = .kConnecting ↔ (s.entry c).conn.state_ = .kConnecting) :
    (s.put c a).Begun where
  connecting := by
    intro d hd
    by_cases hdc : d = c
    · subst hdc
      have hconn : ((s.put d a).entry d).conn = a.conn := by simp [TcpServer.put]
      rw [hconn, hconnecting]
      exact h.connecting d hd
    · rw [entry_put_of_ne c a hdc]
      exact h.connecting d hd
  ordered := h.ordered

theorem Begun.note (h : s.Begun) {o : Occurrence} (hother : ∀ c, o ≠ .ran (.connectEstablished c))
    (ho : ∀ c, o = .handled c → .ran (.connectEstablished c) ∈ s.log) : (s.note o).Begun where
  connecting := by
    intro c hc
    have hmem : .ran (.connectEstablished c) ∈ (s.note o).log ↔
        .ran (.connectEstablished c) ∈ s.log := by
      simp [TcpServer.note, (hother c).symm]
    rw [hmem]
    exact h.connecting c hc
  ordered := h.ordered.append ho

theorem Begun.accepted {conf : Config} {sockfd : Int} {ioLoop : Nat} (h : s.Begun)
    (hqueued : Queued none s) : (accepted conf s sockfd ioLoop).Begun where
  connecting := by
    intro c hc
    rw [length_accepted] at hc
    by_cases hlast : c = s.sockfds.length
    · subst hlast
      rw [entry_accepted_self]
      refine iff_of_true rfl ?_
      intro hmem
      exact absurd (hqueued.logged _ hmem) (Nat.lt_irrefl _)
    · rw [entry_accepted_of_lt (by omega)]
      exact h.connecting c (by omega)
  ordered := h.ordered

end begun

/-! ## Every run is sound -/

structure Sound (flight : Option Functor) (s : TcpServer) : Prop where
  queued : Queued flight s
  wired : s.Wired
  begun : s.Begun

section sound

variable {flight : Option Functor} {s : TcpServer}

/-- A connection whose `connectEstablished` is under way is still connecting. -/
theorem Sound.connecting {c : Nat} (h : Sound (some (.connectEstablished c)) s) :
    (s.onLoop c).conn.state_ = .kConnecting := by
  have hc : c < s.sockfds.length := lt_of_alive (h.queued.flying _ rfl)
  have honce := h.queued.once c hc
  simp only [Option.toList_some, List.count_singleton_self] at honce
  refine (h.begun.connecting c hc).2 (List.count_eq_zero.1 ?_)
  omega

theorem Sound.connectEstablished {c : Nat} (h : Sound (some (.connectEstablished c)) s) :
    Sound none (s.runFunctor (.connectEstablished c)) where
  queued := h.queued.runFunctor
  wired := by
    have hc : s.alive c = true := h.queued.flying _ rfl
    obtain ⟨hconsistent, hconfined, -⟩ := (h.wired.consistent c hc).connectEstablished h.connecting
    exact (h.wired.put hc hconsistent hconfined).congr rfl rfl rfl
  begun := by
    have hc : s.alive c = true := h.queued.flying _ rfl
    obtain ⟨-, -, hstate⟩ := (h.wired.consistent c hc).connectEstablished h.connecting
    refine ⟨?_, h.begun.ordered.append (by simp)⟩
    intro d hd
    have hlog : (s.runFunctor (.connectEstablished c)).log =
        s.log ++ [.ran (.connectEstablished c)] := rfl
    rw [hlog]
    -- it leaves `kConnecting` in the step that logs it
    by_cases hdc : d = c
    · subst hdc
      have hconn : ((s.runFunctor (.connectEstablished d)).entry d).conn =
          ((s.onLoop d).connectEstablished d).conn := by
        simp [runFunctor, note, put]
      rw [hconn, hstate]
      simp
    · have hentry : (s.runFunctor (.connectEstablished c)).entry d = s.entry d :=
        entry_put_of_ne (s := s) c _ hdc
      rw [hentry, h.begun.connecting d hd]
      simp [hdc]

theorem Sound.put (h : Sound flight s) {c : Nat} (hc : s.alive c = true) {a : OnLoop Nat}
    (hkeeps : Keeps c (s.onLoop c) a) : Sound flight (s.put c a) where
  queued := h.queued.put c a
  wired := h.wired.put hc hkeeps.consistent hkeeps.confined
  begun := h.begun.put hkeeps.connecting

theorem Sound.runFunctor {f : Functor} (h : Sound (some f) s) : Sound none (s.runFunctor f) := by
  cases f with
  | connectEstablished c =>
      exact h.connectEstablished
  | connectDestroyed c =>
      have hc : s.alive c = true := h.queued.flying _ rfl
      have hput := h.put hc (h.wired.consistent c hc).connectDestroyed
      exact ⟨h.queued.runFunctor, hput.wired.congr rfl rfl rfl, hput.begun.note (by simp) (by simp)⟩
  | removeConnectionInLoop c =>
      refine ⟨h.queued.runFunctor, ?_, ?_⟩
      · simp only [TcpServer.runFunctor, removeConnectionInLoop]
        split
        · exact h.wired.congr rfl rfl rfl
        · exact h.wired
      · simp only [TcpServer.runFunctor, removeConnectionInLoop]
        split
        · exact (h.begun.note (o := .ran (.removeConnectionInLoop c)) (by simp) (by simp)).congr rfl
            (fun _ => rfl) rfl
        · exact h.begun

theorem Sound.runInLoop {f : Functor} (h : Sound (some f) s) (thread : Option Nat) {loop : Nat}
    (hloop : s.home f = loop) : Sound none (s.runInLoop thread loop f) := by
  unfold TcpServer.runInLoop
  split
  · exact h.runFunctor
  · exact ⟨h.queued.queueInLoop hloop, h.wired.congr rfl rfl rfl, h.begun.congr rfl (fun _ => rfl) rfl⟩

theorem Sound.takeUp (h : Sound none s) {f : Functor} (hf : s.alive f.conn = true)
    (hother : ∀ c, f ≠ .connectEstablished c) : Sound (some f) s :=
  ⟨h.queued.takeUp hf hother, h.wired, h.begun⟩

/-- The new connection is about to be established. -/
theorem Sound.accepted {conf : Config} {sockfd : Int} (h : Sound none s) (hopen : s.isOpen sockfd = false)
    (ioLoop : Nat) :
    Sound (some (.connectEstablished s.sockfds.length)) (accepted conf s sockfd ioLoop) :=
  ⟨h.queued.accepted, h.wired.accepted hopen, h.begun.accepted h.queued⟩

/-- A functor leaves its queue to be run. -/
theorem Sound.pop (h : Sound none s) {loop : Nat} {f : Functor} {fs : List Functor}
    (hpending : s.pendingFunctors_ loop = f :: fs) :
    Sound (some f) { s with pendingFunctors_ := Function.update s.pendingFunctors_ loop fs } :=
  ⟨h.queued.pop hpending, h.wired.congr rfl rfl rfl, h.begun.congr rfl (fun _ => rfl) rfl⟩

/-- The destructor takes a connection out of the table and is about to have it destroyed. -/
theorem Sound.destroyed (h : Sound none s) {name : Bytes} {c : Nat}
    (hfound : s.connections_ name = some c) :
    Sound (some (.connectDestroyed c))
      { s with connections_ := Function.update s.connections_ name none } := by
  have herased : Sound none { s with connections_ := Function.update s.connections_ name none } :=
    ⟨h.queued.erase name, h.wired.congr rfl rfl rfl, h.begun.congr rfl (fun _ => rfl) rfl⟩
  exact herased.takeUp (h.queued.entered name c hfound).1 (by simp)

theorem Sound.removeConnection (h : Sound none s) {c : Nat} (hc : s.alive c = true) (n : Nat) :
    Sound none ((fun s : TcpServer => s.removeConnection c)^[n] s) := by
  induction n generalizing s with
  | zero =>
      exact h
  | succ n ih =>
      rw [Function.iterate_succ_apply]
      exact ih ((h.takeUp (f := .removeConnectionInLoop c) hc (by simp)).runInLoop _ rfl)
        (alive_removeConnection.trans hc)

theorem Sound.onConn (h : Sound none s) (c : Nat) {f : OnLoop Nat → OnLoop Nat}
    (hf : (s.onLoop c).Consistent c → Keeps c (s.onLoop c) (f (s.onLoop c))) :
    Sound none (s.onConn c f) := by
  unfold TcpServer.onConn
  split
  · next hc => exact h.put hc (hf (h.wired.consistent c hc))
  · exact h

theorem Sound.handleEvent (h : Sound none s) (c : Nat) (handling : Handling) :
    Sound none (s.handleEvent c handling) := by
  unfold TcpServer.handleEvent
  split
  · next halive =>
    obtain ⟨hc, hreported⟩ := Bool.and_eq_true_iff.1 halive
    have hconsistent := h.wired.consistent c hc
    -- it was reported, so it was established
    have hestablished : .ran (.connectEstablished c) ∈ s.log := by
      by_contra hnone
      exact hconsistent.reported hreported ((h.begun.connecting c (lt_of_alive hc)).2 hnone)
    have hnote : Sound none (s.note (.handled c)) :=
      { queued := h.queued.handled c
        wired := h.wired.congr rfl rfl rfl
        begun := h.begun.note (by simp) (by rintro d heq; cases heq; exact hestablished) }
    have hput := hnote.put (c := c) hc (hconsistent.handleEvent handling)
    exact hput.removeConnection ((alive_put ..).trans hc) _
  · exact h

theorem sound_step (conf : Config) (s : TcpServer) (e : Event) (h : Sound none s) :
    Sound none (step conf s e) := by
  -- queues, pollers and log are followed together: one functor moves all three
  cases e with
  | newConnection sockfd ioLoop =>
      simp only [step]
      by_cases hopen : s.phase = .serving ∧ s.isOpen sockfd = false
      · rw [newConnection_eq hopen]
        exact (h.accepted hopen.2 ioLoop).runInLoop (some 0) (congrArg Entry.ioLoop entry_accepted_self)
      · rw [newConnection, if_neg hopen]
        exact h
  | runPending loop =>
      simp only [step, runPending]
      split
      · exact h
      · next f fs hpending => exact (h.pop hpending).runFunctor
  | poll c revents =>
      exact h.onConn c fun ha => ha.poll revents
  | handleEvent c handling =>
      exact h.handleEvent c handling
  | send c data r =>
      exact h.onConn c fun ha => ha.send data r
  | sendInLoop c data r =>
      simp only [step]
      split
      · exact h
      · next hstate =>
        exact h.onConn c fun ha => ha.sendInLoop hstate data r
  | shutdown c =>
      exact h.onConn c fun ha => ha.shutdown
  | release c =>
      refine ⟨h.queued.release c, h.wired.release c, ?_⟩
      simp only [step, release]
      split
      · refine h.begun.congr rfl (fun d => ?_) rfl
        by_cases hd : d = c
        · simp [hd]
        · simp [hd]
      · exact h.begun
  | destruct thread =>
      simp only [step]
      split
      · exact ⟨h.queued.congr rfl rfl rfl rfl fun _ => ⟨rfl, rfl, rfl⟩, h.wired.congr rfl rfl rfl,
          h.begun.congr rfl (fun _ => rfl) rfl⟩
      · exact h
  | destroyNext name =>
      simp only [step, destroyNext]
      split
      · next thread c hphase hfound => exact (h.destroyed hfound).runInLoop thread rfl
      · exact h

theorem sound_start : Sound none start where
  queued := queued_start
  wired :=
    { fds := by simp [start]
      consistent := by simp [start, alive]
      distinct := by simp [start, alive]
      owner := by simp [start, EpollPoller.new]
      mapped := by simp [start, EpollPoller.new] }
  begun :=
    { connecting := by simp [start]
      ordered := by simp [Ordered, start] }

end sound

/-! ## The server in service -/

/-- Each fd of `given`, the fds that were accepted, has a connection with a name of its own; it is
established once, as soon as its loop has run what is queued, and before anything is handled; the table
holds the connections whose removal has not run. -/
structure Served (given : List Int) (s : TcpServer) : Prop where
  accepted : s.sockfds = given
  fds : (List.range given.length).map s.fd = given
  names : ∀ c < given.length, ∀ d < given.length, (s.entry c).name_ = (s.entry d).name_ → c = d
  once : ∀ c < given.length, s.log.count (.ran (.connectEstablished c)) ≤ 1 ∧
    (s.drain (s.entry c).ioLoop).log.count (.ran (.connectEstablished c)) = 1
  ordered : Ordered s.log
  table : s.phase = .serving → ∀ name c, s.connections_ name = some c ↔
    c < given.length ∧ (s.entry c).name_ = name ∧ .ran (.removeConnectionInLoop c) ∉ s.log

section served

variable {conf : Config} {s : TcpServer}

end served

/-! ## Connections that were destroyed -/

/-- The channel of the connection is in the epoll set of its loop, or in `channels_`. -/
def Registered (s : TcpServer) (c : Nat) : Prop :=
  (∃ fd events, (s.pollers (s.entry c).ioLoop).epoll fd = some (events, c)) ∨
    ∃ fd, (s.pollers (s.entry c).ioLoop).channels_ fd = some c

/-- `connectDestroyed` has run for the connection. -/
def Destroyed (s : TcpServer) (c : Nat) : Prop := .ran (.connectDestroyed c) ∈ s.log

def Deregistered (s : TcpServer) : Prop := ∀ c, s.Destroyed c → ¬ s.Registered c

/-- `connectDestroyed` finds the connection connected, or its channel out of the epoll set;
`connectEstablished` does not come after it. -/
def ClearsFunctor (s : TcpServer) : Functor → Prop
  | .connectEstablished c => ¬ s.Destroyed c
  | .connectDestroyed c =>
      (s.entry c).conn.state_ = .kConnected ∨ (s.entry c).conn.channel_.index_ ≠ .kAdded
  | .removeConnectionInLoop _ => True

/-- What runs next clears its connection, and an event that is still handled after `connectDestroyed`
closes the connection twice or not at all. -/
def Clears (s : TcpServer) : Event → Prop
  | .runPending loop => ∀ f ∈ (s.pendingFunctors_ loop).head?, s.ClearsFunctor f
  | .handleEvent c h => ∀ revents, s.alive c = true → (s.entry c).conn.revents_ = some revents →
      s.Destroyed c → (closes revents = true ↔ reads revents = true ∧ h.n = 0)
  | .destroyNext name => ∀ thread c, s.phase = .destructing thread → s.connections_ name = some c →
      thread = some (s.entry c).ioLoop → s.ClearsFunctor (.connectDestroyed c)
  | _ => True

section deregistered

variable {flight : Option Functor} {s : TcpServer}

/-- A connection that exists is in a poller exactly when its index says so. -/
theorem registered_iff (h : s.Wired) {c : Nat} (hc : s.alive c = true) :
    s.Registered c ↔ (s.entry c).conn.channel_.index_ = .kAdded := by
  have hentered := (h.consistent c hc).entered
  constructor
  · rintro (⟨f, events, hfound⟩ | ⟨f, hfound⟩)
    · have hfd := (h.owner _ f events c hfound).2.2
      subst hfd
      exact (hentered.owner hfound).2
    · have hfd := (h.mapped _ f c hfound).2.2
      subst hfd
      by_contra hindex
      exact hentered.mapped hindex hfound
  · intro hindex
    refine Or.inl ⟨s.fd c, (s.entry c).conn.channel_.events_, ?_⟩
    exact hentered.entry.trans (if_pos hindex)

theorem Deregistered.congr {t : TcpServer} (hentry : t.entry = s.entry) (hpollers : t.pollers = s.pollers)
    (hlog : ∀ c, t.Destroyed c ↔ s.Destroyed c) : t.Deregistered ↔ s.Deregistered := by
  simp only [Deregistered, Registered, hentry, hpollers, hlog]

/-- What a connection does on its loop brings no other connection into a poller. -/
theorem registered_put_of_ne {c : Nat} {a : OnLoop Nat} (hconsistent : a.Consistent c)
    (hconfined : Polled.Confined c (s.onLoop c).polled a.polled) {d : Nat} (hd : d ≠ c)
    (hregistered : (s.put c a).Registered d) : s.Registered d := by
  have hfd : a.conn.channel_.fd_ = s.fd c := hconfined.fd
  rw [Registered, entry_put_of_ne c a hd] at hregistered
  by_cases hloop : (s.entry d).ioLoop = (s.entry c).ioLoop
  · rw [hloop, pollers_put_self] at hregistered
    rw [Registered, hloop]
    rcases hregistered with ⟨f, events, hfound⟩ | ⟨f, hfound⟩
    · -- the `epoll` has the fd of `c` under the channel of `c` alone
      have hne : f ≠ s.fd c := by
        rintro rfl
        rw [← hfd] at hfound
        exact hd (hconsistent.entered.owner hfound).1
      exact Or.inl ⟨f, events, (hconfined.epoll f hne).symm.trans hfound⟩
    · by_cases hf : f = s.fd c
      · subst hf
        rcases hconfined.mapped d hfound with heq | hold
        · exact absurd heq hd
        · exact Or.inr ⟨_, hold⟩
      · exact Or.inr ⟨f, (hconfined.channels f hf).symm.trans hfound⟩
  · -- another loop has its own poller
    rw [pollers_put_of_ne c a hloop] at hregistered
    exact hregistered

/-- So it hangs on that connection alone whether the destroyed ones are out of the pollers. -/
theorem deregistered_put_iff (h : s.Wired) {c : Nat} (hc : s.alive c = true) {a : OnLoop Nat}
    (hconsistent : a.Consistent c) (hconfined : Polled.Confined c (s.onLoop c).polled a.polled)
    {t : TcpServer} (hentry : t.entry = (s.put c a).entry) (hpollers : t.pollers = (s.put c a).pollers)
    (hothers : ∀ d, d ≠ c → t.Destroyed d → ¬ s.Registered d) :
    t.Deregistered ↔ (t.Destroyed c → a.conn.channel_.index_ ≠ .kAdded) := by
  have hput := h.put hc hconsistent hconfined
  -- `c` is found again through its own index
  have hself : t.Registered c ↔ a.conn.channel_.index_ = .kAdded := by
    have hiff := registered_iff hput ((alive_put c a c).trans hc)
    have hconn : ((s.put c a).entry c).conn = a.conn := by simp [put]
    rw [hconn] at hiff
    rwa [Registered, hentry, hpollers]
  have hother : ∀ d, d ≠ c → t.Destroyed d → ¬ t.Registered d := by
    intro d hd hdestroyed hregistered
    rw [Registered, hentry, hpollers] at hregistered
    exact hothers d hd hdestroyed (registered_put_of_ne hconsistent hconfined hd hregistered)
  constructor
  · intro hall hdestroyed hindex
    exact hall c hdestroyed (hself.2 hindex)
  · intro hindex d hdestroyed
    by_cases hd : d = c
    · subst hd
      exact fun hregistered => hindex hdestroyed (hself.1 hregistered)
    · exact hother d hd hdestroyed

theorem deregistered_removeConnectionInLoop (c : Nat) :
    (s.removeConnectionInLoop c).Deregistered ↔ s.Deregistered := by
  unfold removeConnectionInLoop
  split
  · refine Deregistered.congr rfl rfl fun d => ?_
    simp [Destroyed, queueInLoop, note]
  · exact Iff.rfl

/-- A functor that runs keeps the destroyed connections out of the pollers precisely when it clears its
own. -/
theorem deregistered_runFunctor_iff {f : Functor} (h : Sound (some f) s) (hclear : s.Deregistered) :
    (s.runFunctor f).Deregistered ↔ s.ClearsFunctor f := by
  cases f with
  | connectEstablished c =>
      have hc : s.alive c = true := h.queued.flying _ rfl
      obtain ⟨hconsistent, hconfined, hstate⟩ :=
        (h.wired.consistent c hc).connectEstablished h.connecting
      have hindex : ((s.onLoop c).connectEstablished c).conn.channel_.index_ = .kAdded :=
        (hconsistent.connected (Or.inl hstate)).1
      have hdestroyed : ∀ d, (s.runFunctor (.connectEstablished c)).Destroyed d ↔ s.Destroyed d :=
        fun d => by simp [Destroyed, runFunctor, note, put]
      rw [deregistered_put_iff (t := s.runFunctor (.connectEstablished c)) h.wired hc hconsistent
        hconfined rfl rfl fun d _ hd => hclear d ((hdestroyed d).1 hd), hdestroyed, ClearsFunctor]
      exact ⟨fun himp hd => himp hd hindex, fun hnot hd => absurd hd hnot⟩
  | connectDestroyed c =>
      have hc : s.alive c = true := h.queued.flying _ rfl
      have hconsistent := h.wired.consistent c hc
      have hkeeps := hconsistent.connectDestroyed
      have hdestroyed : ∀ d, (s.runFunctor (.connectDestroyed c)).Destroyed d ↔
          s.Destroyed d ∨ d = c :=
        fun d => by simp [Destroyed, runFunctor, note, put]
      rw [deregistered_put_iff (t := s.runFunctor (.connectDestroyed c)) h.wired hc hkeeps.consistent
        hkeeps.confined rfl rfl fun d hdc hd => hclear d (((hdestroyed d).1 hd).resolve_right hdc),
        ClearsFunctor]
      have hself : (s.runFunctor (.connectDestroyed c)).Destroyed c := (hdestroyed c).2 (Or.inr rfl)
      rw [imp_iff_right hself]
      by_cases hstate : (s.entry c).conn.state_ = .kConnected
      · -- the channel gives up all interest, and the poller drops it
        refine iff_of_true ?_ (Or.inl hstate)
        have hadded := (hconsistent.connected (Or.inl hstate)).1
        have hchannel : ((s.onLoop c).connectDestroyed c).conn.channel_ =
            ((s.onLoop c).handleClose c).conn.channel_ := by
          rw [OnLoop.connectDestroyed, if_pos (by exact hstate)]
          rfl
        rw [hchannel, hconsistent.index_handleClose, if_pos hadded]
        simp
      · have hstay : (s.onLoop c).connectDestroyed c = s.onLoop c := if_neg hstate
        rw [hstay, or_iff_right hstate]
        rfl
  | removeConnectionInLoop c =>
      exact iff_of_true ((deregistered_removeConnectionInLoop c).2 hclear) trivial

theorem deregistered_runInLoop_iff {f : Functor} (h : Sound (some f) s) (hclear : s.Deregistered)
    (thread : Option Nat) (loop : Nat) :
    (s.runInLoop thread loop f).Deregistered ↔ (thread = some loop → s.ClearsFunctor f) := by
  unfold runInLoop
  split
  · next hthread => rw [deregistered_runFunctor_iff h hclear, imp_iff_right hthread]
  · next hother =>
    have hqueued : (s.queueInLoop loop f).Deregistered ↔ s.Deregistered :=
      Deregistered.congr rfl rfl fun _ => Iff.rfl
    exact iff_of_true (hqueued.2 hclear) fun heq => absurd heq hother

/-- A removal only queues. -/
theorem deregistered_removeConnection (c : Nat) (n : Nat) :
    ((fun s : TcpServer => s.removeConnection c)^[n] s).Deregistered ↔ s.Deregistered := by
  induction n generalizing s with
  | zero =>
      exact Iff.rfl
  | succ n ih =>
      rw [Function.iterate_succ_apply, ih]
      simp only [removeConnection, runInLoop]
      split
      · exact deregistered_removeConnectionInLoop c
      · exact Deregistered.congr rfl rfl fun _ => Iff.rfl

/-- Sending, shutting down and being reported are nothing to a channel that is out of the poller. -/
theorem deregistered_onConn (h : Sound none s) (hclear : s.Deregistered) (c : Nat)
    {f : OnLoop Nat → OnLoop Nat} (hf : (s.onLoop c).Consistent c → Keeps c (s.onLoop c) (f (s.onLoop c)))
    (hsame : (s.onLoop c).Consistent c → (s.entry c).conn.channel_.index_ ≠ .kAdded →
      (f (s.onLoop c)).conn.channel_ = (s.entry c).conn.channel_) :
    (s.onConn c f).Deregistered := by
  unfold onConn
  split
  · next hc =>
    have hconsistent := h.wired.consistent c hc
    have hkeeps := hf hconsistent
    refine (deregistered_put_iff h.wired hc hkeeps.consistent hkeeps.confined rfl rfl
      fun d _ hd => hclear d hd).2 fun hdestroyed => ?_
    have hindex : (s.entry c).conn.channel_.index_ ≠ .kAdded := fun hadded =>
      hclear c hdestroyed ((registered_iff h.wired hc).2 hadded)
    rw [hsame hconsistent hindex]
    exact hindex
  · exact hclear

/-- An event handled on a connection that was destroyed can only put its channel back in. -/
theorem deregistered_handleEvent_iff (h : Sound none s) (hclear : s.Deregistered) (c : Nat)
    (handling : Handling) :
    (s.handleEvent c handling).Deregistered ↔ s.Clears (.handleEvent c handling) := by
  by_cases hhandled : (s.alive c && (s.entry c).conn.revents_.isSome) = true
  · obtain ⟨hc, hreported⟩ := Bool.and_eq_true_iff.1 hhandled
    obtain ⟨revents, hrevents⟩ := Option.isSome_iff_exists.1 hreported
    have hconsistent := h.wired.consistent c hc
    have hkeeps := hconsistent.handleEvent handling
    have hdestroyed : ∀ d, ((s.note (.handled c)).put c ((s.onLoop c).handleEvent c handling)).Destroyed d
        ↔ s.Destroyed d := fun d => by simp [Destroyed, note, put]
    have hput := deregistered_put_iff
      (t := (s.note (.handled c)).put c ((s.onLoop c).handleEvent c handling)) h.wired hc
      hkeeps.consistent hkeeps.confined rfl rfl fun d _ hd => hclear d ((hdestroyed d).1 hd)
    rw [TcpServer.handleEvent, if_pos hhandled]
    refine (deregistered_removeConnection c _).trans (hput.trans ?_)
    rw [hdestroyed]
    -- out of the poller it is down, so only the handlers of this event can enter it again
    have hexact : s.Destroyed c → (((s.onLoop c).handleEvent c handling).conn.channel_.index_ ≠ .kAdded ↔
        (closes revents = true ↔ reads revents = true ∧ handling.n = 0)) := by
      intro hgone
      have hindex : (s.entry c).conn.channel_.index_ ≠ .kAdded := fun hadded =>
        hclear c hgone ((registered_iff h.wired hc).2 hadded)
      have hdown : (s.entry c).conn.state_ = .kDisconnected :=
        (hconsistent.down hindex).resolve_left (hconsistent.reported hreported)
      exact hconsistent.index_handleEvent hdown hindex hrevents handling
    constructor
    · intro hindex revents' _ hrevents' hgone
      obtain rfl : revents = revents' := Option.some.inj (hrevents.symm.trans hrevents')
      exact (hexact hgone).1 (hindex hgone)
    · exact fun hclears hgone => (hexact hgone).2 (hclears revents hc hrevents hgone)
  · rw [TcpServer.handleEvent, if_neg hhandled]
    refine iff_of_true hclear fun revents hc hrevents => ?_
    exact absurd (by simp [hc, hrevents]) hhandled

theorem deregistered_release (hclear : s.Deregistered) (c : Nat) : (s.release c).Deregistered := by
  unfold TcpServer.release
  split
  · intro d hd hregistered
    refine hclear d hd ?_
    have hloop : (Function.update s.entry c { s.entry c with freed := true } d).ioLoop =
        (s.entry d).ioLoop := by
      by_cases hdc : d = c
      · simp [hdc]
      · simp [hdc]
    simp only [Registered, hloop] at hregistered ⊢
    by_cases hsame : (s.entry d).ioLoop = (s.entry c).ioLoop
    · rw [hsame, Function.update_self] at hregistered
      rw [hsame]
      -- closing an fd takes its entry from the `epoll`, and leaves `channels_`
      refine hregistered.imp ?_ id
      rintro ⟨f, events, hfound⟩
      by_cases hf : f = (s.entry c).conn.channel_.fd_
      · simp [hf] at hfound
      · exact ⟨f, events, by simpa [hf] using hfound⟩
    · -- the fd that is closed is in the `epoll` of another loop
      rwa [Function.update_of_ne hsame] at hregistered
  · exact hclear

/-- A new connection is in no poller, and was not destroyed. -/
theorem deregistered_newConnection (conf : Config) (h : Sound none s) (hclear : s.Deregistered)
    (sockfd : Int) (ioLoop : Nat) : (s.newConnection conf sockfd ioLoop).Deregistered := by
  by_cases hopen : s.phase = .serving ∧ s.isOpen sockfd = false
  · rw [newConnection_eq hopen]
    -- the log names connections of the table only, and this one was not in it
    have hfresh : ¬ s.Destroyed s.sockfds.length := fun hmem =>
      absurd (h.queued.logged _ hmem) (Nat.lt_irrefl _)
    refine (deregistered_runInLoop_iff (h.accepted hopen.2 ioLoop) ?_ (some 0) ioLoop).2 fun _ => hfresh
    intro d hd hregistered
    have hlt : d < s.sockfds.length := h.queued.logged _ hd
    simp only [Registered, entry_accepted_of_lt hlt] at hregistered
    exact hclear d hd hregistered
  · rw [newConnection, if_neg hopen]
    exact hclear

/-- A loop runs the functor at the head of its queue. -/
theorem deregistered_runPending_iff (h : Sound none s) (hclear : s.Deregistered) (loop : Nat) :
    (s.runPending loop).Deregistered ↔ s.Clears (.runPending loop) := by
  simp only [runPending, Clears]
  split
  · next hnone =>
    rw [hnone]
    exact iff_of_true hclear (by simp)
  · next f fs hpending =>
    let t : TcpServer :=
      { s with pendingFunctors_ := Function.update s.pendingFunctors_ loop fs }
    have ht : t.Deregistered := (Deregistered.congr rfl rfl fun _ => Iff.rfl).2 hclear
    rw [hpending]
    refine (deregistered_runFunctor_iff (h.pop hpending) ht).trans ?_
    have hclears : t.ClearsFunctor f ↔ s.ClearsFunctor f := by
      cases f <;> exact Iff.rfl
    simpa using hclears

/-- The destructor goes on to the next connection of the table. -/
theorem deregistered_destroyNext_iff (h : Sound none s) (hclear : s.Deregistered) (name : Bytes) :
    (s.destroyNext name).Deregistered ↔ s.Clears (.destroyNext name) := by
  simp only [destroyNext, Clears]
  split
  · next thread c hphase hfound =>
    let t : TcpServer := { s with connections_ := Function.update s.connections_ name none }
    have ht : t.Deregistered := (Deregistered.congr rfl rfl fun _ => Iff.rfl).2 hclear
    refine (deregistered_runInLoop_iff (h.destroyed hfound) ht thread _).trans ?_
    constructor
    · intro hclears thread' c' hphase' hfound' hthread
      obtain rfl : thread = thread' := by simpa [hphase] using hphase'
      obtain rfl : c = c' := by simpa [hfound] using hfound'
      exact hclears hthread
    · exact fun hclears hthread => hclears thread c hphase hfound hthread
  · next hother =>
    refine iff_of_true hclear fun thread c hphase hfound => ?_
    exact absurd hfound (by simpa [hphase] using hother thread c hphase)

/-- **One step.**  It keeps the destroyed connections out of the pollers precisely when it clears. -/
theorem deregistered_step_iff (conf : Config) (h : Sound none s) (hclear : s.Deregistered) (e : Event) :
    (step conf s e).Deregistered ↔ s.Clears e := by
  cases e with
  | newConnection sockfd ioLoop =>
      exact iff_of_true (deregistered_newConnection conf h hclear sockfd ioLoop) trivial
  | runPending loop =>
      exact deregistered_runPending_iff h hclear loop
  | poll c revents =>
      refine iff_of_true ?_ trivial
      refine deregistered_onConn h hclear c (fun ha => ha.poll revents) fun _ _ => ?_
      split <;> rfl
  | handleEvent c handling =>
      exact deregistered_handleEvent_iff h hclear c handling
  | send c data r =>
      refine iff_of_true ?_ trivial
      refine deregistered_onConn h hclear c (fun ha => ha.send data r) fun ha hindex => ?_
      -- without its channel in the poller the connection is down, and sends nothing
      have hdown : (s.onLoop c).conn.state_ ≠ .kConnected := fun hup =>
        hindex (ha.connected (Or.inl hup)).1
      exact congrArg (fun a : OnLoop Nat => a.conn.channel_) (if_neg hdown)
  | sendInLoop c data r =>
      refine iff_of_true ?_ trivial
      simp only [step]
      split
      · exact hclear
      · next hstate =>
        refine deregistered_onConn h hclear c (fun ha => ha.sendInLoop hstate data r) fun ha hindex => ?_
        have hdown : (s.onLoop c).conn.state_ = .kDisconnected := (ha.down hindex).resolve_left hstate
        exact congrArg (fun a : OnLoop Nat => a.conn.channel_) (if_pos hdown)
  | shutdown c =>
      refine iff_of_true ?_ trivial
      refine deregistered_onConn h hclear c (fun ha => ha.shutdown) fun _ _ => ?_
      rw [OnLoop.shutdown]
      split <;> rfl
  | release c =>
      exact iff_of_true (deregistered_release hclear c) trivial
  | destruct thread =>
      refine iff_of_true ?_ trivial
      simp only [step]
      split
      · exact (Deregistered.congr rfl rfl fun _ => Iff.rfl).2 hclear
      · exact hclear
  | destroyNext name =>
      exact deregistered_destroyNext_iff h hclear name

/-- **Destroyed connections.**  In a run they stay out of the pollers throughout precisely when each of
its steps clears. -/
theorem deregistered_throughout_iff (conf : Config) (es : List Event) :
    Runs.Throughout (step conf) Deregistered start es ↔ Runs.Guarded (step conf) Clears start es :=
  (Runs.guarded_iff_throughout (I := Sound none) (sound_step conf)
    (fun _ e hsound hclear => deregistered_step_iff conf hsound hclear e) sound_start
    (fun _ hdestroyed => absurd hdestroyed (List.not_mem_nil))).symm

/-- A connection is shut down, and then the server is destroyed: `connectDestroyed` does nothing in
`kDisconnecting`. -/
def shutDownThenDestructed : List Event :=
  [.newConnection 7 1, .runPending 1, .shutdown 0, .destruct none,
    .destroyNext (bytes "oj-127.0.0.1:8000#1"), .runPending 1]

def afterDestruction : TcpServer :=
  shutDownThenDestructed.foldl (step ⟨bytes "oj", (127, 0, 0, 1), 8000⟩) start

theorem log_afterDestruction :
    afterDestruction.log = [.ran (.connectEstablished 0), .ran (.connectDestroyed 0)] := by
  decide +kernel

theorem channels_afterDestruction :
    (afterDestruction.pollers (afterDestruction.entry 0).ioLoop).channels_ 7 = some 0 := by
  decide +kernel

theorem destroyed_stays_registered :
    ¬ Runs.Throughout (step ⟨bytes "oj", (127, 0, 0, 1), 8000⟩) Deregistered start
      shutDownThenDestructed := by
  intro h
  have hlast : afterDestruction.Deregistered := h.2.2.2.2.2.2
  have hdestroyed : afterDestruction.Destroyed 0 := by simp [Destroyed, log_afterDestruction]
  exact hlast 0 hdestroyed (Or.inr ⟨7, channels_afterDestruction⟩)

end deregistered

end TcpServer
end Net
end Myoj
