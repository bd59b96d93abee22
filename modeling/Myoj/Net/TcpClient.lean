import Mathlib.Data.List.Nodup
import Myoj.Net.ConnectionTable
import Myoj.Net.Connector

/-!
# TcpClient — the connections a connector makes, one after the other

The client keeps one connection, `connection_`; each socket that its connector hands over becomes the next.
When the connection closes, the client forgets it and starts the connector again, if it is to.

* `Conn` — a connection with its story, which is that of a connection on its loop;
* `TcpClient` — `connect`, `disconnect`, `stop`, `newConnection`, `removeConnection` over a `Connector`;
* `Accounted` — every socket has its place, every connection an orderly story, and the one that is up is
  `connection_`;
* `keeps_iff_accounted` — the runs that keep this;
* `names_nodup_iff` — the names of the connections, which are cut to the size of a buffer.
-/

namespace Myoj
namespace Net

open Lifecycle (Story Move)

namespace TcpClient

/-- The connections are numbered in the order in which they are made; the number stands for the pointer. -/
structure Conn where
  sockfd : Nat
  name_ : Bytes
  story : Story

/-- The story up to the end of `connectEstablished`. -/
def established : Story :=
  (Story.enter { state_ := .kConnecting, notices := [] } .kConnected).notify (.connectionCallback .kConnected)

/-- Not told yet that it is disconnected. -/
def Conn.Up (conn : Conn) : Prop := conn.story.state_ ≠ .kDisconnected

instance (conn : Conn) : Decidable conn.Up := inferInstanceAs (Decidable (_ ≠ _))

def connName (conf : TcpServer.Config) (nextConnId_ : BitVec 32) : Bytes :=
  conf.name_ ++
    TcpServer.snprintf 32 (bytes ":" ++ conf.ipPort_ ++ bytes "#" ++ Numerals.to_string nextConnId_.toInt)

end TcpClient

/-- The client with its connector, the connections it has made, and the `connectDestroyed` functors on its
loop. -/
structure TcpClient where
  conf : TcpServer.Config
  connector_ : Connector
  retry_ : Bool
  connect_ : Bool
  nextConnId_ : BitVec 32
  connection_ : Option Nat
  conns : List TcpClient.Conn
  pendingFunctors_ : List Nat
  /-- A null `connection_` is used. -/
  crashed : Bool

namespace TcpClient

/-- The constructor; the connector's leaves `state_` and `retryDelayMs_` as they are. -/
def new (conf : TcpServer.Config) (connector_ : Connector) : TcpClient where
  conf := conf
  connector_ := connector_
  retry_ := false
  connect_ := false
  nextConnId_ := 1
  connection_ := none
  conns := []
  pendingFunctors_ := []
  crashed := false

section operations

variable (s : TcpClient)

def onConn (c : Nat) (move : Move) : TcpClient :=
  { s with conns := s.conns.modify c fun conn => { conn with story := conn.story.step move } }

/-- Called by the connector, on the loop. -/
def newConnection (sockfd : Nat) : TcpClient :=
  let conn : Conn := { sockfd, name_ := connName s.conf s.nextConnId_, story := established }
  { s with
    nextConnId_ := s.nextConnId_ + 1
    connection_ := some s.conns.length
    conns := s.conns ++ [conn] }

/-- The closing connection need not be `connection_`, which is reset all the same. -/
def removeConnection (c : Nat) (answer : Connector.Answer Unit) : TcpClient :=
  let s := { s with connection_ := none, pendingFunctors_ := s.pendingFunctors_ ++ [c] }
  if s.retry_ && s.connect_ then { s with connector_ := s.connector_.step (.restart true answer) } else s

def connect (isInLoopThread : Bool) (answer : Connector.Answer Unit) : TcpClient :=
  { s with connect_ := true, connector_ := s.connector_.step (.start isInLoopThread answer) }

def disconnect : TcpClient :=
  let s := { s with connect_ := false }
  if s.connect_ then
    match s.connection_ with
    | some c => s.onConn c .shutdown
    | none => { s with crashed := true }
  else s

def stop (isInLoopThread : Bool) : TcpClient :=
  { s with connect_ := false, connector_ := s.connector_.step (.stop isInLoopThread) }

/-- A step of the connector; a socket it hands over becomes a connection. -/
def onConnector (e : Connector.Event) : TcpClient :=
  let after := s.connector_.step e
  let sockfds := after.delivered.drop s.connector_.delivered.length
  sockfds.foldl newConnection { s with connector_ := after }

/-- `handleClose`, with `closeCallback_` bound to `removeConnection`. -/
def handleClose (c : Nat) (answer : Connector.Answer Unit) : TcpClient :=
  if c < s.conns.length then (s.onConn c .close).removeConnection c answer else s

/-- The loop runs the oldest `connectDestroyed`. -/
def connectDestroyed : TcpClient :=
  match s.pendingFunctors_ with
  | [] => s
  | c :: rest => { s with pendingFunctors_ := rest }.onConn c .destroy

end operations

/-- What happens next: a call by the user, an event of the connector, of a connection, or a functor.  The
answers are those of `::connect`, should it be called, and of `getsockopt`.  A caller may hold connections
that the client has forgotten. -/
inductive Event where
  | enableRetry
  | connect (isInLoopThread : Bool) (answer : Connector.Answer Unit)
  | disconnect
  | stop (isInLoopThread : Bool)
  | handleWrite (answer : Connector.Answer Int32)
  | handleError
  | runFunctor (answer : Connector.Answer Unit)
  | message (c : Nat)
  | shutdown (c : Nat)
  | handleClose (c : Nat) (answer : Connector.Answer Unit)
  | connectDestroyed

def step (s : TcpClient) : Event → TcpClient
  | .enableRetry => { s with retry_ := true }
  | .connect isInLoopThread answer => s.connect isInLoopThread answer
  | .disconnect => s.disconnect
  | .stop isInLoopThread => s.stop isInLoopThread
  | .handleWrite answer => s.onConnector (.handleWrite answer)
  | .handleError => s.onConnector .handleError
  | .runFunctor answer => s.onConnector (.runFunctor answer)
  | .message c => s.onConn c .message
  | .shutdown c => s.onConn c .shutdown
  | .handleClose c answer => s.handleClose c answer
  | .connectDestroyed => s.connectDestroyed

/-! ## What the client keeps -/

/-- Every socket is in one place; every connection was announced once and taken back at most once; and only
`connection_` is up. -/
structure Accounted (s : TcpClient) : Prop where
  placed : s.connector_.Placed
  orderly : ∀ conn ∈ s.conns, conn.story.Orderly
  tracked : ∀ c conn, s.conns[c]? = some conn → conn.Up → s.connection_ = some c

/-- What the event makes the connector do. -/
def connectorEvent (s : TcpClient) : Event → Option Connector.Event
  | .connect isInLoopThread answer => some (.start isInLoopThread answer)
  | .stop isInLoopThread => some (.stop isInLoopThread)
  | .handleWrite answer => some (.handleWrite answer)
  | .handleError => some .handleError
  | .runFunctor answer => some (.runFunctor answer)
  | .handleClose c answer =>
      if c < s.conns.length ∧ s.retry_ = true ∧ s.connect_ = true then some (.restart true answer) else none
  | _ => none

/-- The connector hands a socket over. -/
def Delivers (c : Connector) (answer : Connector.Answer Int32) : Prop :=
  c.crashed = false ∧ c.state_ = .kConnecting ∧ c.channel_ ≠ none ∧ Connector.err answer = 0 ∧ c.connect_ = true

/-- No socket is handed over while `connection_` is set, and a connection that is down does not close again
or bring a message. -/
def Single (s : TcpClient) : Event → Prop
  | .handleWrite answer => Delivers s.connector_ answer → s.connection_ = none
  | .handleClose c _ | .message c => ∀ conn, s.conns[c]? = some conn → conn.Up
  | _ => True

/-- The connector loses no socket, and the client no connection. -/
def Keeps (s : TcpClient) (e : Event) : Prop :=
  (∀ e', s.connectorEvent e = some e' → s.connector_.Keeps e') ∧ s.Single e

instance decidableAttempts (c : Connector) : ∀ e, Decidable (c.Attempts e)
  | .start isInLoopThread _ | .restart isInLoopThread _ => inferInstanceAs (Decidable (isInLoopThread = true))
  | .runFunctor _ => inferInstanceAs (Decidable (_ ∧ _))
  | .stop _ | .handleWrite _ | .handleError => inferInstanceAs (Decidable False)

instance decidableGivesUp (c : Connector) : ∀ e, Decidable (c.GivesUp e)
  | .handleWrite _ | .runFunctor _ => inferInstanceAs (Decidable (_ ∧ _))
  | .handleError => inferInstanceAs (Decidable (c.state_ = .kConnecting))
  | .start _ _ | .restart _ _ | .stop _ => inferInstanceAs (Decidable False)

instance decidableConnectorKeeps (c : Connector) (e : Connector.Event) : Decidable (c.Keeps e) :=
  inferInstanceAs (Decidable (_ → _ → _))

instance decidableDelivers (c : Connector) (answer : Connector.Answer Int32) : Decidable (Delivers c answer) :=
  inferInstanceAs (Decidable (_ ∧ _))

instance decidableSingle (s : TcpClient) : ∀ e, Decidable (s.Single e)
  | .handleWrite _ => inferInstanceAs (Decidable (_ → _))
  | .handleClose c _ | .message c => inferInstanceAs (Decidable (∀ conn ∈ s.conns[c]?, conn.Up))
  | .enableRetry | .connect _ _ | .disconnect | .stop _ | .handleError | .runFunctor _ | .shutdown _
  | .connectDestroyed => inferInstanceAs (Decidable True)

instance decidableKeeps (s : TcpClient) (e : Event) : Decidable (s.Keeps e) :=
  inferInstanceAs (Decidable ((∀ e' ∈ s.connectorEvent e, s.connector_.Keeps e') ∧ _))

/-! ## The connector's side -/

section connector

variable {c : Connector} {answer : Connector.Answer Int32}

theorem delivered_connect (c : Connector) (answer : Connector.Answer Unit) :
    (c.connect answer).delivered = c.delivered := by
  rw [Connector.connect_eq_connecting, Connector.connecting]
  split <;> rfl

theorem delivered_startInLoop (c : Connector) (isInLoopThread : Bool) (answer : Connector.Answer Unit) :
    (c.startInLoop isInLoopThread answer).delivered = c.delivered := by
  unfold Connector.startInLoop
  split
  · rfl
  · split
    · exact delivered_connect c answer
    · rfl

theorem delivered_handleError (c : Connector) : c.handleError.delivered = c.delivered := by
  unfold Connector.handleError
  split
  · cases hchannel : c.channel_ with
    | none =>
        rw [Connector.removeAndResetChannel_none hchannel]
        rfl
    | some channel =>
        rw [Connector.removeAndResetChannel_some hchannel]
        rfl
  · rfl

theorem delivered_stopInLoop (c : Connector) : (c.stopInLoop true).delivered = c.delivered := by
  unfold Connector.stopInLoop
  simp only [Bool.not_true, Bool.false_eq_true, if_false]
  split
  · cases hchannel : c.channel_ with
    | none =>
        rw [Connector.removeAndResetChannel_none (c := c.setState .kDisconnected) hchannel]
        rfl
    | some channel =>
        rw [Connector.removeAndResetChannel_some (c := c.setState .kDisconnected) hchannel]
        rfl
  · rfl

theorem delivered_handleWrite (h : ¬ Delivers c answer) (hrunning : c.crashed = false) :
    (c.handleWrite answer).delivered = c.delivered := by
  unfold Connector.handleWrite
  split
  · rfl
  · next hstate =>
      cases hchannel : c.channel_ with
      | none =>
          rw [Connector.removeAndResetChannel_none hchannel]
          rfl
      | some channel =>
          rw [Connector.removeAndResetChannel_some hchannel]
          dsimp only
          split
          · rfl
          · next herr =>
              split
              · next hconnect =>
                  exact absurd ⟨hrunning, not_not.1 hstate, by simp [hchannel], not_not.1 herr, hconnect⟩ h
              · rfl

/-- Only a successful attempt hands its socket over. -/
theorem delivered_step (e : Connector.Event) (h : ∀ answer, e = .handleWrite answer → ¬ Delivers c answer) :
    (c.step e).delivered = c.delivered := by
  unfold Connector.step
  split
  · rfl
  · next hrunning =>
      have hrunning : c.crashed = false := by simpa using hrunning
      cases e with
      | start isInLoopThread answer =>
          simp only [Connector.start]
          split
          · exact delivered_startInLoop _ true answer
          · rfl
      | stop isInLoopThread =>
          simp only [Connector.stop]
          split <;> rfl
      | restart isInLoopThread answer =>
          simp only [Connector.restart]
          split
          · rfl
          · exact delivered_startInLoop _ isInLoopThread answer
      | handleWrite answer =>
          exact delivered_handleWrite (h answer rfl) hrunning
      | handleError =>
          exact delivered_handleError c
      | runFunctor answer =>
          simp only [Connector.runFunctor]
          split
          · rfl
          · next f rest _ =>
              cases f with
              | startInLoop =>
                  exact delivered_startInLoop _ true answer
              | stopInLoop =>
                  exact delivered_stopInLoop _
              | resetChannel =>
                  rfl

theorem delivered_of_delivers (h : Delivers c answer) :
    ∃ sockfd, (c.step (.handleWrite answer)).delivered = c.delivered ++ [sockfd] := by
  obtain ⟨hrunning, hstate, hchannel, herr, hconnect⟩ := h
  obtain ⟨channel, hchannel⟩ := Option.ne_none_iff_exists'.1 hchannel
  refine ⟨channel.sockfd, ?_⟩
  simp only [Connector.step, hrunning, Bool.false_eq_true, if_false, Connector.handleWrite]
  rw [if_neg (not_not.2 hstate), Connector.removeAndResetChannel_some hchannel]
  dsimp only
  have hon : ((c.removed channel).setState .kConnected).connect_ = true := hconnect
  rw [if_neg (not_not.2 herr), if_pos hon]
  rfl

end connector

/-! ## The connections' side -/

/-- What the connections are like as long as the client tracks them. -/
structure Tracked (s : TcpClient) : Prop where
  stories : ∀ conn ∈ s.conns, conn.story.Inv ∧ conn.story.Orderly
  current : ∀ c, s.connection_ = some c → ∃ conn, s.conns[c]? = some conn ∧ conn.Up
  tracked : ∀ c conn, s.conns[c]? = some conn → conn.Up → s.connection_ = some c
  destroyed : ∀ c ∈ s.pendingFunctors_, ∃ conn, s.conns[c]? = some conn ∧ ¬ conn.Up

structure Inv (s : TcpClient) : Prop where
  connector : s.connector_.Inv
  connections : s.Tracked

section connections

variable {s s' : TcpClient}

/-- Only these members matter. -/
theorem Tracked.congr (h : s.Tracked) (hconns : s'.conns = s.conns) (hconnection : s'.connection_ = s.connection_)
    (hpending : s'.pendingFunctors_ = s.pendingFunctors_) : s'.Tracked where
  stories := hconns ▸ h.stories
  current := by
    rw [hconns, hconnection]
    exact h.current
  tracked := by
    rw [hconns, hconnection]
    exact h.tracked
  destroyed := by
    rw [hconns, hpending]
    exact h.destroyed

theorem getElem?_onConn (s : TcpClient) (c : Nat) (move : Move) (d : Nat) :
    (s.onConn c move).conns[d]? =
      if c = d then (s.conns[d]?).map fun conn => { conn with story := conn.story.step move }
      else s.conns[d]? := by
  rw [onConn, List.getElem?_modify]
  split
  · rfl
  · exact Option.map_id_apply

theorem getElem?_onConn_self {c : Nat} {conn : Conn} (hconn : s.conns[c]? = some conn) (move : Move) :
    (s.onConn c move).conns[c]? = some { conn with story := conn.story.step move } := by
  rw [getElem?_onConn, if_pos rfl, hconn]
  rfl

theorem getElem?_onConn_of_ne {c d : Nat} (hne : c ≠ d) (move : Move) :
    (s.onConn c move).conns[d]? = s.conns[d]? := by
  rw [getElem?_onConn, if_neg hne]

/-- The stories after a move that is allowed. -/
theorem Tracked.stories_onConn (h : s.Tracked) {c : Nat} {move : Move}
    (hallowed : ∀ conn, s.conns[c]? = some conn → conn.story.Allowed move) :
    ∀ conn ∈ (s.onConn c move).conns, conn.story.Inv ∧ conn.story.Orderly := by
  intro conn hconn
  obtain ⟨d, hd⟩ := List.getElem?_of_mem hconn
  by_cases hc : c = d
  · subst hc
    cases hold : s.conns[c]? with
    | none =>
        rw [getElem?_onConn, if_pos rfl, hold] at hd
        cases hd
    | some old =>
        rw [getElem?_onConn_self hold] at hd
        obtain rfl := Option.some.inj hd
        obtain ⟨hinv, horderly⟩ := h.stories old (List.mem_of_getElem? hold)
        exact ⟨Lifecycle.Story.inv_step _ _ hinv,
          (Lifecycle.Story.orderly_step_iff _ _ hinv horderly).2 (hallowed old hold)⟩
  · rw [getElem?_onConn_of_ne hc] at hd
    exact h.stories conn (List.mem_of_getElem? hd)

/-- A move that leaves the connection up, or down, as it is. -/
theorem Tracked.onConn (h : s.Tracked) {c : Nat} {move : Move}
    (hallowed : ∀ conn, s.conns[c]? = some conn → conn.story.Allowed move)
    (hsame : ∀ conn, s.conns[c]? = some conn →
      ((conn.story.step move).state_ = .kDisconnected ↔ conn.story.state_ = .kDisconnected)) :
    (s.onConn c move).Tracked := by
  have hforth : ∀ (d : Nat) (old : Conn), s.conns[d]? = some old →
      ∃ conn, (s.onConn c move).conns[d]? = some conn ∧ (conn.Up ↔ old.Up) := by
    intro d old hold
    by_cases hc : c = d
    · subst hc
      exact ⟨_, getElem?_onConn_self hold move, not_congr (hsame old hold)⟩
    · exact ⟨old, (getElem?_onConn_of_ne hc move).trans hold, Iff.rfl⟩
  refine ⟨h.stories_onConn hallowed, ?_, ?_, ?_⟩
  · intro d hd
    obtain ⟨old, hold, hup⟩ := h.current d hd
    obtain ⟨conn, hconn, hiff⟩ := hforth d old hold
    exact ⟨conn, hconn, hiff.2 hup⟩
  · intro d conn hconn hup
    have hd : d < s.conns.length := by
      have hlt := (List.getElem?_eq_some_iff.1 hconn).1
      rwa [TcpClient.onConn, List.length_modify] at hlt
    obtain ⟨conn', hconn', hiff⟩ := hforth d _ (List.getElem?_eq_getElem hd)
    obtain rfl := Option.some.inj (hconn.symm.trans hconn')
    exact h.tracked d _ (List.getElem?_eq_getElem hd) (hiff.1 hup)
  · intro d hd
    obtain ⟨old, hold, hdown⟩ := h.destroyed d hd
    obtain ⟨conn, hconn, hiff⟩ := hforth d old hold
    exact ⟨conn, hconn, fun hup => hdown (hiff.1 hup)⟩

theorem Tracked.shutdown (h : s.Tracked) (c : Nat) : (s.onConn c .shutdown).Tracked := by
  refine h.onConn (fun _ _ => trivial) ?_
  intro conn _
  simp only [Story.step]
  split
  · next hstate =>
      simp [Story.enter, Story.notify, hstate]
  · exact Iff.rfl

theorem Tracked.message (h : s.Tracked) {c : Nat} (hup : ∀ conn, s.conns[c]? = some conn → conn.Up) :
    (s.onConn c .message).Tracked :=
  h.onConn hup fun _ _ => Iff.rfl

/-- By the time `connectDestroyed` runs the connection has been down for long. -/
theorem Tracked.connectDestroyed (h : s.Tracked) : s.connectDestroyed.Tracked := by
  unfold TcpClient.connectDestroyed
  split
  · exact h
  · next c rest hpending =>
      have hpopped : Tracked { s with pendingFunctors_ := rest } :=
        ⟨h.stories, h.current, h.tracked,
          fun d hd => h.destroyed d (hpending ▸ List.mem_cons_of_mem _ hd)⟩
      refine hpopped.onConn (fun _ _ => trivial) ?_
      intro conn hconn
      obtain ⟨old, hold, hdown⟩ := h.destroyed c (hpending ▸ List.mem_cons_self)
      obtain rfl : old = conn := Option.some.inj (hold.symm.trans hconn)
      have hstate : old.story.state_ = .kDisconnected := not_not.1 hdown
      simp [Story.step, hstate]

theorem inv_established : established.Inv ∧ established.Orderly :=
  ⟨Lifecycle.OnLoop.inv_start (c := ()) 0 .new, Lifecycle.OnLoop.orderly_start (c := ()) 0 .new⟩

theorem Tracked.newConnection (h : s.Tracked) (hnone : s.connection_ = none) (sockfd : Nat) :
    (s.newConnection sockfd).Tracked := by
  have hget : ∀ c conn, (s.newConnection sockfd).conns[c]? = some conn →
      s.conns[c]? = some conn ∨ c = s.conns.length := by
    intro c conn hc
    simp only [TcpClient.newConnection] at hc
    rcases Nat.lt_trichotomy c s.conns.length with hlt | heq | hgt
    · rw [List.getElem?_append_left hlt] at hc
      exact .inl hc
    · exact .inr heq
    · rw [List.getElem?_eq_none (by simp; omega)] at hc
      cases hc
  have hlast : (s.newConnection sockfd).conns[s.conns.length]? =
      some { sockfd, name_ := connName s.conf s.nextConnId_, story := established } := by
    simp [TcpClient.newConnection]
  refine ⟨?_, ?_, ?_, ?_⟩
  · intro conn hconn
    rcases List.mem_append.1 hconn with hold | hnew
    · exact h.stories conn hold
    · rw [List.mem_singleton.1 hnew]
      exact inv_established
  · intro c hc
    obtain rfl := Option.some.inj hc
    exact ⟨_, hlast, StateE.noConfusion⟩
  · intro c conn hc hup
    rcases hget c conn hc with hold | rfl
    · rw [h.tracked c conn hold hup] at hnone
      cases hnone
    · rfl
  · intro c hc
    obtain ⟨old, hold, hdown⟩ := h.destroyed c hc
    refine ⟨old, ?_, hdown⟩
    exact (List.getElem?_append_left (List.getElem?_eq_some_iff.1 hold).1).trans hold

/-- The connection that closes is `connection_`. -/
theorem Tracked.handleClose (h : s.Tracked) {c : Nat} {conn : Conn} (hconn : s.conns[c]? = some conn)
    (hup : conn.Up) (answer : Connector.Answer Unit) : (s.handleClose c answer).Tracked := by
  have hlt : c < s.conns.length := (List.getElem?_eq_some_iff.1 hconn).1
  have hclosed : Tracked
      { s.onConn c .close with connection_ := none, pendingFunctors_ := s.pendingFunctors_ ++ [c] } := by
    refine ⟨h.stories_onConn ?_, ?_, ?_, ?_⟩
    · intro conn' hconn'
      obtain rfl := Option.some.inj (hconn.symm.trans hconn')
      exact hup
    · intro d hd
      cases hd
    · intro d conn' hconn' hup'
      by_cases hc : c = d
      · subst hc
        have hnow := (getElem?_onConn_self hconn .close).symm.trans hconn'
        obtain rfl := Option.some.inj hnow
        exact absurd rfl hup'
      · -- no other connection was up
        have hother := h.tracked d conn' ((getElem?_onConn_of_ne hc .close).symm.trans hconn') hup'
        rw [h.tracked c conn hconn hup] at hother
        exact absurd (Option.some.inj hother) hc
    · intro d hd
      rcases List.mem_append.1 hd with hold | hnew
      · obtain ⟨old, hget, hdown⟩ := h.destroyed d hold
        have hc : c ≠ d := by
          rintro rfl
          obtain rfl := Option.some.inj (hconn.symm.trans hget)
          exact hdown hup
        exact ⟨old, (getElem?_onConn_of_ne hc .close).trans hget, hdown⟩
      · obtain rfl := List.mem_singleton.1 hnew
        exact ⟨_, getElem?_onConn_self hconn .close, by simp [Conn.Up, Story.step, Story.enter, Story.notify]⟩
  rw [TcpClient.handleClose, if_pos hlt, removeConnection]
  split
  · exact hclosed.congr rfl rfl rfl
  · exact hclosed

end connections

/-! ## One step -/

section steps

variable {s : TcpClient}

theorem conns_onConnector_of_not {e : Connector.Event}
    (h : ∀ answer, e = .handleWrite answer → ¬ Delivers s.connector_ answer) :
    s.onConnector e = { s with connector_ := s.connector_.step e } := by
  simp only [onConnector, delivered_step e h, List.drop_length, List.foldl_nil]

theorem conns_onConnector_of_delivers {answer : Connector.Answer Int32} (h : Delivers s.connector_ answer) :
    ∃ sockfd, s.onConnector (.handleWrite answer) =
      newConnection { s with connector_ := s.connector_.step (.handleWrite answer) } sockfd := by
  obtain ⟨sockfd, hdelivered⟩ := delivered_of_delivers h
  refine ⟨sockfd, ?_⟩
  simp only [onConnector, hdelivered, List.drop_left, List.foldl_cons, List.foldl_nil]

/-- What becomes of the connector. -/
theorem connector_step (s : TcpClient) (e : Event) :
    (s.step e).connector_ = (s.connectorEvent e).elim s.connector_ s.connector_.step := by
  have honConnector : ∀ e', (s.onConnector e').connector_ = s.connector_.step e' := by
    intro e'
    have hfold : ∀ (sockfds : List Nat) (t : TcpClient),
        (sockfds.foldl newConnection t).connector_ = t.connector_ := by
      intro sockfds
      induction sockfds with
      | nil =>
          exact fun _ => rfl
      | cons sockfd rest ih =>
          exact fun t => ih (t.newConnection sockfd)
    exact hfold _ _
  cases e with
  | handleWrite answer =>
      exact honConnector _
  | handleError =>
      exact honConnector _
  | runFunctor answer =>
      exact honConnector _
  | handleClose c answer =>
      simp only [step, handleClose, connectorEvent, removeConnection]
      by_cases hc : c < s.conns.length
      · by_cases hrestart : s.retry_ = true ∧ s.connect_ = true
        · rw [if_pos hc, if_pos (by simpa [onConn] using hrestart), if_pos ⟨hc, hrestart⟩]
          rfl
        · rw [if_pos hc, if_neg (by simpa [onConn] using hrestart), if_neg fun h => hrestart h.2]
          rfl
      · rw [if_neg hc, if_neg fun h => hc h.1]
        rfl
  | connectDestroyed =>
      simp only [step, connectDestroyed]
      split <;> rfl
  | _ =>
      rfl

theorem Tracked.step (h : s.Tracked) {e : Event} (hsingle : s.Single e) : (s.step e).Tracked := by
  cases e with
  | enableRetry =>
      exact h.congr rfl rfl rfl
  | connect isInLoopThread answer =>
      exact h.congr rfl rfl rfl
  | disconnect =>
      exact h.congr rfl rfl rfl
  | stop isInLoopThread =>
      exact h.congr rfl rfl rfl
  | handleWrite answer =>
      have hmoved : Tracked { s with connector_ := s.connector_.step (.handleWrite answer) } :=
        h.congr rfl rfl rfl
      by_cases hdelivers : Delivers s.connector_ answer
      · obtain ⟨sockfd, hnew⟩ := conns_onConnector_of_delivers hdelivers
        rw [TcpClient.step, hnew]
        exact hmoved.newConnection (hsingle hdelivers) sockfd
      · rw [TcpClient.step, conns_onConnector_of_not]
        · exact hmoved
        · intro answer' heq
          cases heq
          exact hdelivers
  | handleError =>
      rw [TcpClient.step, conns_onConnector_of_not (by simp)]
      exact h.congr rfl rfl rfl
  | runFunctor answer =>
      rw [TcpClient.step, conns_onConnector_of_not (by simp)]
      exact h.congr rfl rfl rfl
  | message c =>
      exact h.message hsingle
  | shutdown c =>
      exact h.shutdown c
  | handleClose c answer =>
      cases hconn : s.conns[c]? with
      | none =>
          have hout : ¬ c < s.conns.length := Nat.not_lt.2 (List.getElem?_eq_none_iff.1 hconn)
          rw [TcpClient.step, TcpClient.handleClose, if_neg hout]
          exact h
      | some conn =>
          exact h.handleClose hconn (hsingle conn hconn) answer
  | connectDestroyed =>
      exact h.connectDestroyed

theorem Inv.step (h : s.Inv) {e : Event} (hkeeps : s.Keeps e) : (s.step e).Inv where
  connector := by
    rw [connector_step]
    cases he : s.connectorEvent e with
    | none =>
        exact h.connector
    | some e' =>
        exact (h.connector.step_decides e').inv (hkeeps.1 e' he)
  connections := h.connections.step hkeeps.2

theorem Inv.accounted (h : s.Inv) : s.Accounted where
  placed := h.connector.placed
  orderly := fun conn hconn => (h.connections.stories conn hconn).2
  tracked := h.connections.tracked

/-- A move on a connection that is down leaves its story out of order. -/
theorem Tracked.up_of_orderly (h : s.Tracked) {c : Nat} {conn : Conn} (move : Move)
    (hconn : s.conns[c]? = some conn)
    (horderly : ∀ conn ∈ (s.onConn c move).conns, conn.story.Orderly) : conn.story.Allowed move := by
  obtain ⟨hinv, hbefore⟩ := h.stories conn (List.mem_of_getElem? hconn)
  rw [← Lifecycle.Story.orderly_step_iff _ _ hinv hbefore]
  exact horderly _ (List.mem_of_getElem? (getElem?_onConn_self hconn move))

/-- A step that keeps everything accounted for is one of those. -/
theorem Inv.keeps (h : s.Inv) {e : Event} (haccounted : (s.step e).Accounted) : s.Keeps e := by
  constructor
  · intro e' he
    have hplaced := haccounted.placed
    rw [connector_step, he] at hplaced
    exact (h.connector.step_decides e').guard hplaced
  · cases e with
    | handleWrite answer =>
        intro hdelivers
        by_contra hsome
        obtain ⟨c, hc⟩ := Option.ne_none_iff_exists'.1 hsome
        obtain ⟨conn, hconn, hup⟩ := h.connections.current c hc
        obtain ⟨sockfd, hnew⟩ := conns_onConnector_of_delivers hdelivers
        have hlt : c < s.conns.length := (List.getElem?_eq_some_iff.1 hconn).1
        -- the connection that was there is up, but no longer `connection_`
        have htracked := haccounted.tracked c conn
        rw [TcpClient.step, hnew] at htracked
        have hstill := htracked ((List.getElem?_append_left hlt).trans hconn) hup
        have hlast : s.conns.length = c := Option.some.inj hstill
        omega
    | message c =>
        intro conn hconn
        exact h.connections.up_of_orderly .message hconn haccounted.orderly
    | handleClose c answer =>
        intro conn hconn
        have hlt : c < s.conns.length := (List.getElem?_eq_some_iff.1 hconn).1
        refine h.connections.up_of_orderly .close hconn ?_
        have horderly := haccounted.orderly
        simp only [TcpClient.step, TcpClient.handleClose, if_pos hlt, removeConnection] at horderly
        split at horderly <;> exact horderly
    | _ =>
        trivial

end steps

theorem inv_new (conf : TcpServer.Config) (connect_ : Bool) (state_ : Connector.States)
    (retryDelayMs_ : Int32) : (new conf (.new connect_ state_ retryDelayMs_)).Inv where
  connector := Connector.inv_new connect_ state_ retryDelayMs_
  connections := by
    refine ⟨?_, ?_, ?_, ?_⟩
    · intro conn hconn
      cases hconn
    · intro c hc
      cases hc
    · intro c conn hc
      cases hc
    · intro c hc
      cases hc

/-- **The runs in which no socket and no connection is lost.**  In every state of a run each socket is in one
place, each connection has an orderly story and only `connection_` is up, exactly when no step of the run
makes the connector lose a socket, hands one over while `connection_` is set, or closes or reads from a
connection that is down. -/
theorem keeps_iff_accounted (conf : TcpServer.Config) (connect_ : Bool) (state_ : Connector.States)
    (retryDelayMs_ : Int32) (es : List Event) :
    Runs.Guarded step Keeps (new conf (.new connect_ state_ retryDelayMs_)) es ↔
      Runs.Throughout step Accounted (new conf (.new connect_ state_ retryDelayMs_)) es :=
  Runs.guarded_iff_of_invariant (I := Inv) (fun _ _ h hkeeps => h.step hkeeps) (fun _ h => h.accounted)
    (fun _ _ h haccounted => h.keeps haccounted) (inv_new conf connect_ state_ retryDelayMs_)

/-- A client that connects while it is connected loses its connection. -/
example : ¬ Runs.Guarded step Keeps (new ⟨[], (127, 0, 0, 1), 80⟩ (.new false .kDisconnected 0))
    [.connect true (.ok ()), .handleWrite (.ok 0), .runFunctor (.ok ()), .connect true (.ok ()),
      .handleWrite (.ok 0)] := by decide

/-! ## Names -/

/-- What the buffer has room for behind the address: the digits of a number, or the first of them. -/
def room (conf : TcpServer.Config) : Nat := 29 - conf.ipPort_.length

theorem connName_eq (conf : TcpServer.Config) {n : Nat} (h : n < 2 ^ 31) :
    connName conf (BitVec.ofNat 32 n) =
      conf.name_ ++ (bytes ":" ++ conf.ipPort_ ++ bytes "#") ++ (Numerals.to_string n).take (room conf) := by
  have hint : (BitVec.ofNat 32 n).toInt = n := by
    have hnat : (BitVec.ofNat 32 n).toNat = n := by
      rw [BitVec.toNat_ofNat, Nat.mod_eq_of_lt (h.trans (by decide))]
    rw [BitVec.toInt_eq_toNat_of_lt (by omega), hnat]
  have hipPort := TcpServer.length_ipPort_ conf
  have hcolon : (bytes ":").length = 1 := by decide
  have hhash : (bytes "#").length = 1 := by decide
  have hhead : (bytes ":" ++ conf.ipPort_ ++ bytes "#").length = conf.ipPort_.length + 2 := by
    rw [List.length_append, List.length_append, hcolon, hhash]
    omega
  have hroom : 32 - 1 - (conf.ipPort_.length + 2) = room conf := by
    rw [room]
    omega
  rw [connName, hint, TcpServer.snprintf, List.take_append, hhead, hroom, List.take_of_length_le (by omega)]
  simp only [List.append_assoc]

/-- Numbers that fit are told apart. -/
theorem connName_inj (conf : TcpServer.Config) {m n : Nat} (hm : m < 2 ^ 31) (hn : n < 2 ^ 31)
    (hm' : m < 10 ^ room conf) (hn' : n < 10 ^ room conf)
    (h : connName conf (BitVec.ofNat 32 m) = connName conf (BitVec.ofNat 32 n)) : m = n := by
  have hroom : 0 < room conf := by
    have hipPort := TcpServer.length_ipPort_ conf
    rw [room]
    omega
  rw [connName_eq conf hm, connName_eq conf hn] at h
  have hdigits := List.append_cancel_left h
  rw [List.take_of_length_le (Numerals.length_to_string_le hroom hm'),
    List.take_of_length_le (Numerals.length_to_string_le hroom hn')] at hdigits
  exact Numerals.to_string_injective hdigits

/-- The first number that does not fit has the name of one that does. -/
theorem connName_pow_room (conf : TcpServer.Config) (h : 10 ^ room conf < 2 ^ 31) :
    connName conf (BitVec.ofNat 32 (10 ^ room conf)) = connName conf (BitVec.ofNat 32 (10 ^ (room conf - 1))) := by
  obtain ⟨k, hk⟩ : ∃ k, room conf = k + 1 := by
    have hipPort := TcpServer.length_ipPort_ conf
    refine ⟨28 - conf.ipPort_.length, ?_⟩
    rw [room]
    omega
  have hless : 10 ^ k < 2 ^ 31 := by
    rw [hk, pow_succ] at h
    omega
  rw [hk] at h
  rw [hk, Nat.add_sub_cancel, connName_eq conf h, connName_eq conf hless, hk, Numerals.take_to_string_pow]
  rw [List.take_of_length_le (Numerals.length_to_string_pow k).le]

/-- The connections have the names of their numbers. -/
structure Named (conf : TcpServer.Config) (s : TcpClient) : Prop where
  conf_eq : s.conf = conf
  next : s.nextConnId_ = BitVec.ofNat 32 (s.conns.length + 1)
  names : s.conns.map Conn.name_ =
    (List.range s.conns.length).map fun c => connName conf (BitVec.ofNat 32 (c + 1))

section named

variable {conf : TcpServer.Config} {s : TcpClient}

theorem Named.congr {s' : TcpClient} (h : s.Named conf) (hconf : s'.conf = s.conf)
    (hnext : s'.nextConnId_ = s.nextConnId_) (hnames : s'.conns.map Conn.name_ = s.conns.map Conn.name_) :
    s'.Named conf := by
  have hlength : s'.conns.length = s.conns.length := by
    simpa using congrArg List.length hnames
  refine ⟨hconf.trans h.conf_eq, ?_, ?_⟩
  · rw [hnext, hlength]
    exact h.next
  · rw [hnames, hlength]
    exact h.names

theorem Named.onConn (h : s.Named conf) (c : Nat) (move : Move) : (s.onConn c move).Named conf := by
  refine h.congr rfl rfl ?_
  refine List.ext_getElem? fun d => ?_
  rw [List.getElem?_map, List.getElem?_map, getElem?_onConn]
  split
  · cases s.conns[d]? <;> rfl
  · rfl

theorem Named.newConnection (h : s.Named conf) (sockfd : Nat) : (s.newConnection sockfd).Named conf where
  conf_eq := h.conf_eq
  next := by
    show s.nextConnId_ + 1 = BitVec.ofNat 32 ((s.conns ++ [_]).length + 1)
    rw [h.next, List.length_append, List.length_singleton, BitVec.ofNat_add (s.conns.length + 1)]
    rfl
  names := by
    show (s.conns ++ [_]).map Conn.name_ = _
    rw [List.map_append, h.names]
    show _ = (List.range (s.conns ++ [_]).length).map _
    rw [List.length_append, List.length_singleton, List.range_succ, List.map_append, List.map_singleton,
      List.map_singleton, h.conf_eq, h.next]

theorem Named.onConnector (h : s.Named conf) (e : Connector.Event) : (s.onConnector e).Named conf := by
  have hfold : ∀ (sockfds : List Nat) (t : TcpClient), t.Named conf →
      (sockfds.foldl TcpClient.newConnection t).Named conf := by
    intro sockfds
    induction sockfds with
    | nil =>
        exact fun _ ht => ht
    | cons sockfd rest ih =>
        exact fun t ht => ih _ (ht.newConnection sockfd)
  exact hfold _ _ (h.congr rfl rfl rfl)

theorem Named.step (s : TcpClient) (e : Event) (h : s.Named conf) : (s.step e).Named conf := by
  cases e with
  | handleWrite answer =>
      exact h.onConnector _
  | handleError =>
      exact h.onConnector _
  | runFunctor answer =>
      exact h.onConnector _
  | message c =>
      exact h.onConn c .message
  | shutdown c =>
      exact h.onConn c .shutdown
  | handleClose c answer =>
      simp only [TcpClient.step, handleClose, removeConnection]
      split
      · split <;> exact (h.onConn c .close).congr rfl rfl rfl
      · exact h
  | connectDestroyed =>
      simp only [TcpClient.step, connectDestroyed]
      split
      · exact h
      · next c rest _ =>
          have hpopped : Named conf { s with pendingFunctors_ := rest } := h.congr rfl rfl rfl
          exact hpopped.onConn c .destroy
  | _ =>
      exact h.congr rfl rfl rfl

end named

/-- **The names of the connections differ as long as their numbers fit into the buffer**, and no longer. -/
theorem names_nodup_iff (conf : TcpServer.Config) (connector_ : Connector) {es : List Event}
    (h : (es.foldl step (new conf connector_)).conns.length < 2 ^ 31) :
    ((es.foldl step (new conf connector_)).conns.map Conn.name_).Nodup ↔
      (es.foldl step (new conf connector_)).conns.length < 10 ^ room conf := by
  have hnamed : (es.foldl step (new conf connector_)).Named conf :=
    Runs.invariant_run (I := Named conf) Named.step ⟨rfl, rfl, rfl⟩ es
  generalize es.foldl step (new conf connector_) = s at h hnamed
  rw [hnamed.names]
  constructor
  · intro hnodup
    by_contra hlong
    have hinj := List.inj_on_of_nodup_map hnodup
    have hpow : 10 ^ room conf < 2 ^ 31 := by omega
    have hless : 10 ^ (room conf - 1) < 10 ^ room conf := by
      have hipPort := TcpServer.length_ipPort_ conf
      refine Nat.pow_lt_pow_right (by decide) ?_
      rw [room]
      omega
    have hpos : 0 < 10 ^ (room conf - 1) := Nat.pow_pos (by decide)
    have hname : connName conf (BitVec.ofNat 32 (10 ^ room conf - 1 + 1)) =
        connName conf (BitVec.ofNat 32 (10 ^ (room conf - 1) - 1 + 1)) := by
      rw [Nat.sub_add_cancel (by omega), Nat.sub_add_cancel hpos]
      exact connName_pow_room conf hpow
    have hsame := hinj (List.mem_range.2 (by omega)) (List.mem_range.2 (by omega)) hname
    omega
  · intro hshort
    refine List.Nodup.map_on ?_ List.nodup_range
    intro c hc d hd hname
    rw [List.mem_range] at hc hd
    have hsame := connName_inj conf (by omega) (by omega) (by omega) (by omega) hname
    omega

/-- Two connections, the second made when the first was closed. -/
theorem names_nodup_iff_two :
    let s := ([.enableRetry, .connect true (.error Connector.EINPROGRESS), .handleWrite (.ok 0), .runFunctor (.ok ()),
      .message 0, .handleClose 0 (.error Connector.EINPROGRESS), .connectDestroyed, .handleWrite (.ok 0)] :
        List Event).foldl step (new ⟨[], (127, 0, 0, 1), 80⟩ (.new false .kDisconnected 0))
    s.conns.length = 2 ∧ (s.conns.map Conn.name_).Nodup := by
  intro s
  have hlength : s.conns.length = 2 := by decide +kernel
  refine ⟨hlength, (names_nodup_iff _ _ (by decide +kernel)).2 ?_⟩
  rw [show List.length _ = 2 from hlength]
  decide +kernel

end TcpClient
end Net
end Myoj
