import Myoj.Net.TcpClient

/-!
# Reconnect — a client that is to retry

`removeConnection` starts the connector again when `retry_` and `connect_` are set.  A connector that loses no
socket then goes from one attempt to the next connection and back; `Connector::retry`, whose body is still to be
written, is where it would stop.

* `Going` — a connector that has a live channel whenever it is connecting;
* `Going.continues` — a step goes on with the attempt, or ends it by success;
* `Persisting`, `underway_throughout` — in every state there is a connection or an attempt at one.
-/

namespace Myoj
namespace Net
namespace TcpClient

/-! ## The connector -/

/-- A connector that has a live channel whenever it is connecting. -/
structure Going (c : Connector) : Prop where
  inv : c.Inv
  running : c.crashed = false
  live : c.state_ = .kConnecting → c.held ≠ []

/-- An attempt is under way, or about to begin. -/
def Attempting (c : Connector) : Prop := c.held ≠ [] ∨ .startInLoop ∈ c.pendingFunctors_

/-- What a step that loses no socket makes of an attempt. -/
structure Continues (c c' : Connector) (delivers : Prop) : Prop where
  running : c'.crashed = false
  live : c'.state_ = .kConnecting → c'.held ≠ []
  connect : c.connect_ = true → c'.connect_ = true
  attempting : c.connect_ = true → Attempting c → Attempting c' ∨ delivers

section going

variable {c c' : Connector}

theorem Going.channel (h : Going c) (hstate : c.state_ = .kConnecting) : c.channel_ ≠ none := by
  intro hnone
  exact h.live hstate (by rw [Connector.held, hnone])

theorem held_connect (hnone : c.channel_ = none) (answer : Connector.Answer Unit) :
    (c.connect answer).held = [c.created] := by
  rw [Connector.connect_of_none hnone]
  rfl

/-- Nothing that matters has changed. -/
theorem Going.continues_of_same (h : Going c) {delivers : Prop} (hcrashed : c'.crashed = c.crashed)
    (hstate : c'.state_ = c.state_) (hchannel : c'.channel_ = c.channel_)
    (hconnect : c.connect_ = true → c'.connect_ = true)
    (hpending : .startInLoop ∈ c.pendingFunctors_ → .startInLoop ∈ c'.pendingFunctors_) :
    Continues c c' delivers := by
  have hheld : c'.held = c.held := by rw [Connector.held, hchannel, Connector.held]
  refine ⟨hcrashed.trans h.running, ?_, hconnect, ?_⟩
  · rw [hstate, hheld]
    exact h.live
  · rintro - (hlive | hqueued)
    · exact .inl (.inl (hheld ▸ hlive))
    · exact .inl (.inr (hpending hqueued))

theorem Going.continues_connect (h : Going c) (hnone : c.channel_ = none) (hconnect : c.connect_ = true)
    (answer : Connector.Answer Unit) {delivers : Prop} {before : Connector} :
    Continues before (c.connect answer) delivers := by
  have hheld := held_connect hnone answer
  refine ⟨?_, ?_, ?_, ?_⟩
  · rw [Connector.connect_of_none hnone]
    exact h.running
  · rw [hheld]
    simp
  · rw [Connector.connect_of_none hnone]
    exact fun _ => hconnect
  · exact fun _ _ => .inl (.inl (by rw [hheld]; simp))

theorem Going.continues_handleWrite (h : Going c) {answer : Connector.Answer Int32}
    (hkeeps : c.Keeps (.handleWrite answer)) :
    Continues c (c.handleWrite answer) (Delivers c answer) := by
  unfold Connector.handleWrite
  split
  · exact h.continues_of_same rfl rfl rfl id id
  · next hstate =>
      have hstate : c.state_ = .kConnecting := not_not.1 hstate
      obtain ⟨channel, hchannel⟩ := Option.ne_none_iff_exists'.1 (h.channel hstate)
      rw [Connector.removeAndResetChannel_some hchannel]
      dsimp only
      -- a failure would give the attempt up
      have herr : Connector.err answer = 0 := by
        by_contra herr
        exact h.channel hstate (hkeeps h.running (.inr ⟨hstate, herr⟩))
      rw [if_neg (not_not.2 herr)]
      split
      · refine ⟨h.running, ?_, id, ?_⟩
        · intro hconnecting
          cases hconnecting
        · exact fun hconnect _ => .inr ⟨h.running, hstate, h.channel hstate, herr, hconnect⟩
      · next hoff =>
          refine ⟨h.running, ?_, id, ?_⟩
          · intro hconnecting
            cases hconnecting
          · exact fun hconnect => absurd hconnect hoff

theorem Going.continues_runFunctor (h : Going c) {answer : Connector.Answer Unit}
    (hkeeps : c.Keeps (.runFunctor answer)) {delivers : Prop} :
    Continues c (c.runFunctor answer) delivers := by
  unfold Connector.runFunctor
  cases hpending : c.pendingFunctors_ with
  | nil =>
      exact h.continues_of_same rfl rfl rfl id id
  | cons f rest =>
      have hpopped : f ≠ .resetChannel → Going { c with pendingFunctors_ := rest } := fun hf =>
        ⟨h.inv.congr rfl rfl rfl rfl id (by simp [hpending, hf]), h.running, h.live⟩
      cases f with
      | startInLoop =>
          simp only [Connector.startInLoop, Bool.not_true, Bool.false_eq_true, if_false]
          split
          · next hconnect =>
              have hnone : c.channel_ = none := hkeeps h.running (.inl ⟨by rw [hpending]; rfl, hconnect⟩)
              exact (hpopped (by decide)).continues_connect hnone hconnect answer
          · next hoff =>
              exact ⟨h.running, h.live, id, fun hconnect => absurd hconnect hoff⟩
      | stopInLoop =>
          have hidle : c.state_ ≠ .kConnecting := fun hstate =>
            h.channel hstate (hkeeps h.running (.inr ⟨by rw [hpending]; rfl, hstate⟩))
          simp only [Connector.stopInLoop, Bool.not_true, Bool.false_eq_true, if_false]
          rw [if_neg hidle]
          refine h.continues_of_same rfl rfl rfl id ?_
          rw [hpending]
          intro hmem
          exact (List.mem_cons.1 hmem).resolve_left (by decide)
      | resetChannel =>
          have hresets := h.inv.resets
          rw [hpending, List.count_cons_self] at hresets
          have hheld : c.held = [] := by
            unfold Connector.waiting at hresets
            unfold Connector.held
            split at hresets <;> simp_all
          refine ⟨h.running, fun hstate => absurd hheld (h.live hstate), id, ?_⟩
          rintro - (hlive | hqueued)
          · exact absurd hheld hlive
          · rw [hpending] at hqueued
            exact .inl (.inr ((List.mem_cons.1 hqueued).resolve_left (by decide)))

/-- A step that loses no socket, other than a stop, goes on with the attempt or ends it by success. -/
theorem Going.continues (h : Going c) {e : Connector.Event} (hkeeps : c.Keeps e)
    (hstop : ∀ isInLoopThread, e ≠ .stop isInLoopThread) :
    Continues c (c.step e) (∃ answer, e = .handleWrite answer ∧ Delivers c answer) := by
  have hset : Going { c with connect_ := true } :=
    ⟨h.inv.congr rfl rfl rfl rfl id rfl, h.running, h.live⟩
  unfold Connector.step
  rw [if_neg (by simp [h.running])]
  cases e with
  | start isInLoopThread answer =>
      cases isInLoopThread with
      | true =>
          have hnone : c.channel_ = none := hkeeps h.running (.inl rfl)
          exact hset.continues_connect hnone rfl answer
      | false =>
          exact ⟨h.running, h.live, fun _ => rfl, fun _ _ =>
            .inl (.inr (List.mem_append_right _ (List.mem_singleton_self _)))⟩
  | stop isInLoopThread =>
      exact absurd rfl (hstop isInLoopThread)
  | restart isInLoopThread answer =>
      cases isInLoopThread with
      | true =>
          have hnone : c.channel_ = none := hkeeps h.running (.inl rfl)
          have hready : Going { c.setState .kDisconnected with
              retryDelayMs_ := Connector.kInitRetryDelayMs, connect_ := true } :=
            ⟨h.inv.congr rfl rfl rfl rfl (fun hstate => by cases hstate) rfl, h.running,
              fun hstate => by cases hstate⟩
          exact hready.continues_connect hnone rfl answer
      | false =>
          exact h.continues_of_same rfl rfl rfl id id
  | handleWrite answer =>
      have hcontinues := h.continues_handleWrite hkeeps
      exact ⟨hcontinues.running, hcontinues.live, hcontinues.connect, fun hconnect hattempting =>
        (hcontinues.attempting hconnect hattempting).imp id fun hdelivers => ⟨answer, rfl, hdelivers⟩⟩
  | handleError =>
      have hidle : c.state_ ≠ .kConnecting := fun hstate =>
        h.channel hstate (hkeeps h.running (.inr hstate))
      simp only [Connector.handleError]
      rw [if_neg hidle]
      exact h.continues_of_same rfl rfl rfl id id
  | runFunctor answer =>
      exact h.continues_runFunctor hkeeps

end going

theorem Going.step {c : Connector} (h : Going c) {e : Connector.Event} (hkeeps : c.Keeps e) :
    Going (c.step e) := by
  have hinv := (h.inv.step_decides e).inv hkeeps
  by_cases hstop : ∃ isInLoopThread, e = .stop isInLoopThread
  · obtain ⟨isInLoopThread, rfl⟩ := hstop
    unfold Connector.step at hinv ⊢
    rw [if_neg (by simp [h.running])] at hinv ⊢
    cases isInLoopThread with
    | true =>
        exact ⟨hinv, h.running, h.live⟩
    | false =>
        exact h
  · have hcontinues := h.continues hkeeps fun isInLoopThread heq => hstop ⟨isInLoopThread, heq⟩
    exact ⟨hinv, hcontinues.running, hcontinues.live⟩

theorem attempting_connect {c : Connector} (hnone : c.channel_ = none) (answer : Connector.Answer Unit) :
    (c.connect answer).connect_ = c.connect_ ∧ Attempting (c.connect answer) := by
  refine ⟨by rw [Connector.connect_of_none hnone], .inl ?_⟩
  rw [held_connect hnone]
  simp

/-- A connector that is restarted has a socket to try with. -/
theorem Going.attempting_restart {c : Connector} (h : Going c) {answer : Connector.Answer Unit}
    (hkeeps : c.Keeps (.restart true answer)) : Attempting (c.step (.restart true answer)) := by
  have hnone : c.channel_ = none := hkeeps h.running (.inl rfl)
  unfold Connector.step
  rw [if_neg (by simp [h.running])]
  exact (attempting_connect (c := { c.setState .kDisconnected with
    retryDelayMs_ := Connector.kInitRetryDelayMs, connect_ := true }) hnone answer).2

theorem Going.attempting_start {c : Connector} (h : Going c) {isInLoopThread : Bool}
    {answer : Connector.Answer Unit} (hkeeps : c.Keeps (.start isInLoopThread answer)) :
    (c.step (.start isInLoopThread answer)).connect_ = true ∧
      Attempting (c.step (.start isInLoopThread answer)) := by
  unfold Connector.step
  rw [if_neg (by simp [h.running])]
  cases isInLoopThread with
  | true =>
      have hnone : c.channel_ = none := hkeeps h.running (.inl rfl)
      exact attempting_connect (c := { c with connect_ := true }) hnone answer
  | false =>
      exact ⟨rfl, .inr (List.mem_append_right _ (List.mem_singleton_self _))⟩

/-! ## The client -/

/-- There is a connection, or an attempt at one. -/
def Underway (s : TcpClient) : Prop := s.connection_ ≠ none ∨ Attempting s.connector_

/-- The user does not tell the client to give up. -/
def Persists : Event → Prop
  | .disconnect | .stop _ => False
  | _ => True

instance : DecidablePred Persists
  | .disconnect | .stop _ => inferInstanceAs (Decidable False)
  | .enableRetry | .connect _ _ | .handleWrite _ | .handleError | .runFunctor _ | .message _ | .shutdown _
  | .handleClose _ _ | .connectDestroyed => inferInstanceAs (Decidable True)

structure Persisting (s : TcpClient) : Prop where
  inv : s.Inv
  going : Going s.connector_
  retry : s.retry_ = true
  connect : s.connect_ = true
  connector : s.connector_.connect_ = true
  underway : s.Underway

section persisting

variable {s : TcpClient}

theorem going_step (h : Going s.connector_) {e : Event} (hkeeps : s.Keeps e) : Going (s.step e).connector_ := by
  rw [connector_step]
  cases he : s.connectorEvent e with
  | none =>
      exact h
  | some e' =>
      exact h.step (hkeeps.1 e' he)

/-- When the connection closes, the next attempt begins. -/
theorem Persisting.underway_handleClose (h : s.Persisting) {c : Nat} {answer : Connector.Answer Unit}
    (hlt : c < s.conns.length) (hkeeps : s.Keeps (.handleClose c answer)) :
    (s.step (.handleClose c answer)).connector_.connect_ = true ∧ (s.step (.handleClose c answer)).Underway := by
  have he : s.connectorEvent (.handleClose c answer) = some (.restart true answer) :=
    if_pos ⟨hlt, h.retry, h.connect⟩
  have hnext : (s.step (.handleClose c answer)).connector_ = s.connector_.step (.restart true answer) := by
    rw [connector_step, he]
    rfl
  have hrestart := hkeeps.1 _ he
  have hcontinues := h.going.continues hrestart (by simp)
  rw [Underway, hnext]
  exact ⟨hcontinues.connect h.connector, .inr (h.going.attempting_restart hrestart)⟩

theorem retry_connect_step (hretry : s.retry_ = true) (hconnect : s.connect_ = true) {e : Event}
    (hpersists : Persists e) : (s.step e).retry_ = true ∧ (s.step e).connect_ = true := by
  have hfold : ∀ (sockfds : List Nat) (t : TcpClient), (sockfds.foldl newConnection t).retry_ = t.retry_ ∧
      (sockfds.foldl newConnection t).connect_ = t.connect_ := by
    intro sockfds
    induction sockfds with
    | nil =>
        exact fun _ => ⟨rfl, rfl⟩
    | cons sockfd rest ih =>
        exact fun t => ih (t.newConnection sockfd)
  have honConnector : ∀ e', (s.onConnector e').retry_ = true ∧ (s.onConnector e').connect_ = true := by
    intro e'
    obtain ⟨hretry', hconnect'⟩ := hfold ((s.connector_.step e').delivered.drop s.connector_.delivered.length)
      { s with connector_ := s.connector_.step e' }
    exact ⟨hretry'.trans hretry, hconnect'.trans hconnect⟩
  cases e with
  | disconnect | stop _ =>
      exact hpersists.elim
  | enableRetry =>
      exact ⟨rfl, hconnect⟩
  | connect isInLoopThread answer =>
      exact ⟨hretry, rfl⟩
  | handleWrite answer =>
      exact honConnector _
  | handleError =>
      exact honConnector _
  | runFunctor answer =>
      exact honConnector _
  | message c | shutdown c =>
      exact ⟨hretry, hconnect⟩
  | handleClose c answer =>
      simp only [step, handleClose, removeConnection]
      split
      · split <;> exact ⟨hretry, hconnect⟩
      · exact ⟨hretry, hconnect⟩
  | connectDestroyed =>
      simp only [step, connectDestroyed]
      split <;> exact ⟨hretry, hconnect⟩

/-- `connection_` is set until its connection closes, and by every socket that is handed over. -/
theorem connection_step {e : Event} (hclose : ∀ c answer, e = .handleClose c answer → ¬ c < s.conns.length) :
    (s.connection_ ≠ none → (s.step e).connection_ ≠ none) ∧
      ∀ answer, e = .handleWrite answer → Delivers s.connector_ answer → (s.step e).connection_ ≠ none := by
  have hfold : ∀ (sockfds : List Nat) (t : TcpClient), t.connection_ ≠ none →
      (sockfds.foldl newConnection t).connection_ ≠ none := by
    intro sockfds
    induction sockfds with
    | nil =>
        exact fun _ ht => ht
    | cons sockfd rest ih =>
        exact fun t _ => ih (t.newConnection sockfd) (Option.some_ne_none _)
  have honConnector : ∀ e', s.connection_ ≠ none → (s.onConnector e').connection_ ≠ none :=
    fun _ hset => hfold _ _ hset
  constructor
  · intro hset
    cases e with
    | handleWrite answer =>
        exact honConnector _ hset
    | handleError =>
        exact honConnector _ hset
    | runFunctor answer =>
        exact honConnector _ hset
    | handleClose c answer =>
        rw [step, handleClose, if_neg (hclose c answer rfl)]
        exact hset
    | connectDestroyed =>
        simp only [step, connectDestroyed]
        split <;> exact hset
    | _ =>
        exact hset
  · rintro answer rfl hdelivers
    obtain ⟨sockfd, hnew⟩ := conns_onConnector_of_delivers hdelivers
    rw [step, hnew]
    exact Option.some_ne_none _

/-- A step that closes no connection. -/
theorem Persisting.underway_same (h : s.Persisting) {e : Event} (hkeeps : s.Keeps e) (hpersists : Persists e)
    (hclose : ∀ c answer, e = .handleClose c answer → ¬ c < s.conns.length) :
    (s.step e).connector_.connect_ = true ∧ (s.step e).Underway := by
  obtain ⟨hconnection, hdelivers⟩ := connection_step hclose
  cases he : s.connectorEvent e with
  | none =>
      have hsame : (s.step e).connector_ = s.connector_ := by
        rw [connector_step, he]
        rfl
      rw [Underway, hsame]
      exact ⟨h.connector, h.underway.imp hconnection id⟩
  | some e' =>
      have hnext : (s.step e).connector_ = s.connector_.step e' := by
        rw [connector_step, he]
        rfl
      have hstop : ∀ isInLoopThread, e' ≠ .stop isInLoopThread := by
        rintro isInLoopThread rfl
        cases e <;> simp_all [connectorEvent, Persists]
      have hwrite : ∀ answer, e' = .handleWrite answer → e = .handleWrite answer := by
        rintro answer rfl
        cases e <;> simp_all [connectorEvent]
      have hcontinues := h.going.continues (hkeeps.1 e' he) hstop
      rw [Underway, hnext]
      refine ⟨hcontinues.connect h.connector, ?_⟩
      rcases h.underway with hset | hattempting
      · exact .inl (hconnection hset)
      · rcases hcontinues.attempting h.connector hattempting with hstill | ⟨answer, heq, hdone⟩
        · exact .inr hstill
        · exact .inl (hdelivers answer (hwrite answer heq) hdone)

theorem Persisting.step (h : s.Persisting) {e : Event} (hkeeps : s.Keeps e) (hpersists : Persists e) :
    (s.step e).Persisting := by
  obtain ⟨hretry, hconnect⟩ := retry_connect_step h.retry h.connect hpersists
  have hafter : (s.step e).connector_.connect_ = true ∧ (s.step e).Underway := by
    by_cases hclose : ∃ c answer, e = .handleClose c answer ∧ c < s.conns.length
    · obtain ⟨c, answer, rfl, hlt⟩ := hclose
      exact h.underway_handleClose hlt hkeeps
    · have hnot : ∀ c answer, e = .handleClose c answer → ¬ c < s.conns.length :=
        fun c answer heq hlt => hclose ⟨c, answer, heq, hlt⟩
      exact h.underway_same hkeeps hpersists hnot
  exact ⟨h.inv.step hkeeps, going_step h.going hkeeps, hretry, hconnect, hafter.1, hafter.2⟩

end persisting

/-- **A client that is to retry is never left alone.**  From the call of `connect` on, as long as it is not
told to disconnect or stop and nothing is lost, it has a connection or an attempt at one. -/
theorem underway_throughout (conf : TcpServer.Config) (connect_ : Bool) {state_ : Connector.States}
    (hstate : state_ ≠ .kConnecting) (retryDelayMs_ : Int32) {before after : List Event} {isInLoopThread : Bool}
    {answer : Connector.Answer Unit}
    (h : Runs.Guarded step Keeps (new conf (.new connect_ state_ retryDelayMs_))
      (before ++ Event.connect isInLoopThread answer :: after))
    (hretry : (before.foldl step (new conf (.new connect_ state_ retryDelayMs_))).retry_ = true)
    (hafter : ∀ e ∈ after, Persists e) :
    Runs.Throughout step Underway
      ((before ++ [Event.connect isInLoopThread answer]).foldl step (new conf (.new connect_ state_ retryDelayMs_)))
      after := by
  obtain ⟨hbefore, hconnect, hguarded⟩ := Runs.guarded_append.1 h
  have hstart : Going (new conf (.new connect_ state_ retryDelayMs_)).connector_ :=
    ⟨Connector.inv_new connect_ state_ retryDelayMs_, rfl, fun hconnecting => absurd hconnecting hstate⟩
  have hkept : Runs.Throughout step (fun s => s.Inv ∧ Going s.connector_)
      (new conf (.new connect_ state_ retryDelayMs_)) before :=
    hbefore.throughout (fun _ _ hs hkeeps => ⟨hs.1.step hkeeps, going_step hs.2 hkeeps⟩) (fun _ hs => hs)
      ⟨inv_new conf connect_ state_ retryDelayMs_, hstart⟩
  obtain ⟨hinv, hgoing⟩ := hkept.last
  rw [List.foldl_append]
  have hconnectKeeps := hconnect.1 (.start isInLoopThread answer) rfl
  obtain ⟨hconnector, hattempting⟩ := hgoing.attempting_start hconnectKeeps
  have hpersisting : (step (before.foldl step (new conf (.new connect_ state_ retryDelayMs_)))
      (Event.connect isInLoopThread answer)).Persisting :=
    ⟨hinv.step hconnect, going_step hgoing hconnect, hretry, rfl, hconnector, .inr hattempting⟩
  have hpersists : Runs.Guarded step (fun _ e => Persists e)
      (step (before.foldl step (new conf (.new connect_ state_ retryDelayMs_)))
        (Event.connect isInLoopThread answer)) after := Runs.guarded_const_iff.2 hafter
  refine Runs.Guarded.throughout (I := Persisting) ?_ (fun _ hs => hs.underway) hpersisting
    (hguarded.and hpersists)
  rintro s e hs ⟨hkeeps, he⟩
  exact hs.step hkeeps he

/-- Two connections, the second made when the first was closed. -/
theorem underway_throughout_twice :
    Runs.Throughout step Underway
      (([.enableRetry] ++ [.connect true (.error Connector.EINPROGRESS)] : List Event).foldl step
        (new ⟨[], (127, 0, 0, 1), 80⟩ (.new false .kDisconnected 0)))
      [.handleWrite (.ok 0), .runFunctor (.ok ()), .message 0, .handleClose 0 (.error Connector.EINPROGRESS),
        .connectDestroyed, .handleWrite (.ok 0)] := by
  have h : Runs.Guarded step Keeps (new ⟨[], (127, 0, 0, 1), 80⟩ (.new false .kDisconnected 0))
      ([.enableRetry] ++ Event.connect true (.error Connector.EINPROGRESS) ::
        [.handleWrite (.ok 0), .runFunctor (.ok ()), .message 0, .handleClose 0 (.error Connector.EINPROGRESS),
          .connectDestroyed, .handleWrite (.ok 0)]) := by decide
  exact underway_throughout _ false (by decide) 0 h rfl (by decide)

end TcpClient
end Net
end Myoj
