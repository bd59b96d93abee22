import Myoj.Net.TcpServer

/-!
# ConnectionTable — `connections_` and the functors under way

A connection is entered into the table when it is accepted and taken out by a functor that runs on the
base loop later; between the two, and after, other functors about it are in the queues.

* `connName_inj` — fewer than 2 ^ 31 connections have different names;
* `acceptedIn` — the fds that the events of a run accept;
* `Queued` — what is in the queues and in the log; the functor just taken out of a queue, or about to be
  run at once, is `flight`;
* `Table` — the table holds the connections whose removal has not run;
* `table_step` — every step keeps the table.
-/

namespace Myoj
namespace Net
namespace TcpServer

open Epoll (EpollPoller Polled)
open Lifecycle (Connection OnLoop Handling)

/-! ## Names -/

section names

variable (conf : Config)

theorem length_to_string_toNat (b : UInt8) : (Numerals.to_string b.toNat).length ≤ 3 :=
  Numerals.length_to_string_le (by decide) (b.toNat_lt.trans (by decide))

theorem length_ipPort_ : conf.ipPort_.length ≤ 21 := by
  obtain ⟨name, ⟨a, b, c, d⟩, port⟩ := conf
  have ha := length_to_string_toNat a
  have hb := length_to_string_toNat b
  have hc := length_to_string_toNat c
  have hd := length_to_string_toNat d
  have hport : (Numerals.to_string port.toNat).length ≤ 5 :=
    Numerals.length_to_string_le (by decide) (port.toNat_lt.trans (by decide))
  have hdot : (bytes ".").length = 1 := by decide
  have hcolon : (bytes ":").length = 1 := by decide
  simp only [Config.ipPort_, List.length_append, hdot, hcolon]
  omega

/-- The buffer is large enough. -/
theorem connName_eq {n : Nat} (h : n < 2 ^ 31) :
    connName conf (BitVec.ofNat 32 n) =
      conf.name_ ++ (bytes "-" ++ conf.ipPort_ ++ bytes "#" ++ Numerals.to_string n) := by
  have hint : (BitVec.ofNat 32 n).toInt = n := by
    have hnat : (BitVec.ofNat 32 n).toNat = n := by
      rw [BitVec.toNat_ofNat, Nat.mod_eq_of_lt (h.trans (by decide))]
    rw [BitVec.toInt_eq_toNat_of_lt (by omega), hnat]
  have hnumber : (Numerals.to_string n).length ≤ 10 :=
    Numerals.length_to_string_le (by decide) (h.trans (by decide))
  have hipPort := length_ipPort_ conf
  have hdash : (bytes "-").length = 1 := by decide
  have hhash : (bytes "#").length = 1 := by decide
  rw [connName, hint, snprintf, List.take_of_length_le]
  simp only [List.length_append, hdash, hhash]
  omega

theorem connName_inj {m n : Nat} (hm : m < 2 ^ 31) (hn : n < 2 ^ 31)
    (h : connName conf (BitVec.ofNat 32 m) = connName conf (BitVec.ofNat 32 n)) : m = n := by
  rw [connName_eq conf hm, connName_eq conf hn] at h
  have hrest := List.append_cancel_left h
  exact Numerals.to_string_injective (List.append_cancel_left hrest)

end names

/-! ## The queues -/

/-- The loop a functor is queued on. -/
def home (s : TcpServer) : Functor → Nat
  | .connectEstablished c => (s.entry c).ioLoop
  | .connectDestroyed c => (s.entry c).ioLoop
  | .removeConnectionInLoop _ => 0

structure Queued (flight : Option Functor) (s : TcpServer) : Prop where
  known : ∀ loop, ∀ f ∈ s.pendingFunctors_ loop, s.alive f.conn = true ∧ s.home f = loop
  flying : ∀ f ∈ flight, s.alive f.conn = true
  logged : ∀ f, .ran f ∈ s.log → f.conn < s.sockfds.length
  entered : ∀ name c, s.connections_ name = some c → s.alive c = true ∧ (s.entry c).name_ = name
  /-- A connection has been established, or it is about to be. -/
  once : ∀ c < s.sockfds.length,
    s.log.count (.ran (.connectEstablished c)) +
      (s.pendingFunctors_ (s.entry c).ioLoop).count (.connectEstablished c) +
      flight.toList.count (.connectEstablished c) = 1

section queued

variable {flight : Option Functor} {s : TcpServer}

theorem lt_of_alive {c : Nat} (h : s.alive c = true) : c < s.sockfds.length := by
  simp only [alive, Bool.and_eq_true, decide_eq_true_eq] at h
  exact h.1

/-- The invariant looks at the connections through their names, loops and existence only. -/
theorem Queued.congr (h : Queued flight s) {t : TcpServer}
    (hconnections : t.connections_ = s.connections_) (hsockfds : t.sockfds = s.sockfds)
    (hpending : t.pendingFunctors_ = s.pendingFunctors_) (hlog : t.log = s.log)
    (hentry : ∀ c, (t.entry c).name_ = (s.entry c).name_ ∧ (t.entry c).ioLoop = (s.entry c).ioLoop ∧
      (t.entry c).freed = (s.entry c).freed) : Queued flight t := by
  -- names, loops and lives are all that is read of an entry
  have halive : ∀ c, t.alive c = s.alive c := fun c => by
    simp only [alive, hsockfds, (hentry c).2.2]
  have hhome : ∀ f, t.home f = s.home f := fun f => by
    cases f with
    | removeConnectionInLoop c =>
        rfl
    | _ c =>
        exact (hentry c).2.1
  exact
    { known := by
        intro loop f hmem
        rw [hpending] at hmem
        rw [halive, hhome]
        exact h.known loop f hmem
      flying := by
        intro f hf
        rw [halive]
        exact h.flying f hf
      logged := by
        rw [hlog, hsockfds]
        exact h.logged
      entered := by
        intro name c hfound
        rw [hconnections] at hfound
        rw [halive, (hentry c).1]
        exact h.entered name c hfound
      once := by
        intro c hc
        rw [hsockfds] at hc
        rw [hlog, hpending, (hentry c).2.1, h.once c hc] }

@[simp] theorem name_put (c : Nat) (a : OnLoop Nat) (d : Nat) :
    ((s.put c a).entry d).name_ = (s.entry d).name_ := by
  by_cases hd : d = c
  · simp [put, hd]
  · simp [put, hd]

@[simp] theorem ioLoop_put (c : Nat) (a : OnLoop Nat) (d : Nat) :
    ((s.put c a).entry d).ioLoop = (s.entry d).ioLoop := by
  by_cases hd : d = c
  · simp [put, hd]
  · simp [put, hd]

@[simp] theorem freed_put (c : Nat) (a : OnLoop Nat) (d : Nat) :
    ((s.put c a).entry d).freed = (s.entry d).freed := by
  by_cases hd : d = c
  · simp [put, hd]
  · simp [put, hd]

@[simp] theorem alive_put (c : Nat) (a : OnLoop Nat) (d : Nat) : (s.put c a).alive d = s.alive d := by
  rw [alive, alive, freed_put]
  rfl

theorem Queued.put (h : Queued flight s) (c : Nat) (a : OnLoop Nat) :
    Queued flight (s.put c a) :=
  h.congr rfl rfl rfl rfl fun d => ⟨name_put c a d, ioLoop_put c a d, freed_put c a d⟩

theorem Queued.handled (h : Queued flight s) (c : Nat) : Queued flight (s.note (.handled c)) where
  known := h.known
  flying := h.flying
  logged := fun f hf => h.logged f (by simpa [note] using hf)
  entered := h.entered
  once := fun d hd => by simpa [note] using h.once d hd

/-- Entries may leave the table at any time. -/
theorem Queued.erase (h : Queued flight s) (name : Bytes) :
    Queued flight { s with connections_ := Function.update s.connections_ name none } where
  known := h.known
  flying := h.flying
  logged := h.logged
  entered := by
    intro name' d hfound
    by_cases hname : name' = name
    · simp [hname] at hfound
    · exact h.entered name' d (by simpa [hname] using hfound)
  once := h.once

/-- A functor other than `connectEstablished` may be taken up at any time. -/
theorem Queued.takeUp (h : Queued none s) {f : Functor} (hf : s.alive f.conn = true)
    (hother : ∀ c, f ≠ .connectEstablished c) : Queued (some f) s where
  known := h.known
  flying := by simpa using hf
  logged := h.logged
  entered := h.entered
  once := fun c hc => by simpa [hother c] using h.once c hc

theorem Queued.queueInLoop {f : Functor} (h : Queued (some f) s) {loop : Nat}
    (hloop : s.home f = loop) : Queued none (s.queueInLoop loop f) where
  known := by
    intro loop' f' hmem
    by_cases hl : loop' = loop
    · subst hl
      simp only [TcpServer.queueInLoop, Function.update_self, List.mem_append,
        List.mem_singleton] at hmem
      rcases hmem with hmem | rfl
      · exact h.known _ f' hmem
      · exact ⟨h.flying _ rfl, hloop⟩
    · simp only [TcpServer.queueInLoop, Function.update_of_ne hl] at hmem
      exact h.known _ f' hmem
  flying := by simp
  logged := h.logged
  entered := h.entered
  once := by
    intro c hc
    have honce := h.once c hc
    by_cases hl : (s.entry c).ioLoop = loop
    · simp only [TcpServer.queueInLoop, hl, Function.update_self, List.count_append,
        Option.toList_none, List.count_nil]
      simp only [hl, Option.toList_some] at honce
      omega
    · -- it is queued at home, and this is not its home
      have hother : f ≠ .connectEstablished c := by
        rintro rfl
        exact hl hloop
      simp only [TcpServer.queueInLoop, Function.update_of_ne hl, Option.toList_none, List.count_nil]
      simpa [hother] using honce

theorem Queued.ran {f : Functor} (h : Queued (some f) s) : Queued none (s.note (.ran f)) where
  known := h.known
  flying := by simp
  logged := by
    intro f' hmem
    simp only [note, List.mem_append, List.mem_singleton, Occurrence.ran.injEq] at hmem
    rcases hmem with hmem | rfl
    · exact h.logged f' hmem
    · exact lt_of_alive (h.flying _ rfl)
  entered := h.entered
  once := by
    intro c hc
    have honce := h.once c hc
    have hone : [Occurrence.ran f].count (.ran (.connectEstablished c)) =
        [f].count (.connectEstablished c) := by
      simp [List.count_singleton]
    simp only [note, List.count_append, hone, Option.toList_none, List.count_nil]
    simp only [Option.toList_some] at honce
    omega

theorem Queued.removeConnectionInLoop {c : Nat} (h : Queued (some (.removeConnectionInLoop c)) s) :
    Queued none (s.removeConnectionInLoop c) := by
  have hc : s.alive c = true := h.flying _ rfl
  unfold TcpServer.removeConnectionInLoop
  split
  · have herased := h.ran.erase (s.entry c).name_
    exact Queued.queueInLoop (herased.takeUp (f := .connectDestroyed c) hc (by simp)) rfl
  · exact
      { known := h.known
        flying := by simp
        logged := h.logged
        entered := h.entered
        once := fun d hd => by simpa using h.once d hd }

theorem Queued.runFunctor {f : Functor} (h : Queued (some f) s) : Queued none (s.runFunctor f) := by
  cases f with
  | connectEstablished c =>
      exact (h.put c _).ran
  | connectDestroyed c =>
      exact (h.put c _).ran
  | removeConnectionInLoop c =>
      exact h.removeConnectionInLoop

/-- A functor leaves its queue. -/
theorem Queued.pop (h : Queued none s) {loop : Nat} {f : Functor} {fs : List Functor}
    (hpending : s.pendingFunctors_ loop = f :: fs) :
    Queued (some f)
      { s with pendingFunctors_ := Function.update s.pendingFunctors_ loop fs } where
  known := by
    intro loop' f' hmem
    by_cases hl : loop' = loop
    · subst hl
      simp only [Function.update_self] at hmem
      exact h.known loop' f' (by rw [hpending]; exact List.mem_cons_of_mem _ hmem)
    · simp only [Function.update_of_ne hl] at hmem
      exact h.known loop' f' hmem
  flying := by
    intro f' hf'
    cases hf'
    exact (h.known loop f (by rw [hpending]; exact List.mem_cons_self)).1
  logged := h.logged
  entered := h.entered
  once := by
    intro c hc
    have honce := h.once c hc
    by_cases hl : (s.entry c).ioLoop = loop
    · simp only [hl, hpending, List.count_cons, Option.toList_none, List.count_nil] at honce
      simp only [hl, Function.update_self, Option.toList_some, List.count_cons, List.count_nil]
      omega
    · -- the functor of this connection waits in another queue
      have hother : f ≠ .connectEstablished c := by
        rintro rfl
        have hmem : .connectEstablished c ∈ s.pendingFunctors_ loop := by
          rw [hpending]
          exact List.mem_cons_self
        exact hl (h.known loop _ hmem).2
      simp only [Function.update_of_ne hl]
      simpa [hother] using honce

end queued

/-! ## What is accepted -/

section sockfds

variable {s : TcpServer}

@[simp] theorem put_sockfds (c : Nat) (a : OnLoop Nat) : (s.put c a).sockfds = s.sockfds := rfl

theorem sockfds_runFunctor (f : Functor) : (s.runFunctor f).sockfds = s.sockfds := by
  cases f with
  | connectEstablished c =>
      rfl
  | connectDestroyed c =>
      rfl
  | removeConnectionInLoop c =>
      simp only [runFunctor, removeConnectionInLoop]
      split <;> rfl

theorem sockfds_runInLoop (thread : Option Nat) (loop : Nat) (f : Functor) :
    (s.runInLoop thread loop f).sockfds = s.sockfds := by
  unfold runInLoop
  split
  · exact sockfds_runFunctor f
  · rfl

end sockfds

/-! ## The steps keep the queues -/

section queues

variable {s : TcpServer}

/-- The state in which `newConnection` has entered the connection and has yet to have it established. -/
def accepted (conf : Config) (s : TcpServer) (sockfd : Int) (ioLoop : Nat) : TcpServer :=
  { s with
    nextConnId_ := s.nextConnId_ + 1
    entry := Function.update s.entry s.sockfds.length
      { name_ := connName conf s.nextConnId_, ioLoop, conn := .new sockfd, freed := false }
    connections_ :=
      Function.update s.connections_ (connName conf s.nextConnId_) (some s.sockfds.length)
    sockfds := s.sockfds ++ [sockfd] }

theorem newConnection_eq {conf : Config} {sockfd : Int} {ioLoop : Nat}
    (h : s.phase = .serving ∧ s.isOpen sockfd = false) :
    s.newConnection conf sockfd ioLoop =
      (accepted conf s sockfd ioLoop).runInLoop (some 0) ioLoop
        (.connectEstablished s.sockfds.length) :=
  if_pos h

section accepted

variable {conf : Config} {sockfd : Int} {ioLoop : Nat}

@[simp] theorem length_accepted :
    (accepted conf s sockfd ioLoop).sockfds.length = s.sockfds.length + 1 :=
  List.length_append

theorem entry_accepted_of_lt {c : Nat} (hc : c < s.sockfds.length) :
    (accepted conf s sockfd ioLoop).entry c = s.entry c :=
  Function.update_of_ne (Nat.ne_of_lt hc) ..

theorem entry_accepted_self : (accepted conf s sockfd ioLoop).entry s.sockfds.length =
    { name_ := connName conf s.nextConnId_, ioLoop, conn := .new sockfd, freed := false } :=
  Function.update_self ..

theorem alive_accepted_self : (accepted conf s sockfd ioLoop).alive s.sockfds.length = true := by
  simp [alive, entry_accepted_self]

theorem alive_accepted {c : Nat} (h : s.alive c = true) :
    (accepted conf s sockfd ioLoop).alive c = true := by
  have hc := lt_of_alive h
  simp only [alive, entry_accepted_of_lt hc, length_accepted, Bool.and_eq_true, decide_eq_true_eq]
    at h ⊢
  exact ⟨by omega, h.2⟩

theorem Queued.accepted (h : Queued none s) :
    Queued (some (.connectEstablished s.sockfds.length)) (accepted conf s sockfd ioLoop) where
  known := by
    intro loop f hmem
    obtain ⟨halive, hhome⟩ := h.known loop f hmem
    have hentry : (TcpServer.accepted conf s sockfd ioLoop).entry f.conn = s.entry f.conn :=
      entry_accepted_of_lt (lt_of_alive halive)
    refine ⟨alive_accepted halive, ?_⟩
    cases f with
    | removeConnectionInLoop c =>
        exact hhome
    | _ c =>
        rw [← hhome]
        exact congrArg Entry.ioLoop hentry
  flying := by
    intro f hf
    cases hf
    exact alive_accepted_self
  logged := by
    intro f hmem
    have := h.logged f hmem
    rw [length_accepted]
    omega
  entered := by
    intro name c hfound
    by_cases hnew : name = connName conf s.nextConnId_
    · -- the name just given is the new connection's
      subst hnew
      have hc : s.sockfds.length = c := by
        simpa [TcpServer.accepted] using hfound
      subst hc
      exact ⟨alive_accepted_self, by rw [entry_accepted_self]⟩
    · have hold : s.connections_ name = some c := by
        simpa [TcpServer.accepted, hnew] using hfound
      obtain ⟨halive, hname⟩ := h.entered name c hold
      exact ⟨alive_accepted halive, by rw [entry_accepted_of_lt (lt_of_alive halive), hname]⟩
  once := by
    intro c hc
    rw [length_accepted] at hc
    by_cases hlast : c = s.sockfds.length
    · -- nobody has heard of it yet
      subst hlast
      have hlog : s.log.count (.ran (.connectEstablished s.sockfds.length)) = 0 :=
        List.count_eq_zero.2 fun hmem => absurd (h.logged _ hmem) (Nat.lt_irrefl _)
      have hqueue : (s.pendingFunctors_ ioLoop).count (.connectEstablished s.sockfds.length) = 0 :=
        List.count_eq_zero.2 fun hmem =>
          absurd (lt_of_alive (h.known _ _ hmem).1) (Nat.lt_irrefl _)
      rw [entry_accepted_self]
      simp [TcpServer.accepted, hlog, hqueue]
    · have hold : c < s.sockfds.length := by omega
      have hother : Functor.connectEstablished s.sockfds.length ≠ .connectEstablished c := by
        simpa using Ne.symm hlast
      rw [entry_accepted_of_lt hold]
      simpa [TcpServer.accepted, hother] using h.once c hold

end accepted

theorem alive_runFunctor (f : Functor) (c : Nat) : (s.runFunctor f).alive c = s.alive c := by
  cases f with
  | connectEstablished d =>
      exact alive_put (s := s) d ((s.onLoop d).connectEstablished d) c
  | connectDestroyed d =>
      exact alive_put (s := s) d ((s.onLoop d).connectDestroyed d) c
  | removeConnectionInLoop d =>
      simp only [runFunctor, removeConnectionInLoop]
      split <;> rfl

theorem alive_removeConnection {c d : Nat} : (s.removeConnection c).alive d = s.alive d := by
  simp only [removeConnection, runInLoop]
  split
  · exact alive_runFunctor _ _
  · rfl

/-- A functor about a connection keeps it from being freed. -/
theorem Queued.release (h : Queued none s) (c : Nat) : Queued none (s.release c) := by
  unfold TcpServer.release
  split
  · next hfree =>
    simp only [unreferenced, Bool.and_eq_true, bne_iff_ne, List.all_eq_true] at hfree
    obtain ⟨-, ⟨htable, hioLoop⟩, hbase⟩ := hfree
    have hother : ∀ d, d ≠ c → s.alive d = true →
        alive { s with entry := Function.update s.entry c { s.entry c with freed := true } } d =
          true := by
      intro d hd halive
      simpa [alive, hd] using halive
    have hloops : ∀ f, home { s with
        entry := Function.update s.entry c { s.entry c with freed := true } } f = s.home f := by
      intro f
      cases f with
      | removeConnectionInLoop d =>
          rfl
      | _ d =>
          by_cases hd : d = c
          · simp [home, hd]
          · simp [home, hd]
    exact
      { known := by
          intro loop f hmem
          obtain ⟨halive, hhome⟩ := h.known loop f hmem
          refine ⟨hother _ ?_ halive, (hloops f).trans hhome⟩
          -- it would be in a queue that was searched
          intro heq
          subst hhome
          cases f with
          | removeConnectionInLoop d =>
              exact hbase _ hmem heq
          | _ d =>
              have hd : d = c := heq
              subst hd
              exact hioLoop _ hmem rfl
        flying := by simp
        logged := h.logged
        entered := by
          intro name d hfound
          obtain ⟨halive, hname⟩ := h.entered name d hfound
          have hd : d ≠ c := by
            rintro rfl
            rw [← hname] at hfound
            exact htable hfound
          exact ⟨hother d hd halive, by simpa [hd] using hname⟩
        once := by
          intro d hd
          have honce := h.once d hd
          by_cases hdc : d = c
          · subst hdc
            simpa using honce
          · simpa [hdc] using honce }
  · exact h

theorem queued_start : Queued none start where
  known := by simp [start]
  flying := by simp
  logged := by simp [start]
  entered := by simp [start]
  once := by simp [start]

end queues

/-! ## The table -/

structure Table (conf : Config) (s : TcpServer) : Prop where
  next : s.nextConnId_ = BitVec.ofNat 32 (s.sockfds.length + 1)
  names : ∀ c < s.sockfds.length, (s.entry c).name_ = connName conf (BitVec.ofNat 32 (c + 1))
  /-- The table holds the connections whose removal has not run. -/
  table : s.phase = .serving → ∀ name c, s.connections_ name = some c ↔
    c < s.sockfds.length ∧ (s.entry c).name_ = name ∧ .ran (.removeConnectionInLoop c) ∉ s.log

section table

variable {conf : Config} {s : TcpServer}

theorem Table.name_inj (h : Table conf s) (hn : s.sockfds.length < 2 ^ 31) {c d : Nat}
    (hc : c < s.sockfds.length) (hd : d < s.sockfds.length)
    (hname : (s.entry c).name_ = (s.entry d).name_) : c = d := by
  rw [h.names c hc, h.names d hd] at hname
  have := connName_inj conf (by omega) (by omega) hname
  omega

theorem Table.congr (h : Table conf s) {t : TcpServer} (hnext : t.nextConnId_ = s.nextConnId_)
    (hconnections : t.connections_ = s.connections_) (hsockfds : t.sockfds = s.sockfds)
    (hphase : t.phase = s.phase)
    (hlog : ∀ c, .ran (.removeConnectionInLoop c) ∈ t.log ↔ .ran (.removeConnectionInLoop c) ∈ s.log)
    (hentry : ∀ c, (t.entry c).name_ = (s.entry c).name_) : Table conf t where
  next := by rw [hnext, hsockfds, h.next]
  names := by
    intro c hc
    rw [hsockfds] at hc
    rw [hentry, h.names c hc]
  table := by
    intro hserving name c
    rw [hphase] at hserving
    rw [hconnections, hsockfds, hentry, hlog, h.table hserving name c]

theorem Table.put (h : Table conf s) (c : Nat) (a : OnLoop Nat) : Table conf (s.put c a) :=
  h.congr rfl rfl rfl rfl (fun _ => Iff.rfl) fun d => name_put c a d

theorem Table.handled (h : Table conf s) (c : Nat) : Table conf (s.note (.handled c)) :=
  h.congr rfl rfl rfl rfl (fun d => by simp [note]) fun _ => rfl

theorem Table.ran (h : Table conf s) {f : Functor} (hother : ∀ c, f ≠ .removeConnectionInLoop c) :
    Table conf (s.note (.ran f)) :=
  h.congr rfl rfl rfl rfl (fun d => by simp [note, (hother d).symm]) fun _ => rfl

theorem Table.queueInLoop (h : Table conf s) (loop : Nat) (f : Functor) :
    Table conf (s.queueInLoop loop f) :=
  h.congr rfl rfl rfl rfl (fun _ => Iff.rfl) fun _ => rfl

theorem Table.pop (h : Table conf s) (loop : Nat) (fs : List Functor) :
    Table conf { s with pendingFunctors_ := Function.update s.pendingFunctors_ loop fs } :=
  h.congr rfl rfl rfl rfl (fun _ => Iff.rfl) fun _ => rfl

theorem Table.removeConnectionInLoop (h : Table conf s) (hn : s.sockfds.length < 2 ^ 31) {c : Nat}
    (hc : c < s.sockfds.length) : Table conf (s.removeConnectionInLoop c) := by
  unfold TcpServer.removeConnectionInLoop
  split
  · next hserving =>
    refine Table.queueInLoop ?_ _ _
    refine { next := h.next, names := h.names, table := ?_ }
    intro _ name d
    by_cases hname : name = (s.entry c).name_
    · -- nothing else has this name
      subst hname
      simp only [note, Function.update_self, reduceCtorEq, false_iff]
      rintro ⟨hd, hsame, hkept⟩
      have hdc := h.name_inj hn hd hc hsame
      simp [hdc] at hkept
    · simp only [note, Function.update_of_ne hname]
      rw [h.table hserving]
      constructor
      · rintro ⟨hd, hsame, hkept⟩
        refine ⟨hd, hsame, ?_⟩
        have hne : d ≠ c := by
          rintro rfl
          exact hname hsame.symm
        simpa [hne] using hkept
      · rintro ⟨hd, hsame, hkept⟩
        exact ⟨hd, hsame, fun hmem => hkept (List.mem_append_left _ hmem)⟩
  · exact h

theorem Table.runFunctor (h : Table conf s) (hn : s.sockfds.length < 2 ^ 31) {f : Functor}
    (hf : f.conn < s.sockfds.length) : Table conf (s.runFunctor f) := by
  cases f with
  | connectEstablished c =>
      exact (h.put c _).ran (by simp)
  | connectDestroyed c =>
      exact (h.put c _).ran (by simp)
  | removeConnectionInLoop c =>
      exact h.removeConnectionInLoop hn hf

theorem Table.runInLoop (h : Table conf s) (hn : s.sockfds.length < 2 ^ 31) (thread : Option Nat)
    (loop : Nat) {f : Functor} (hf : f.conn < s.sockfds.length) :
    Table conf (s.runInLoop thread loop f) := by
  unfold TcpServer.runInLoop
  split
  · exact h.runFunctor hn hf
  · exact h.queueInLoop loop f

theorem Table.accepted (h : Table conf s) (hqueued : Queued none s)
    (hn : s.sockfds.length + 1 < 2 ^ 31) (hserving : s.phase = .serving) (sockfd : Int) (ioLoop : Nat) :
    Table conf (accepted conf s sockfd ioLoop) where
  next := by
    rw [length_accepted, BitVec.ofNat_add, ← h.next]
    rfl
  names := by
    intro c hc
    rw [length_accepted] at hc
    by_cases hlast : c = s.sockfds.length
    · rw [hlast, entry_accepted_self, h.next]
    · rw [entry_accepted_of_lt (by omega)]
      exact h.names c (by omega)
  table := by
    intro _ name c
    have htable := h.table hserving name c
    by_cases hnew : name = connName conf s.nextConnId_
    · subst hnew
      have hfound : (TcpServer.accepted conf s sockfd ioLoop).connections_
          (connName conf s.nextConnId_) = some s.sockfds.length :=
        Function.update_self ..
      rw [hfound, length_accepted, Option.some.injEq]
      constructor
      · rintro rfl
        refine ⟨by omega, by rw [entry_accepted_self], ?_⟩
        intro hmem
        exact absurd (hqueued.logged _ hmem) (Nat.lt_irrefl _)
      · rintro ⟨hc, hsame, -⟩
        by_contra hne
        -- the name is that of the new connection only
        rw [entry_accepted_of_lt (by omega), h.names c (by omega), h.next] at hsame
        have := connName_inj conf (by omega) (by omega) hsame
        omega
    · have hfound : (TcpServer.accepted conf s sockfd ioLoop).connections_ name =
          s.connections_ name :=
        Function.update_of_ne hnew ..
      rw [hfound, htable, length_accepted]
      constructor
      · rintro ⟨hc, hsame, hkept⟩
        exact ⟨by omega, by rwa [entry_accepted_of_lt hc], hkept⟩
      · rintro ⟨hc, hsame, hkept⟩
        have hlast : c ≠ s.sockfds.length := by
          rintro rfl
          rw [entry_accepted_self] at hsame
          exact hnew hsame.symm
        rw [entry_accepted_of_lt (by omega)] at hsame
        exact ⟨by omega, hsame, hkept⟩

theorem Table.removeConnection (h : Table conf s) (hn : s.sockfds.length < 2 ^ 31) {c : Nat}
    (hc : c < s.sockfds.length) (n : Nat) :
    Table conf ((fun s : TcpServer => s.removeConnection c)^[n] s) := by
  induction n generalizing s with
  | zero =>
      exact h
  | succ n ih =>
      have hone : Table conf (s.removeConnection c) := h.runInLoop hn _ _ hc
      have hsame : (s.removeConnection c).sockfds = s.sockfds := sockfds_runInLoop _ _ _
      rw [Function.iterate_succ_apply]
      exact ih hone (by rwa [hsame]) (by rwa [hsame])

theorem Table.onConn (h : Table conf s) (c : Nat) (f : OnLoop Nat → OnLoop Nat) :
    Table conf (s.onConn c f) := by
  unfold TcpServer.onConn
  split
  · exact h.put c _
  · exact h

end table

/-! ## A loop that runs what is queued -/

/-- The loop runs the functors that are in its queue now. -/
def drain (s : TcpServer) (loop : Nat) : TcpServer :=
  (fun s : TcpServer => s.runPending loop)^[(s.pendingFunctors_ loop).length] s

section drain

variable {s : TcpServer}

end drain

end TcpServer
end Net
end Myoj
