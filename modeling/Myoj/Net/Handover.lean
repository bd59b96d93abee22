import Myoj.Lib.Runs
import Myoj.Net.EventLoop
import Myoj.Net.TcpConnection

/-!
# Handover — a `send` on another thread, by way of the functors of the loop

Off the loop thread `send(const std::string&)` and `send(Buffer&)` queue a lambda that captures their
argument by reference.  The bytes are read when the loop calls the lambda; by then the caller may have used
its variable for something else.

* `SendTask` — the lambda: which variable it refers to;
* `Handover` — the loop, the variables of the callers and what `sendInLoop` has received;
* `handedOver` — the sends of a run, read off its events;
* `Faithful` — every functor has passed on what its argument held at the call of `send`, in call order;
* `Finds` — the functor that is called finds the variable as it was;
* `Undisturbed` — nothing is written to a variable that a functor in the queue refers to.
-/

namespace Myoj
namespace Net

/-- `[this, &buf]`.  What `buf` held when `send` was called is written down here; the lambda does not have
it. -/
structure SendTask where
  arg : SendArg
  ref : Nat
  held : Bytes
  deriving DecidableEq, Repr

namespace SendTask

/-- The bytes the lambda passes to `sendInLoop`, and the variables after it; `retrieveAllAsString` empties
the `Buffer`. -/
def call (task : SendTask) (vars : Nat → Bytes) : Bytes × (Nat → Bytes) :=
  match task.arg with
  | .string => (vars task.ref, vars)
  | .buffer => (vars task.ref, Function.update vars task.ref [])

/-- This is what the connection does with the functor. -/
theorem runFunctor_eq (task : SendTask) (c : TcpConnection) (r : WriteResult) :
    c.runFunctor (.sendInLoop task.arg task.ref) r =
      TcpConnection.sendInLoop { c with vars := (task.call c.vars).2 } (task.call c.vars).1 r := by
  obtain ⟨arg, ref, held⟩ := task
  cases arg with
  | string =>
      rfl
  | buffer =>
      rfl

@[simp] theorem call_fst (task : SendTask) (vars : Nat → Bytes) :
    (task.call vars).1 = vars task.ref := by
  simp only [call]
  split <;> rfl

end SendTask

/-- A functor of the loop. -/
inductive Task where
  | send (task : SendTask)
  | other
  deriving DecidableEq, Repr

/-- The sends among the functors, each with the thread that called `send`. -/
def sends (l : List (Pending Task)) : List (Pending SendTask) :=
  l.filterMap fun p =>
    match p.functor with
    | .send task => some ⟨p.thread, task⟩
    | .other => none

theorem sends_append (l l' : List (Pending Task)) : sends (l ++ l') = sends l ++ sends l' :=
  List.filterMap_append

theorem sends_cons (p : Pending Task) (l : List (Pending Task)) :
    sends (p :: l) = sends [p] ++ sends l :=
  sends_append [p] l

structure Handover where
  loop : EventLoop Task
  state_ : StateE
  /-- The variables of the callers. -/
  vars : Nat → Bytes
  /-- The calls of `sendInLoop` from the queue, with the bytes they received. -/
  received : List (Pending SendTask × Bytes)

namespace Handover

inductive Event where
  /-- `send` on a thread that is not the thread of the loop, which is 0. -/
  | send (thread : Nat) (arg : SendArg) (ref : Nat)
  /-- A caller writes to its variable. -/
  | assign (ref : Nat) (value : Bytes)
  | setState (state : StateE)
  /-- The loop calls the next functor. -/
  | call
  /-- Any other step of the loop, and other functors. -/
  | loop (e : EventLoop.Event Task)

def start (vars : Nat → Bytes) : Handover where
  loop := EventLoop.start
  state_ := .kConnected
  vars := vars
  received := []

/-- Steps of the loop that neither queue a send nor call a functor. -/
def plain : EventLoop.Event Task → Bool
  | .queueInLoop _ cb => cb == .other
  | .runInLoop _ cb => cb == .other
  | .call => false
  | _ => true

def step (s : Handover) : Event → Handover
  | .send thread arg ref =>
      if s.state_ = .kConnected then
        { s with loop := s.loop.runInLoop thread (.send { arg, ref, held := s.vars ref }) }
      else s
  | .assign ref value => { s with vars := Function.update s.vars ref value }
  | .setState state => { s with state_ := state }
  | .call =>
      match s.loop.functors with
      | { thread, functor := .send task } :: _ =>
          if s.loop.pc = .calling then
            let (bytes, vars) := task.call s.vars
            { s with
              loop := s.loop.step .call
              vars
              received := s.received ++ [(⟨thread, task⟩, bytes)] }
          else s
      | _ => { s with loop := s.loop.step .call }
  | .loop e => if plain e then { s with loop := s.loop.step e } else s

/-- What a `send` hands over: the thread is in no other call to the loop, and the connection is up. -/
def handed (s : Handover) : Event → List (Pending SendTask)
  | .send thread arg ref =>
      if s.state_ = .kConnected ∧ thread ≠ 0 ∧ s.loop.mayQueue thread then
        [⟨thread, { arg, ref, held := s.vars ref }⟩]
      else []
  | _ => []

/-- The sends that have been queued and not been called. -/
def inFlight (s : Handover) : List (Pending SendTask) :=
  sends (s.loop.functors ++ s.loop.pendingFunctors_)

/-- `sendInLoop` has received what the arguments held, and the sends of each thread in call order. -/
structure Faithful (s : Handover) : Prop where
  bytes_eq : ∀ x ∈ s.received, x.2 = x.1.functor.held
  in_order : ∀ thread, (s.received.map Prod.fst).filter (·.thread = thread) <+:
    (sends s.loop.queued).filter (·.thread = thread)

/-- The functor that is called finds in its variable what was there at the call of `send`. -/
def Finds (s : Handover) : Event → Prop
  | .call =>
      match s.loop.functors with
      | { functor := .send task, .. } :: _ => s.loop.pc = .calling → s.vars task.ref = task.held
      | _ => True
  | _ => True

/-- What is written to a variable leaves it as every functor in the queue needs it: the caller's
assignment, and the functor that empties its `Buffer`. -/
def Undisturbed (s : Handover) : Event → Prop
  | .assign ref value => ∀ p ∈ s.inFlight, p.functor.ref = ref → p.functor.held = value
  | .call =>
      match s.loop.functors with
      | { functor := .send task, .. } :: rest =>
          task.arg = .buffer → ∀ p ∈ sends (rest ++ s.loop.pendingFunctors_),
            p.functor.ref = task.ref → p.functor.held = []
      | _ => True
  | _ => True

/-! ## What a step does to the queue -/

section steps

variable {s : Handover}

theorem sends_queued (h : s.loop.Inv) :
    sends s.loop.queued = sends s.loop.executed ++ s.inFlight := by
  rw [← h.conserved, List.append_assoc, sends_append]
  rfl

/-- What is queued goes to the end, if the thread comes to queue it. -/
theorem push_cases (loop : EventLoop Task) (thread : Nat) (cb : Task) :
    (loop.queueInLoop thread cb).executed = loop.executed ∧
      ((loop.queueInLoop thread cb).queued = loop.queued ∨
        (loop.queueInLoop thread cb).queued = loop.queued ++ [⟨thread, cb⟩]) := by
  simp only [EventLoop.queueInLoop]
  split
  · rename_i hthread
    subst hthread
    split
    · exact ⟨rfl, Or.inr rfl⟩
    · exact ⟨rfl, Or.inl rfl⟩
  · split
    · exact ⟨rfl, Or.inl rfl⟩
    · exact ⟨rfl, Or.inr rfl⟩

theorem run_cases (loop : EventLoop Task) (thread : Nat) (cb : Task) :
    (loop.runInLoop thread cb).executed = loop.executed ∧
      ((loop.runInLoop thread cb).queued = loop.queued ∨
        (loop.runInLoop thread cb).queued = loop.queued ++ [⟨thread, cb⟩]) := by
  simp only [EventLoop.runInLoop]
  split
  · exact ⟨rfl, Or.inl rfl⟩
  · exact push_cases loop thread cb

theorem sends_other (l : List (Pending Task)) (thread : Nat) : sends (l ++ [⟨thread, .other⟩]) = sends l := by
  rw [sends_append]
  exact List.append_nil _

/-- A plain step neither queues a send nor calls a functor. -/
theorem plain_step {e : EventLoop.Event Task} (h : plain e = true) (loop : EventLoop Task) :
    (loop.step e).executed = loop.executed ∧ sends (loop.step e).queued = sends loop.queued := by
  cases e with
  | queueInLoop thread cb =>
      cases eq_of_beq h
      obtain ⟨hexecuted, hqueued | hqueued⟩ := push_cases loop thread .other
      · exact ⟨hexecuted, congrArg sends hqueued⟩
      · exact ⟨hexecuted, (congrArg sends hqueued).trans (sends_other _ _)⟩
  | runInLoop thread cb =>
      cases eq_of_beq h
      obtain ⟨hexecuted, hqueued | hqueued⟩ := run_cases loop thread .other
      · exact ⟨hexecuted, congrArg sends hqueued⟩
      · exact ⟨hexecuted, (congrArg sends hqueued).trans (sends_other _ _)⟩
  | call =>
      cases h
  | testCalling =>
      simp only [EventLoop.step, EventLoop.testCalling]
      split <;> exact ⟨rfl, rfl⟩
  | wakeup thread =>
      simp only [EventLoop.step, EventLoop.finishQueue]
      split
      · split <;> exact ⟨rfl, rfl⟩
      · split <;> exact ⟨rfl, rfl⟩
  | _ =>
      simp only [EventLoop.step]
      split <;> exact ⟨rfl, rfl⟩

/-- The queue is called in order, and every call of a send is received. -/
structure Inv (s : Handover) : Prop where
  loop : s.loop.Inv
  received_eq : s.received.map Prod.fst = sends s.loop.executed

theorem inv_start (vars : Nat → Bytes) : (start vars).Inv where
  loop := EventLoop.inv_start
  received_eq := rfl

/-- The functor that is next, when the loop is about to call it. -/
theorem call_step {p : Pending Task} {rest : List (Pending Task)} {loop : EventLoop Task}
    (hfunctors : loop.functors = p :: rest) (hpc : loop.pc = .calling) :
    loop.step .call = { loop with functors := rest, executed := loop.executed ++ [p], pc := .inFunctor } := by
  simp only [EventLoop.step, hfunctors, if_pos hpc]

/-- Without a functor, or away from the loop of `doPendingFunctors`, nothing is called. -/
theorem call_idle {loop : EventLoop Task} (h : loop.functors = [] ∨ loop.pc ≠ .calling) :
    loop.step .call = loop := by
  simp only [EventLoop.step]
  cases hfunctors : loop.functors with
  | nil =>
      rfl
  | cons p rest =>
      have hpc : loop.pc ≠ .calling := by
        rcases h with hnone | hpc
        · rw [hfunctors] at hnone
          cases hnone
        · exact hpc
      simp only [if_neg hpc]

/-- The cases of a call, for a state that is about to make one. -/
theorem step_call (s : Handover) :
    (∃ thread task rest, s.loop.functors = ⟨thread, .send task⟩ :: rest ∧ s.loop.pc = .calling ∧
        step s .call =
          { s with
            loop := s.loop.step .call
            vars := (task.call s.vars).2
            received := s.received ++ [(⟨thread, task⟩, s.vars task.ref)] }) ∨
      (∃ thread rest, s.loop.functors = ⟨thread, .other⟩ :: rest ∧ s.loop.pc = .calling ∧
        step s .call = { s with loop := s.loop.step .call }) ∨
      (s.loop.functors = [] ∨ s.loop.pc ≠ .calling) ∧ step s .call = s := by
  cases hfunctors : s.loop.functors with
  | nil =>
      refine Or.inr (Or.inr ⟨Or.inl rfl, ?_⟩)
      simp only [step, hfunctors, call_idle (Or.inl hfunctors)]
  | cons p rest =>
      obtain ⟨thread, functor⟩ := p
      by_cases hpc : s.loop.pc = .calling
      · cases functor with
        | send task =>
            refine Or.inl ⟨thread, task, rest, rfl, hpc, ?_⟩
            simp only [step, hfunctors, if_pos hpc, SendTask.call_fst]
        | other =>
            refine Or.inr (Or.inl ⟨thread, rest, rfl, hpc, ?_⟩)
            simp only [step, hfunctors]
      · refine Or.inr (Or.inr ⟨Or.inr hpc, ?_⟩)
        cases functor with
        | send task =>
            simp only [step, hfunctors, if_neg hpc]
        | other =>
            simp only [step, hfunctors, call_idle (Or.inr hpc)]

theorem inv_step (s : Handover) (e : Event) (h : s.Inv) : (step s e).Inv := by
  cases e with
  | send thread arg ref =>
      simp only [step]
      split
      · exact ⟨EventLoop.inv_step h.loop (.runInLoop thread _),
          h.received_eq.trans (congrArg sends (run_cases s.loop thread _).1.symm)⟩
      · exact h
  | assign ref value =>
      exact ⟨h.loop, h.received_eq⟩
  | setState state =>
      exact ⟨h.loop, h.received_eq⟩
  | call =>
      have hloop := EventLoop.inv_step h.loop .call
      rcases s.step_call with ⟨thread, task, rest, hfunctors, hpc, heq⟩ |
        ⟨thread, rest, hfunctors, hpc, heq⟩ | ⟨-, heq⟩
      · rw [heq]
        refine ⟨hloop, ?_⟩
        rw [call_step hfunctors hpc, List.map_append, h.received_eq, sends_append]
        rfl
      · rw [heq]
        refine ⟨hloop, ?_⟩
        rw [call_step hfunctors hpc, h.received_eq, sends_other]
      · rw [heq]
        exact h
  | loop e =>
      simp only [step]
      split
      · rename_i hplain
        exact ⟨EventLoop.inv_step h.loop e,
          h.received_eq.trans (congrArg sends (plain_step hplain s.loop).1.symm)⟩
      · exact h

/-- Every step queues the send it hands over, and no other. -/
theorem sends_queued_step (s : Handover) (e : Event) :
    sends (step s e).loop.queued = sends s.loop.queued ++ s.handed e := by
  cases e with
  | send thread arg ref =>
      by_cases hstate : s.state_ = .kConnected
      · have hqueued := @EventLoop.queued_runInLoop Task s.loop thread
          (.send { arg, ref, held := s.vars ref })
        simp only [step, handed, hstate, if_true, true_and]
        rw [hqueued, sends_append]
        split <;> rfl
      · simp [step, handed, hstate]
  | call =>
      have hcall : ∀ loop : EventLoop Task, (loop.step .call).queued = loop.queued :=
        fun loop => (EventLoop.queued_step loop .call).trans (List.append_nil _)
      simp only [handed, List.append_nil]
      rcases s.step_call with ⟨thread, task, rest, -, -, heq⟩ | ⟨thread, rest, -, -, heq⟩ | ⟨-, heq⟩
      · rw [heq]
        exact congrArg sends (hcall s.loop)
      · rw [heq]
        exact congrArg sends (hcall s.loop)
      · rw [heq]
  | loop e =>
      simp only [handed, List.append_nil, step]
      split
      · next hplain => exact (plain_step hplain s.loop).2
      · rfl
  | assign ref value | setState state =>
      exact (List.append_nil _).symm

/-- As long as no send is called, the sends in flight are those there were and those queued since. -/
theorem inFlight_eq {s' : Handover} (h : s.Inv) (h' : s'.Inv) (l : List (Pending SendTask))
    (hexecuted : s'.loop.executed = s.loop.executed)
    (hqueued : sends s'.loop.queued = sends s.loop.queued ++ l) : s'.inFlight = s.inFlight ++ l := by
  rw [sends_queued h'.loop, sends_queued h.loop, hexecuted, List.append_assoc] at hqueued
  exact List.append_cancel_left hqueued

theorem Inv.in_order (h : s.Inv) (thread : Nat) :
    (s.received.map Prod.fst).filter (·.thread = thread) <+:
      (sends s.loop.queued).filter (·.thread = thread) := by
  rw [h.received_eq, sends_queued h.loop, List.filter_append]
  exact List.prefix_append ..

theorem faithful_iff (h : s.Inv) : s.Faithful ↔ ∀ x ∈ s.received, x.2 = x.1.functor.held :=
  ⟨fun hs => hs.bytes_eq, fun hbytes => ⟨hbytes, h.in_order⟩⟩

/-! ## When the bytes are right -/

/-- **One step**: a send that is called passes on the right bytes if it finds its variable as it was. -/
theorem faithful_step_iff (s : Handover) (e : Event) (h : s.Inv) (hs : s.Faithful) :
    (step s e).Faithful ↔ s.Finds e := by
  rw [faithful_iff (inv_step s e h)]
  have hbytes := hs.bytes_eq
  cases e with
  | send thread arg ref =>
      simp only [step]
      split <;> exact iff_of_true hbytes trivial
  | assign ref value =>
      exact iff_of_true hbytes trivial
  | setState state =>
      exact iff_of_true hbytes trivial
  | call =>
      rcases s.step_call with ⟨thread, task, rest, hfunctors, hpc, heq⟩ |
        ⟨thread, rest, hfunctors, hpc, heq⟩ | ⟨hidle, heq⟩
      · rw [heq, List.forall_mem_append, and_iff_right hbytes]
        simp [Finds, hfunctors, hpc]
      · rw [heq]
        exact iff_of_true hbytes (by simp [Finds, hfunctors])
      · rw [heq]
        refine iff_of_true hbytes ?_
        simp only [Finds]
        split
        · rename_i hfunctors
          intro hpc
          rcases hidle with hnone | hnot
          · rw [hfunctors] at hnone
            cases hnone
          · exact absurd hpc hnot
        · trivial
  | loop e =>
      simp only [step]
      split <;> exact iff_of_true hbytes trivial

/-- Every send in flight still has what it needs. -/
def Kept (s : Handover) : Prop := ∀ p ∈ s.inFlight, s.vars p.functor.ref = p.functor.held

theorem Kept.finds (h : s.Kept) (e : Event) : s.Finds e := by
  cases e with
  | call =>
      simp only [Finds]
      split
      · rename_i hfunctors
        intro _
        apply h ⟨_, _⟩
        rw [inFlight, hfunctors, List.cons_append, sends_cons]
        exact List.mem_append_left _ List.mem_cons_self
      · trivial
  | _ =>
      trivial

/-- A send that is handed over refers to a variable that holds what it holds. -/
theorem held_of_handed {e : Event} {p : Pending SendTask} (hp : p ∈ s.handed e) :
    s.vars p.functor.ref = p.functor.held := by
  cases e with
  | send thread arg ref =>
      simp only [handed] at hp
      split at hp
      · cases List.mem_singleton.1 hp
        rfl
      · cases hp
  | _ =>
      cases hp

/-- A step that calls no functor and leaves the variables alone. -/
theorem Kept.of_same (hs : s.Kept) (h : s.Inv) {e : Event}
    (hexecuted : (step s e).loop.executed = s.loop.executed) (hvars : (step s e).vars = s.vars) :
    (step s e).Kept := by
  intro p hp
  rw [inFlight_eq h (inv_step s e h) _ hexecuted (sends_queued_step s e)] at hp
  rw [hvars]
  rcases List.mem_append.1 hp with hp | hp
  · exact hs p hp
  · exact held_of_handed hp

/-- The functor that is called leaves the others what they need. -/
theorem Kept.call (hs : s.Kept) (hguard : s.Undisturbed .call) : (step s .call).Kept := by
  rcases s.step_call with ⟨thread, task, rest, hfunctors, hpc, heq⟩ |
    ⟨thread, rest, hfunctors, hpc, heq⟩ | ⟨-, heq⟩
  · have hflight : s.inFlight = ⟨thread, task⟩ :: sends (rest ++ s.loop.pendingFunctors_) := by
      rw [inFlight, hfunctors, List.cons_append, sends_cons]
      rfl
    intro p hp
    rw [heq] at hp ⊢
    have hp : p ∈ sends (rest ++ s.loop.pendingFunctors_) := by
      simpa [inFlight, call_step hfunctors hpc] using hp
    have hheld := hs p (hflight ▸ List.mem_cons_of_mem _ hp)
    simp only [Undisturbed, hfunctors] at hguard
    cases harg : task.arg with
    | string =>
        simpa [SendTask.call, harg] using hheld
    | buffer =>
        by_cases href : p.functor.ref = task.ref
        · simp [SendTask.call, harg, href, hguard harg p hp href]
        · simpa [SendTask.call, harg, href] using hheld
  · have hflight : s.inFlight = sends (rest ++ s.loop.pendingFunctors_) := by
      rw [inFlight, hfunctors, List.cons_append, sends_cons]
      rfl
    intro p hp
    rw [heq] at hp ⊢
    refine hs p ?_
    rw [hflight]
    simpa [inFlight, call_step hfunctors hpc] using hp
  · rw [heq]
    exact hs

theorem kept_step (s : Handover) (e : Event) (h : s.Inv) (hs : s.Kept) (hguard : s.Undisturbed e) :
    (step s e).Kept := by
  cases e with
  | send thread arg ref =>
      refine hs.of_same h ?_ ?_
      · simp only [step]
        split
        · exact (run_cases s.loop thread _).1
        · rfl
      · simp only [step]
        split <;> rfl
  | assign ref value =>
      intro p hp
      by_cases href : p.functor.ref = ref
      · simp only [step, href, Function.update_self]
        exact (hguard p hp href).symm
      · simp only [step, Function.update_of_ne href]
        exact hs p hp
  | setState state =>
      exact hs
  | call =>
      exact hs.call hguard
  | loop e =>
      refine hs.of_same h ?_ ?_
      · simp only [step]
        split
        · next hplain => exact (plain_step hplain s.loop).1
        · rfl
      · simp only [step]
        split <;> rfl

end steps

/-- The sends of a run, in the order of the calls. -/
def handedOver (s : Handover) (es : List Event) : List (Pending SendTask) := Runs.collected step handed s es

/-- They are the sends received and those in flight. -/
theorem received_run (vars : Nat → Bytes) (es : List Event) :
    (es.foldl step (start vars)).received.map Prod.fst ++ (es.foldl step (start vars)).inFlight =
      handedOver (start vars) es := by
  have hinv : (es.foldl step (start vars)).Inv := Runs.invariant_run inv_step (inv_start vars) es
  rw [hinv.received_eq, ← sends_queued hinv.loop]
  let record : Handover → List (Pending SendTask) := fun s => sends s.loop.queued
  have hrecord : ∀ s e, record (step s e) = record s ++ s.handed e := sends_queued_step
  exact (Runs.record_run hrecord (start vars) es).trans (List.nil_append _)

theorem kept_start (vars : Nat → Bytes) : (start vars).Kept := by
  simp [Kept, inFlight, start, EventLoop.start, sends]

/-- **What is handed over.**  The runs in which `sendInLoop` receives what it was given are those in which
every send that is called finds its variable as it was; and it does so as long as nothing is written to a
variable that a send in flight refers to.  In every run the sends are received in the order of the calls, each
once, or in flight; and a functor that finds its variable has the connection send what was held. -/
theorem handed_over_iff (vars : Nat → Bytes) (es : List Event) :
    (Runs.Throughout step Faithful (start vars) es ↔ Runs.Guarded step Finds (start vars) es) ∧
      (Runs.Guarded step Undisturbed (start vars) es →
        Runs.Throughout step Faithful (start vars) es) ∧
      (es.foldl step (start vars)).received.map Prod.fst ++ (es.foldl step (start vars)).inFlight =
        handedOver (start vars) es ∧
      ∀ (task : SendTask) (c : TcpConnection) (r : WriteResult), c.vars task.ref = task.held →
        c.runFunctor (.sendInLoop task.arg task.ref) r =
          TcpConnection.sendInLoop { c with vars := (task.call c.vars).2 } task.held r := by
  have hfaithful : (start vars).Faithful :=
    (faithful_iff (inv_start vars)).2 (by simp [start])
  have hiff : Runs.Guarded step Finds (start vars) es ↔ Runs.Throughout step Faithful (start vars) es :=
    Runs.guarded_iff_throughout inv_step faithful_step_iff (inv_start vars) hfaithful
  refine ⟨hiff.symm, fun h => ?_, received_run vars es, fun task c r hheld => ?_⟩
  · refine hiff.1 (h.weaken (I := fun s => s.Inv ∧ s.Kept) ?_ ?_ ⟨inv_start vars, kept_start vars⟩)
    · exact fun s e hs hguard => ⟨inv_step s e hs.1, kept_step s e hs.1 hs.2 hguard⟩
    · exact fun s e hs _ => hs.2.finds e
  · rw [task.runFunctor_eq, SendTask.call_fst, hheld]

/-- A thread sends one string and goes on to use the variable for the next before the loop comes to it. -/
theorem second_value_sent :
    let s := [Event.send 1 .string 0, .assign 0 (bytes "second"), .loop .pollReturns,
      .loop .doPendingFunctors, .loop .swap, .call].foldl step (start fun _ => bytes "first")
    s.received = [(⟨1, { arg := .string, ref := 0, held := bytes "first" }⟩, bytes "second")] ∧
      ¬ s.Faithful := by
  intro s
  have hreceived : s.received =
      [(⟨1, { arg := .string, ref := 0, held := bytes "first" }⟩, bytes "second")] := by
    decide +kernel
  refine ⟨hreceived, ?_⟩
  intro h
  have hbytes : bytes "second" = bytes "first" :=
    h.bytes_eq (⟨1, { arg := .string, ref := 0, held := bytes "first" }⟩, bytes "second")
      (by rw [hreceived]; exact List.mem_cons_self)
  exact absurd hbytes (by decide)

end Handover
end Net
end Myoj
