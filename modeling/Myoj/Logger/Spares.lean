import Myoj.Logger.AsyncLogging

/-!
# Spares — the backend never runs out of buffers

In every round the backend gives `newBuffer1` away, and `newBuffer2` if the producers have used up
`nextBuffer_` since the last swap; then they have also filled a buffer.  So the vector it takes over has
as many buffers as it has to get back.  This does not depend on what is logged: a line may have any
length.

* `Call`, `invoke` — the calls, with lines of any length;
* `popped` — the vectors whose `back()` is taken;
* `Supplied` — no pointer is null and no vector empty where the code relies on it.
-/

namespace Myoj
namespace Logger
namespace AsyncLogging

inductive Call where
  | append (line : Bytes)
  | start
  | threadFunc
  | stop

def invoke (log : AsyncLogging) : Call → Option AsyncLogging
  | .append line => log.append line
  | .start => log.perform .start
  | .threadFunc => log.threadFunc
  | .stop => log.perform .stop

def next (log : AsyncLogging) (c : Call) : AsyncLogging := (log.invoke c).getD log

/-- The vectors on which a round calls `back()` and `pop_back()`. -/
def popped (log : AsyncLogging) : List (List BufferPtr) :=
  match log.newBuffer1, log.newBuffer2 with
  | some _, some _ => []
  | some _, none => [log.resized]
  | none, some _ => [log.resized]
  | none, none => [log.resized, log.resized.dropLast]

/-- The backend goes from the mutex to the writing. -/
def LeavesCriticalSection (log log' : AsyncLogging) : Prop :=
  (log.pc = .locking ∨ log.pc = .waiting) ∧ log.threadFunc = some log' ∧ log'.pc = .writing 0

structure Supplied (log : AsyncLogging) : Prop where
  /-- Whoever takes the mutex to append finds a current buffer. -/
  current : log.currentBuffer_.isSome = true
  /-- From the test of `running_` to the swap the backend holds both spares. -/
  spares : log.pc = .testing ∨ log.pc = .locking ∨ log.pc = .waiting →
    log.newBuffer1.isSome = true ∧ log.newBuffer2.isSome = true
  nextBuffer : ∀ log', log.LeavesCriticalSection log' → log'.nextBuffer_.isSome = true
  popped : log.pc = .recycling → ∀ v ∈ log.popped, v ≠ []
  /-- Whatever is called next, no null pointer is dereferenced. -/
  defined : ∀ c, (log.invoke c).isSome = true

section supplied

variable {log : AsyncLogging}

@[simp] theorem refill_some (b : FixedBuffer kLargeBuffer) (v : List BufferPtr) :
    refill (some b) v = some (some b, v) := rfl

theorem refill_none_eq_some_iff {p : BufferPtr} {v v' : List BufferPtr} :
    refill none v = some (p, v') ↔
      ∃ b, v.getLast? = some (some b) ∧ p = some b.reset ∧ v' = v.dropLast := by
  unfold refill
  rcases v.getLast? with _ | _ | b <;> simp [eq_comm]

/-- `popped` lists what a round relies on. -/
theorem recycle_isSome_iff (log : AsyncLogging) :
    log.recycle.isSome = true ↔ ∀ v ∈ log.popped, ∃ b, v.getLast? = some (some b) := by
  have hrefills : log.recycle.isSome = true ↔
      ∃ p v, refill log.newBuffer1 log.resized = some (p, v) ∧
        ∃ q w, refill log.newBuffer2 v = some (q, w) := by
    simp [recycle, resized, Option.isSome_iff_exists, Option.bind_eq_some_iff]
  rw [hrefills]
  -- the second pointer is refilled from what the first one has left
  cases h1 : log.newBuffer1 <;> cases h2 : log.newBuffer2 <;>
    simp [popped, h1, h2, refill_none_eq_some_iff]

theorem Stocked.popped (h : log.Stocked) (hpc : log.pc = .recycling) :
    ∀ v ∈ log.popped, v ≠ [] := by
  rcases h.recycle hpc with ⟨log', hrecycle, -⟩
  have hsome : log.recycle.isSome = true := by
    rw [hrecycle]
    rfl
  intro v hv
  obtain ⟨b, hlast⟩ := (recycle_isSome_iff log).1 hsome v hv
  rintro rfl
  simp at hlast

theorem Stocked.spares (h : log.Stocked)
    (hpc : log.pc = .testing ∨ log.pc = .locking ∨ log.pc = .waiting) :
    log.newBuffer1.isSome = true ∧ log.newBuffer2.isSome = true := by
  have hlocals := h.locals_ok
  have hmissing : log.missing = 0 := by
    rcases hpc with hpc | hpc | hpc <;> simp only [LocalsInv, hpc] at hlocals <;> exact hlocals.2
  exact missing_eq_zero_iff.1 hmissing

theorem Stocked.nextBuffer (h : log.Stocked) {log' : AsyncLogging}
    (hleaves : log.LeavesCriticalSection log') : log'.nextBuffer_.isSome = true := by
  obtain ⟨hpc, hthread, hwriting⟩ := hleaves
  -- the swap is the only way from the mutex to the writing
  have hswap : log' = log.swapBuffers := by
    rcases hpc with hpc | hpc <;> simp only [AsyncLogging.threadFunc, hpc, Option.some.injEq] at hthread
    · split at hthread
      · simp [← hthread] at hwriting
      · exact hthread.symm
    · exact hthread.symm
  rw [hswap]
  exact (h.swapBuffers hpc).2

/-- No call runs into undefined behaviour, and it leaves the buffers where they are needed. -/
theorem Stocked.invoke (h : log.Stocked) (c : Call) :
    ∃ log', log.invoke c = some log' ∧ log'.Stocked := by
  cases c with
  | append line =>
      exact h.append line
  | start =>
      refine ⟨_, rfl, ?_⟩
      split
      · next hpc =>
        have hlocals := h.locals_ok
        simp only [LocalsInv, hpc] at hlocals
        exact ⟨h.current, h.filled, h.next_used, hlocals⟩
      · exact h
  | threadFunc =>
      exact h.threadFunc
  | stop =>
      refine ⟨_, rfl, ?_⟩
      split
      · exact ⟨h.current, h.filled, h.next_used, h.locals_ok⟩
      · exact h

theorem Stocked.next (h : log.Stocked) (c : Call) : (log.next c).Stocked := by
  rcases h.invoke c with ⟨log', hinvoke, hstocked⟩
  rwa [AsyncLogging.next, hinvoke]

theorem Stocked.supplied (h : log.Stocked) : log.Supplied where
  current := h.current
  spares := h.spares
  nextBuffer := fun _ => h.nextBuffer
  popped := h.popped
  defined := by
    intro c
    rcases h.invoke c with ⟨log', hinvoke, -⟩
    rw [hinvoke]
    rfl

end supplied

/-- **The backend never runs out of buffers**, whatever the interleaving of the calls. -/
theorem supplied_run (calls : List Call) : (calls.foldl next start).Supplied := by
  have hstocked : (calls.foldl next start).Stocked :=
    Runs.invariant_run (I := Stocked) (fun _ c h => h.next c) stocked_start calls
  exact hstocked.supplied

end AsyncLogging
end Logger
end Myoj
