import Mathlib.Logic.Basic
import Mathlib.Order.Defs.Unbundled

/-!
# Effect — programs that may throw and that change a state

`EStateM ε σ` is the monad of a program that runs in a state `σ` and ends with a value or with an
exception `ε`; the state it has reached survives the exception.  Three ways to talk about what such a
program returns, with a rule for each way of putting programs together:

* `Returns m s Q` — from the state `s` the program returns, with value and state in `Q`; the rules are
  equivalences, so they compute the exact condition under which a program returns;
* `Yields m P` — whatever the program returns has `P`: what is known about the body of a `try`;
* `Always m P` — from every state the program returns, with a value in `P`.

`Throws m s` says that it throws, which is what the body of a `try` may do.

`Ends x P E` is the same for a computation without a state: its value is in `P`, or its exception in `E`.

`outcome m s` is what the program returns or throws, without the state.

For what a program does, rather than returns: `final m s` is the state it ends in, `Keeps v m` says that
it leaves a part of the state alone, and `Within R m` that it goes from a state to a related one.

`Meets m s Q E` speaks about both ends at once: the program returns with value and state in `Q`, or throws
with exception and state in `E`.

`always_attempt` is where the second turns into the third.
-/

namespace Myoj
namespace Effect

universe u

variable {ε σ α β : Type u}

/-- A computation that may throw, as a program that leaves the state alone. -/
def ofExcept : Except ε α → EStateM ε σ α
  | .ok a => pure a
  | .error e => throw e

theorem except_bind_eq_ok_iff {x : Except ε α} {g : α → Except ε β} {y : β} :
    (x >>= g) = .ok y ↔ ∃ a, x = .ok a ∧ g a = .ok y := by
  cases x with
  | ok a =>
      simp [bind, Except.bind]
  | error e =>
      simp [bind, Except.bind]

instance monadLiftExcept : MonadLift (Except ε) (EStateM ε σ) where
  monadLift := ofExcept

/-- Reads that follow each other are one read. -/
theorem liftM_bind (x : Except ε α) (g : α → Except ε β) :
    (liftM (x >>= g) : EStateM ε σ β) = liftM x >>= fun a => liftM (g a) := by
  cases x <;> rfl

theorem liftM_pure (a : α) : (liftM (pure a : Except ε α) : EStateM ε σ α) = pure a := rfl

/-- `try { m } catch (e) { handler e }`. -/
def attempt (m : EStateM ε σ α) (handler : ε → EStateM ε σ α) : EStateM ε σ α := fun s =>
  match m s with
  | .ok a s' => .ok a s'
  | .error e s' => handler e s'

/-! ## `Returns` -/

/-- From `s` the program returns a value and a state in `Q`. -/
def Returns (m : EStateM ε σ α) (s : σ) (Q : α → σ → Prop) : Prop :=
  ∃ a s', m s = .ok a s' ∧ Q a s'

section Returns

variable {m : EStateM ε σ α} {f : α → EStateM ε σ β} {s : σ} {Q : α → σ → Prop} {a : α} {e : ε}

theorem returns_iff_of_ok {s' : σ} (h : m s = .ok a s') : Returns m s Q ↔ Q a s' := by
  constructor
  · rintro ⟨_, _, h', hQ⟩
    cases h.symm.trans h'
    exact hQ
  · intro hQ
    exact ⟨a, s', h, hQ⟩

theorem not_returns_of_error {s' : σ} (h : m s = .error e s') : ¬ Returns m s Q := by
  rintro ⟨_, _, h', -⟩
  cases h.symm.trans h'

@[simp] theorem returns_pure : Returns (pure a : EStateM ε σ α) s Q ↔ Q a s :=
  returns_iff_of_ok rfl

@[simp] theorem returns_throw : Returns (throw e : EStateM ε σ α) s Q ↔ False :=
  iff_false_intro (not_returns_of_error rfl)

theorem bind_apply :
    (m >>= f) s = match m s with
      | .ok a s' => f a s'
      | .error e s' => .error e s' := rfl

theorem bind_of_ok {s' : σ} (h : m s = .ok a s') : (m >>= f) s = f a s' := by
  rw [bind_apply, h]

@[simp] theorem pure_apply : (pure a : EStateM ε σ α) s = .ok a s := rfl

@[simp] theorem liftM_ok_apply : (liftM (.ok a : Except ε α) : EStateM ε σ α) s = .ok a s := rfl

@[simp] theorem liftM_error_apply :
    (liftM (.error e : Except ε α) : EStateM ε σ α) s = .error e s := rfl

@[simp] theorem returns_bind {Q : β → σ → Prop} :
    Returns (m >>= f) s Q ↔ Returns m s fun a s' => Returns (f a) s' Q := by
  cases h : m s with
  | ok a s' =>
      rw [returns_iff_of_ok h]
      simp only [Returns, bind_apply, h]
  | error e s' =>
      have hbind : (m >>= f) s = .error e s' := by rw [bind_apply, h]
      simp only [not_returns_of_error h, not_returns_of_error hbind]

@[simp] theorem returns_ofExcept {x : Except ε α} :
    Returns (ofExcept x : EStateM ε σ α) s Q ↔ ∃ a, x = .ok a ∧ Q a s := by
  cases x with
  | ok a =>
      simp [ofExcept]
  | error e =>
      simp [ofExcept]

@[simp] theorem returns_liftM {x : Except ε α} :
    Returns (liftM x : EStateM ε σ α) s Q ↔ ∃ a, x = .ok a ∧ Q a s :=
  returns_ofExcept

@[simp] theorem returns_modify {g : σ → σ} {Q : PUnit → σ → Prop} :
    Returns (modify g : EStateM ε σ PUnit) s Q ↔ Q PUnit.unit (g s) :=
  returns_iff_of_ok rfl

theorem Returns.mono {Q' : α → σ → Prop} (h : Returns m s Q) (hQ : ∀ a s', Q a s' → Q' a s') :
    Returns m s Q' := by
  rcases h with ⟨a, s', hm, hq⟩
  exact ⟨a, s', hm, hQ a s' hq⟩

theorem returns_congr {Q' : α → σ → Prop} (h : ∀ a s', Q a s' ↔ Q' a s') :
    Returns m s Q ↔ Returns m s Q' :=
  exists_congr fun a => exists_congr fun s' => and_congr_right' (h a s')

@[simp] theorem not_returns_false : (Returns m s fun _ _ => False) ↔ False :=
  iff_false_intro fun ⟨_, _, _, h⟩ => h

theorem returns_attempt {handler : ε → EStateM ε σ α} :
    Returns (attempt m handler) s Q ↔
      match m s with
      | .ok a s' => Q a s'
      | .error e s' => Returns (handler e) s' Q := by
  cases h : m s with
  | ok a s' =>
      exact returns_iff_of_ok (by simp only [attempt, h])
  | error e s' =>
      simp only [Returns, attempt, h]

end Returns

/-! ## `Throws` -/

/-- From `s` the program throws. -/
def Throws (m : EStateM ε σ α) (s : σ) : Prop :=
  match m s with
  | .ok _ _ => False
  | .error _ _ => True

section Throws

variable {m : EStateM ε σ α} {f : α → EStateM ε σ β} {s : σ}

@[simp] theorem throws_pure {a : α} : Throws (pure a : EStateM ε σ α) s ↔ False := Iff.rfl

/-- A program throws in its first part, or in the rest. -/
@[simp] theorem throws_bind :
    Throws (m >>= f) s ↔ Throws m s ∨ Returns m s fun a s' => Throws (f a) s' := by
  cases h : m s with
  | ok a s' =>
      rw [returns_iff_of_ok h]
      simp only [Throws, bind_apply, h, false_or]
  | error e s' =>
      simp only [Throws, bind_apply, h, true_or]

@[simp] theorem throws_liftM {x : Except ε α} :
    Throws (liftM x : EStateM ε σ α) s ↔ ∃ e, x = .error e := by
  cases x with
  | ok a =>
      exact ⟨False.elim, fun ⟨_, h⟩ => by cases h⟩
  | error e =>
      exact ⟨fun _ => ⟨e, rfl⟩, fun _ => trivial⟩

/-- What throws is caught: the program returns when its body does, or when the handler does. -/
theorem returns_attempt_pure {g : ε → α} {Q : α → σ → Prop} (hg : ∀ e s', Q (g e) s') :
    Returns (attempt m fun e => pure (g e)) s Q ↔ Throws m s ∨ Returns m s Q := by
  rw [returns_attempt]
  cases h : m s with
  | ok a s' =>
      simp only [Throws, h, false_or, returns_iff_of_ok h]
  | error e s' =>
      simp only [Throws, h, true_or, returns_pure, hg]

/-- When the handler's value does not do, only the body's counts. -/
theorem returns_attempt_pure_of_not {g : ε → α} {Q : α → σ → Prop} (hg : ∀ e s', ¬ Q (g e) s') :
    Returns (attempt m fun e => pure (g e)) s Q ↔ Returns m s Q := by
  rw [returns_attempt]
  cases h : m s with
  | ok a s' =>
      exact (returns_iff_of_ok h).symm
  | error e s' =>
      exact iff_of_false (mt returns_pure.1 (hg e s')) (not_returns_of_error h)

end Throws

/-! ## `Yields` and `Always` -/

/-- Every value the program returns has `P`. -/
def Yields (m : EStateM ε σ α) (P : α → Prop) : Prop :=
  ∀ s a s', m s = .ok a s' → P a

/-- From every state the program returns, with a value that has `P`. -/
def Always (m : EStateM ε σ α) (P : α → Prop) : Prop :=
  ∀ s, Returns m s fun a _ => P a

section rules

variable {m : EStateM ε σ α} {f : α → EStateM ε σ β} {P : α → Prop} {R : β → Prop}

theorem yields_pure {a : α} (h : P a) : Yields (pure a : EStateM ε σ α) P := by
  intro s _ _ hs
  cases hs
  exact h

theorem yields_bind (h : ∀ a, Yields (f a) R) : Yields (m >>= f) R := by
  intro s b s' hs
  rw [bind_apply] at hs
  cases hm : m s with
  | ok a t =>
      rw [hm] at hs
      exact h a t b s' hs
  | error e t =>
      rw [hm] at hs
      cases hs

theorem Always.yields (h : Always m P) : Yields m P := by
  intro s a s' hs
  exact (returns_iff_of_ok hs).1 (h s)

theorem always_pure {a : α} (h : P a) : Always (pure a : EStateM ε σ α) P :=
  fun _ => returns_pure.2 h

theorem Always.bind (hm : Always m P) (h : ∀ a, P a → Always (f a) R) : Always (m >>= f) R :=
  fun s => returns_bind.2 ((hm s).mono fun a s' ha => h a ha s')

/-- A `try` whose handlers always return, always returns. -/
theorem always_attempt {handler : ε → EStateM ε σ α} (hm : Yields m P)
    (hh : ∀ e, Always (handler e) P) : Always (attempt m handler) P := by
  intro s
  rw [returns_attempt]
  cases h : m s with
  | ok a s' =>
      exact hm s a s' h
  | error e s' =>
      exact hh e s'

/-- A first part that always returns leaves the condition to the rest. -/
theorem Always.returns_bind_iff {Q : β → σ → Prop} {c : Prop} (hm : Always m P)
    (h : ∀ a s, P a → (Returns (f a) s Q ↔ c)) (s : σ) : Returns (m >>= f) s Q ↔ c := by
  rcases hm s with ⟨a, s', hms, ha⟩
  rw [returns_bind, returns_iff_of_ok hms]
  exact h a s' ha

/-- A program that always returns does not show in a condition that ignores it. -/
theorem Always.returns_const_iff {c : Prop} (hm : Always m P) (s : σ) :
    (Returns m s fun _ _ => c) ↔ c :=
  ⟨fun ⟨_, _, _, h⟩ => h, fun h => (hm s).mono fun _ _ _ => h⟩

end rules

/-! ## `Ends` -/

/-- The computation ends with a value in `P` or with an exception in `E`. -/
def Ends (x : Except ε α) (P : α → Prop) (E : ε → Prop) : Prop :=
  match x with
  | .ok a => P a
  | .error e => E e

section Ends

variable {x : Except ε α} {f : α → Except ε β} {P P' : α → Prop} {R : β → Prop} {E E' : ε → Prop}

theorem Ends.bind (hx : Ends x P E) (h : ∀ a, P a → Ends (f a) R E) : Ends (x >>= f) R E := by
  cases x with
  | ok a =>
      exact h a hx
  | error e =>
      exact hx

theorem Ends.mono (hx : Ends x P E) (hP : ∀ a, P a → P' a) (hE : ∀ e, E e → E' e) : Ends x P' E' := by
  cases x with
  | ok a =>
      exact hP a hx
  | error e =>
      exact hE e hx

/-- A loop that every round keeps within `I` of what it has done and what is left. -/
theorem Ends.foldlM {f : α → β → Except ε α} {I : List β → List β → α → Prop}
    (h : ∀ done b rest a, I done (b :: rest) a → Ends (f a b) (I (done ++ [b]) rest) E)
    (l : List β) (done : List β) (a : α) (h0 : I done l a) :
    Ends (l.foldlM f a) (I (done ++ l) []) E := by
  induction l generalizing done a with
  | nil =>
      rw [List.append_nil]
      exact h0
  | cons b l ih =>
      rw [List.foldlM_cons]
      refine (h done b l a h0).bind fun a' ha' => ?_
      have hrest := ih (done ++ [b]) a' ha'
      rwa [List.append_assoc] at hrest

end Ends

/-! ## `outcome` -/

/-- What a program returns or throws. -/
def outcome (m : EStateM ε σ α) (s : σ) : Except ε α :=
  match m s with
  | .ok a _ => .ok a
  | .error e _ => .error e

section outcome

variable {m : EStateM ε σ α} {s s' : σ} {a : α} {Q : α → σ → Prop}

theorem outcome_of_ok (h : m s = .ok a s') : outcome m s = .ok a := by
  rw [outcome, h]

theorem returns_outcome {P : α → Prop} (h : Returns m s fun a _ => P a) (ha : outcome m s = .ok a) :
    P a := by
  rcases h with ⟨a', s', hm, hP⟩
  cases (outcome_of_ok hm).symm.trans ha
  exact hP

/-- A program throws, or what it returns can be looked at. -/
theorem throws_or_returns (h : ∀ a s', m s = .ok a s' → Q a s') : Throws m s ∨ Returns m s Q := by
  cases hm : m s with
  | ok a s' =>
      exact .inr ⟨a, s', hm, h a s' hm⟩
  | error e s' =>
      exact .inl (by simp only [Throws, hm])

end outcome

/-! ## `final` and `Keeps` -/

/-- The state a program ends in, by returning or by throwing. -/
def final (m : EStateM ε σ α) (s : σ) : σ :=
  match m s with
  | .ok _ s' => s'
  | .error _ s' => s'

/-- The program leaves what `v` reads of the state as it is. -/
def Keeps {γ : Type u} (v : σ → γ) (m : EStateM ε σ α) : Prop :=
  ∀ s, v (final m s) = v s

section final

variable {m : EStateM ε σ α} {f : α → EStateM ε σ β} {s s' : σ} {γ : Type u} {v : σ → γ}

theorem final_of_ok {a : α} (h : m s = .ok a s') : final m s = s' := by
  rw [final, h]

/-- What is known of the value and of the state a program returns with. -/
theorem returns_and_final {P : α → Prop} {R : σ → Prop} :
    (Returns m s fun a s' => P a ∧ R s') ↔ (Returns m s fun a _ => P a) ∧ R (final m s) := by
  cases h : m s with
  | ok a t =>
      rw [returns_iff_of_ok h, returns_iff_of_ok h, final_of_ok h]
  | error e t =>
      exact iff_of_false (not_returns_of_error h) fun hand => not_returns_of_error h hand.1

theorem final_bind_of_ok {a : α} (h : m s = .ok a s') : final (m >>= f) s = final (f a) s' := by
  rw [final, final, bind_of_ok h]

theorem final_bind_of_error {e : ε} (h : m s = .error e s') : final (m >>= f) s = s' := by
  rw [final, bind_apply, h]

/-- A program that does not return ends where its first part ends. -/
theorem final_bind_of_not_returns (h : ¬ Returns m s fun _ _ => True) :
    final (m >>= f) s = final m s := by
  cases hm : m s with
  | ok a t =>
      exact absurd ((returns_iff_of_ok hm).2 trivial) h
  | error e t =>
      rw [final_bind_of_error hm, final, hm]

@[simp] theorem final_pure (a : α) : final (pure a : EStateM ε σ α) s = s := rfl

@[simp] theorem final_liftM (x : Except ε α) : final (liftM x : EStateM ε σ α) s = s := by
  cases x <;> rfl

theorem final_liftM_bind (x : Except ε α) :
    final (liftM x >>= f) s =
      match x with
      | .ok a => final (f a) s
      | .error _ => s := by
  cases x <;> rfl

/-- What holds now, and behind every value of a read, holds at the end. -/
theorem final_liftM_bind_of {P : σ → Prop} {x : Except ε α} (hs : P s)
    (h : ∀ a, x = .ok a → P (final (f a) s)) : P (final (liftM x >>= f) s) := by
  rw [final_liftM_bind]
  cases x with
  | ok a =>
      exact h a rfl
  | error e =>
      exact hs

/-- Handlers that only return do not show in the state. -/
theorem final_attempt_pure (g : ε → α) : final (attempt m fun e => pure (g e)) s = final m s := by
  simp only [final, attempt]
  cases m s <;> rfl

/-- What the rest of a program keeps is decided by its beginning. -/
theorem final_bind_of_keeps (h : ∀ a, Keeps v (f a)) (m : EStateM ε σ α) (s : σ) :
    v (final (m >>= f) s) = v (final m s) := by
  cases hm : m s with
  | ok a t =>
      rw [final_bind_of_ok hm, h a t, final_of_ok hm]
  | error e t =>
      rw [final_bind_of_error hm, final, hm]

theorem Keeps.pure (a : α) : Keeps v (pure a : EStateM ε σ α) := fun _ => rfl

theorem Keeps.liftM (x : Except ε α) : Keeps v (liftM x : EStateM ε σ α) := fun _ => by
  rw [final_liftM]

theorem Keeps.bind (hm : Keeps v m) (h : ∀ a, Keeps v (f a)) : Keeps v (m >>= f) := fun s => by
  rw [final_bind_of_keeps h, hm s]

theorem Keeps.attempt_pure (hm : Keeps v m) (g : ε → α) :
    Keeps v (attempt m fun e => Pure.pure (g e)) := fun s => by
  rw [final_attempt_pure, hm s]

end final

/-! ## `Within` -/

/-- The program takes every state to one it is related to. -/
def Within (R : σ → σ → Prop) (m : EStateM ε σ α) : Prop :=
  ∀ s, R s (final m s)

section Within

variable {R : σ → σ → Prop} {m m' : EStateM ε σ α} {f : α → EStateM ε σ β}

theorem Within.pure [Std.Refl R] (a : α) : Within R (pure a : EStateM ε σ α) := Std.Refl.refl

theorem Within.liftM [Std.Refl R] (x : Except ε α) : Within R (liftM x : EStateM ε σ α) := by
  intro s
  rw [final_liftM]
  exact Std.Refl.refl s

theorem Within.of_keeps [Std.Refl R] (h : Keeps (fun s => s) m) : Within R m := by
  intro s
  have hsame : final m s = s := h s
  rw [hsame]
  exact Std.Refl.refl s

theorem Within.bind [IsTrans σ R] (hm : Within R m) (h : ∀ a, Within R (f a)) : Within R (m >>= f) := by
  intro s
  have hfirst := hm s
  cases hs : m s with
  | ok a s' =>
      rw [final_of_ok hs] at hfirst
      rw [final_bind_of_ok hs]
      exact IsTrans.trans _ _ _ hfirst (h a s')
  | error e s' =>
      rw [final, hs] at hfirst
      rw [final_bind_of_error hs]
      exact hfirst

/-- A choice before the rest. -/
theorem Within.ite_bind [IsTrans σ R] {c : Prop} [Decidable c] (hm : Within R m) (hm' : Within R m')
    (h : ∀ a, Within R (f a)) : Within R (if c then m >>= f else m' >>= f) := by
  split
  · exact hm.bind h
  · exact hm'.bind h

theorem Within.attempt_pure (hm : Within R m) (g : ε → α) :
    Within R (attempt m fun e => Pure.pure (g e)) := by
  intro s
  rw [final_attempt_pure]
  exact hm s

end Within

/-! ## `Meets` -/

/-- From `s` the program returns within `Q` or throws within `E`. -/
def Meets (m : EStateM ε σ α) (s : σ) (Q : α → σ → Prop) (E : ε → σ → Prop) : Prop :=
  match m s with
  | .ok a s' => Q a s'
  | .error e s' => E e s'

section Meets

variable {m m' : EStateM ε σ α} {f : α → EStateM ε σ β} {s : σ} {Q Q' : α → σ → Prop}
variable {E E' : ε → σ → Prop}

@[simp] theorem meets_pure {a : α} : Meets (pure a) s Q E ↔ Q a s := Iff.rfl

@[simp] theorem meets_throw {e : ε} : Meets (throw e) s Q E ↔ E e s := Iff.rfl

@[simp] theorem meets_modify {g : σ → σ} {Q : PUnit → σ → Prop} :
    Meets (modify g : EStateM ε σ PUnit) s Q E ↔ Q PUnit.unit (g s) := Iff.rfl

@[simp] theorem meets_get {Q : σ → σ → Prop} {E : ε → σ → Prop} :
    Meets (get : EStateM ε σ σ) s Q E ↔ Q s s := Iff.rfl

theorem Meets.mono (h : Meets m s Q E) (hQ : ∀ a s', Q a s' → Q' a s')
    (hE : ∀ e s', E e s' → E' e s') : Meets m s Q' E' := by
  unfold Meets at h ⊢
  cases hm : m s with
  | ok a s' =>
      rw [hm] at h
      exact hQ a s' h
  | error e s' =>
      rw [hm] at h
      exact hE e s' h

/-- What throws before the rest throws in the whole. -/
theorem meets_bind {Q : β → σ → Prop} :
    Meets (m >>= f) s Q E ↔ Meets m s (fun a s' => Meets (f a) s' Q E) E := by
  unfold Meets
  rw [bind_apply]
  cases m s <;> rfl

theorem Meets.bind {R : β → σ → Prop} (hm : Meets m s Q E) (h : ∀ a s', Q a s' → Meets (f a) s' R E) :
    Meets (m >>= f) s R E :=
  meets_bind.2 (hm.mono h fun _ _ he => he)

theorem Meets.ite {c : Prop} [Decidable c] (h : c → Meets m s Q E) (h' : ¬ c → Meets m' s Q E) :
    Meets (if c then m else m') s Q E := by
  split
  · exact h ‹c›
  · exact h' ‹¬ c›

end Meets

end Effect
end Myoj
