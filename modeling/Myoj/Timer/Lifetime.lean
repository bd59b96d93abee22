import Myoj.Timer.HandleRead

/-!
# Lifetime — the timers over whole runs

A timer is numbered when it is constructed, so that it can be told from a later one at the same address.
`History` says what became of every timer: it is there, under its expiration, or it was deleted, once, after
it ran, once.

`timers_run` puts this together with what a single operation does.
-/

namespace Myoj
namespace Timers

open Effect (Ends)

namespace TimerQueue

/-- What became of the timers that were constructed. -/
structure History (q : TimerQueue) : Prop where
  ran_born : ∀ i ∈ q.ran, i < q.born
  /-- A timer that does not repeat has not run as long as it is there. -/
  unrun : ∀ a t, q.heap a = some t → t.repeat_ = false → t.id ∉ q.ran
  /-- What was deleted ran once, was deleted once, and is not there. -/
  deleted_ran : ∀ i ∈ q.deleted, q.ran.count i = 1
  deleted_once : q.deleted.Nodup
  gone : ∀ i ∈ q.deleted, i < q.born ∧ ∀ a t, q.heap a = some t → t.id ≠ i
  /-- What was not deleted is there. -/
  kept : ∀ i < q.born, i ∈ q.deleted ∨ ∃ a t, q.heap a = some t ∧ t.id = i

/-- The timers an event constructs. -/
def news (q : TimerQueue) : Event → List NewTimer
  | .addTimer n => [n]
  | .handleRead w => w.callbacks (q.due w.now)

/-- What an event does to the queue. -/
def Performed (q : TimerQueue) : Event → TimerQueue → Prop
  | .addTimer n => q.Added n
  | .handleRead w => q.Woken w

section history

variable {q q' : TimerQueue} {n : NewTimer} {w : Wakeup}

theorem history_start : start.History where
  ran_born := by simp [start]
  unrun := fun _ _ h => by cases h
  deleted_ran := by simp [start]
  deleted_once := List.nodup_nil
  gone := by simp [start]
  kept := by simp [start]

/-- A timer that is put in is new. -/
theorem History.added (h : q.History) (hadd : q.Added n q') : q'.History where
  ran_born := by
    intro i hi
    rw [hadd.ran] at hi
    rw [hadd.born]
    exact Nat.lt_succ_of_lt (h.ran_born i hi)
  unrun := by
    intro a t hlive hrepeat
    rw [hadd.heap, Function.update_apply] at hlive
    rw [hadd.ran]
    split at hlive
    · cases hlive
      intro hran
      exact absurd (h.ran_born _ hran) (lt_irrefl _)
    · exact h.unrun a t hlive hrepeat
  deleted_ran := by
    rw [hadd.deleted, hadd.ran]
    exact h.deleted_ran
  deleted_once := by
    rw [hadd.deleted]
    exact h.deleted_once
  gone := by
    intro i hi
    rw [hadd.deleted] at hi
    rcases h.gone i hi with ⟨hborn, hgone⟩
    refine ⟨hadd.born ▸ Nat.lt_succ_of_lt hborn, fun a t hlive => ?_⟩
    rw [hadd.heap, Function.update_apply] at hlive
    split at hlive
    · cases hlive
      exact hborn.ne'
    · exact hgone a t hlive
  kept := by
    intro i hi
    rw [hadd.deleted, hadd.heap]
    rw [hadd.born, Nat.lt_succ_iff, le_iff_lt_or_eq] at hi
    rcases hi with hi | rfl
    · rcases h.kept i hi with hdeleted | ⟨a, t, hlive, hid⟩
      · exact Or.inl hdeleted
      · right
        refine ⟨a, t, ?_, hid⟩
        rw [Function.update_of_ne (Inv.ne_of_free hadd.free hlive)]
        exact hlive
    · exact Or.inr ⟨n.addr, n.timer q.born, Function.update_self _ _ _, rfl⟩

/-- A timer that is there is due exactly when its number is that of one that is due. -/
theorem Woken.mem_due (hwoken : q.Woken w q') (hinv : q.Inv []) {a : Nat} {t : Timer}
    (hlive : q.heap a = some t) {p : Placed} (hp : p ∈ q.due w.now) (hid : t.id = p.2.id) : p = (a, t) := by
  have hp' : q.heap p.1 = some p.2 := ((hwoken.due p.1 p.2).1 hp).1
  have haddr : a = p.1 := hinv.distinct a p.1 t p.2 hlive hp' hid
  rw [haddr, hp', Option.some.injEq] at hlive
  exact Prod.ext haddr.symm hlive

/-- A timer that runs was there before. -/
theorem Woken.ran_old (hwoken : q.Woken w q') (hinv : q.Inv []) {i : Nat}
    (hi : i ∈ (q.due w.now).map (·.2.id)) : i < q.born ∧ ∃ a t, (a, t) ∈ q.due w.now ∧ t.id = i := by
  rcases List.mem_map.1 hi with ⟨⟨a, t⟩, hp, rfl⟩
  exact ⟨hinv.fresh a t ((hwoken.due a t).1 hp).1, a, t, hp, rfl⟩

/-- Whose number a timer has after the wake-up. -/
theorem Woken.id_cases (hwoken : q.Woken w q') {a : Nat} {t : Timer} (hlive : q'.heap a = some t) :
    (∃ u, q.heap a = some u ∧ u.id = t.id ∧ u.repeat_ = t.repeat_ ∧
      (u.expiration_ ≤ w.now → u.repeat_ = true)) ∨ q.born ≤ t.id := by
  rcases hwoken.only a t hlive with ⟨hold, hlater⟩ | ⟨u, hu, hrepeat, rfl⟩ | ⟨n, i, hn, -, rfl⟩
  · exact Or.inl ⟨t, hold, rfl, rfl, fun hnow => absurd hlater hnow.not_gt⟩
  · exact Or.inl ⟨u, ((hwoken.due a u).1 hu).1, rfl, rfl, fun _ => hrepeat⟩
  · exact Or.inr (List.le_snd_of_mem_zipIdx hn)

/-- A wake-up deletes what it has run for the last time. -/
theorem History.woken (h : q.History) (hinv : q.Inv []) (hwoken : q.Woken w q') : q'.History where
  ran_born := by
    intro i hi
    rw [hwoken.ran, List.mem_append] at hi
    have hborn : q.born ≤ q'.born := hwoken.born ▸ Nat.le_add_right _ _
    rcases hi with hi | hi
    · exact (h.ran_born i hi).trans_le hborn
    · exact (hwoken.ran_old hinv hi).1.trans_le hborn
  unrun := by
    intro a t hlive hrepeat
    rw [hwoken.ran, List.mem_append]
    rintro (hran | hran)
    · rcases hwoken.id_cases hlive with ⟨u, hu, hid, hsame, -⟩ | hnew
      · exact h.unrun a u hu (hsame.trans hrepeat) (hid ▸ hran)
      · exact absurd (h.ran_born _ hran) hnew.not_gt
    · rcases hwoken.ran_old hinv hran with ⟨hold, b, v, hv, hvid⟩
      rcases hwoken.id_cases hlive with ⟨u, hu, hid, hsame, hdue⟩ | hnew
      -- it has just run, and is still there: it repeats
      · have heq : (b, v) = (a, u) := hwoken.mem_due hinv hu hv (hid.trans hvid.symm)
        rw [heq] at hv
        have hrepeats : u.repeat_ = true := hdue ((hwoken.due a u).1 hv).2
        rw [hsame, hrepeat] at hrepeats
        cases hrepeats
      · exact absurd hold hnew.not_gt
  deleted_ran := by
    intro i hi
    rw [hwoken.deleted, List.mem_append] at hi
    rw [hwoken.ran, List.count_append]
    rcases hi with hi | hi
    -- what was deleted is not there to run again
    · have hnot : i ∉ (q.due w.now).map (·.2.id) := by
        intro hran
        rcases hwoken.ran_old hinv hran with ⟨-, a, t, hp, hid⟩
        exact (h.gone i hi).2 a t ((hwoken.due a t).1 hp).1 hid
      rw [h.deleted_ran i hi, List.count_eq_zero_of_not_mem hnot]
    · rcases List.mem_map.1 hi with ⟨⟨a, t⟩, hp, rfl⟩
      rcases List.mem_filter.1 hp with ⟨hdue, hrepeat⟩
      -- it does not repeat, so this was its only run
      have hfirst : t.id ∉ q.ran := h.unrun a t ((hwoken.due a t).1 hdue).1 (by simpa using hrepeat)
      have hmem : t.id ∈ (q.due w.now).map (·.2.id) := List.mem_map.2 ⟨(a, t), hdue, rfl⟩
      rw [List.count_eq_zero_of_not_mem hfirst, List.count_eq_one_of_mem hwoken.once hmem]
  deleted_once := by
    rw [hwoken.deleted, List.nodup_append]
    refine ⟨h.deleted_once, hwoken.once.sublist (List.filter_sublist.map _), ?_⟩
    rintro i hi j hj rfl
    rcases List.mem_map.1 hj with ⟨⟨a, t⟩, hp, hid⟩
    exact (h.gone i hi).2 a t ((hwoken.due a t).1 (List.mem_of_mem_filter hp)).1 hid
  gone := by
    intro i hi
    have hborn : q.born ≤ q'.born := hwoken.born ▸ Nat.le_add_right _ _
    rw [hwoken.deleted, List.mem_append] at hi
    rcases hi with hi | hi
    · rcases h.gone i hi with ⟨hold, hgone⟩
      refine ⟨hold.trans_le hborn, fun a t hlive => ?_⟩
      rcases hwoken.id_cases hlive with ⟨u, hu, hid, -⟩ | hnew
      · rw [← hid]
        exact hgone a u hu
      · exact (hold.trans_le hnew).ne'
    · rcases List.mem_map.1 hi with ⟨⟨b, v⟩, hp, rfl⟩
      rcases List.mem_filter.1 hp with ⟨hdue, hrepeat⟩
      have hold : v.id < q.born := hinv.fresh b v ((hwoken.due b v).1 hdue).1
      refine ⟨hold.trans_le hborn, fun a t hlive hid => ?_⟩
      rcases hwoken.id_cases hlive with ⟨u, hu, huid, -, hstays⟩ | hnew
      · have heq : (b, v) = (a, u) := hwoken.mem_due hinv hu hdue (huid.trans hid)
        cases heq
        rw [hstays ((hwoken.due b v).1 hdue).2] at hrepeat
        cases hrepeat
      · exact absurd hold (hid ▸ hnew).not_gt
  kept := by
    intro i hi
    rw [hwoken.deleted, List.mem_append]
    by_cases hold : i < q.born
    · rcases h.kept i hold with hdeleted | ⟨a, t, hlive, rfl⟩
      · exact Or.inl (Or.inl hdeleted)
      · by_cases hnow : t.expiration_ ≤ w.now
        · have hdue : (a, t) ∈ q.due w.now := (hwoken.due a t).2 ⟨hlive, hnow⟩
          cases hrepeat : t.repeat_ with
          | true =>
              exact Or.inr ⟨a, _, hwoken.repeated a t hdue hrepeat, rfl⟩
          | false =>
              refine Or.inl (Or.inr (List.mem_map.2 ⟨(a, t), List.mem_filter.2 ⟨hdue, ?_⟩, rfl⟩))
              simp [hrepeat]
        · exact Or.inr ⟨a, t, hwoken.later a t hlive (not_le.1 hnow), rfl⟩
    · -- constructed by a callback
      have hnew : i - q.born < (w.callbacks (q.due w.now)).length := by
        rw [hwoken.born] at hi
        omega
      have hmem : ((w.callbacks (q.due w.now))[i - q.born], i) ∈
          (w.callbacks (q.due w.now)).zipIdx q.born := by
        rw [List.mk_mem_zipIdx_iff_le_and_getElem?_sub]
        exact ⟨not_lt.1 hold, List.getElem?_eq_getElem hnew⟩
      exact Or.inr ⟨_, _, hwoken.added _ i hmem, rfl⟩

end history

/-- Every operation that can happen does what it should. -/
theorem perform_ends {q : TimerQueue} (h : q.Inv []) (e : Event) :
    Ends (q.perform e) (fun q' => q'.Inv [] ∧ q.Performed e q')
      fun fault => fault = .taken ∧ ¬ q.Allocates (q.news e) := by
  cases e with
  | addTimer n =>
      refine (addTimer_ends h n).mono ?_ ?_
      · rintro q' ⟨hinv, hadd, -⟩
        exact ⟨hinv, hadd⟩
      · rintro fault ⟨htaken, hrefused⟩
        exact ⟨htaken, (grown_refl q).refused hrefused List.prefix_rfl⟩
  | handleRead w =>
      refine (handleRead_ends h w).mono ?_ fun _ h => h
      rintro q' ⟨hinv, hwoken, -⟩
      exact ⟨hinv, hwoken⟩

theorem inv_step {q : TimerQueue} (h : q.Inv [] ∧ q.History) (e : Event) :
    (step q e).Inv [] ∧ (step q e).History := by
  refine step_of_ends (P := fun q' => q'.Inv [] ∧ q'.History) ((perform_ends h.1 e).mono ?_ fun _ h => h) h
  rintro q' ⟨hinv, hperformed⟩
  refine ⟨hinv, ?_⟩
  cases e with
  | addTimer n =>
      exact h.2.added hperformed
  | handleRead w =>
      exact h.2.woken h.1 hperformed

/-- **Timers run exactly when due and exactly once.**  In every state of every run the entries of the set are
the timers that are there, each under its expiration; what was deleted ran once and does not come back, and
nothing else is missing.  And whatever comes next follows no dangling pointer and does what `Performed` says,
unless `new` were to return an address it may not. -/
theorem timers_run (es : List Event) :
    (es.foldl step start).Inv [] ∧ (es.foldl step start).History ∧
      ∀ e, Ends ((es.foldl step start).perform e) ((es.foldl step start).Performed e)
        fun fault => fault = .taken ∧ ¬ (es.foldl step start).Allocates ((es.foldl step start).news e) := by
  have hkept : ∀ s e, Inv s [] ∧ History s → Inv (step s e) [] ∧ History (step s e) :=
    fun s e h => inv_step h e
  have hrun := Runs.invariant_run hkept ⟨inv_start, history_start⟩ es
  refine ⟨hrun.1, hrun.2, fun e => ?_⟩
  exact (perform_ends hrun.1 e).mono (fun _ h => h.2) fun _ h => h

end TimerQueue

end Timers
end Myoj
