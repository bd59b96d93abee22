import Myoj.Timer.TimerQueue

/-!
# HandleRead — which timers run, and where they go

A wake-up takes the timers that are due out of the set, calls them in order, and puts back those that
repeat.  Its two loops are followed by what is done and what is left: `Grown` says what the callbacks have
added, `Settled` what `reset` has made of the timers that ran.

`timers_run` is the result about whole runs.
-/

namespace Myoj
namespace Timers

open Function (update)
open Effect (Ends)

/-- A timer and its address stand for an entry. -/
abbrev Placed := Nat × Timer

def Placed.entry (p : Placed) : Entry := p.2.entry p.1

/-- What the callbacks of these timers add, in order. -/
def Wakeup.callbacks (w : Wakeup) (due : List Placed) : List NewTimer :=
  due.flatMap fun p => w.callback p.2.id

@[simp] theorem Wakeup.callbacks_nil (w : Wakeup) : w.callbacks [] = [] := rfl

theorem Wakeup.callbacks_concat (w : Wakeup) (done : List Placed) (p : Placed) :
    w.callbacks (done ++ [p]) = w.callbacks done ++ w.callback p.2.id := by
  simp [callbacks]

namespace TimerQueue

/-- `new` returns the addresses of these timers, one after the other. -/
def Allocates (q : TimerQueue) (news : List NewTimer) : Prop :=
  (news.map NewTimer.addr).Nodup ∧ ∀ n ∈ news, q.heap n.addr = none ∧ n.addr < UINTPTR_MAX

/-! ## The callbacks -/

/-- From `q`, these timers were added; they are numbered on. -/
structure Grown (q : TimerQueue) (added : List NewTimer) (q' : TimerQueue) : Prop where
  born : q'.born = q.born + added.length
  deleted : q'.deleted = q.deleted
  kept : ∀ a t, q.heap a = some t → q'.heap a = some t
  every : ∀ (n : NewTimer) (i : Nat), (n, i) ∈ added.zipIdx q.born → q'.heap n.addr = some (n.timer i)
  only : ∀ a t, q'.heap a = some t →
    q.heap a = some t ∨ ∃ (n : NewTimer) (i : Nat), (n, i) ∈ added.zipIdx q.born ∧ n.addr = a ∧ t = n.timer i

section callbacks

variable {q s s' : TimerQueue} {pending : List Entry} {added news : List NewTimer} {n : NewTimer}
  {w : Wakeup}

theorem grown_refl (q : TimerQueue) : q.Grown [] q where
  born := rfl
  deleted := rfl
  kept := fun _ _ h => h
  every := fun _ _ h => by cases h
  only := fun _ _ h => Or.inl h

theorem Grown.add (h : q.Grown added s) (hadd : s.Added n s') : q.Grown (added ++ [n]) s' where
  born := by
    rw [hadd.born, h.born, List.length_append]
    rfl
  deleted := hadd.deleted.trans h.deleted
  kept := by
    intro a t hlive
    have hbefore : s.heap a = some t := h.kept a t hlive
    rw [hadd.heap, Function.update_of_ne (Inv.ne_of_free hadd.free hbefore)]
    exact hbefore
  every := by
    intro m i hm
    rw [List.zipIdx_append, List.mem_append] at hm
    rw [hadd.heap]
    rcases hm with hold | hnew
    · have hbefore : s.heap m.addr = some (m.timer i) := h.every m i hold
      rw [Function.update_of_ne (Inv.ne_of_free hadd.free hbefore)]
      exact hbefore
    · rw [List.zipIdx_singleton, List.mem_singleton, Prod.mk.injEq] at hnew
      rcases hnew with ⟨rfl, rfl⟩
      -- the number of the new timer is the length of what was added before it
      rw [Function.update_self, h.born, Nat.add_comm]
  only := by
    intro a t hlive
    rw [List.zipIdx_append]
    rw [hadd.heap, Function.update_apply] at hlive
    split at hlive
    · next ha =>
      cases hlive
      refine Or.inr ⟨n, s.born, List.mem_append_right _ ?_, ha.symm, rfl⟩
      rw [List.zipIdx_singleton, List.mem_singleton, h.born, Nat.add_comm]
    · rcases h.only a t hlive with hold | ⟨m, i, hm, ha, ht⟩
      · exact Or.inl hold
      · exact Or.inr ⟨m, i, List.mem_append_left _ hm, ha, ht⟩

/-- `new` refuses an address only where it may. -/
theorem Grown.refused (h : q.Grown added s) (hrefused : s.Refuses n) (hinitial : added ++ [n] <+: news) :
    ¬ q.Allocates news := by
  rintro ⟨hnodup, hfree⟩
  have hmem : ∀ m ∈ added ++ [n], m ∈ news := fun m hm => hinitial.subset hm
  have hn := hfree n (hmem n (List.mem_append_right _ (List.mem_singleton.2 rfl)))
  rcases hrefused with hlive | hhigh
  · rcases Option.isSome_iff_exists.1 hlive with ⟨t, ht⟩
    rcases h.only n.addr t ht with hold | ⟨m, i, hm, haddr, -⟩
    · rw [hn.1] at hold
      cases hold
    · -- the address was given to `m` before
      have hdistinct : ((added ++ [n]).map NewTimer.addr).Nodup :=
        hnodup.sublist (hinitial.sublist.map _)
      rw [List.map_append, List.nodup_append] at hdistinct
      have hm' : m ∈ added := List.fst_mem_of_mem_zipIdx hm
      exact hdistinct.2.2 m.addr (List.mem_map_of_mem hm') n.addr (by simp) haddr
  · exact absurd hn.2 hhigh.not_gt

theorem Inv.ran (h : s.Inv pending) (ran : List Nat) : ({ s with ran := ran } : TimerQueue).Inv pending :=
  ⟨h.keyed, h.apart, h.nodup, h.low, h.fresh, h.distinct⟩

theorem Grown.ran (h : q.Grown added s) (ran : List Nat) : q.Grown added { s with ran := ran } :=
  ⟨h.born, h.deleted, h.kept, h.every, h.only⟩

/-- A callback is called once, and its timers are added. -/
theorem run_ends (hinv : s.Inv pending) (hgrown : q.Grown added s) {a : Nat} {t : Timer}
    (hlive : s.heap a = some t) (hnews : added ++ w.callback t.id <+: news) :
    Ends (s.run w (t.entry a))
      (fun s' => s'.Inv pending ∧ q.Grown (added ++ w.callback t.id) s' ∧ s'.ran = s.ran ++ [t.id])
      fun fault => fault = .taken ∧ ¬ q.Allocates news := by
  have hderef : s.deref (t.entry a).second = .ok t := deref_of_live hlive
  unfold run
  rw [hderef]
  have hloop := Ends.foldlM (E := fun fault => fault = .taken ∧ ¬ q.Allocates news) (f := addTimer)
    (I := fun done rest s' => s'.Inv pending ∧ q.Grown (added ++ done) s' ∧ s'.ran = s.ran ++ [t.id] ∧
      done ++ rest = w.callback t.id)
  refine (hloop ?_ (w.callback t.id) [] { s with ran := s.ran ++ [t.id] } ?_).mono ?_ ?_
  · rintro done n rest s1 ⟨hinv1, hgrown1, hran1, hsplit⟩
    refine (addTimer_ends hinv1 n).mono ?_ ?_
    · rintro s2 ⟨hinv2, hadd, -⟩
      have hgrown2 : q.Grown (added ++ done ++ [n]) s2 := hgrown1.add hadd
      rw [List.append_assoc] at hgrown2
      have hsplit2 : done ++ [n] ++ rest = w.callback t.id := by
        rw [List.append_assoc]
        exact hsplit
      exact ⟨hinv2, hgrown2, hadd.ran.trans hran1, hsplit2⟩
    · rintro fault ⟨htaken, hrefused⟩
      have hpart : added ++ done ++ [n] <+: added ++ w.callback t.id := by
        rw [← hsplit]
        exact ⟨rest, by simp⟩
      exact ⟨htaken, hgrown1.refused hrefused (hpart.trans hnews)⟩
  · refine ⟨hinv.ran _, ?_, rfl, rfl⟩
    rw [List.append_nil]
    exact hgrown.ran _
  · rintro s' ⟨hinv', hgrown', hran', -⟩
    exact ⟨hinv', hgrown', hran'⟩
  · exact fun _ h => h

/-- All that are due are called, in order. -/
theorem runAll_ends (hinv : q.Inv pending) (due : List Placed)
    (hdue : ∀ p ∈ due, q.heap p.1 = some p.2) :
    Ends ((due.map Placed.entry).foldlM (fun s it => s.run w it) q)
      (fun s => s.Inv pending ∧ q.Grown (w.callbacks due) s ∧ s.ran = q.ran ++ due.map (·.2.id))
      fun fault => fault = .taken ∧ ¬ q.Allocates (w.callbacks due) := by
  rw [List.foldlM_map]
  have hloop := Ends.foldlM (E := fun fault => fault = .taken ∧ ¬ q.Allocates (w.callbacks due))
    (f := fun (s : TimerQueue) (p : Placed) => s.run w p.entry)
    (I := fun done rest s => s.Inv pending ∧ q.Grown (w.callbacks done) s ∧
      s.ran = q.ran ++ done.map (·.2.id) ∧ done ++ rest = due)
  refine (hloop ?_ due [] q ⟨hinv, grown_refl q, by simp, rfl⟩).mono ?_ ?_
  · rintro done p rest s ⟨hinv1, hgrown1, hran1, hsplit⟩
    have hlive : s.heap p.1 = some p.2 := by
      refine hgrown1.kept _ _ (hdue p ?_)
      rw [← hsplit]
      exact List.mem_append_right _ (List.mem_cons_self ..)
    have hsplit' : done ++ [p] ++ rest = due := by
      rw [List.append_assoc]
      exact hsplit
    have hpart : w.callbacks done ++ w.callback p.2.id <+: w.callbacks due := by
      rw [← Wakeup.callbacks_concat, ← hsplit']
      exact ⟨w.callbacks rest, by simp [Wakeup.callbacks]⟩
    refine (run_ends hinv1 hgrown1 hlive hpart).mono ?_ fun _ h => h
    rintro s' ⟨hinv2, hgrown2, hran2⟩
    refine ⟨hinv2, ?_, ?_, hsplit'⟩
    · rwa [Wakeup.callbacks_concat]
    · rw [hran2, hran1, List.map_append, List.append_assoc]
      rfl
  · rintro s ⟨hinv', hgrown', hran', -⟩
    exact ⟨hinv', hgrown', hran'⟩
  · exact fun _ h => h

end callbacks

/-! ## `reset` -/

end TimerQueue

/-- What becomes of a timer that has run. -/
def Wakeup.settled (w : Wakeup) (t : Timer) : Option Timer :=
  if t.repeat_ then some (t.restart (w.restartAt t.id)) else none

theorem Wakeup.id_settled {w : Wakeup} {t u : Timer} (h : w.settled t = some u) : u.id = t.id := by
  unfold settled at h
  split at h
  · cases h
    rfl
  · cases h

namespace TimerQueue

section reset

variable {q s s' : TimerQueue} {pending : List Entry} {a : Nat} {t : Timer} {w : Wakeup}

/-- The other entries are those of the timers at the other addresses. -/
theorem Inv.others (h : s.Inv (t.entry a :: pending)) (hlive : s.heap a = some t) (e : Entry) :
    (e ∈ s.timers_ ∨ e ∈ pending) ↔
      e.second ≠ a ∧ ∃ u, s.heap e.second = some u ∧ e = u.entry e.second := by
  have hfirst : t.entry a ∉ pending := (List.nodup_cons.1 h.nodup).1
  constructor
  · intro he
    have hin : e ∈ s.timers_ ∨ e ∈ t.entry a :: pending := he.imp_right (List.mem_cons_of_mem _)
    rcases (h.keyed e).1 hin with ⟨u, hu, hkey⟩
    refine ⟨?_, u, hu, hkey⟩
    intro ha
    rw [ha, hlive] at hu
    cases hu
    rw [ha] at hkey
    rcases he with he | he
    · exact h.apart _ (List.mem_cons_self ..) (hkey ▸ he)
    · exact hfirst (hkey ▸ he)
  · rintro ⟨hne, hu⟩
    rcases (h.keyed e).2 hu with he | he
    · exact Or.inl he
    · rcases List.mem_cons.1 he with rfl | he
      · exact absurd rfl hne
      · exact Or.inr he

/-- One timer is settled: it is gone, or under its new expiration. -/
theorem Inv.settle (h : s.Inv (t.entry a :: pending)) (hlive : s.heap a = some t) {v : Option Timer}
    (hid : ∀ u, v = some u → u.id = t.id)
    (htimers : ∀ e, e ∈ s'.timers_ ↔ e ∈ s.timers_ ∨ ∃ u, v = some u ∧ e = u.entry a)
    (hheap : s'.heap = update s.heap a v) (hborn : s'.born = s.born) : s'.Inv pending where
  keyed := by
    intro e
    rw [htimers, or_right_comm, h.others hlive e, hheap]
    constructor
    · rintro (⟨hne, hu⟩ | ⟨u, hv, rfl⟩)
      · rw [Function.update_of_ne hne]
        exact hu
      · refine ⟨u, ?_, rfl⟩
        rw [Timer.second_entry, Function.update_self]
        exact hv
    · rintro ⟨u, hu, hkey⟩
      by_cases ha : e.second = a
      · rw [ha, Function.update_self] at hu
        rw [ha] at hkey
        exact Or.inr ⟨u, hu, hkey⟩
      · rw [Function.update_of_ne ha] at hu
        exact Or.inl ⟨ha, u, hu, hkey⟩
  apart := by
    intro e he
    rw [htimers]
    rintro (hold | ⟨u, -, hnew⟩)
    · exact h.apart e (List.mem_cons_of_mem _ he) hold
    · have hne := ((h.others hlive e).1 (Or.inr he)).1
      rw [hnew] at hne
      exact hne rfl
  nodup := (List.nodup_cons.1 h.nodup).2
  low := by
    intro b u hu
    rw [hheap, Function.update_apply] at hu
    split at hu
    · next hb =>
      rw [hb]
      exact h.low a t hlive
    · exact h.low b u hu
  fresh := by
    intro b u hu
    rw [hborn]
    rw [hheap, Function.update_apply] at hu
    split at hu
    · rw [hid u hu]
      exact h.fresh a t hlive
    · exact h.fresh b u hu
  distinct := by
    intro b c u v' hu hv' heq
    rw [hheap, Function.update_apply] at hu hv'
    split at hu
    · next hb =>
      split at hv'
      · next hc => exact hb.trans hc.symm
      · rw [hid u hu] at heq
        rw [hb]
        exact h.distinct a c t v' hlive hv' heq
    · split at hv'
      · next hc =>
        rw [hid v' hv'] at heq
        rw [hc]
        exact h.distinct b a u t hu hlive heq
      · exact h.distinct b c u v' hu hv' heq

/-- The first entry can be followed, and the timerfd is set for it. -/
theorem resetToFirst_of_inv (h : q.Inv pending) (now : Timestamp) :
    ∃ timerfd, q.resetToFirst now = .ok { q with timerfd_ := timerfd } ∧
      ({ q with timerfd_ := timerfd } : TimerQueue).Armed := by
  unfold resetToFirst
  cases hbegin : q.timers_.begin? with
  | none =>
      refine ⟨q.timerfd_, rfl, ?_⟩
      simp only [Armed, hbegin]
  | some first =>
      rcases (h.keyed first).1 (Or.inl (OrderedSet.begin?_mem hbegin)) with ⟨t, hlive, hkey⟩
      have hfirst : t.expiration_ = first.first := by
        rw [hkey]
        rfl
      have harmed := armed_resetTimerfd hbegin now
      rw [resetTimerfd_eq] at harmed
      refine ⟨_, ?_, harmed⟩
      show (q.deref first.second >>= fun t => pure _) = _
      rw [deref_of_live hlive]
      show Except.ok (q.resetTimerfd t.expiration_ now) = _
      rw [hfirst, resetTimerfd_eq]

theorem Inv.timerfd (h : s.Inv pending) (timerfd : Option Arming) :
    ({ s with timerfd_ := timerfd } : TimerQueue).Inv pending :=
  ⟨h.keyed, h.apart, h.nodup, h.low, h.fresh, h.distinct⟩

/-- One round: the timer is back under its new expiration, or deleted. -/
theorem resetOne_of_inv (h : s.Inv (t.entry a :: pending)) (hlive : s.heap a = some t) :
    ∃ s', s.resetOne w (t.entry a) = .ok s' ∧ s'.Inv pending ∧ s'.Armed ∧
      s'.heap = update s.heap a (w.settled t) ∧ s'.born = s.born ∧ s'.ran = s.ran ∧
      s'.deleted = s.deleted ++ if t.repeat_ then [] else [t.id] := by
  have hderef : s.deref (t.entry a).second = .ok t := deref_of_live hlive
  unfold resetOne
  rw [hderef]
  cases hrepeat : t.repeat_ with
  | true =>
      have hsettled : w.settled t = some (t.restart (w.restartAt t.id)) := if_pos hrepeat
      have hlive1 : ({ s with heap := update s.heap a (w.settled t) } : TimerQueue).heap a =
          some (t.restart (w.restartAt t.id)) := by
        rw [← hsettled]
        exact Function.update_self _ _ _
      have hinsert := insert_of_live hlive1
      have hinv : ({ s with
          heap := update s.heap a (w.settled t)
          timers_ := s.timers_.insert ((t.restart (w.restartAt t.id)).entry a) } : TimerQueue).Inv pending := by
        refine h.settle hlive (fun u => Wakeup.id_settled) ?_ rfl rfl
        intro e
        rw [OrderedSet.mem_insert, hsettled]
        simp [or_comm]
      rcases resetToFirst_of_inv hinv (w.resetAt t.id) with ⟨timerfd, hreset, harmed⟩
      refine ⟨_, ?_, hinv.timerfd timerfd, harmed, rfl, rfl, rfl, by simp⟩
      rw [← hreset]
      rw [hsettled] at hinsert ⊢
      simp only [bind, Except.bind, pure, Except.pure, hrepeat, if_true, Timer.second_entry, hinsert]
  | false =>
      have hsettled : w.settled t = none := by simp [Wakeup.settled, hrepeat]
      have hinv : ({ s with
          heap := update s.heap a (w.settled t)
          deleted := s.deleted ++ [t.id] } : TimerQueue).Inv pending := by
        refine h.settle hlive (fun u => Wakeup.id_settled) ?_ rfl rfl
        intro e
        rw [hsettled]
        simp
      rcases resetToFirst_of_inv hinv (w.resetAt t.id) with ⟨timerfd, hreset, harmed⟩
      refine ⟨_, ?_, hinv.timerfd timerfd, harmed, rfl, rfl, rfl, by simp⟩
      rw [← hreset]
      rw [hsettled]
      simp only [bind, Except.bind, pure, Except.pure, hrepeat, Bool.false_eq_true, if_false,
        Timer.second_entry, delete, deref_of_live hlive]

end reset

/-- From `q`, these timers have been settled. -/
structure Settled (w : Wakeup) (q : TimerQueue) (done : List Placed) (s : TimerQueue) : Prop where
  born : s.born = q.born
  ran : s.ran = q.ran
  deleted : s.deleted = q.deleted ++ (done.filter fun p => !p.2.repeat_).map (·.2.id)
  settled : ∀ p ∈ done, s.heap p.1 = w.settled p.2
  others : ∀ a, (∀ p ∈ done, p.1 ≠ a) → s.heap a = q.heap a
  armed : done ≠ [] → s.Armed

theorem settled_nil (w : Wakeup) (q : TimerQueue) : Settled w q [] q where
  born := rfl
  ran := rfl
  deleted := (List.append_nil _).symm
  settled := fun _ h => by cases h
  others := fun _ _ => rfl
  armed := fun h => absurd rfl h

theorem Settled.add {w : Wakeup} {q s s' : TimerQueue} {done : List Placed} {p : Placed}
    (h : Settled w q done s) (hnew : ∀ r ∈ done, r.1 ≠ p.1)
    (hheap : s'.heap = update s.heap p.1 (w.settled p.2)) (hborn : s'.born = s.born) (hran : s'.ran = s.ran)
    (hdeleted : s'.deleted = s.deleted ++ if p.2.repeat_ then [] else [p.2.id]) (harmed : s'.Armed) :
    Settled w q (done ++ [p]) s' where
  born := hborn.trans h.born
  ran := hran.trans h.ran
  deleted := by
    rw [hdeleted, h.deleted, List.append_assoc, List.filter_append, List.map_append]
    cases hrepeat : p.2.repeat_ <;> simp [hrepeat]
  settled := by
    intro r hr
    rw [hheap]
    rcases List.mem_append.1 hr with hold | hlast
    · rw [Function.update_of_ne (hnew r hold)]
      exact h.settled r hold
    · rw [List.mem_singleton.1 hlast, Function.update_self]
  others := by
    intro a ha
    have hne : a ≠ p.1 := (ha p (List.mem_append_right _ (List.mem_singleton.2 rfl))).symm
    rw [hheap, Function.update_of_ne hne]
    exact h.others a fun r hr => ha r (List.mem_append_left _ hr)
  armed := fun _ => harmed

/-- Two timers are not at one address. -/
theorem nodup_fst {q : TimerQueue} {due : List Placed} (h : (due.map Placed.entry).Nodup)
    (hdue : ∀ p ∈ due, q.heap p.1 = some p.2) : (due.map Prod.fst).Nodup := by
  refine h.of_map _ |>.map_on ?_
  intro p hp r hr haddr
  have hsame : q.heap p.1 = some r.2 := by
    rw [haddr]
    exact hdue r hr
  rw [hdue p hp] at hsame
  exact Prod.ext haddr (Option.some.inj hsame)

/-- `reset` settles all timers that have run. -/
theorem reset_of_inv {q : TimerQueue} {w : Wakeup} (due : List Placed)
    (h : q.Inv (due.map Placed.entry)) (hdue : ∀ p ∈ due, q.heap p.1 = some p.2) :
    ∃ q', q.reset w (due.map Placed.entry) = .ok q' ∧ q'.Inv [] ∧ Settled w q due q' := by
  suffices hends : Ends (q.reset w (due.map Placed.entry)) (fun q' => q'.Inv [] ∧ Settled w q due q')
      fun _ => False by
    unfold Ends at hends
    split at hends
    · next q' hok => exact ⟨q', hok, hends⟩
    · cases hends
  unfold reset
  rw [List.foldlM_map]
  have hloop := Ends.foldlM (E := fun _ => False)
    (f := fun (s : TimerQueue) (p : Placed) => s.resetOne w p.entry)
    (I := fun done rest s => s.Inv (rest.map Placed.entry) ∧ Settled w q done s ∧
      (∀ p ∈ rest, s.heap p.1 = some p.2) ∧ ((done ++ rest).map Prod.fst).Nodup)
  refine (hloop ?_ due [] q ⟨h, settled_nil w q, hdue, nodup_fst h.nodup hdue⟩).mono ?_ fun _ h => h
  · rintro done p rest s ⟨hinv, hsettled, hrest, hnodup⟩
    have hlive : s.heap p.1 = some p.2 := hrest p (List.mem_cons_self ..)
    rcases resetOne_of_inv (w := w) hinv hlive with
      ⟨s', hok, hinv', harmed, hheap, hborn, hran, hdeleted⟩
    have hapart := hnodup
    rw [List.map_append, List.map_cons, List.nodup_append, List.nodup_cons] at hapart
    -- the timers that are settled and those that are left are at other addresses
    have hbefore : ∀ r ∈ done, r.1 ≠ p.1 := fun r hr =>
      hapart.2.2 r.1 (List.mem_map_of_mem hr) p.1 (List.mem_cons_self ..)
    have hbehind : ∀ r ∈ rest, r.1 ≠ p.1 := fun r hr heq =>
      hapart.2.1.1 (heq ▸ List.mem_map_of_mem hr)
    show Ends (s.resetOne w (p.2.entry p.1)) _ _
    rw [hok]
    refine ⟨hinv', hsettled.add hbefore hheap hborn hran hdeleted harmed, ?_, ?_⟩
    · intro r hr
      rw [hheap, Function.update_of_ne (hbehind r hr)]
      exact hrest r (List.mem_cons_of_mem _ hr)
    · rwa [List.append_assoc]
  · rintro q' ⟨hinv, hsettled, -⟩
    exact ⟨hinv, hsettled⟩

/-! ## `handleRead` -/

/-- The timer an entry stands for. -/
def placed (q : TimerQueue) (e : Entry) : Option Placed :=
  (q.heap e.second).map fun t => (e.second, t)

/-- The timers that are due, in the order of the set. -/
def due (q : TimerQueue) (now : Timestamp) : List Placed :=
  (q.timers_.before (sentry now)).filterMap q.placed

/-- What a wake-up does to the queue. -/
structure Woken (q : TimerQueue) (w : Wakeup) (q' : TimerQueue) : Prop where
  /-- Those that run are in the order of their expirations, and their callbacks are called once. -/
  in_order : (q.due w.now).Pairwise fun p r => p.2.expiration_ ≤ r.2.expiration_
  once : ((q.due w.now).map (·.2.id)).Nodup
  due : ∀ a t, (a, t) ∈ q.due w.now ↔ q.heap a = some t ∧ t.expiration_ ≤ w.now
  ran : q'.ran = q.ran ++ (q.due w.now).map (·.2.id)
  /-- Those among them that do not repeat are deleted. -/
  deleted : q'.deleted = q.deleted ++ ((q.due w.now).filter fun p => !p.2.repeat_).map (·.2.id)
  /-- Those that do are due again an interval after their restart. -/
  repeated : ∀ a t, (a, t) ∈ q.due w.now → t.repeat_ = true →
    q'.heap a = some { t with expiration_ := w.restartAt t.id + t.interval_ }
  /-- Those that were not due are as they were. -/
  later : ∀ a t, q.heap a = some t → w.now < t.expiration_ → q'.heap a = some t
  /-- What the callbacks have added is there, numbered on. -/
  added : ∀ (n : NewTimer) (i : Nat), (n, i) ∈ (w.callbacks (q.due w.now)).zipIdx q.born →
    q'.heap n.addr = some (n.timer i)
  born : q'.born = q.born + (w.callbacks (q.due w.now)).length
  /-- There are no other timers. -/
  only : ∀ a t, q'.heap a = some t →
    (q.heap a = some t ∧ w.now < t.expiration_) ∨
    (∃ u, (a, u) ∈ q.due w.now ∧ u.repeat_ = true ∧
      t = { u with expiration_ := w.restartAt u.id + u.interval_ }) ∨
    ∃ (n : NewTimer) (i : Nat), (n, i) ∈ (w.callbacks (q.due w.now)).zipIdx q.born ∧ n.addr = a ∧
      t = n.timer i

section handleRead

variable {q s q' : TimerQueue} {w : Wakeup}

theorem mem_due_iff (h : q.Inv []) (now : Timestamp) (a : Nat) (t : Timer) :
    (a, t) ∈ q.due now ↔ q.heap a = some t ∧ t.expiration_ ≤ now := by
  unfold due
  rw [List.mem_filterMap]
  constructor
  · rintro ⟨e, he, hmap⟩
    rcases OrderedSet.mem_before.1 he with ⟨hin, hlt⟩
    rcases (h.keyed e).1 (Or.inl hin) with ⟨u, hu, hkey⟩
    rw [placed, hu, Option.map_some, Option.some.injEq, Prod.mk.injEq] at hmap
    rcases hmap with ⟨rfl, rfl⟩
    -- no address is that of the sentry, so ties are below it
    have hdue : e.first ≤ now := (lt_sentry_iff (h.low _ _ hu)).1 hlt
    rw [hkey] at hdue
    exact ⟨hu, hdue⟩
  · rintro ⟨hlive, hdue⟩
    have hin : t.entry a ∈ q.timers_ := by
      rcases (h.keyed (t.entry a)).2 ⟨t, hlive, rfl⟩ with hin | hout
      · exact hin
      · cases hout
    have hlow : (t.entry a).second < UINTPTR_MAX := h.low a t hlive
    have hlt : t.entry a < sentry now := (lt_sentry_iff hlow).2 hdue
    refine ⟨t.entry a, OrderedSet.mem_before.2 ⟨hin, hlt⟩, ?_⟩
    rw [placed, Timer.second_entry, hlive]
    rfl

/-- The entries that are taken out are those of the timers that are due. -/
theorem due_entries (h : q.Inv []) (now : Timestamp) :
    (q.due now).map Placed.entry = q.timers_.before (sentry now) := by
  have hlift : ∀ l : List Entry, (∀ e ∈ l, e ∈ q.timers_) →
      (l.filterMap q.placed).map Placed.entry = l := by
    intro l hl
    induction l with
    | nil =>
        rfl
    | cons e l ih =>
        rcases (h.keyed e).1 (Or.inl (hl e (List.mem_cons_self ..))) with ⟨t, hlive, hkey⟩
        have hhead : q.placed e = some (e.second, t) := by
          rw [placed, hlive]
          rfl
        rw [List.filterMap_cons_some hhead, List.map_cons, ih fun e' he' => hl e' (List.mem_cons_of_mem _ he')]
        exact congrArg (· :: l) hkey.symm
  exact hlift _ fun e he => (OrderedSet.mem_before.1 he).1

theorem due_in_order (h : q.Inv []) (now : Timestamp) :
    (q.due now).Pairwise fun p r => p.2.expiration_ ≤ r.2.expiration_ := by
  have hsorted := q.timers_.before_pairwise (sentry now)
  rw [← due_entries h, List.pairwise_map] at hsorted
  exact hsorted.imp fun hlt => Entry.first_mono hlt.le

/-- No timer is due twice. -/
theorem due_once (h : q.Inv []) (now : Timestamp) : ((q.due now).map (·.2.id)).Nodup := by
  have hsorted := q.timers_.before_pairwise (sentry now)
  rw [← due_entries h, List.pairwise_map] at hsorted
  have hnodup : (q.due now).Nodup := hsorted.imp fun hlt heq => (heq ▸ hlt).ne rfl
  refine hnodup.map_on ?_
  rintro ⟨a, t⟩ hp ⟨b, u⟩ hr hid
  have ht : q.heap a = some t := ((mem_due_iff h now a t).1 hp).1
  have hu : q.heap b = some u := ((mem_due_iff h now b u).1 hr).1
  obtain rfl : a = b := h.distinct a b t u ht hu hid
  rw [ht] at hu
  rw [Option.some.inj hu]

/-- What is due is taken out of the set. -/
theorem getExpired_inv (h : q.Inv []) (w : Wakeup) :
    ((q.readTimerFd w.fired).getExpired w.now).2.Inv ((q.due w.now).map Placed.entry) where
  keyed := by
    intro e
    rw [due_entries h, or_comm]
    show e ∈ q.timers_.before (sentry w.now) ∨ e ∈ q.timers_.eraseBefore (sentry w.now) ↔
      ∃ t, q.heap e.second = some t ∧ e = t.entry e.second
    rw [← OrderedSet.mem_split, ← h.keyed e]
    simp
  apart := by
    intro e he hin
    rw [due_entries h] at he
    exact (OrderedSet.le_of_mem_eraseBefore hin).not_gt (OrderedSet.lt_of_mem_before he)
  nodup := by
    rw [due_entries h]
    exact (q.timers_.before_pairwise _).imp fun hlt => hlt.ne
  low := h.low
  fresh := h.fresh
  distinct := h.distinct

/-- The timers that ran, and those that did not, after the callbacks and after `reset`. -/
theorem woken_of_settled (h : q.Inv []) (hgrown : q.Grown (w.callbacks (q.due w.now)) s)
    (hran : s.ran = q.ran ++ (q.due w.now).map (·.2.id)) (hsettled : Settled w s (q.due w.now) q') :
    q.Woken w q' := by
  have hdue := mem_due_iff h w.now
  -- three kinds of timers, at different addresses: due, not due, and added by a callback
  have hplaced : ∀ p ∈ q.due w.now, q.heap p.1 = some p.2 := fun p hp => ((hdue p.1 p.2).1 hp).1
  have huntouched : ∀ a t, q.heap a = some t → w.now < t.expiration_ → ∀ p ∈ q.due w.now, p.1 ≠ a := by
    rintro a t hlive hlater p hp rfl
    have hnow : p.2.expiration_ ≤ w.now := ((hdue p.1 p.2).1 hp).2
    rw [hplaced p hp, Option.some.injEq] at hlive
    rw [hlive] at hnow
    exact hnow.not_gt hlater
  have hnumbered : ∀ (n : NewTimer) (i : Nat), (n, i) ∈ (w.callbacks (q.due w.now)).zipIdx q.born →
      ∀ p ∈ q.due w.now, p.1 ≠ n.addr := by
    intro n i hn p hp haddr
    have hold : s.heap p.1 = some p.2 := hgrown.kept _ _ (hplaced p hp)
    rw [haddr, hgrown.every n i hn, Option.some.injEq] at hold
    have hfresh : p.2.id < q.born := h.fresh _ _ (hplaced p hp)
    rw [← hold] at hfresh
    exact absurd hfresh (List.le_snd_of_mem_zipIdx hn).not_gt
  exact {
    in_order := due_in_order h w.now
    once := due_once h w.now
    due := hdue
    ran := hsettled.ran.trans hran
    deleted := by rw [hsettled.deleted, hgrown.deleted]
    repeated := by
      intro a t hp hrepeat
      rw [hsettled.settled (a, t) hp, Wakeup.settled, if_pos hrepeat, Timer.restart_of_repeat hrepeat]
    later := by
      intro a t hlive hlater
      rw [hsettled.others a (huntouched a t hlive hlater)]
      exact hgrown.kept a t hlive
    added := by
      intro n i hn
      rw [hsettled.others n.addr (hnumbered n i hn)]
      exact hgrown.every n i hn
    born := hsettled.born.trans hgrown.born
    only := by
      intro a t hlive
      by_cases hran : ∃ u, (a, u) ∈ q.due w.now
      · rcases hran with ⟨u, hu⟩
        rw [hsettled.settled (a, u) hu, Wakeup.settled] at hlive
        split at hlive
        · next hrepeat =>
          rw [Timer.restart_of_repeat hrepeat, Option.some.injEq] at hlive
          exact Or.inr (Or.inl ⟨u, hu, hrepeat, hlive.symm⟩)
        · cases hlive
      · have hnot : ∀ p ∈ q.due w.now, p.1 ≠ a := by
          rintro ⟨b, u⟩ hu rfl
          exact hran ⟨u, hu⟩
        rw [hsettled.others a hnot] at hlive
        rcases hgrown.only a t hlive with hold | hnew
        · left
          refine ⟨hold, ?_⟩
          by_contra hnow
          exact hran ⟨t, (hdue a t).2 ⟨hold, not_lt.1 hnow⟩⟩
        · exact Or.inr (Or.inr hnew) }

theorem handleRead_eq (q : TimerQueue) (w : Wakeup) :
    q.handleRead w =
      (q.timers_.before (sentry w.now)).foldlM (fun s it => s.run w it)
          ((q.readTimerFd w.fired).getExpired w.now).2 >>= fun s =>
        s.reset w (q.timers_.before (sentry w.now)) := rfl

/-- A wake-up runs what is due; where something is, it leaves the timerfd armed. -/
theorem handleRead_ends (h : q.Inv []) (w : Wakeup) :
    Ends (q.handleRead w)
      (fun q' => q'.Inv [] ∧ q.Woken w q' ∧ (q.due w.now ≠ [] → q'.Armed))
      fun fault => fault = .taken ∧ ¬ q.Allocates (w.callbacks (q.due w.now)) := by
  have hdue : ∀ p ∈ q.due w.now, q.heap p.1 = some p.2 :=
    fun p hp => ((mem_due_iff h w.now p.1 p.2).1 hp).1
  have hcalls := runAll_ends (w := w) (getExpired_inv h w) (q.due w.now) hdue
  rw [handleRead_eq, ← due_entries h]
  -- first the callbacks, then `reset`
  refine hcalls.bind ?_
  rintro s ⟨hinv, hgrown, hran⟩
  have hlive : ∀ p ∈ q.due w.now, s.heap p.1 = some p.2 := fun p hp => hgrown.kept _ _ (hdue p hp)
  rcases reset_of_inv (w := w) (q.due w.now) hinv hlive with ⟨q', hok, hinv', hsettled⟩
  have hgrown' : q.Grown (w.callbacks (q.due w.now)) s :=
    ⟨hgrown.born, hgrown.deleted, hgrown.kept, hgrown.every, hgrown.only⟩
  rw [hok]
  exact ⟨hinv', woken_of_settled h hgrown' hran hsettled, hsettled.armed⟩

/-- Where nothing is due only the timerfd is read. -/
theorem handleRead_of_none_due (h : q.Inv []) (hnone : q.due w.now = []) :
    q.handleRead w = .ok (q.readTimerFd w.fired) := by
  have hbefore : q.timers_.before (sentry w.now) = [] := by
    rw [← due_entries h, hnone]
    rfl
  have herase : q.timers_.eraseBefore (sentry w.now) = q.timers_ :=
    OrderedSet.eraseBefore_of_before_eq_nil hbefore
  have hexpired : ((q.readTimerFd w.fired).getExpired w.now).2 = q.readTimerFd w.fired := by
    show ({ q.readTimerFd w.fired with timers_ := q.timers_.eraseBefore (sentry w.now) } : TimerQueue) = _
    rw [herase]
    rfl
  rw [handleRead_eq, hbefore, hexpired]
  rfl

end handleRead

end TimerQueue

end Timers
end Myoj
