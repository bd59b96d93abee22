import Myoj.Net.PollPoller

/-!
# Polling — the two pollers side by side

`Poller::newDefaultPoller` makes an `EpollPoller`, or a `PollPoller` when `MUDUO_USE_POLL` is set.  The same
calls on the same channels are made on both here, and what the kernel is asked to watch is compared.

* `PollPoller.mem_*` — what the operations do to the entries of `pollfds_`;
* `Pollers` — the two pollers under the same calls; `Agree`, that they watch the same;
* `agree_throughout_iff` — they do as long as no channel that `EpollPoller` has deleted is updated without
  interest once more.
-/

namespace Myoj
namespace Net

open Epoll (Call Interests)

namespace Poll

namespace PollPoller

variable {ι : Type} [DecidableEq ι] {fd : ι → Int} {owners : List ι} {poller poller' : PollPoller ι} {c : ι}

/-! ## The entries of `pollfds_` -/

omit [DecidableEq ι] in
/-- An fd has one entry, hidden or not. -/
theorem Books.entry_unique (h : poller.Books fd owners) (hfd : Function.Injective fd) {pfd pfd' : pollfd}
    (hpfd : pfd ∈ poller.pollfds_) (hpfd' : pfd' ∈ poller.pollfds_) (hslot : slotFd pfd = slotFd pfd') :
    pfd = pfd' := by
  have hnodup : (poller.pollfds_.map slotFd).Nodup := by
    rw [h.slots]
    exact h.placed.nodup.map hfd
  exact List.inj_on_of_nodup_map hnodup hpfd hpfd' hslot

omit [DecidableEq ι] in
theorem Books.mem_owners_iff (h : poller.Books fd owners) (hfd : Function.Injective fd) :
    c ∈ owners ↔ ∃ pfd ∈ poller.pollfds_, slotFd pfd = fd c := by
  have hmem : fd c ∈ poller.pollfds_.map slotFd ↔ c ∈ owners := by
    rw [h.slots, List.mem_map_of_injective hfd]
  rw [← hmem, List.mem_map]

/-- The entry an update leaves for the channel. -/
def entryOf (channel : Channel) (hidden : Bool) : pollfd where
  fd := if hidden then -channel.fd_ - 1 else channel.fd_
  events := channel.events_.setWidth 16
  revents := 0

/-- A new channel gets an entry of its own, which is shown in any case. -/
theorem Books.mem_updateChannel_new (h : poller.Books fd owners) (hfd : Function.Injective fd)
    (hc : c ∉ owners) (hindex : (poller.channel c).index_ < 0)
    (hupdate : poller.updateChannel c = some poller') (pfd : pollfd) :
    pfd ∈ poller'.pollfds_ ↔ pfd ∈ poller.pollfds_ ∧ slotFd pfd ≠ fd c ∨
      pfd = entryOf (poller.channel c) false := by
  have hpushed : poller'.pollfds_ = poller.pollfds_ ++ [entryOf (poller.channel c) false] := by
    simp only [updateChannel, if_pos hindex] at hupdate
    cases hupdate
    rfl
  have hothers : ∀ pfd ∈ poller.pollfds_, slotFd pfd ≠ fd c := fun pfd hpfd hslot =>
    hc ((h.mem_owners_iff hfd).2 ⟨pfd, hpfd, hslot⟩)
  rw [hpushed, List.mem_append, List.mem_singleton]
  exact or_congr_left ⟨fun hpfd => ⟨hpfd, hothers pfd hpfd⟩, And.left⟩

/-- The entry of a channel that has one is written again; it is hidden when there is no interest. -/
theorem Books.mem_updateChannel_old (h : poller.Books fd owners) (hfd : Function.Injective fd)
    (hc : c ∈ owners) (hupdate : poller.updateChannel c = some poller') (pfd : pollfd) :
    pfd ∈ poller'.pollfds_ ↔ pfd ∈ poller.pollfds_ ∧ slotFd pfd ≠ fd c ∨
      pfd = entryOf (poller.channel c) (poller.channel c).isNoneEvent := by
  obtain ⟨i, hi, hindex, -, old, hold, hslot⟩ := h.entry hc
  have hset : poller'.pollfds_ =
      poller.pollfds_.set i (entryOf (poller.channel c) (poller.channel c).isNoneEvent) := by
    have hnew : ¬ (poller.channel c).index_ < 0 := by omega
    have hat : at? poller.pollfds_ (poller.channel c).index_ = some old := by
      rw [hindex, at?_natCast, hold]
    simp only [updateChannel, if_neg hnew, hat] at hupdate
    cases hupdate
    simp only [hindex, Int.toNat_natCast]
    rfl
  have hlt : i < poller.pollfds_.length := (List.getElem?_eq_some_iff.1 hold).1
  rw [hset]
  constructor
  · intro hmem
    obtain ⟨j, hj⟩ := List.mem_iff_getElem?.1 hmem
    rw [List.getElem?_set] at hj
    split at hj
    · simp only [Option.some.injEq] at hj
      exact .inr hj.symm
    · next hij =>
      refine .inl ⟨List.mem_of_getElem? hj, fun heq => hij ?_⟩
      -- the fd has only one entry
      have hsame := h.entry_unique hfd (List.mem_of_getElem? hj) (List.mem_of_getElem? hold)
        (heq.trans hslot.symm)
      have hnodup : poller.pollfds_.Nodup := by
        refine List.Nodup.of_map slotFd ?_
        rw [h.slots]
        exact h.placed.nodup.map hfd
      rw [hsame, ← hold] at hj
      exact ((List.getElem?_inj hlt hnodup).1 hj.symm)
  · rintro (⟨hmem, hne⟩ | rfl)
    · obtain ⟨j, hj⟩ := List.mem_iff_getElem?.1 hmem
      refine List.mem_iff_getElem?.2 ⟨j, ?_⟩
      have hij : i ≠ j := by
        rintro rfl
        cases hj.symm.trans hold
        exact hne hslot
      rw [List.getElem?_set_ne hij, hj]
    · exact List.mem_set hlt _

omit [DecidableEq ι] in
theorem iter_swap_subset {α : Type} (v : List α) (i j : Nat) : iter_swap v i j ⊆ v := by
  unfold iter_swap
  split
  · next x y hx hy =>
    intro z hz
    rcases List.mem_or_eq_of_mem_set hz with hz | rfl
    · rcases List.mem_or_eq_of_mem_set hz with hz | rfl
      · exact hz
      · exact List.mem_of_getElem? hy
    · exact List.mem_of_getElem? hx
  · exact List.Subset.refl v

theorem removeChannel_subset (hremove : poller.removeChannel c = some poller') :
    poller'.pollfds_ ⊆ poller.pollfds_ := by
  simp only [removeChannel, Option.bind_eq_bind, Option.bind_eq_some_iff] at hremove
  obtain ⟨_, -, hrest⟩ := hremove
  split at hrest
  · cases hrest
    exact List.dropLast_subset _
  · obtain ⟨back, -, hrest⟩ := Option.bind_eq_some_iff.1 hrest
    obtain ⟨d, -, heq⟩ := Option.bind_eq_some_iff.1 hrest
    cases heq
    exact fun pfd hpfd => iter_swap_subset _ _ _ (List.dropLast_subset _ hpfd)

/-- Only the entry of the channel goes. -/
theorem Books.mem_removeChannel (h : poller.Books fd owners) (hfd : Function.Injective fd) (hc : c ∈ owners)
    (hremove : poller.removeChannel c = some poller') (pfd : pollfd) :
    pfd ∈ poller'.pollfds_ ↔ pfd ∈ poller.pollfds_ ∧ slotFd pfd ≠ fd c := by
  obtain ⟨p, hp, ⟨owners', hbooks, hmem⟩, -⟩ := h.removeChannel_eq hfd hc
  obtain rfl : p = poller' := Option.some.inj (hp.symm.trans hremove)
  have hsubset := removeChannel_subset hremove
  constructor
  · intro hpfd
    refine ⟨hsubset hpfd, fun hslot => ?_⟩
    exact ((hmem c).1 ((hbooks.mem_owners_iff hfd).2 ⟨pfd, hpfd, hslot⟩)).2 rfl
  · rintro ⟨hpfd, hne⟩
    -- the channel of the entry is still there, with an entry that was there before
    have hslot : slotFd pfd ∈ owners.map fd := by
      rw [← h.slots]
      exact List.mem_map_of_mem hpfd
    obtain ⟨d, hd, hslotd⟩ := List.mem_map.1 hslot
    have hd' : d ∈ owners' := (hmem d).2 ⟨hd, fun heq => hne (heq ▸ hslotd.symm)⟩
    obtain ⟨pfd', hpfd', hslot'⟩ := (hbooks.mem_owners_iff hfd).1 hd'
    have hsame := h.entry_unique hfd hpfd (hsubset hpfd') (hslotd.symm.trans hslot'.symm)
    exact hsame ▸ hpfd'

/-- An update may give the channel its index; removing one may move the index of another. -/
theorem events_updateChannel (hupdate : poller.updateChannel c = some poller') (d : ι) :
    (poller'.channel d).events_ = (poller.channel d).events_ := by
  simp only [updateChannel] at hupdate
  split at hupdate
  · cases hupdate
    by_cases hd : d = c
    · subst hd
      simp [set_index]
    · simp [set_index, hd]
  · obtain ⟨_, -, heq⟩ := Option.bind_eq_some_iff.1 hupdate
    cases heq
    rfl

theorem events_removeChannel (hremove : poller.removeChannel c = some poller') (d : ι) :
    (poller'.channel d).events_ = (poller.channel d).events_ := by
  simp only [removeChannel, Option.bind_eq_bind, Option.bind_eq_some_iff] at hremove
  obtain ⟨_, -, hrest⟩ := hremove
  split at hrest
  · cases hrest
    rfl
  · obtain ⟨back, -, hrest⟩ := Option.bind_eq_some_iff.1 hrest
    obtain ⟨moved, -, heq⟩ := Option.bind_eq_some_iff.1 hrest
    cases heq
    by_cases hd : d = moved
    · subst hd
      simp [set_index]
    · simp [set_index, hd]

end PollPoller

namespace Polls

variable {ι : Type} [DecidableEq ι] {s : Polls ι} {c : ι} {events : Mask}

theorem step_updateChannel (hdefined : (step s (.updateChannel c events)).faulted = false) :
    ∃ poller, (setEvents s.poller c events).updateChannel c = some poller ∧
      step s (.updateChannel c events) =
        { s with poller, phase := Function.update s.phase c .registered } := by
  simp only [step] at hdefined ⊢
  cases hupdate : (setEvents s.poller c events).updateChannel c with
  | none =>
      simp [hupdate] at hdefined
  | some poller =>
      exact ⟨poller, rfl, rfl⟩

theorem step_removeChannel (hdefined : (step s (.removeChannel c)).faulted = false) :
    ∃ poller, s.poller.removeChannel c = some poller ∧
      step s (.removeChannel c) = { s with poller, phase := Function.update s.phase c .removed } := by
  simp only [step] at hdefined ⊢
  cases hremove : s.poller.removeChannel c with
  | none =>
      simp [hremove] at hdefined
  | some poller =>
      exact ⟨poller, rfl, rfl⟩

end Polls
end Poll

/-! ## Both pollers under the same calls -/

open Poll (Polls PollPoller Short)

structure Pollers (ι : Type) where
  epoll : Interests ι
  poll : Polls ι

namespace Pollers

variable {ι : Type} [DecidableEq ι]

def start (fd : ι → Int) : Pollers ι where
  epoll := .start fd
  poll := .start fd

/-- The call as it reaches `PollPoller`. -/
def event (s : Pollers ι) : ι × Call → Poll.Event ι
  | (c, .remove) => .removeChannel c
  | (c, call) => .updateChannel c (call.interest (s.poll.poller.channel c).events_)

def step (s : Pollers ι) (e : ι × Call) : Pollers ι where
  epoll := s.epoll.step e
  poll := s.poll.step (s.event e)

/-- Only a registered channel is removed, and a removed one is not updated again. -/
def Proper (s : Pollers ι) (e : ι × Call) : Prop := s.poll.Proper (s.event e)

instance (s : Pollers ι) (e : ι × Call) : Decidable (s.Proper e) :=
  inferInstanceAs (Decidable (s.poll.Proper (s.event e)))

/-- What `epoll_wait` watches the fd for, and the channel it reports. -/
def epollWatches (s : Pollers ι) (n : Int) : Option (Short × ι) :=
  (s.epoll.poller.epoll n).map fun entry => (entry.1.setWidth 16, entry.2)

/-- What `::poll` watches the fd for, and the channel that `fillActiveChannels` finds. -/
def pollWatches (s : Pollers ι) (n : Int) : Option (Short × ι) := do
  let pfd ← s.poll.poller.pollfds_.find? fun pfd => pfd.fd == n
  let c ← s.poll.poller.channels_.lookup n
  return (pfd.events, c)

def Agree (s : Pollers ι) : Prop := ∀ n, 0 ≤ n → s.pollWatches n = s.epollWatches n

/-- A channel that `EpollPoller` has deleted is not updated without interest once more. -/
def Awakens (s : Pollers ι) : ι × Call → Prop
  | (_, .remove) => True
  | (c, call) =>
      (s.epoll.channel c).index_ = .kDeleted → call.interest (s.epoll.channel c).events_ ≠ 0#32

instance (s : Pollers ι) : ∀ e, Decidable (s.Awakens e)
  | (_, .remove) => inferInstanceAs (Decidable True)
  | (c, .enableReading) | (c, .disableReading) | (c, .enableWriting) | (c, .disableWriting)
  | (c, .disableAll) => inferInstanceAs (Decidable ((s.epoll.channel c).index_ = .kDeleted → _ ≠ 0#32))

/-- The entry of the fd is one that `::poll` does not pass over. -/
def Shown (s : Pollers ι) (n : Int) : Prop := ∃ pfd ∈ s.poll.poller.pollfds_, pfd.fd = n

/-- What the calls keep, whether the pollers agree or not. -/
structure Inv (fd : ι → Int) (s : Pollers ι) : Prop where
  epoll : s.epoll.Inv
  poll : s.poll.Inv fd
  fd_eq : ∀ c, (s.epoll.channel c).fd_ = fd c
  events_eq : ∀ c, (s.poll.poller.channel c).events_ = (s.epoll.channel c).events_
  registered : ∀ c, s.poll.phase c = .registered ↔ (s.epoll.channel c).index_ ≠ .kNew
  entry : ∀ pfd ∈ s.poll.poller.pollfds_, ∀ c, PollPoller.slotFd pfd = fd c →
    pfd.events = (s.epoll.channel c).events_.setWidth 16

section watched

omit [DecidableEq ι]

variable {fd : ι → Int} {s : Pollers ι} {c : ι}

theorem inv_start (hfd : Function.Injective fd) : (start fd).Inv fd where
  epoll := Epoll.Interests.inv_start hfd
  poll := Polls.inv_start fd
  fd_eq := fun _ => rfl
  events_eq := fun _ => rfl
  registered := by simp [start, Polls.start, Interests.start, Epoll.Channel.new]
  entry := by simp [start, Polls.start]

/-! ### What is watched -/

theorem Inv.owners (h : s.Inv fd) : ∃ owners, s.poll.poller.Books fd owners ∧
    ∀ c, c ∈ owners ↔ (s.epoll.channel c).index_ ≠ .kNew := by
  obtain ⟨owners, hbooks, howners⟩ := h.poll.books
  exact ⟨owners, hbooks, fun c => (howners c).symm.trans (h.registered c)⟩

theorem Inv.epollWatches_eq (h : s.Inv fd) (c : ι) : s.epollWatches (fd c) =
    if (s.epoll.channel c).index_ = .kAdded then some ((s.epoll.channel c).events_.setWidth 16, c)
    else none := by
  rw [epollWatches, ← h.fd_eq, h.epoll.registered]
  split <;> rfl

/-- The entry of a shown fd stands for it. -/
theorem slotFd_of_shown {pfd : Poll.pollfd} (hnonneg : 0 ≤ pfd.fd) : PollPoller.slotFd pfd = pfd.fd :=
  if_neg (Int.not_lt.2 hnonneg)

theorem pollWatches_of_not_shown {n : Int} (hhidden : ¬ s.Shown n) : s.pollWatches n = none := by
  have hfind : (s.poll.poller.pollfds_.find? fun pfd => pfd.fd == n) = none := by
    rw [List.find?_eq_none]
    intro pfd hpfd heq
    exact hhidden ⟨pfd, hpfd, beq_iff_eq.1 heq⟩
  rw [pollWatches, hfind]
  rfl

theorem Inv.pollWatches_of_shown (h : s.Inv fd) (hfd : Function.Injective fd) (hnonneg : ∀ c, 0 ≤ fd c)
    (hshown : s.Shown (fd c)) :
    s.pollWatches (fd c) = some ((s.epoll.channel c).events_.setWidth 16, c) := by
  obtain ⟨pfd, hpfd, hn⟩ := hshown
  obtain ⟨owners, hbooks, -⟩ := h.owners
  cases hfind : s.poll.poller.pollfds_.find? fun pfd => pfd.fd == fd c with
  | none =>
      rw [List.find?_eq_none] at hfind
      exact absurd (beq_iff_eq.2 hn) (hfind pfd hpfd)
  | some found =>
      have hmem := List.mem_of_find?_eq_some hfind
      have heq : found.fd = fd c := by simpa using List.find?_some hfind
      have hslot : PollPoller.slotFd found = fd c := (slotFd_of_shown (heq ▸ hnonneg c)).trans heq
      have hlookup : s.poll.poller.channels_.lookup (fd c) = some c :=
        (hbooks.mapped _ _).2 ⟨(hbooks.mem_owners_iff hfd).2 ⟨found, hmem, hslot⟩, rfl⟩
      rw [pollWatches, hfind, Option.bind_eq_bind, Option.bind_some, hlookup, ← h.entry found hmem c hslot]
      rfl

/-- The pollers agree when the shown fds are those that `EpollPoller` has added. -/
theorem Inv.agree_iff (h : s.Inv fd) (hfd : Function.Injective fd) (hnonneg : ∀ c, 0 ≤ fd c) :
    s.Agree ↔ ∀ c, s.Shown (fd c) ↔ (s.epoll.channel c).index_ = .kAdded := by
  constructor
  · intro hagree c
    have hsame := hagree (fd c) (hnonneg c)
    rw [h.epollWatches_eq] at hsame
    constructor
    · intro hshown
      rw [h.pollWatches_of_shown hfd hnonneg hshown] at hsame
      by_contra hindex
      simp [hindex] at hsame
    · intro hindex
      by_contra hhidden
      rw [pollWatches_of_not_shown hhidden] at hsame
      simp [hindex] at hsame
  · intro hat n hn
    by_cases hc : ∃ c, fd c = n
    · obtain ⟨c, rfl⟩ := hc
      rw [h.epollWatches_eq]
      by_cases hindex : (s.epoll.channel c).index_ = .kAdded
      · rw [if_pos hindex, h.pollWatches_of_shown hfd hnonneg ((hat c).2 hindex)]
      · rw [if_neg hindex, pollWatches_of_not_shown fun hshown => hindex ((hat c).1 hshown)]
    · -- an fd without a channel has no entry anywhere
      have hother : s.epoll.poller.epoll n = none :=
        (h.epoll.others n fun c hfd' => hc ⟨c, (h.fd_eq c).symm.trans hfd'⟩).1
      obtain ⟨owners, hbooks, -⟩ := h.owners
      have hhidden : ¬ s.Shown n := by
        rintro ⟨pfd, hpfd, rfl⟩
        have hslot : pfd.fd ∈ owners.map fd := by
          rw [← hbooks.slots]
          exact List.mem_map.2 ⟨pfd, hpfd, slotFd_of_shown hn⟩
        obtain ⟨c, -, hfd'⟩ := List.mem_map.1 hslot
        exact hc ⟨c, hfd'⟩
      rw [pollWatches_of_not_shown hhidden, epollWatches, hother]
      rfl

end watched

/-! ### One call -/

section steps

variable {fd : ι → Int} {s : Pollers ι} {c : ι} {call : Call}

omit [DecidableEq ι] in
theorem event_of_ne (hcall : call ≠ .remove) (s : Pollers ι) (c : ι) :
    s.event (c, call) = .updateChannel c (call.interest (s.poll.poller.channel c).events_) := by
  cases call with
  | remove =>
      exact absurd rfl hcall
  | _ =>
      rfl

/-- What a call does to the entries: those of other fds stay, and `entries` say what becomes of its own. -/
structure Moves (fd : ι → Int) (s : Pollers ι) (c : ι) (call : Call) (own : Poll.pollfd → Prop) : Prop where
  inv : (s.step (c, call)).Inv fd
  entries : ∀ pfd, pfd ∈ (s.step (c, call)).poll.poller.pollfds_ ↔
    pfd ∈ s.poll.poller.pollfds_ ∧ PollPoller.slotFd pfd ≠ fd c ∨ own pfd

/-- The fds of other channels are shown as before. -/
theorem Moves.shown_of_ne {own : Poll.pollfd → Prop} (h : Moves fd s c call own)
    (hfd : Function.Injective fd) (hnonneg : ∀ c, 0 ≤ fd c)
    (hown : ∀ pfd, own pfd → PollPoller.slotFd pfd = fd c) {d : ι} (hd : d ≠ c) :
    (s.step (c, call)).Shown (fd d) ↔ s.Shown (fd d) := by
  have hother : ∀ pfd : Poll.pollfd, pfd.fd = fd d → PollPoller.slotFd pfd ≠ fd c := by
    intro pfd hpfd hslot
    rw [slotFd_of_shown (hpfd ▸ hnonneg d), hpfd] at hslot
    exact hd (hfd hslot)
  constructor
  · rintro ⟨pfd, hpfd, hn⟩
    rcases (h.entries pfd).1 hpfd with ⟨hold, -⟩ | hmine
    · exact ⟨pfd, hold, hn⟩
    · exact absurd (hown pfd hmine) (hother pfd hn)
  · rintro ⟨pfd, hpfd, hn⟩
    exact ⟨pfd, (h.entries pfd).2 (.inl ⟨hpfd, hother pfd hn⟩), hn⟩

theorem Moves.shown_self {own : Poll.pollfd → Prop} (h : Moves fd s c call own) (hnonneg : ∀ c, 0 ≤ fd c) :
    (s.step (c, call)).Shown (fd c) ↔ ∃ pfd, own pfd ∧ pfd.fd = fd c := by
  constructor
  · rintro ⟨pfd, hpfd, hn⟩
    rcases (h.entries pfd).1 hpfd with ⟨-, hne⟩ | hmine
    · exact absurd ((slotFd_of_shown (hn ▸ hnonneg c)).trans hn) hne
    · exact ⟨pfd, hmine, hn⟩
  · rintro ⟨pfd, hmine, hn⟩
    exact ⟨pfd, (h.entries pfd).2 (.inr hmine), hn⟩

theorem Inv.moves_remove (h : s.Inv fd) (hfd : Function.Injective fd) (hnonneg : ∀ c, 0 ≤ fd c)
    (hproper : s.Proper (c, .remove)) : Moves fd s c .remove fun _ => False := by
  have hpoll : (s.step (c, .remove)).poll.Inv fd := Polls.inv_step hfd hnonneg _ _ h.poll hproper
  obtain ⟨poller, hremove, hstep⟩ := Polls.step_removeChannel hpoll.defined
  have hphase : s.poll.phase c = .registered := hproper
  obtain ⟨owners, hbooks, howners⟩ := h.owners
  have hc : c ∈ owners := (howners c).2 ((h.registered c).1 hphase)
  have heffect := Interests.effect_remove h.epoll c
  have hpollfds : (s.step (c, .remove)).poll.poller = poller := congrArg Polls.poller hstep
  have hentries : ∀ pfd, pfd ∈ (s.step (c, .remove)).poll.poller.pollfds_ ↔
      pfd ∈ s.poll.poller.pollfds_ ∧ PollPoller.slotFd pfd ≠ fd c := by
    rw [hpollfds]
    exact hbooks.mem_removeChannel hfd hc hremove
  have hchannel : ∀ d, ((s.epoll.step (c, .remove)).channel d).events_ = (s.epoll.channel d).events_ := by
    intro d
    by_cases hd : d = c
    · rw [hd, heffect.channel_self]
    · rw [heffect.channel_of_ne hd]
  refine ⟨⟨Interests.inv_step s.epoll (c, .remove) h.epoll, hpoll, ?_, ?_, ?_, ?_⟩, fun pfd => by simp [hentries]⟩
  · intro d
    exact (heffect.fd_step d).trans (h.fd_eq d)
  · intro d
    rw [hpollfds, PollPoller.events_removeChannel hremove]
    exact (h.events_eq d).trans (hchannel d).symm
  · intro d
    have hphases : (s.step (c, .remove)).poll.phase = Function.update s.poll.phase c .removed :=
      congrArg Polls.phase hstep
    by_cases hd : d = c
    · have hindex := congrArg Epoll.Channel.index_ heffect.channel_self
      rw [hphases, hd]
      simp [step, hindex]
    · have hindex := congrArg Epoll.Channel.index_ (heffect.channel_of_ne hd)
      rw [hphases, Function.update_of_ne hd, h.registered d]
      simp [step, hindex]
  · intro pfd hpfd d hslot
    show pfd.events = ((s.epoll.step (c, .remove)).channel d).events_.setWidth 16
    rw [hchannel]
    exact h.entry pfd ((hentries pfd).1 hpfd).1 d hslot

/-- The entry an update leaves: a new channel is shown in any case, another one is hidden when it has no
interest. -/
def updated (fd : ι → Int) (s : Pollers ι) (c : ι) (call : Call) : Poll.pollfd where
  fd := if (s.epoll.channel c).index_ ≠ .kNew ∧ call.interest (s.epoll.channel c).events_ = 0#32 then -fd c - 1
    else fd c
  events := (call.interest (s.epoll.channel c).events_).setWidth 16
  revents := 0

omit [DecidableEq ι] in
theorem slotFd_updated (hnonneg : ∀ c, 0 ≤ fd c) (s : Pollers ι) (c : ι) (call : Call) :
    PollPoller.slotFd (updated fd s c call) = fd c := by
  have hn := hnonneg c
  simp only [PollPoller.slotFd, updated]
  split <;> split <;> omega

/-- The entries after the update, whether the channel is new or not. -/
theorem Inv.entries_update (h : s.Inv fd) (hfd : Function.Injective fd) (hcall : call ≠ .remove)
    (hproper : s.Proper (c, call)) {poller : PollPoller ι}
    (hupdate : (Polls.setEvents s.poll.poller c
      (call.interest (s.poll.poller.channel c).events_)).updateChannel c = some poller) (pfd : Poll.pollfd) :
    pfd ∈ poller.pollfds_ ↔
      pfd ∈ s.poll.poller.pollfds_ ∧ PollPoller.slotFd pfd ≠ fd c ∨ pfd = updated fd s c call := by
  obtain ⟨owners, hbooks, howners⟩ := h.owners
  have hset := hbooks.same (Polls.sameBooks_setEvents s.poll.poller c
    (call.interest (s.poll.poller.channel c).events_))
  rw [h.events_eq] at hset hupdate
  by_cases hc : c ∈ owners
  · have hindex := (howners c).1 hc
    have hentry := hset.mem_updateChannel_old hfd hc hupdate pfd
    simpa [Polls.setEvents, PollPoller.entryOf, updated, hindex, hbooks.fd_eq, Poll.Channel.isNoneEvent,
      Epoll.Channel.kNoneEvent] using hentry
  · have hindex : (s.epoll.channel c).index_ = .kNew := by
      by_contra hne
      exact hc ((howners c).2 hne)
    have hfresh : s.poll.phase c = .fresh := by
      rw [Proper, event_of_ne hcall] at hproper
      have hnew : s.poll.phase c ≠ .registered := fun hphase => (h.registered c).1 hphase hindex
      cases hphase : s.poll.phase c with
      | fresh =>
          rfl
      | registered =>
          exact absurd hphase hnew
      | removed =>
          exact absurd hphase hproper
    have hneg : ((Polls.setEvents s.poll.poller c
        (call.interest (s.epoll.channel c).events_)).channel c).index_ < 0 := by
      simpa [Polls.setEvents] using h.poll.fresh c hfresh
    have hentry := hset.mem_updateChannel_new hfd hc hneg hupdate pfd
    simpa [Polls.setEvents, PollPoller.entryOf, updated, hindex, hbooks.fd_eq] using hentry

theorem Inv.moves_update (h : s.Inv fd) (hfd : Function.Injective fd) (hnonneg : ∀ c, 0 ≤ fd c)
    (hcall : call ≠ .remove) (hproper : s.Proper (c, call)) :
    Moves fd s c call fun pfd => pfd = updated fd s c call := by
  have hpoll : (s.step (c, call)).poll.Inv fd := Polls.inv_step hfd hnonneg _ _ h.poll hproper
  have hstep : (s.step (c, call)).poll =
      s.poll.step (.updateChannel c (call.interest (s.poll.poller.channel c).events_)) :=
    congrArg s.poll.step (event_of_ne hcall s c)
  obtain ⟨poller, hupdate, hafter⟩ := Polls.step_updateChannel (hstep ▸ hpoll.defined)
  have hpollfds : (s.step (c, call)).poll.poller = poller := congrArg Polls.poller (hstep.trans hafter)
  have hphases : (s.step (c, call)).poll.phase = Function.update s.poll.phase c .registered :=
    congrArg Polls.phase (hstep.trans hafter)
  have hentries := h.entries_update hfd hcall hproper hupdate
  rw [← hpollfds] at hentries
  have heffect := Interests.effect_update h.epoll c hcall
  have hself : ((s.epoll.step (c, call)).channel c).events_ = call.interest (s.epoll.channel c).events_ := by
    rw [heffect.channel_self]
    rfl
  refine ⟨⟨Interests.inv_step s.epoll (c, call) h.epoll, hpoll, ?_, ?_, ?_, ?_⟩, hentries⟩
  · intro d
    exact (heffect.fd_step d).trans (h.fd_eq d)
  · intro d
    rw [hpollfds, PollPoller.events_updateChannel hupdate]
    show _ = ((s.epoll.step (c, call)).channel d).events_
    by_cases hd : d = c
    · rw [hd, hself, ← h.events_eq c]
      simp [Polls.setEvents]
    · rw [heffect.channel_of_ne hd, ← h.events_eq d]
      simp [Polls.setEvents, hd]
  · intro d
    rw [hphases]
    show _ ↔ ((s.epoll.step (c, call)).channel d).index_ ≠ .kNew
    by_cases hd : d = c
    · rw [hd, heffect.channel_self]
      simpa using Epoll.Channel.afterUpdate_ne_kNew _ _
    · rw [Function.update_of_ne hd, heffect.channel_of_ne hd]
      exact h.registered d
  · intro pfd hpfd d hslot
    show pfd.events = ((s.epoll.step (c, call)).channel d).events_.setWidth 16
    rcases (hentries pfd).1 hpfd with ⟨hold, hne⟩ | rfl
    · have hd : d ≠ c := by
        rintro rfl
        exact hne hslot
      rw [heffect.channel_of_ne hd]
      exact h.entry pfd hold d hslot
    · obtain rfl : d = c := hfd (hslot.symm.trans (slotFd_updated hnonneg s c call))
      rw [hself]
      rfl

theorem Inv.step (h : s.Inv fd) (hfd : Function.Injective fd) (hnonneg : ∀ c, 0 ≤ fd c) (e : ι × Call)
    (hproper : s.Proper e) : (s.step e).Inv fd := by
  obtain ⟨c, call⟩ := e
  by_cases hcall : call = .remove
  · subst hcall
    exact (h.moves_remove hfd hnonneg hproper).inv
  · exact (h.moves_update hfd hnonneg hcall hproper).inv

/-- The pollers agree after a call when they agree about its channel. -/
theorem Moves.agree_iff {own : Poll.pollfd → Prop} (hmoves : Moves fd s c call own) (h : s.Inv fd)
    (hfd : Function.Injective fd) (hnonneg : ∀ c, 0 ≤ fd c)
    (hown : ∀ pfd, own pfd → PollPoller.slotFd pfd = fd c) (hagree : s.Agree)
    (hothers : ∀ d ≠ c, (s.epoll.step (c, call)).channel d = s.epoll.channel d) :
    (s.step (c, call)).Agree ↔
      ((∃ pfd, own pfd ∧ pfd.fd = fd c) ↔ ((s.epoll.step (c, call)).channel c).index_ = .kAdded) := by
  rw [hmoves.inv.agree_iff hfd hnonneg, ← hmoves.shown_self hnonneg]
  rw [h.agree_iff hfd hnonneg] at hagree
  refine ⟨fun hat => hat c, fun hself d => ?_⟩
  by_cases hd : d = c
  · rw [hd]
    exact hself
  · have hsame : ((s.step (c, call)).epoll.channel d).index_ = (s.epoll.channel d).index_ :=
      congrArg Epoll.Channel.index_ (hothers d hd)
    rw [hmoves.shown_of_ne hfd hnonneg hown hd, hsame]
    exact hagree d

/-- **One call.** -/
theorem Inv.agree_step_iff (h : s.Inv fd) (hfd : Function.Injective fd) (hnonneg : ∀ c, 0 ≤ fd c)
    (e : ι × Call) (hproper : s.Proper e) (hagree : s.Agree) : (s.step e).Agree ↔ s.Awakens e := by
  obtain ⟨c, call⟩ := e
  by_cases hcall : call = .remove
  · subst hcall
    have heffect := Interests.effect_remove h.epoll c
    rw [(h.moves_remove hfd hnonneg hproper).agree_iff h hfd hnonneg (fun _ hnone => hnone.elim) hagree
      fun d hd => heffect.channel_of_ne hd, heffect.channel_self]
    simp [Awakens]
  · have heffect := Interests.effect_update h.epoll c hcall
    have hawakens : s.Awakens (c, call) ↔
        ((s.epoll.channel c).index_ = .kDeleted → call.interest (s.epoll.channel c).events_ ≠ 0#32) := by
      cases call with
      | remove =>
          exact absurd rfl hcall
      | _ =>
          exact Iff.rfl
    have hshown : (∃ pfd, pfd = updated fd s c call ∧ pfd.fd = fd c) ↔
        ((s.epoll.channel c).index_ ≠ .kNew → call.interest (s.epoll.channel c).events_ ≠ 0#32) := by
      have hn := hnonneg c
      rw [exists_eq_left, updated]
      split
      · next hhidden => simp [hhidden]; omega
      · next hshown => simpa using hshown
    rw [(h.moves_update hfd hnonneg hcall hproper).agree_iff h hfd hnonneg
      (fun _ heq => heq ▸ slotFd_updated hnonneg s c call) hagree fun d hd => heffect.channel_of_ne hd,
      heffect.channel_self, hshown, hawakens]
    cases hindex : (s.epoll.channel c).index_ with
    | kNew =>
        simp [Epoll.Channel.afterUpdate, hindex]
    | kAdded =>
        -- both stop watching when the interest is gone
        by_cases hnone : call.interest (s.epoll.channel c).events_ = 0#32
        · simp [Epoll.Channel.afterUpdate, hindex, hnone]
        · simp [Epoll.Channel.afterUpdate, hindex, hnone]
    | kDeleted =>
        -- `EpollPoller` adds the channel again, whatever its interest
        simp [Epoll.Channel.afterUpdate, hindex]

end steps

omit [DecidableEq ι] in
theorem agree_start (fd : ι → Int) : (start fd).Agree := fun _ _ => rfl

/-- **The pollers watch the same fds for the same events, in every state of a run, exactly when no channel
that `EpollPoller` has deleted is updated without interest once more.** -/
theorem agree_throughout_iff {fd : ι → Int} (hfd : Function.Injective fd) (hnonneg : ∀ c, 0 ≤ fd c)
    {es : List (ι × Call)} (h : Runs.Guarded step Proper (start fd) es) :
    Runs.Throughout step Agree (start fd) es ↔ Runs.Guarded step Awakens (start fd) es :=
  (h.guarded_iff_throughout_of_invariant (I := Inv fd) (fun _ e hs => hs.step hfd hnonneg e)
    (fun _ e hs hproper => hs.agree_step_iff hfd hnonneg e hproper) (inv_start hfd) (agree_start fd)).symm

/-- A channel that is closed twice: `EpollPoller` watches it for errors again, `PollPoller` does not. -/
theorem agree_throughout_iff_two :
    Runs.Throughout step Agree (start fun b : Bool => if b then 5 else 6)
        [(true, .enableReading), (false, .disableAll), (true, .disableAll), (true, .enableWriting)] ∧
      ¬ Runs.Throughout step Agree (start fun b : Bool => if b then 5 else 6)
        [(true, .enableReading), (true, .disableAll), (true, .disableAll)] := by
  have hfd : Function.Injective fun b : Bool => if b then (5 : Int) else 6 := by
    intro a b
    cases a <;> cases b <;> simp
  have hnonneg : ∀ b : Bool, 0 ≤ if b then (5 : Int) else 6 := by
    intro b
    cases b <;> simp
  constructor
  · exact (agree_throughout_iff hfd hnonneg (by decide)).2 (by decide)
  · rw [agree_throughout_iff hfd hnonneg (by decide)]
    decide

end Pollers

end Net
end Myoj
