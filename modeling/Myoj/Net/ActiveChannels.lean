import Mathlib.Data.Fintype.Card
import Myoj.Net.Polling

/-!
# ActiveChannels — what a round of either poller reports

`EpollPoller::poll` reads up to `events_.size()` answers, each with the channel in `data.ptr`, and doubles
`events_` when all of it was filled.  `PollPoller::poll` goes through `pollfds_` until it has seen as many
entries with events as `::poll` counted, and looks each fd up in `channels_`.

* `found`, `fill_found` — the counting loop makes exactly the channels of the entries with events active;
* `Waiting` — `events_` and the `revents_` that `EpollPoller` sets; `Answers`, what `epoll_wait` may answer;
* `Rounds` — `EpollPoller` over calls and rounds; `filled_le_card`, how many of the rounds can fill `events_`
  and so leave out a channel with events;
* `Loops` — both pollers over calls and rounds, the kernel answering both from the same readiness;
* `active_subperm` — in every round the channels that `EpollPoller` makes active are among those of
  `PollPoller`, with the same `revents_`, and all of them when `events_` was not filled, as long as the
  calls are such that the two agree about what to watch.
-/

namespace Myoj
namespace Net

open Epoll (Call Interests)

/-- What the kernel has to report of an fd: of the events it is asked for, and of errors and hang-ups in any
case, those the fd is ready for. -/
def pending {w : Nat} (ready : Mask) (events : BitVec w) : BitVec w :=
  ready.setWidth w &&& (events ||| EPOLLERR.setWidth w ||| EPOLLHUP.setWidth w)

theorem toNat_pending_lt {events : Mask} (hsmall : events.toNat < 2 ^ 3) (ready : Mask) :
    (pending ready events).toNat < 2 ^ 5 := by
  have hevents : events.toNat < 2 ^ 5 := hsmall.trans (by decide)
  have hasked : (events ||| EPOLLERR ||| EPOLLHUP).toNat < 2 ^ 5 := by
    rw [BitVec.toNat_or, BitVec.toNat_or]
    exact Nat.or_lt_two_pow (Nat.or_lt_two_pow hevents (by decide)) (by decide)
  rw [pending, BitVec.toNat_and]
  exact Nat.and_le_right.trans_lt hasked

theorem setWidth_pending (ready events : Mask) :
    pending ready (events.setWidth 16) = (pending ready events).setWidth 16 := by
  simp only [pending, BitVec.setWidth_and, BitVec.setWidth_or]
  simp

theorem toNat_setWidth_pending {events : Mask} (hsmall : events.toNat < 2 ^ 3) (ready : Mask) :
    (pending ready (events.setWidth 16)).toNat = (pending ready events).toNat := by
  have hlt := toNat_pending_lt hsmall ready
  rw [setWidth_pending, BitVec.toNat_setWidth]
  exact Nat.mod_eq_of_lt (hlt.trans (by decide))

theorem signExtend_pending {events : Mask} (hsmall : events.toNat < 2 ^ 3) (ready : Mask) :
    (pending ready (events.setWidth 16)).signExtend 32 = pending ready events := by
  have hlt := toNat_pending_lt hsmall ready
  have hsame := toNat_setWidth_pending hsmall ready
  have hmsb : (pending ready (events.setWidth 16)).msb = false := by
    rw [BitVec.msb_eq_false_iff_two_mul_lt, hsame]
    omega
  rw [BitVec.signExtend_eq_setWidth_of_msb_false hmsb]
  apply BitVec.eq_of_toNat_eq
  rw [BitVec.toNat_setWidth, hsame]
  exact Nat.mod_eq_of_lt (hlt.trans (by decide))

theorem slt_pending {events : Mask} (hsmall : events.toNat < 2 ^ 3) {ready : Mask}
    (hsome : pending ready (events.setWidth 16) ≠ 0#16) :
    (0#16).slt (pending ready (events.setWidth 16)) = true := by
  have hlt := toNat_pending_lt hsmall ready
  have hsame := toNat_setWidth_pending hsmall ready
  have hpos : 0 < (pending ready (events.setWidth 16)).toNat := by
    rw [Nat.pos_iff_ne_zero]
    exact fun hzero => hsome (BitVec.eq_of_toNat_eq hzero)
  have hint : (pending ready (events.setWidth 16)).toInt = (pending ready (events.setWidth 16)).toNat :=
    BitVec.toInt_eq_toNat_of_lt (by omega)
  rw [BitVec.slt_iff_toInt_lt, hint, BitVec.toInt_zero]
  exact_mod_cast hpos

theorem pending_setWidth_eq_zero_iff {events : Mask} (hsmall : events.toNat < 2 ^ 3) {ready : Mask} :
    pending ready (events.setWidth 16) = 0#16 ↔ pending ready events = 0#32 := by
  rw [← BitVec.toNat_inj, toNat_setWidth_pending hsmall, ← BitVec.toNat_inj]
  rfl

/-! ## The counting loop of `PollPoller` -/

namespace Poll
namespace PollPoller

variable {ι : Type} {fd : ι → Int} {owners : List ι} {poller : PollPoller ι} {c : ι}

/-- The events of each entry when the fds are ready as `ready` says. -/
def readyAt (poller : PollPoller ι) (ready : Int → Mask) (i : Nat) : Short :=
  match poller.pollfds_[i]? with
  | some pfd => pending (ready pfd.fd) pfd.events
  | none => 0

theorem answer_readyAt (poller : PollPoller ι) (ready : Int → Mask) :
    answer (poller.readyAt ready) poller.pollfds_ = poller.pollfds_.map fun pfd =>
      { pfd with revents := if pfd.fd < 0 then 0 else pending (ready pfd.fd) pfd.events } := by
  refine List.ext_getElem? fun i => ?_
  simp only [answer, List.getElem?_mapIdx, List.getElem?_map, readyAt]
  cases poller.pollfds_[i]? <;> rfl

/-- The channels of the entries with events. -/
def found (poller : PollPoller ι) (pollfds : List pollfd) : List ι :=
  pollfds.filterMap fun pfd => if pfd.revents = 0#16 then none else poller.channels_.lookup pfd.fd

theorem found_cons_of_zero {pfd : pollfd} (h : pfd.revents = 0#16) (rest : List pollfd) :
    poller.found (pfd :: rest) = poller.found rest := by
  rw [found, List.filterMap_cons, if_pos h]
  rfl

theorem found_cons_of_some {pfd : pollfd} (h : pfd.revents ≠ 0#16)
    (hc : poller.channels_.lookup pfd.fd = some c) (rest : List pollfd) :
    poller.found (pfd :: rest) = c :: poller.found rest := by
  rw [found, List.filterMap_cons, if_neg h, hc]
  rfl

theorem mem_found_iff {pollfds : List pollfd} :
    c ∈ poller.found pollfds ↔
      ∃ pfd ∈ pollfds, pfd.revents ≠ 0#16 ∧ poller.channels_.lookup pfd.fd = some c := by
  simp only [found, List.mem_filterMap]
  refine exists_congr fun pfd => and_congr_right fun _ => ?_
  by_cases hnone : pfd.revents = 0#16
  · rw [if_pos hnone]
    simp [hnone]
  · rw [if_neg hnone]
    simp [hnone]

/-- No channel is found twice. -/
theorem Books.nodup_found (h : poller.Books fd owners) (hfd : Function.Injective fd) {pollfds : List pollfd}
    (hsame : pollfds.map slotFd = poller.pollfds_.map slotFd) : (poller.found pollfds).Nodup := by
  have hslots : (pollfds.map pollfd.fd).Nodup := by
    have hnodup : (pollfds.map slotFd).Nodup := by
      rw [hsame, h.slots]
      exact h.placed.nodup.map hfd
    refine List.Nodup.of_map (fun n : Int => if n < 0 then -n - 1 else n) ?_
    rwa [List.map_map]
  have hsub : List.Sublist ((poller.found pollfds).map fd) (pollfds.map pollfd.fd) := by
    clear hsame hslots
    induction pollfds with
    | nil =>
        exact List.Sublist.refl _
    | cons pfd rest ih =>
        by_cases hnone : pfd.revents = 0#16
        · rw [found_cons_of_zero hnone]
          exact ih.cons pfd.fd
        · cases hlookup : poller.channels_.lookup pfd.fd with
          | none =>
              have hskip : poller.found (pfd :: rest) = poller.found rest := by
                rw [found, List.filterMap_cons, if_neg hnone, hlookup]
                rfl
              rw [hskip]
              exact ih.cons pfd.fd
          | some c =>
              have hn : fd c = pfd.fd := ((h.mapped _ _).1 hlookup).2
              rw [found_cons_of_some hnone hlookup, List.map_cons, List.map_cons, hn]
              exact ih.cons_cons pfd.fd
  exact List.Nodup.of_map fd (hslots.sublist hsub)

variable [DecidableEq ι]

theorem fill_of_nonpos {numEvents : Int} (h : ¬ 0 < numEvents) (pollfds : List pollfd)
    (x : PollPoller ι × List ι) : fill pollfds numEvents x = some x := by
  cases pollfds with
  | nil =>
      rfl
  | cons pfd rest =>
      rw [fill, if_neg h]

/-- The loop does not end before the last entry with events, and each channel gets those of its entry. -/
theorem fill_found {pollfds : List pollfd} {numEvents : Int} (poller : PollPoller ι) (active : List ι)
    (hcount : numEvents = pollfds.countP fun pfd => pfd.revents != 0)
    (hevents : ∀ pfd ∈ pollfds, pfd.revents ≠ 0#16 → (0#16).slt pfd.revents = true ∧
      ∃ c, poller.channels_.lookup pfd.fd = some c)
    (hnodup : (poller.found pollfds).Nodup) :
    ∃ poller', fill pollfds numEvents (poller, active) = some (poller', active ++ poller.found pollfds) ∧
      (∀ pfd ∈ pollfds, pfd.revents ≠ 0#16 → ∀ c, poller.channels_.lookup pfd.fd = some c →
        (poller'.channel c).revents_ = pfd.revents.signExtend 32) ∧
      ∀ d ∉ poller.found pollfds, poller'.channel d = poller.channel d := by
  induction pollfds generalizing numEvents poller active with
  | nil =>
      exact ⟨poller, by simp [fill, found], by simp, fun _ _ => rfl⟩
  | cons pfd rest ih =>
      have hrest : ∀ pfd ∈ rest, pfd.revents ≠ 0#16 → (0#16).slt pfd.revents = true ∧
          ∃ c, poller.channels_.lookup pfd.fd = some c :=
        fun pfd hpfd => hevents pfd (List.mem_cons_of_mem _ hpfd)
      by_cases hnone : pfd.revents = 0#16
      · -- an entry without events is passed over
        rw [found_cons_of_zero hnone] at hnodup ⊢
        obtain ⟨poller', hfill, hset, hframe⟩ :=
          ih poller active (hcount.trans (by simp [hnone])) hrest hnodup
        refine ⟨poller', ?_, ?_, hframe⟩
        · by_cases hpos : 0 < numEvents
          · have hzero : (0#16).slt pfd.revents = false := by
              rw [hnone]
              rfl
            rw [fill, if_pos hpos, if_neg (by simp [hzero])]
            exact hfill
          · rw [fill_of_nonpos hpos] at hfill ⊢
            exact hfill
        · intro pfd' hpfd' hne
          rcases List.mem_cons.1 hpfd' with rfl | hmem
          · exact absurd hnone hne
          · exact hset pfd' hmem hne
      · obtain ⟨hslt, c, hc⟩ := hevents pfd List.mem_cons_self hnone
        rw [found_cons_of_some hnone hc, List.nodup_cons] at hnodup
        have hone : numEvents - 1 = rest.countP fun pfd => pfd.revents != 0 := by
          rw [hcount, List.countP_cons_of_pos (by simpa using hnone)]
          simp
        obtain ⟨poller', hfill, hset, hframe⟩ :=
          ih (poller.set_revents c pfd.revents) (active ++ [c]) hone hrest hnodup.2
        refine ⟨poller', ?_, ?_, ?_⟩
        · have hpos : 0 < numEvents := by omega
          rw [fill, if_pos hpos, if_pos hslt, hc, found_cons_of_some hnone hc]
          rw [List.append_assoc] at hfill
          exact hfill
        · intro pfd' hpfd' hne d hd
          rcases List.mem_cons.1 hpfd' with rfl | hmem
          · -- nothing that comes later is for this channel
            obtain rfl : c = d := Option.some.inj (hc.symm.trans hd)
            rw [hframe c hnodup.1]
            simp [set_revents]
          · exact hset pfd' hmem hne d hd
        · intro d hd
          rw [found_cons_of_some hnone hc, List.mem_cons, not_or] at hd
          rw [hframe d hd.2]
          simp [set_revents, hd.1]

/-- What a round leaves alone, beside the books: which events are wanted of which fd. -/
structure SameInterest (before after : PollPoller ι) : Prop where
  asked_eq : (after.pollfds_.map fun pfd => (pfd.fd, pfd.events)) =
    before.pollfds_.map fun pfd => (pfd.fd, pfd.events)
  events_eq : ∀ c, (after.channel c).events_ = (before.channel c).events_

theorem fill_frame {poller' : PollPoller ι} {active active' : List ι} {pollfds : List pollfd} {numEvents : Int}
    (hfill : fill pollfds numEvents (poller, active) = some (poller', active')) :
    poller'.pollfds_ = poller.pollfds_ ∧
      ∀ c, (poller'.channel c).events_ = (poller.channel c).events_ := by
  induction pollfds generalizing numEvents poller active with
  | nil =>
      obtain ⟨rfl, -⟩ := Prod.mk.inj (Option.some.inj hfill)
      exact ⟨rfl, fun _ => rfl⟩
  | cons pfd rest ih =>
      rw [fill] at hfill
      split at hfill
      · split at hfill
        · obtain ⟨c, -, hrest⟩ := Option.bind_eq_some_iff.1 hfill
          obtain ⟨hpollfds, hevents⟩ := ih hrest
          refine ⟨hpollfds, fun d => (hevents d).trans ?_⟩
          by_cases hd : d = c
          · simp [set_revents, hd]
          · simp [set_revents, hd]
        · exact ih hfill
      · obtain ⟨rfl, -⟩ := Prod.mk.inj (Option.some.inj hfill)
        exact ⟨rfl, fun _ => rfl⟩

theorem poll_frame {poller' : PollPoller ι} {active : List ι} {ready : Option (Nat → Short)}
    (hpoll : poller.poll ready = some (poller', active)) :
    SameInterest poller poller' := by
  cases ready with
  | none =>
      obtain ⟨rfl, -⟩ := Prod.mk.inj (Option.some.inj hpoll)
      exact ⟨rfl, fun _ => rfl⟩
  | some ready =>
      have hanswer : ((answer ready poller.pollfds_).map fun pfd => (pfd.fd, pfd.events)) =
          poller.pollfds_.map fun pfd => (pfd.fd, pfd.events) := by
        refine List.ext_getElem? fun i => ?_
        simp only [answer, List.getElem?_map, List.getElem?_mapIdx]
        cases poller.pollfds_[i]? <;> rfl
      simp only [poll] at hpoll
      split at hpoll
      · obtain ⟨hpollfds, hevents⟩ := fill_frame hpoll
        exact ⟨hpollfds ▸ hanswer, hevents⟩
      · obtain ⟨rfl, -⟩ := Prod.mk.inj (Option.some.inj hpoll)
        exact ⟨hanswer, fun _ => rfl⟩

end PollPoller

namespace Polls
variable {ι : Type} [DecidableEq ι] {s : Polls ι}

theorem step_poll {ready : Option (Nat → Short)} (hdefined : (step s (.poll ready)).faulted = false) :
    ∃ poller active, s.poller.poll ready = some (poller, active) ∧ step s (.poll ready) = { s with poller } := by
  simp only [step] at hdefined ⊢
  cases hpoll : s.poller.poll ready with
  | none =>
      simp [hpoll] at hdefined
  | some x =>
      exact ⟨x.1, x.2, rfl, rfl⟩

end Polls
end Poll

/-! ## The loop of `EpollPoller` -/

namespace Epoll

/-- `events_.size()`, and the `revents_` of the channels. -/
structure Waiting (ι : Type) where
  size : Nat
  revents_ : ι → Mask

namespace Waiting

variable {ι : Type}

def kInitEventListSize : Nat := 16

def new : Waiting ι where
  size := kInitEventListSize
  revents_ := fun _ => 0#32

variable [DecidableEq ι]

def set_revents (waiting : Waiting ι) (c : ι) (revents : Mask) : Waiting ι :=
  { waiting with revents_ := Function.update waiting.revents_ c revents }

/-- The loop of `fillActiveChannels` over the rest of what was answered. -/
def fill : List (Mask × ι) → Waiting ι × List ι → Waiting ι × List ι
  | [], found => found
  | (events, c) :: rest, (waiting, activeChannels) =>
      fill rest (waiting.set_revents c events, activeChannels ++ [c])

def fillActiveChannels (waiting : Waiting ι) (events : List (Mask × ι)) : Waiting ι × List ι :=
  fill events (waiting, [])

/-- What `epoll_wait` wrote to `events_`, or an error. -/
def poll (waiting : Waiting ι) (events : Option (List (Mask × ι))) : Waiting ι × List ι :=
  match events with
  | none => (waiting, [])
  | some events =>
      if 0 < events.length then
        let filled := waiting.fillActiveChannels events
        if events.length = filled.1.size then ({ filled.1 with size := 2 * filled.1.size }, filled.2)
        else filled
      else (waiting, [])

theorem fill_eq {events : List (Mask × ι)} (waiting : Waiting ι) (active : List ι) :
    (fill events (waiting, active)).2 = active ++ events.map Prod.snd ∧
      (fill events (waiting, active)).1.size = waiting.size ∧
      ∀ c ∉ events.map Prod.snd, (fill events (waiting, active)).1.revents_ c = waiting.revents_ c := by
  induction events generalizing waiting active with
  | nil =>
      exact ⟨by simp [fill], rfl, fun _ _ => rfl⟩
  | cons event rest ih =>
      obtain ⟨hactive, hsize, hframe⟩ := ih (waiting.set_revents event.2 event.1) (active ++ [event.2])
      refine ⟨?_, hsize, ?_⟩
      · rw [fill, hactive, List.append_assoc]
        rfl
      · intro c hc
        rw [List.map_cons, List.mem_cons, not_or] at hc
        rw [fill, hframe c hc.2]
        exact Function.update_of_ne hc.1 _ _

theorem revents_fill {events : List (Mask × ι)} (hnodup : (events.map Prod.snd).Nodup) (waiting : Waiting ι)
    (active : List ι) {event : Mask × ι} (hevent : event ∈ events) :
    (fill events (waiting, active)).1.revents_ event.2 = event.1 := by
  induction events generalizing waiting active with
  | nil =>
      cases hevent
  | cons first rest ih =>
      rw [List.map_cons, List.nodup_cons] at hnodup
      rcases List.mem_cons.1 hevent with rfl | hmem
      · rw [fill, (fill_eq _ _).2.2 _ hnodup.1]
        exact Function.update_self _ _ _
      · exact ih hnodup.2 _ _ hmem

theorem active_poll (waiting : Waiting ι) (events : List (Mask × ι)) :
    (waiting.poll (some events)).2 = events.map Prod.snd := by
  simp only [poll]
  split
  · split <;> exact (fill_eq waiting []).1
  · next hnone =>
      rw [List.eq_nil_of_length_eq_zero (Nat.eq_zero_of_not_pos hnone)]
      rfl

theorem revents_poll {events : List (Mask × ι)} (hnodup : (events.map Prod.snd).Nodup) (waiting : Waiting ι)
    {event : Mask × ι} (hevent : event ∈ events) :
    (waiting.poll (some events)).1.revents_ event.2 = event.1 := by
  have hpos : 0 < events.length := List.length_pos_of_mem hevent
  simp only [poll, if_pos hpos]
  split <;> exact revents_fill hnodup waiting [] hevent

end Waiting

variable {ι : Type}

/-- What `epoll_wait` reports of the fds it chose. -/
def answered (set : EpollSet ι) (ready : Int → Mask) (fds : List Int) : List (Mask × ι) :=
  fds.filterMap fun n => (set n).map fun entry => (pending (ready n) entry.1, entry.2)

/-- The fds that `epoll_wait` may choose: registered ones with something to report, each once, no more than
there is room for, and all of them when there is room left. -/
structure Answers (set : EpollSet ι) (ready : Int → Mask) (size : Nat) (fds : List Int) : Prop where
  nodup : fds.Nodup
  fits : fds.length ≤ size
  reports : ∀ n ∈ fds, ∃ entry, set n = some entry ∧ pending (ready n) entry.1 ≠ 0#32
  all : fds.length < size → ∀ n entry, set n = some entry → pending (ready n) entry.1 ≠ 0#32 → n ∈ fds

theorem Answers.length_answered {set : EpollSet ι} {ready : Int → Mask} {size : Nat} {fds : List Int}
    (h : Answers set ready size fds) : (answered set ready fds).length = fds.length := by
  rw [answered, List.filterMap_length_eq_length]
  intro n hn
  obtain ⟨entry, hset, -⟩ := h.reports n hn
  simp [hset]

end Epoll

/-- A call on a channel, a round in which the kernel answers, or one that is interrupted. -/
inductive Turn (ι : Type) where
  | call (c : ι) (call : Call)
  | round (ready : Int → Mask) (fds : List Int)
  | interrupted

/-! ## How often `events_` is filled -/

namespace Epoll

/-- `EpollPoller` over calls and rounds. -/
structure Rounds (ι : Type) where
  interests : Interests ι
  waiting : Waiting ι

namespace Rounds

variable {ι : Type} [DecidableEq ι]

def start (fd : ι → Int) : Rounds ι where
  interests := .start fd
  waiting := .new

def events (s : Rounds ι) (ready : Int → Mask) (fds : List Int) : List (Mask × ι) :=
  answered s.interests.poller.epoll ready fds

def step (s : Rounds ι) : Turn ι → Rounds ι
  | .call c call => { s with interests := s.interests.step (c, call) }
  | .round ready fds => { s with waiting := (s.waiting.poll (some (s.events ready fds))).1 }
  | .interrupted => { s with waiting := (s.waiting.poll none).1 }

/-- Calls may be any; the kernel answers as `epoll_wait` does. -/
def Answered (s : Rounds ι) : Turn ι → Prop
  | .round ready fds => Answers s.interests.poller.epoll ready s.waiting.size fds
  | _ => True

/-- The round fills `events_`. -/
def Fills (s : Rounds ι) : Turn ι → Prop
  | .round _ fds => 0 < fds.length ∧ fds.length = s.waiting.size
  | _ => False

instance (s : Rounds ι) : ∀ turn, Decidable (s.Fills turn)
  | .round _ fds => inferInstanceAs (Decidable (0 < fds.length ∧ fds.length = s.waiting.size))
  | .call _ _ | .interrupted => inferInstanceAs (Decidable False)

/-- Some fd has events and is not reported. -/
def LeavesOut (s : Rounds ι) : Turn ι → Prop
  | .round ready fds => ∃ n entry, s.interests.poller.epoll n = some entry ∧
      pending (ready n) entry.1 ≠ 0#32 ∧ n ∉ fds
  | _ => False

/-- How many rounds of the run fill `events_`. -/
def filled : Rounds ι → List (Turn ι) → Nat
  | _, [] => 0
  | s, turn :: turns => (if s.Fills turn then 1 else 0) + filled (s.step turn) turns

/-- Every fd in the epoll set is that of a channel, whatever was called. -/
structure Inv (fd : ι → Int) (s : Rounds ι) : Prop where
  fd_eq : ∀ c, (s.interests.channel c).fd_ = fd c
  registered : ∀ n entry, s.interests.poller.epoll n = some entry → n ∈ Set.range fd
  room : 0 < s.waiting.size

section rounds

variable {fd : ι → Int} {s : Rounds ι} {turn : Turn ι}

omit [DecidableEq ι] in
theorem inv_start (fd : ι → Int) : (start fd).Inv fd where
  fd_eq := fun _ => rfl
  registered := by
    intro n entry hentry
    cases hentry
  room := Nat.zero_lt_succ 15

/-- A round that fills `events_` doubles it. -/
theorem size_step (hanswered : s.Answered turn) :
    (s.step turn).waiting.size = s.waiting.size * 2 ^ (if s.Fills turn then 1 else 0) := by
  cases turn with
  | call c call =>
      exact (Nat.mul_one _).symm
  | interrupted =>
      exact (Nat.mul_one _).symm
  | round ready fds =>
      have hlength : (s.events ready fds).length = fds.length := hanswered.length_answered
      have hsize : (s.waiting.fillActiveChannels (s.events ready fds)).1.size = s.waiting.size :=
        (Waiting.fill_eq s.waiting []).2.1
      show (s.waiting.poll (some (s.events ready fds))).1.size = _
      simp only [Waiting.poll, hlength, hsize]
      by_cases hfills : s.Fills (.round ready fds)
      · rw [if_pos hfills.1, if_pos hfills.2, if_pos hfills, pow_one, Nat.mul_comm]
      · rw [if_neg hfills, pow_zero, Nat.mul_one]
        by_cases hpos : 0 < fds.length
        · rw [if_pos hpos, if_neg fun hfull => hfills ⟨hpos, hfull⟩, hsize]
        · rw [if_neg hpos]

theorem Inv.call (h : s.Inv fd) (c : ι) (call : Call) : (s.step (.call c call)).Inv fd := by
  obtain ⟨hown, hothers⟩ := call.run_frame c { poller := s.interests.poller, channel := s.interests.channel c }
  refine ⟨fun d => ?_, fun n entry hentry => ?_, h.room⟩
  · by_cases hd : d = c
    · subst hd
      simp only [step, Interests.step, Function.update_self, hown, h.fd_eq]
    · simp only [step, Interests.step, Function.update_of_ne hd, h.fd_eq]
  · by_cases hn : n = (s.interests.channel c).fd_
    · exact ⟨c, by rw [hn, h.fd_eq]⟩
    · exact h.registered n entry ((hothers n hn).symm.trans hentry)

theorem inv_step (s : Rounds ι) (turn : Turn ι) (h : s.Inv fd) (hanswered : s.Answered turn) :
    (s.step turn).Inv fd := by
  cases turn with
  | call c call =>
      exact h.call c call
  | round ready fds =>
      refine ⟨h.fd_eq, h.registered, ?_⟩
      rw [size_step hanswered]
      exact Nat.mul_pos h.room (Nat.pow_pos Nat.two_pos)
  | interrupted =>
      exact h

omit [DecidableEq ι] in
/-- What fills `events_` are fds of different channels. -/
theorem Inv.fills_le [Fintype ι] (h : s.Inv fd) (hanswered : s.Answered turn) (hfills : s.Fills turn) :
    s.waiting.size ≤ Fintype.card ι := by
  cases turn with
  | call c call =>
      exact hfills.elim
  | interrupted =>
      exact hfills.elim
  | round ready fds =>
      have hmap : fds ∈ Set.range (List.map fd) := by
        rw [Set.range_list_map]
        intro n hn
        obtain ⟨entry, hentry, -⟩ := hanswered.reports n hn
        exact h.registered n entry hentry
      obtain ⟨cs, rfl⟩ := hmap
      rw [← hfills.2, List.length_map]
      exact (List.Nodup.of_map fd hanswered.nodup).length_le_card

omit [DecidableEq ι] in
theorem Inv.fills_of_leavesOut (h : s.Inv fd) (hanswered : s.Answered turn) (hout : s.LeavesOut turn) :
    s.Fills turn := by
  cases turn with
  | call c call =>
      exact hout.elim
  | interrupted =>
      exact hout.elim
  | round ready fds =>
      obtain ⟨n, entry, hentry, hpending, hn⟩ := hout
      have hfull : fds.length = s.waiting.size := by
        by_contra hne
        have hfits : fds.length ≤ s.waiting.size := hanswered.fits
        exact hn (hanswered.all (by omega) n entry hentry hpending)
      have hroom := h.room
      exact ⟨by omega, hfull⟩

theorem Inv.filled_le [Fintype ι] (h : s.Inv fd) {turns : List (Turn ι)}
    (hanswered : Runs.Guarded step Answered s turns) :
    s.waiting.size * 2 ^ s.filled turns ≤ max s.waiting.size (2 * Fintype.card ι) := by
  induction turns generalizing s with
  | nil =>
      simp [filled]
  | cons turn turns ih =>
      obtain ⟨hturn, hrest⟩ := hanswered
      have hnext := ih (inv_step s turn h hturn) hrest
      have hsize := size_step hturn
      rw [filled, pow_add, ← Nat.mul_assoc, ← hsize]
      refine hnext.trans (max_le ?_ (le_max_right _ _))
      rw [hsize]
      by_cases hfills : s.Fills turn
      · have hle := h.fills_le hturn hfills
        rw [if_pos hfills, pow_one]
        exact le_max_of_le_right (by omega)
      · rw [if_neg hfills, pow_zero, Nat.mul_one]
        exact le_max_left _ _

end rounds

/-- **Only so many rounds of a run fill `events_`**, since each of them doubles it, and a channel with events
is left out in no other round. -/
theorem filled_le_card [Fintype ι] (fd : ι → Int) {turns : List (Turn ι)}
    (h : Runs.Guarded step Answered (start fd) turns) :
    Waiting.kInitEventListSize * 2 ^ (start fd).filled turns ≤
        max Waiting.kInitEventListSize (2 * Fintype.card ι) ∧
      Runs.Guarded step (fun s turn => s.LeavesOut turn → s.Fills turn) (start fd) turns :=
  ⟨(inv_start fd).filled_le h,
    h.weaken inv_step (fun _ _ hs hanswered => hs.fills_of_leavesOut hanswered) (inv_start fd)⟩

/-- Seventeen channels, of which sixteen are reported. -/
theorem filled_le_card_seventeen :
    let fd : Fin 17 → Int := fun c => c.val + 5
    let enable : List (Turn (Fin 17)) := (List.finRange 17).map fun c => .call c .enableReading
    let turns := enable ++ [.round (fun _ => EPOLLIN) ((List.finRange 16).map fun c => c.val + 5)]
    (start fd).filled turns = 1 ∧
      Waiting.kInitEventListSize * 2 ^ (start fd).filled turns ≤
        max Waiting.kInitEventListSize (2 * Fintype.card (Fin 17)) ∧
      Runs.Guarded step (fun s turn => s.LeavesOut turn → s.Fills turn) (start fd) turns := by
  intro fd enable turns
  refine ⟨by decide +kernel, filled_le_card fd (Runs.guarded_append.2 ⟨?_, ⟨?_, trivial⟩⟩)⟩
  · have hcalls : ∀ turn ∈ enable, ∀ s : Rounds (Fin 17), s.Answered turn := by
      intro turn hturn s
      obtain ⟨c, -, rfl⟩ := List.mem_map.1 hturn
      trivial
    have hguard : ∀ turn ∈ enable, turn ∈ enable := fun _ hturn => hturn
    exact Runs.Guarded.weaken (I := fun _ => True) (fun _ _ _ _ => trivial)
      (fun s turn _ hturn => hcalls turn hturn s) trivial (Runs.guarded_const_iff.2 hguard)
  · refine ⟨by decide +kernel, by decide +kernel, ?_, ?_⟩
    · have hreported : ∀ n ∈ (List.finRange 16).map (fun c => (c.val : Int) + 5),
          ((enable.foldl step (start fd)).interests.poller.epoll n).any
            (fun entry => pending EPOLLIN entry.1 != 0#32) = true := by decide +kernel
      intro n hn
      obtain ⟨entry, hentry, hpending⟩ := (Option.any_eq_true _ _).1 (hreported n hn)
      exact ⟨entry, hentry, by simpa using hpending⟩
    · intro hroom
      exact absurd hroom (by decide +kernel)

end Rounds

end Epoll

/-! ## Both loops -/

open Poll (Polls PollPoller)

namespace Pollers
variable {ι : Type} {fd : ι → Int} {s : Pollers ι} {c : ι}

/-- The entries of `::poll` after the kernel's answer. -/
abbrev answered (s : Pollers ι) (ready : Int → Mask) : List Poll.pollfd :=
  PollPoller.answer (s.poll.poller.readyAt ready) s.poll.poller.pollfds_

/-- An entry with events is the shown one of a channel. -/
theorem Inv.entry_answered (h : s.Inv fd) {ready : Int → Mask} {pfd : Poll.pollfd}
    (hpfd : pfd ∈ s.answered ready) (hevents : pfd.revents ≠ 0#16) :
    ∃ c, s.Shown (fd c) ∧ pfd.fd = fd c ∧ s.poll.poller.channels_.lookup (fd c) = some c ∧
      pfd.revents = pending (ready (fd c)) ((s.epoll.channel c).events_.setWidth 16) := by
  obtain ⟨owners, hbooks, -⟩ := h.owners
  rw [answered, PollPoller.answer_readyAt, List.mem_map] at hpfd
  obtain ⟨old, hold, rfl⟩ := hpfd
  have hshown : ¬ old.fd < 0 := by
    intro hneg
    exact hevents (if_pos hneg)
  have hslot : PollPoller.slotFd old = old.fd := if_neg hshown
  have hmem : old.fd ∈ owners.map fd := by
    rw [← hbooks.slots, ← hslot]
    exact List.mem_map_of_mem hold
  obtain ⟨c, hc, hn⟩ := List.mem_map.1 hmem
  refine ⟨c, ⟨old, hold, hn.symm⟩, hn.symm, (hbooks.mapped _ _).2 ⟨hc, rfl⟩, ?_⟩
  show (if old.fd < 0 then 0 else pending (ready old.fd) old.events) = _
  rw [if_neg hshown, h.entry old hold c (hslot.trans hn.symm), hn]

/-- The shown entry of a channel, after the kernel's answer. -/
theorem Inv.answered_of_shown (h : s.Inv fd) (hnonneg : ∀ c, 0 ≤ fd c) (hshown : s.Shown (fd c))
    (ready : Int → Mask) : ∃ pfd ∈ s.answered ready, pfd.fd = fd c ∧
      pfd.revents = pending (ready (fd c)) ((s.epoll.channel c).events_.setWidth 16) := by
  obtain ⟨old, hold, hn⟩ := hshown
  have hslot : PollPoller.slotFd old = fd c := (slotFd_of_shown (hn ▸ hnonneg c)).trans hn
  rw [answered, PollPoller.answer_readyAt]
  refine ⟨_, List.mem_map_of_mem hold, hn, ?_⟩
  show (if old.fd < 0 then 0 else pending (ready old.fd) old.events) = _
  rw [if_neg (by rw [hn]; exact Int.not_lt.2 (hnonneg c)), h.entry old hold c hslot, hn]

/-- **What `epoll_wait` answers**: the channels behind the fds it chose, each with what is pending. -/
theorem Inv.epoll_answered (h : s.Inv fd) (hfd : Function.Injective fd) {ready : Int → Mask} {size : Nat}
    {fds : List Int} (hanswers : Epoll.Answers s.epoll.poller.epoll ready size fds) :
    ∃ cs : List ι, fds = cs.map fd ∧ cs.Nodup ∧
      Epoll.answered s.epoll.poller.epoll ready fds =
        cs.map (fun c => (pending (ready (fd c)) (s.epoll.channel c).events_, c)) ∧
      (∀ c ∈ cs, (s.epoll.channel c).index_ = .kAdded ∧
        pending (ready (fd c)) (s.epoll.channel c).events_ ≠ 0#32) ∧
      (fds.length < size → ∀ c, (s.epoll.channel c).index_ = .kAdded →
        pending (ready (fd c)) (s.epoll.channel c).events_ ≠ 0#32 → c ∈ cs) := by
  have hentry : ∀ c, s.epoll.poller.epoll (fd c) =
      if (s.epoll.channel c).index_ = .kAdded then some ((s.epoll.channel c).events_, c) else none := by
    intro c
    rw [← h.fd_eq, h.epoll.registered]
  have hrange : ∀ n ∈ fds, n ∈ Set.range fd := by
    intro n hn
    obtain ⟨entry, hset, -⟩ := hanswers.reports n hn
    by_contra hout
    have hnone := (h.epoll.others n fun c hc => hout ⟨c, (h.fd_eq c).symm.trans hc⟩).1
    rw [hset] at hnone
    cases hnone
  have hmap : fds ∈ Set.range (List.map fd) := by
    rw [Set.range_list_map]
    exact hrange
  obtain ⟨cs, rfl⟩ := hmap
  have hpending : ∀ c ∈ cs, (s.epoll.channel c).index_ = .kAdded ∧
      pending (ready (fd c)) (s.epoll.channel c).events_ ≠ 0#32 := by
    intro c hc
    obtain ⟨entry, hset, hsome⟩ := hanswers.reports (fd c) (List.mem_map_of_mem hc)
    rw [hentry] at hset
    split at hset
    · next hadded =>
        obtain rfl := Option.some.inj hset
        exact ⟨hadded, hsome⟩
    · cases hset
  refine ⟨cs, rfl, List.Nodup.of_map fd hanswers.nodup, ?_, hpending, ?_⟩
  · rw [Epoll.answered, List.filterMap_map, ← List.filterMap_eq_map]
    refine List.filterMap_congr fun c hc => ?_
    simp only [Function.comp_apply, hentry c, if_pos (hpending c hc).1]
    rfl
  · intro hroom c hadded hsome
    have hmem := hanswers.all hroom (fd c) ((s.epoll.channel c).events_, c)
      (by rw [hentry, if_pos hadded]) hsome
    exact (List.mem_map_of_injective hfd).1 hmem

variable [DecidableEq ι]

/-- **What `PollPoller::poll` makes active.** -/
theorem Inv.poll_active (h : s.Inv fd) (hfd : Function.Injective fd) (hnonneg : ∀ c, 0 ≤ fd c)
    (hsmall : ∀ c, (s.epoll.channel c).events_.toNat < 2 ^ 3) (ready : Int → Mask) :
    ∃ poller' active, s.poll.poller.poll (some (s.poll.poller.readyAt ready)) = some (poller', active) ∧
      active.Nodup ∧
      (∀ c, c ∈ active ↔ s.Shown (fd c) ∧ pending (ready (fd c)) (s.epoll.channel c).events_ ≠ 0#32) ∧
      ∀ c ∈ active, (poller'.channel c).revents_ = pending (ready (fd c)) (s.epoll.channel c).events_ := by
  obtain ⟨owners, hbooks, -⟩ := h.owners
  let poller : PollPoller ι := { s.poll.poller with pollfds_ := s.answered ready }
  have hnodup : (poller.found (s.answered ready)).Nodup :=
    hbooks.nodup_found hfd (s.poll.poller.sameBooks_answer _).slots_eq
  have hmem : ∀ c, c ∈ poller.found (s.answered ready) ↔
      s.Shown (fd c) ∧ pending (ready (fd c)) (s.epoll.channel c).events_ ≠ 0#32 := by
    intro c
    rw [PollPoller.mem_found_iff]
    constructor
    · rintro ⟨pfd, hpfd, hevents, hlookup⟩
      obtain ⟨d, hshown, hn, hd, hrevents⟩ := h.entry_answered hpfd hevents
      obtain rfl : d = c := by
        rw [hn] at hlookup
        exact Option.some.inj (hd.symm.trans hlookup)
      rw [hrevents, Ne, pending_setWidth_eq_zero_iff (hsmall d)] at hevents
      exact ⟨hshown, hevents⟩
    · rintro ⟨hshown, hpending⟩
      obtain ⟨pfd, hpfd, hn, hrevents⟩ := h.answered_of_shown hnonneg hshown ready
      have hevents : pfd.revents ≠ 0#16 := by
        rwa [hrevents, Ne, pending_setWidth_eq_zero_iff (hsmall c)]
      obtain ⟨d, -, hd, hlookup, -⟩ := h.entry_answered hpfd hevents
      obtain rfl : d = c := hfd (hd.symm.trans hn)
      exact ⟨pfd, hpfd, hevents, hd ▸ hlookup⟩
  obtain ⟨poller', hfill, hset, -⟩ := PollPoller.fill_found poller [] rfl (by
    intro pfd hpfd hevents
    obtain ⟨c, -, hn, hlookup, hrevents⟩ := h.entry_answered hpfd hevents
    refine ⟨?_, c, hn ▸ hlookup⟩
    rw [hrevents] at hevents ⊢
    exact slt_pending (hsmall c) hevents) hnodup
  by_cases hpos : (0 : Int) < ((s.answered ready).countP fun pfd => pfd.revents != 0 : Nat)
  · refine ⟨poller', _, ?_, hnodup, hmem, ?_⟩
    · rw [List.nil_append] at hfill
      show (if _ then _ else _) = _
      rw [if_pos hpos]
      exact hfill
    · intro c hc
      obtain ⟨pfd, hpfd, hevents, hlookup⟩ := PollPoller.mem_found_iff.1 hc
      obtain ⟨d, -, hn, hd, hrevents⟩ := h.entry_answered hpfd hevents
      obtain rfl : d = c := by
        rw [hn] at hlookup
        exact Option.some.inj (hd.symm.trans hlookup)
      rw [hset pfd hpfd hevents d hlookup, hrevents, signExtend_pending (hsmall d)]
  · -- nothing has events, so that nothing is found
    have hnone : poller.found (s.answered ready) = [] := by
      rw [List.eq_nil_iff_forall_not_mem]
      intro c hc
      obtain ⟨pfd, hpfd, hevents, -⟩ := PollPoller.mem_found_iff.1 hc
      have hcount : 0 < (s.answered ready).countP fun pfd => pfd.revents != 0 :=
        List.countP_pos_iff.2 ⟨pfd, hpfd, by simpa using hevents⟩
      omega
    refine ⟨poller, [], ?_, List.nodup_nil, ?_, ?_⟩
    · show (if _ then _ else _) = _
      rw [if_neg hpos]
    · rw [← hnone]
      exact hmem
    · simp

end Pollers

structure Loops (ι : Type) where
  pollers : Pollers ι
  waiting : Epoll.Waiting ι

namespace Loops

variable {ι : Type} [DecidableEq ι]

def start (fd : ι → Int) : Loops ι where
  pollers := .start fd
  waiting := .new

/-- What `epoll_wait` answers. -/
def events (s : Loops ι) (ready : Int → Mask) (fds : List Int) : List (Mask × ι) :=
  Epoll.answered s.pollers.epoll.poller.epoll ready fds

/-- The poller of `::poll`, asked for the same fds. -/
def round (s : Loops ι) (answer : Option (Int → Mask)) : Pollers ι :=
  { s.pollers with
    poll := s.pollers.poll.step (.poll (answer.map s.pollers.poll.poller.readyAt)) }

def step (s : Loops ι) : Turn ι → Loops ι
  | .call c call => { s with pollers := s.pollers.step (c, call) }
  | .round ready fds =>
      { pollers := s.round (some ready), waiting := (s.waiting.poll (some (s.events ready fds))).1 }
  | .interrupted => { pollers := s.round none, waiting := (s.waiting.poll none).1 }

/-- The calls are those both pollers agree about, the answers such as `epoll_wait` gives. -/
def Meets (s : Loops ι) : Turn ι → Prop
  | .call c call => s.pollers.Proper (c, call) ∧ s.pollers.Awakens (c, call)
  | .round ready fds => Epoll.Answers s.pollers.epoll.poller.epoll ready s.waiting.size fds
  | .interrupted => True

structure Inv (fd : ι → Int) (s : Loops ι) : Prop where
  pollers : s.pollers.Inv fd
  agree : s.pollers.Agree
  /-- Nothing but reading and writing is ever asked for. -/
  small : ∀ c, (s.pollers.epoll.channel c).events_.toNat < 2 ^ 3

section invariant

variable {fd : ι → Int} {s : Loops ι}

theorem interest_small {events : Mask} (hsmall : events.toNat < 2 ^ 3) (call : Call) :
    (call.interest events).toNat < 2 ^ 3 := by
  cases call with
  | enableReading =>
      rw [Call.interest, BitVec.toNat_or]
      exact Nat.or_lt_two_pow hsmall (by decide)
  | enableWriting =>
      rw [Call.interest, BitVec.toNat_or]
      exact Nat.or_lt_two_pow hsmall (by decide)
  | disableReading | disableWriting =>
      rw [Call.interest, BitVec.toNat_and]
      exact Nat.and_le_left.trans_lt hsmall
  | disableAll =>
      show (0#32).toNat < 2 ^ 3
      decide
  | remove =>
      exact hsmall

omit [DecidableEq ι] in
theorem inv_start (hfd : Function.Injective fd) : (start fd).Inv fd where
  pollers := Pollers.inv_start hfd
  agree := Pollers.agree_start fd
  small := by
    intro c
    show (0#32).toNat < 2 ^ 3
    decide

theorem small_step (h : s.Inv fd) (c : ι) (call : Call) (d : ι) :
    ((s.pollers.epoll.step (c, call)).channel d).events_.toNat < 2 ^ 3 := by
  by_cases hcall : call = .remove
  · subst hcall
    have heffect := Interests.effect_remove h.pollers.epoll c
    by_cases hd : d = c
    · rw [hd, heffect.channel_self]
      exact h.small c
    · rw [heffect.channel_of_ne hd]
      exact h.small d
  · have heffect := Interests.effect_update h.pollers.epoll c hcall
    by_cases hd : d = c
    · rw [hd, heffect.channel_self]
      exact interest_small (h.small c) call
    · rw [heffect.channel_of_ne hd]
      exact h.small d

/-- A round changes nothing of what the pollers watch. -/
theorem Inv.round (h : s.Inv fd) (hfd : Function.Injective fd) (hnonneg : ∀ c, 0 ≤ fd c)
    (answer : Option (Int → Mask)) : (s.round answer).Inv fd ∧ (s.round answer).Agree := by
  have hpoll : (s.round answer).poll.Inv fd := h.pollers.poll.poll _
  obtain ⟨poller, active, hround, hafter⟩ := Polls.step_poll hpoll.defined
  have hsame := PollPoller.poll_frame hround
  have hpoller : (s.round answer).poll.poller = poller := congrArg Polls.poller hafter
  have hinv : (s.round answer).Inv fd := by
    refine ⟨h.pollers.epoll, hpoll, h.pollers.fd_eq, ?_, ?_, ?_⟩
    · intro c
      rw [hpoller, hsame.events_eq]
      exact h.pollers.events_eq c
    · intro c
      have hphase : (s.round answer).poll.phase = s.pollers.poll.phase := by
        rw [Loops.round, hafter]
      rw [hphase]
      exact h.pollers.registered c
    · intro pfd hpfd c hslot
      rw [hpoller] at hpfd
      have hmem := List.mem_map_of_mem (f := fun pfd : Poll.pollfd => (pfd.fd, pfd.events)) hpfd
      rw [hsame.asked_eq, List.mem_map] at hmem
      obtain ⟨old, hold, heq⟩ := hmem
      obtain ⟨hn, hevents⟩ := Prod.mk.inj heq
      rw [← hevents]
      refine h.pollers.entry old hold c ?_
      rw [← hslot, PollPoller.slotFd, PollPoller.slotFd, hn]
  refine ⟨hinv, ?_⟩
  have hshown : ∀ n, (s.round answer).Shown n ↔ s.pollers.Shown n := by
    have hfds : poller.pollfds_.map Poll.pollfd.fd = s.pollers.poll.poller.pollfds_.map Poll.pollfd.fd := by
      have hasked := congrArg (List.map Prod.fst) hsame.asked_eq
      rw [List.map_map, List.map_map] at hasked
      exact hasked
    intro n
    rw [Pollers.Shown, Pollers.Shown, hpoller, ← List.mem_map, ← List.mem_map, hfds]
  rw [hinv.agree_iff hfd hnonneg]
  intro c
  rw [hshown]
  exact (h.pollers.agree_iff hfd hnonneg).1 h.agree c

theorem inv_step (hfd : Function.Injective fd) (hnonneg : ∀ c, 0 ≤ fd c) (s : Loops ι) (turn : Turn ι)
    (h : s.Inv fd) (hmeets : s.Meets turn) : (s.step turn).Inv fd := by
  cases turn with
  | call c call =>
      obtain ⟨hproper, hawakens⟩ := hmeets
      exact ⟨h.pollers.step hfd hnonneg (c, call) hproper,
        (h.pollers.agree_step_iff hfd hnonneg (c, call) hproper h.agree).2 hawakens, small_step h c call⟩
  | round ready fds =>
      obtain ⟨hinv, hagree⟩ := h.round hfd hnonneg (some ready)
      exact ⟨hinv, hagree, h.small⟩
  | interrupted =>
      obtain ⟨hinv, hagree⟩ := h.round hfd hnonneg none
      exact ⟨hinv, hagree, h.small⟩

/-- A round in the state, on both sides: what is made active and the `revents_` it is handed. -/
structure SameRound (s : Loops ι) (ready : Int → Mask) (fds : List Int) (poller : PollPoller ι)
    (active : List ι) : Prop where
  defined : s.pollers.poll.poller.poll (some (s.pollers.poll.poller.readyAt ready)) = some (poller, active)
  subperm : List.Subperm (s.waiting.poll (some (s.events ready fds))).2 active
  perm : fds.length < s.waiting.size → List.Perm (s.waiting.poll (some (s.events ready fds))).2 active
  revents_eq : ∀ c ∈ (s.waiting.poll (some (s.events ready fds))).2,
    (s.waiting.poll (some (s.events ready fds))).1.revents_ c = (poller.channel c).revents_

theorem Inv.sameRound (h : s.Inv fd) (hfd : Function.Injective fd) (hnonneg : ∀ c, 0 ≤ fd c)
    {ready : Int → Mask} {fds : List Int} (hmeets : s.Meets (.round ready fds)) :
    ∃ poller active, s.SameRound ready fds poller active := by
  obtain ⟨poller, active, hpoll, hnodup, hactive, hrevents⟩ := h.pollers.poll_active hfd hnonneg h.small ready
  obtain ⟨cs, rfl, hcs, hanswered, hpending, hall⟩ := h.pollers.epoll_answered hfd hmeets
  have hevents : s.events ready (cs.map fd) =
      cs.map fun c => (pending (ready (fd c)) (s.pollers.epoll.channel c).events_, c) := hanswered
  have hchannels : (s.events ready (cs.map fd)).map Prod.snd = cs := by
    rw [hevents, List.map_map]
    exact List.map_id cs
  have hepoll : (s.waiting.poll (some (s.events ready (cs.map fd)))).2 = cs := by
    rw [Epoll.Waiting.active_poll, hchannels]
  have hadded := (h.pollers.agree_iff hfd hnonneg).1 h.agree
  have hsub : ∀ c ∈ cs, c ∈ active := by
    intro c hc
    rw [hactive, hadded]
    exact hpending c hc
  refine ⟨poller, active, hpoll, ?_, ?_, ?_⟩
  · rw [hepoll]
    exact hcs.subperm hsub
  · intro hroom
    rw [hepoll, List.perm_ext_iff_of_nodup hcs hnodup]
    intro c
    constructor
    · exact hsub c
    · intro hc
      rw [hactive, hadded] at hc
      exact hall hroom c hc.1 hc.2
  · intro c hc
    rw [hepoll] at hc
    have hevent : (pending (ready (fd c)) (s.pollers.epoll.channel c).events_, c) ∈
        s.events ready (cs.map fd) := by
      rw [hevents]
      exact List.mem_map_of_mem (f := fun c => (pending (ready (fd c)) (s.pollers.epoll.channel c).events_, c)) hc
    rw [hrevents c (hsub c hc)]
    exact Epoll.Waiting.revents_poll (by rwa [hchannels]) s.waiting hevent

end invariant

/-- **In every round that `epoll_wait` answers, `PollPoller` makes the same channels active with the same
`revents_`, and beyond them only those for which `events_` had no room.**  The calls of the run are those
after which the two watch the same: a registered channel is removed, a removed one is left alone, and a
channel that `EpollPoller` has deleted is not updated without interest once more. -/
theorem active_subperm {fd : ι → Int} (hfd : Function.Injective fd) (hnonneg : ∀ c, 0 ≤ fd c)
    {turns : List (Turn ι)} {ready : Int → Mask} {fds : List Int}
    (h : Runs.Guarded step Meets (start fd) (turns ++ [.round ready fds])) :
    ∃ poller active, (turns.foldl step (start fd)).SameRound ready fds poller active := by
  obtain ⟨hturns, hround, -⟩ := Runs.guarded_append.1 h
  have hinv : Runs.Throughout step (Inv fd) (start fd) turns :=
    hturns.throughout (inv_step hfd hnonneg) (fun _ hs => hs) (inv_start hfd)
  exact hinv.last.sameRound hfd hnonneg hround

/-- Two channels, of which one is ready. -/
theorem active_subperm_two :
    ∃ poller active, ([Turn.call true .enableReading, .call false .enableWriting].foldl step
      (start fun b : Bool => if b then 5 else 6)).SameRound (fun n => if n = 5 then EPOLLIN else 0#32) [5]
        poller active := by
  refine active_subperm ?_ ?_ ⟨⟨by decide, by decide⟩, ⟨by decide, by decide⟩, ?_, trivial⟩
  · intro a b
    cases a <;> cases b <;> simp
  · intro b
    cases b <;> simp
  · refine ⟨by decide, by decide, ?_, ?_⟩
    · intro n hn
      obtain rfl := List.mem_singleton.1 hn
      exact ⟨(Epoll.Channel.kReadEvent, true), by decide, by decide⟩
    · intro _ n entry _ hpending
      by_contra hout
      rw [List.mem_singleton] at hout
      simp [hout, pending] at hpending

end Loops
end Net
end Myoj
