import Mathlib.Data.Finmap
import Myoj.Lib.SlotTable
import Myoj.Net.EpollPoller

/-!
# PollPoller — the channels of a loop in the vector handed to `poll`

Here the index of a channel is its position in `pollfds_`.  A channel without interest stays in the vector
under the fd `-fd - 1`, which `poll` passes over; one that is removed is swapped with the last entry.

* `PollPoller` — `updateChannel`, `removeChannel`, `fillActiveChannels`, each `none` where the code leaves
  the vector or follows a missing entry of `channels_`;
* `Polls` — any set of channels on one poller, with the kernel answering `poll` in between;
* `Inv` — the channels in the order of `pollfds_` are placed as their indices say;
* `kept_throughout` — the bookkeeping in every state of a run.
-/

namespace Myoj
namespace Net
namespace Poll

/-- `pollfd::events` and `pollfd::revents`. -/
abbrev Short := BitVec 16

structure pollfd where
  fd : Int
  events : Short
  revents : Short
  deriving DecidableEq, Repr

/-- The members of a channel the poller reads or sets. -/
structure Channel where
  fd_ : Int
  events_ : Mask
  revents_ : Mask
  index_ : Int
  deriving DecidableEq, Repr

namespace Channel

def new (fd : Int) : Channel where
  fd_ := fd
  events_ := 0#32
  revents_ := 0#32
  index_ := -1

def isNoneEvent (channel : Channel) : Bool := channel.events_ == Epoll.Channel.kNoneEvent

end Channel

/-- `v[i]`; leaving the vector is undefined. -/
def at? {α : Type} (v : List α) (i : Int) : Option α := if 0 ≤ i then v[i.toNat]? else none

def iter_swap {α : Type} (v : List α) (i j : Nat) : List α :=
  match v[i]?, v[j]? with
  | some x, some y => (v.set i y).set j x
  | _, _ => v

/-- The poller with the channels it points to. -/
structure PollPoller (ι : Type) where
  channels_ : Finmap (fun _ : Int => ι)
  pollfds_ : List pollfd
  channel : ι → Channel

namespace PollPoller

variable {ι : Type} [DecidableEq ι] (poller : PollPoller ι) (c : ι)

def set_index (index : Int) : PollPoller ι :=
  { poller with
    channel := Function.update poller.channel c { poller.channel c with index_ := index } }

def set_revents (revents : Short) : PollPoller ι :=
  { poller with
    channel := Function.update poller.channel c
      { poller.channel c with revents_ := revents.signExtend 32 } }

def updateChannel : Option (PollPoller ι) := do
  let channel := poller.channel c
  if channel.index_ < 0 then
    let pfd : pollfd := { fd := channel.fd_, events := channel.events_.setWidth 16, revents := 0 }
    let poller := { poller with pollfds_ := poller.pollfds_ ++ [pfd] }
    let idx : Int := poller.pollfds_.length - 1
    let poller := poller.set_index c idx
    pure { poller with channels_ := poller.channels_.insert pfd.fd c }
  else
    let idx := channel.index_
    let _ ← at? poller.pollfds_ idx
    let pfd : pollfd :=
      -- an fd no event is wanted from is hidden from `poll`
      { fd := if channel.isNoneEvent then -channel.fd_ - 1 else channel.fd_
        events := channel.events_.setWidth 16
        revents := 0 }
    pure { poller with pollfds_ := poller.pollfds_.set idx.toNat pfd }

def removeChannel : Option (PollPoller ι) := do
  let idx := (poller.channel c).index_
  let _ ← at? poller.pollfds_ idx
  let poller := { poller with channels_ := poller.channels_.erase (poller.channel c).fd_ }
  if idx.toNat = poller.pollfds_.length - 1 then
    pure { poller with pollfds_ := poller.pollfds_.dropLast }
  else
    let back ← poller.pollfds_.getLast?
    let channelAtEnd := back.fd
    let swapped := iter_swap poller.pollfds_ idx.toNat (poller.pollfds_.length - 1)
    let channelAtEnd := if channelAtEnd < 0 then -channelAtEnd - 1 else channelAtEnd
    -- `operator[]` makes a null entry where there is none
    let d ← poller.channels_.lookup channelAtEnd
    pure { poller.set_index d idx with pollfds_ := swapped.dropLast }

/-- The loop of `fillActiveChannels` over the rest of `pollfds_`; `ch->second` needs an entry. -/
def fill : List pollfd → Int → PollPoller ι × List ι → Option (PollPoller ι × List ι)
  | [], _, found => some found
  | pfd :: rest, numEvents, (poller, activeChannels) =>
      if 0 < numEvents then
        if (0#16).slt pfd.revents then do
          let c ← poller.channels_.lookup pfd.fd
          fill rest (numEvents - 1) (poller.set_revents c pfd.revents, activeChannels ++ [c])
        else fill rest numEvents (poller, activeChannels)
      else some (poller, activeChannels)

def fillActiveChannels (numEvents : Int) : Option (PollPoller ι × List ι) :=
  fill poller.pollfds_ numEvents (poller, [])

/-- What the kernel answers: the events of each entry, none for a negative fd, or an error. -/
def answer (ready : Nat → Short) (fds : List pollfd) : List pollfd :=
  fds.mapIdx fun i pfd => { pfd with revents := if pfd.fd < 0 then 0 else ready i }

/-- `::poll` returns the number of entries with events, `-1` for an error. -/
def poll (ready : Option (Nat → Short)) : Option (PollPoller ι × List ι) :=
  match ready with
  | none => some (poller, [])
  | some ready =>
      let poller := { poller with pollfds_ := answer ready poller.pollfds_ }
      let numEvents : Int := poller.pollfds_.countP fun pfd => pfd.revents != 0
      if 0 < numEvents then poller.fillActiveChannels numEvents else some (poller, [])

/-! ## The books -/

/-- The fd an entry stands for, hidden or not. -/
def slotFd (pfd : pollfd) : Int := if pfd.fd < 0 then -pfd.fd - 1 else pfd.fd

/-- The poller keeps the channels `owners`, in this order: each knows its position, has the entry there,
and is found under its fd. -/
structure Books (fd : ι → Int) (owners : List ι) (poller : PollPoller ι) : Prop where
  fd_eq : ∀ c, (poller.channel c).fd_ = fd c
  placed : SlotTable.Placed owners fun c => (poller.channel c).index_
  slots : poller.pollfds_.map slotFd = owners.map fd
  mapped : ∀ n c, poller.channels_.lookup n = some c ↔ c ∈ owners ∧ fd c = n

variable {fd : ι → Int} {owners : List ι} {poller} {c}

omit [DecidableEq ι] in
theorem at?_natCast {α : Type} (v : List α) (i : Nat) : at? v i = v[i]? := by
  simp [at?]

namespace Books

omit [DecidableEq ι] in
theorem length_eq (h : poller.Books fd owners) : poller.pollfds_.length = owners.length := by
  simpa using congrArg List.length h.slots

omit [DecidableEq ι] in
/-- The entry of a channel. -/
theorem entry (h : poller.Books fd owners) (hc : c ∈ owners) :
    ∃ i < owners.length, (poller.channel c).index_ = i ∧ owners[i]? = some c ∧
      ∃ pfd, poller.pollfds_[i]? = some pfd ∧ slotFd pfd = fd c := by
  obtain ⟨i, hi, hindex, hget⟩ := h.placed.getElem?_of_mem hc
  have hslot : (poller.pollfds_.map slotFd)[i]? = some (fd c) := by
    rw [h.slots, List.getElem?_map, hget]
    rfl
  rw [List.getElem?_map, Option.map_eq_some_iff] at hslot
  exact ⟨i, hi, hindex, hget, hslot⟩

omit [DecidableEq ι] in
/-- The members of a channel the books are not about may change. -/
theorem congr (h : poller.Books fd owners) {poller' : PollPoller ι}
    (hchannels : poller'.channels_ = poller.channels_)
    (hpollfds : poller'.pollfds_.map slotFd = poller.pollfds_.map slotFd)
    (hfd : ∀ c, (poller'.channel c).fd_ = (poller.channel c).fd_)
    (hindex : ∀ c, (poller'.channel c).index_ = (poller.channel c).index_) :
    poller'.Books fd owners where
  fd_eq := fun c => (hfd c).trans (h.fd_eq c)
  placed := h.placed.congr fun c _ => hindex c
  slots := hpollfds.trans h.slots
  mapped := by
    rw [hchannels]
    exact h.mapped

end Books

/-! ### The operations -/

/-- An entry of the fd `n`, hidden or not. -/
theorem slotFd_eq {n : Int} (hn : 0 ≤ n) (hidden : Bool) (events revents : Short) :
    slotFd { fd := if hidden then -n - 1 else n, events, revents } = n := by
  cases hidden with
  | false =>
      exact if_neg (by simpa using hn)
  | true =>
      have hneg : -n - 1 < 0 := by omega
      simp [slotFd, hneg]

/-- A new channel goes to the end. -/
theorem Books.updateChannel_new (h : poller.Books fd owners) (hfd : Function.Injective fd)
    (hnonneg : ∀ c, 0 ≤ fd c) (hc : c ∉ owners) (hindex : (poller.channel c).index_ < 0) :
    ∃ poller', poller.updateChannel c = some poller' ∧ poller'.Books fd (owners ++ [c]) ∧
      ∀ d ≠ c, poller'.channel d = poller.channel d := by
  refine ⟨_, by simp only [updateChannel, if_pos hindex]; rfl, ?_, ?_⟩
  · constructor
    · intro d
      by_cases hd : d = c
      · subst hd
        simp [set_index, h.fd_eq]
      · simp [set_index, hd, h.fd_eq]
    · have hpush := h.placed.push hc
      refine hpush.congr fun d hd => ?_
      by_cases hdc : d = c
      · subst hdc
        simp [set_index, h.length_eq]
      · simp [set_index, hdc]
    · have hslot := slotFd_eq (hnonneg c) false ((poller.channel c).events_.setWidth 16) 0
      simpa [set_index, h.slots, h.fd_eq] using hslot
    · intro n d
      by_cases hn : n = fd c
      · subst hn
        have hd : d ∈ owners ++ [c] ∧ fd d = fd c ↔ d = c := by
          constructor
          · rintro ⟨-, heq⟩
            exact hfd heq
          · rintro rfl
            simp
        rw [hd]
        simp [h.fd_eq, eq_comm]
      · have hd : d ∈ owners ++ [c] ∧ fd d = n ↔ d ∈ owners ∧ fd d = n := by
          constructor
          · rintro ⟨hmem, heq⟩
            rcases List.mem_append.1 hmem with hmem | hmem
            · exact ⟨hmem, heq⟩
            · rw [List.mem_singleton.1 hmem] at heq
              exact absurd heq.symm hn
          · rintro ⟨hmem, heq⟩
            exact ⟨List.mem_append_left _ hmem, heq⟩
        rw [hd, ← h.mapped]
        simp [h.fd_eq, Finmap.lookup_insert_of_ne _ hn, set_index]
  · intro d hd
    simp [set_index, hd]

/-- A channel that is already there is shown or hidden where it stands. -/
theorem Books.updateChannel_old (h : poller.Books fd owners) (hnonneg : ∀ c, 0 ≤ fd c) (hc : c ∈ owners) :
    ∃ poller', poller.updateChannel c = some poller' ∧ poller'.Books fd owners ∧
      poller'.channel = poller.channel := by
  obtain ⟨i, hi, hindex, hget, pfd, hpfd, hslot⟩ := h.entry hc
  have hnew : ¬ (poller.channel c).index_ < 0 := by omega
  have hat : at? poller.pollfds_ (poller.channel c).index_ = some pfd := by
    rw [hindex, at?_natCast, hpfd]
  have hupdate : poller.updateChannel c = some
      { poller with
        pollfds_ := poller.pollfds_.set i
          { fd := if (poller.channel c).isNoneEvent then -(poller.channel c).fd_ - 1
              else (poller.channel c).fd_
            events := (poller.channel c).events_.setWidth 16
            revents := 0 } } := by
    simp only [updateChannel, if_neg hnew, hat]
    rw [hindex, Int.toNat_natCast]
    rfl
  refine ⟨_, hupdate, h.congr rfl ?_ (fun _ => rfl) (fun _ => rfl), rfl⟩
  -- the entry that is overwritten stands for the same fd
  have hsame : (poller.pollfds_.map slotFd)[i]? = some (fd c) := by
    rw [List.getElem?_map, hpfd, ← hslot]
    rfl
  obtain ⟨hlt, heq⟩ := List.getElem?_eq_some_iff.1 hsame
  rw [List.map_set, h.fd_eq, slotFd_eq (hnonneg c), ← heq, List.set_getElem_self]

omit [DecidableEq ι] in
theorem iter_swap_dropLast {α : Type} {v : List α} {i : Nat} (hi : i < v.length) :
    (iter_swap v i (v.length - 1)).dropLast = SlotTable.swapPop v i := by
  have hlast : v[v.length - 1]? = some v[v.length - 1] := List.getElem?_eq_getElem (by omega)
  have hswap : iter_swap v i (v.length - 1) =
      (v.set i v[v.length - 1]).set (v.length - 1) v[i] := by
    simp [iter_swap, hlast, List.getElem?_eq_getElem hi]
  refine List.ext_getElem? fun k => ?_
  rw [SlotTable.getElem?_swapPop (y := v[v.length - 1]) (by rw [List.getLast?_eq_getElem?, hlast]),
    hswap, List.getElem?_dropLast, List.length_set, List.length_set]
  split
  · rename_i hk
    have hne : v.length - 1 ≠ k := by omega
    rw [List.getElem?_set_ne hne, List.getElem?_set]
    by_cases hki : k = i
    · subst hki
      simp [hi]
    · rw [if_neg (Ne.symm hki), if_neg hki]
  · rfl

omit [DecidableEq ι] in
/-- Without the channel at `i` the map finds the channels that are left. -/
theorem Books.lookup_erase (h : poller.Books fd owners) (hfd : Function.Injective fd) {i : Nat}
    (hget : owners[i]? = some c) (n : Int) (d : ι) :
    (poller.channels_.erase (fd c)).lookup n = some d ↔
      d ∈ SlotTable.swapPop owners i ∧ fd d = n := by
  rw [h.placed.mem_swapPop hget]
  by_cases hn : n = fd c
  · subst hn
    rw [Finmap.lookup_erase]
    constructor
    · intro hnone
      cases hnone
    · rintro ⟨⟨-, hne⟩, heq⟩
      exact absurd (hfd heq) hne
  · rw [Finmap.lookup_erase_ne hn, h.mapped]
    constructor
    · rintro ⟨hd, heq⟩
      refine ⟨⟨hd, ?_⟩, heq⟩
      rintro rfl
      exact hn heq.symm
    · rintro ⟨⟨hd, -⟩, heq⟩
      exact ⟨hd, heq⟩

omit [DecidableEq ι] in
/-- The last entry is that of the last channel. -/
theorem Books.back (h : poller.Books fd owners) {d : ι} (hd : owners.getLast? = some d) :
    ∃ back, poller.pollfds_.getLast? = some back ∧ slotFd back = fd d := by
  have hmap : (poller.pollfds_.map slotFd).getLast? = some (fd d) := by
    rw [h.slots, List.getLast?_map, hd]
    rfl
  rwa [List.getLast?_map, Option.map_eq_some_iff] at hmap

/-- The entry of a removed channel is taken by the last one, whose channel is told. -/
theorem Books.removeChannel_eq (h : poller.Books fd owners) (hfd : Function.Injective fd) (hc : c ∈ owners) :
    ∃ poller', poller.removeChannel c = some poller' ∧
      (∃ owners', poller'.Books fd owners' ∧ ∀ d, d ∈ owners' ↔ d ∈ owners ∧ d ≠ c) ∧
      ∀ d ∉ owners, poller'.channel d = poller.channel d := by
  obtain ⟨i, hi, hindex, hget, pfd, hpfd, hslot⟩ := h.entry hc
  have hat : at? poller.pollfds_ (i : Int) = some pfd := by
    rw [at?_natCast, hpfd]
  have hmem : ∀ d, d ∈ SlotTable.swapPop owners i ↔ d ∈ owners ∧ d ≠ c := fun d => h.placed.mem_swapPop hget
  have herase := h.lookup_erase hfd hget
  have hslots : (SlotTable.swapPop poller.pollfds_ i).map slotFd = (SlotTable.swapPop owners i).map fd := by
    rw [SlotTable.map_swapPop, SlotTable.map_swapPop, h.slots]
  have hlast : owners.getLast? = owners[owners.length - 1]? := List.getLast?_eq_getElem?
  by_cases hend : i = owners.length - 1
  · -- the channel has the last entry
    have hremove : poller.removeChannel c = some
        { poller with
          channels_ := poller.channels_.erase (fd c)
          pollfds_ := SlotTable.swapPop poller.pollfds_ i } := by
      have hlength : i = poller.pollfds_.length - 1 := by rw [h.length_eq, hend]
      have hswap : SlotTable.swapPop poller.pollfds_ i = poller.pollfds_.dropLast := by
        rw [hlength, SlotTable.swapPop_last]
      simp only [removeChannel, hindex, hat, h.fd_eq, Int.toNat_natCast, if_pos hlength, hswap]
      rfl
    refine ⟨_, hremove, ⟨SlotTable.swapPop owners i, ?_, hmem⟩, fun _ _ => rfl⟩
    refine ⟨h.fd_eq, ?_, hslots, herase⟩
    rw [hend, SlotTable.swapPop_last]
    exact h.placed.dropLast
  · -- the last entry is that of another channel, found under the fd it stands for
    obtain ⟨d, hd⟩ : ∃ d, owners.getLast? = some d :=
      ⟨_, hlast.trans (List.getElem?_eq_getElem (by omega))⟩
    obtain ⟨back, hback, hslotback⟩ := h.back hd
    have hlookup : (poller.channels_.erase (fd c)).lookup (slotFd back) = some d := by
      rw [herase, hmem, hslotback]
      refine ⟨⟨List.mem_of_getLast? hd, ?_⟩, rfl⟩
      rintro rfl
      have hposd := h.placed _ _ (hlast.symm.trans hd)
      have hposc := h.placed _ _ hget
      omega
    have hremove : poller.removeChannel c = some
        { channels_ := poller.channels_.erase (fd c)
          pollfds_ := SlotTable.swapPop poller.pollfds_ i
          channel := Function.update poller.channel d { poller.channel d with index_ := i } } := by
      have hlength : i ≠ poller.pollfds_.length - 1 := by rwa [h.length_eq]
      rw [slotFd] at hlookup
      rw [← iter_swap_dropLast (h.length_eq ▸ hi)]
      simp only [removeChannel, hindex, hat, h.fd_eq, Int.toNat_natCast]
      simp [hlength, hback, hlookup, set_index, h.fd_eq]
    refine ⟨_, hremove, ⟨SlotTable.swapPop owners i, ?_, hmem⟩, ?_⟩
    · constructor
      · intro e
        by_cases he : e = d
        · subst he
          simp [h.fd_eq]
        · simp [he, h.fd_eq]
      · refine (h.placed.swapPop hd i).congr fun e _ => ?_
        by_cases he : e = d
        · subst he
          simp
        · simp [he]
      · exact hslots
      · exact herase
    · intro e he
      have hne : e ≠ d := by
        rintro rfl
        exact he (List.mem_of_getLast? hd)
      exact Function.update_of_ne hne ..

/-- What `poll` leaves alone: everything but the events that were reported. -/
structure SameBooks (before after : PollPoller ι) : Prop where
  channels_eq : after.channels_ = before.channels_
  slots_eq : after.pollfds_.map slotFd = before.pollfds_.map slotFd
  fd_eq : ∀ c, (after.channel c).fd_ = (before.channel c).fd_
  index_eq : ∀ c, (after.channel c).index_ = (before.channel c).index_

/-- Another member of a channel is written. -/
theorem sameBooks_update (poller : PollPoller ι) {c : ι} {channel : Channel}
    (hfd : channel.fd_ = (poller.channel c).fd_) (hindex : channel.index_ = (poller.channel c).index_) :
    SameBooks poller { poller with channel := Function.update poller.channel c channel } where
  channels_eq := rfl
  slots_eq := rfl
  fd_eq := by
    intro d
    by_cases hd : d = c
    · subst hd
      simpa using hfd
    · simp [hd]
  index_eq := by
    intro d
    by_cases hd : d = c
    · subst hd
      simpa using hindex
    · simp [hd]

theorem sameBooks_set_revents (poller : PollPoller ι) (c : ι) (revents : Short) :
    SameBooks poller (poller.set_revents c revents) :=
  poller.sameBooks_update rfl rfl

omit [DecidableEq ι] in
theorem Books.same {poller' : PollPoller ι} (h : poller.Books fd owners)
    (hsame : SameBooks poller poller') : poller'.Books fd owners :=
  h.congr hsame.channels_eq hsame.slots_eq hsame.fd_eq hsame.index_eq

omit [DecidableEq ι] in
theorem SameBooks.trans {p q r : PollPoller ι} (h : SameBooks p q) (h' : SameBooks q r) :
    SameBooks p r where
  channels_eq := h'.channels_eq.trans h.channels_eq
  slots_eq := h'.slots_eq.trans h.slots_eq
  fd_eq := fun c => (h'.fd_eq c).trans (h.fd_eq c)
  index_eq := fun c => (h'.index_eq c).trans (h.index_eq c)

/-- When the entries with events are found, the loop comes to its end. -/
theorem fill_eq (pollfds : List pollfd) (numEvents : Int) (poller : PollPoller ι) (active : List ι)
    (h : ∀ pfd ∈ pollfds, (0#16).slt pfd.revents = true →
      ∃ c, poller.channels_.lookup pfd.fd = some c) :
    ∃ poller' active', fill pollfds numEvents (poller, active) = some (poller', active') ∧
      SameBooks poller poller' := by
  induction pollfds generalizing numEvents poller active with
  | nil =>
      exact ⟨poller, active, rfl, rfl, rfl, fun _ => rfl, fun _ => rfl⟩
  | cons pfd rest ih =>
      have hrest : ∀ pfd ∈ rest, (0#16).slt pfd.revents = true →
          ∃ c, poller.channels_.lookup pfd.fd = some c :=
        fun pfd hpfd => h pfd (List.mem_cons_of_mem _ hpfd)
      simp only [fill]
      split
      · split
        · rename_i hevents
          obtain ⟨c, hc⟩ := h pfd List.mem_cons_self hevents
          have hset := poller.sameBooks_set_revents c pfd.revents
          obtain ⟨poller', active', hfill, hsame⟩ :=
            ih (numEvents - 1) (poller.set_revents c pfd.revents) (active ++ [c]) hrest
          refine ⟨poller', active', ?_, hset.trans hsame⟩
          rw [hc]
          exact hfill
        · exact ih numEvents poller active hrest
      · exact ⟨poller, active, rfl, rfl, rfl, fun _ => rfl, fun _ => rfl⟩

omit [DecidableEq ι] in
theorem sameBooks_answer (poller : PollPoller ι) (ready : Nat → Short) :
    SameBooks poller { poller with pollfds_ := answer ready poller.pollfds_ } where
  channels_eq := rfl
  slots_eq := by
    refine List.ext_getElem? fun i => ?_
    simp only [answer, List.getElem?_map, List.getElem?_mapIdx]
    cases poller.pollfds_[i]? <;> rfl
  fd_eq := fun _ => rfl
  index_eq := fun _ => rfl

/-- **After `poll` every reported entry is that of a channel in `channels_`.** -/
theorem Books.fillActiveChannels_eq (h : poller.Books fd owners) (ready : Nat → Short) (numEvents : Int) :
    ∃ poller' active, fillActiveChannels { poller with pollfds_ := answer ready poller.pollfds_ }
        numEvents = some (poller', active) ∧ SameBooks poller poller' := by
  have hanswer := poller.sameBooks_answer ready
  obtain ⟨poller', active, hfill, hsame⟩ := fill_eq (answer ready poller.pollfds_) numEvents
    { poller with pollfds_ := answer ready poller.pollfds_ } [] (by
      intro pfd hpfd hevents
      -- a hidden entry is reported without events
      have hshown : ¬ pfd.fd < 0 := by
        intro hneg
        obtain ⟨i, hi, rfl⟩ := List.mem_mapIdx.1 hpfd
        simp [show (poller.pollfds_[i]).fd < 0 from hneg] at hevents
      have hmem : pfd.fd ∈ owners.map fd := by
        rw [← h.slots, ← hanswer.slots_eq]
        exact List.mem_map.2 ⟨pfd, hpfd, if_neg hshown⟩
      obtain ⟨c, hc, hfd⟩ := List.mem_map.1 hmem
      exact ⟨c, (h.mapped _ _).2 ⟨hc, hfd⟩⟩)
  exact ⟨poller', active, hfill, hanswer.trans hsame⟩

theorem Books.poll_eq (h : poller.Books fd owners) (ready : Option (Nat → Short)) :
    ∃ poller' active, poller.poll ready = some (poller', active) ∧ SameBooks poller poller' := by
  cases ready with
  | none =>
      exact ⟨poller, [], rfl, rfl, rfl, fun _ => rfl, fun _ => rfl⟩
  | some ready =>
      simp only [poll]
      split
      · exact h.fillActiveChannels_eq ready _
      · exact ⟨_, [], rfl, poller.sameBooks_answer ready⟩

end PollPoller

/-! ## Any set of channels on one poller -/

/-- What has been done with a channel. -/
inductive Phase where
  | fresh
  | registered
  | removed
  deriving DecidableEq, Repr

/-- A call of the poller, or a round of `poll` with what the kernel answers. -/
inductive Event (ι : Type) where
  | updateChannel (c : ι) (events : Mask)
  | removeChannel (c : ι)
  | poll (ready : Option (Nat → Short))

structure Polls (ι : Type) where
  poller : PollPoller ι
  phase : ι → Phase
  /-- The code has left the vector or followed a missing entry. -/
  faulted : Bool

namespace Polls

variable {ι : Type} [DecidableEq ι]

def start (fd : ι → Int) : Polls ι where
  poller := { channels_ := ∅, pollfds_ := [], channel := fun c => .new (fd c) }
  phase := fun _ => .fresh
  faulted := false

/-- `events_` of the channel is set before the loop is told. -/
def setEvents (poller : PollPoller ι) (c : ι) (events : Mask) : PollPoller ι :=
  { poller with
    channel := Function.update poller.channel c { poller.channel c with events_ := events } }

def step (s : Polls ι) : Event ι → Polls ι
  | .updateChannel c events =>
      match (setEvents s.poller c events).updateChannel c with
      | some poller => { s with poller, phase := Function.update s.phase c .registered }
      | none => { s with faulted := true }
  | .removeChannel c =>
      match s.poller.removeChannel c with
      | some poller => { s with poller, phase := Function.update s.phase c .removed }
      | none => { s with faulted := true }
  | .poll ready =>
      match s.poller.poll ready with
      | some (poller, _) => { s with poller }
      | none => { s with faulted := true }

/-- Only a registered channel is removed, and a removed one is not updated again. -/
def Proper (s : Polls ι) : Event ι → Prop
  | .updateChannel c _ => s.phase c ≠ .removed
  | .removeChannel c => s.phase c = .registered
  | .poll _ => True

instance (s : Polls ι) : ∀ e, Decidable (s.Proper e)
  | .updateChannel c _ => inferInstanceAs (Decidable (s.phase c ≠ .removed))
  | .removeChannel c => inferInstanceAs (Decidable (s.phase c = .registered))
  | .poll _ => inferInstanceAs (Decidable True)

/-- The bookkeeping. -/
structure Kept (s : Polls ι) : Prop where
  defined : s.faulted = false
  size_eq : s.poller.channels_.keys.card = s.poller.pollfds_.length
  entry : ∀ c, s.phase c = .registered →
    0 ≤ (s.poller.channel c).index_ ∧ (s.poller.channel c).index_ < s.poller.pollfds_.length ∧
      ∃ pfd, at? s.poller.pollfds_ (s.poller.channel c).index_ = some pfd ∧
        (pfd.fd = (s.poller.channel c).fd_ ∨ pfd.fd = -(s.poller.channel c).fd_ - 1)
  distinct : ∀ c d, s.phase c = .registered → s.phase d = .registered →
    (s.poller.channel c).index_ = (s.poller.channel d).index_ → c = d
  found : ∀ ready numEvents, (PollPoller.fillActiveChannels
    { s.poller with pollfds_ := PollPoller.answer ready s.poller.pollfds_ } numEvents).isSome = true

/-- What every proper step keeps. -/
structure Inv (fd : ι → Int) (s : Polls ι) : Prop where
  books : ∃ owners, s.poller.Books fd owners ∧ ∀ c, s.phase c = .registered ↔ c ∈ owners
  fresh : ∀ c, s.phase c = .fresh → (s.poller.channel c).index_ < 0
  defined : s.faulted = false

section invariant

variable {fd : ι → Int} {s : Polls ι}

omit [DecidableEq ι] in
theorem inv_start (fd : ι → Int) : (start fd).Inv fd where
  books := by
    refine ⟨[], ⟨fun _ => rfl, SlotTable.placed_nil _, rfl, ?_⟩, ?_⟩
    · simp [start, Finmap.lookup_empty]
    · simp [start]
  fresh := fun _ _ => by simp [start, Channel.new]
  defined := rfl

theorem sameBooks_setEvents (poller : PollPoller ι) (c : ι) (events : Mask) :
    PollPoller.SameBooks poller (setEvents poller c events) :=
  poller.sameBooks_update rfl rfl

theorem phase_update_iff {phase : ι → Phase} {p : Phase} (hp : p ≠ .fresh) {c d : ι} :
    Function.update phase c p d = .fresh ↔ d ≠ c ∧ phase d = .fresh := by
  by_cases hd : d = c
  · subst hd
    simp [hp]
  · simp [hd]

theorem Inv.updateChannel_fresh (h : s.Inv fd) (hfd : Function.Injective fd) (hnonneg : ∀ c, 0 ≤ fd c)
    {c : ι} (hphase : s.phase c = .fresh) (events : Mask) :
    (step s (.updateChannel c events)).Inv fd := by
  obtain ⟨⟨owners, hbooks, hregistered⟩, hfresh, hdefined⟩ := h
  have hsame := sameBooks_setEvents s.poller c events
  have hc : c ∉ owners := by
    rw [← hregistered, hphase]
    simp
  have hindex : ((setEvents s.poller c events).channel c).index_ < 0 := by
    rw [hsame.index_eq]
    exact hfresh c hphase
  obtain ⟨poller, hupdate, hnext, hframe⟩ :=
    (hbooks.same hsame).updateChannel_new hfd hnonneg hc hindex
  simp only [step, hupdate]
  refine ⟨⟨owners ++ [c], hnext, ?_⟩, ?_, hdefined⟩
  · intro d
    by_cases hd : d = c
    · subst hd
      simp
    · simp [hd, hregistered]
  · intro d hd
    obtain ⟨hne, hd⟩ := (phase_update_iff (by decide)).1 hd
    rw [hframe d hne, hsame.index_eq]
    exact hfresh d hd

theorem Inv.updateChannel_registered (h : s.Inv fd) (hnonneg : ∀ c, 0 ≤ fd c) {c : ι}
    (hphase : s.phase c = .registered) (events : Mask) :
    (step s (.updateChannel c events)).Inv fd := by
  obtain ⟨⟨owners, hbooks, hregistered⟩, hfresh, hdefined⟩ := h
  have hsame := sameBooks_setEvents s.poller c events
  have hc : c ∈ owners := (hregistered c).1 hphase
  obtain ⟨poller, hupdate, hnext, hframe⟩ := (hbooks.same hsame).updateChannel_old hnonneg hc
  have hphases : Function.update s.phase c .registered = s.phase := by
    rw [← hphase, Function.update_eq_self]
  simp only [step, hupdate, hphases]
  refine ⟨⟨owners, hnext, hregistered⟩, ?_, hdefined⟩
  intro d hd
  rw [hframe, hsame.index_eq]
  exact hfresh d hd

theorem Inv.removeChannel (h : s.Inv fd) (hfd : Function.Injective fd) {c : ι}
    (hphase : s.phase c = .registered) : (step s (.removeChannel c)).Inv fd := by
  obtain ⟨⟨owners, hbooks, hregistered⟩, hfresh, hdefined⟩ := h
  have hc : c ∈ owners := (hregistered c).1 hphase
  obtain ⟨poller, hremove, ⟨owners', hnext, hmem⟩, hframe⟩ := hbooks.removeChannel_eq hfd hc
  simp only [step, hremove]
  refine ⟨⟨owners', hnext, ?_⟩, ?_, hdefined⟩
  · intro d
    rw [hmem]
    by_cases hd : d = c
    · subst hd
      simp
    · simp [hd, hregistered]
  · intro d hd
    obtain ⟨-, hd⟩ := (phase_update_iff (by decide)).1 hd
    have hout : d ∉ owners := by
      rw [← hregistered, hd]
      simp
    rw [hframe d hout]
    exact hfresh d hd

theorem Inv.poll (h : s.Inv fd) (ready : Option (Nat → Short)) : (step s (.poll ready)).Inv fd := by
  obtain ⟨⟨owners, hbooks, hregistered⟩, hfresh, hdefined⟩ := h
  obtain ⟨poller, active, hpoll, hsame⟩ := hbooks.poll_eq ready
  simp only [step, hpoll]
  refine ⟨⟨owners, hbooks.same hsame, hregistered⟩, ?_, hdefined⟩
  intro d hd
  rw [hsame.index_eq]
  exact hfresh d hd

/-- **One call.** -/
theorem inv_step (hfd : Function.Injective fd) (hnonneg : ∀ c, 0 ≤ fd c) (s : Polls ι) (e : Event ι)
    (h : s.Inv fd) (hproper : s.Proper e) : (step s e).Inv fd := by
  cases e with
  | updateChannel c events =>
      cases hphase : s.phase c with
      | fresh =>
          exact h.updateChannel_fresh hfd hnonneg hphase events
      | registered =>
          exact h.updateChannel_registered hnonneg hphase events
      | removed =>
          exact absurd hphase hproper
  | removeChannel c =>
      exact h.removeChannel hfd hproper
  | poll ready =>
      exact h.poll ready

omit [DecidableEq ι] in
theorem keys_eq {owners : List ι} {poller : PollPoller ι} (h : poller.Books fd owners) :
    poller.channels_.keys = (owners.map fd).toFinset := by
  ext n
  rw [Finmap.mem_keys, Finmap.mem_iff, List.mem_toFinset, List.mem_map]
  simp only [h.mapped]

theorem Inv.kept (hfd : Function.Injective fd) (h : s.Inv fd) : s.Kept := by
  obtain ⟨⟨owners, hbooks, hregistered⟩, -, hdefined⟩ := h
  constructor
  · exact hdefined
  · have hnodup : (owners.map fd).Nodup := hbooks.placed.nodup.map hfd
    rw [keys_eq hbooks, List.toFinset_card_of_nodup hnodup, List.length_map, hbooks.length_eq]
  · intro c hc
    obtain ⟨i, hi, hindex, -, pfd, hpfd, hslot⟩ := hbooks.entry ((hregistered c).1 hc)
    rw [hindex]
    refine ⟨by omega, by rw [hbooks.length_eq]; omega, pfd, ?_, ?_⟩
    · rw [PollPoller.at?_natCast, hpfd]
    · rw [hbooks.fd_eq, ← hslot, PollPoller.slotFd]
      split
      · exact Or.inr (by omega)
      · exact Or.inl rfl
  · intro c d hc hd hindex
    exact hbooks.placed.inj ((hregistered c).1 hc) ((hregistered d).1 hd) hindex
  · intro ready numEvents
    obtain ⟨poller, active, hfill, -⟩ := hbooks.fillActiveChannels_eq ready numEvents
    rw [hfill]
    rfl

end invariant

/-- **The index of every registered channel leads to its entry, whatever the order of the calls.** -/
theorem kept_throughout {ι : Type} [DecidableEq ι] {fd : ι → Int} (hfd : Function.Injective fd)
    (hnonneg : ∀ c, 0 ≤ fd c) {es : List (Event ι)} (h : Runs.Guarded step Proper (start fd) es) :
    Runs.Throughout step Kept (start fd) es :=
  h.throughout (inv_step hfd hnonneg) (fun _ hs => hs.kept hfd) (inv_start fd)

/-- The second of three channels is hidden, the first removed, so that the third moves to its place. -/
theorem kept_throughout_three :
    Runs.Throughout step Kept (start fun c : Fin 3 => (c.val : Int) + 4)
      [.updateChannel 0 EPOLLIN, .updateChannel 1 EPOLLIN, .updateChannel 2 EPOLLIN,
        .updateChannel 1 0#32, .removeChannel 0, .poll (some fun _ => 1#16),
        .updateChannel 2 EPOLLOUT] :=
  kept_throughout (by intro c d heq; simp at heq; omega) (by intro c; omega) (by decide)

end Polls
end Poll
end Net
end Myoj
