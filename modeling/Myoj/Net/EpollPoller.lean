import Mathlib.Logic.Function.Basic
import Myoj.Lib.Runs

/-!
# EpollPoller — the channels of a loop and the epoll set in the kernel

A `Channel` holds the interest in one fd and an index that says what the poller has done with it.  Each
change of the interest goes to `updateChannel`, which calls `epoll_ctl` and keeps `channels_`.

* `epoll_ctl` — the epoll set of the kernel;
* `EpollPoller` — `updateChannel`, `removeChannel`, `update`;
* `Polled` — a channel with the poller of its loop, and the calls a user makes on it;
* `Interests` — any set of channels on one poller.

Channels are named by the elements of a type `ι`; in the code they are pointers.  `updateChannel_eq` and
`removeChannel_eq` say what the poller does whenever index and epoll set agree, which they always do.
-/

namespace Myoj
namespace Net

/-- `epoll_event::events`, and with it the members `events_` and `revents_` of a channel. -/
abbrev Mask := BitVec 32

def EPOLLIN : Mask := 0x01#32

def EPOLLPRI : Mask := 0x02#32

def EPOLLOUT : Mask := 0x04#32

def EPOLLERR : Mask := 0x08#32

def EPOLLHUP : Mask := 0x10#32

namespace Epoll

/-- The values of `Channel::index_`. -/
inductive Index where
  | kNew
  | kAdded
  | kDeleted
  deriving DecidableEq, Repr

structure Channel where
  fd_ : Int
  events_ : Mask
  index_ : Index
  deriving DecidableEq, Repr

namespace Channel

def kNoneEvent : Mask := 0#32

def kReadEvent : Mask := EPOLLIN ||| EPOLLPRI

def kWriteEvent : Mask := EPOLLOUT

def new (fd : Int) : Channel where
  fd_ := fd
  events_ := kNoneEvent
  index_ := .kNew

def isNoneEvent (channel : Channel) : Bool := channel.events_ == kNoneEvent

def isReading (channel : Channel) : Bool := channel.events_ &&& kReadEvent != 0#32

def isWriting (channel : Channel) : Bool := channel.events_ &&& kWriteEvent != 0#32

/-- What an update makes of the channel that is left with the mask `events`. -/
def afterUpdate (channel : Channel) (events : Mask) : Channel :=
  { channel with
    events_ := events
    index_ := if channel.index_ = .kAdded ∧ events = 0#32 then .kDeleted else .kAdded }

theorem afterUpdate_ne_kNew (channel : Channel) (events : Mask) :
    (channel.afterUpdate events).index_ ≠ .kNew := by
  simp only [afterUpdate]
  split <;> simp

end Channel

/-! ## The kernel -/

inductive Op where
  | EPOLL_CTL_ADD
  | EPOLL_CTL_DEL
  | EPOLL_CTL_MOD
  deriving DecidableEq, Repr

/-- The registered fds, each with its mask and the channel in `data.ptr`. -/
abbrev EpollSet (ι : Type) := Int → Option (Mask × ι)

variable {ι : Type}

/-- An fd is added once; only a registered one can be changed or deleted.  `none` is an error. -/
def epoll_ctl (set : EpollSet ι) (op : Op) (fd : Int) (event : Mask × ι) : Option (EpollSet ι) :=
  match op, set fd with
  | .EPOLL_CTL_ADD, none => some (Function.update set fd (some event))
  | .EPOLL_CTL_DEL, some _ => some (Function.update set fd none)
  | .EPOLL_CTL_MOD, some _ => some (Function.update set fd (some event))
  | _, _ => none

structure EpollPoller (ι : Type) where
  channels_ : Int → Option ι
  epoll : EpollSet ι
  /-- `LOG_FATAL` has ended the process. -/
  aborted : Bool

namespace EpollPoller

variable (poller : EpollPoller ι) (c : ι) (channel : Channel)

def new : EpollPoller ι where
  channels_ := fun _ => none
  epoll := fun _ => none
  aborted := false

/-- A failed `DEL` is logged only. -/
def update (operation : Op) : EpollPoller ι :=
  match epoll_ctl poller.epoll operation channel.fd_ (channel.events_, c) with
  | some set => { poller with epoll := set }
  | none => if operation = .EPOLL_CTL_DEL then poller else { poller with aborted := true }

/-- A new channel is entered in `channels_`; one that was deleted is not, its branch is empty. -/
def updateChannel : EpollPoller ι × Channel :=
  if channel.index_ = .kNew ∨ channel.index_ = .kDeleted then
    let poller :=
      -- the `else` for a deleted channel has no statement
      if channel.index_ = .kNew then
        { poller with channels_ := Function.update poller.channels_ channel.fd_ (some c) }
      else poller
    let channel := { channel with index_ := .kAdded }
    (poller.update c channel .EPOLL_CTL_ADD, channel)
  else if channel.isNoneEvent then
    let poller := poller.update c channel .EPOLL_CTL_DEL
    ({ poller with channels_ := Function.update poller.channels_ channel.fd_ none },
      { channel with index_ := .kDeleted })
  else (poller.update c channel .EPOLL_CTL_MOD, channel)

def removeChannel : EpollPoller ι × Channel :=
  let poller := { poller with channels_ := Function.update poller.channels_ channel.fd_ none }
  let poller := if channel.index_ = .kAdded then poller.update c channel .EPOLL_CTL_DEL else poller
  (poller, { channel with index_ := .kNew })

def hasChannel : Prop := poller.channels_ channel.fd_ = some c

/-! ## What the poller does -/

/-- The update takes the channel out of the epoll set. -/
def Drops (channel : Channel) : Prop := channel.index_ = .kAdded ∧ channel.events_ = 0#32

instance (channel : Channel) : Decidable (Drops channel) := inferInstanceAs (Decidable (_ ∧ _))

variable {poller channel}

theorem isNoneEvent_iff : channel.isNoneEvent = true ↔ channel.events_ = 0#32 :=
  beq_iff_eq

variable (poller channel) in
/-- As long as the index says what the epoll set holds, no `epoll_ctl` fails, and an update enters the
channel with its mask or takes it out. -/
theorem updateChannel_eq
    (h : (poller.epoll channel.fd_).isSome = true ↔ channel.index_ = .kAdded) :
    poller.updateChannel c channel =
      ({ poller with
          channels_ := Function.update poller.channels_ channel.fd_
            (if channel.index_ = .kNew then some c
              else if Drops channel then none else poller.channels_ channel.fd_)
          epoll := Function.update poller.epoll channel.fd_
            (if Drops channel then none else some (channel.events_, c)) },
        { channel with index_ := if Drops channel then .kDeleted else .kAdded }) := by
  obtain ⟨fd, events, index⟩ := channel
  -- the index tells which `epoll_ctl` is called, the epoll set whether it succeeds
  cases hset : poller.epoll fd with
  | none =>
      have hindex : index ≠ .kAdded := by simpa [hset] using h
      cases index with
      | kNew =>
          simp [updateChannel, update, epoll_ctl, hset, Drops]
      | kAdded =>
          exact absurd rfl hindex
      | kDeleted =>
          simp [updateChannel, update, epoll_ctl, hset, Drops]
  | some entry =>
      have hindex : index = .kAdded := by simpa [hset] using h
      subst hindex
      -- an added channel is deleted or modified
      by_cases hnone : events = 0#32
      · simp [updateChannel, update, epoll_ctl, hset, Drops, hnone, isNoneEvent_iff]
      · simp [updateChannel, update, epoll_ctl, hset, Drops, hnone, isNoneEvent_iff]

theorem removeChannel_eq
    (h : (poller.epoll channel.fd_).isSome = true ↔ channel.index_ = .kAdded) :
    poller.removeChannel c channel =
      ({ poller with
          channels_ := Function.update poller.channels_ channel.fd_ none
          epoll := Function.update poller.epoll channel.fd_ none },
        { channel with index_ := .kNew }) := by
  obtain ⟨fd, events, index⟩ := channel
  cases hset : poller.epoll fd with
  | none =>
      have hindex : index ≠ .kAdded := by simpa [hset] using h
      have hsame : Function.update poller.epoll fd none = poller.epoll := by
        rw [← hset, Function.update_eq_self]
      -- there was no entry to delete
      simp [removeChannel, hindex, hsame]
  | some entry =>
      have hindex : index = .kAdded := by simpa [hset] using h
      simp [removeChannel, update, epoll_ctl, hset, hindex]

/-! ### Which `epoll_ctl` is called -/

variable (poller channel)

/-- The operation `updateChannel` chooses. -/
def operation : Op :=
  if channel.index_ = .kNew ∨ channel.index_ = .kDeleted then .EPOLL_CTL_ADD
  else if channel.isNoneEvent then .EPOLL_CTL_DEL
  else .EPOLL_CTL_MOD

theorem operation_eq_add_iff : operation channel = .EPOLL_CTL_ADD ↔ channel.index_ ≠ .kAdded := by
  simp only [operation]
  cases channel.index_ with
  | kAdded =>
      by_cases hnone : channel.isNoneEvent
      · simp [hnone]
      · simp [hnone]
  | _ =>
      simp

/-- `epoll_ctl` is handed the fd and the mask of the channel; `channels_` has no part in it. -/
theorem update_congr (channels_ : Int → Option ι) (index : Index) (operation : Op) :
    (EpollPoller.update { poller with channels_ } c { channel with index_ := index } operation).epoll =
        (poller.update c channel operation).epoll ∧
      (EpollPoller.update { poller with channels_ } c { channel with index_ := index }
          operation).aborted = (poller.update c channel operation).aborted := by
  simp only [update]
  cases epoll_ctl poller.epoll operation channel.fd_ (channel.events_, c) with
  | some set =>
      exact ⟨rfl, rfl⟩
  | none =>
      by_cases hdel : operation = .EPOLL_CTL_DEL
      · simp [hdel]
      · simp [hdel]

/-- Whatever the index and the epoll set, `updateChannel` makes the one call it has chosen. -/
theorem updateChannel_operation :
    (poller.updateChannel c channel).1.epoll = (poller.update c channel (operation channel)).epoll ∧
      (poller.updateChannel c channel).1.aborted =
        (poller.update c channel (operation channel)).aborted := by
  simp only [updateChannel, operation]
  split
  · -- `index_` is set before the call, and does not matter to it
    split
    · exact update_congr ..
    · exact update_congr ..
  · split <;> exact ⟨rfl, rfl⟩

theorem removeChannel_operation :
    (poller.removeChannel c channel).1.epoll =
        (if channel.index_ = .kAdded then poller.update c channel .EPOLL_CTL_DEL else poller).epoll ∧
      (poller.removeChannel c channel).1.aborted =
        (if channel.index_ = .kAdded then poller.update c channel .EPOLL_CTL_DEL
          else poller).aborted := by
  simp only [removeChannel]
  split
  · exact update_congr poller c channel ..
  · exact ⟨rfl, rfl⟩

end EpollPoller

/-! ## The calls on a channel -/

/-- A channel together with the poller of its loop. -/
structure Polled (ι : Type) where
  poller : EpollPoller ι
  channel : Channel

namespace Polled

variable (c : ι) (p : Polled ι)

/-- `Channel::update`, by way of the loop, once `events_` is set. -/
def update (events : Mask) : Polled ι :=
  let (poller, channel) := p.poller.updateChannel c { p.channel with events_ := events }
  { poller, channel }

def enableReading : Polled ι := p.update c (p.channel.events_ ||| Channel.kReadEvent)

def disableReading : Polled ι := p.update c (p.channel.events_ &&& ~~~Channel.kReadEvent)

def enableWriting : Polled ι := p.update c (p.channel.events_ ||| Channel.kWriteEvent)

def disableWriting : Polled ι := p.update c (p.channel.events_ &&& ~~~Channel.kWriteEvent)

def disableAll : Polled ι := p.update c Channel.kNoneEvent

def remove : Polled ι :=
  let (poller, channel) := p.poller.removeChannel c p.channel
  { poller, channel }

variable {p} in
/-- As long as the index says what the epoll set holds, the channel is entered with its mask or taken out. -/
theorem update_eq
    (h : (p.poller.epoll p.channel.fd_).isSome = true ↔ p.channel.index_ = .kAdded) (events : Mask) :
    p.update c events =
      { poller :=
          { p.poller with
            channels_ := Function.update p.poller.channels_ p.channel.fd_
              (if p.channel.index_ = .kNew then some c
                else if p.channel.index_ = .kAdded ∧ events = 0#32 then none
                else p.poller.channels_ p.channel.fd_)
            epoll := Function.update p.poller.epoll p.channel.fd_
              (if (p.channel.afterUpdate events).index_ = .kAdded then some (events, c) else none) }
        channel := p.channel.afterUpdate events } := by
  have heq := EpollPoller.updateChannel_eq p.poller c { p.channel with events_ := events } h
  simp only [update, heq, EpollPoller.Drops, Channel.afterUpdate]
  by_cases hdrops : p.channel.index_ = .kAdded ∧ events = 0#32
  · simp [hdrops]
  · simp [hdrops]

theorem events_update (events : Mask) : (p.update c events).channel.events_ = events := by
  simp only [update, EpollPoller.updateChannel]
  split
  · rfl
  · split <;> rfl

theorem isWriting_enableWriting : (p.enableWriting c).channel.isWriting = true := by
  have hbit : (p.channel.events_ ||| Channel.kWriteEvent) &&& Channel.kWriteEvent =
      Channel.kWriteEvent := by
    ext i
    simp only [BitVec.getElem_and, BitVec.getElem_or]
    cases p.channel.events_[i] <;> simp
  rw [Channel.isWriting, enableWriting, events_update, hbit]
  decide

theorem isWriting_disableWriting : (p.disableWriting c).channel.isWriting = false := by
  have hbit : p.channel.events_ &&& ~~~Channel.kWriteEvent &&& Channel.kWriteEvent = 0#32 := by
    ext i
    simp only [BitVec.getElem_and, BitVec.getElem_not]
    cases Channel.kWriteEvent[i] <;> simp
  rw [Channel.isWriting, disableWriting, events_update, hbit]
  decide

end Polled

/-! ## Any set of channels on one poller -/

inductive Call where
  | enableReading
  | disableReading
  | enableWriting
  | disableWriting
  | disableAll
  | remove
  deriving DecidableEq, Repr

namespace Call

def run (c : ι) (p : Polled ι) : Call → Polled ι
  | .enableReading => p.enableReading c
  | .disableReading => p.disableReading c
  | .enableWriting => p.enableWriting c
  | .disableWriting => p.disableWriting c
  | .disableAll => p.disableAll c
  | .remove => p.remove c

/-- The mask the call leaves. -/
def interest (events : Mask) : Call → Mask
  | .enableReading => events ||| Channel.kReadEvent
  | .disableReading => events &&& ~~~Channel.kReadEvent
  | .enableWriting => events ||| Channel.kWriteEvent
  | .disableWriting => events &&& ~~~Channel.kWriteEvent
  | .disableAll => Channel.kNoneEvent
  | .remove => events

theorem run_eq_update {call : Call} (h : call ≠ .remove) (c : ι) (p : Polled ι) :
    call.run c p = p.update c (call.interest p.channel.events_) := by
  cases call with
  | remove =>
      exact absurd rfl h
  | _ =>
      rfl

theorem epoll_update_of_ne (poller : EpollPoller ι) (c : ι) (channel : Channel) (operation : Op) {fd : Int}
    (hfd : fd ≠ channel.fd_) : (poller.update c channel operation).epoll fd = poller.epoll fd := by
  simp only [EpollPoller.update]
  split
  · next set hset =>
    simp only [epoll_ctl] at hset
    split at hset
    all_goals cases hset
    all_goals exact Function.update_of_ne hfd _ _
  · split <;> rfl

/-- Whatever state the poller is in, a call leaves the fd of its channel and the other fds as they are. -/
theorem run_frame (call : Call) (c : ι) (p : Polled ι) :
    (call.run c p).channel.fd_ = p.channel.fd_ ∧
      ∀ fd, fd ≠ p.channel.fd_ → (call.run c p).poller.epoll fd = p.poller.epoll fd := by
  by_cases hremove : call = .remove
  · subst hremove
    refine ⟨rfl, fun fd hfd => ?_⟩
    simp only [run, Polled.remove, EpollPoller.removeChannel]
    split
    · exact epoll_update_of_ne _ c p.channel _ hfd
    · rfl
  · rw [run_eq_update hremove, Polled.update]
    simp only [EpollPoller.updateChannel]
    repeat' split
    all_goals exact ⟨rfl, fun fd hfd => epoll_update_of_ne _ c _ _ hfd⟩

end Call

structure Interests (ι : Type) where
  poller : EpollPoller ι
  channel : ι → Channel
  /-- The channels that have been updated and not removed since. -/
  updated : ι → Bool

namespace Interests

variable [DecidableEq ι]

def start (fd : ι → Int) : Interests ι where
  poller := .new
  channel := fun c => .new (fd c)
  updated := fun _ => false

def step (s : Interests ι) : ι × Call → Interests ι
  | (c, call) =>
      let p := call.run c { poller := s.poller, channel := s.channel c }
      { poller := p.poller
        channel := Function.update s.channel c p.channel
        updated := Function.update s.updated c (call != .remove) }

/-- An updated channel is registered with its mask, or not at all when the mask is empty, and `channels_`
maps the registered fds, no others, to their channels. -/
def Mirrors (s : Interests ι) : Prop :=
  (∀ c, s.updated c = true → s.poller.epoll (s.channel c).fd_ =
    if (s.channel c).events_ = 0#32 then none else some ((s.channel c).events_, c)) ∧
  ∀ fd, s.poller.channels_ fd = (s.poller.epoll fd).map Prod.snd

/-- The update is of an added channel, or of a new one that then wants some event. -/
def Restores (s : Interests ι) : ι × Call → Prop
  | (_, .remove) => True
  | (c, call) =>
      (s.channel c).index_ = .kAdded ∨
        (s.channel c).index_ = .kNew ∧ call.interest (s.channel c).events_ ≠ 0#32

/-- What every call keeps: the epoll set holds the added channels with their masks. -/
structure Inv (s : Interests ι) : Prop where
  distinct : ∀ c d, (s.channel c).fd_ = (s.channel d).fd_ → c = d
  registered : ∀ c, s.poller.epoll (s.channel c).fd_ =
    if (s.channel c).index_ = .kAdded then some ((s.channel c).events_, c) else none
  others : ∀ fd, (∀ c, (s.channel c).fd_ ≠ fd) →
    s.poller.epoll fd = none ∧ s.poller.channels_ fd = none
  updated : ∀ c, s.updated c = true ↔ (s.channel c).index_ ≠ .kNew
  alive : s.poller.aborted = false

/-- The part of `Mirrors` that is about one channel, read off its index. -/
structure MirroredAt (s : Interests ι) (c : ι) : Prop where
  added : (s.channel c).index_ = .kAdded → (s.channel c).events_ ≠ 0#32
  deleted : (s.channel c).index_ = .kDeleted → (s.channel c).events_ = 0#32
  mapped : s.poller.channels_ (s.channel c).fd_ =
    if (s.channel c).index_ = .kAdded then some c else none

section invariant

omit [DecidableEq ι]

variable {s : Interests ι}

theorem Inv.isSome (h : s.Inv) (c : ι) :
    (s.poller.epoll (s.channel c).fd_).isSome = true ↔ (s.channel c).index_ = .kAdded := by
  rw [h.registered]
  split <;> simp [*]

theorem mirrors_iff (h : s.Inv) : s.Mirrors ↔ ∀ c, s.MirroredAt c := by
  constructor
  · rintro ⟨hmask, hmap⟩ c
    have hmask := hmask c
    rw [h.updated, h.registered] at hmask
    refine ⟨?_, ?_, ?_⟩
    · intro hindex hnone
      simp [hindex, hnone] at hmask
    · intro hindex
      by_contra hsome
      simp [hindex, hsome] at hmask
    · rw [hmap, h.registered]
      split <;> rfl
  · intro hat
    refine ⟨?_, ?_⟩
    · intro c hupdated
      have hnew := (h.updated c).1 hupdated
      rw [h.registered]
      cases hindex : (s.channel c).index_ with
      | kNew =>
          exact absurd hindex hnew
      | kAdded =>
          simp [(hat c).added hindex]
      | kDeleted =>
          simp [(hat c).deleted hindex]
    · intro fd
      by_cases hfd : ∃ c, (s.channel c).fd_ = fd
      · obtain ⟨c, rfl⟩ := hfd
        rw [(hat c).mapped, h.registered]
        split <;> rfl
      · obtain ⟨hepoll, hchannels⟩ := h.others fd (not_exists.1 hfd)
        rw [hepoll, hchannels]
        rfl

/-- `hasChannel` answers for the epoll set. -/
theorem Mirrors.hasChannel_iff (h : s.Mirrors) (c : ι) :
    s.poller.hasChannel c (s.channel c) ↔
      ∃ events, s.poller.epoll (s.channel c).fd_ = some (events, c) := by
  simp [EpollPoller.hasChannel, h.2]

end invariant

/-! ### One call -/

/-- What a call leaves at the channel it is made on; nothing else is touched. -/
structure Effect (s : Interests ι) (c : ι) (call : Call) (channel : Channel) (mapped : Option ι) :
    Prop where
  step_eq : step s (c, call) =
    { poller :=
        { s.poller with
          channels_ := Function.update s.poller.channels_ (s.channel c).fd_ mapped
          epoll := Function.update s.poller.epoll (s.channel c).fd_
            (if channel.index_ = .kAdded then some (channel.events_, c) else none) }
      channel := Function.update s.channel c channel
      updated := Function.update s.updated c (call != .remove) }
  fd_eq : channel.fd_ = (s.channel c).fd_

section steps

variable {s : Interests ι}

theorem effect_update (h : s.Inv) (c : ι) {call : Call} (hcall : call ≠ .remove) :
    Effect s c call ((s.channel c).afterUpdate (call.interest (s.channel c).events_))
      (if (s.channel c).index_ = .kNew then some c
        else if (s.channel c).index_ = .kAdded ∧ call.interest (s.channel c).events_ = 0#32 then none
        else s.poller.channels_ (s.channel c).fd_) where
  step_eq := by
    have heq := Polled.update_eq (p := { poller := s.poller, channel := s.channel c }) c (h.isSome c)
      (call.interest (s.channel c).events_)
    simp only [step, Call.run_eq_update hcall, heq, bne_iff_ne.2 hcall]
    rfl
  fd_eq := rfl

theorem effect_remove (h : s.Inv) (c : ι) :
    Effect s c .remove { s.channel c with index_ := .kNew } none where
  step_eq := by
    have heq := EpollPoller.removeChannel_eq c (h.isSome c)
    simp [step, Call.run, Polled.remove, heq]
  fd_eq := rfl

namespace Effect

variable {c : ι} {call : Call} {channel : Channel} {mapped : Option ι}

theorem channel_self (h : Effect s c call channel mapped) :
    (step s (c, call)).channel c = channel := by
  rw [h.step_eq]
  exact Function.update_self ..

theorem channel_of_ne (h : Effect s c call channel mapped) {d : ι} (hd : d ≠ c) :
    (step s (c, call)).channel d = s.channel d := by
  rw [h.step_eq]
  exact Function.update_of_ne hd ..

/-- The call moves no channel to another fd. -/
theorem fd_step (h : Effect s c call channel mapped) (d : ι) :
    ((step s (c, call)).channel d).fd_ = (s.channel d).fd_ := by
  by_cases hd : d = c
  · rw [hd, h.channel_self, h.fd_eq]
  · rw [h.channel_of_ne hd]

theorem inv (h : Effect s c call channel mapped) (hs : s.Inv)
    (hnew : channel.index_ = .kNew ↔ call = .remove) : (step s (c, call)).Inv where
  distinct := by
    intro d d' hfd
    rw [h.fd_step, h.fd_step] at hfd
    exact hs.distinct d d' hfd
  registered := by
    intro d
    by_cases hd : d = c
    · rw [hd, h.channel_self, h.fd_eq, h.step_eq]
      exact Function.update_self ..
    · -- another channel has another fd
      have hne : (s.channel d).fd_ ≠ (s.channel c).fd_ := fun heq => hd (hs.distinct d c heq)
      rw [h.channel_of_ne hd, h.step_eq, ← hs.registered d]
      exact Function.update_of_ne hne ..
  others := by
    intro fd hother
    have hother' : ∀ d, (s.channel d).fd_ ≠ fd := fun d => by
      rw [← h.fd_step d]
      exact hother d
    have hne : fd ≠ (s.channel c).fd_ := (hother' c).symm
    simpa [h.step_eq, hne] using hs.others fd hother'
  updated := by
    intro d
    by_cases hd : d = c
    · rw [hd, h.channel_self, ne_eq, hnew, h.step_eq]
      simp
    · rw [h.channel_of_ne hd, ← hs.updated d, h.step_eq]
      simp [hd]
  alive := by
    rw [h.step_eq]
    exact hs.alive

theorem mirroredAt_of_ne (h : Effect s c call channel mapped) (hs : s.Inv) {d : ι} (hd : d ≠ c)
    (hat : s.MirroredAt d) : (step s (c, call)).MirroredAt d := by
  have hne : (s.channel d).fd_ ≠ (s.channel c).fd_ := fun heq => hd (hs.distinct d c heq)
  refine ⟨?_, ?_, ?_⟩
  · rw [h.channel_of_ne hd]
    exact hat.added
  · rw [h.channel_of_ne hd]
    exact hat.deleted
  · rw [h.channel_of_ne hd, ← hat.mapped, h.step_eq]
    exact Function.update_of_ne hne ..

theorem mirroredAt_self_iff (h : Effect s c call channel mapped) :
    (step s (c, call)).MirroredAt c ↔
      (channel.index_ = .kAdded → channel.events_ ≠ 0#32) ∧
        (channel.index_ = .kDeleted → channel.events_ = 0#32) ∧
        mapped = if channel.index_ = .kAdded then some c else none := by
  have hmapped : (step s (c, call)).poller.channels_ (s.channel c).fd_ = mapped := by
    rw [h.step_eq]
    exact Function.update_self ..
  constructor
  · rintro ⟨hadded, hdeleted, hmap⟩
    rw [h.channel_self] at hadded hdeleted hmap
    rw [h.fd_eq, hmapped] at hmap
    exact ⟨hadded, hdeleted, hmap⟩
  · rintro ⟨hadded, hdeleted, hmap⟩
    refine ⟨?_, ?_, ?_⟩
    · rwa [h.channel_self]
    · rwa [h.channel_self]
    · rwa [h.channel_self, h.fd_eq, hmapped]

/-- What is true of the other channels stays true, so the property hangs on the channel of the call. -/
theorem mirrors_iff (h : Effect s c call channel mapped) (hs : s.Inv)
    (hnew : channel.index_ = .kNew ↔ call = .remove) (hmirrors : s.Mirrors) :
    (step s (c, call)).Mirrors ↔ (step s (c, call)).MirroredAt c := by
  rw [Interests.mirrors_iff (h.inv hs hnew)]
  rw [Interests.mirrors_iff hs] at hmirrors
  refine ⟨fun hat => hat c, ?_⟩
  intro hself d
  by_cases hd : d = c
  · rw [hd]
    exact hself
  · exact h.mirroredAt_of_ne hs hd (hmirrors d)

end Effect

theorem inv_step (s : Interests ι) (e : ι × Call) (h : s.Inv) : (step s e).Inv := by
  obtain ⟨c, call⟩ := e
  by_cases hcall : call = .remove
  · subst hcall
    exact (effect_remove h c).inv h (by simp)
  · exact (effect_update h c hcall).inv h (iff_of_false (Channel.afterUpdate_ne_kNew _ _) hcall)

/-- **One call.**  Where the kernel mirrored the interests it still does, unless the update is of a
channel that was deleted, or of a new one that wants nothing. -/
theorem mirrors_step_iff (s : Interests ι) (e : ι × Call) (h : s.Inv) (hmirrors : s.Mirrors) :
    (step s e).Mirrors ↔ s.Restores e := by
  obtain ⟨c, call⟩ := e
  by_cases hcall : call = .remove
  · subst hcall
    have heffect := effect_remove h c
    rw [heffect.mirrors_iff h (by simp) hmirrors, heffect.mirroredAt_self_iff]
    simp [Restores]
  · have heffect := effect_update h c hcall
    have hat := (mirrors_iff h).1 hmirrors c
    have hrestores : s.Restores (c, call) ↔ (s.channel c).index_ = .kAdded ∨
        (s.channel c).index_ = .kNew ∧ call.interest (s.channel c).events_ ≠ 0#32 := by
      cases call with
      | remove =>
          exact absurd rfl hcall
      | _ =>
          rfl
    rw [heffect.mirrors_iff h (iff_of_false (Channel.afterUpdate_ne_kNew _ _) hcall) hmirrors,
      heffect.mirroredAt_self_iff, hrestores]
    cases hindex : (s.channel c).index_ with
    | kNew =>
        simp [Channel.afterUpdate, hindex]
    | kAdded =>
        -- a change of the mask, or the only way to `kDeleted`
        have hmapped : s.poller.channels_ (s.channel c).fd_ = some c := by
          rw [hat.mapped, if_pos hindex]
        by_cases hnone : call.interest (s.channel c).events_ = 0#32
        · simp [Channel.afterUpdate, hindex, hnone]
        · simp [Channel.afterUpdate, hindex, hnone, hmapped]
    | kDeleted =>
        -- added again to the epoll set, with no entry in `channels_`
        have hmapped : s.poller.channels_ (s.channel c).fd_ = none := by
          rw [hat.mapped, hindex]
          rfl
        simp [Channel.afterUpdate, hindex, hmapped]

end steps

omit [DecidableEq ι] in
theorem inv_start {fd : ι → Int} (hfd : Function.Injective fd) : (start fd).Inv where
  distinct := fun _ _ heq => hfd heq
  registered := fun _ => rfl
  others := fun _ _ => ⟨rfl, rfl⟩
  updated := by simp [start, Channel.new]
  alive := rfl

omit [DecidableEq ι] in
theorem mirrors_start (fd : ι → Int) : (start fd).Mirrors := by
  simp [Mirrors, start, EpollPoller.new]

/-! ### Every `epoll_ctl` is legal -/

/-- The operation with which the call comes to `EpollPoller::update`. -/
def issued (s : Interests ι) : ι × Call → Option Op
  | (c, .remove) => if (s.channel c).index_ = .kAdded then some .EPOLL_CTL_DEL else none
  | (c, call) =>
      some (EpollPoller.operation
        { s.channel c with events_ := call.interest (s.channel c).events_ })

/-- The poller once the operation has been carried out. -/
def afterIssued (s : Interests ι) (e : ι × Call) : EpollPoller ι :=
  match s.issued e with
  | none => s.poller
  | some op =>
      s.poller.update e.1 { s.channel e.1 with events_ := e.2.interest (s.channel e.1).events_ } op

/-- The call comes to `epoll_ctl` with what it issues and in no other way, and the kernel has no reason to
refuse it: an fd is added when it is not in the epoll set, modified or deleted when it is. -/
structure Legal (s : Interests ι) (e : ι × Call) : Prop where
  epoll_eq : (step s e).poller.epoll = (s.afterIssued e).epoll
  aborted_eq : (step s e).poller.aborted = (s.afterIssued e).aborted
  add_iff : ∀ op ∈ s.issued e, (op = .EPOLL_CTL_ADD ↔ s.poller.epoll (s.channel e.1).fd_ = none)

omit [DecidableEq ι] in
theorem issued_of_ne {call : Call} (h : call ≠ .remove) (s : Interests ι) (c : ι) :
    s.issued (c, call) = some (EpollPoller.operation
      { s.channel c with events_ := call.interest (s.channel c).events_ }) := by
  cases call with
  | remove =>
      exact absurd rfl h
  | _ =>
      rfl

/-- In any state the call changes the epoll set by the operation it issues, and by nothing else. -/
theorem step_issued (s : Interests ι) (e : ι × Call) :
    (step s e).poller.epoll = (s.afterIssued e).epoll ∧
      (step s e).poller.aborted = (s.afterIssued e).aborted := by
  obtain ⟨c, call⟩ := e
  by_cases hcall : call = .remove
  · subst hcall
    have hremove := s.poller.removeChannel_operation c (s.channel c)
    simp only [afterIssued, issued]
    by_cases hadded : (s.channel c).index_ = .kAdded
    · rw [if_pos hadded] at hremove ⊢
      exact hremove
    · rw [if_neg hadded] at hremove ⊢
      exact hremove
  · have hupdate := s.poller.updateChannel_operation c
      { s.channel c with events_ := call.interest (s.channel c).events_ }
    simp only [step, Call.run_eq_update hcall, afterIssued, issued_of_ne hcall]
    exact hupdate

theorem Inv.legal {s : Interests ι} (h : s.Inv) (e : ι × Call) : s.Legal e := by
  obtain ⟨c, call⟩ := e
  obtain ⟨hepoll, haborted⟩ := s.step_issued (c, call)
  refine ⟨hepoll, haborted, ?_⟩
  have hset : s.poller.epoll (s.channel c).fd_ = none ↔ (s.channel c).index_ ≠ .kAdded := by
    rw [← Option.not_isSome_iff_eq_none, h.isSome]
  intro op hop
  rw [hset]
  by_cases hcall : call = .remove
  · subst hcall
    simp only [issued, Option.mem_def] at hop
    by_cases hadded : (s.channel c).index_ = .kAdded
    · rw [if_pos hadded] at hop
      cases hop
      simp [hadded]
    · rw [if_neg hadded] at hop
      cases hop
  · rw [issued_of_ne hcall, Option.mem_def, Option.some.injEq] at hop
    rw [← hop]
    exact EpollPoller.operation_eq_add_iff _

/-- **In every run every `epoll_ctl` is legal**, and the process is never ended by one. -/
theorem legal_run {fd : ι → Int} (hfd : Function.Injective fd) (es : List (ι × Call)) :
    Runs.Guarded step Legal (start fd) es ∧
      Runs.Throughout step (fun s => s.poller.aborted = false) (start fd) es := by
  have hguarded : Runs.Guarded step (fun _ _ => True) (start fd) es :=
    Runs.guarded_const_iff.2 (fun _ _ => trivial)
  have hstep : ∀ (s : Interests ι) (e : ι × Call), s.Inv → True → (step s e).Inv :=
    fun s e hs _ => inv_step s e hs
  exact ⟨hguarded.weaken hstep (fun _ e hs _ => hs.legal e) (inv_start hfd),
    hguarded.throughout hstep (fun _ hs => hs.alive) (inv_start hfd)⟩

theorem legal_run_three :
    Runs.Guarded step Legal (start fun b : Bool => if b then 5 else 6)
        [(true, .disableAll), (true, .disableAll), (true, .remove)] ∧
      Runs.Throughout step (fun s => s.poller.aborted = false)
        (start fun b : Bool => if b then 5 else 6)
        [(true, .disableAll), (true, .disableAll), (true, .remove)] :=
  legal_run (by intro a b; cases a <;> cases b <;> simp) _

/-- **The poller mirrors the interests exactly as long as no deleted channel is updated again and no new
one without any interest.** -/
theorem mirrors_throughout_iff {fd : ι → Int} (hfd : Function.Injective fd) (es : List (ι × Call)) :
    Runs.Throughout step Mirrors (start fd) es ↔ Runs.Guarded step Restores (start fd) es :=
  (Runs.guarded_iff_throughout inv_step mirrors_step_iff (inv_start hfd) (mirrors_start fd)).symm

theorem mirrors_throughout_iff_two :
    Runs.Throughout step Mirrors (start fun b : Bool => if b then 5 else 6)
      [(true, .enableReading), (false, .enableReading), (true, .enableWriting)] :=
  (mirrors_throughout_iff (by intro a b; cases a <;> cases b <;> simp) _).2
    ⟨Or.inr (by decide), Or.inr (by decide), Or.inl (by decide), trivial⟩

/-- Interest that is taken back and given again: the fd is in the epoll set and not in `channels_`. -/
theorem added_again_without_entry :
    let s := [((), Call.enableReading), ((), .disableAll), ((), .enableReading)].foldl step
      (start fun _ => 5)
    s.poller.epoll 5 = some (Channel.kReadEvent, ()) ∧ s.poller.channels_ 5 = none ∧
      ¬ s.Mirrors := by
  intro s
  have hepoll : s.poller.epoll 5 = some (Channel.kReadEvent, ()) := by decide
  have hchannels : s.poller.channels_ 5 = none := by decide
  refine ⟨hepoll, hchannels, ?_⟩
  rintro ⟨-, hmap⟩
  have := hmap 5
  rw [hepoll, hchannels] at this
  exact absurd this (by simp)

end Interests

end Epoll
end Net
end Myoj
