import Skype.Library.Packed
import Skype.Library.Transition

/-!
# `ConnectionPoll`

The array that `poll` works on: the listening socket in the first slot, the connected
sockets in the slots behind it and `-1` in the slots that are free. `poll` reports
nothing for a negative descriptor and writes the `revents` of the slots it is given;
what is pending on a descriptor is a parameter.
-/

namespace Skype

open Library

structure PollFd where
  fd : Int32
  events : UInt16
  revents : UInt16
  deriving DecidableEq

namespace PollFd

def POLLIN : UInt16 := 1

def unasked : UInt16 := 56

end PollFd

abbrev Pending := Int32 → UInt16

namespace ConnectionPoll

def maxConnections : ℕ := 10
def ZERO : ℕ := 1
def OFFSET : ℕ := 1

def refresh (pending : Pending) (slot : PollFd) : PollFd :=
  { slot with
    revents := if slot.fd < 0 then 0 else pending slot.fd &&& (slot.events ||| PollFd.unasked) }

/-- `poll` on the first `n` slots, with the number of slots it reports on. -/
def poll (pending : Pending) (slots : List PollFd) (n : ℕ) : ℕ × List PollFd :=
  let polled := (slots.take n).map (refresh pending)
  (polled.countP fun slot => slot.revents ≠ 0, polled ++ slots.drop n)

def selectLoop (pending : Pending) : ℕ → ℕ → List PollFd → Int32 × List PollFd
  | 0, _, slots => (-1, slots)
  | n + 1, i, slots =>
    let (res, slots) := poll pending slots (i + ZERO)
    match slots[i]? with
    | none => (-1, slots)
    | some slot =>
      if 0 < res ∧ slot.fd ≠ -1 ∧ slot.revents &&& PollFd.POLLIN ≠ 0 then (slot.fd, slots)
      else selectLoop pending n (i + 1) slots

def closeSlot (tSocketFd : Int32) (slot : PollFd) : PollFd :=
  if slot.fd = tSocketFd then { slot with fd := -1 } else slot

def repositionFrom (slot : PollFd) : List PollFd → List PollFd
  | [] => [slot]
  | next :: slots =>
    if slot.fd = -1 ∧ next.fd ≠ -1 then
      { slot with fd := next.fd } :: repositionFrom { next with fd := -1 } slots
    else slot :: repositionFrom next slots

def reposition : List PollFd → List PollFd
  | [] => []
  | slot :: slots => repositionFrom slot slots

end ConnectionPoll

structure ConnectionPoll where
  mPoll : List PollFd
  mPollIndex : ℕ
  length_mPoll : mPoll.length = ConnectionPoll.maxConnections

namespace ConnectionPoll

theorem length_repositionFrom (slot : PollFd) (slots : List PollFd) :
    (repositionFrom slot slots).length = slots.length + 1 := by
  induction slots generalizing slot with
  | nil => rfl
  | cons next slots ih =>
    rw [repositionFrom]
    split
    · rw [List.length_cons, ih, List.length_cons]
    · rw [List.length_cons, ih, List.length_cons]

theorem length_reposition (slots : List PollFd) : (reposition slots).length = slots.length := by
  cases slots with
  | nil => rfl
  | cons slot slots => rw [reposition, length_repositionFrom, List.length_cons]

@[simp] theorem length_poll (pending : Pending) (slots : List PollFd) (n : ℕ) :
    (poll pending slots n).2.length = slots.length := by
  rw [poll, List.length_append, List.length_map, ← List.length_append, List.take_append_drop]

theorem length_selectLoop (pending : Pending) (n i : ℕ) (slots : List PollFd) :
    (selectLoop pending n i slots).2.length = slots.length := by
  induction n generalizing i slots with
  | zero => rfl
  | succ n ih =>
    simp only [selectLoop]
    split
    · exact length_poll pending slots _
    · split
      · exact length_poll pending slots _
      · rw [ih, length_poll]

/-- The constructor sets the descriptors; the other members keep what the memory held. -/
def new (memory : Fin maxConnections → PollFd) : ConnectionPoll where
  mPoll := List.ofFn fun i => { memory i with fd := -1 }
  mPollIndex := 0
  length_mPoll := List.length_ofFn

def addSocket (p : ConnectionPoll) (tSocketFd : Int32) : Bool × ConnectionPoll :=
  if maxConnections ≤ p.mPollIndex then (false, p)
  else
    (true,
      { mPoll := p.mPoll.modify p.mPollIndex fun slot =>
          { slot with fd := tSocketFd, events := PollFd.POLLIN }
        mPollIndex := p.mPollIndex + 1
        length_mPoll := by rw [List.length_modify, p.length_mPoll] })

def selectSocketWithEvents (p : ConnectionPoll) (pending : Pending) : Int32 × ConnectionPoll :=
  let selected := selectLoop pending (maxConnections - OFFSET) OFFSET p.mPoll
  (selected.1,
    { p with
      mPoll := selected.2
      length_mPoll := by rw [length_selectLoop, p.length_mPoll] })

def repositionPoll (p : ConnectionPoll) : ConnectionPoll where
  mPoll := p.mPoll.take OFFSET ++ reposition (p.mPoll.drop OFFSET)
  mPollIndex := p.mPollIndex
  length_mPoll := by
    rw [List.length_append, length_reposition, ← List.length_append, List.take_append_drop,
      p.length_mPoll]

def countPollIndex (p : ConnectionPoll) : ConnectionPoll :=
  { p with
    mPollIndex := OFFSET + ((p.mPoll.drop OFFSET).takeWhile fun slot => slot.fd ≠ -1).length }

def closeSlots (p : ConnectionPoll) (tSocketFd : Int32) : ConnectionPoll where
  mPoll := p.mPoll.take OFFSET ++ (p.mPoll.drop OFFSET).map (closeSlot tSocketFd)
  mPollIndex := p.mPollIndex
  length_mPoll := by
    rw [List.length_append, List.length_map, ← List.length_append, List.take_append_drop,
      p.length_mPoll]

def removeSocket (p : ConnectionPoll) (tSocketFd : Int32) : List Int32 × ConnectionPoll :=
  (((p.mPoll.drop OFFSET).map PollFd.fd).filter (· = tSocketFd),
    (p.closeSlots tSocketFd).repositionPoll.countPollIndex)

inductive Operation
  | addSocket (tSocketFd : Int32)
  | removeSocket (tSocketFd : Int32)
  | selectSocketWithEvents (pending : Pending)

def perform (p : ConnectionPoll) : Operation → ConnectionPoll
  | .addSocket tSocketFd => (p.addSocket tSocketFd).2
  | .removeSocket tSocketFd => (p.removeSocket tSocketFd).2
  | .selectSocketWithEvents pending => (p.selectSocketWithEvents pending).2

/-- The sockets added and not yet removed, in the order they were added; a socket that
finds no room is not added. -/
def track (sockets : List Int32) : Operation → List Int32
  | .addSocket tSocketFd =>
    if sockets.length = maxConnections - 1 then sockets else sockets ++ [tSocketFd]
  | .removeSocket tSocketFd => sockets.filter (· ≠ tSocketFd)
  | .selectSocketWithEvents _ => sockets

def Fresh (listening : Int32) (sockets : List Int32) : Operation → Prop
  | .addSocket tSocketFd => 0 ≤ tSocketFd ∧ tSocketFd ∉ listening :: sockets
  | .removeSocket _ => True
  | .selectSocketWithEvents _ => True

structure Held (listening : Int32) (sockets : List Int32) : Prop where
  nodup : (listening :: sockets).Nodup
  descriptors : ∀ fd ∈ listening :: sockets, 0 ≤ fd

theorem mem_track_addSocket {sockets : List Int32} {fd socket : Int32} :
    fd ∈ track sockets (.addSocket socket) ↔
      fd ∈ sockets ∨ (fd = socket ∧ sockets.length ≠ maxConnections - 1) := by
  rw [track]
  split
  · next hfull =>
    constructor
    · exact Or.inl
    · rintro (hold | ⟨-, hroom⟩)
      · exact hold
      · exact absurd hfull hroom
  · next hroom => simp [hroom]

theorem held_track {listening : Int32} {sockets : List Int32} {op : Operation}
    (h : Held listening sockets) (hop : Fresh listening sockets op) :
    Held listening (track sockets op) := by
  cases op with
  | addSocket tSocketFd =>
    rw [track]
    split
    · exact h
    · obtain ⟨hfd, hnew⟩ := hop
      constructor
      · rw [← List.cons_append]
        apply h.nodup.append (List.nodup_singleton _)
        intro fd hmem hsame
        exact hnew (List.mem_singleton.mp hsame ▸ hmem)
      · intro fd hmem
        rw [← List.cons_append, List.mem_append, List.mem_singleton] at hmem
        rcases hmem with hold | rfl
        · exact h.descriptors fd hold
        · exact hfd
  | removeSocket tSocketFd =>
    have hsub : (listening :: sockets.filter (· ≠ tSocketFd)).Sublist (listening :: sockets) :=
      List.filter_sublist.cons_cons listening
    exact ⟨h.nodup.sublist hsub, fun fd hmem => h.descriptors fd (hsub.subset hmem)⟩
  | selectSocketWithEvents pending => exact h

def fds (p : ConnectionPoll) : List Int32 := p.mPoll.map PollFd.fd

def eventsOf (p : ConnectionPoll) : List UInt16 := p.mPoll.map PollFd.events

structure Packs (listening : Int32) (sockets : List Int32) (p : ConnectionPoll) : Prop where
  fds : p.fds = listening :: Packed.slots (-1) sockets (maxConnections - 1 - sockets.length)
  index : p.mPollIndex = sockets.length + 1
  armed : ∀ events ∈ p.eventsOf.take (sockets.length + 1), events = PollFd.POLLIN

section

variable {listening : Int32} {sockets : List Int32} {p : ConnectionPoll}

theorem Packs.length_le (h : Packs listening sockets p) : sockets.length ≤ maxConnections - 1 := by
  have hlen := congrArg List.length h.fds
  rw [ConnectionPoll.fds, List.length_map, p.length_mPoll, List.length_cons, Packed.slots,
    List.length_append, List.length_replicate] at hlen
  unfold maxConnections at hlen ⊢
  omega

theorem Packs.addSocket_fst (h : Packs listening sockets p) (fd : Int32) :
    (p.addSocket fd).1 = false ↔ sockets.length = maxConnections - 1 := by
  have hle := h.length_le
  have hpos : 0 < maxConnections := by decide
  rw [addSocket]
  split
  · next hfull =>
    rw [h.index] at hfull
    exact iff_of_true rfl (by omega)
  · next hroom =>
    rw [h.index] at hroom
    exact iff_of_false Bool.false_ne_true.symm (by omega)

theorem addSocket_snd_of_false {fd : Int32} (h : (p.addSocket fd).1 = false) :
    (p.addSocket fd).2 = p := by
  rw [addSocket] at h ⊢
  split at h
  · next hfull => rw [if_pos hfull]
  · exact absurd h Bool.false_ne_true.symm

theorem addSocket_room (h : p.mPollIndex < maxConnections) (fd : Int32) :
    (p.addSocket fd).2.fds = p.fds.take p.mPollIndex ++ fd :: p.fds.drop (p.mPollIndex + 1) ∧
      (p.addSocket fd).2.eventsOf = p.eventsOf.take p.mPollIndex ++
        PollFd.POLLIN :: p.eventsOf.drop (p.mPollIndex + 1) ∧
      (p.addSocket fd).2.mPollIndex = p.mPollIndex + 1 := by
  have hindex : p.mPollIndex < p.mPoll.length := by
    rw [p.length_mPoll]
    exact h
  have hslots : (p.addSocket fd).2.mPoll = p.mPoll.take p.mPollIndex ++
      { p.mPoll[p.mPollIndex] with fd, events := PollFd.POLLIN } ::
        p.mPoll.drop (p.mPollIndex + 1) := by
    rw [addSocket, if_neg (not_le.mpr h)]
    exact List.modify_eq_take_cons_drop hindex
  refine ⟨?_, ?_, ?_⟩
  · simp only [ConnectionPoll.fds, hslots, List.map_append, List.map_cons, List.map_take,
      List.map_drop]
  · simp only [eventsOf, hslots, List.map_append, List.map_cons, List.map_take, List.map_drop]
  · rw [addSocket, if_neg (not_le.mpr h)]

theorem Packs.addSocket (h : Packs listening sockets p) (fd : Int32) :
    Packs listening (track sockets (.addSocket fd)) (p.addSocket fd).2 := by
  rw [track]
  split
  · next hfull =>
    rw [addSocket_snd_of_false ((h.addSocket_fst fd).mpr hfull)]
    exact h
  · next hfull =>
    have hle := h.length_le
    have hroom : p.mPollIndex < maxConnections := by
      rw [h.index]
      omega
    obtain ⟨room, hcount⟩ : ∃ room, maxConnections - 1 - sockets.length = room + 1 :=
      ⟨maxConnections - 1 - sockets.length - 1, by omega⟩
    have hlen : (listening :: sockets).length = p.mPollIndex := h.index.symm
    have hfds : p.fds = (listening :: sockets) ++ -1 :: List.replicate room (-1) := by
      rw [h.fds, hcount, Packed.slots, List.replicate_succ, List.cons_append]
    obtain ⟨hadded, hevents, hindex⟩ := addSocket_room hroom fd
    constructor
    · have hrest : maxConnections - 1 - (sockets ++ [fd]).length = room := by
        rw [List.length_append, List.length_singleton]
        omega
      rw [hadded, hfds, ← List.drop_drop, ← hlen, List.take_left, List.drop_left, hrest,
        Packed.slots]
      simp
    · rw [hindex, h.index, List.length_append, List.length_singleton]
    · have hfront : (p.eventsOf.take p.mPollIndex).length = p.mPollIndex := by
        rw [List.length_take, eventsOf, List.length_map, p.length_mPoll]
        omega
      have hcut : (sockets ++ [fd]).length + 1 = (p.eventsOf.take p.mPollIndex).length + 1 := by
        rw [hfront, h.index, List.length_append, List.length_singleton]
      intro events hmem
      rw [hevents, hcut, List.take_length_add_append, List.take_succ_cons, List.take_zero,
        List.mem_append, List.mem_singleton, h.index] at hmem
      rcases hmem with hold | hnew
      · exact h.armed events hold
      · exact hnew

theorem fds_closeSlots (p : ConnectionPoll) (fd : Int32) :
    (p.closeSlots fd).fds = p.fds.take OFFSET ++
      (p.fds.drop OFFSET).map fun held => if held = fd then -1 else held := by
  have hslot : PollFd.fd ∘ closeSlot fd =
      (fun held => if held = fd then -1 else held) ∘ PollFd.fd := by
    funext slot
    simp only [Function.comp_apply, closeSlot]
    split
    · rfl
    · rfl
  rw [fds, closeSlots, List.map_append, List.map_map, hslot, List.map_take, ← List.map_map,
    List.map_drop, fds]

theorem eventsOf_closeSlots (p : ConnectionPoll) (fd : Int32) :
    (p.closeSlots fd).eventsOf = p.eventsOf := by
  have hslot : PollFd.events ∘ closeSlot fd = PollFd.events := by
    funext slot
    simp only [Function.comp_apply, closeSlot]
    split
    · rfl
    · rfl
  rw [eventsOf, closeSlots, List.map_append, List.map_map, hslot, ← List.map_append,
    List.take_append_drop, eventsOf]

theorem map_fd_repositionFrom (slot : PollFd) (slots : List PollFd) :
    (repositionFrom slot slots).map PollFd.fd =
      Packed.passFrom (-1) slot.fd (slots.map PollFd.fd) := by
  induction slots generalizing slot with
  | nil => rfl
  | cons next slots ih =>
    rw [repositionFrom, List.map_cons, Packed.passFrom]
    split
    · rw [List.map_cons, ih]
    · rw [List.map_cons, ih]

theorem map_events_repositionFrom (slot : PollFd) (slots : List PollFd) :
    (repositionFrom slot slots).map PollFd.events = slot.events :: slots.map PollFd.events := by
  induction slots generalizing slot with
  | nil => rfl
  | cons next slots ih =>
    rw [repositionFrom]
    split
    · rw [List.map_cons, ih, List.map_cons]
    · rw [List.map_cons, ih, List.map_cons]

theorem fds_repositionPoll (p : ConnectionPoll) :
    p.repositionPoll.fds = p.fds.take OFFSET ++ Packed.pass (-1) (p.fds.drop OFFSET) := by
  have hpass : ∀ slots : List PollFd,
      (reposition slots).map PollFd.fd = Packed.pass (-1) (slots.map PollFd.fd) := by
    intro slots
    cases slots with
    | nil => rfl
    | cons slot slots => exact map_fd_repositionFrom slot slots
  rw [fds, repositionPoll, List.map_append, hpass, List.map_take, List.map_drop, fds]

theorem eventsOf_repositionPoll (p : ConnectionPoll) : p.repositionPoll.eventsOf = p.eventsOf := by
  have hpass : ∀ slots : List PollFd,
      (reposition slots).map PollFd.events = slots.map PollFd.events := by
    intro slots
    cases slots with
    | nil => rfl
    | cons slot slots => exact map_events_repositionFrom slot slots
  rw [eventsOf, repositionPoll, List.map_append, hpass, ← List.map_append, List.take_append_drop,
    eventsOf]

theorem eventsOf_removeSocket (p : ConnectionPoll) (fd : Int32) :
    (p.removeSocket fd).2.eventsOf = p.eventsOf := by
  rw [removeSocket]
  exact (eventsOf_repositionPoll _).trans (eventsOf_closeSlots p fd)

theorem Held.free_notMem (h : Held listening sockets) : -1 ∉ sockets := by
  intro hmem
  have hneg := h.descriptors (-1) (List.mem_cons_of_mem listening hmem)
  exact absurd hneg (by decide)

theorem fds_removeSocket (h : Packs listening sockets p) (hheld : Held listening sockets)
    (fd : Int32) :
    (p.removeSocket fd).2.fds = listening :: Packed.slots (-1) (sockets.filter (· ≠ fd))
      (maxConnections - 1 - (sockets.filter (· ≠ fd)).length) := by
  have hfree := hheld.free_notMem
  have hmoved : (p.removeSocket fd).2.fds = listening :: Packed.pass (-1)
      ((Packed.slots (-1) sockets (maxConnections - 1 - sockets.length)).map fun held =>
        if held = fd then -1 else held) := by
    have hclosed := fds_closeSlots p fd
    rw [h.fds] at hclosed
    have hrepositioned := fds_repositionPoll (p.closeSlots fd)
    rw [hclosed] at hrepositioned
    exact hrepositioned
  by_cases hmem : fd ∈ sockets
  · rw [Packed.pass_blanked hfree (List.nodup_cons.mp hheld.nodup).2 hmem] at hmoved
    have hlen := congrArg List.length hmoved
    rw [fds, List.length_map, length_mPoll, List.length_cons, Packed.slots, List.length_append,
      List.length_replicate] at hlen
    have hroom : maxConnections - 1 - sockets.length + 1 =
        maxConnections - 1 - (sockets.filter (· ≠ fd)).length := by omega
    rw [hmoved, hroom]
  · have hsame : ∀ held ∈ Packed.slots (-1) sockets (maxConnections - 1 - sockets.length),
        (if held = fd then -1 else held) = id held := by
      intro held hin
      rw [Packed.slots, List.mem_append, List.mem_replicate] at hin
      rcases hin with hin | ⟨-, rfl⟩
      · have hne : held ≠ fd := fun he => hmem (he ▸ hin)
        exact if_neg hne
      · exact ite_self _
    rw [hmoved, List.map_congr_left hsame, List.map_id, Packed.pass_slots hfree,
      Packed.filter_ne_of_notMem hmem]

theorem Packs.removeSocket (h : Packs listening sockets p) (hheld : Held listening sockets)
    (fd : Int32) :
    Packs listening (track sockets (.removeSocket fd)) (p.removeSocket fd).2 := by
  have hfds := fds_removeSocket h hheld fd
  constructor
  · exact hfds
  · have hfree : -1 ∉ sockets.filter (· ≠ fd) :=
      fun hmem => hheld.free_notMem (List.mem_of_mem_filter hmem)
    have hcount : (p.removeSocket fd).2.mPollIndex = OFFSET +
        (((p.removeSocket fd).2.fds.drop OFFSET).takeWhile (· ≠ -1)).length := by
      rw [ConnectionPoll.fds, ← List.map_drop, List.takeWhile_map, List.length_map]
      rfl
    rw [hcount, hfds, OFFSET, List.drop_one, List.tail_cons, Packed.takeWhile_slots hfree, track,
      Nat.add_comm]
  · intro events hmem
    have hle : (sockets.filter (· ≠ fd)).length + 1 ≤ sockets.length + 1 :=
      Nat.succ_le_succ (List.length_filter_le _ _)
    rw [eventsOf_removeSocket] at hmem
    exact h.armed events ((List.take_subset_take_left _ hle) hmem)

theorem removeSocket_closes (h : Packs listening sockets p) (hheld : Held listening sockets)
    {fd : Int32} (hfd : 0 ≤ fd) :
    (p.removeSocket fd).1 = if fd ∈ sockets then [fd] else [] := by
  have hdrop : (p.mPoll.drop OFFSET).map PollFd.fd =
      Packed.slots (-1) sockets (maxConnections - 1 - sockets.length) := by
    have hfds := congrArg (List.drop OFFSET) h.fds
    rwa [fds, ← List.map_drop] at hfds
  have hfree : fd ∉ List.replicate (maxConnections - 1 - sockets.length) (-1 : Int32) := by
    rw [List.mem_replicate]
    rintro ⟨-, rfl⟩
    exact absurd hfd (by decide)
  rw [removeSocket, hdrop, Packed.slots, List.filter_append, List.filter_eq, List.filter_eq,
    List.count_eq_zero_of_not_mem hfree, List.replicate_zero, List.append_nil]
  split
  · next hmem =>
    rw [List.count_eq_one_of_mem (List.nodup_cons.mp hheld.nodup).2 hmem, List.replicate_one]
  · next hmem => rw [List.count_eq_zero_of_not_mem hmem, List.replicate_zero]

/-! ### Selection -/

def Ready (pending : Pending) (fd : Int32) : Prop := 0 ≤ fd ∧ pending fd &&& PollFd.POLLIN ≠ 0

instance (pending : Pending) : DecidablePred (Ready pending) :=
  fun _ => inferInstanceAs (Decidable (_ ∧ _))

def Armed (slots : List PollFd) : Prop := ∀ slot ∈ slots, 0 ≤ slot.fd → slot.events = PollFd.POLLIN

theorem Packs.slots_armed (h : Packs listening sockets p) : Armed p.mPoll := by
  intro slot hslot hfd
  obtain ⟨i, hi, rfl⟩ := List.mem_iff_getElem.mp hslot
  have hget : p.fds[i]? = some (p.mPoll[i]).fd := by
    rw [ConnectionPoll.fds, List.getElem?_map, List.getElem?_eq_getElem hi]
    rfl
  have hin : i < sockets.length + 1 := by
    by_contra hout
    rw [h.fds, Packed.slots, ← List.cons_append,
      List.getElem?_append_right (by simp; omega)] at hget
    have hblank := List.eq_of_mem_replicate (List.mem_of_getElem? hget)
    rw [hblank] at hfd
    exact absurd hfd (by decide)
  apply h.armed
  have hlen : i < (p.eventsOf.take (sockets.length + 1)).length := by
    rw [List.length_take, eventsOf, List.length_map]
    omega
  have hevents : (p.eventsOf.take (sockets.length + 1))[i] = (p.mPoll[i]).events := by
    simp [eventsOf]
  rw [← hevents]
  exact List.getElem_mem hlen

theorem pollin_refresh {pending : Pending} {slot : PollFd}
    (h : 0 ≤ slot.fd → slot.events = PollFd.POLLIN) :
    (refresh pending slot).revents &&& PollFd.POLLIN ≠ 0 ↔ Ready pending slot.fd := by
  by_cases hneg : slot.fd < 0
  · have hnot : ¬0 ≤ slot.fd := Int32.not_le.mpr hneg
    simp [refresh, hneg, Ready, hnot]
  · have hfd : 0 ≤ slot.fd := Int32.not_lt.mp hneg
    have hmask : (PollFd.POLLIN ||| PollFd.unasked) &&& PollFd.POLLIN = PollFd.POLLIN := by decide
    rw [refresh, if_neg hneg, h hfd, UInt16.and_assoc, hmask, Ready]
    simp [hfd]

end

section

variable {pending : Pending}

theorem map_poll {β : Type} {f : PollFd → β} (hf : f ∘ refresh pending = f) (slots : List PollFd)
    (n : ℕ) : (poll pending slots n).2.map f = slots.map f := by
  rw [poll, List.map_append, List.map_map, hf, ← List.map_append, List.take_append_drop]

theorem map_selectLoop {β : Type} {f : PollFd → β} (hf : f ∘ refresh pending = f) (n i : ℕ)
    (slots : List PollFd) : (selectLoop pending n i slots).2.map f = slots.map f := by
  induction n generalizing i slots with
  | zero => rfl
  | succ n ih =>
    simp only [selectLoop]
    split
    · exact map_poll hf slots _
    · split
      · exact map_poll hf slots _
      · rw [ih, map_poll hf]

theorem armed_poll {slots : List PollFd} (h : Armed slots) (n : ℕ) :
    Armed (poll pending slots n).2 := by
  intro slot hslot
  rw [poll, List.mem_append, List.mem_map] at hslot
  rcases hslot with ⟨old, hold, rfl⟩ | hold
  · exact h old (List.mem_of_mem_take hold)
  · exact h slot (List.mem_of_mem_drop hold)

theorem getElem?_take_succ (slots : List PollFd) (i : ℕ) :
    (slots.take (i + ZERO))[i]? = slots[i]? := by
  rw [List.getElem?_take]
  exact if_pos (Nat.lt_succ_self i)

theorem getElem?_poll {slots : List PollFd} {i : ℕ} {slot : PollFd} (h : slots[i]? = some slot) :
    (poll pending slots (i + ZERO)).2[i]? = some (refresh pending slot) := by
  obtain ⟨hi, -⟩ := List.getElem?_eq_some_iff.mp h
  have hlen : i < ((slots.take (i + ZERO)).map (refresh pending)).length := by
    rw [List.length_map, List.length_take, ZERO]
    omega
  rw [poll, List.getElem?_append_left hlen, List.getElem?_map, getElem?_take_succ, h]
  rfl

theorem poll_fst_pos {slots : List PollFd} {i : ℕ} {slot : PollFd} (h : slots[i]? = some slot)
    (hready : (refresh pending slot).revents &&& PollFd.POLLIN ≠ 0) :
    0 < (poll pending slots (i + ZERO)).1 := by
  rw [poll, List.countP_pos_iff]
  refine ⟨refresh pending slot, List.mem_map_of_mem ?_, ?_⟩
  · have hpolled := (getElem?_take_succ slots i).trans h
    exact List.mem_of_getElem? hpolled
  · have hne : (refresh pending slot).revents ≠ 0 := by
      intro hzero
      rw [hzero] at hready
      exact hready (by decide)
    simpa using hne

theorem selectLoop_fst (n i : ℕ) {slots : List PollFd} (hlen : i + n = slots.length)
    (harmed : Armed slots) :
    (selectLoop pending n i slots).1 =
      (((slots.map PollFd.fd).drop i).find? fun fd => Ready pending fd).getD (-1) := by
  induction n generalizing i slots with
  | zero =>
    have hall : (slots.map PollFd.fd).drop i = [] := by
      rw [List.drop_eq_nil_iff, List.length_map]
      omega
    rw [hall]
    rfl
  | succ n ih =>
    obtain ⟨slot, hget⟩ : ∃ slot, slots[i]? = some slot :=
      ⟨slots[i], List.getElem?_eq_getElem (by omega)⟩
    have hdrop : (slots.map PollFd.fd).drop i = slot.fd :: (slots.map PollFd.fd).drop (i + 1) := by
      obtain ⟨hi, rfl⟩ := List.getElem?_eq_some_iff.mp hget
      rw [List.drop_eq_getElem_cons (by rw [List.length_map]; exact hi), List.getElem_map]
    have hready : (refresh pending slot).revents &&& PollFd.POLLIN ≠ 0 ↔ Ready pending slot.fd :=
      pollin_refresh (harmed slot (List.mem_of_getElem? hget))
    simp only [selectLoop, getElem?_poll hget]
    split
    · next hselected =>
      have hslot : Ready pending slot.fd := hready.mp hselected.2.2
      rw [hdrop, List.find?_cons_of_pos (by simpa using hslot)]
      rfl
    · next hpassed =>
      have hslot : ¬Ready pending slot.fd := by
        intro hslot
        have hfree : slot.fd ≠ -1 := by
          intro he
          exact absurd (he ▸ hslot.1) (by decide)
        have hpollin := hready.mpr hslot
        exact hpassed ⟨poll_fst_pos hget hpollin, hfree, hpollin⟩
      have hcount : i + 1 + n = (poll pending slots (i + ZERO)).2.length := by
        rw [length_poll]
        omega
      rw [ih (i + 1) hcount (armed_poll harmed (i + ZERO)), map_poll rfl, hdrop,
        List.find?_cons_of_neg (by simpa using hslot)]

end

section

variable {listening : Int32} {sockets : List Int32} {p : ConnectionPoll}

theorem Packs.selectSocketWithEvents (h : Packs listening sockets p) (pending : Pending) :
    Packs listening sockets (p.selectSocketWithEvents pending).2 := by
  have hfds : (p.selectSocketWithEvents pending).2.fds = p.fds := map_selectLoop rfl _ _ _
  have hevents : (p.selectSocketWithEvents pending).2.eventsOf = p.eventsOf :=
    map_selectLoop rfl _ _ _
  exact ⟨hfds.trans h.fds, h.index, hevents ▸ h.armed⟩

theorem Packs.perform (h : Packs listening sockets p) (hheld : Held listening sockets)
    (op : Operation) : Packs listening (track sockets op) (p.perform op) := by
  cases op with
  | addSocket tSocketFd => exact h.addSocket tSocketFd
  | removeSocket tSocketFd => exact h.removeSocket hheld tSocketFd
  | selectSocketWithEvents pending => exact h.selectSocketWithEvents pending

theorem selectSocketWithEvents_fst (h : Packs listening sockets p) (pending : Pending) :
    (p.selectSocketWithEvents pending).1 =
      (sockets.find? fun fd => Ready pending fd).getD (-1) := by
  have hlen : OFFSET + (maxConnections - OFFSET) = p.mPoll.length := by
    rw [p.length_mPoll]
    rfl
  have hconnected : ((p.mPoll.map PollFd.fd).drop OFFSET) =
      Packed.slots (-1) sockets (maxConnections - 1 - sockets.length) :=
    congrArg (List.drop OFFSET) h.fds
  have hblank : (List.replicate (maxConnections - 1 - sockets.length) (-1 : Int32)).find?
      (fun fd => Ready pending fd) = none := by
    rw [List.find?_eq_none]
    intro fd hfd hready
    rw [List.eq_of_mem_replicate hfd, decide_eq_true_eq] at hready
    exact absurd hready.1 (by decide)
  have hloop : (p.selectSocketWithEvents pending).1 = _ :=
    selectLoop_fst (maxConnections - OFFSET) OFFSET hlen h.slots_armed
  rw [hloop, hconnected, Packed.slots, List.find?_append, hblank, Option.or_none]

def start (memory : Fin maxConnections → PollFd) (listening : Int32) : ConnectionPoll :=
  ((new memory).addSocket listening).2

theorem packs_start (memory : Fin maxConnections → PollFd) (listening : Int32) :
    Packs listening [] (start memory listening) := by
  have hfds : (new memory).fds = List.replicate maxConnections (-1) := by
    rw [ConnectionPoll.fds, new, List.map_ofFn]
    exact List.ofFn_const maxConnections (-1)
  have hempty : (new memory).mPollIndex < maxConnections := Nat.zero_lt_succ 9
  obtain ⟨hadded, hevents, hindex⟩ := addSocket_room hempty listening
  refine ⟨?_, hindex, ?_⟩
  · rw [start, hadded, hfds]
    rfl
  · rw [start, hevents]
    simp [new]

/-- What the slots hold and how the poll answers when `connected` are the sockets added
and not yet removed. -/
structure Represents (listening : Int32) (connected : List Int32) (p : ConnectionPoll) : Prop where
  first : p.fds[0]? = some listening
  held : (p.fds.drop OFFSET).take connected.length = connected
  free : ∀ fd ∈ p.fds.drop (OFFSET + connected.length), fd = -1
  index : p.mPollIndex = connected.length + 1
  refuses : ∀ fd, (p.addSocket fd).1 = false ↔ connected.length = maxConnections - 1
  refused : ∀ fd, (p.addSocket fd).1 = false → (p.addSocket fd).2 = p
  selects : ∀ pending, (p.selectSocketWithEvents pending).1 =
    (connected.find? fun fd => Ready pending fd).getD (-1)
  idle : ∀ pending, (p.selectSocketWithEvents pending).1 = -1 ↔
    ∀ fd ∈ connected, ¬Ready pending fd

theorem Packs.represents (h : Packs listening sockets p) (hheld : Held listening sockets) :
    Represents listening sockets p where
  first := by rw [h.fds, List.getElem?_cons_zero]
  held := by rw [h.fds, OFFSET, List.drop_one, List.tail_cons, Packed.slots, List.take_left]
  free := by
    intro fd hfd
    rw [h.fds, ← List.drop_drop, OFFSET, List.drop_one, List.tail_cons, Packed.slots,
      List.drop_left] at hfd
    exact List.eq_of_mem_replicate hfd
  index := h.index
  refuses := h.addSocket_fst
  refused := fun fd => addSocket_snd_of_false
  selects := selectSocketWithEvents_fst h
  idle := by
    intro pending
    rw [selectSocketWithEvents_fst h]
    cases hfind : sockets.find? fun fd => Ready pending fd with
    | none =>
      refine iff_of_true rfl ?_
      simpa using hfind
    | some fd =>
      have hmem := List.mem_of_find?_eq_some hfind
      have hready : Ready pending fd := by simpa using List.find?_some hfind
      refine iff_of_false ?_ fun hnone => hnone fd hmem hready
      intro hfree
      exact hheld.free_notMem (hfree ▸ hmem)

theorem packs_run {ops : List Operation} (h : Packs listening sockets p)
    (hheld : Held listening sockets)
    (hops : Transition.Always track (Fresh listening) sockets ops) :
    Packs listening (Transition.run track sockets ops) (Transition.run perform p ops) ∧
      Held listening (Transition.run track sockets ops) := by
  induction ops generalizing sockets p with
  | nil => exact ⟨h, hheld⟩
  | cons op ops ih =>
    obtain ⟨hfresh, hrest⟩ := (Transition.always_cons_iff op ops).mp hops
    exact ih (h.perform hheld op) (held_track hheld hfresh) hrest

end

theorem run_represents (memory : Fin maxConnections → PollFd) {listening : Int32}
    (hlistening : 0 ≤ listening) {ops : List Operation}
    (hops : Transition.Always track (Fresh listening) [] ops) :
    Represents listening (Transition.run track [] ops)
      (Transition.run perform (start memory listening) ops) := by
  have hheld : Held listening [] := by
    refine ⟨List.nodup_singleton listening, ?_⟩
    intro fd hfd
    rw [List.mem_singleton.mp hfd]
    exact hlistening
  obtain ⟨hpacks, hheld'⟩ := packs_run (packs_start memory listening) hheld hops
  exact hpacks.represents hheld'

theorem run_represents_four :
    Represents 3 [5, 6] (Transition.run perform (start (fun _ => ⟨0, 0, 0⟩) 3)
      [.addSocket 4, .addSocket 5, .removeSocket 4, .addSocket 6]) := by
  have hops : Transition.Always track (Fresh 3) []
      [.addSocket 4, .addSocket 5, .removeSocket 4, .addSocket 6] := by
    simp only [Transition.always_cons_iff, Transition.always_nil, and_true]
    refine ⟨?_, ?_, trivial, ?_⟩
    all_goals exact ⟨by decide, by decide⟩
  exact run_represents _ (by decide) hops

end ConnectionPoll

end Skype
