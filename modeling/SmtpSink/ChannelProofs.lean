import Mathlib.Data.List.Nodup
import SmtpSink.RunProofs

/-! # Bounded channels — senders that wait for a place

    A bounded channel has a fixed number of places.  A sender first asks for a
    place: it gets a free one, or it waits behind those that asked before.  With
    a place it puts its message at the end of the queue.  The receiver takes the
    message at the front, and the place it had goes to the sender that has waited
    longest, or is free again.  When the receiver goes, the channel is closed:
    what is queued is lost, and whoever sends is refused at once.

    * `Fair` — every place is free, promised or taken, nobody waits while a place
      is free, and nothing is queued once the channel is closed;
    * `fifo` — as long as a channel is open, what was received and what is queued
      is what was sent, in order. -/

namespace BoundedChannel

open Runs

variable {ι α : Type}

/-- A channel: the free places, the senders that wait for one and those that
    were promised one, and the messages that take one. -/
structure Channel (ι α : Type) where
  free : Nat
  waiting : List ι
  granted : List ι
  queue : List α
  /-- the receiver is gone -/
  closed : Bool

/-- An empty channel. -/
def Channel.new (capacity : Nat) : Channel ι α := ⟨capacity, [], [], [], false⟩

/-- A sender asks for a place. -/
def Channel.reserve (ch : Channel ι α) (i : ι) : Channel ι α :=
  if 0 < ch.free then { ch with free := ch.free - 1, granted := ch.granted ++ [i] }
  else { ch with waiting := ch.waiting ++ [i] }

/-- A sender puts a message into its place. -/
def Channel.send [DecidableEq ι] (ch : Channel ι α) (i : ι) (a : α) : Channel ι α :=
  { ch with granted := ch.granted.erase i, queue := ch.queue ++ [a] }

/-- A place is given back. -/
def Channel.release (ch : Channel ι α) : Channel ι α :=
  match ch.waiting with
  | [] => { ch with free := ch.free + 1 }
  | i :: more => { ch with waiting := more, granted := ch.granted ++ [i] }

/-- The receiver goes: nobody waits any more, no promise holds, and the messages
    are lost. -/
def Channel.close (ch : Channel ι α) : Channel ι α :=
  ⟨ch.free + ch.granted.length + ch.queue.length, [], [], [], true⟩

inductive ChannelLabel (ι α : Type) where
  | reserve (i : ι)
  | send (i : ι) (a : α)
  /-- a message is not taken, for the channel is closed -/
  | refuse (i : ι) (a : α)
  | recv (a : α)
  | close

/-- The steps of a channel; a sender has one message under way at most. -/
inductive ChannelStep [DecidableEq ι] (ch : Channel ι α) :
    ChannelLabel ι α → Channel ι α → Prop where
  | reserve (i : ι) : ch.closed = false → i ∉ ch.waiting ++ ch.granted →
      ChannelStep ch (.reserve i) (ch.reserve i)
  | send (i : ι) (a : α) : ch.closed = false → i ∈ ch.granted →
      ChannelStep ch (.send i a) (ch.send i a)
  | refuse (i : ι) (a : α) : ch.closed = true → ChannelStep ch (.refuse i a) ch
  | recv (a : α) (more : List α) : ch.closed = false → ch.queue = a :: more →
      ChannelStep ch (.recv a) ({ ch with queue := more } : Channel ι α).release
  | close : ch.closed = false → ChannelStep ch .close ch.close

/-- The message a label puts into the queue. -/
def ChannelLabel.sent? : ChannelLabel ι α → Option α
  | .send _ a => some a
  | .reserve _ | .refuse _ _ | .recv _ | .close => none

/-- The message a label takes out of the queue. -/
def ChannelLabel.received? : ChannelLabel ι α → Option α
  | .recv a => some a
  | .reserve _ | .send _ _ | .refuse _ _ | .close => none

/-- The accounts of a channel. -/
structure Fair (capacity : Nat) (ch : Channel ι α) : Prop where
  places : ch.free + ch.granted.length + ch.queue.length = capacity
  waits : ch.waiting ≠ [] → ch.free = 0
  nodup : (ch.waiting ++ ch.granted).Nodup
  lost : ch.closed = true → ch.queue = []

variable {capacity : Nat} {ch ch' : Channel ι α} {i j : ι} {a : α}

theorem Fair.new (capacity : Nat) : Fair capacity (Channel.new capacity : Channel ι α) :=
  ⟨rfl, fun h => absurd rfl h, List.nodup_nil, fun _ => rfl⟩

/-! ## The operations one by one -/

theorem reserve_of_free (h : 0 < ch.free) :
    ch.reserve i = { ch with free := ch.free - 1, granted := ch.granted ++ [i] } := if_pos h

theorem reserve_of_full (h : ch.free = 0) :
    ch.reserve i = { ch with waiting := ch.waiting ++ [i] } :=
  if_neg (h ▸ Nat.lt_irrefl 0)

@[simp] theorem queue_reserve : (ch.reserve i).queue = ch.queue := by
  rw [Channel.reserve]
  split_ifs <;> rfl

@[simp] theorem closed_reserve : (ch.reserve i).closed = ch.closed := by
  rw [Channel.reserve]
  split_ifs <;> rfl

@[simp] theorem queue_release : ch.release.queue = ch.queue := by
  rw [Channel.release]
  cases ch.waiting <;> rfl

@[simp] theorem closed_release : ch.release.closed = ch.closed := by
  rw [Channel.release]
  cases ch.waiting <;> rfl

/-- Who asks is waiting or has a place, and nobody else changes. -/
theorem mem_reserve : j ∈ (ch.reserve i).waiting ++ (ch.reserve i).granted
    ↔ j ∈ ch.waiting ++ ch.granted ∨ j = i := by
  rw [Channel.reserve]
  split_ifs
  · simp only [List.mem_append, List.mem_singleton, or_assoc]
  · simp only [List.mem_append, List.mem_singleton]
    tauto

theorem mem_release : j ∈ ch.release.waiting ++ ch.release.granted
    ↔ j ∈ ch.waiting ++ ch.granted := by
  rw [Channel.release]
  cases ch.waiting with
  | nil => exact Iff.rfl
  | cons i more =>
      simp only [List.mem_append, List.mem_cons, List.not_mem_nil, or_false]
      tauto

/-- Who sends is neither waiting nor has a place any more. -/
theorem Fair.mem_send [DecidableEq ι] (h : Fair capacity ch) :
    j ∈ (ch.send i a).waiting ++ (ch.send i a).granted
      ↔ j ∈ ch.waiting ++ ch.granted ∧ (j = i → i ∉ ch.granted) := by
  have hnodup := List.nodup_append.mp h.nodup
  show j ∈ ch.waiting ++ ch.granted.erase i ↔ _
  rw [List.mem_append, List.mem_append, hnodup.2.1.mem_erase_iff]
  constructor
  · rintro (hw | ⟨hne, hg⟩)
    · -- who waits has no place yet
      refine ⟨Or.inl hw, ?_⟩
      rintro rfl hg
      exact hnodup.2.2 _ hw _ hg rfl
    · exact ⟨Or.inr hg, fun heq => absurd heq hne⟩
  · rintro ⟨hw | hg, hne⟩
    · exact Or.inl hw
    · exact Or.inr ⟨fun heq => hne heq (heq ▸ hg), hg⟩

theorem Fair.reserve (h : Fair capacity ch) (hi : i ∉ ch.waiting ++ ch.granted) :
    Fair capacity (ch.reserve i) := by
  have hnodup : ((ch.waiting ++ ch.granted) ++ [i]).Nodup := by
    rw [List.nodup_append]
    refine ⟨h.nodup, List.nodup_singleton i, fun j hj k hk => ?_⟩
    obtain rfl := List.mem_singleton.mp hk
    exact fun heq => hi (heq ▸ hj)
  by_cases hfree : 0 < ch.free
  · rw [reserve_of_free hfree]
    refine ⟨?_, fun hw => absurd (h.waits hw) (Nat.pos_iff_ne_zero.mp hfree), ?_, h.lost⟩
    · have := h.places
      simp only [List.length_append, List.length_singleton]
      omega
    · rwa [← List.append_assoc]
  · -- the sender joins the end of those that wait
    have hzero := Nat.eq_zero_of_not_pos hfree
    rw [reserve_of_full hzero]
    refine ⟨h.places, fun _ => hzero, ?_, h.lost⟩
    have hperm : ((ch.waiting ++ [i]) ++ ch.granted).Perm ((ch.waiting ++ ch.granted) ++ [i]) := by
      rw [List.append_assoc, List.append_assoc]
      exact List.perm_append_comm.append_left ch.waiting
    exact hperm.nodup_iff.mpr hnodup

theorem Fair.send [DecidableEq ι] (h : Fair capacity ch) (hopen : ch.closed = false)
    (hi : i ∈ ch.granted) (a : α) : Fair capacity (ch.send i a) := by
  refine ⟨?_, h.waits, ?_, fun hclosed => ?_⟩
  · have hpos := List.length_pos_of_mem hi
    have hplaces := h.places
    simp only [Channel.send, List.length_erase_of_mem hi, List.length_append,
      List.length_singleton]
    omega
  · exact h.nodup.sublist (List.erase_sublist.append_left ch.waiting)
  · exact absurd (hopen.symm.trans hclosed) Bool.false_ne_true

/-- The place of a message that is taken is promised or free again. -/
theorem Fair.recv (h : Fair capacity ch) {more : List α} (hq : ch.queue = a :: more) :
    Fair capacity ({ ch with queue := more } : Channel ι α).release := by
  have hplaces := h.places
  rw [hq, List.length_cons] at hplaces
  have hlost : ch.closed = true → more = [] := fun hclosed => by
    rw [h.lost hclosed] at hq
    cases hq
  rw [Channel.release]
  cases hw : ch.waiting with
  | nil =>
      -- nobody waits: the place is free again
      have hnodup := h.nodup
      rw [hw] at hnodup
      refine ⟨?_, fun hne => absurd rfl hne, hnodup, hlost⟩
      dsimp only
      omega
  | cons i rest =>
      -- the place goes to the one that has waited longest
      have hzero := h.waits (by rw [hw]; exact List.cons_ne_nil i rest)
      have hnodup := h.nodup
      rw [hw] at hnodup
      refine ⟨?_, fun _ => hzero, ?_, hlost⟩
      · simp only [List.length_append, List.length_singleton]
        omega
      · have hperm : (rest ++ (ch.granted ++ [i])).Perm (i :: rest ++ ch.granted) := by
          rw [← List.append_assoc, List.cons_append]
          exact List.perm_append_singleton i (rest ++ ch.granted)
        exact hperm.nodup_iff.mpr hnodup

theorem Fair.close (h : Fair capacity ch) : Fair capacity ch.close :=
  ⟨h.places, fun hw => absurd rfl hw, List.nodup_nil, fun _ => rfl⟩

/-! ## Runs -/

variable [DecidableEq ι] {l : List (ChannelLabel ι α)}

theorem Fair.step {b : ChannelLabel ι α} (h : Fair capacity ch) (hs : ChannelStep ch b ch') :
    Fair capacity ch' := by
  cases hs with
  | reserve i _ hi => exact h.reserve hi
  | send i a hopen hi => exact h.send hopen hi a
  | refuse => exact h
  | recv a more _ hq => exact h.recv hq
  | close => exact h.close

theorem Fair.run (h : Fair capacity ch) (hr : Run ChannelStep ch l ch') : Fair capacity ch' := by
  induction hr with
  | nil => exact h
  | snoc _ hs ih => exact ih.step hs

/-- A closed channel stays closed. -/
theorem open_of_step {b : ChannelLabel ι α} (hs : ChannelStep ch b ch')
    (hopen : ch'.closed = false) : ch.closed = false := by
  cases hs with
  | reserve i h => exact h
  | send i a h => exact h
  | refuse i a h => exact hopen
  | recv a more h => exact h
  | close h => exact h

/-- **An open channel is first-in first-out, and loses nothing.** -/
theorem fifo (h : Run ChannelStep ch l ch') (hopen : ch'.closed = false) :
    l.filterMap ChannelLabel.received? ++ ch'.queue
      = ch.queue ++ l.filterMap ChannelLabel.sent? := by
  induction h with
  | nil => simp
  | @snoc l t u b _ hs ih =>
      rw [List.filterMap_append, List.filterMap_append, ← List.append_assoc,
        ← ih (open_of_step hs hopen)]
      cases hs with
      | reserve i _ hi =>
          rw [queue_reserve, List.filterMap_cons_none rfl, List.filterMap_cons_none rfl,
            List.filterMap_nil, List.filterMap_nil, List.append_nil, List.append_nil]
      | send i a _ hi => simp [ChannelLabel.received?, ChannelLabel.sent?, Channel.send]
      | refuse i a hclosed =>
          rw [hclosed] at hopen
          cases hopen
      | recv a more _ hq => simp [ChannelLabel.received?, ChannelLabel.sent?, hq]
      | close => cases hopen

end BoundedChannel
