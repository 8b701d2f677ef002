import Mathlib.Data.List.Perm.Subperm
import SmtpSink.RelayProofs

/-! # Backpressure — how a slow relay holds its sessions back

    The queue to the forwarder has 100 places, and as long as there is a forwarder
    a session stores a record only after it has sent it, so the store is never far
    ahead of the relay: at most 101 records more are stored than have been
    attempted (`store_ahead`). -/

namespace SmtpBackpressure

open SmtpRecord SmtpRelay Runs BoundedChannel

section

variable {ι : Type} [DecidableEq ι] {sys : RelaySetup ι} {s : Relay ι} {l : List (RelayLabel ι)}

/-- The part of a session has as many records as the session occurs. -/
theorem length_of (i : ι) (l : List (ι × MailRecord)) :
    (SmtpRelay.of i l).length = (l.map Prod.fst).count i := by
  rw [SmtpRelay.of, List.length_map, List.count, List.countP_map, List.countP_eq_length_filter]
  exact congrArg List.length (List.filter_congr (fun p _ => rfl))

/-- What is stored was sent before. -/
theorem length_pushed_le (hf : sys.cfg.forwardHandle = true)
    (hrun : Run (RelayStep sys) Relay.start l s) (hopen : s.channel.closed = false) :
    (pushed l).length ≤ (enqueued l).length := by
  have hsub : ((pushed l).map Prod.fst).Subperm ((enqueued l).map Prod.fst) := by
    refine List.subperm_ext_iff.mpr (fun i _ => ?_)
    obtain ⟨waiting, hw, -⟩ := enqueued_pushed hf hrun hopen i
    rw [← length_of, ← length_of, hw, List.length_append]
    exact Nat.le_add_right _ _
  have hlen := hsub.length_le
  rwa [List.length_map, List.length_map] at hlen

end

/-- **The store is never far ahead of the relay.**  In every reachable state in which
    the forwarder's task has not ended, however long the attempts take, at most 101
    records more have been stored than have been attempted: those in the queue and
    the one that is being attempted. -/
theorem store_ahead {ι : Type} [DecidableEq ι] {sys : RelaySetup ι} {s : Relay ι}
    {l : List (RelayLabel ι)} (hf : sys.cfg.forwardHandle = true)
    (hrun : Run (RelayStep sys) Relay.start l s) (hopen : s.channel.closed = false) :
    (pushed l).length ≤ (attempts l).length + 101 := by
  have hpushed := length_pushed_le hf hrun hopen
  have hfifo := congrArg List.length (fifo (channel_run hrun) hopen)
  have hattempts := congrArg List.length (attempts_eq hrun hopen)
  have hone : s.attempt.toList.length ≤ 1 := by
    cases s.attempt with
    | none => exact Nat.zero_le 1
    | some record => exact le_refl 1
  have hplaces := (Accounts.run hrun).fair.places
  have hempty : (Relay.start : Relay ι).channel.queue = [] := rfl
  rw [taken_eq, enqueued_eq, hempty, List.nil_append, List.length_append, List.length_map]
    at hfifo
  rw [List.length_append, List.length_map] at hattempts
  rw [capacity] at hplaces
  omega

theorem store_ahead_crowd : ∃ l s record, Run (RelayStep crowd) Relay.start l s
    ∧ s.attempt = some record ∧ (pushed l).length ≤ (attempts l).length + 101 := by
  obtain ⟨l, s, record, hrun, hch, hattempt, -⟩ := crowd_first
  exact ⟨l, s, record, hrun, hattempt, store_ahead rfl hrun (by rw [hch]; rfl)⟩

end SmtpBackpressure
