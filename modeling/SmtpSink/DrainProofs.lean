import Mathlib.Algebra.Order.BigOperators.Group.Finset
import Mathlib.Data.Fintype.Basic
import Mathlib.Tactic.Ring
import SmtpSink.RelayProofs

/-! # Draining — a relay that is left to itself comes to rest

    Sessions wait for places in the queue, the queue waits for the forwarder, and
    the forwarder waits for the relay.  Nobody waits for a session, so none of
    this can lock up, and nothing of it can go on for ever: every step uses up
    some of what the clients have sent.

    * `left_step` — every step leaves less to be done;
    * `at_rest` — where nothing more can happen, all sessions are closed and the
      queue is empty, also when the forwarder has gone;
    * `relay_drains` — what this means for the mail. -/

namespace SmtpDrain

open Utf8 SmtpReader SmtpRecord SmtpSession SmtpTurn SmtpConnection SmtpRelay Runs BoundedChannel
open SmtpServer (Setup)

/-! ## How much a connection has left to do -/

/-- The moves a connection makes at most, until it is closed. -/
def movesLeft (handshake : Option Bytes) (c : Conn) : Nat :=
  match c.phase with
  | .closed => 0
  | .tls => c.input.length + 1
  | .tlsFresh => c.input.length + 2
  | .upgrading => (handshake.getD []).length + 3
  | .plain => c.input.length + (handshake.getD []).length + 4
  | .fresh => c.input.length + (handshake.getD []).length + 5

theorem movesLeft_le (handshake : Option Bytes) (c : Conn) :
    movesLeft handshake c ≤ c.input.length + (handshake.getD []).length + 5 := by
  unfold movesLeft
  split <;> omega

section

variable {env : Env} {cfg : SmtpConfig} {handshake : Option Bytes} {stamp : Stamp}
  {line : Text} {rest : Bytes} {s : Session} {r : Reaction} {c c' : Conn} {m : Move}

/-- The data of a message is taken from the front of the stream. -/
theorem readDataLoop_rest (n : Nat) :
    ∀ {data input bytes rest : Bytes}, readDataLoop n data input = .ok (bytes, rest) →
      rest.length ≤ input.length := by
  induction n with
  | zero =>
      intro data input bytes rest h
      cases h
      exact le_refl _
  | succ n ih =>
      intro data input bytes rest h
      rw [readDataLoop] at h
      cases hread : readLine input with
      | error e =>
          rw [hread] at h
          cases h
      | ok p =>
          obtain ⟨line, more⟩ := p
          have hlen : more.length ≤ input.length := by
            rw [← readLine_append hread, List.length_append]
            exact Nat.le_add_left _ _
          rw [hread] at h
          dsimp only at h
          rcases dataStep_cases data line with hend | ⟨-, next, hnext⟩
          · rw [hend] at h
            cases h
            exact hlen
          · rw [hnext] at h
            exact (ih h).trans hlen

/-- A turn leaves no more than the stream behind its line. -/
theorem turn_rest (h : Turn env cfg stamp line rest s r) : r.rest.length ≤ rest.length := by
  cases h with
  | dataAccepted bytes rest' hv hl hm hr hdata => exact readDataLoop_rest _ hdata
  | refused | promptPlain | promptLogin | promptPassword | authenticated | ehlo | starttls
  | mailAccepted | rcptAccepted | dataFailed | rset | noop | quit | panicked => exact le_refl _

/-- A call of `process_command` takes a line, or it is the last. -/
theorem movesLeft_loop (h : OwnStep env cfg handshake c m c')
    (hp : c.phase = .plain ∨ c.phase = .tls) : movesLeft handshake c' < movesLeft handshake c := by
  obtain ⟨rfl, rfl, -⟩ := id h
  have hpos : 0 < movesLeft handshake m.before := by
    rcases hp with hp | hp
    · simp only [movesLeft, hp]
      omega
    · simp only [movesLeft, hp]
      omega
  have hclosed : m.after.phase = .closed → movesLeft handshake m.after
      < movesLeft handshake m.before := by
    intro hend
    rwa [movesLeft, hend]
  rcases h.step.loop_cases hp with hquiet | ⟨line, rest, r, hspeaks⟩
  · cases hquiet with
    | hangsUp _ _ hend _ => exact hclosed hend
    | greets hphase | upgrades _ hphase | handshakeFails hphase | greetsTls hphase =>
        rw [hphase] at hp
        rcases hp with hp | hp <;> cases hp
  · have hline := readLine_length hspeaks.read hspeaks.line_ne
    obtain ⟨stamp, hturn⟩ := hspeaks.turn
    have hrest := turn_rest hturn
    rcases hp with hp | hp
    · have hafter : m.after = ⟨plainNext cfg r.result, r.session, r.rest⟩ := by
        rw [hspeaks.after, hp]
        rfl
      rcases plainNext_cases cfg r.result with hnext | hnext | hnext
      · rw [hafter, hnext]
        simp only [movesLeft, hp]
        omega
      · rw [hafter, hnext]
        simp only [movesLeft, hp]
        omega
      · rw [hnext] at hafter
        exact hclosed (congrArg Conn.phase hafter)
    · have hafter : m.after = ⟨tlsNext r.result, r.session, r.rest⟩ := by
        rw [hspeaks.after, hp]
        rfl
      rcases tlsNext_cases r.result with hnext | hnext
      · rw [hafter, hnext]
        simp only [movesLeft, hp]
        omega
      · rw [hnext] at hafter
        exact hclosed (congrArg Conn.phase hafter)

/-- **Every move of a connection leaves fewer.** -/
theorem movesLeft_step (h : OwnStep env cfg handshake c m c') :
    movesLeft handshake c' < movesLeft handshake c := by
  cases hp : c.phase with
  | plain => exact movesLeft_loop h (Or.inl hp)
  | tls => exact movesLeft_loop h (Or.inr hp)
  | fresh =>
      obtain ⟨-, -, stamp, hs⟩ := h
      simp only [connStep, hp, Option.some.injEq, Prod.mk.injEq] at hs
      rw [← hs.2]
      simp only [movesLeft, hp]
      omega
  | upgrading =>
      obtain ⟨-, -, stamp, hs⟩ := h
      cases handshake with
      | none =>
          simp only [connStep, hp, Option.some.injEq, Prod.mk.injEq] at hs
          rw [← hs.2]
          simp only [movesLeft, hp]
          omega
      | some input =>
          simp only [connStep, hp, Option.some.injEq, Prod.mk.injEq] at hs
          rw [← hs.2]
          simp only [movesLeft, upgraded, hp, Option.getD_some]
          omega
  | tlsFresh =>
      obtain ⟨-, -, stamp, hs⟩ := h
      simp only [connStep, hp, Option.some.injEq, Prod.mk.injEq] at hs
      rw [← hs.2]
      simp only [movesLeft, hp]
      omega
  | closed =>
      obtain ⟨-, -, stamp, hs⟩ := h
      simp only [connStep, hp] at hs
      cases hs

/-- A connection that is not closed makes a move. -/
theorem exists_move (env : Env) (cfg : SmtpConfig) (handshake : Option Bytes)
    (hp : c.phase ≠ .closed) : ∃ m c', OwnStep env cfg handshake c m c' := by
  obtain ⟨⟨events, c'⟩, hstep⟩ : ∃ p, connStep env cfg handshake sampleStamp c = some p := by
    cases hphase : c.phase with
    | closed => exact absurd hphase hp
    | upgrading =>
        simp only [connStep, hphase]
        cases handshake <;> exact ⟨_, rfl⟩
    | fresh | tlsFresh | plain | tls =>
        simp only [connStep, hphase]
        exact ⟨_, rfl⟩
  exact ⟨⟨c, events, c'⟩, c', rfl, rfl, sampleStamp, hstep⟩

end

/-! ## How much a relay has left to do -/

/-- A record to be forwarded is still to be given a place, sent, taken and
    attempted; one that was sent is still to be pushed. -/
def cost : Handover → Nat
  | .forward _ => 4
  | .push _ => 1

/-- The steps until a call has returned, and until the forwarder has attempted what
    it sends. -/
def callLeft (call : Call) : Nat := (call.todo.map cost).sum + 1 - call.asked.toNat

/-- The connection once the call under way has returned. -/
def upcoming (t : Sender) : Conn := (t.call.map (fun call => call.move.after)).getD t.conn

/-- The steps a session has left to do, and the forwarder for it: seven for each
    move, and what the call under way comes to. -/
def senderLeft {ι : Type} (sys : Setup ι) (i : ι) : Option Sender → Nat
  | none => 7 * movesLeft (sys.handshake i) (sys.start i) + 1
  | some t => 7 * movesLeft (sys.handshake i) (upcoming t) + (t.call.map callLeft).getD 0

/-- What the forwarder has left to do with the emails in the queue and with the one
    it attempts. -/
def forwarderLeft {ι : Type} (s : Relay ι) : Nat :=
  2 * s.channel.queue.length + s.attempt.toList.length

/-- What a relay has left to do. -/
def left {ι : Type} [Fintype ι] (sys : Setup ι) (s : Relay ι) : Nat :=
  ∑ i, senderLeft sys i (s.senders i) + forwarderLeft s

/-- The sum over a family in which one component changes. -/
theorem sum_update {ι τ : Type} [Fintype ι] [DecidableEq ι] (g : ι → τ → Nat) (f : ι → τ)
    (i : ι) (t : τ) :
    ∑ j, g j (Function.update f i t j) + g i (f i) = ∑ j, g j (f j) + g i t := by
  have hothers : ∑ j ∈ Finset.univ.erase i, g j (Function.update f i t j)
      = ∑ j ∈ Finset.univ.erase i, g j (f j) :=
    Finset.sum_congr rfl
      (fun j hj => by rw [Function.update_of_ne (Finset.ne_of_mem_erase hj)])
  rw [← Finset.add_sum_erase _ _ (Finset.mem_univ i),
    ← Finset.add_sum_erase _ (fun j => g j (f j)) (Finset.mem_univ i), hothers,
    Function.update_self]
  ring

/-- A call comes to six steps at most. -/
theorem callLeft_le {ι : Type} {sys : Setup ι} {i : ι} (hf : sys.cfg.forwardHandle = true)
    {c c' : Conn} {m : Move} (h : sys.Own i c m c') : callLeft ⟨m, handovers m, false⟩ ≤ 6 := by
  rcases handovers_cases hf h with ⟨hnone, -⟩ | ⟨record, hsome, -⟩
  · have hidle : callLeft ⟨m, [], false⟩ = 1 := rfl
    rw [hnone, hidle]
    omega
  · rw [hsome]
    exact le_refl 6

section

variable {ι : Type} [DecidableEq ι] {sys : RelaySetup ι} {i : ι} {s s' : Relay ι}

/-- What a step of a task takes off is more than what it adds to the queue. -/
theorem senderLeft_step (hf : sys.cfg.forwardHandle = true) {a : SenderLabel}
    {t t' : Option Sender} {ch ch' : Channel ι MailRecord}
    (h : SenderStep sys.toSetup i t a t') (hch : Passes ch (a.channel? i) ch') :
    senderLeft sys.toSetup i t' + 2 * ch'.queue.length
      < senderLeft sys.toSetup i t + 2 * ch.queue.length := by
  cases h with
  | accept =>
      obtain rfl : ch' = ch := hch
      show 7 * movesLeft (sys.handshake i) (sys.start i) + 0 + _ < _
      rw [senderLeft]
      omega
  | command c c' m hown =>
      obtain rfl : ch' = ch := hch
      have hless := movesLeft_step hown
      have hcall := callLeft_le hf hown
      show 7 * movesLeft (sys.handshake i) m.after + callLeft ⟨m, handovers m, false⟩ + _
        < 7 * movesLeft (sys.handshake i) c + 0 + _
      rw [hown.2.1]
      omega
  | reserve c m record more =>
      have hch : ChannelStep ch (.reserve i) ch' := hch
      cases hch
      rw [queue_reserve]
      simp only [senderLeft, upcoming, callLeft, cost, Option.map_some, Option.getD_some,
        List.map_cons, List.sum_cons, Bool.toNat_true, Bool.toNat_false]
      omega
  | send c m record more =>
      have hch : ChannelStep ch (.send i record) ch' := hch
      cases hch
      simp only [senderLeft, upcoming, callLeft, cost, Option.map_some, Option.getD_some,
        List.map_cons, List.sum_cons, Bool.toNat_true, Bool.toNat_false, Channel.send,
        List.length_append, List.length_singleton]
      omega
  | refused c m record more asked =>
      have hch : ChannelStep ch (.refuse i record) ch' := hch
      cases hch
      have hasked := Bool.toNat_le asked
      simp only [senderLeft, upcoming, callLeft, cost, Option.map_some, Option.getD_some,
        List.map_cons, List.sum_cons, Bool.toNat_false]
      omega
  | push c m record more =>
      obtain rfl : ch' = ch := hch
      simp only [senderLeft, upcoming, callLeft, cost, Option.map_some, Option.getD_some,
        List.map_cons, List.sum_cons, Bool.toNat_false]
      omega
  | answer c m =>
      obtain rfl : ch' = ch := hch
      show 7 * movesLeft (sys.handshake i) m.after + 0 + _
        < 7 * movesLeft (sys.handshake i) m.after + 1 + _
      omega

/-- **Every step leaves less to be done.** -/
theorem left_step [Fintype ι] (hf : sys.cfg.forwardHandle = true) {a : RelayLabel ι}
    (h : RelayStep sys s a s') : left sys.toSetup s' < left sys.toSetup s := by
  cases h with
  | sender i a t ch htask hch =>
      have hsum := sum_update (senderLeft sys.toSetup) s.senders i t
      have hless := senderLeft_step hf htask hch
      simp only [left, forwarderLeft]
      omega
  | take record ch hfree hch =>
      cases hch with
      | recv record more hopen hq =>
          simp only [left, forwarderLeft, queue_release, hq, hfree, List.length_cons,
            Option.toList_some, Option.toList_none, List.length_nil]
          omega
  | attempted record ok hrecord =>
      simp only [left, forwarderLeft, hrecord, Option.toList_some, Option.toList_none,
        List.length_cons, List.length_nil]
      omega
  | panicked record ch hrecord hpanics hch =>
      -- what is queued is lost
      cases hch
      simp only [left, forwarderLeft, Channel.close, hrecord, Option.toList_some,
        Option.toList_none, List.length_cons, List.length_nil]
      omega

/-- Every state of a relay has a run to one where nothing more can happen. -/
theorem exists_drained [Fintype ι] (hf : sys.cfg.forwardHandle = true) (s : Relay ι) :
    ∃ l s', Run (RelayStep sys) s l s' ∧ ∀ a u, ¬ RelayStep sys s' a u :=
  exists_stuck (left sys.toSetup) (fun _ _ _ h => left_step hf h) s

end

/-! ## Where nothing more can happen -/

/-- All sessions are closed, nothing is queued, and nothing is attempted. -/
structure AtRest {ι : Type} (s : Relay ι) : Prop where
  closed : ∀ i, ∃ c, s.senders i = some ⟨c, none⟩ ∧ c.phase = .closed
  empty : s.channel.queue = []
  idle : s.attempt = none

section

variable {ι : Type} [DecidableEq ι] {sys : RelaySetup ι} {i : ι} {s : Relay ι}

/-- Somebody can go on. -/
def CanMove (sys : RelaySetup ι) (s : Relay ι) : Prop := ∃ a s', RelayStep sys s a s'

/-- A step of a task that does nothing to the channel. -/
theorem canMove_of_step {a : SenderLabel} {t t' : Option Sender} (ht : s.senders i = t)
    (h : SenderStep sys.toSetup i t a t') (hch : SenderLabel.channel? i a = none) :
    CanMove sys s := by
  have hpasses : Passes s.channel (a.channel? i) s.channel := by
    rw [hch]
    exact rfl
  exact ⟨_, _, RelayStep.sender i a t' s.channel (ht ▸ h) hpasses⟩

section

variable {c : Conn} {m : Move} {record : MailRecord} {more : List Handover}

/-- Who was promised a place can use it. -/
theorem canMove_of_granted (hopen : s.channel.closed = false)
    (ht : s.senders i = some ⟨c, some ⟨m, .forward record :: more, true⟩⟩)
    (hplace : i ∈ s.channel.granted) : CanMove sys s :=
  ⟨_, _, RelayStep.sender i (.send record) _ _ (ht ▸ SenderStep.send c m record more)
    (ChannelStep.send i record hopen hplace)⟩

/-- Who has asked for no place can ask for one. -/
theorem canMove_of_unasked (hopen : s.channel.closed = false)
    (ht : s.senders i = some ⟨c, some ⟨m, .forward record :: more, false⟩⟩)
    (hasks : i ∉ s.channel.waiting ++ s.channel.granted) : CanMove sys s :=
  ⟨_, _, RelayStep.sender i .reserve _ _ (ht ▸ SenderStep.reserve c m record more)
    (ChannelStep.reserve i hopen hasks)⟩

/-- With the channel closed, nobody waits for a place. -/
theorem canMove_of_closed {asked : Bool} (hclosed : s.channel.closed = true)
    (ht : s.senders i = some ⟨c, some ⟨m, .forward record :: more, asked⟩⟩) : CanMove sys s :=
  ⟨_, _, RelayStep.sender i (.refused record) _ _ (ht ▸ SenderStep.refused c m record more asked)
    (ChannelStep.refuse i record hclosed)⟩

end

/-- A session in a call goes on, unless it waits for a place in an open channel. -/
theorem canMove_of_call (hf : sys.cfg.forwardHandle = true) {l : List (RelayLabel ι)}
    (hrun : Run (RelayStep sys) Relay.start l s) {c : Conn} {call : Call}
    (ht : s.senders i = some ⟨c, some call⟩) :
    CanMove sys s ∨ s.channel.closed = false ∧ i ∈ s.channel.waiting := by
  obtain ⟨m, todo, asked⟩ := call
  cases progress_of_run hf hrun ht with
  | done => exact Or.inl (canMove_of_step ht (SenderStep.answer c m) rfl)
  | storing record => exact Or.inl (canMove_of_step ht (SenderStep.push c m record []) rfl)
  | forwarding record asked =>
      cases hopen : s.channel.closed with
      | true => exact Or.inl (canMove_of_closed hopen ht)
      | false =>
          have hasked := (Accounts.run hrun).asked_iff hopen ht
          cases asked with
          | false =>
              exact Or.inl (canMove_of_unasked hopen ht (fun h => absurd (hasked.mp h) (by simp)))
          | true =>
              rcases List.mem_append.mp (hasked.mpr rfl) with hwaits | hplace
              · exact Or.inr ⟨rfl, hwaits⟩
              · exact Or.inl (canMove_of_granted hopen ht hplace)

/-- Who has a place is about to send. -/
theorem canMove_of_place (hf : sys.cfg.forwardHandle = true) {l : List (RelayLabel ι)}
    (hrun : Run (RelayStep sys) Relay.start l s) (hopen : s.channel.closed = false)
    (hplace : i ∈ s.channel.granted) : CanMove sys s := by
  have haccounts := Accounts.run hrun
  have hasked := (haccounts.asked hopen i).mp (List.mem_append_right _ hplace)
  cases ht : s.senders i with
  | none =>
      rw [ht] at hasked
      cases hasked
  | some t =>
      obtain ⟨c, call⟩ := t
      cases call with
      | none =>
          rw [ht] at hasked
          cases hasked
      | some call =>
          rcases canMove_of_call hf hrun ht with hmove | ⟨-, hwaits⟩
          · exact hmove
          · -- nobody has a place and waits for one
            have hnodup := (List.nodup_append.mp haccounts.fair.nodup).2.2
            exact absurd rfl (hnodup i hwaits i hplace)

/-- The forwarder goes on as long as there is something to take or to attempt. -/
theorem idle_of_stuck {l : List (RelayLabel ι)} (hrun : Run (RelayStep sys) Relay.start l s)
    (hstuck : ¬ CanMove sys s) : s.attempt = none ∧ s.channel.queue = [] := by
  have haccounts := Accounts.run hrun
  have hidle : s.attempt = none := by
    cases hattempt : s.attempt with
    | none => rfl
    | some record =>
        have hopen := haccounts.alive (by rw [hattempt]; exact Option.some_ne_none record)
        cases hpanics : sys.panics record with
        | false => exact absurd ⟨_, _, RelayStep.attempted record true hattempt hpanics⟩ hstuck
        | true =>
            exact absurd ⟨_, _, RelayStep.panicked record _ hattempt hpanics
              (ChannelStep.close hopen)⟩ hstuck
  refine ⟨hidle, ?_⟩
  cases hopen : s.channel.closed with
  | true => exact haccounts.fair.lost hopen
  | false =>
      cases hq : s.channel.queue with
      | nil => rfl
      | cons record more =>
          exact absurd ⟨_, _, RelayStep.take record _ hidle
            (ChannelStep.recv record more hopen hq)⟩ hstuck

/-- **Nothing locks up**: in every reachable state somebody can go on, unless all is
    done. -/
theorem at_rest (hf : sys.cfg.forwardHandle = true) {l : List (RelayLabel ι)}
    (hrun : Run (RelayStep sys) Relay.start l s) (hstuck : ¬ CanMove sys s) : AtRest s := by
  have haccounts := Accounts.run hrun
  obtain ⟨hidle, hempty⟩ := idle_of_stuck hrun hstuck
  -- with an empty queue, places are free or promised, and nobody waits
  have hnobody : s.channel.closed = false → s.channel.waiting = [] := by
    intro hopen
    by_contra hwaits
    have hplaces := haccounts.fair.places
    rw [haccounts.fair.waits hwaits, hempty, List.length_nil, Nat.zero_add, Nat.add_zero]
      at hplaces
    obtain ⟨i, hi⟩ := List.exists_mem_of_length_pos (by
      rw [hplaces]
      exact Nat.succ_pos _ : 0 < s.channel.granted.length)
    exact hstuck (canMove_of_place hf hrun hopen hi)
  refine ⟨fun i => ?_, hempty, hidle⟩
  cases ht : s.senders i with
  | none => exact absurd (canMove_of_step ht SenderStep.accept rfl) hstuck
  | some t =>
      obtain ⟨c, call⟩ := t
      cases call with
      | some call =>
          rcases canMove_of_call hf hrun ht with hmove | ⟨hopen, hwaits⟩
          · exact absurd hmove hstuck
          · rw [hnobody hopen] at hwaits
            cases hwaits
      | none =>
          refine ⟨c, rfl, ?_⟩
          by_contra hopen
          obtain ⟨m, c', hown⟩ := exists_move sys.env sys.cfg (sys.handshake i) hopen
          exact hstuck (canMove_of_step ht (SenderStep.command c c' m hown) rfl)

end

/-! ## What has been done by then -/

/-- The moves a task has begun, in order. -/
def begun (k : List SenderLabel) : List Move :=
  k.filterMap (fun a =>
    match a with
    | .command m => some m
    | _ => none)

/-- What a call has yet to push. -/
def unpushed (todo : List Handover) : List MailRecord :=
  todo.filterMap (fun x =>
    match x with
    | .push record => some record
    | .forward _ => none)

/-- What the steps of a task say about its connection: its moves are a run of the
    connection alone, and what they store is pushed, or is yet to be pushed. -/
structure Served {ι : Type} (sys : Setup ι) (i : ι) (k : List SenderLabel) (t : Sender) : Prop where
  run : Run (sys.Own i) (sys.start i) (begun k) (upcoming t)
  stored : pushes k ++ unpushed t.todo = (begun k).flatMap Move.pushed

theorem begun_snoc (k : List SenderLabel) (a : SenderLabel) :
    begun (k ++ [a]) = begun k ++ begun [a] := List.filterMap_append

/-- What a move hands over to the store is what it pushes. -/
theorem unpushed_handovers (m : Move) : unpushed (handovers m) = m.pushed := by
  rw [unpushed, handovers, List.filterMap_filterMap, Move.pushed]
  refine List.filterMap_congr (fun e _ => ?_)
  cases e <;> rfl

section

variable {ι : Type} {sys : Setup ι} {i : ι} {k : List SenderLabel}

/-- A step within a call hands over nothing but the first it owes. -/
theorem Served.carry {t u : Sender} {a : SenderLabel} (hI : Served sys i k t)
    (hbegun : begun [a] = []) (hconn : upcoming u = upcoming t)
    (htodo : unpushed t.todo = pushes [a] ++ unpushed u.todo) : Served sys i (k ++ [a]) u := by
  have hsame : begun (k ++ [a]) = begun k := by
    rw [begun_snoc, hbegun, List.append_nil]
  refine ⟨?_, ?_⟩
  · rw [hsame, hconn]
    exact hI.run
  · rw [hsame, ← hI.stored, htodo, pushes_snoc, List.append_assoc]

theorem Served.step {t : Sender} {a : SenderLabel} {t' : Option Sender}
    (hI : Served sys i k t) (h : SenderStep sys i (some t) a t') :
    ∃ u, t' = some u ∧ Served sys i (k ++ [a]) u := by
  cases h with
  | command c c' m hown =>
      obtain ⟨hrun, hstored⟩ := hI
      refine ⟨_, rfl, ?_, ?_⟩
      · rw [begun_snoc]
        show Run (sys.Own i) (sys.start i) (begun k ++ [m]) m.after
        rw [hown.2.1]
        exact hrun.snoc hown
      · have hall : pushes k = (begun k).flatMap Move.pushed := by
          rw [← hstored]
          exact (List.append_nil _).symm
        rw [begun_snoc, pushes_snoc, List.flatMap_append, hall]
        show _ ++ [] ++ unpushed (handovers m) = _ ++ [m].flatMap Move.pushed
        rw [List.append_nil, unpushed_handovers, List.flatMap_singleton]
  | reserve c m record more =>
      exact ⟨_, rfl, hI.carry rfl rfl rfl⟩
  | send c m record more =>
      exact ⟨_, rfl, hI.carry rfl rfl rfl⟩
  | refused c m record more asked =>
      exact ⟨_, rfl, hI.carry rfl rfl rfl⟩
  | push c m record more =>
      exact ⟨_, rfl, hI.carry rfl rfl rfl⟩
  | answer c m =>
      exact ⟨_, rfl, hI.carry rfl rfl rfl⟩

theorem Served.run_served {t? : Option Sender}
    (h : Run (SenderStep sys i) none k t?) :
    (t? = none ∧ k = []) ∨ ∃ t, t? = some t ∧ Served sys i k t := by
  refine h.history_rule (I := fun k t? => (t? = none ∧ k = [])
    ∨ ∃ t, t? = some t ∧ Served sys i k t) (Or.inl ⟨rfl, rfl⟩) ?_
  rintro k t? a u (⟨rfl, rfl⟩ | ⟨t, rfl, hI⟩) hstep
  · cases hstep with
    | accept => exact Or.inr ⟨_, rfl, Run.nil, rfl⟩
  · exact Or.inr (hI.step hstep)

end

/-- **At rest, all mail has been pushed**: each session has gone its whole way as if
    it were alone, and has pushed what it stores there. -/
theorem AtRest.stored {ι : Type} [DecidableEq ι] {sys : RelaySetup ι} {s : Relay ι}
    {l : List (RelayLabel ι)} (hrun : Run (RelayStep sys) Relay.start l s) (h : AtRest s)
    (i : ι) : ∃ moves c, Run (sys.Own i) (sys.start i) moves c ∧ c.phase = .closed
      ∧ SmtpRelay.of i (pushed l) = moves.flatMap Move.pushed := by
  obtain ⟨c, ht, hclosed⟩ := h.closed i
  rcases Served.run_served (sender_run hrun i) with ⟨hnone, -⟩ | ⟨t, hsome, hserved⟩
  · rw [ht] at hnone
    cases hnone
  · obtain rfl := Option.some.inj (ht.symm.trans hsome)
    -- the task is in no call, so it owes nothing
    have hpushed := hserved.stored
    rw [show unpushed (Sender.todo ⟨c, none⟩) = [] from rfl, List.append_nil] at hpushed
    exact ⟨_, c, hserved.run, hclosed, by rw [of_pushed, hpushed]⟩

/-- **At rest, all mail has been attempted**, where no attempt has panicked: each
    session has enqueued what it has pushed, and the forwarder has attempted all that
    was enqueued, in order. -/
theorem AtRest.relayed {ι : Type} [DecidableEq ι] {sys : RelaySetup ι} {s : Relay ι}
    {l : List (RelayLabel ι)} (hf : sys.cfg.forwardHandle = true)
    (hrun : Run (RelayStep sys) Relay.start l s)
    (hcalm : ∀ record ∈ taken l, sys.panics record = false) (h : AtRest s) :
    (∀ i, SmtpRelay.of i (enqueued l) = SmtpRelay.of i (pushed l))
      ∧ (attempts l).map Prod.fst = (enqueued l).map Prod.snd := by
  have hopen := (open_of_calm hrun hcalm).1
  constructor
  · intro i
    obtain ⟨c, ht, -⟩ := h.closed i
    rcases history hf hrun i with ⟨hnone, -⟩ | ⟨t, hsome, hhistory⟩
    · rw [ht] at hnone
      cases hnone
    · obtain rfl := Option.some.inj (ht.symm.trans hsome)
      have hsent := hhistory.orders
      rw [show between (Sender.todo ⟨c, none⟩) = [] from rfl, List.append_nil,
        forwards_eq_sends (not_refused hrun hopen)] at hsent
      rw [of_enqueued, hsent, of_pushed]
  · have hfifo := fifo (channel_run hrun) hopen
    have hattempts := attempts_eq hrun hopen
    rw [taken_eq, enqueued_eq, h.empty, List.append_nil] at hfifo
    rw [h.idle, Option.toList_none, List.append_nil] at hattempts
    exact hattempts.trans hfifo

/-- **A relay drains.**  However the steps of any number of sessions and of the
    forwarder interleave, and whatever the attempts come to, a run takes at most
    seven steps for each byte the clients send and a few more; and where nothing
    more can happen, each session has gone its whole way as if it were alone and
    has pushed, in order, what it stores there.  Unless an attempt has panicked, it
    has enqueued just that, and the forwarder has attempted all that was enqueued,
    once and in order. -/
theorem relay_drains {ι : Type} [Fintype ι] [DecidableEq ι] {sys : RelaySetup ι} {s : Relay ι}
    {l : List (RelayLabel ι)} (hf : sys.cfg.forwardHandle = true)
    (hrun : Run (RelayStep sys) Relay.start l s) :
    l.length ≤ ∑ i, (7 * ((sys.start i).input.length + ((sys.handshake i).getD []).length + 5) + 1)
      ∧ ((∀ a s', ¬ RelayStep sys s a s') →
        (∀ i, ∃ moves c, Run (sys.Own i) (sys.start i) moves c ∧ c.phase = .closed
            ∧ SmtpRelay.of i (pushed l) = moves.flatMap Move.pushed)
          ∧ ((∀ record ∈ taken l, sys.panics record = false) →
            (∀ i, SmtpRelay.of i (enqueued l) = SmtpRelay.of i (pushed l))
              ∧ (attempts l).map Prod.fst = (enqueued l).map Prod.snd)) := by
  constructor
  · have hlen := hrun.length_add_le (left sys.toSetup) (fun _ _ _ _ _ hstep => left_step hf hstep)
    have hbound : left sys.toSetup Relay.start ≤ ∑ i,
        (7 * ((sys.start i).input.length + ((sys.handshake i).getD []).length + 5) + 1) := by
      have hempty : forwarderLeft (Relay.start : Relay ι) = 0 := rfl
      rw [left, hempty, Nat.add_zero]
      refine Finset.sum_le_sum (fun i _ => ?_)
      have hmoves := movesLeft_le (sys.handshake i) (sys.start i)
      show 7 * movesLeft (sys.handshake i) (sys.start i) + 1 ≤ _
      omega
    omega
  · intro hstuck
    have hrest := at_rest hf hrun (fun ⟨a, s', h⟩ => hstuck a s' h)
    exact ⟨hrest.stored hrun, fun hcalm => hrest.relayed hf hrun hcalm⟩

/-- Where an attempt panics if all mail is to be sent by somebody who is no mailbox:
    nowhere, for each attempt fails before it comes to the date. -/
def nobodyPanics : MailRecord → Bool :=
  SmtpForward.panics SmtpForward.sampleReading ⟨none, some ['a']⟩

theorem nobodyPanics_eq (record : MailRecord) : nobodyPanics record = false := by
  rw [← Bool.not_eq_true, nobodyPanics, SmtpForward.forwardEmail_panics_iff]
  rintro ⟨hsender, -⟩
  exact hsender (show SmtpForward.simpleMailbox ['a'] = none by decide)

/-- One client, with one message. -/
def lone : RelaySetup Unit where
  env := sampleEnv
  cfg := SmtpEnvelope.openConfig
  start := fun _ => Conn.start SmtpEnvelope.openConfig SmtpEnvelope.oneSender
  handshake := fun _ => none
  panics := nobodyPanics

theorem relay_drains_lone : ∃ l s, Run (RelayStep lone) Relay.start l s
    ∧ l.length ≤ ∑ i, (7 * ((lone.start i).input.length + ((lone.handshake i).getD []).length + 5)
      + 1)
    ∧ (attempts l).map Prod.fst = (enqueued l).map Prod.snd := by
  have hf : lone.cfg.forwardHandle = true := rfl
  obtain ⟨l, s, hrun, hstuck⟩ := exists_drained hf Relay.start
  have hdrains := relay_drains hf hrun
  exact ⟨l, s, hrun, hdrains.1, ((hdrains.2 hstuck).2 (fun r _ => nobodyPanics_eq r)).2⟩

end SmtpDrain
