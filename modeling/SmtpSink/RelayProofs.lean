import SmtpSink.ChannelProofs
import SmtpSink.ServerProofs

/-! # The relay — storage behind a bounded queue

    Where forwarding is configured, a session hands a record to the forwarder
    before it stores it.  The hand-over is a `send` into a channel with 100
    places, which waits while all of them are taken; the forwarder takes one
    record after the other and attempts it, for as long as that takes.  An attempt
    may panic; that ends the forwarder's task and closes the channel, and from then
    on sessions store what they could not hand over.

    * `queue_linear` — as long as no attempt panics, the channel neither loses,
      repeats nor reorders records, and a session stores what it has sent, in the
      same order; a message of the year 1960 makes one panic (`queue_loses`);
    * `stores_unaided_iff` — a session can store a record without the forwarder
      just where the record has a place or can have one, or nobody takes it. -/

namespace SmtpRelay

open Utf8 SmtpReader SmtpRecord SmtpSession SmtpConnection SmtpServer Runs BoundedChannel

/-! ## Sessions, the channel, and the forwarder -/

/-- What is done with a record behind its DATA. -/
inductive Handover where
  /-- `fwd.forward` -/
  | forward (record : MailRecord)
  /-- `store.push` -/
  | push (record : MailRecord)

def handover? : Event → Option Handover
  | .forward record => some (.forward record)
  | .push record => some (.push record)
  | .read _ | .write _ | .body _ => none

/-- What a move hands over, in order. -/
def handovers (m : Move) : List Handover := m.events.filterMap handover?

/-- A call of `process_command` under way: what it has yet to hand over, and
    whether the `send` of the next record has asked for a place. -/
structure Call where
  move : Move
  todo : List Handover
  asked : Bool

/-- The task of a connection, between two calls or in one. -/
structure Sender where
  conn : Conn
  call : Option Call

inductive SenderLabel where
  | accept
  /-- a call takes what the client sent -/
  | command (m : Move)
  /-- `tx.send` asks for a place -/
  | reserve
  /-- `tx.send` has one and returns -/
  | send (record : MailRecord)
  /-- `tx.send` returns an error, which is logged -/
  | refused (record : MailRecord)
  /-- `store.push` -/
  | push (record : MailRecord)
  /-- the call answers and returns -/
  | answer (m : Move)

/-- What a task can do next. -/
inductive SenderStep {ι : Type} (sys : Setup ι) (i : ι) :
    Option Sender → SenderLabel → Option Sender → Prop where
  | accept : SenderStep sys i none .accept (some ⟨sys.start i, none⟩)
  | command (c c' : Conn) (m : Move) : sys.Own i c m c' →
      SenderStep sys i (some ⟨c, none⟩) (.command m) (some ⟨c, some ⟨m, handovers m, false⟩⟩)
  | reserve (c : Conn) (m : Move) (record : MailRecord) (more : List Handover) :
      SenderStep sys i (some ⟨c, some ⟨m, .forward record :: more, false⟩⟩) .reserve
        (some ⟨c, some ⟨m, .forward record :: more, true⟩⟩)
  | send (c : Conn) (m : Move) (record : MailRecord) (more : List Handover) :
      SenderStep sys i (some ⟨c, some ⟨m, .forward record :: more, true⟩⟩) (.send record)
        (some ⟨c, some ⟨m, more, false⟩⟩)
  | refused (c : Conn) (m : Move) (record : MailRecord) (more : List Handover) (asked : Bool) :
      SenderStep sys i (some ⟨c, some ⟨m, .forward record :: more, asked⟩⟩) (.refused record)
        (some ⟨c, some ⟨m, more, false⟩⟩)
  | push (c : Conn) (m : Move) (record : MailRecord) (more : List Handover) :
      SenderStep sys i (some ⟨c, some ⟨m, .push record :: more, false⟩⟩) (.push record)
        (some ⟨c, some ⟨m, more, false⟩⟩)
  | answer (c : Conn) (m : Move) :
      SenderStep sys i (some ⟨c, some ⟨m, [], false⟩⟩) (.answer m) (some ⟨m.after, none⟩)

/-- The connections clients open to a server with a relay, and the records at which
    an attempt panics (`SmtpForward.panics`). -/
structure RelaySetup (ι : Type) extends Setup ι where
  panics : MailRecord → Bool

/-- The places of `mpsc::channel(100)`. -/
def capacity : Nat := 100

/-- The tasks, the channel, and the record the forwarder is attempting. -/
structure Relay (ι : Type) where
  senders : ι → Option Sender
  channel : Channel ι MailRecord
  attempt : Option MailRecord

/-- A server that has just started. -/
def Relay.start {ι : Type} : Relay ι := ⟨fun _ => none, Channel.new capacity, none⟩

inductive RelayLabel (ι : Type) where
  | sender (i : ι) (a : SenderLabel)
  /-- `rx.recv` gives the forwarder a record, and it begins its attempt -/
  | take (record : MailRecord)
  /-- `forward_email` returns, with `Ok` or with an error -/
  | attempted (record : MailRecord) (ok : Bool)
  /-- `forward_email` panics; the task of the forwarder ends, and drops `rx` -/
  | panicked (record : MailRecord)

/-- What a step of a task does to the channel. -/
def SenderLabel.channel? {ι : Type} (i : ι) : SenderLabel → Option (ChannelLabel ι MailRecord)
  | .reserve => some (.reserve i)
  | .send record => some (.send i record)
  | .refused record => some (.refuse i record)
  | .accept | .command _ | .push _ | .answer _ => none

def RelayLabel.channel? {ι : Type} : RelayLabel ι → Option (ChannelLabel ι MailRecord)
  | .sender i a => a.channel? i
  | .take record => some (.recv record)
  | .attempted _ _ => none
  | .panicked _ => some .close

/-- The channel makes a step, or none. -/
def Passes {ι : Type} [DecidableEq ι] (ch : Channel ι MailRecord)
    (b : Option (ChannelLabel ι MailRecord)) (ch' : Channel ι MailRecord) : Prop :=
  match b with
  | none => ch' = ch
  | some b => ChannelStep ch b ch'

/-- The steps of the relay: one step of one task, or of the forwarder. -/
inductive RelayStep {ι : Type} [DecidableEq ι] (sys : RelaySetup ι) (s : Relay ι) :
    RelayLabel ι → Relay ι → Prop where
  | sender (i : ι) (a : SenderLabel) (t : Option Sender) (ch : Channel ι MailRecord) :
      SenderStep sys.toSetup i (s.senders i) a t → Passes s.channel (a.channel? i) ch →
      RelayStep sys s (.sender i a)
        { s with senders := Function.update s.senders i t, channel := ch }
  | take (record : MailRecord) (ch : Channel ι MailRecord) : s.attempt = none →
      ChannelStep s.channel (.recv record) ch →
      RelayStep sys s (.take record) { s with channel := ch, attempt := some record }
  | attempted (record : MailRecord) (ok : Bool) : s.attempt = some record →
      sys.panics record = false → RelayStep sys s (.attempted record ok) { s with attempt := none }
  | panicked (record : MailRecord) (ch : Channel ι MailRecord) : s.attempt = some record →
      sys.panics record = true → ChannelStep s.channel .close ch →
      RelayStep sys s (.panicked record) { s with channel := ch, attempt := none }

/-! ## What a run has done -/

/-- The records sent, with the sessions. -/
def RelayLabel.sent? {ι : Type} : RelayLabel ι → Option (ι × MailRecord)
  | .sender i (.send record) => some (i, record)
  | .sender _ .accept | .sender _ (.command _) | .sender _ .reserve | .sender _ (.refused _)
  | .sender _ (.push _) | .sender _ (.answer _) | .take _ | .attempted _ _ | .panicked _ => none

/-- The records pushed to the store, with the sessions. -/
def RelayLabel.pushed? {ι : Type} : RelayLabel ι → Option (ι × MailRecord)
  | .sender i (.push record) => some (i, record)
  | .sender _ .accept | .sender _ (.command _) | .sender _ .reserve | .sender _ (.send _)
  | .sender _ (.refused _) | .sender _ (.answer _) | .take _ | .attempted _ _
  | .panicked _ => none

def RelayLabel.taken? {ι : Type} : RelayLabel ι → Option MailRecord
  | .take record => some record
  | .sender _ _ | .attempted _ _ | .panicked _ => none

def RelayLabel.attempted? {ι : Type} : RelayLabel ι → Option (MailRecord × Bool)
  | .attempted record ok => some (record, ok)
  | .sender _ _ | .take _ | .panicked _ => none

/-- The emails enqueued, in order, with the sessions that enqueued them. -/
def enqueued {ι : Type} (l : List (RelayLabel ι)) : List (ι × MailRecord) :=
  l.filterMap RelayLabel.sent?

/-- The records pushed, in order, with the sessions that pushed them. -/
def pushed {ι : Type} (l : List (RelayLabel ι)) : List (ι × MailRecord) :=
  l.filterMap RelayLabel.pushed?

/-- The emails whose attempt has begun, in order. -/
def taken {ι : Type} (l : List (RelayLabel ι)) : List MailRecord :=
  l.filterMap RelayLabel.taken?

/-- The attempts that have returned, with their results. -/
def attempts {ι : Type} (l : List (RelayLabel ι)) : List (MailRecord × Bool) :=
  l.filterMap RelayLabel.attempted?

/-- The part of one session. -/
def of {ι : Type} [DecidableEq ι] (i : ι) (l : List (ι × MailRecord)) : List MailRecord :=
  (l.filter (fun p => p.1 = i)).map Prod.snd

/-! ## What a session owes -/

/-- What the call under way has yet to hand over. -/
def Sender.todo (t : Sender) : List Handover := (t.call.map Call.todo).getD []

/-- The call under way has asked for a place. -/
def Sender.asked (t : Sender) : Bool := t.call.any Call.asked

/-- The task has asked for a place. -/
def asked? (t? : Option Sender) : Bool := t?.any Sender.asked

/-- The record that was sent or refused and is yet to be pushed. -/
def between : List Handover → List MailRecord
  | [.push record] => [record]
  | _ => []

theorem length_between_le (todo : List Handover) : (between todo).length ≤ 1 := by
  unfold between
  split
  · exact Nat.le_refl 1
  · exact Nat.zero_le 1

/-- The records a task has sent, in order. -/
def sends (k : List SenderLabel) : List MailRecord :=
  k.filterMap (fun a =>
    match a with
    | .send record => some record
    | _ => none)

/-- The records a task has sent or was refused, in order. -/
def forwards (k : List SenderLabel) : List MailRecord :=
  k.filterMap (fun a =>
    match a with
    | .send record | .refused record => some record
    | _ => none)

/-- The records a task has pushed, in order. -/
def pushes (k : List SenderLabel) : List MailRecord :=
  k.filterMap (fun a =>
    match a with
    | .push record => some record
    | _ => none)

/-- A call hands over a record to the forwarder and to the store, in that order;
    it asks for a place only for the first. -/
inductive Progress : List Handover → Bool → Prop where
  | done : Progress [] false
  | storing (record : MailRecord) : Progress [.push record] false
  | forwarding (record : MailRecord) (asked : Bool) :
      Progress [.forward record, .push record] asked

/-- What the steps of a task say about it. -/
structure SenderHistory (k : List SenderLabel) (t : Sender) : Prop where
  progress : Progress t.todo t.asked
  orders : forwards k = pushes k ++ between t.todo

section

variable {ι : Type} {sys : Setup ι} {i : ι} {k : List SenderLabel} {t : Sender}

/-- With a forward handle a message is forwarded and then pushed. -/
theorem handovers_cases (hf : sys.cfg.forwardHandle = true) {c c' : Conn} {m : Move}
    (h : sys.Own i c m c') : handovers m = [] ∧ m.pushed = []
      ∨ ∃ record, handovers m = [.forward record, .push record] ∧ m.pushed = [record] := by
  by_cases hd : ∃ e ∈ m.events, (handover? e).isSome = true
  · -- DATA was carried out, and its delivery is the whole tail of the call
    obtain ⟨e, he, hsome⟩ := hd
    have hdelivery : Delivery e := by
      cases e with
      | forward record => exact .forward record
      | push record => exact .push record
      | read | write | body => cases hsome
    obtain ⟨line, rest, bytes, stamp, hdel⟩ := (OwnStep.step h).delivers he hdelivery
    refine Or.inr ⟨_, ?_, hdel.pushed_eq⟩
    rw [handovers, hdel.events, deliver, hf]
    rfl
  · have hnone : handovers m = [] := by
      refine List.filterMap_eq_nil_iff.mpr (fun e he => ?_)
      cases hh : handover? e with
      | none => rfl
      | some x => exact absurd ⟨e, he, by rw [hh]; rfl⟩ hd
    refine Or.inl ⟨hnone, List.filterMap_eq_nil_iff.mpr (fun e he => ?_)⟩
    have hno := List.filterMap_eq_nil_iff.mp hnone e he
    cases e with
    | push record => cases hno
    | read | write | body | forward => rfl

theorem forwards_snoc (k : List SenderLabel) (a : SenderLabel) :
    forwards (k ++ [a]) = forwards k ++ forwards [a] := List.filterMap_append

/-- Where nothing was refused, all was sent. -/
theorem forwards_eq_sends (h : ∀ record, .refused record ∉ k) : forwards k = sends k := by
  refine List.filterMap_congr (fun a ha => ?_)
  cases a with
  | refused record => exact absurd ha (h record)
  | accept | command | reserve | send | push | answer => rfl

theorem pushes_snoc (k : List SenderLabel) (a : SenderLabel) :
    pushes (k ++ [a]) = pushes k ++ pushes [a] := List.filterMap_append

/-- **What a step of a task preserves.** -/
theorem SenderHistory.step (hf : sys.cfg.forwardHandle = true) {a : SenderLabel}
    {t' : Option Sender} (hI : SenderHistory k t) (h : SenderStep sys i (some t) a t') :
    ∃ u, t' = some u ∧ SenderHistory (k ++ [a]) u := by
  obtain ⟨hprogress, horders⟩ := hI
  cases h with
  | command c c' m hown =>
      -- between two calls everything sent is pushed
      have hbefore : forwards k = pushes k := by
        rw [horders]
        exact List.append_nil _
      refine ⟨_, rfl, ?_, ?_⟩
      · show Progress (handovers m) false
        rcases handovers_cases hf hown with ⟨h, -⟩ | ⟨record, h, -⟩
        · rw [h]
          exact .done
        · rw [h]
          exact .forwarding record false
      · rw [forwards_snoc, pushes_snoc, hbefore]
        show pushes k ++ [] = pushes k ++ [] ++ between (handovers m)
        rcases handovers_cases hf hown with ⟨h, -⟩ | ⟨record, h, -⟩
        · rw [h]
          simp [between]
        · rw [h]
          simp [between]
  | reserve c m record more =>
      have hp : Progress (.forward record :: more) false := hprogress
      cases hp with
      | forwarding =>
          refine ⟨_, rfl, .forwarding record true, ?_⟩
          rw [forwards_snoc, pushes_snoc, horders]
          show pushes k ++ [] ++ [] = pushes k ++ [] ++ []
          rfl
  | send c m record more =>
      have hp : Progress (.forward record :: more) true := hprogress
      cases hp with
      | forwarding =>
          refine ⟨_, rfl, .storing record, ?_⟩
          rw [forwards_snoc, pushes_snoc, horders]
          show pushes k ++ [] ++ [record] = pushes k ++ [] ++ [record]
          rfl
  | refused c m record more asked =>
      have hp : Progress (.forward record :: more) asked := hprogress
      cases hp with
      | forwarding =>
          refine ⟨_, rfl, .storing record, ?_⟩
          rw [forwards_snoc, pushes_snoc, horders]
          show pushes k ++ [] ++ [record] = pushes k ++ [] ++ [record]
          rfl
  | push c m record more =>
      -- only what was sent before is left to push
      have hp : Progress (.push record :: more) false := hprogress
      cases hp with
      | storing =>
          refine ⟨_, rfl, .done, ?_⟩
          rw [forwards_snoc, pushes_snoc, horders]
          show pushes k ++ [record] ++ [] = pushes k ++ [record] ++ []
          rfl
  | answer c m =>
      refine ⟨_, rfl, .done, ?_⟩
      rw [forwards_snoc, pushes_snoc, horders]
      show pushes k ++ [] ++ [] = pushes k ++ [] ++ []
      rfl

/-- A record that is about to be pushed was sent or refused last. -/
theorem SenderHistory.of_push {c : Conn} {m : Move} {record : MailRecord} {more : List Handover}
    (hI : SenderHistory k ⟨c, some ⟨m, .push record :: more, false⟩⟩) :
    forwards k = pushes k ++ [record] := by
  obtain ⟨hprogress, horders⟩ := hI
  have hp : Progress (.push record :: more) false := hprogress
  cases hp with
  | storing => exact horders

/-- **The history of a task**, from before its connection is accepted. -/
theorem SenderHistory.run_history (hf : sys.cfg.forwardHandle = true) {t? : Option Sender}
    (h : Run (SenderStep sys i) none k t?) :
    (t? = none ∧ k = []) ∨ ∃ t, t? = some t ∧ SenderHistory k t := by
  refine h.history_rule (I := fun k t? => (t? = none ∧ k = [])
    ∨ ∃ t, t? = some t ∧ SenderHistory k t) (Or.inl ⟨rfl, rfl⟩) ?_
  rintro k t? a u (⟨rfl, rfl⟩ | ⟨t, rfl, hI⟩) hstep
  · cases hstep with
    | accept => exact Or.inr ⟨_, rfl, .done, rfl⟩
  · exact Or.inr (hI.step hf hstep)

/-- A task asks for a place with `reserve`, and has used it with `send`, unless it is
    refused. -/
theorem asked_step {a : SenderLabel} {t? t' : Option Sender} (h : SenderStep sys i t? a t') :
    asked? t? = false ∧ asked? t' = true ∧ a.channel? i = some (.reserve i)
    ∨ asked? t? = true ∧ asked? t' = false ∧ (∃ record, a.channel? i = some (.send i record))
    ∨ (∃ record, a.channel? i = some (.refuse i record))
    ∨ asked? t' = asked? t? ∧ a.channel? i = none := by
  cases h with
  | accept => exact Or.inr (Or.inr (Or.inr ⟨rfl, rfl⟩))
  | command => exact Or.inr (Or.inr (Or.inr ⟨rfl, rfl⟩))
  | reserve => exact Or.inl ⟨rfl, rfl, rfl⟩
  | send c m record => exact Or.inr (Or.inl ⟨rfl, rfl, record, rfl⟩)
  | refused c m record => exact Or.inr (Or.inr (Or.inl ⟨record, rfl⟩))
  | push => exact Or.inr (Or.inr (Or.inr ⟨rfl, rfl⟩))
  | answer => exact Or.inr (Or.inr (Or.inr ⟨rfl, rfl⟩))

/-- What a task sends is sent into the channel. -/
theorem sends_eq {ι : Type} (i : ι) (k : List SenderLabel) :
    sends k = (k.filterMap (SenderLabel.channel? i)).filterMap ChannelLabel.sent? := by
  rw [sends, List.filterMap_filterMap]
  refine List.filterMap_congr (fun a _ => ?_)
  cases a <;> rfl

/-! ### A task that is served alone -/

/-- What the channel does for some records that one session sends. -/
def places {ι : Type} (i : ι) (records : List MailRecord) : List (ChannelLabel ι MailRecord) :=
  records.flatMap (fun record => [.reserve i, .send i record])

/-- A call returns, and has sent what it pushes. -/
theorem call_returns (hf : sys.cfg.forwardHandle = true) {c c' : Conn} {m : Move}
    (h : sys.Own i c m c') : ∃ k, Run (SenderStep sys i) (some ⟨c, none⟩) k (some ⟨c', none⟩)
      ∧ k.filterMap (SenderLabel.channel? i) = places i m.pushed := by
  have hcommand := SenderStep.command c c' m h
  have hanswer : SenderStep sys i (some ⟨c, some ⟨m, [], false⟩⟩) (.answer m)
      (some ⟨c', none⟩) := h.2.1 ▸ SenderStep.answer c m
  rcases handovers_cases hf h with ⟨hnone, hpushed⟩ | ⟨record, hsome, hpushed⟩
  · rw [hnone] at hcommand
    rw [hpushed]
    exact ⟨_, (Run.single hcommand).snoc hanswer, rfl⟩
  · rw [hsome] at hcommand
    rw [hpushed]
    exact ⟨_, ((((Run.single hcommand).snoc (.reserve c m record _)).snoc
      (.send c m record _)).snoc (.push c m record _)).snoc hanswer, rfl⟩

/-- The moves of a connection alone are those of a run of its task. -/
theorem sender_of_own (hf : sys.cfg.forwardHandle = true) {c c' : Conn} {moves : List Move}
    (h : Run (sys.Own i) c moves c') :
    ∃ k, Run (SenderStep sys i) (some ⟨c, none⟩) k (some ⟨c', none⟩)
      ∧ k.filterMap (SenderLabel.channel? i) = places i (moves.flatMap Move.pushed) := by
  induction h with
  | nil => exact ⟨[], Run.nil, rfl⟩
  | @snoc moves d d' m _ hstep ih =>
      obtain ⟨k, hk, hplaces⟩ := ih
      obtain ⟨k', hk', hplaces'⟩ := call_returns hf hstep
      refine ⟨k ++ k', hk.append hk', ?_⟩
      rw [List.filterMap_append, hplaces, hplaces', List.flatMap_append, List.flatMap_singleton,
        places, places, places, List.flatMap_append]

/-- **A task comes to its message** without the channel: it is about to hand over
    the first record it has. -/
theorem reaches_handover (hf : sys.cfg.forwardHandle = true) {c : Conn} {moves : List Move}
    {m : Move} {record : MailRecord} (h : Run (sys.Own i) (sys.start i) (moves ++ [m]) c)
    (hquiet : moves.flatMap Move.pushed = []) (hone : m.pushed = [record]) :
    ∃ (k : List SenderLabel) (c' : Conn), k.filterMap (SenderLabel.channel? i) = []
      ∧ Run (SenderStep sys i) none k
        (some ⟨c', some ⟨m, [.forward record, .push record], false⟩⟩) := by
  obtain ⟨c', c'', hbefore, hdata, -⟩ := h.step_at
  obtain ⟨k, hk, hplaces⟩ := sender_of_own hf hbefore
  rw [hquiet] at hplaces
  rcases handovers_cases hf hdata with ⟨-, hpushed⟩ | ⟨record', hsome, hpushed⟩
  · rw [hone] at hpushed
    cases hpushed
  · obtain rfl : record = record' := List.singleton_inj.mp (hone.symm.trans hpushed)
    have hcommand := SenderStep.command (i := i) c' c'' m hdata
    rw [hsome] at hcommand
    refine ⟨.accept :: k ++ [.command m], c', ?_, (Run.cons SenderStep.accept hk).snoc hcommand⟩
    rw [List.filterMap_append, List.filterMap_cons_none rfl, hplaces]
    rfl

end

/-! ## The joint run -/

/-- The step of a task. -/
def RelayLabel.own? {ι : Type} [DecidableEq ι] (i : ι) : RelayLabel ι → Option SenderLabel
  | .sender j a => if j = i then some a else none
  | .take _ | .attempted _ _ | .panicked _ => none

/-- The steps of one task, in order. -/
def own {ι : Type} [DecidableEq ι] (i : ι) (l : List (RelayLabel ι)) : List SenderLabel :=
  l.filterMap (RelayLabel.own? i)

theorem own_append {ι : Type} [DecidableEq ι] (i : ι) (l r : List (RelayLabel ι)) :
    own i (l ++ r) = own i l ++ own i r := List.filterMap_append

theorem own_senders {ι : Type} [DecidableEq ι] (i : ι) (k : List SenderLabel) :
    own i (k.map (RelayLabel.sender i)) = k := by
  rw [own, List.filterMap_map]
  refine (List.filterMap_congr (fun a _ => ?_)).trans List.filterMap_some
  exact if_pos rfl

/-- The accounts of a relay: the channel is fair; while it is open, a session is
    waiting or has a place exactly while it has asked for one; and it is open while
    a record is attempted. -/
structure Accounts {ι : Type} (s : Relay ι) : Prop where
  fair : Fair capacity s.channel
  asked : s.channel.closed = false →
    ∀ i, i ∈ s.channel.waiting ++ s.channel.granted ↔ asked? (s.senders i) = true
  alive : s.attempt ≠ none → s.channel.closed = false

theorem Accounts.start {ι : Type} : Accounts (Relay.start : Relay ι) := by
  refine ⟨Fair.new capacity, fun _ i => ⟨fun h => absurd h List.not_mem_nil, fun h => ?_⟩,
    fun h => absurd rfl h⟩
  cases h

/-- In a call, asking is waiting or having a place. -/
theorem Accounts.asked_iff {ι : Type} {s : Relay ι} {i : ι} {c : Conn} {m : Move}
    {todo : List Handover} {asked : Bool} (hI : Accounts s) (hopen : s.channel.closed = false)
    (ht : s.senders i = some ⟨c, some ⟨m, todo, asked⟩⟩) :
    i ∈ s.channel.waiting ++ s.channel.granted ↔ asked = true := by
  rw [hI.asked hopen i, ht]
  exact Iff.rfl

theorem taken_eq {ι : Type} (l : List (RelayLabel ι)) :
    (l.filterMap RelayLabel.channel?).filterMap ChannelLabel.received? = taken l := by
  rw [List.filterMap_filterMap, taken]
  refine List.filterMap_congr (fun a _ => ?_)
  cases a with
  | sender i b => cases b <;> rfl
  | take record => rfl
  | attempted record ok => rfl
  | panicked record => rfl

theorem enqueued_eq {ι : Type} (l : List (RelayLabel ι)) :
    (l.filterMap RelayLabel.channel?).filterMap ChannelLabel.sent? = (enqueued l).map Prod.snd := by
  rw [List.filterMap_filterMap, enqueued, List.map_filterMap]
  refine List.filterMap_congr (fun a _ => ?_)
  cases a with
  | sender i b => cases b <;> rfl
  | take record => rfl
  | attempted record ok => rfl
  | panicked record => rfl

section

variable {ι : Type} [DecidableEq ι] {sys : RelaySetup ι} {s s' : Relay ι}
  {l : List (RelayLabel ι)} {i : ι}

/-- **A task's part of a run is a run of the task alone.** -/
theorem sender_run (h : Run (RelayStep sys) s l s') (i : ι) :
    Run (SenderStep sys.toSetup i) (s.senders i) (own i l) (s'.senders i) := by
  refine h.project (fun s => s.senders i) (fun s a t b hstep ha => ?_)
    (fun s a t hstep ha => ?_)
  · cases hstep with
    | sender j a' u ch htask hch =>
        by_cases hj : j = i
        · subst hj
          rw [RelayLabel.own?, if_pos rfl] at ha
          obtain rfl := Option.some.inj ha
          dsimp only
          rwa [Function.update_self]
        · rw [RelayLabel.own?, if_neg hj] at ha
          exact nomatch ha
    | take | attempted | panicked => exact nomatch ha
  · cases hstep with
    | sender j a' u ch htask hch =>
        by_cases hj : j = i
        · rw [RelayLabel.own?, if_pos hj] at ha
          exact nomatch ha
        · exact Function.update_of_ne (fun h => hj h.symm) u s.senders
    | take | attempted | panicked => rfl

/-- What a step does to the channel. -/
theorem RelayStep.passes {a : RelayLabel ι} (h : RelayStep sys s a s') :
    Passes s.channel a.channel? s'.channel := by
  cases h with
  | sender j b u ch htask hch => exact hch
  | take record ch hfree hch => exact hch
  | attempted => exact rfl
  | panicked record ch hrecord hpanics hch => exact hch

/-- **The channel's part of a run is a run of the channel.** -/
theorem channel_run (h : Run (RelayStep sys) s l s') :
    Run ChannelStep s.channel (l.filterMap RelayLabel.channel?) s'.channel := by
  refine h.project Relay.channel (fun s a t b hstep hb => ?_) (fun s a t hstep hb => ?_)
  · have hpasses := hstep.passes
    rwa [hb] at hpasses
  · have hpasses := hstep.passes
    rwa [hb] at hpasses

/-- A channel that is open was open before. -/
theorem RelayStep.open_before {a : RelayLabel ι} (h : RelayStep sys s a s')
    (hopen : s'.channel.closed = false) : s.channel.closed = false := by
  have hpasses := h.passes
  cases hb : a.channel? with
  | none =>
      rw [hb] at hpasses
      rwa [← show s'.channel = s.channel from hpasses]
  | some b =>
      rw [hb] at hpasses
      exact open_of_step hpasses hopen

theorem open_before (h : Run (RelayStep sys) s l s') (hopen : s'.channel.closed = false) :
    s.channel.closed = false := by
  induction h with
  | nil => exact hopen
  | snoc _ hstep ih => exact ih (hstep.open_before hopen)

/-- While the channel is open nobody is refused. -/
theorem not_refused (h : Run (RelayStep sys) s l s') (hopen : s'.channel.closed = false)
    (record : MailRecord) : .refused record ∉ own i l := by
  intro hmem
  obtain ⟨a, ha, hown⟩ := List.mem_filterMap.mp hmem
  obtain ⟨pre, post, rfl⟩ := List.append_of_mem ha
  obtain ⟨t, t', -, hstep, hpost⟩ := h.step_at
  have htopen := hstep.open_before (open_before hpost hopen)
  cases hstep with
  | sender j b u ch htask hch =>
      rw [RelayLabel.own?] at hown
      split_ifs at hown
      obtain rfl := Option.some.inj hown
      have hch : ChannelStep t.channel (.refuse j record) ch := hch
      cases hch with
      | refuse _ _ hclosed =>
          rw [htopen] at hclosed
          cases hclosed
  | take | attempted | panicked => cases hown

/-- **As long as no attempt panics the channel is open.** -/
theorem open_of_calm (h : Run (RelayStep sys) Relay.start l s)
    (hcalm : ∀ record ∈ taken l, sys.panics record = false) :
    s.channel.closed = false ∧ ∀ record, s.attempt = some record → record ∈ taken l := by
  induction h with
  | nil => exact ⟨rfl, fun record h => nomatch h⟩
  | @snoc l t u a _ hstep ih =>
      have htaken : taken (l ++ [a]) = taken l ++ taken [a] := List.filterMap_append
      rw [htaken] at hcalm ⊢
      obtain ⟨hopen, hattempt⟩ := ih (fun r hr => hcalm r (List.mem_append_left _ hr))
      have hkeep : ∀ b ch, b ≠ .close → ChannelStep t.channel b ch → ch.closed = false := by
        intro b ch hb hch
        cases hch with
        | reserve => rw [closed_reserve]; exact hopen
        | send | refuse => exact hopen
        | recv => rw [closed_release]; exact hopen
        | close => exact absurd rfl hb
      cases hstep with
      | sender i b w ch htask hch =>
          refine ⟨?_, fun r hr => List.mem_append_left _ (hattempt r hr)⟩
          cases hb : b.channel? i with
          | none =>
              rw [hb] at hch
              obtain rfl : ch = t.channel := hch
              exact hopen
          | some d =>
              rw [hb] at hch
              refine hkeep d ch ?_ hch
              rintro rfl
              cases b <;> cases hb
      | take record ch hfree hch =>
          refine ⟨hkeep _ ch (by simp) hch, fun r hr => ?_⟩
          obtain rfl := Option.some.inj hr
          exact List.mem_append_right _ (List.mem_singleton_self _)
      | attempted record ok hrecord => exact ⟨hopen, fun r hr => nomatch hr⟩
      | panicked record ch hrecord hpanics =>
          rw [hcalm record (List.mem_append_left _ (hattempt record hrecord))] at hpanics
          cases hpanics

/-- The forwarder attempts what it takes, one after the other. -/
theorem attempts_eq (h : Run (RelayStep sys) Relay.start l s)
    (hopen : s.channel.closed = false) :
    (attempts l).map Prod.fst ++ s.attempt.toList = taken l := by
  induction h with
  | nil => rfl
  | @snoc l t u a _ hstep ih =>
      have hattempts : attempts (l ++ [a]) = attempts l ++ attempts [a] := List.filterMap_append
      have htaken : taken (l ++ [a]) = taken l ++ taken [a] := List.filterMap_append
      rw [hattempts, htaken, ← ih (hstep.open_before hopen), List.map_append]
      cases hstep with
      | sender j b w ch htask hch =>
          show (attempts l).map Prod.fst ++ [] ++ t.attempt.toList
            = (attempts l).map Prod.fst ++ t.attempt.toList ++ []
          rw [List.append_nil, List.append_nil]
      | take record ch hfree hch =>
          rw [hfree]
          show (attempts l).map Prod.fst ++ [] ++ [record] = _ ++ [] ++ [record]
          rfl
      | attempted record ok hrecord =>
          rw [hrecord]
          show (attempts l).map Prod.fst ++ [record] ++ [] = _ ++ [record] ++ []
          rfl
      | panicked record ch hrecord hpanics hch =>
          cases hch
          cases hopen

theorem asked_update (senders : ι → Option Sender) (i j : ι) (t : Option Sender) :
    asked? (Function.update senders i t j) = if j = i then asked? t else asked? (senders j) := by
  split_ifs with hj
  · rw [hj, Function.update_self]
  · rw [Function.update_of_ne hj]

theorem Accounts.step {a : RelayLabel ι} (hI : Accounts s) (h : RelayStep sys s a s') :
    Accounts s' := by
  cases h with
  | sender i b t ch htask hch =>
      rcases asked_step htask with
        ⟨hno, hyes, hb⟩ | ⟨hyes, hno, record, hb⟩ | ⟨record, hb⟩ | ⟨hsame, hb⟩
      · -- a place is asked for
        rw [hb] at hch
        have hch : ChannelStep s.channel (.reserve i) ch := hch
        refine ⟨hI.fair.step hch, fun _ j => ?_, fun h => ?_⟩
        · cases hch with
          | reserve i hopen hi =>
              dsimp only
              rw [mem_reserve, hI.asked hopen j, asked_update]
              split_ifs with hj
              · simp [hj, hyes]
              · simp [hj]
        · cases hch with
          | reserve i hopen hi => exact closed_reserve.trans hopen
      · -- a place is used
        rw [hb] at hch
        have hch : ChannelStep s.channel (.send i record) ch := hch
        refine ⟨hI.fair.step hch, fun _ j => ?_, fun h => ?_⟩
        · cases hch with
          | send i record hopen hi =>
              dsimp only
              rw [hI.fair.mem_send, hI.asked hopen j, asked_update]
              split_ifs with hj
              · simp [hj, hno, hi]
              · simp [hj]
        · cases hch with
          | send i record hopen hi => exact hopen
      · -- the channel is closed
        rw [hb] at hch
        have hch : ChannelStep s.channel (.refuse i record) ch := hch
        cases hch with
        | refuse i record hclosed =>
            exact ⟨hI.fair, fun hopen => absurd (hopen.symm.trans hclosed) Bool.false_ne_true,
              hI.alive⟩
      · -- the channel is left alone
        rw [hb] at hch
        obtain rfl : ch = s.channel := hch
        refine ⟨hI.fair, fun hopen j => ?_, hI.alive⟩
        dsimp only
        rw [hI.asked hopen j, asked_update]
        split_ifs with hj
        · rw [hj, hsame]
        · exact Iff.rfl
  | take record ch hfree hch =>
      -- a place may change hands, but nobody starts or stops asking
      refine ⟨hI.fair.step hch, fun _ j => ?_, fun _ => ?_⟩
      · cases hch with
        | recv a more hopen hq =>
            dsimp only
            rw [mem_release]
            exact hI.asked hopen j
      · cases hch with
        | recv a more hopen hq => exact closed_release.trans hopen
  | attempted record ok hrecord =>
      exact ⟨hI.fair, hI.asked, fun h => absurd rfl h⟩
  | panicked record ch hrecord hpanics hch =>
      refine ⟨hI.fair.step hch, fun hopen => ?_, fun h => absurd rfl h⟩
      cases hch
      cases hopen

theorem Accounts.run (h : Run (RelayStep sys) Relay.start l s) : Accounts s :=
  h.history_rule (I := fun _ s => Accounts s) Accounts.start (fun _ _ _ _ hI hs => hI.step hs)

/-- What a run has done for a session is what its task has done. -/
theorem of_own {obs : RelayLabel ι → Option (ι × MailRecord)}
    {f : SenderLabel → Option MailRecord} (i : ι) (l : List (RelayLabel ι))
    (h : ∀ a, ((obs a).filter (fun p => p.1 = i)).map Prod.snd = (a.own? i).bind f) :
    of i (l.filterMap obs) = (own i l).filterMap f := by
  rw [of, own, List.filterMap_filterMap, List.filter_filterMap, List.map_filterMap]
  exact List.filterMap_congr (fun a _ => h a)

theorem of_enqueued (i : ι) (l : List (RelayLabel ι)) :
    of i (enqueued l) = sends (own i l) := by
  refine of_own i l (fun a => ?_)
  cases a with
  | sender j b =>
      by_cases hj : j = i
      · cases b <;> simp [RelayLabel.own?, RelayLabel.sent?, Option.filter, hj]
      · cases b <;> simp [RelayLabel.own?, RelayLabel.sent?, Option.filter, hj]
  | take | attempted | panicked => rfl

theorem of_pushed (i : ι) (l : List (RelayLabel ι)) :
    of i (pushed l) = pushes (own i l) := by
  refine of_own i l (fun a => ?_)
  cases a with
  | sender j b =>
      by_cases hj : j = i
      · cases b <;> simp [RelayLabel.own?, RelayLabel.pushed?, Option.filter, hj]
      · cases b <;> simp [RelayLabel.own?, RelayLabel.pushed?, Option.filter, hj]
  | take | attempted | panicked => rfl

/-- A session's task in a run, with its history. -/
theorem history (hf : sys.cfg.forwardHandle = true) (h : Run (RelayStep sys) Relay.start l s)
    (i : ι) : (s.senders i = none ∧ own i l = [])
      ∨ ∃ t, s.senders i = some t ∧ SenderHistory (own i l) t :=
  SenderHistory.run_history hf (sender_run h i)

/-! ## Order -/

/-- A session has sent what it has pushed, and at most one record more, as long as
    nobody is refused. -/
theorem enqueued_pushed (hf : sys.cfg.forwardHandle = true)
    (h : Run (RelayStep sys) Relay.start l s) (hopen : s.channel.closed = false) (i : ι) :
    ∃ waiting, of i (enqueued l) = of i (pushed l) ++ waiting ∧ waiting.length ≤ 1 := by
  rw [of_enqueued, of_pushed]
  rcases history hf h i with ⟨-, hown⟩ | ⟨t, -, hI⟩
  · rw [hown]
    exact ⟨[], rfl, Nat.zero_le 1⟩
  · rw [← forwards_eq_sends (not_refused h hopen)]
    exact ⟨between t.todo, hI.orders, length_between_le t.todo⟩

/-- What a session pushes next is what it has sent last, as long as nobody is
    refused. -/
theorem enqueued_before (hf : sys.cfg.forwardHandle = true)
    (h : Run (RelayStep sys) Relay.start l s) (hopen : s.channel.closed = false)
    {record : MailRecord} (hstep : RelayStep sys s (.sender i (.push record)) s') :
    of i (enqueued l) = of i (pushed l) ++ [record] := by
  rw [of_enqueued, of_pushed, ← forwards_eq_sends (not_refused h hopen)]
  cases hstep with
  | sender i b t ch htask hch =>
      rcases history hf h i with ⟨hnone, -⟩ | ⟨t, ht, hI⟩
      · rw [hnone] at htask
        cases htask
      · rw [ht] at htask
        generalize ht? : some t = t? at htask
        cases htask with
        | push c m record more =>
            obtain rfl := Option.some.inj ht?
            exact hI.of_push

/-! ## Storage and the forwarder -/

/-- The session can push the record by its own steps alone. -/
def Unaided (sys : RelaySetup ι) (s : Relay ι) (i : ι) (record : MailRecord) : Prop :=
  ∃ k s', Run (RelayStep sys) s k s' ∧ (∀ a ∈ k, ∃ b, a = .sender i b)
    ∧ .sender i (.push record) ∈ k

/-- The session has a record to send and nowhere to put it. -/
structure Stuck (s : Relay ι) (i : ι) : Prop where
  sending : ∃ c m record more asked,
    s.senders i = some ⟨c, some ⟨m, .forward record :: more, asked⟩⟩
  promised : i ∉ s.channel.granted
  full : s.channel.free = 0
  alive : s.channel.closed = false

/-- A stuck session can ask for a place, and is stuck then. -/
theorem Stuck.step {b : SenderLabel} (hI : Stuck s i) (h : RelayStep sys s (.sender i b) s') :
    Stuck s' i ∧ b = .reserve := by
  obtain ⟨⟨c, m, record, more, asked, ht⟩, hpromised, hfull, hopen⟩ := hI
  cases h with
  | sender i b t ch htask hch =>
      rw [ht] at htask
      cases htask with
      | reserve =>
          have hch : ChannelStep s.channel (.reserve i) ch := hch
          cases hch
          rw [reserve_of_full hfull]
          exact ⟨⟨⟨c, m, record, more, true, Function.update_self i _ s.senders⟩, hpromised,
            hfull, hopen⟩, rfl⟩
      | send =>
          -- without a place there is nothing to send into
          have hch : ChannelStep s.channel (.send i record) ch := hch
          cases hch with
          | send i record _ hgranted => exact absurd hgranted hpromised
      | refused =>
          have hch : ChannelStep s.channel (.refuse i record) ch := hch
          cases hch with
          | refuse i record hclosed => exact absurd (hopen.symm.trans hclosed) Bool.false_ne_true

/-- **A stuck session stores nothing** until the forwarder moves. -/
theorem Stuck.not_unaided (hI : Stuck s i) (record : MailRecord) :
    ¬ Unaided sys s i record := by
  rintro ⟨k, s', hrun, hown, hpush⟩
  -- by induction on the run, all it does is to ask for a place
  have hall : (∀ a ∈ k, ∃ b, a = .sender i b) → Stuck s' i ∧ ∀ a ∈ k, a = .sender i .reserve := by
    refine hrun.history_rule (I := fun k s' => (∀ a ∈ k, ∃ b, a = .sender i b) →
      Stuck s' i ∧ ∀ a ∈ k, a = .sender i .reserve)
      (fun _ => ⟨hI, fun a ha => absurd ha List.not_mem_nil⟩) ?_
    intro k t a u ih hstep hown
    obtain ⟨hstuck, hreserves⟩ := ih (fun x hx => hown x (List.mem_append_left _ hx))
    obtain ⟨b, rfl⟩ := hown a (by simp)
    obtain ⟨hstuck', rfl⟩ := hstuck.step hstep
    refine ⟨hstuck', fun x hx => ?_⟩
    rcases List.mem_append.mp hx with hx | hx
    · exact hreserves x hx
    · exact List.mem_singleton.mp hx
  cases (hall hown).2 _ hpush

theorem Unaided.cons {b : SenderLabel} {record : MailRecord}
    (h : RelayStep sys s (.sender i b) s') (hs : Unaided sys s' i record) :
    Unaided sys s i record := by
  obtain ⟨k, u, hrun, hown, hpush⟩ := hs
  refine ⟨_, u, Run.cons h hrun, fun a ha => ?_, List.mem_cons_of_mem _ hpush⟩
  rcases List.mem_cons.mp ha with rfl | ha
  · exact ⟨b, rfl⟩
  · exact hown a ha

section

variable {c : Conn} {m : Move} {record : MailRecord} {more : List Handover}

theorem unaided_of_sent (ht : s.senders i = some ⟨c, some ⟨m, .push record :: more, false⟩⟩) :
    Unaided sys s i record := by
  have hstep : SenderStep sys.toSetup i (s.senders i) (.push record) _ :=
    ht ▸ SenderStep.push c m record more
  exact ⟨_, _, Run.single (RelayStep.sender i _ _ s.channel hstep rfl),
    fun a ha => ⟨_, List.mem_singleton.mp ha⟩, List.mem_singleton_self _⟩

theorem unaided_of_granted (hopen : s.channel.closed = false)
    (ht : s.senders i = some ⟨c, some ⟨m, .forward record :: .push record :: more, true⟩⟩)
    (hplace : i ∈ s.channel.granted) : Unaided sys s i record := by
  have hstep : SenderStep sys.toSetup i (s.senders i) (.send record) _ :=
    ht ▸ SenderStep.send c m record (.push record :: more)
  exact Unaided.cons (RelayStep.sender i _ _ _ hstep (ChannelStep.send i record hopen hplace))
    (unaided_of_sent (Function.update_self i _ s.senders))

theorem unaided_of_free (hopen : s.channel.closed = false)
    (ht : s.senders i = some ⟨c, some ⟨m, .forward record :: .push record :: more, false⟩⟩)
    (hasks : i ∉ s.channel.waiting ++ s.channel.granted) (hfree : 0 < s.channel.free) :
    Unaided sys s i record := by
  have hstep : SenderStep sys.toSetup i (s.senders i) .reserve _ :=
    ht ▸ SenderStep.reserve c m record (.push record :: more)
  refine Unaided.cons (RelayStep.sender i _ _ _ hstep (ChannelStep.reserve i hopen hasks))
    (unaided_of_granted (closed_reserve.trans hopen) (Function.update_self i _ s.senders) ?_)
  rw [reserve_of_free hfree]
  exact List.mem_append_right _ (List.mem_singleton_self i)

/-- With the channel closed, `tx.send` returns at once. -/
theorem unaided_of_closed {asked : Bool} (hclosed : s.channel.closed = true)
    (ht : s.senders i = some ⟨c, some ⟨m, .forward record :: .push record :: more, asked⟩⟩) :
    Unaided sys s i record := by
  have hstep : SenderStep sys.toSetup i (s.senders i) (.refused record) _ :=
    ht ▸ SenderStep.refused c m record (.push record :: more) asked
  exact Unaided.cons (RelayStep.sender i _ _ _ hstep (ChannelStep.refuse i record hclosed))
    (unaided_of_sent (Function.update_self i _ s.senders))

variable {todo : List Handover} {asked : Bool}

/-- A call in a run has its record to send and to push, or to push. -/
theorem progress_of_run (hf : sys.cfg.forwardHandle = true)
    (hrun : Run (RelayStep sys) Relay.start l s)
    (ht : s.senders i = some ⟨c, some ⟨m, todo, asked⟩⟩) : Progress todo asked := by
  rcases history hf hrun i with ⟨hnone, -⟩ | ⟨t, hsome, hI⟩
  · rw [hnone] at ht
    cases ht
  · obtain rfl := Option.some.inj (hsome.symm.trans ht)
    exact hI.progress

/-- A session that was promised a place sends its record, and pushes it. -/
theorem Accounts.unaided_of_place (hI : Accounts s) (hopen : s.channel.closed = false)
    (ht : s.senders i = some ⟨c, some ⟨m, .forward record :: .push record :: more, asked⟩⟩)
    (hplace : i ∈ s.channel.granted) : Unaided sys s i record := by
  obtain rfl := (hI.asked_iff hopen ht).mp (List.mem_append_right _ hplace)
  exact unaided_of_granted hopen ht hplace

/-- With room in the queue, a session asks for a place and gets it, or it has one. -/
theorem Accounts.unaided_of_room (hI : Accounts s) (hopen : s.channel.closed = false)
    (ht : s.senders i = some ⟨c, some ⟨m, .forward record :: .push record :: more, asked⟩⟩)
    (hfree : 0 < s.channel.free) : Unaided sys s i record := by
  have hasked := hI.asked_iff hopen ht
  cases asked with
  | false => exact unaided_of_free hopen ht (fun h => absurd (hasked.mp h) (by simp)) hfree
  | true =>
      -- nobody waits while a place is free, so the place is promised
      have hnobody : s.channel.waiting = [] := by
        by_contra hne
        exact absurd (hI.fair.waits hne) (Nat.pos_iff_ne_zero.mp hfree)
      have hmem := hasked.mpr rfl
      rw [hnobody] at hmem
      exact unaided_of_granted hopen ht hmem

end

/-! ## A session that is served alone -/

/-- A channel with room takes records that are sent one after the other. -/
theorem channel_takes (i : ι) (free : Nat) (queue records : List MailRecord) :
    Run ChannelStep ⟨free + records.length, [], [], queue, false⟩ (places i records)
      ⟨free, [], [], queue ++ records, false⟩ := by
  induction records generalizing queue with
  | nil =>
      rw [List.append_nil]
      exact Run.nil
  | cons record records ih =>
      have hreserve : ChannelStep ⟨free + (records.length + 1), [], [], queue, false⟩ (.reserve i)
          ⟨free + records.length, [], [i], queue, false⟩ :=
        ChannelStep.reserve i rfl List.not_mem_nil
      have hsend : ChannelStep ⟨free + records.length, [], [i], queue, false⟩ (.send i record)
          ⟨free + records.length, [], [], queue ++ [record], false⟩ := by
        have hplace : ChannelStep ⟨free + records.length, [], [i], queue, false⟩
            (.send i record) _ := ChannelStep.send i record rfl (List.mem_singleton_self i)
        rwa [Channel.send, List.erase_cons_head] at hplace
      rw [List.append_cons queue record records]
      exact Run.cons hreserve (Run.cons hsend (ih (queue ++ [record])))

/-- A run of one task, with what the channel does for it, is a run in which nobody
    else moves. -/
theorem relay_of_sender {t? : Option Sender} {k : List SenderLabel}
    {ch : Channel ι MailRecord} (h : Run (SenderStep sys.toSetup i) (s.senders i) k t?)
    (hch : Run ChannelStep s.channel (k.filterMap (SenderLabel.channel? i)) ch) :
    Run (RelayStep sys) s (k.map (RelayLabel.sender i))
      ⟨Function.update s.senders i t?, ch, s.attempt⟩ := by
  induction h generalizing ch with
  | nil =>
      obtain rfl := hch.nil_inv
      rw [Function.update_eq_self]
      exact Run.nil
  | @snoc k t u a _ hstep ih =>
      rw [List.filterMap_append] at hch
      obtain ⟨ch', hbefore, hlast⟩ := hch.split
      -- the last step of the task comes with one step of the channel, or with none
      have hpasses : Passes ch' (a.channel? i) ch := by
        cases ha : a.channel? i with
        | none =>
            rw [List.filterMap_cons_none ha] at hlast
            exact hlast.nil_inv
        | some b =>
            rw [List.filterMap_cons_some ha] at hlast
            obtain ⟨w, hw, hend⟩ := hlast.cons_inv
            obtain rfl := hend.nil_inv
            exact hw
      have hnow : SenderStep sys.toSetup i (Function.update s.senders i t i) a u := by
        rwa [Function.update_self]
      have hlift : RelayStep sys ⟨Function.update s.senders i t, ch', s.attempt⟩ (.sender i a) _ :=
        RelayStep.sender i a u ch hnow hpasses
      rw [Function.update_idem] at hlift
      rw [List.map_append]
      exact Run.snoc (ih hbefore) hlift

/-- **A session is served** as it would be alone while there is room for what it
    sends. -/
theorem own_relays (hf : sys.cfg.forwardHandle = true) {c : Conn} {moves : List Move}
    (h : Run (sys.Own i) (sys.start i) moves c) {free : Nat} {queue : List MailRecord}
    (hnew : s.senders i = none)
    (hch : s.channel = ⟨free + (moves.flatMap Move.pushed).length, [], [], queue, false⟩) :
    ∃ k : List SenderLabel, Run (RelayStep sys) s (k.map (RelayLabel.sender i))
      ⟨Function.update s.senders i (some ⟨c, none⟩),
        ⟨free, [], [], queue ++ moves.flatMap Move.pushed, false⟩, s.attempt⟩ := by
  obtain ⟨k, hk, hplaces⟩ := sender_of_own hf h
  have hsender : Run (SenderStep sys.toSetup i) (s.senders i) (.accept :: k) (some ⟨c, none⟩) :=
    hnew ▸ Run.cons SenderStep.accept hk
  refine ⟨_, relay_of_sender hsender ?_⟩
  have hlabels : (SenderLabel.accept :: k).filterMap (SenderLabel.channel? i)
      = places i (moves.flatMap Move.pushed) := by
    rw [List.filterMap_cons_none rfl, hplaces]
  rw [hlabels, hch]
  exact channel_takes i free queue _

end

/-! ## A crowd of clients -/

/-- Clients that send the same message.  Their senders are no mailboxes, so no attempt
    comes to a date. -/
def crowd : RelaySetup Nat where
  env := sampleEnv
  cfg := SmtpEnvelope.openConfig
  start := fun _ => Conn.start SmtpEnvelope.openConfig SmtpEnvelope.oneSender
  handshake := fun _ => none
  panics := SmtpForward.panics SmtpForward.sampleReading ⟨none, none⟩

/-- The greeting, MAIL, RCPT and DATA. -/
def visit : List Move × Conn :=
  sampleRun SmtpEnvelope.openConfig none 4 SmtpEnvelope.oneSender

theorem visit_own (i : Nat) : Run (crowd.Own i) (crowd.start i) visit.1 visit.2 :=
  moves_own _ _ _ _ _ _

/-- A visit whose last move pushes the only record. -/
theorem visit_last {v : List Move} (hlen : v.length = 3 + 1)
    (hquiet : (v.take 3).flatMap Move.pushed = [])
    (hone : (v.flatMap Move.pushed).length = 1) :
    ∃ m record, v = v.take 3 ++ [m] ∧ m.pushed = [record] ∧ v.flatMap Move.pushed = [record] := by
  obtain ⟨m, hm⟩ : ∃ m, v = v.take 3 ++ [m] := ⟨_, take_append_last hlen⟩
  obtain ⟨record, hrecord⟩ := List.length_eq_one_iff.mp hone
  have hpushed := congrArg (List.flatMap Move.pushed) hm
  rw [List.flatMap_append, hquiet, List.flatMap_singleton, List.nil_append, hrecord] at hpushed
  exact ⟨m, record, hm, hpushed.symm, hrecord⟩

/-- Before the last move of a visit nothing is pushed. -/
theorem visit_quiet : (visit.1.take 3).flatMap Move.pushed = [] := by decide +kernel

theorem visit_pushed : ∃ m record, visit.1 = visit.1.take 3 ++ [m] ∧ m.pushed = [record]
    ∧ visit.1.flatMap Move.pushed = [record] :=
  visit_last (by decide +kernel) visit_quiet (by decide +kernel)

theorem visit_calm : ∀ record ∈ visit.1.flatMap Move.pushed, crowd.panics record = false := by
  decide +kernel

/-- Nothing is taken by a session. -/
theorem taken_senders {ι : Type} (i : ι) (k : List SenderLabel) :
    taken (k.map (RelayLabel.sender i)) = [] := by
  rw [taken, List.filterMap_map]
  exact List.filterMap_eq_nil_iff.mpr (fun a _ => rfl)

/-- The first client has been served, and the forwarder attempts its email. -/
theorem crowd_first : ∃ l s record, Run (RelayStep crowd) Relay.start l s
    ∧ s.channel = Channel.new capacity ∧ s.attempt = some record
    ∧ (∀ j, 0 < j → s.senders j = none) ∧ ∀ r ∈ taken l, crowd.panics r = false := by
  obtain ⟨-, record, -, -, hrecord⟩ := visit_pushed
  have hcalm := visit_calm
  have hroom : (Relay.start : Relay Nat).channel
      = ⟨99 + (visit.1.flatMap Move.pushed).length, [], [], [], false⟩ := by
    rw [hrecord]
    rfl
  obtain ⟨k, hk⟩ := own_relays rfl (visit_own 0) rfl hroom
  rw [hrecord] at hk hcalm
  refine ⟨_, _, record,
    hk.snoc (RelayStep.take record _ rfl (ChannelStep.recv record [] rfl rfl)), rfl, rfl,
    fun j hj => Function.update_of_ne (Nat.pos_iff_ne_zero.mp hj) _ _, fun r hr => ?_⟩
  have htaken : taken (k.map (RelayLabel.sender 0) ++ [RelayLabel.take record])
      = taken (k.map (RelayLabel.sender 0)) ++ [record] := List.filterMap_append
  rw [htaken, taken_senders] at hr
  exact hcalm r hr

/-- The clients that have been served since fill the queue. -/
theorem crowd_queue (n : Nat) : ∀ free, n + free = capacity →
    ∃ l s queue, Run (RelayStep crowd) Relay.start l s
      ∧ s.channel = ⟨free, [], [], queue, false⟩ ∧ ∀ j, n < j → s.senders j = none := by
  induction n with
  | zero =>
      intro free hfree
      obtain ⟨l, s, record, hrun, hch, -, hnew, -⟩ := crowd_first
      obtain rfl : free = capacity := by omega
      exact ⟨l, s, [], hrun, hch, hnew⟩
  | succ n ih =>
      intro free hfree
      obtain ⟨l, s, queue, hrun, hch, hnew⟩ := ih (free + 1) (by omega)
      have hroom : s.channel
          = ⟨free + (visit.1.flatMap Move.pushed).length, [], [], queue, false⟩ := by
        obtain ⟨-, record, -, -, hrecord⟩ := visit_pushed
        rw [hch, hrecord]
        rfl
      obtain ⟨k, hk⟩ := own_relays rfl (visit_own (n + 1)) (hnew (n + 1) (Nat.lt_succ_self n))
        hroom
      refine ⟨_, _, _, hrun.append hk, rfl, fun j hj => ?_⟩
      dsimp only
      rw [Function.update_of_ne (Nat.ne_of_gt hj)]
      exact hnew j (by omega)

/-- One client more has sent its message. -/
theorem crowd_stuck : ∃ l s c m record, Run (RelayStep crowd) Relay.start l s
    ∧ s.senders 101 = some ⟨c, some ⟨m, [.forward record, .push record], false⟩⟩
    ∧ Stuck s 101 := by
  obtain ⟨l, s, queue, hrun, hch, hnew⟩ := crowd_queue 100 0 rfl
  obtain ⟨m, record, hvisit, hone, -⟩ := visit_pushed
  -- it says all it has to say, but no place is left for its email
  obtain ⟨k, c, hsilent, hk⟩ := reaches_handover rfl (hvisit ▸ visit_own 101) visit_quiet hone
  have hlift := relay_of_sender (hnew 101 (by decide) ▸ hk) (hsilent ▸ Run.nil)
  refine ⟨_, _, c, m, record, hrun.append hlift, Function.update_self 101 _ s.senders,
    ⟨c, m, record, _, false, Function.update_self 101 _ s.senders⟩, ?_, ?_, ?_⟩
  · dsimp only
    rw [hch]
    exact List.not_mem_nil
  · dsimp only
    rw [hch]
  · dsimp only
    rw [hch]

/-! ## The queue and the store -/

/-- The queue has neither lost, repeated nor reordered mail: what was taken and what is
    queued is what was enqueued, in order; what was taken has been attempted, once,
    whatever the results; each session has enqueued what it has pushed, in the same
    order, and at most one email more; and a record was enqueued before it was
    pushed. -/
structure Linear {ι : Type} [DecidableEq ι] (l : List (RelayLabel ι)) (s : Relay ι) : Prop where
  queued : taken l ++ s.channel.queue = (enqueued l).map Prod.snd
  attempted : (attempts l).map Prod.fst ++ s.attempt.toList = taken l
  orders : ∀ i, ∃ waiting, of i (enqueued l) = of i (pushed l) ++ waiting ∧ waiting.length ≤ 1
  before : ∀ i pre record post, l = pre ++ .sender i (.push record) :: post →
    of i (enqueued pre) = of i (pushed pre) ++ [record]

section

variable {ι : Type} [DecidableEq ι] {sys : RelaySetup ι} {s : Relay ι} {l : List (RelayLabel ι)}
  {i : ι}

/-- **The queue neither loses, repeats nor reorders mail** as long as no email that is
    taken makes its attempt panic. -/
theorem queue_linear (hf : sys.cfg.forwardHandle = true)
    (hrun : Run (RelayStep sys) Relay.start l s)
    (hcalm : ∀ record ∈ taken l, sys.panics record = false) : Linear l s := by
  have hopen := (open_of_calm hrun hcalm).1
  refine ⟨?_, attempts_eq hrun hopen, enqueued_pushed hf hrun hopen, ?_⟩
  · have hfifo := fifo (channel_run hrun) hopen
    rwa [taken_eq, enqueued_eq] at hfifo
  · rintro i pre record post rfl
    obtain ⟨t, t', hpre, hstep, hpost⟩ := hrun.step_at
    exact enqueued_before hf hpre (hstep.open_before (open_before hpost hopen)) hstep

end

theorem queue_linear_crowd : ∃ l s record, Run (RelayStep crowd) Relay.start l s
    ∧ s.attempt = some record ∧ Linear l s := by
  obtain ⟨l, s, record, hrun, -, hattempt, -, hcalm⟩ := crowd_first
  exact ⟨l, s, record, hrun, hattempt, queue_linear rfl hrun hcalm⟩

/-! ### A date that ends the forwarder -/

/-- A message of the year 1960. -/
def oldMessage : Bytes := encode "Date: Fri, 1 Jan 1960 00:00:00 +0000\r\n\r\nt\r\n".toList

def oldSession : Bytes :=
  encode "MAIL FROM:<a@x.test>\r\nRCPT TO:<b@y.test>\r\nDATA\r\n".toList ++ oldMessage
    ++ encode ".\r\n".toList

/-- What the parser finds in it, and what its date is as a text. -/
def oldEnv : Env :=
  { sampleEnv with
    parse := fun data =>
      if data = oldMessage then
        some
          { fromHeader := none
            toHeader := none
            subject := none
            bodyText := some "t\r\n".toList
            bodyHtml := some "<html><body>t<br/></body></html>".toList
            date := some (-315619200)
            headers := [("Date".toList, none)]
            attachments := [] }
      else none
    rfc3339 := fun t => if t = -315619200 then some SmtpForward.oldDate else none }

/-- Clients that send it. -/
def oldMail : RelaySetup Nat where
  env := oldEnv
  cfg := SmtpEnvelope.openConfig
  start := fun _ => Conn.start SmtpEnvelope.openConfig oldSession
  handshake := fun _ => none
  panics := SmtpForward.panics SmtpForward.sampleReading ⟨none, none⟩

def oldVisit : List Move × Conn :=
  moves oldEnv SmtpEnvelope.openConfig none sampleStamp 4
    (Conn.start SmtpEnvelope.openConfig oldSession)

theorem oldVisit_own (i : Nat) : Run (oldMail.Own i) (oldMail.start i) oldVisit.1 oldVisit.2 :=
  moves_own _ _ _ _ _ _

theorem oldVisit_quiet : (oldVisit.1.take 3).flatMap Move.pushed = [] := by decide +kernel

theorem oldVisit_pushed : ∃ m record, oldVisit.1 = oldVisit.1.take 3 ++ [m]
    ∧ m.pushed = [record] ∧ oldVisit.1.flatMap Move.pushed = [record] :=
  visit_last (by decide +kernel) oldVisit_quiet (by decide +kernel)

theorem oldVisit_panics :
    ∀ record ∈ oldVisit.1.flatMap Move.pushed, oldMail.panics record = true := by
  decide +kernel

/-- The first client's message has ended the forwarder. -/
theorem oldMail_closed : ∃ l s, Run (RelayStep oldMail) Relay.start l s
    ∧ s.channel.closed = true ∧ s.senders 1 = none := by
  obtain ⟨-, record, -, -, hrecord⟩ := oldVisit_pushed
  have hpanics : oldMail.panics record = true :=
    oldVisit_panics record (hrecord ▸ List.mem_singleton_self record)
  have hroom : (Relay.start : Relay Nat).channel
      = ⟨99 + (oldVisit.1.flatMap Move.pushed).length, [], [], [], false⟩ := by
    rw [hrecord]
    rfl
  obtain ⟨k, hk⟩ := own_relays rfl (oldVisit_own 0) rfl hroom
  rw [hrecord] at hk
  have htake := hk.snoc (RelayStep.take record _ rfl (ChannelStep.recv record [] rfl rfl))
  have hend := htake.snoc (RelayStep.panicked record _ rfl hpanics (ChannelStep.close rfl))
  refine ⟨_, _, hend, rfl, ?_⟩
  show Function.update Relay.start.senders 0 (some ⟨oldVisit.2, none⟩) 1 = none
  rw [Function.update_of_ne Nat.one_ne_zero]
  rfl

/-- **The queue loses mail** once a date has ended the forwarder: what a session pushes
    then was never enqueued. -/
theorem queue_loses : ¬ ∀ l s, Run (RelayStep oldMail) Relay.start l s → Linear l s := by
  intro hall
  obtain ⟨l, s, hrun, hclosed, hnew⟩ := oldMail_closed
  obtain ⟨m, record, hvisit, hone, -⟩ := oldVisit_pushed
  obtain ⟨k, c, hsilent, hk⟩ := reaches_handover rfl (hvisit ▸ oldVisit_own 1) oldVisit_quiet hone
  -- the message of the second client is refused, and stored
  have htask := (hk.snoc (.refused c m record _ false)).snoc (.push c m record [])
  have hlabels :
      (k ++ [SenderLabel.refused record] ++ [SenderLabel.push record]).filterMap
        (SenderLabel.channel? 1) = [ChannelLabel.refuse 1 record] := by
    rw [List.filterMap_append, List.filterMap_append, hsilent]
    rfl
  have hjoint := hrun.append (relay_of_sender (hnew ▸ htask)
    (hlabels ▸ Run.single (ChannelStep.refuse 1 record hclosed)))
  obtain ⟨waiting, horders, -⟩ := (hall _ _ hjoint).orders 1
  -- so it has pushed what it has not sent
  have hown : own 1 l = [] := by
    rcases history rfl hrun 1 with ⟨-, hown⟩ | ⟨t, ht, -⟩
    · exact hown
    · rw [hnew] at ht
      cases ht
  have hall' : own 1 (l ++ (k ++ [SenderLabel.refused record] ++ [SenderLabel.push record]).map
      (RelayLabel.sender 1)) = k ++ [SenderLabel.refused record] ++ [SenderLabel.push record] := by
    rw [own_append, hown, own_senders, List.nil_append]
  rw [of_enqueued, of_pushed, hall', sends_eq 1, hlabels, pushes_snoc] at horders
  have hnone : [ChannelLabel.refuse 1 record].filterMap ChannelLabel.sent? = [] := rfl
  rw [hnone] at horders
  exact absurd horders.symm (by simp [pushes])

section

variable {ι : Type} [DecidableEq ι] {sys : RelaySetup ι} {s : Relay ι} {l : List (RelayLabel ι)}
  {i : ι}

/-- **Where a relay holds up storage.**  In every reachable state, a session that
    has read a message and is yet to push it can do so by its own steps alone just
    where its email is in the queue already, a place is promised to it, fewer than
    all places are promised or taken, or the forwarder is gone. -/
theorem stores_unaided_iff (hf : sys.cfg.forwardHandle = true)
    (hrun : Run (RelayStep sys) Relay.start l s) {c : Conn} {m : Move} {todo : List Handover}
    {asked : Bool} {record : MailRecord}
    (howes : s.senders i = some ⟨c, some ⟨m, todo, asked⟩⟩) (hr : .push record ∈ todo) :
    Unaided sys s i record ↔ todo = [.push record] ∨ i ∈ s.channel.granted
      ∨ s.channel.granted.length + s.channel.queue.length < capacity
      ∨ s.channel.closed = true := by
  have haccounts := Accounts.run hrun
  have hplaces := haccounts.fair.places
  cases progress_of_run hf hrun howes with
  | done => exact absurd hr List.not_mem_nil
  | storing r =>
      obtain rfl : record = r := by simpa using hr
      exact iff_of_true (unaided_of_sent howes) (Or.inl rfl)
  | forwarding r =>
      obtain rfl : record = r := by simpa using hr
      cases hopen : s.channel.closed with
      | true => exact iff_of_true (unaided_of_closed hopen howes) (by simp)
      | false =>
          constructor
          · -- with neither a place nor room for one the session is stuck
            intro hunaided
            by_contra hno
            simp only [not_or, not_lt] at hno
            have hstuck : Stuck s i :=
              ⟨⟨c, m, record, _, asked, howes⟩, hno.2.1, by omega, hopen⟩
            exact hstuck.not_unaided record hunaided
          · rintro (heq | hplace | hroom | hclosed)
            · exact absurd heq (by simp)
            · exact haccounts.unaided_of_place hopen howes hplace
            · exact haccounts.unaided_of_room hopen howes (by omega)
            · cases hclosed

end

theorem stores_unaided_crowd : ∃ l s c m todo record, Run (RelayStep crowd) Relay.start l s
    ∧ s.senders 101 = some ⟨c, some ⟨m, todo, false⟩⟩ ∧ .push record ∈ todo
    ∧ (Unaided crowd s 101 record ↔ todo = [.push record] ∨ 101 ∈ s.channel.granted
      ∨ s.channel.granted.length + s.channel.queue.length < capacity
      ∨ s.channel.closed = true) := by
  obtain ⟨l, s, c, m, record, hrun, howes, -⟩ := crowd_stuck
  have hr : Handover.push record ∈ [.forward record, .push record] :=
    List.mem_cons_of_mem _ List.mem_cons_self
  exact ⟨l, s, c, m, _, record, hrun, howes, hr, stores_unaided_iff rfl hrun howes hr⟩

/-- **A slow relay holds up storage**, once the queue behind it is full. -/
theorem storage_held_up : ¬ ∀ l s, Run (RelayStep crowd) Relay.start l s →
    ∀ i c m todo asked record, s.senders i = some ⟨c, some ⟨m, todo, asked⟩⟩ →
      .push record ∈ todo → Unaided crowd s i record := by
  intro hall
  obtain ⟨l, s, c, m, record, hrun, howes, hstuck⟩ := crowd_stuck
  exact hstuck.not_unaided record
    (hall l s hrun 101 c m _ false record howes (List.mem_cons_of_mem _ List.mem_cons_self))

end SmtpRelay
