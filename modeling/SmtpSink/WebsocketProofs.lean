import SmtpSink.RunProofs
import SmtpSink.StoreProofs

/-! # WebSocket updates — a watcher of the store

    Operations change the store under its lock and notify afterwards, each in
    two steps; a WebSocket handler reads the store, sends what it read,
    subscribes, and then sends the store again for every notification.  `step`
    is any interleaving of these.

    `Current` says that a handler at rest has sent the store's contents.
    `Synced` is its invariant: what was sent last is the contents, or something
    is still to come.  The one step that can break it is the subscription
    (`current_iff_subscribe`): a notification sent before it is not received, so
    an operation that changes and notifies between the first read and the
    subscription is lost (`overtaken_goes_stale`).  Without such an operation
    the handler is current in every state (`snapshot_current`). -/

namespace Websocket

open Runs SmtpRecord EmailStore

/-- The capacity of the notification channel. -/
def capacity : Nat := 16

/-- Where `handle_websocket` stands. -/
inductive Handler where
  | start
  /-- before the first `send`, with what was read -/
  | greeting (emails : List MailRecord)
  | subscribing
  /-- at the `select!` of the loop -/
  | waiting
  /-- after a notification, before `get_all` -/
  | notified
  | sending (emails : List MailRecord)
  /-- before the `send` of a pong -/
  | ponging
  | closed

/-- The handler holds a subscription. -/
def Handler.subscribed : Handler → Bool
  | .waiting | .notified | .sending _ | .ponging => true
  | .start | .greeting _ | .subscribing | .closed => false

/-- The store, the operations on it and one handler.  Operations are numbered
    in the order of their changes. -/
structure World where
  store : MemoryStore
  started : Nat
  /-- operations between their change and their notification -/
  pending : List Nat
  handler : Handler
  /-- notifications the subscription has not received -/
  unread : Nat
  /-- what was sent last -/
  snapshot : Option (List MailRecord)

/-- A handler about to run over a store. -/
def World.start (store : MemoryStore) : World := ⟨store, 0, [], .start, 0, none⟩

/-- What comes from the client. -/
inductive ClientMessage where
  | ping
  /-- a close message, an error, or the end of the stream -/
  | close
  | other

inductive Action where
  | change (op : StoreOp) (i : Nat)
  | notify (i : Nat)
  | fetch
  | send (ok : Bool)
  | subscribe
  | receive
  | client (message : ClientMessage)

/-- The handler after a `send`. -/
def afterSend (w : World) (ok : Bool) : Option World :=
  match w.handler with
  | .greeting emails =>
      some (if ok then { w with handler := .subscribing, snapshot := some emails }
        else { w with handler := .closed })
  | .sending emails =>
      some (if ok then { w with handler := .waiting, snapshot := some emails }
        else { w with handler := .closed })
  | .ponging => some { w with handler := if ok then .waiting else .closed }
  | _ => none

/-- The handler after a message of the client. -/
def afterClient (w : World) : ClientMessage → World
  | .ping => { w with handler := .ponging }
  | .close => { w with handler := .closed }
  | .other => w

/-- One step of an operation or of the handler. -/
def step (w : World) : Action → Option World
  | .change op i =>
      if i = w.started then
        match op.change w.store with
        | none => none
        | some store =>
            some { w with store := store, started := i + 1, pending := w.pending ++ [i] }
      else none
  | .notify i =>
      if i ∈ w.pending then
        some { w with
          pending := w.pending.erase i
          unread := if w.handler.subscribed then w.unread + 1 else w.unread }
      else none
  | .fetch =>
      match w.handler with
      | .start => some { w with handler := .greeting w.store.getAll }
      | .notified => some { w with handler := .sending w.store.getAll }
      | _ => none
  | .send ok => afterSend w ok
  | .subscribe =>
      match w.handler with
      | .subscribing => some { w with handler := .waiting, unread := 0 }
      | _ => none
  | .receive =>
      match w.handler with
      | .waiting =>
          if w.unread = 0 then none
          -- a receiver that has fallen too far behind gets an error, and leaves
          else if capacity < w.unread then some { w with handler := .closed }
          else some { w with handler := .notified, unread := w.unread - 1 }
      | _ => none
  | .client message =>
      match w.handler with
      | .waiting => some (afterClient w message)
      | _ => none

/-- `step` as a relation. -/
def Step (w : World) (a : Action) (w' : World) : Prop := step w a = some w'

theorem step_deterministic : ∀ w a u v, Step w a u → Step w a v → u = v :=
  fun _ _ _ _ hu hv => Option.some.inj (hu.symm.trans hv)

/-- The handler is in its loop and not acting on a notification. -/
def AtRest (w : World) : Prop := w.handler = .waiting ∨ w.handler = .ponging

/-- A handler at rest has sent the store's contents, when no operation is
    between its change and its notification and none is unread. -/
def Current (w : World) : Prop :=
  AtRest w → w.pending = [] → w.unread = 0 → w.snapshot = some w.store.getAll

/-- Something is still to come: an operation to notify, or a notification to be
    received. -/
def Stirring (w : World) : Prop := w.pending ≠ [] ∨ w.unread ≠ 0

/-- What was sent last, or is about to be sent, is the contents, or something is
    still to come. -/
def Synced (w : World) : Prop :=
  match w.handler with
  | .waiting | .ponging => w.snapshot = some w.store.getAll ∨ Stirring w
  | .sending emails => emails = w.store.getAll ∨ Stirring w
  | .start | .greeting _ | .subscribing | .notified | .closed => True

/-- The subscription comes in time: nothing was missed, or an operation is yet
    to notify. -/
def InTime (w : World) : Prop := w.snapshot = some w.store.getAll ∨ w.pending ≠ []

/-- The steps case by case. -/
inductive Happens (w : World) : Action → World → Prop where
  | change (op : StoreOp) (store : MemoryStore) : op.change w.store = some store →
      Happens w (.change op w.started)
        { w with store := store, started := w.started + 1,
                 pending := w.pending ++ [w.started] }
  | notify (i : Nat) : i ∈ w.pending →
      Happens w (.notify i)
        { w with pending := w.pending.erase i
                 unread := if w.handler.subscribed then w.unread + 1 else w.unread }
  | fetchFirst : w.handler = .start →
      Happens w .fetch { w with handler := .greeting w.store.getAll }
  | fetchAgain : w.handler = .notified →
      Happens w .fetch { w with handler := .sending w.store.getAll }
  | sendFirst (emails : List MailRecord) : w.handler = .greeting emails →
      Happens w (.send true) { w with handler := .subscribing, snapshot := some emails }
  | sendAgain (emails : List MailRecord) : w.handler = .sending emails →
      Happens w (.send true) { w with handler := .waiting, snapshot := some emails }
  | pong : w.handler = .ponging → Happens w (.send true) { w with handler := .waiting }
  | subscribe : w.handler = .subscribing →
      Happens w .subscribe { w with handler := .waiting, unread := 0 }
  | receive : w.handler = .waiting →
      Happens w .receive { w with handler := .notified, unread := w.unread - 1 }
  | ping : w.handler = .waiting → Happens w (.client .ping) { w with handler := .ponging }
  | ignore : w.handler = .waiting → Happens w (.client .other) w
  /-- a send fails, the receiver lags, or the client is gone -/
  | leave (a : Action) : a ≠ .subscribe → Happens w a { w with handler := .closed }

section

variable {w w' : World} {a : Action} {l : List Action}

theorem afterSend_happens {ok : Bool} (h : afterSend w ok = some w') :
    Happens w (.send ok) w' := by
  rw [afterSend] at h
  cases hw : w.handler with
  | greeting emails =>
      rw [hw] at h
      cases ok with
      | true => cases h; exact Happens.sendFirst emails hw
      | false => cases h; exact Happens.leave _ (fun h => nomatch h)
  | sending emails =>
      rw [hw] at h
      cases ok with
      | true => cases h; exact Happens.sendAgain emails hw
      | false => cases h; exact Happens.leave _ (fun h => nomatch h)
  | ponging =>
      rw [hw] at h
      cases ok with
      | true => cases h; exact Happens.pong hw
      | false => cases h; exact Happens.leave _ (fun h => nomatch h)
  | start | subscribing | waiting | notified | closed =>
      rw [hw] at h
      exact nomatch h

/-- **The list of steps is complete.** -/
theorem step_happens (h : Step w a w') : Happens w a w' := by
  cases a with
  | change op i =>
      simp only [Step, step] at h
      by_cases hi : i = w.started
      · subst hi
        rw [if_pos rfl] at h
        cases hop : op.change w.store with
        | none => rw [hop] at h; exact nomatch h
        | some store =>
            rw [hop] at h
            cases h
            exact Happens.change op store hop
      · rw [if_neg hi] at h
        exact nomatch h
  | notify i =>
      simp only [Step, step] at h
      by_cases hi : i ∈ w.pending
      · rw [if_pos hi] at h
        cases h
        exact Happens.notify i hi
      · rw [if_neg hi] at h
        exact nomatch h
  | fetch =>
      simp only [Step, step] at h
      cases hw : w.handler with
      | start => rw [hw] at h; cases h; exact Happens.fetchFirst hw
      | notified => rw [hw] at h; cases h; exact Happens.fetchAgain hw
      | greeting | subscribing | waiting | sending | ponging | closed =>
          rw [hw] at h
          exact nomatch h
  | send ok => exact afterSend_happens h
  | subscribe =>
      simp only [Step, step] at h
      cases hw : w.handler with
      | subscribing => rw [hw] at h; cases h; exact Happens.subscribe hw
      | start | greeting | waiting | notified | sending | ponging | closed =>
          rw [hw] at h
          exact nomatch h
  | receive =>
      simp only [Step, step] at h
      cases hw : w.handler with
      | waiting =>
          rw [hw] at h
          dsimp only at h
          by_cases h0 : w.unread = 0
          · rw [if_pos h0] at h
            exact nomatch h
          · rw [if_neg h0] at h
            by_cases hlag : capacity < w.unread
            · rw [if_pos hlag] at h
              cases h
              exact Happens.leave _ (fun h => nomatch h)
            · rw [if_neg hlag] at h
              cases h
              exact Happens.receive hw
      | start | greeting | subscribing | notified | sending | ponging | closed =>
          rw [hw] at h
          exact nomatch h
  | client message =>
      simp only [Step, step] at h
      cases hw : w.handler with
      | waiting =>
          rw [hw] at h
          cases message with
          | ping => cases h; exact Happens.ping hw
          | close => cases h; exact Happens.leave _ (fun h => nomatch h)
          | other => cases h; exact Happens.ignore hw
      | start | greeting | subscribing | notified | sending | ponging | closed =>
          rw [hw] at h
          exact nomatch h

/-- A change makes every handler wait for its notification. -/
theorem synced_of_stirring (h : Stirring w) : Synced w := by
  rw [Synced]
  cases w.handler with
  | waiting | ponging | sending => exact Or.inr h
  | start | greeting | subscribing | notified | closed => trivial

theorem synced_notify (w : World) (i : Nat) :
    Synced { w with pending := w.pending.erase i
                    unread := if w.handler.subscribed then w.unread + 1 else w.unread } := by
  by_cases hs : w.handler.subscribed = true
  · -- the handler has the notification to receive
    refine synced_of_stirring (Or.inr ?_)
    rw [if_pos hs]
    exact Nat.succ_ne_zero _
  · -- without a receiver it is lost, but nothing is promised yet
    rw [Synced]
    cases hw : w.handler with
    | waiting | ponging | sending | notified => exact absurd (by rw [hw]; rfl) hs
    | start | greeting | subscribing | closed => trivial

/-- **What a step preserves.** -/
theorem Synced.step (hI : Synced w) (h : Step w a w') (hsub : a = .subscribe → InTime w) :
    Synced w' := by
  cases step_happens h with
  | change op store hop => exact synced_of_stirring (Or.inl (by simp))
  | notify i hi => exact synced_notify w i
  | fetchFirst hw => trivial
  | fetchAgain hw => exact Or.inl rfl
  | sendFirst emails hw => trivial
  | sendAgain emails hw =>
      rw [Synced, hw] at hI
      rcases hI with rfl | hI
      · exact Or.inl rfl
      · exact Or.inr hI
  | pong hw =>
      rw [Synced, hw] at hI
      exact hI
  | subscribe hw => exact (hsub rfl).imp id Or.inl
  | receive hw => trivial
  | ping hw =>
      rw [Synced, hw] at hI
      exact hI
  | ignore hw => exact hI
  | leave a ha => trivial

theorem Synced.current (hI : Synced w) : Current w := by
  intro hrest hp hu
  have hsent : w.snapshot = some w.store.getAll ∨ Stirring w := by
    rcases hrest with hw | hw
    · rw [Synced, hw] at hI
      exact hI
    · rw [Synced, hw] at hI
      exact hI
  rcases hsent with h | h | h
  · exact h
  · exact absurd hp h
  · exact absurd hu h

/-- A subscription that is not in time leaves a handler at rest with an outdated
    snapshot. -/
theorem inTime_of_current (h : Step w .subscribe w') (hc : Current w') : InTime w := by
  by_contra hno
  rw [InTime, not_or, not_not] at hno
  cases step_happens h with
  | subscribe hw => exact hno.1 (hc (Or.inl rfl) hno.2 rfl)
  | leave a ha => exact ha rfl

end

/-- The invariant of a run whose subscription is in time. -/
theorem Synced.run {store : MemoryStore} {w : World} {l : List Action}
    (hrun : Run Step (World.start store) l w)
    (h : ∀ pre post w', l = pre ++ .subscribe :: post →
      Run Step (World.start store) pre w' → InTime w') : Synced w := by
  induction hrun with
  | nil => trivial
  | @snoc l t u a hrun hstep ih =>
      refine (ih (fun pre post w' hl => h pre (post ++ [a]) w' (by rw [hl]; simp))).step
        hstep ?_
      rintro rfl
      exact h l [] t rfl hrun

/-- A handler is current in every state of a run exactly when its subscription
    is in time. -/
theorem current_iff_subscribe {store : MemoryStore} {w : World} {l : List Action}
    (hrun : Run Step (World.start store) l w) :
    (∀ pre post w', l = pre ++ post → Run Step (World.start store) pre w' → Current w')
      ↔ ∀ pre post w', l = pre ++ .subscribe :: post →
        Run Step (World.start store) pre w' → InTime w' := by
  constructor
  · intro h pre post w' hl hpre
    rw [hl] at hrun
    obtain ⟨t, t', ht, hstep, -⟩ := hrun.step_at
    obtain rfl := ht.deterministic step_deterministic hpre
    refine inTime_of_current hstep (h (pre ++ [.subscribe]) post t' ?_ (Run.snoc ht hstep))
    rw [hl, List.append_assoc]
    rfl
  · intro h pre post w' hl hpre
    refine (Synced.run hpre (fun pre' post' u hl' hu => ?_)).current
    exact h pre' (post' ++ post) u (by rw [hl, hl']; simp) hu

/-! ## Operations that overtake the subscription -/

/-- An operation changes the store and notifies between the first read of the
    handler and its subscription. -/
def Overtaken (l : List Action) : Prop :=
  ∃ a b c op i, l = a ++ .fetch :: (b ++ .subscribe :: c)
    ∧ .change op i ∈ b ∧ .notify i ∈ b

/-- What was read first is still the contents, or an operation has changed them
    since; such an operation is yet to notify, or has notified since. -/
def Missed (emails : List MailRecord) (l : List Action) (w : World) : Prop :=
  ∃ a b, l = a ++ .fetch :: b ∧ (emails = w.store.getAll
    ∨ ∃ op i, .change op i ∈ b ∧ (i ∈ w.pending ∨ .notify i ∈ b))

/-- Between its first read and its subscription a handler may have missed
    something. -/
def Window (l : List Action) (w : World) : Prop :=
  match w.handler with
  | .greeting emails => Missed emails l w
  | .subscribing => ∃ emails, w.snapshot = some emails ∧ Missed emails l w
  | _ => True

section

variable {w w' : World} {a : Action} {l : List Action}

theorem Missed.change {emails : List MailRecord} (h : Missed emails l w) (op : StoreOp)
    (store : MemoryStore) :
    Missed emails (l ++ [.change op w.started])
      { w with store := store, started := w.started + 1,
               pending := w.pending ++ [w.started] } := by
  obtain ⟨a, b, rfl, -⟩ := h
  refine ⟨a, b ++ [.change op w.started], by simp, Or.inr ⟨op, w.started, ?_, Or.inl ?_⟩⟩
  · exact List.mem_append_right _ List.mem_cons_self
  · exact List.mem_append_right _ List.mem_cons_self

theorem Missed.notify {emails : List MailRecord} (h : Missed emails l w) (j : Nat)
    (hstore : w'.store = w.store) (hpending : w'.pending = w.pending.erase j) :
    Missed emails (l ++ [.notify j]) w' := by
  obtain ⟨a, b, rfl, hb⟩ := h
  refine ⟨a, b ++ [.notify j], by simp, ?_⟩
  rw [hstore, hpending]
  refine hb.imp id ?_
  rintro ⟨op, i, hi, hp | hn⟩
  · refine ⟨op, i, List.mem_append_left _ hi, ?_⟩
    -- the operation that was to notify may be the one that does
    by_cases hij : i = j
    · subst hij
      exact Or.inr (List.mem_append_right _ List.mem_cons_self)
    · exact Or.inl ((List.mem_erase_of_ne hij).mpr hp)
  · exact ⟨op, i, List.mem_append_left _ hi, Or.inr (List.mem_append_left _ hn)⟩

/-- A step that leaves the store and the operations alone. -/
theorem Missed.keep {emails : List MailRecord} (h : Missed emails l w) (a : Action)
    (hstore : w'.store = w.store) (hpending : w'.pending = w.pending) :
    Missed emails (l ++ [a]) w' := by
  obtain ⟨x, b, rfl, hb⟩ := h
  refine ⟨x, b ++ [a], by simp, ?_⟩
  rw [hstore, hpending]
  refine hb.imp id ?_
  rintro ⟨op, i, hi, hp | hn⟩
  · exact ⟨op, i, List.mem_append_left _ hi, Or.inl hp⟩
  · exact ⟨op, i, List.mem_append_left _ hi, Or.inr (List.mem_append_left _ hn)⟩

theorem Window.step (hI : Window l w) (h : Step w a w') : Window (l ++ [a]) w' := by
  cases step_happens h with
  | change op store hop =>
      rw [Window] at hI ⊢
      cases hw : w.handler with
      | greeting emails =>
          rw [hw] at hI
          exact hI.change op store
      | subscribing =>
          rw [hw] at hI
          obtain ⟨emails, hs, hm⟩ := hI
          exact ⟨emails, hs, hm.change op store⟩
      | start | waiting | notified | sending | ponging | closed => trivial
  | notify j hj =>
      rw [Window] at hI ⊢
      cases hw : w.handler with
      | greeting emails =>
          rw [hw] at hI
          exact hI.notify j rfl rfl
      | subscribing =>
          rw [hw] at hI
          obtain ⟨emails, hs, hm⟩ := hI
          exact ⟨emails, hs, hm.notify j rfl rfl⟩
      | start | waiting | notified | sending | ponging | closed => trivial
  | fetchFirst hw => exact ⟨l, [], rfl, Or.inl rfl⟩
  | sendFirst emails hw =>
      rw [Window, hw] at hI
      exact ⟨emails, rfl, hI.keep _ rfl rfl⟩
  | ignore hw =>
      rw [Window, hw]
      trivial
  | fetchAgain | sendAgain | pong | subscribe | receive | ping | leave => trivial

theorem Window.run {store : MemoryStore} (hrun : Run Step (World.start store) l w) :
    Window l w := by
  have h0 : Window [] (World.start store) := trivial
  exact hrun.history_rule h0 (fun _ _ _ _ hI hs => hI.step hs)

/-- A subscription that no operation has overtaken is in time. -/
theorem Window.inTime {c : List Action} (hI : Window l w) (hw : w.handler = .subscribing)
    (hno : ¬ Overtaken (l ++ .subscribe :: c)) : InTime w := by
  rw [Window, hw] at hI
  obtain ⟨emails, hs, a, b, rfl, rfl | ⟨op, i, hi, hp | hn⟩⟩ := hI
  · exact Or.inl hs
  · exact Or.inr (List.ne_nil_of_mem hp)
  · exact absurd ⟨a, b, c, op, i, by simp, hi, hn⟩ hno

end

/-- **No update is lost unless an operation overtakes the subscription.**  In a
    run in which no operation both changes the store and notifies between the
    handler's first read and its subscription, a handler at rest has sent the
    store's contents, whenever no operation is under way and no notification is
    unread. -/
theorem snapshot_current {store : MemoryStore} {w : World} {l : List Action}
    (hno : ¬ Overtaken l) (hrun : Run Step (World.start store) l w) : Current w := by
  refine (Synced.run hrun (fun pre post w' hl hpre => ?_)).current
  rw [hl] at hrun hno
  obtain ⟨t, t', ht, hstep, -⟩ := hrun.step_at
  obtain rfl := ht.deterministic step_deterministic hpre
  have hw : t.handler = .subscribing := by
    cases step_happens hstep with
    | subscribe hw => exact hw
    | leave a ha => exact absurd rfl ha
  exact (Window.run ht).inTime hw hno

/-- An operation whose change comes after the subscription does not overtake it. -/
theorem not_overtaken {x c : List Action} (hx : ∀ op i, .change op i ∉ x)
    (hc : .subscribe ∉ c) : ¬ Overtaken (x ++ .subscribe :: c) := by
  rintro ⟨a, b, c', op, i, hl, hi, -⟩
  have hl : x ++ .subscribe :: c = (a ++ .fetch :: b) ++ .subscribe :: c' := by
    rw [hl, List.append_assoc]
    rfl
  have hmem : .change op i ∈ a ++ .fetch :: b :=
    List.mem_append_right _ (List.mem_cons_of_mem _ hi)
  rcases List.append_eq_append_iff.mp hl with ⟨d, hd, hdc⟩ | ⟨d, hd, -⟩
  · cases d with
    | nil =>
        rw [hd, List.append_nil] at hmem
        exact hx op i hmem
    | cons e d =>
        obtain ⟨-, rfl⟩ := List.cons.inj hdc
        exact hc (List.mem_append_right _ List.mem_cons_self)
  · rw [hd] at hx
    exact hx op i (List.mem_append_left _ hmem)

/-- The record of the sample message. -/
def sampleRecord : MailRecord := parseEmail sampleEnv sampleStamp sampleData ⟨none, []⟩

/-- A handler that subscribes before a record is pushed. -/
theorem snapshot_current_push : ∃ w,
    Run Step (World.start ⟨10, []⟩)
      ([.fetch, .send true] ++ .subscribe :: [.change (.push sampleRecord) 0, .notify 0,
        .receive, .fetch, .send true]) w
    ∧ AtRest w ∧ w.snapshot = some [sampleRecord] := by
  have hrun : Run Step (World.start ⟨10, []⟩)
      ([.fetch, .send true] ++ .subscribe :: [.change (.push sampleRecord) 0, .notify 0,
        .receive, .fetch, .send true])
      ⟨⟨10, [sampleRecord]⟩, 1, [], .waiting, 0, some [sampleRecord]⟩ := follow_run rfl
  exact ⟨_, hrun, Or.inl rfl, snapshot_current
    (not_overtaken (fun op i h => by simp at h) (by simp)) hrun (Or.inl rfl) rfl rfl⟩

/-- A record pushed between the first read and the subscription is never sent. -/
theorem overtaken_goes_stale : ∃ w,
    Run Step (World.start ⟨10, []⟩)
      [.fetch, .send true, .change (.push sampleRecord) 0, .notify 0, .subscribe] w
    ∧ ¬ Current w := by
  have hrun : Run Step (World.start ⟨10, []⟩)
      [.fetch, .send true, .change (.push sampleRecord) 0, .notify 0, .subscribe]
      ⟨⟨10, [sampleRecord]⟩, 1, [], .waiting, 0, some []⟩ := follow_run rfl
  refine ⟨_, hrun, fun h => ?_⟩
  have hstale := h (Or.inl rfl) rfl rfl
  exact nomatch hstale

end Websocket
