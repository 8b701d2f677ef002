import SmtpSink.WebsocketProofs

/-! # Bursts of updates — a watcher that falls behind

    The notification channel keeps the last notifications for a subscription, up
    to its capacity.  A subscription that has fallen further behind is told so
    once, by an error in place of a notification (`recv`), and could go on with
    those that are kept.  The handler takes that error for the end of the channel
    and leaves (`step_receive`).

    `stays_iff` — with a client that stays and sends that succeed, a handler
    remains in its loop exactly as long as none of its receives finds more
    notifications than the channel keeps.  Seventeen updates between two receives
    cut it off (`burst_closes`). -/

namespace WebsocketLag

open Runs SmtpRecord EmailStore Websocket

/-! ## The channel -/

/-- What a subscription receives. -/
inductive Received where
  | notification
  /-- `RecvError::Lagged` -/
  | lagged (missed : Nat)

/-- `Receiver::recv` on some unread notifications, and how many are unread then;
    it waits where there is none. -/
def recv (unread : Nat) : Option (Received × Nat) :=
  if unread = 0 then none
  else if capacity < unread then some (.lagged (unread - capacity), capacity)
  else some (.notification, unread - 1)

/-- **The handler leaves where it is told that it lags.** -/
theorem step_receive {w : World} (hw : w.handler = .waiting) :
    step w .receive = (recv w.unread).map (fun p =>
      match p.1 with
      | .notification => { w with handler := .notified, unread := p.2 }
      | .lagged _ => { w with handler := .closed }) := by
  rw [step, hw, recv]
  dsimp only
  split_ifs <;> rfl

/-! ## How far a subscription is behind -/

/-- How many notifications were sent since the last subscription and not
    received. -/
def behind (l : List Action) : Nat :=
  l.foldl (fun n a =>
    match a with
    | .subscribe => 0
    | .notify _ => n + 1
    | .receive => n - 1
    | .change _ _ | .fetch | .send _ | .client _ => n) 0

/-- No receive finds more notifications than the channel keeps. -/
def KeepsUp (l : List Action) : Prop :=
  ∀ pre post, l = pre ++ .receive :: post → behind pre ≤ capacity

/-- The client stays and everything sent to it arrives. -/
structure Healthy (l : List Action) : Prop where
  client : .client .close ∉ l
  send : .send false ∉ l

section

variable {w w' : World} {a : Action} {l : List Action} {store : MemoryStore}

theorem behind_snoc (l : List Action) (a : Action) :
    behind (l ++ [a]) =
      match a with
      | .subscribe => 0
      | .notify _ => behind l + 1
      | .receive => behind l - 1
      | .change _ _ | .fetch | .send _ | .client _ => behind l := List.foldl_concat ..

theorem KeepsUp.of_snoc (h : KeepsUp (l ++ [a])) : KeepsUp l := by
  rintro pre post rfl
  exact h pre (post ++ [a]) (by simp)

theorem Healthy.of_snoc (h : Healthy (l ++ [a])) : Healthy l :=
  ⟨fun hc => h.client (List.mem_append_left _ hc), fun hs => h.send (List.mem_append_left _ hs)⟩

/-- A subscription holds what was sent since. -/
def Counted (l : List Action) (w : World) : Prop :=
  w.handler.subscribed = true → w.unread = behind l

theorem Counted.step (hI : Counted l w) (h : Step w a w') : Counted (l ++ [a]) w' := by
  intro hs
  rw [behind_snoc]
  cases step_happens h with
  | change op store hop => exact hI hs
  | notify i hi =>
      have hw : w.handler.subscribed = true := hs
      show (if w.handler.subscribed then w.unread + 1 else w.unread) = behind l + 1
      rw [if_pos hw, hI hw]
  | subscribe hw => rfl
  | receive hw =>
      show w.unread - 1 = behind l - 1
      rw [hI (by rw [hw]; rfl)]
  | fetchFirst hw => exact absurd hs Bool.false_ne_true
  | sendFirst emails hw => exact absurd hs Bool.false_ne_true
  | fetchAgain hw | sendAgain emails hw | pong hw | ping hw => exact hI (by rw [hw]; rfl)
  | ignore hw => exact hI hs
  | leave a ha => exact absurd hs Bool.false_ne_true

theorem Counted.run (hrun : Run Step (World.start store) l w) : Counted l w := by
  have h0 : Counted [] (World.start store) := fun hs => absurd hs Bool.false_ne_true
  exact hrun.history_rule h0 (fun _ _ _ _ hI hs => hI.step hs)

/-! ## How a handler leaves -/

/-- A handler that has left does not come back. -/
theorem closed_step (h : Step w a w') (hw : w.handler = .closed) : w'.handler = .closed := by
  cases step_happens h with
  | change | notify => exact hw
  | leave => rfl
  | fetchFirst hp | fetchAgain hp | sendFirst _ hp | sendAgain _ hp | pong hp | subscribe hp
    | receive hp | ping hp | ignore hp => exact absurd (hw.symm.trans hp) (by simp)

theorem closed_run (hrun : Run Step w l w') (hw : w.handler = .closed) :
    w'.handler = .closed := by
  induction hrun with
  | nil => exact hw
  | snoc _ hstep ih => exact closed_step hstep ih

/-- A handler receives in its loop only. -/
theorem receive_waiting (h : Step w .receive w') : w.handler = .waiting := by
  rw [Step, step] at h
  cases hw : w.handler with
  | waiting => rfl
  | start | greeting | subscribing | notified | sending | ponging | closed =>
      rw [hw] at h
      exact absurd h (by simp)

/-- **The three ways to leave**: a send fails, the client is gone, or a receive
    finds too many notifications. -/
theorem leaves_cases (h : Step w a w') (hw : w.handler ≠ .closed)
    (hw' : w'.handler = .closed) :
    a = .send false ∨ a = .client .close ∨ a = .receive ∧ capacity < w.unread := by
  cases a with
  | send ok =>
      cases ok with
      | false => exact Or.inl rfl
      | true =>
          rw [Step, step, afterSend] at h
          split at h
          · cases h; exact absurd hw' (by simp)
          · cases h; exact absurd hw' (by simp)
          · cases h; exact absurd hw' (by simp)
          · cases h
  | client message =>
      cases message with
      | close => exact Or.inr (Or.inl rfl)
      | ping =>
          rw [Step, step] at h
          split at h
          · cases h; cases hw'
          · cases h
      | other =>
          rw [Step, step] at h
          split at h
          · cases h; exact absurd hw' hw
          · cases h
  | receive =>
      refine Or.inr (Or.inr ⟨rfl, ?_⟩)
      by_contra hlag
      rw [Step, step_receive (receive_waiting h), recv, if_neg hlag] at h
      by_cases hnone : w.unread = 0
      · rw [if_pos hnone] at h
        cases h
      · rw [if_neg hnone] at h
        cases h
        cases hw'
  | change op i =>
      rw [Step, step] at h
      split at h
      · split at h
        · cases h
        · cases h; exact absurd hw' hw
      · cases h
  | notify i =>
      rw [Step, step] at h
      split at h
      · cases h; exact absurd hw' hw
      · cases h
  | fetch =>
      rw [Step, step] at h
      split at h
      · cases h; cases hw'
      · cases h; cases hw'
      · cases h
  | subscribe =>
      rw [Step, step] at h
      split at h
      · cases h; cases hw'
      · cases h

/-- A receive that finds too many notifications is the last. -/
theorem receive_closed (h : Step w .receive w') (hlag : capacity < w.unread) :
    w'.handler = .closed := by
  have hw := receive_waiting h
  have hne : w.unread ≠ 0 := Nat.ne_of_gt (Nat.zero_lt_of_lt hlag)
  rw [Step, step_receive hw, recv, if_neg hne, if_pos hlag] at h
  obtain rfl := Option.some.inj h
  rfl

end

/-- **A burst of updates cuts off exactly the handlers that fall too far
    behind.**  In every run whose client stays and whose sends succeed, the handler
    has not left if and only if no receive of its has found more notifications
    than the channel keeps. -/
theorem stays_iff {store : MemoryStore} {w : World} {l : List Action} (hl : Healthy l)
    (hrun : Run Step (World.start store) l w) : w.handler ≠ .closed ↔ KeepsUp l := by
  constructor
  · rintro hopen pre post rfl
    obtain ⟨t, t', hpre, hstep, hpost⟩ := hrun.step_at
    have hcount : t.unread = behind pre :=
      Counted.run hpre (by rw [receive_waiting hstep]; rfl)
    by_contra hlag
    rw [← hcount, not_le] at hlag
    exact hopen (closed_run hpost (receive_closed hstep hlag))
  · intro hkeeps
    induction hrun with
    | nil => exact fun h => nomatch h
    | @snoc l t u a hrun hstep ih =>
        intro hclosed
        rcases leaves_cases hstep (ih hl.of_snoc hkeeps.of_snoc) hclosed with
          rfl | rfl | ⟨rfl, hlag⟩
        · exact hl.send (List.mem_append_right _ List.mem_cons_self)
        · exact hl.client (List.mem_append_right _ List.mem_cons_self)
        · have hcount : t.unread = behind l :=
            Counted.run hrun (by rw [receive_waiting hstep]; rfl)
          rw [hcount] at hlag
          exact absurd (hkeeps l [] rfl) (not_le.mpr hlag)

/-- Some updates, each with its notification. -/
def burst (op : StoreOp) : Nat → List Action
  | 0 => []
  | n + 1 => burst op n ++ [.change op n, .notify n]

/-- A handler that subscribes, and a burst of updates before its next receive. -/
def burstRun (op : StoreOp) (n : Nat) : List Action :=
  [.fetch, .send true, .subscribe] ++ burst op n ++ [.receive]

theorem burst_healthy (op : StoreOp) (n : Nat) : Healthy (burstRun op n) := by
  have hburst : ∀ n, .client .close ∉ burst op n ∧ .send false ∉ burst op n := by
    intro n
    induction n with
    | zero => exact ⟨List.not_mem_nil, List.not_mem_nil⟩
    | succ n ih => simp [burst, ih]
  exact ⟨by simp [burstRun, hburst n], by simp [burstRun, hburst n]⟩

/-- A handler that subscribes and receives one notification. -/
theorem stays_one : ∃ w, Run Step (World.start ⟨10, []⟩) (burstRun .clear 1) w
    ∧ KeepsUp (burstRun .clear 1) := by
  have hrun : Run Step (World.start ⟨10, []⟩) (burstRun .clear 1)
      ⟨⟨10, []⟩, 1, [], .notified, 0, some []⟩ := follow_run rfl
  exact ⟨_, hrun, (stays_iff (burst_healthy .clear 1) hrun).mp (fun h => nomatch h)⟩

/-- Seventeen updates between two receives cut off a client that stays. -/
theorem burst_closes : ¬ ∀ (store : MemoryStore) (w : World) (l : List Action),
    Healthy l → Run Step (World.start store) l w → w.handler ≠ .closed := by
  intro h
  have hrun : Run Step (World.start ⟨1, []⟩) (burstRun (.push sampleRecord) 17)
      ⟨⟨1, [sampleRecord]⟩, 17, [], .closed, 17, some []⟩ := follow_run rfl
  exact h _ _ _ (burst_healthy _ 17) hrun rfl

end WebsocketLag
