import SmtpSink.ServerProofs

/-! # Shutdown — what `stop` waits for

    `RunningServers::stop` tells the accept loop and the HTTP server to end,
    waits for both, and closes the store.  The tasks of the connections are
    neither told nor waited for: a client that is still connected goes on, and
    its mail is acknowledged and pushed to the closed store
    (`pushed_after_close`).

    `quiesced_iff` gives the exact extent: nothing is pushed any more in any
    continuation, and all acknowledged mail was pushed before, if and only if
    every connection has pushed all it ever will (`Spent`) when the store is
    closed.  So it is where every connection's task has ended by then
    (`quiet_of_ended`). -/

namespace SmtpShutdown

open Utf8 SmtpRecord SmtpSession SmtpConnection EmailStore Runs SmtpServer

section

variable {ι σ : Type} {sys : Setup ι} {apply : σ → StoreOp → σ} {i : ι} {t : Task}
  {c c' : Conn}

/-- The task has nothing to push: the call under way has no record left, and what
    the connection has yet to read never comes to a message. -/
structure Spent (sys : Setup ι) (i : ι) (t : Task) : Prop where
  unpushed : t.unpushed = []
  alone : ∀ l c, Run (sys.Own i) t.next l c → ¬ c.HasMessage

/-- A spent task stays spent and pushes nothing. -/
theorem Spent.step {a : TaskLabel} {t' : Option Task} (hI : Spent sys i t)
    (h : TaskStep sys i (some t) a t') : a.push? = none ∧ ∃ u, t' = some u ∧ Spent sys i u := by
  cases h with
  | command c c' m hown =>
      have hnone : m.pushed = [] := hown.step.pushed_eq_nil.mpr (hI.alone [] c Run.nil)
      refine ⟨rfl, _, rfl, hnone, fun l d hrun => ?_⟩
      have hafter : m.after = c' := hown.2.1
      have hnext : Run (sys.Own i) m.after l d := hrun
      rw [hafter] at hnext
      exact hI.alone (m :: l) d (Run.cons hown hnext)
  | push c m record more => exact nomatch hI.unpushed
  | notify c m more => exact ⟨rfl, _, rfl, hI.unpushed, hI.alone⟩
  | answer c m => exact ⟨rfl, _, rfl, rfl, hI.alone⟩

/-- A task can go on as its connection would alone. -/
theorem task_continues {l : List Move} (h : Run (sys.Own i) t.next l c') :
    ∃ k, Run (TaskStep sys i) (some t) k (some ⟨c', none⟩)
      ∧ pushes k = t.unpushed ++ l.flatMap Move.pushed := by
  obtain ⟨c, call⟩ := t
  obtain ⟨k', hk', hpushes', -⟩ := task_of_own h
  cases call with
  | none => exact ⟨k', hk', hpushes'⟩
  | some call =>
      obtain ⟨m, records, notifying⟩ := call
      obtain ⟨k, hk, hpushes, -⟩ := call_returns sys i c m records notifying
      refine ⟨k ++ k', hk.append hk', ?_⟩
      rw [pushes_append, hpushes, hpushes']
      rfl

/-- A task whose connection is closed is spent. -/
theorem spent_closed (sys : Setup ι) (i : ι) {c : Conn} (hc : c.phase = .closed) :
    Spent sys i ⟨c, none⟩ := by
  refine ⟨rfl, fun l d hrun => ?_⟩
  cases l with
  | nil =>
      obtain rfl := hrun.nil_inv
      rintro ⟨hp | hp, -⟩
      · exact nomatch hc.symm.trans hp
      · exact nomatch hc.symm.trans hp
  | cons m l =>
      obtain ⟨e, ⟨-, -, stamp, hstep⟩, -⟩ := hrun.cons_inv
      have hnone : connStep sys.env sys.cfg (sys.handshake i) stamp c = none := by
        simp only [connStep, hc]
      cases hnone.symm.trans hstep

/-- Once the accept loop was waited for, it has ended. -/
def Control.Orderly (control : Control) : Prop :=
  control.stage = .running ∨ control.stage = .sent ∨ control.listening = false

theorem close_listening {control control' : Control} (hI : Control.Orderly control)
    (h : ControlStep control .close control') : control'.listening = false := by
  cases h with
  | close listening serving =>
      rcases hI with h | h | h
      · exact nomatch h
      · exact nomatch h
      · exact h

theorem orderly_step {control control' : Control} {b : ControlLabel}
    (hI : Control.Orderly control) (h : ControlStep control b control') :
    Control.Orderly control' := by
  cases h with
  | shutdown => exact Or.inr (Or.inl rfl)
  | acceptEnds => exact Or.inr (Or.inr rfl)
  | httpEnds listening serving stage hstage => exact hI
  | awaitSmtp => exact Or.inr (Or.inr rfl)
  | awaitHttp listening =>
      rcases hI with h | h | h
      · exact nomatch h
      · exact nomatch h
      · exact Or.inr (Or.inr h)
  | close listening serving => exact Or.inr (Or.inr (close_listening hI (.close _ _)))

/-- The accept loop does not come back. -/
theorem listening_step {control control' : Control} {b : ControlLabel}
    (hI : control.listening = false) (h : ControlStep control b control') :
    control'.listening = false := by
  cases h with
  | acceptEnds => rfl
  | shutdown | httpEnds | awaitSmtp | awaitHttp | close => exact hI

end

section

variable {ι σ : Type} [DecidableEq ι] {sys : Setup ι} {apply : σ → StoreOp → σ}
  {s s' : Server ι σ} {pre post l : List (Label ι)} {store : σ}

theorem orderly_run (h : Run (ServerStep sys apply) (Server.start store) l s) :
    Control.Orderly s.control := by
  refine h.history_rule (I := fun _ s => Control.Orderly s.control) (Or.inl rfl) ?_
  intro l s a u hI hstep
  cases hstep with
  | task i a t htask hlisten => exact hI
  | request r => exact hI
  | control b c hc => exact orderly_step hI hc

/-- Nobody is accepted once the store is closed. -/
theorem closed_listening
    (h : Run (ServerStep sys apply) (Server.start store) (pre ++ [.control .close]) s) :
    s.control.listening = false := by
  obtain ⟨u, hrun, hstep⟩ := h.snoc_inv
  cases hstep with
  | control b c hc => exact close_listening (orderly_run hrun) hc

/-- **Spent tasks push nothing**, whatever else happens. -/
theorem spent_run (hlisten : s.control.listening = false)
    (hspent : ∀ i t, s.tasks i = some t → Spent sys i t)
    (h : Run (ServerStep sys apply) s l s') : allPushes l = [] := by
  have hI := h.history_rule (I := fun l s => s.control.listening = false
    ∧ (∀ i t, s.tasks i = some t → Spent sys i t) ∧ allPushes l = [])
    ⟨hlisten, hspent, rfl⟩ ?_
  · exact hI.2.2
  · rintro l s a u ⟨hlisten, hspent, hnone⟩ hstep
    cases hstep with
    | request r hserving =>
        refine ⟨hlisten, hspent, ?_⟩
        rw [allPushes_append, hnone]
        rfl
    | control b c hc =>
        refine ⟨listening_step hlisten hc, hspent, ?_⟩
        rw [allPushes_append, hnone]
        rfl
    | task i a t' htask haccept =>
        obtain ⟨t, ht⟩ : ∃ t, s.tasks i = some t := by
          cases hs : s.tasks i with
          | some t => exact ⟨t, rfl⟩
          | none =>
              rw [hs] at htask
              cases htask with
              | accept => exact absurd (haccept rfl) (by rw [hlisten]; decide)
        rw [ht] at htask
        obtain ⟨hpush, v, rfl, hv⟩ := (hspent i t ht).step htask
        refine ⟨hlisten, fun j w hw => ?_, ?_⟩
        · by_cases hj : j = i
          · subst hj
            dsimp only at hw
            rw [Function.update_self] at hw
            obtain rfl := Option.some.inj hw
            exact hv
          · dsimp only at hw
            rw [Function.update_of_ne hj] at hw
            exact hspent j w hw
        · rw [allPushes_append, hnone]
          cases a with
          | push record => exact nomatch hpush
          | accept | command | notify | answer => rfl

/-- The history of a task that has answered a move. -/
theorem answered_history (h : Run (ServerStep sys apply) (Server.start store) l s) {i : ι}
    {m : Move} (hm : .task i (.answer m) ∈ l) :
    m ∈ answers (own i l) ∧ ∃ t, TaskHistory sys i (own i l) t := by
  have hanswer : m ∈ answers (own i l) :=
    List.mem_filterMap.mpr ⟨.answer m, List.mem_filterMap.mpr ⟨_, hm, if_pos rfl⟩, rfl⟩
  rcases TaskHistory.run_history (task_run h i) with ⟨-, hk⟩ | ⟨t, -, hI⟩
  · rw [hk] at hanswer
    exact absurd hanswer List.not_mem_nil
  · exact ⟨hanswer, t, hI⟩

/-- What was answered was pushed before. -/
theorem answered_pushed (h : Run (ServerStep sys apply) (Server.start store) l s) {i : ι}
    {m : Move} (hm : .task i (.answer m) ∈ l) {record : MailRecord}
    (hrecord : record ∈ m.pushed) : (i, record) ∈ allPushes l := by
  obtain ⟨hanswer, t, hI⟩ := answered_history h hm
  obtain ⟨done, hpushes, -⟩ := hI.pushed
  have hmem : record ∈ pushes (own i l) := by
    rw [hpushes]
    exact List.mem_append_left _ (List.mem_flatMap.mpr ⟨m, hanswer, hrecord⟩)
  rw [pushes_own] at hmem
  obtain ⟨p, hp, rfl⟩ := List.mem_map.mp hmem
  obtain ⟨hp, hpi⟩ := List.mem_filter.mp hp
  rw [← of_decide_eq_true hpi]
  exact hp

/-- An acknowledged mail is one record. -/
theorem acknowledged_one (h : Run (ServerStep sys apply) (Server.start store) l s) {i : ι}
    {m : Move} (hm : .task i (.answer m) ∈ l) (hqueued : m.Says "250 OK: queued") :
    ∃ record, m.pushed = [record] := by
  obtain ⟨hanswer, t, hI⟩ := answered_history h hm
  have hmem : m ∈ commands (own i l) := by
    rw [hI.answered]
    exact List.mem_append_left _ hanswer
  obtain ⟨c, c', hstep⟩ := hI.run.step_of_mem hmem
  obtain ⟨line, rest, bytes, stamp, hd⟩ := hstep.step.delivers hqueued .queued
  exact ⟨_, hd.pushed_eq⟩

/-- Where all connections are spent the store is quiet behind `stop`. -/
theorem quiet_of_spent
    (hrun : Run (ServerStep sys apply) (Server.start store) (pre ++ [.control .close]) s)
    (hspent : ∀ i t, s.tasks i = some t → Spent sys i t)
    (hpost : Run (ServerStep sys apply) s post s') :
    allPushes post = [] ∧ ∀ i m, .task i (.answer m) ∈ pre ++ [.control .close] ++ post →
      m.Says "250 OK: queued" → ∃ record, m.pushed = [record] ∧ (i, record) ∈ allPushes pre := by
  have hquiet := spent_run (closed_listening hrun) hspent hpost
  refine ⟨hquiet, fun i m hm hqueued => ?_⟩
  have hall := hrun.append hpost
  obtain ⟨record, hrecord⟩ := acknowledged_one hall hm hqueued
  have hmem : (i, record) ∈ allPushes (pre ++ [.control .close] ++ post) := by
    refine answered_pushed hall hm ?_
    rw [hrecord]
    exact List.mem_singleton.mpr rfl
  rw [allPushes_append, allPushes_append, hquiet, List.append_nil] at hmem
  exact ⟨record, hrecord, by rwa [← List.append_nil (allPushes pre)]⟩

/-- **So it is where the task of every connection has ended** when the store is
    closed. -/
theorem quiet_of_ended
    (hrun : Run (ServerStep sys apply) (Server.start store) (pre ++ [.control .close]) s)
    (hended : ∀ i t, s.tasks i = some t → t.conn.phase = .closed ∧ t.call = none)
    (hpost : Run (ServerStep sys apply) s post s') :
    allPushes post = [] ∧ ∀ i m, .task i (.answer m) ∈ pre ++ [.control .close] ++ post →
      m.Says "250 OK: queued" → ∃ record, m.pushed = [record] ∧ (i, record) ∈ allPushes pre := by
  refine quiet_of_spent hrun (fun i t ht => ?_) hpost
  obtain ⟨c, call⟩ := t
  obtain ⟨hc, rfl⟩ := hended i _ ht
  exact spent_closed sys i hc

/-- **The store is quiet behind `stop` exactly where all connections are spent.**
    When the store has been closed: in every continuation nothing is pushed any
    more and all acknowledged mail was pushed before, if and only if no connection
    has anything left to push. -/
theorem quiesced_iff
    (hrun : Run (ServerStep sys apply) (Server.start store) (pre ++ [.control .close]) s) :
    (∀ post s', Run (ServerStep sys apply) s post s' → allPushes post = []
      ∧ ∀ i m, .task i (.answer m) ∈ pre ++ [.control .close] ++ post →
        m.Says "250 OK: queued" →
        ∃ record, m.pushed = [record] ∧ (i, record) ∈ allPushes pre)
    ↔ ∀ i t, s.tasks i = some t → Spent sys i t := by
  constructor
  · intro hquiet i t ht
    -- whatever the task could push, the server could push
    have hnone : ∀ l c', Run (sys.Own i) t.next l c' →
        t.unpushed ++ l.flatMap Move.pushed = [] := by
      intro l c' hl
      obtain ⟨k, hk, hpushes⟩ := task_continues hl
      obtain ⟨s', hs', -⟩ : ∃ s', Run (ServerStep sys apply) s (k.map (Label.task i)) s' ∧ _ :=
        server_of_task ht hk
      obtain ⟨hpost, -⟩ := hquiet _ s' hs'
      rw [allPushes_map, hpushes] at hpost
      exact List.map_eq_nil_iff.mp hpost
    refine ⟨(List.append_eq_nil_iff.mp (hnone [] t.next Run.nil)).1, fun l c' hl hmessage => ?_⟩
    -- a message is stored by the next move
    obtain ⟨m, d, hown⟩ := exists_ownStep sys.env sys.cfg (sys.handshake i) hmessage.1
    have hpushed := (List.append_eq_nil_iff.mp (hnone _ d (hl.snoc hown))).2
    rw [List.flatMap_append, List.flatMap_singleton] at hpushed
    exact hown.step.pushed_eq_nil.mp (List.append_eq_nil_iff.mp hpushed).2 hmessage
  · exact fun hspent post s' hpost => quiet_of_spent hrun hspent hpost

/-- What `stop` does and waits for, up to the close. -/
def stopping {ι : Type} : List (Label ι) :=
  [.control .shutdown, .control .acceptEnds, .control .httpEnds, .control .awaitSmtp,
    .control .awaitHttp]

/-- A running server can be stopped without anybody in between. -/
theorem stop_run (hs : s.control = ⟨true, true, .running⟩) :
    Run (ServerStep sys apply) s (stopping ++ [.control .close])
      { s with control := ⟨false, false, .closed⟩ } := by
  obtain ⟨store, tasks, control⟩ := s
  obtain rfl : control = ⟨true, true, .running⟩ := hs
  refine Run.cons (.control _ ⟨true, true, .sent⟩ (.shutdown _ _)) ?_
  refine Run.cons (.control _ ⟨false, true, .sent⟩ (.acceptEnds _ _ _ (by decide))) ?_
  refine Run.cons (.control _ ⟨false, false, .sent⟩ (.httpEnds _ _ _ (by decide))) ?_
  refine Run.cons (.control _ ⟨false, false, .smtpEnded⟩ (.awaitSmtp _)) ?_
  refine Run.cons (.control _ ⟨false, false, .httpEnded⟩ (.awaitHttp _)) ?_
  exact Run.single (.control _ ⟨false, false, .closed⟩ (.close _ _))

end

/-- The server has accepted one client. -/
theorem oneClient_accepted : ∃ s,
    Run (ServerStep twoClients StoreOp.apply) (Server.start (MemoryStore.new 10))
      [.task true .accept] s
    ∧ s.tasks = Function.update (fun _ => none) true (some ⟨twoClients.start true, none⟩)
    ∧ s.control = ⟨true, true, .running⟩ :=
  ⟨_, Run.single (ServerStep.task true .accept _ TaskStep.accept (fun _ => rfl)), rfl, rfl⟩

/-- The moves of that client alone, to the end of its stream. -/
theorem oneClient_alone : ∃ l c, Run (twoClients.Own true) (twoClients.start true) l c
    ∧ l.flatMap Move.pushed ≠ [] ∧ c.phase = .closed := by
  refine ⟨_, _, moves_own _ _ _ sampleStamp 5 _, ?_, by decide +kernel⟩
  have hone : ((moves twoClients.env twoClients.cfg (twoClients.handshake true) sampleStamp 5
      (twoClients.start true)).1.flatMap Move.pushed).length = 1 := by decide +kernel
  intro hnil
  rw [hnil] at hone
  exact nomatch hone

/-- The client is served to its end before the server is stopped. -/
theorem quiesced_served : ∃ pre s,
    Run (ServerStep twoClients StoreOp.apply) (Server.start (MemoryStore.new 10))
      (pre ++ [.control .close]) s
    ∧ allPushes pre ≠ []
    ∧ ∀ post s', Run (ServerStep twoClients StoreOp.apply) s post s' → allPushes post = [] := by
  obtain ⟨s, hs, htasks, hcontrol⟩ := oneClient_accepted
  obtain ⟨l, c, hl, hne, hc⟩ := oneClient_alone
  obtain ⟨k, hk, hpushes, -⟩ := task_of_own hl
  have ht : s.tasks true = some ⟨twoClients.start true, none⟩ := by
    rw [htasks, Function.update_self]
  obtain ⟨u, hu, hutasks, hucontrol⟩ : ∃ u, Run (ServerStep twoClients StoreOp.apply) s
      (k.map (Label.task true)) u ∧ _ ∧ _ := server_of_task ht hk
  have hstop : Run (ServerStep twoClients StoreOp.apply) u (stopping ++ [.control .close])
      { u with control := ⟨false, false, .closed⟩ } := stop_run (hucontrol.trans hcontrol)
  have hrun := (hs.append hu).append hstop
  rw [← List.append_assoc] at hrun
  refine ⟨_, _, hrun, ?_, fun post s' hpost => ((quiesced_iff hrun).mpr ?_ post s' hpost).1⟩
  · rw [allPushes_append, allPushes_append, allPushes_map, hpushes]
    intro hnil
    have hmiddle := (List.append_eq_nil_iff.mp (List.append_eq_nil_iff.mp hnil).1).2
    exact hne (List.map_eq_nil_iff.mp hmiddle)
  · -- the one task there is has come to its end
    intro i t hi
    have hi' : u.tasks i = some t := hi
    rw [hutasks, htasks, Function.update_idem] at hi'
    cases i with
    | true =>
        rw [Function.update_self] at hi'
        obtain rfl := Option.some.inj hi'
        exact spent_closed twoClients true hc
    | false => exact nomatch hi'

/-- The client is accepted, the server is stopped, and then the client sends its
    message: it is pushed to the closed store. -/
theorem pushed_after_close : ¬ ∀ pre s post s',
    Run (ServerStep twoClients StoreOp.apply) (Server.start (MemoryStore.new 10))
      (pre ++ [.control .close]) s →
    Run (ServerStep twoClients StoreOp.apply) s post s' → allPushes post = [] := by
  intro hall
  obtain ⟨s, hs, htasks, hcontrol⟩ := oneClient_accepted
  obtain ⟨l, c, hl, hne, -⟩ := oneClient_alone
  obtain ⟨k, hk, hpushes, -⟩ := task_of_own hl
  have hstop : Run (ServerStep twoClients StoreOp.apply) s (stopping ++ [.control .close])
      { s with control := ⟨false, false, .closed⟩ } := stop_run hcontrol
  have hrun := hs.append hstop
  rw [← List.append_assoc] at hrun
  have ht : s.tasks true = some ⟨twoClients.start true, none⟩ := by
    rw [htasks, Function.update_self]
  obtain ⟨u, hu, -⟩ : ∃ u, Run (ServerStep twoClients StoreOp.apply)
      { s with control := ⟨false, false, .closed⟩ } (k.map (Label.task true)) u ∧ _ :=
    server_of_task ht hk
  have hnone := hall _ _ _ _ hrun hu
  rw [allPushes_map, hpushes] at hnone
  exact hne (List.map_eq_nil_iff.mp hnone)

end SmtpShutdown
