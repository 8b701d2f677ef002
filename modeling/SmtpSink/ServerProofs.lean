import SmtpSink.EnvelopeProofs
import SmtpSink.RetentionProofs

/-! # The server — many connections, one store

    Every accepted connection has a task of its own, which calls
    `process_command` over and over; the tasks and the HTTP handlers share the
    store, one operation at a time.  A call is several steps, between which
    anybody else may run: it takes its command, pushes what it received,
    notifies, and answers.

    A task sees nothing of the others, so its part of a run is a run of the
    task alone (`task_run`), and what it says and hands to the store is decided
    by its own input (`own_leads`).  `no_interference` puts the results
    together. -/

namespace SmtpServer

open Utf8 SmtpReader SmtpRecord SmtpSession SmtpTurn SmtpConnection EmailStore Runs

/-! ## What the clock and the ids do not decide -/

/-- The text an event writes. -/
def written? : Event → Option Text
  | .write text => some text
  | .read _ | .body _ | .forward _ | .push _ => none

/-- The replies of a move. -/
def replies (m : Move) : List Text := m.events.filterMap written?

/-- The bytes of the messages some events store. -/
def stored (events : List Event) : List Bytes :=
  (events.filterMap pushedRecord?).map MailRecord.raw

/-- The reactions differ at most in what a record draws from the clock and the
    generator of ids. -/
structure Alike (r r' : Reaction) : Prop where
  session : r.session = r'.session
  result : r.result = r'.result
  rest : r.rest = r'.rest
  replies : r.events.filterMap written? = r'.events.filterMap written?
  stored : stored r.events = stored r'.events

section

variable (env : Env) (cfg : SmtpConfig) (stamp stamp' : Stamp)

theorem Alike.refl (r : Reaction) : Alike r r := ⟨rfl, rfl, rfl, rfl, rfl⟩

theorem written_deliver (record : MailRecord) :
    (deliver cfg record).filterMap written? = [] := by
  rw [deliver]
  cases cfg.forwardHandle <;> rfl

theorem stored_deliver (record : MailRecord) :
    stored (deliver cfg record) = [record.raw] := by
  rw [deliver]
  cases cfg.forwardHandle <;> rfl

theorem stored_append (l l' : List Event) : stored (l ++ l') = stored l ++ stored l' := by
  rw [stored, List.filterMap_append, List.map_append]
  rfl

theorem data_alike (rest : Bytes) (s : Session) :
    Alike (data env cfg stamp rest s) (data env cfg stamp' rest s) := by
  rw [data, data]
  split_ifs with h1 h2 h3
  · exact Alike.refl _
  · exact Alike.refl _
  · exact Alike.refl _
  · cases readData rest with
    | error e => exact Alike.refl _
    | ok q =>
        refine ⟨rfl, rfl, rfl, ?_, ?_⟩
        · simp only [List.filterMap_append, written_deliver]
        · simp only [stored_append, stored_deliver, raw_parseEmail]

/-- Only a DATA that is carried out makes a record. -/
theorem interpret_alike (line : Text) (rest : Bytes) (s : Session) :
    Alike (interpret env cfg stamp line rest s) (interpret env cfg stamp' line rest s) := by
  rw [interpret, interpret]
  cases s.authState with
  | waitingForPlain | waitingForLoginUsername | waitingForLoginPassword => exact Alike.refl _
  | none =>
      dsimp only
      generalize dispatch (Unicode.toUppercase (Unicode.trim line)) = v
      cases v with
      | data => exact data_alike env cfg stamp stamp' rest s
      | ehlo | starttls | auth | mailFrom | rcptTo | rset | noop | quit | unknown =>
          exact Alike.refl _

theorem processCommand_alike (s : Session) (input : Bytes) :
    Alike (processCommand env cfg stamp s input) (processCommand env cfg stamp' s input) := by
  rw [processCommand, processCommand]
  cases readLine input with
  | error e => exact Alike.refl _
  | ok q =>
      obtain ⟨line, rest⟩ := q
      dsimp only
      rw [processLine, processLine]
      by_cases hline : line = []
      · rw [if_pos hline, if_pos hline]
        exact Alike.refl _
      · rw [if_neg hline, if_neg hline]
        have h := interpret_alike env cfg stamp stamp' line rest s
        exact ⟨h.session, h.result, h.rest, h.replies, h.stored⟩

end

section

variable {env : Env} {cfg : SmtpConfig} {handshake : Option Bytes} {c c' d : Conn}
  {m n : Move}

theorem handed_eq (m : Move) :
    m.handed = (stored m.events).map (fun bytes => (m.before.session.envelope, bytes)) := by
  rw [Move.handed, stored, List.map_map]
  rfl

/-- **A connection's moves are determined**, up to the clock and the ids. -/
theorem own_determined (h : OwnStep env cfg handshake c m c')
    (h' : OwnStep env cfg handshake c n d) :
    replies m = replies n ∧ m.handed = n.handed ∧ c' = d := by
  obtain ⟨hb, -, stamp, hs⟩ := h
  obtain ⟨hb', -, stamp', hs'⟩ := h'
  rw [handed_eq, handed_eq, hb, hb', replies, replies]
  have halike := processCommand_alike env cfg stamp stamp' c.session c.input
  -- away from the two loops the clock is not read at all
  have hsame : connStep env cfg handshake stamp c = connStep env cfg handshake stamp' c →
      m.events.filterMap written? = n.events.filterMap written?
      ∧ (stored m.events).map (fun bytes => (c.session.envelope, bytes))
        = (stored n.events).map (fun bytes => (c.session.envelope, bytes)) ∧ c' = d := by
    intro heq
    obtain ⟨hev, hend⟩ := Prod.mk.inj (Option.some.inj (hs.symm.trans (heq.trans hs')))
    exact ⟨by rw [hev], by rw [hev], hend⟩
  cases hp : c.phase with
  | fresh => exact hsame (by simp only [connStep, hp])
  | upgrading => exact hsame (by simp only [connStep, hp])
  | tlsFresh => exact hsame (by simp only [connStep, hp])
  | closed => exact hsame (by simp only [connStep, hp])
  | plain =>
      simp only [connStep, hp, Option.some.injEq, Prod.mk.injEq] at hs hs'
      obtain ⟨hev, hend⟩ := hs
      obtain ⟨hev', hend'⟩ := hs'
      rw [← hev, ← hev', ← hend, ← hend', halike.session, halike.result, halike.rest,
        halike.replies, halike.stored]
      exact ⟨rfl, rfl, rfl⟩
  | tls =>
      simp only [connStep, hp, Option.some.injEq, Prod.mk.injEq] at hs hs'
      obtain ⟨hev, hend⟩ := hs
      obtain ⟨hev', hend'⟩ := hs'
      rw [← hev, ← hev', ← hend, ← hend', halike.session, halike.result, halike.rest,
        List.filterMap_append, List.filterMap_append, stored_append, stored_append,
        halike.replies, halike.stored]
      exact ⟨rfl, rfl, rfl⟩

/-- **What a connection says and stores is decided by its own input.** -/
theorem own_leads {k l : List Move}
    (hl : Run (OwnStep env cfg handshake) c l c') (hk : Run (OwnStep env cfg handshake) c k d)
    (hlen : k.length = l.length) :
    k.flatMap replies = l.flatMap replies
      ∧ k.flatMap Move.handed = l.flatMap Move.handed ∧ d = c' := by
  have hdet : ∀ s a t b u, OwnStep env cfg handshake s a t → OwnStep env cfg handshake s b u →
      replies a = replies b ∧ a.handed = b.handed ∧ t = u :=
    fun _ _ _ _ _ ha hb => own_determined ha hb
  have hreplies : Leads (OwnStep env cfg handshake) replies c l.length (l.flatMap replies) c' :=
    hl.leads (fun s a t b u ha hb => ⟨(hdet s a t b u ha hb).1, (hdet s a t b u ha hb).2.2⟩)
  have hhanded : Leads (OwnStep env cfg handshake) Move.handed c l.length
      (l.flatMap Move.handed) c' :=
    hl.leads (fun s a t b u ha hb => ⟨(hdet s a t b u ha hb).2.1, (hdet s a t b u ha hb).2.2⟩)
  obtain ⟨hr, hd⟩ := hreplies.2 k d hk hlen
  exact ⟨hr, (hhanded.2 k d hk hlen).1, hd⟩

end

/-! ## Tasks -/

/-- A call of `process_command` under way: what it does, what it has yet to
    push, and whether a push has yet to notify. -/
structure Call where
  move : Move
  unpushed : List MailRecord
  notifying : Bool

/-- The task of a connection, between two calls or in one. -/
structure Task where
  conn : Conn
  call : Option Call

/-- The steps of a task. -/
inductive TaskLabel where
  /-- `listener.accept`, and the task is spawned -/
  | accept
  /-- a call takes what the client sent -/
  | command (m : Move)
  /-- `store.push`, under the lock of the store -/
  | push (record : MailRecord)
  /-- `notify.send` behind it -/
  | notify
  /-- the call answers and returns -/
  | answer (m : Move)

/-- The connections clients open, with what their TLS handshakes would give. -/
structure Setup (ι : Type) where
  env : Env
  cfg : SmtpConfig
  start : ι → Conn
  handshake : ι → Option Bytes

/-- The moves of one connection. -/
def Setup.Own {ι : Type} (sys : Setup ι) (i : ι) : Conn → Move → Conn → Prop :=
  OwnStep sys.env sys.cfg (sys.handshake i)

/-- What a task can do next; `none` before the connection is accepted. -/
inductive TaskStep {ι : Type} (sys : Setup ι) (i : ι) :
    Option Task → TaskLabel → Option Task → Prop where
  | accept : TaskStep sys i none .accept (some ⟨sys.start i, none⟩)
  | command (c c' : Conn) (m : Move) : sys.Own i c m c' →
      TaskStep sys i (some ⟨c, none⟩) (.command m) (some ⟨c, some ⟨m, m.pushed, false⟩⟩)
  | push (c : Conn) (m : Move) (record : MailRecord) (more : List MailRecord) :
      TaskStep sys i (some ⟨c, some ⟨m, record :: more, false⟩⟩) (.push record)
        (some ⟨c, some ⟨m, more, true⟩⟩)
  | notify (c : Conn) (m : Move) (more : List MailRecord) :
      TaskStep sys i (some ⟨c, some ⟨m, more, true⟩⟩) .notify
        (some ⟨c, some ⟨m, more, false⟩⟩)
  | answer (c : Conn) (m : Move) :
      TaskStep sys i (some ⟨c, some ⟨m, [], false⟩⟩) (.answer m) (some ⟨m.after, none⟩)

/-- What the call under way has yet to push. -/
def Task.unpushed (t : Task) : List MailRecord := (t.call.map Call.unpushed).getD []

/-- The move of the call under way. -/
def Task.underway (t : Task) : List Move := (t.call.map Call.move).toList

/-- The connection once the call under way has returned. -/
def Task.next (t : Task) : Conn := (t.call.map (fun call => call.move.after)).getD t.conn

def TaskLabel.command? : TaskLabel → Option Move
  | .command m => some m
  | .accept | .push _ | .notify | .answer _ => none

def TaskLabel.answer? : TaskLabel → Option Move
  | .answer m => some m
  | .accept | .command _ | .push _ | .notify => none

def TaskLabel.push? : TaskLabel → Option MailRecord
  | .push record => some record
  | .accept | .command _ | .notify | .answer _ => none

/-- The moves a task has begun, in order. -/
def commands (k : List TaskLabel) : List Move := k.filterMap TaskLabel.command?

/-- The moves a task has answered, in order. -/
def answers (k : List TaskLabel) : List Move := k.filterMap TaskLabel.answer?

/-- The records a task has pushed, in order. -/
def pushes (k : List TaskLabel) : List MailRecord := k.filterMap TaskLabel.push?

/-- What the steps of a task say about it: its moves are a run of its connection
    alone, all of them answered but the one under way, and all their records
    pushed but those the call has yet to push. -/
structure TaskHistory {ι : Type} (sys : Setup ι) (i : ι) (k : List TaskLabel) (t : Task) :
    Prop where
  run : Run (sys.Own i) (sys.start i) (commands k) t.next
  answered : commands k = answers k ++ t.underway
  pushed : ∃ done, pushes k = (answers k).flatMap Move.pushed ++ done
    ∧ done ++ t.unpushed = t.underway.flatMap Move.pushed

section

variable {ι : Type} {sys : Setup ι} {i : ι} {k : List TaskLabel} {t : Task}

theorem commands_snoc (k : List TaskLabel) (a : TaskLabel) :
    commands (k ++ [a]) = commands k ++ a.command?.toList := by
  rw [commands, List.filterMap_append]
  cases a <;> rfl

theorem answers_snoc (k : List TaskLabel) (a : TaskLabel) :
    answers (k ++ [a]) = answers k ++ a.answer?.toList := by
  rw [answers, List.filterMap_append]
  cases a <;> rfl

theorem pushes_snoc (k : List TaskLabel) (a : TaskLabel) :
    pushes (k ++ [a]) = pushes k ++ a.push?.toList := by
  rw [pushes, List.filterMap_append]
  cases a <;> rfl

/-- **What a step of a task preserves.** -/
theorem TaskHistory.step {a : TaskLabel} {t' : Option Task} (hI : TaskHistory sys i k t)
    (h : TaskStep sys i (some t) a t') :
    ∃ u, t' = some u ∧ TaskHistory sys i (k ++ [a]) u := by
  obtain ⟨hrun, hanswered, done, hpushes, hdone⟩ := hI
  cases h with
  | command c c' m hown =>
      have hafter : m.after = c' := hown.2.1
      refine ⟨_, rfl, ?_, ?_, [], ?_, ?_⟩
      · rw [commands_snoc]
        show Run (sys.Own i) (sys.start i) (commands k ++ [m]) m.after
        rw [hafter]
        exact hrun.snoc hown
      · rw [commands_snoc, answers_snoc, hanswered]
        simp [Task.underway, TaskLabel.command?, TaskLabel.answer?]
      · have hnone : done = [] := (List.append_eq_nil_iff.mp hdone).1
        rw [pushes_snoc, answers_snoc, hpushes, hnone]
        simp [TaskLabel.push?, TaskLabel.answer?]
      · exact (List.append_nil _).symm
  | push c m record more =>
      refine ⟨_, rfl, ?_, ?_, done ++ [record], ?_, ?_⟩
      · rw [commands_snoc]
        exact hrun.append Run.nil
      · rw [commands_snoc, answers_snoc, hanswered]
        simp [Task.underway, TaskLabel.command?, TaskLabel.answer?]
      · rw [pushes_snoc, answers_snoc, hpushes]
        simp [TaskLabel.push?, TaskLabel.answer?]
      · rw [List.append_assoc]
        exact hdone
  | notify c m more =>
      refine ⟨_, rfl, ?_, ?_, done, ?_, hdone⟩
      · rw [commands_snoc]
        exact hrun.append Run.nil
      · rw [commands_snoc, answers_snoc, hanswered]
        simp [Task.underway, TaskLabel.command?, TaskLabel.answer?]
      · rw [pushes_snoc, answers_snoc, hpushes]
        simp [TaskLabel.push?, TaskLabel.answer?]
  | answer c m =>
      refine ⟨_, rfl, ?_, ?_, [], ?_, rfl⟩
      · rw [commands_snoc]
        exact hrun.append Run.nil
      · rw [commands_snoc, answers_snoc, hanswered]
        simp [Task.underway, TaskLabel.command?, TaskLabel.answer?]
      · have hall : done = m.pushed := by
          have := hdone
          simpa [Task.unpushed, Task.underway] using this
        rw [pushes_snoc, answers_snoc, hpushes, hall]
        simp [TaskLabel.push?, TaskLabel.answer?]

/-- **The history of a task**, from before its connection is accepted. -/
theorem TaskHistory.run_history {t? : Option Task}
    (h : Run (TaskStep sys i) none k t?) :
    (t? = none ∧ k = []) ∨ ∃ t, t? = some t ∧ TaskHistory sys i k t := by
  refine h.history_rule (I := fun k t? => (t? = none ∧ k = [])
    ∨ ∃ t, t? = some t ∧ TaskHistory sys i k t) (Or.inl ⟨rfl, rfl⟩) ?_
  rintro k t? a u (⟨rfl, rfl⟩ | ⟨t, rfl, hI⟩) hstep
  · cases hstep with
    | accept => exact Or.inr ⟨_, rfl, Run.nil, rfl, [], rfl, rfl⟩
  · exact Or.inr (hI.step hstep)

end

/-! ## The server -/

/-- The requests of HTTP clients that use the store. -/
inductive Request where
  | getAll
  | query (q : EmailQuery)
  | remove (id : Text)
  | clear

/-- What a request changes. -/
def Request.op? : Request → Option StoreOp
  | .getAll | .query _ => none
  | .remove id => some (.remove id)
  | .clear => some .clear

/-- How far `RunningServers::stop` has come. -/
inductive Stage where
  | running
  | sent
  | smtpEnded
  | httpEnded
  | closed
  deriving DecidableEq

/-- The accept loop, the HTTP server, and `stop`. -/
structure Control where
  listening : Bool
  serving : Bool
  stage : Stage

inductive ControlLabel where
  /-- `shutdown_tx.send` -/
  | shutdown
  /-- the accept loop receives it and ends -/
  | acceptEnds
  /-- the HTTP server receives it and ends -/
  | httpEnds
  /-- `smtp_handle.await` -/
  | awaitSmtp
  /-- `http_handle.await` -/
  | awaitHttp
  /-- `store.close` -/
  | close
  deriving DecidableEq

inductive ControlStep : Control → ControlLabel → Control → Prop where
  | shutdown (listening serving : Bool) :
      ControlStep ⟨listening, serving, .running⟩ .shutdown ⟨listening, serving, .sent⟩
  | acceptEnds (listening serving : Bool) (stage : Stage) : stage ≠ .running →
      ControlStep ⟨listening, serving, stage⟩ .acceptEnds ⟨false, serving, stage⟩
  | httpEnds (listening serving : Bool) (stage : Stage) : stage ≠ .running →
      ControlStep ⟨listening, serving, stage⟩ .httpEnds ⟨listening, false, stage⟩
  | awaitSmtp (serving : Bool) :
      ControlStep ⟨false, serving, .sent⟩ .awaitSmtp ⟨false, serving, .smtpEnded⟩
  | awaitHttp (listening : Bool) :
      ControlStep ⟨listening, false, .smtpEnded⟩ .awaitHttp ⟨listening, false, .httpEnded⟩
  | close (listening serving : Bool) :
      ControlStep ⟨listening, serving, .httpEnded⟩ .close ⟨listening, serving, .closed⟩

/-- The store, the task of each connection, and the rest of the server. -/
structure Server (ι σ : Type) where
  store : σ
  tasks : ι → Option Task
  control : Control

/-- A server that has just started. -/
def Server.start {ι σ : Type} (store : σ) : Server ι σ :=
  ⟨store, fun _ => none, ⟨true, true, .running⟩⟩

inductive Label (ι : Type) where
  | task (i : ι) (a : TaskLabel)
  | request (r : Request)
  | control (b : ControlLabel)

/-- What a step does to the store while it holds the lock. -/
def Label.op? {ι : Type} : Label ι → Option StoreOp
  | .task _ (.push record) => some (.push record)
  | .request r => r.op?
  | .task _ .accept | .task _ (.command _) | .task _ .notify | .task _ (.answer _)
  | .control _ => none

/-- The store after a step; `apply` is what an operation makes of it. -/
def perform {σ : Type} (apply : σ → StoreOp → σ) (store : σ) : Option StoreOp → σ
  | none => store
  | some op => apply store op

/-- The steps of the server: one step of one task, one request, or one step of
    `stop` and what it waits for. -/
inductive ServerStep {ι σ : Type} [DecidableEq ι] (sys : Setup ι) (apply : σ → StoreOp → σ)
    (s : Server ι σ) : Label ι → Server ι σ → Prop where
  | task (i : ι) (a : TaskLabel) (t : Option Task) : TaskStep sys i (s.tasks i) a t →
      (a = .accept → s.control.listening = true) →
      ServerStep sys apply s (.task i a)
        { s with store := perform apply s.store (Label.task i a).op?
                 tasks := Function.update s.tasks i t }
  | request (r : Request) : s.control.serving = true →
      ServerStep sys apply s (.request r) { s with store := perform apply s.store r.op? }
  | control (b : ControlLabel) (control : Control) : ControlStep s.control b control →
      ServerStep sys apply s (.control b) { s with control := control }

/-- The step of a task. -/
def Label.own? {ι : Type} [DecidableEq ι] (i : ι) : Label ι → Option TaskLabel
  | .task j a => if j = i then some a else none
  | .request _ | .control _ => none

/-- The steps of one task, in order. -/
def own {ι : Type} [DecidableEq ι] (i : ι) (l : List (Label ι)) : List TaskLabel :=
  l.filterMap (Label.own? i)

/-- The operations on the store, in the order in which they held the lock. -/
def ops {ι : Type} (l : List (Label ι)) : List StoreOp := l.filterMap Label.op?

section

variable {ι σ : Type} [DecidableEq ι] {sys : Setup ι} {apply : σ → StoreOp → σ}
  {s s' : Server ι σ} {l : List (Label ι)} {i : ι}

/-- **A task's part of a run is a run of the task alone.** -/
theorem task_run (h : Run (ServerStep sys apply) s l s') (i : ι) :
    Run (TaskStep sys i) (s.tasks i) (own i l) (s'.tasks i) := by
  refine h.project (fun s => s.tasks i) (fun s a t b hstep ha => ?_)
    (fun s a t hstep ha => ?_)
  · cases hstep with
    | task j a' u htask =>
        by_cases hj : j = i
        · subst hj
          rw [Label.own?, if_pos rfl] at ha
          obtain rfl := Option.some.inj ha
          dsimp only
          rwa [Function.update_self]
        · rw [Label.own?, if_neg hj] at ha
          exact nomatch ha
    | request r => exact nomatch ha
    | control b c => exact nomatch ha
  · cases hstep with
    | task j a' u htask =>
        by_cases hj : j = i
        · rw [Label.own?, if_pos hj] at ha
          exact nomatch ha
        · exact Function.update_of_ne (fun h => hj h.symm) u s.tasks
    | request r => rfl
    | control b c => rfl

/-- **The store is what the operations make of it**, in the order of the lock. -/
theorem store_replays (h : Run (ServerStep sys apply) s l s') :
    s'.store = (ops l).foldl apply s.store := by
  induction h with
  | nil => rfl
  | @snoc l t u a _ hstep ih =>
      have hop : u.store = perform apply t.store a.op? := by
        cases hstep with
        | task i a t' => rfl
        | request r => rfl
        | control b c => rfl
      rw [hop, ih, ops, ops, List.filterMap_append, List.foldl_append]
      cases ha : a.op? with
      | none =>
          rw [List.filterMap_cons_none ha]
          rfl
      | some op =>
          rw [List.filterMap_cons_some ha]
          rfl

end

/-- The push of a task, with the task. -/
def Label.push? {ι : Type} : Label ι → Option (ι × MailRecord)
  | .task i (.push record) => some (i, record)
  | .task _ .accept | .task _ (.command _) | .task _ .notify | .task _ (.answer _)
  | .request _ | .control _ => none

/-- The pushes of all tasks, in the order in which they held the lock. -/
def allPushes {ι : Type} (l : List (Label ι)) : List (ι × MailRecord) :=
  l.filterMap Label.push?

theorem allPushes_append {ι : Type} (l l' : List (Label ι)) :
    allPushes (l ++ l') = allPushes l ++ allPushes l' :=
  List.filterMap_append

/-- The pushes among the operations are those of the tasks. -/
theorem pushed_ops {ι : Type} (l : List (Label ι)) :
    Retention.pushed (ops l) = (allPushes l).map Prod.snd := by
  rw [Retention.pushed, ops, allPushes, List.filterMap_filterMap, List.map_filterMap]
  refine List.filterMap_congr (fun a _ => ?_)
  cases a with
  | task i b => cases b <;> rfl
  | request r => cases r <;> rfl
  | control b => rfl

/-- The pushes of one task among those of all. -/
theorem pushes_own {ι : Type} [DecidableEq ι] (i : ι) (l : List (Label ι)) :
    pushes (own i l) = ((allPushes l).filter (fun p => p.1 = i)).map Prod.snd := by
  rw [pushes, own, allPushes, List.filterMap_filterMap, List.filter_filterMap,
    List.map_filterMap]
  refine List.filterMap_congr (fun a _ => ?_)
  cases a with
  | task j b =>
      by_cases hj : j = i
      · cases b <;> simp [Label.own?, Label.push?, TaskLabel.push?, Option.filter, hj]
      · cases b <;> simp [Label.own?, Label.push?, Option.filter, hj]
  | request r => rfl
  | control b => rfl

/-! ## Runs with given moves -/

section

variable {ι : Type} {sys : Setup ι} {i : ι} {c c' : Conn} {k : List TaskLabel} {t : Task}
  {t? : Option Task}

theorem pushes_append (k k' : List TaskLabel) : pushes (k ++ k') = pushes k ++ pushes k' :=
  List.filterMap_append

theorem commands_append (k k' : List TaskLabel) :
    commands (k ++ k') = commands k ++ commands k' :=
  List.filterMap_append

/-- A call under way can be carried to its end. -/
theorem call_returns (sys : Setup ι) (i : ι) (c : Conn) (m : Move)
    (records : List MailRecord) (notifying : Bool) :
    ∃ k, Run (TaskStep sys i) (some ⟨c, some ⟨m, records, notifying⟩⟩) k (some ⟨m.after, none⟩)
      ∧ pushes k = records ∧ commands k = [] := by
  induction records generalizing notifying with
  | nil =>
      have hanswer : Run (TaskStep sys i) (some ⟨c, some ⟨m, [], false⟩⟩) [.answer m]
          (some ⟨m.after, none⟩) := Run.single (TaskStep.answer c m)
      cases notifying with
      | false => exact ⟨_, hanswer, rfl, rfl⟩
      | true => exact ⟨_, Run.cons (TaskStep.notify c m []) hanswer, rfl, rfl⟩
  | cons record records ih =>
      obtain ⟨k, hk, hpushes, hcommands⟩ := ih true
      have hpush : Run (TaskStep sys i) (some ⟨c, some ⟨m, record :: records, false⟩⟩)
          (.push record :: k) (some ⟨m.after, none⟩) :=
        Run.cons (TaskStep.push c m record records) hk
      have hrecords : pushes (.push record :: k) = record :: records :=
        congrArg (record :: ·) hpushes
      cases notifying with
      | false => exact ⟨_, hpush, hrecords, hcommands⟩
      | true => exact ⟨_, Run.cons (TaskStep.notify c m _) hpush, hrecords, hcommands⟩

/-- The moves of a connection alone are those of a run of its task. -/
theorem task_of_own {l : List Move} (h : Run (sys.Own i) c l c') :
    ∃ k, Run (TaskStep sys i) (some ⟨c, none⟩) k (some ⟨c', none⟩)
      ∧ pushes k = l.flatMap Move.pushed ∧ commands k = l := by
  induction h with
  | nil => exact ⟨[], Run.nil, rfl, rfl⟩
  | @snoc l d d' m _ hstep ih =>
      obtain ⟨k, hk, hpushes, hcommands⟩ := ih
      obtain ⟨k', hk', hpushes', hcommands'⟩ := call_returns sys i d m m.pushed false
      rw [hstep.2.1] at hk'
      refine ⟨k ++ .command m :: k', hk.append (Run.cons (TaskStep.command d d' m hstep) hk'),
        ?_, ?_⟩
      · rw [pushes_append, hpushes, List.flatMap_append, List.flatMap_singleton]
        exact congrArg (_ ++ ·) hpushes'
      · rw [commands_append, hcommands]
        exact congrArg (l ++ m :: ·) hcommands'

/-- A task that is there stays. -/
theorem task_stays (h : Run (TaskStep sys i) (some t) k t?) : ∃ u, t? = some u := by
  induction h with
  | nil => exact ⟨t, rfl⟩
  | snoc _ hstep ih =>
      obtain ⟨u, rfl⟩ := ih
      cases hstep with
      | command | push | notify | answer => exact ⟨_, rfl⟩

/-- A run of one task is a run of the server in which nobody else moves. -/
theorem server_of_task {σ : Type} [DecidableEq ι] {apply : σ → StoreOp → σ} {s : Server ι σ}
    (hs : s.tasks i = some t) (h : Run (TaskStep sys i) (some t) k t?) :
    ∃ s', Run (ServerStep sys apply) s (k.map (Label.task i)) s'
      ∧ s'.tasks = Function.update s.tasks i t? ∧ s'.control = s.control := by
  induction h with
  | nil => exact ⟨s, Run.nil, by rw [← hs, Function.update_eq_self], rfl⟩
  | @snoc k u? v? a hrun hstep ih =>
      obtain ⟨s', hs', htasks, hcontrol⟩ := ih
      obtain ⟨u, rfl⟩ := task_stays hrun
      have hi : s'.tasks i = some u := by rw [htasks, Function.update_self]
      rw [← hi] at hstep
      have hlisten : a = .accept → s'.control.listening = true := by
        rintro rfl
        rw [hi] at hstep
        exact nomatch hstep
      refine ⟨{ s' with store := perform apply s'.store (Label.task i a).op?
                        tasks := Function.update s'.tasks i v? }, ?_, ?_, hcontrol⟩
      · rw [List.map_append]
        exact hs'.snoc (ServerStep.task i a v? hstep hlisten)
      · dsimp only
        rw [htasks, Function.update_idem]

theorem own_map [DecidableEq ι] (i : ι) (k : List TaskLabel) :
    own i (k.map (Label.task i)) = k := by
  have hown : Label.own? i ∘ Label.task i = some := funext (fun a => if_pos rfl)
  rw [own, List.filterMap_map, hown, List.filterMap_some]

theorem allPushes_map (i : ι) (k : List TaskLabel) :
    allPushes (k.map (Label.task i)) = (pushes k).map (i, ·) := by
  rw [allPushes, List.filterMap_map, pushes, List.map_filterMap]
  refine List.filterMap_congr (fun a _ => ?_)
  cases a <;> rfl

end

/-! ## Sessions do not interfere -/

/-- What a task has yet to push; nothing where there is no task. -/
def unpushed {ι σ : Type} (s : Server ι σ) (i : ι) : List MailRecord :=
  ((s.tasks i).map Task.unpushed).getD []

/-- **Sessions do not interfere.**  In every run of the server over a memory
    store, whatever the interleaving: the moves of each connection are a run of it
    alone, and every run of it alone of that length has the same replies and
    hands the same envelopes and messages to the store; the store is the replay
    of the operations in the order in which they held the lock; and the pushes
    among them are those of the connections, each once and in the connection's own
    order, but for those its call under way has yet to make. -/
theorem no_interference {ι : Type} [DecidableEq ι] (sys : Setup ι) (store : MemoryStore)
    {l : List (Label ι)} {s : Server ι MemoryStore}
    (hrun : Run (ServerStep sys StoreOp.apply) (Server.start store) l s) :
    (∀ i, (∃ c, Run (sys.Own i) (sys.start i) (commands (own i l)) c)
      ∧ ∀ k c, Run (sys.Own i) (sys.start i) k c →
        k.length = (commands (own i l)).length →
        k.flatMap replies = (commands (own i l)).flatMap replies
          ∧ k.flatMap Move.handed = (commands (own i l)).flatMap Move.handed)
    ∧ s.store = (ops l).foldl StoreOp.apply store
    ∧ Retention.pushed (ops l) = (allPushes l).map Prod.snd
    ∧ ∀ i, ((allPushes l).filter (fun p => p.1 = i)).map Prod.snd ++ unpushed s i
      = (commands (own i l)).flatMap Move.pushed := by
  refine ⟨fun i => ?_, store_replays hrun, pushed_ops l, fun i => ?_⟩
  · have hex : ∃ c, Run (sys.Own i) (sys.start i) (commands (own i l)) c := by
      rcases TaskHistory.run_history (task_run hrun i) with ⟨-, hk⟩ | ⟨t, -, hI⟩
      · rw [hk]
        exact ⟨_, Run.nil⟩
      · exact ⟨_, hI.run⟩
    obtain ⟨c, hc⟩ := hex
    refine ⟨⟨c, hc⟩, fun k d hk hlen => ?_⟩
    obtain ⟨hreplies, hhanded, -⟩ := own_leads hc hk hlen
    exact ⟨hreplies, hhanded⟩
  · rw [← pushes_own]
    rcases TaskHistory.run_history (task_run hrun i) with ⟨hnone, hk⟩ | ⟨t, ht, hI⟩
    · rw [hk, unpushed, hnone]
      rfl
    · obtain ⟨done, hpushes, hdone⟩ := hI.pushed
      rw [hI.answered, List.flatMap_append, ← hdone, hpushes, unpushed, ht]
      exact List.append_assoc _ _ _

/-- Two clients that send the same message. -/
def twoClients : Setup Bool where
  env := sampleEnv
  cfg := SmtpEnvelope.openConfig
  start := fun _ => Conn.start SmtpEnvelope.openConfig SmtpEnvelope.oneSender
  handshake := fun _ => none

/-- Both are accepted, and one of them sends its message. -/
theorem twoClients_run : ∃ l s,
    Run (ServerStep twoClients StoreOp.apply) (Server.start (MemoryStore.new 10)) l s
      ∧ commands (own true l)
        = (sampleRun SmtpEnvelope.openConfig none 4 SmtpEnvelope.oneSender).1 := by
  obtain ⟨s₀, hfirst, htask⟩ : ∃ s₀, Run (ServerStep twoClients StoreOp.apply)
      (Server.start (MemoryStore.new 10)) [.task true .accept, .task false .accept] s₀
        ∧ s₀.tasks true = some ⟨twoClients.start true, none⟩ :=
    ⟨_, (Run.single (ServerStep.task true .accept _ TaskStep.accept (fun _ => rfl))).snoc
      (ServerStep.task false .accept _ TaskStep.accept (fun _ => rfl)), rfl⟩
  have hown : Run (twoClients.Own true) (twoClients.start true)
      (sampleRun SmtpEnvelope.openConfig none 4 SmtpEnvelope.oneSender).1 _ :=
    moves_own _ _ _ _ _ _
  obtain ⟨k, hk, -, hcommands⟩ := task_of_own hown
  obtain ⟨s, hs, -, -⟩ := server_of_task htask hk
  refine ⟨_, s, hfirst.append hs, ?_⟩
  have hsplit : own true ([.task true .accept, .task false .accept] ++ k.map (Label.task true))
      = [.accept] ++ own true (k.map (Label.task true)) := List.filterMap_append
  rw [hsplit, own_map, commands_append, hcommands]
  rfl

theorem no_interference_two : ∃ l s,
    Run (ServerStep twoClients StoreOp.apply) (Server.start (MemoryStore.new 10)) l s
      ∧ s.store = (ops l).foldl StoreOp.apply (MemoryStore.new 10)
      ∧ ∀ k c, Run (twoClients.Own true) (twoClients.start true) k c → k.length = 4 →
        k.flatMap Move.handed = [(⟨some "a".toList, ["x".toList]⟩, sampleData)] := by
  obtain ⟨l, s, hrun, hcommands⟩ := twoClients_run
  obtain ⟨halone, hstore, -, -⟩ := no_interference twoClients (MemoryStore.new 10) hrun
  refine ⟨l, s, hrun, hstore, fun k c hk hlen => ?_⟩
  have hfour : (sampleRun SmtpEnvelope.openConfig none 4 SmtpEnvelope.oneSender).1.length = 4 :=
    by decide +kernel
  obtain ⟨-, hhanded⟩ := (halone true).2 k c hk (by rw [hcommands, hlen, hfour])
  rw [hhanded, hcommands]
  decide +kernel

end SmtpServer
