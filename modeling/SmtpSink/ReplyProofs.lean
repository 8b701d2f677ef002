import SmtpSink.ConnectionProofs

/-! # Reply discipline — one reply for each line

    What the client can observe of a connection is its log: the lines and the
    message bodies that were taken from it and everything that was written.  A
    log is `Answers` when it is built from blocks, a line with its complete
    reply, or a line with its reply, a message body and one further reply.

    The log of a run is a greeting followed by such blocks just where no STARTTLS
    handshake succeeds and no line panics (`Orderly`): the TLS loop takes an
    upgraded session, whose envelope was just dropped, for a fresh one and greets
    again, and a panic answers nothing. -/

namespace SmtpReply

open Utf8 Unicode SmtpReader SmtpRecord SmtpSession SmtpTurn Runs SmtpConnection

/-! ## Complete replies -/

/-- The line starts with a code and a separator and does not break. -/
def replyLine (code : Text) (separator : Char) (line : Text) : Bool :=
  (code ++ [separator]).isPrefixOf line && !line.contains '\r' && !line.contains '\n'

/-- Lines with one code, each but the last marked as continued. -/
def replyLines (code : Text) : List Text → Bool
  | [] => false
  | [line] => replyLine code ' ' line
  | line :: more => replyLine code '-' line && replyLines code more

/-- One complete reply: its code is three digits. -/
def completeReply (lines : List String) : Bool :=
  let code := ((lines.map String.toList).headD []).take 3
  code.length == 3 && code.all Char.isDigit && replyLines code (lines.map String.toList)

/-- A log in which every line and every message body is answered once. -/
inductive Answers : List Event → Prop where
  | nil : Answers []
  | line (log : List Event) (line : Text) (lines : List String) :
      Answers log → completeReply lines = true →
      Answers (log ++ .read line :: lines.map reply)
  | message (log : List Event) (line : Text) (body : Bytes) (lines lines' : List String) :
      Answers log → completeReply lines = true → completeReply lines' = true →
      Answers (log ++ .read line :: (lines.map reply ++ .body body :: lines'.map reply))

/-- The client sees what it is sent and what is taken from it. -/
def visible : Event → Bool
  | .read _ | .write _ | .body _ => true
  | .forward _ | .push _ => false

/-- The log of some moves. -/
def log (l : List Move) : List Event := (l.flatMap Move.events).filter visible

/-- A greeting, then lines and bodies with their replies. -/
def Disciplined (log : List Event) : Prop :=
  ∃ rest, log = reply greeting :: rest ∧ Answers rest

theorem log_snoc (l : List Move) (m : Move) :
    log (l ++ [m]) = log l ++ m.events.filter visible := by
  rw [log, List.flatMap_append, List.filter_append, List.flatMap_singleton]
  rfl

theorem filter_map_reply (lines : List String) :
    (lines.map reply).filter visible = lines.map reply := by
  refine List.filter_eq_self.mpr (fun e he => ?_)
  obtain ⟨text, -, rfl⟩ := List.mem_map.mp he
  rfl

/-! ## Counting

    The last line of a reply has a blank behind its code, so a disciplined log
    has one such line for the greeting, one for each line taken and one for
    each body. -/

/-- The event writes the last line of a reply. -/
def isFinal : Event → Bool
  | .write text => (text.drop 3).head? == some ' '
  | _ => false

/-- The event takes something that is to be answered. -/
def isAsked : Event → Bool
  | .read _ | .body _ => true
  | _ => false

theorem replyLine_isFinal {code : Text} {c : Char} {line : String} (hcode : code.length = 3)
    (h : replyLine code c line.toList = true) : isFinal (reply line) = (c == ' ') := by
  rw [replyLine, Bool.and_eq_true, Bool.and_eq_true] at h
  obtain ⟨tail, htail⟩ := List.isPrefixOf_iff_prefix.mp h.1.1
  rw [reply, isFinal, ← htail, List.append_assoc, List.append_assoc,
    List.drop_left' hcode]
  show (some c == some ' ') = _
  rfl

theorem replyLines_count {code : Text} (hcode : code.length = 3) :
    ∀ lines : List String, replyLines code (lines.map String.toList) = true →
      (lines.map reply).countP isFinal = 1 := by
  intro lines
  induction lines with
  | nil => intro h; exact nomatch h
  | cons line more ih =>
      intro h
      cases more with
      | nil =>
          have hline : replyLine code ' ' line.toList = true := h
          rw [List.map_cons, List.countP_cons, replyLine_isFinal hcode hline]
          rfl
      | cons next more =>
          have h : (replyLine code '-' line.toList
              && replyLines code ((next :: more).map String.toList)) = true := h
          rw [Bool.and_eq_true] at h
          rw [List.map_cons, List.countP_cons, replyLine_isFinal hcode h.1, ih h.2]
          rfl

theorem completeReply_count {lines : List String} (h : completeReply lines = true) :
    (lines.map reply).countP isFinal = 1 ∧ (lines.map reply).countP isAsked = 0 := by
  rw [completeReply, Bool.and_eq_true, Bool.and_eq_true, beq_iff_eq] at h
  refine ⟨replyLines_count h.1.1 lines h.2, List.countP_eq_zero.mpr (fun e he => ?_)⟩
  obtain ⟨text, -, rfl⟩ := List.mem_map.mp he
  exact Bool.false_ne_true

/-- As many replies as there are lines and bodies. -/
theorem Answers.count {log : List Event} (h : Answers log) :
    log.countP isFinal = log.countP isAsked := by
  induction h with
  | nil => rfl
  | line log line lines _ hl ih =>
      obtain ⟨h1, h2⟩ := completeReply_count hl
      have hread : (List.countP isFinal (.read line :: lines.map reply) = 1)
          ∧ List.countP isAsked (.read line :: lines.map reply) = 1 := by
        rw [List.countP_cons, List.countP_cons, h1, h2]
        exact ⟨rfl, rfl⟩
      rw [List.countP_append, List.countP_append, hread.1, hread.2, ih]
  | message log line body lines lines' _ hl hl' ih =>
      obtain ⟨h1, h2⟩ := completeReply_count hl
      obtain ⟨h3, h4⟩ := completeReply_count hl'
      rw [List.countP_append, List.countP_append, List.countP_cons, List.countP_cons,
        List.countP_append, List.countP_append, List.countP_cons, List.countP_cons,
        h1, h2, h3, h4, ih]
      rfl

theorem Disciplined.count {log : List Event} (h : Disciplined log) :
    log.countP isFinal = log.countP isAsked + 1 := by
  obtain ⟨rest, rfl, hrest⟩ := h
  have hgreeting : isFinal (reply greeting) = true ∧ isAsked (reply greeting) = false := by
    decide
  rw [List.countP_cons, List.countP_cons, hgreeting.1, hgreeting.2, hrest.count]
  rfl

/-! ## The replies of a turn -/

theorem refusals_complete : ∀ text ∈ refusals, completeReply [text] = true := by
  decide +kernel

section

variable {env : Env} {cfg : SmtpConfig} {stamp : Stamp} {line : Text} {rest : Bytes}
  {s : Session} {r : Reaction} {l : List Move} {c c' : Conn} {m : Move}

/-- A turn panics, or it writes one complete reply, or it reads a message
    between two of them. -/
theorem turn_replies {r : Reaction} (h : Turn env cfg stamp line rest s r) :
    PanicLine s line
    ∨ (∃ lines : List String, r.events = lines.map reply ∧ completeReply lines = true)
    ∨ ∃ body record, r.events = [reply startData, .body body] ++ deliver cfg record
      ++ [reply "250 OK: queued"] := by
  cases h with
  | refused text ht => exact Or.inr (Or.inl ⟨[text], rfl, refusals_complete text ht⟩)
  | promptPlain => exact Or.inr (Or.inl ⟨["334 "], rfl, by decide +kernel⟩)
  | promptLogin => exact Or.inr (Or.inl ⟨["334 VXNlcm5hbWU6"], rfl, by decide +kernel⟩)
  | promptPassword => exact Or.inr (Or.inl ⟨["334 UGFzc3dvcmQ6"], rfl, by decide +kernel⟩)
  | authenticated =>
      exact Or.inr (Or.inl ⟨["235 Authentication successful"], rfl, by decide +kernel⟩)
  | ehlo =>
      obtain ⟨lines, hl, hmem⟩ := ehlo_lines cfg s
      refine Or.inr (Or.inl ⟨lines, by rw [hl]; rfl, ?_⟩)
      clear hl
      revert lines
      decide +kernel
  | starttls => exact Or.inr (Or.inl ⟨["220 Ready to start TLS"], rfl, by decide +kernel⟩)
  | mailAccepted | rcptAccepted | rset | noop =>
      exact Or.inr (Or.inl ⟨["250 OK"], rfl, by decide +kernel⟩)
  | dataFailed => exact Or.inr (Or.inl ⟨[startData], rfl, by decide +kernel⟩)
  | dataAccepted bytes rest' => exact Or.inr (Or.inr ⟨bytes, _, rfl⟩)
  | quit => exact Or.inr (Or.inl ⟨["221 Bye"], rfl, by decide +kernel⟩)
  | panicked hp => exact Or.inl hp

/-- The visible part of a message taken between its two replies. -/
theorem filter_deliver (body : Bytes) (record : MailRecord) :
    (Event.read line :: ([reply startData, .body body] ++ deliver cfg record
      ++ [reply "250 OK: queued"])).filter visible
    = .read line :: ([startData].map reply ++ .body body :: ["250 OK: queued"].map reply) := by
  rw [deliver]
  cases cfg.forwardHandle with
  | true => rfl
  | false => rfl

/-! ## Where a connection greets -/

/-- What the moves so far say about the greeting: before the first move one of
    the two loops is about to be entered, and a TLS loop is entered with an empty
    envelope. -/
structure Entry (l : List Move) (c : Conn) : Prop where
  first : l = [] → c.phase = .fresh ∨ c.phase = .tlsFresh
  fresh : c.phase = .fresh → l = []
  empty : c.phase = .tlsFresh → c.session.envelope = ⟨none, []⟩
  tls : c.phase = .tls ∨ c.phase = .tlsFresh → c.session.tlsActive = true

theorem Entry.initial (h : Initial cfg c) : Entry [] c := by
  obtain ⟨input, rfl | rfl⟩ := h
  · refine ⟨fun _ => Or.inl rfl, fun _ => rfl, fun h => (nomatch h), ?_⟩
    rintro (h | h)
    · exact nomatch h
    · exact nomatch h
  · exact ⟨fun _ => Or.inr rfl, fun _ => rfl, fun _ => rfl, fun _ => rfl⟩

/-- A move that does not lead to an entry. -/
theorem Entry.go (hfresh : c'.phase ≠ .fresh) (hentry : c'.phase ≠ .tlsFresh)
    (htls : c'.phase = .tls → c'.session.tlsActive = true) : Entry (l ++ [m]) c' := by
  refine ⟨fun h => absurd h (by simp), fun h => absurd h hfresh, fun h => absurd h hentry, ?_⟩
  rintro (h | h)
  · exact htls h
  · exact absurd h hentry

theorem Entry.step (hI : Entry l c) (h : Step env cfg c m c') : Entry (l ++ [m]) c' := by
  obtain ⟨rfl, rfl, hq | ⟨line, rest, r, hs⟩⟩ := step_cases h
  · cases hq with
    | greets hp hev ha =>
        rw [ha]
        exact Entry.go (fun h => (nomatch h)) (fun h => (nomatch h)) (fun h => (nomatch h))
    | upgrades input hp hev ha =>
        rw [ha]
        exact ⟨fun h => absurd h (by simp), fun h => (nomatch h), fun _ => rfl, fun _ => rfl⟩
    | handshakeFails hp hev ha =>
        rw [ha]
        exact Entry.go (fun h => (nomatch h)) (fun h => (nomatch h)) (fun h => (nomatch h))
    | greetsTls hp hev ha =>
        rw [ha]
        exact Entry.go (fun h => (nomatch h)) (fun h => (nomatch h))
          (fun _ => hI.tls (Or.inr hp))
    | hangsUp hp hev hc hsess =>
        exact Entry.go (by rw [hc]; exact fun h => nomatch h)
          (by rw [hc]; exact fun h => nomatch h) (by rw [hc]; exact fun h => nomatch h)
  · obtain ⟨stamp, hturn⟩ := hs.turn
    have hloop : m.after.phase ≠ .fresh ∧ m.after.phase ≠ .tlsFresh := by
      rcases hs.phase_after with h | h | h | ⟨h, -⟩
      all_goals
        rw [h]
        exact ⟨fun h => (nomatch h), fun h => (nomatch h)⟩
    refine Entry.go hloop.1 hloop.2 (fun h => ?_)
    rw [hs.session_eq, hturn.tlsActive_eq]
    refine hI.tls (Or.inl ?_)
    by_contra hne
    rw [hs.after] at h
    dsimp only at h
    rw [if_neg hne] at h
    exact plainNext_ne_tls cfg r.result h

theorem Entry.run (h0 : Initial cfg c) (h : Run (Step env cfg) c l c') : Entry l c' :=
  h.history_rule (Entry.initial h0) (fun _ _ _ _ hI hs => hI.step hs)

/-- What a move adds to the log: nothing, a greeting, a line that panics, or a
    line with its replies. -/
inductive Adds (l : List Move) (m : Move) : Prop where
  | nothing : l ≠ [] → m.before.phase ≠ .tlsFresh → m.line? = none →
      m.events.filter visible = [] → Adds l m
  | greeting : l = [] ∨ m.before.phase = .tlsFresh → m.line? = none →
      m.events.filter visible = [reply greeting] → Adds l m
  | panic (line : Text) : l ≠ [] → m.line? = some line →
      PanicLine m.before.session line → m.events.filter visible = [.read line] → Adds l m
  | block : l ≠ [] → m.before.phase ≠ .tlsFresh →
      (∀ line, m.line? = some line → ¬ PanicLine m.before.session line) →
      (∀ log, Answers log → Answers (log ++ m.events.filter visible)) → Adds l m

/-- Away from the entries there was a move before. -/
theorem Entry.ne_nil (hI : Entry l c) (hfresh : c.phase ≠ .fresh)
    (hentry : c.phase ≠ .tlsFresh) : l ≠ [] := by
  intro hnil
  rcases hI.first hnil with h | h
  · exact hfresh h
  · exact hentry h

theorem Entry.quiet_adds (hI : Entry l m.before) (hq : Quiet cfg m) : Adds l m := by
  have hnone := hq.line?_eq
  have nothing : m.before.phase ≠ .fresh → m.before.phase ≠ .tlsFresh →
      m.events = [] → Adds l m := by
    intro hfresh hentry hev
    exact Adds.nothing (hI.ne_nil hfresh hentry) hentry hnone (by rw [hev]; rfl)
  cases hq with
  | greets hp hev ha =>
      refine Adds.greeting (Or.inl (hI.fresh hp)) hnone ?_
      rw [hev]
      rfl
  | upgrades input hp hev ha => exact nothing (by simp [hp]) (by simp [hp]) hev
  | handshakeFails hp hev ha => exact nothing (by simp [hp]) (by simp [hp]) hev
  | greetsTls hp hev ha =>
      refine Adds.greeting (Or.inr hp) hnone ?_
      have henv := hI.empty hp
      have h1 : m.before.session.mailFrom = none := congrArg Envelope.mailFrom henv
      have h2 : m.before.session.rcptTo = [] := congrArg Envelope.rcptTo henv
      rw [hev, h1, h2]
      rfl
  | hangsUp hp hev hc hsess =>
      rcases hp with hp | hp
      · exact nothing (by simp [hp]) (by simp [hp]) hev
      · exact nothing (by simp [hp]) (by simp [hp]) hev

/-- The TLS loop has nothing to add: its session is never asked to upgrade. -/
theorem Entry.events (hI : Entry l m.before) (hs : Speaks env cfg m line rest r) :
    m.events = .read line :: r.events := by
  obtain ⟨stamp, hturn⟩ := hs.turn
  rw [hs.events]
  by_cases htls : m.before.phase = .tls
  · have hno : r.result ≠ .ok .startTls := by
      intro hres
      have hactive := (hturn.startTls_inv hres).2.2.1
      rw [hI.tls (Or.inl htls)] at hactive
      exact absurd hactive (by decide)
    rw [if_pos htls, tlsExtra_eq_nil hno, List.append_nil]
  · rw [if_neg htls, List.append_nil]

theorem Entry.speaks_adds (hI : Entry l m.before) (hs : Speaks env cfg m line rest r) :
    Adds l m := by
  obtain ⟨stamp, hturn⟩ := hs.turn
  obtain ⟨hfresh, hentry⟩ := hs.phase_ne
  have hne := hI.ne_nil hfresh hentry
  by_cases hpanic : PanicLine m.before.session line
  · refine Adds.panic line hne hs.line?_eq hpanic ?_
    rw [hI.events hs, hturn.panic_inv (hs.panics.mpr hpanic)]
    rfl
  · refine Adds.block hne hentry ?_ (fun log hlog => ?_)
    · intro line' hline
      rw [hs.line?_eq] at hline
      cases hline
      exact hpanic
    · rw [hI.events hs]
      rcases turn_replies hturn with hp | ⟨lines, hr, hc⟩ | ⟨body, record, hr⟩
      · exact absurd hp hpanic
      · rw [hr, List.filter_cons_of_pos rfl, filter_map_reply]
        exact Answers.line log line lines hlog hc
      · rw [hr, filter_deliver]
        exact Answers.message log line body [startData] ["250 OK: queued"] hlog
          (by decide +kernel) (by decide +kernel)

theorem move_adds (hI : Entry l c) (h : Step env cfg c m c') : Adds l m := by
  obtain ⟨rfl, rfl, hq | ⟨line, rest, r, hs⟩⟩ := step_cases h
  · exact hI.quiet_adds hq
  · exact hI.speaks_adds hs

/-- The move keeps the reply discipline behind the given moves: it enters no TLS
    loop but at the start, and takes no line that panics. -/
structure Orderly (pre : List Move) (m : Move) : Prop where
  entry : m.before.phase = .tlsFresh → pre = []
  line : ∀ line, m.line? = some line → ¬ PanicLine m.before.session line

/-- **Orderly moves keep the discipline.** -/
theorem disciplined_snoc (hadds : Adds l m) (hm : Orderly l m)
    (hl : l ≠ [] → Disciplined (log l)) : Disciplined (log (l ++ [m])) := by
  rw [log_snoc]
  cases hadds with
  | nothing hne _ _ hev =>
      rw [hev, List.append_nil]
      exact hl hne
  | greeting hentry _ hev =>
      obtain rfl : l = [] := hentry.elim id hm.entry
      rw [hev]
      exact ⟨[], rfl, Answers.nil⟩
  | panic line hne hline hpanic hev => exact absurd hpanic (hm.line line hline)
  | block hne _ _ hblock =>
      obtain ⟨rest, hrest, hanswers⟩ := hl hne
      exact ⟨rest ++ m.events.filter visible, by rw [hrest]; rfl, hblock rest hanswers⟩

/-- Disorderly moves break it: a second greeting is one reply too many, and a
    line that panics has none. -/
theorem orderly_of_disciplined (hadds : Adds l m)
    (hl : l ≠ [] → Disciplined (log l)) (h : Disciplined (log (l ++ [m]))) :
    Orderly l m := by
  have hcount := h.count
  rw [log_snoc, List.countP_append, List.countP_append] at hcount
  cases hadds with
  | nothing _ hp hnone _ =>
      exact ⟨fun h => absurd h hp, fun line hline => nomatch hnone.symm.trans hline⟩
  | greeting hentry hnone hev =>
      refine ⟨fun _ => ?_, fun line hline => nomatch hnone.symm.trans hline⟩
      by_contra hne
      have hgreeting : List.countP isFinal [reply greeting] = 1
          ∧ List.countP isAsked [reply greeting] = 0 := by
        decide +kernel
      rw [hev, (hl hne).count, hgreeting.1, hgreeting.2] at hcount
      omega
  | panic line hne hline hpanic hev =>
      have hread : List.countP isFinal [.read line] = 0
          ∧ List.countP isAsked [.read line] = 1 := ⟨rfl, rfl⟩
      rw [hev, (hl hne).count, hread.1, hread.2] at hcount
      omega
  | block _ hp hline _ => exact ⟨fun h => absurd h hp, hline⟩

end

/-- **Reply discipline holds exactly of orderly runs.**  The log of a run is, as
    long as it runs, a greeting and then one complete reply for each line and
    each message body, if and only if no TLS loop is entered by an upgrade and no
    line panics. -/
theorem disciplined_iff_orderly {env : Env} {cfg : SmtpConfig} {c c' : Conn}
    {l : List Move} (h0 : Initial cfg c) (hrun : Run (Step env cfg) c l c') :
    (∀ pre post, l = pre ++ post → pre ≠ [] → Disciplined (log pre))
      ↔ ∀ pre m post, l = pre ++ m :: post → Orderly pre m := by
  constructor
  · intro h pre m post hl
    rw [hl] at hrun
    obtain ⟨t, t', hpre, hstep, -⟩ := hrun.step_at
    refine orderly_of_disciplined (move_adds (Entry.run h0 hpre) hstep)
      (h pre (m :: post) hl) (h (pre ++ [m]) post ?_ (by simp))
    rw [hl, List.append_assoc]
    rfl
  · intro h
    induction hrun with
    | nil =>
        intro pre post hl hne
        exact absurd (List.append_eq_nil_iff.mp hl.symm).1 hne
    | @snoc l t u m hrun hstep ih =>
        have ih := ih (fun pre m' post hl => h pre m' (post ++ [m]) (by rw [hl]; simp))
        intro pre post hl hne
        rcases List.eq_nil_or_concat post with rfl | ⟨post, m', rfl⟩
        · rw [List.append_nil] at hl
          rw [← hl]
          exact disciplined_snoc (move_adds (Entry.run h0 hrun) hstep) (h l m [] rfl)
            (ih l [] (List.append_nil l).symm)
        · rw [List.concat_eq_append, ← List.append_assoc] at hl
          exact ih pre post (List.append_inj' hl rfl).1 hne

/-- A server that offers STARTTLS. -/
def upgradeConfig : SmtpConfig := ⟨[], true, false, none, none, false⟩

/-- A client that says hello and leaves. -/
def helloQuit : Bytes := encode "EHLO x\r\nQUIT\r\n".toList

theorem disciplined_helloQuit :
    Disciplined (log (sampleRun upgradeConfig none 3 helloQuit).1) := by
  have hquiet : ∀ m ∈ (sampleRun upgradeConfig none 3 helloQuit).1,
      m.before.phase ≠ .tlsFresh
        ∧ m.line?.all (fun line => (angleBrackets line).isEmpty) = true := by
    decide +kernel
  refine (disciplined_iff_orderly ⟨helloQuit, Or.inl rfl⟩ (sampleRun_run _ _ _ _)).mpr ?_
    _ [] (List.append_nil _).symm (by decide +kernel)
  intro pre m post hl
  obtain ⟨hphase, hlines⟩ := hquiet m (by rw [hl]; simp)
  refine ⟨fun h => absurd h hphase, fun line hline hpanic => ?_⟩
  obtain ⟨-, -, ⟨t, ht, -⟩, -⟩ := hpanic
  rw [hline, Option.all_some, ht] at hlines
  exact nomatch hlines

/-- After a STARTTLS upgrade the server greets a second time. -/
theorem upgrade_greets_again :
    let run := sampleRun upgradeConfig (some []) 4 (encode "STARTTLS\r\n".toList)
    Run (Step sampleEnv upgradeConfig)
        (Conn.start upgradeConfig (encode "STARTTLS\r\n".toList)) run.1 run.2
      ∧ run.1 ≠ [] ∧ ¬ Disciplined (log run.1) := by
  refine ⟨sampleRun_run _ _ _ _, by decide +kernel, fun h => ?_⟩
  have hcount := h.count
  revert hcount
  decide +kernel

end SmtpReply
