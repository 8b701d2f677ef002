import SmtpSink.ConnectionProofs

/-! # The wire — a session while its stream arrives

    The bytes of a client arrive in pieces, at any time, and `read_line` waits for
    a line feed or for the end of the stream.  A `Wire` is a connection with what
    has arrived of its stream and what has not; arrivals and what the session does
    with the lines that are there come in any order.  `read_data` waits between the
    lines of a message as `process_command` does between commands.

    * `arrival_immaterial` — however the stream is cut into pieces, what is observed
      is what a connection with the whole stream before it does, up to the
      invitation to a message that is still being read; but plaintext that is left
      behind STARTTLS may break the handshake.
    * `sessions_end` — every session comes to its end: its steps are bounded by the
      bytes of its streams, and it stops nowhere else. -/

namespace SmtpWire

open Utf8 Unicode SmtpReader SmtpRecord SmtpSession SmtpTurn SmtpConnection Runs

/-- A connection while its stream arrives. -/
structure Wire where
  phase : Phase
  session : Session
  /-- what `read_data` has collected, while it runs -/
  collected : Option Bytes
  /-- what has arrived and is not read -/
  buffer : Bytes
  /-- what has not arrived -/
  future : Bytes
  /-- the end of the stream is known -/
  ended : Bool

/-- A connection of whose stream nothing has arrived. -/
def Wire.of (c : Conn) : Wire := ⟨c.phase, c.session, none, [], c.input, false⟩

/-- The connection with the whole stream before it. -/
def Wire.conn (w : Wire) : Conn := ⟨w.phase, w.session, w.buffer ++ w.future⟩

instance (s : Session) (line : Text) : Decidable (OpensData s line) :=
  decidable_of_iff (verb? s line = some .data ∧ s.locked = false ∧ s.mailFrom ≠ none
    ∧ s.rcptTo ≠ []) ⟨fun h => ⟨h.1, h.2.1, h.2.2.1, h.2.2.2⟩,
      fun h => ⟨h.verb, h.unlocked, h.sender, h.recipients⟩⟩

/-- `read_line` on what has arrived. -/
def awaitLine (buffer : Bytes) (ended : Bool) : Option (Except Fault (Text × Bytes)) :=
  if lf ∈ buffer ∨ ended = true then some (readLine buffer) else none

/-- Where a loop goes after a command. -/
def next (cfg : SmtpConfig) (phase : Phase) (result : Except Fault CommandResult) : Phase :=
  if phase = .tls then tlsNext result else plainNext cfg result

/-- What a loop writes after a command. -/
def extra (phase : Phase) (result : Except Fault CommandResult) : List Event :=
  if phase = .tls then tlsExtra result else []

section

variable (env : Env) (cfg : SmtpConfig) (stamp : Stamp)

/-- `process_command` from its `read_line` to the next one. -/
def command (w : Wire) : Except Fault (Text × Bytes) → List Event × Wire
  | .error _ => ([], { w with phase := .closed })
  | .ok (line, rest) =>
      if OpensData w.session line then
        ([.read line, reply startData], { w with collected := some [], buffer := rest })
      else
        let r := processLine env cfg stamp w.session line rest
        (r.events ++ extra w.phase r.result,
          { w with phase := next cfg w.phase r.result, session := r.session, buffer := r.rest })

/-- `read_data` from a `read_line` to the next one, or to the end of the command. -/
def message (w : Wire) (collected : Bytes) :
    Except Fault (Text × Bytes) → List Event × Wire
  | .error _ => ([], { w with phase := .closed, collected := none })
  | .ok (line, rest) =>
      match dataStep collected line with
      | .error _ => ([], { w with phase := .closed, collected := none })
      | .ok none =>
          (.body collected :: (deliver cfg (parseEmail env stamp collected w.session.envelope)
            ++ [reply "250 OK: queued"]),
            { w with session := w.session.reset, collected := none, buffer := rest })
      | .ok (some more) => ([], { w with collected := some more, buffer := rest })

/-- A session takes a line. -/
def take (w : Wire) (read : Except Fault (Text × Bytes)) : List Event × Wire :=
  match w.collected with
  | none => command env cfg stamp w read
  | some collected => message env cfg stamp w collected read

/-- Where a move that reads nothing leads: an upgraded connection has a new stream. -/
def Wire.moved (w : Wire) (c : Conn) : Wire :=
  if c.phase = .tlsFresh then Wire.of c else { w with phase := c.phase }

/-- What a session can do with what has arrived.  `handshake` is the stream that its
    TLS handshake gives, if it comes to one. -/
def act (handshake : Option Bytes) (w : Wire) : Option (List Event × Wire) :=
  match w.phase with
  | .plain | .tls => (awaitLine w.buffer w.ended).map (take env cfg stamp w)
  | .fresh | .upgrading | .tlsFresh | .closed =>
      (connStep env cfg handshake stamp w.conn).map (fun p => (p.1, w.moved p.2))

end

/-- What happens: some bytes arrive, the stream ends, or the session acts. -/
inductive Label where
  | arrives (n : Nat)
  | ends
  | acts (events : List Event)

/-- What is observed of the session. -/
def Label.events : Label → List Event
  | .arrives _ | .ends => []
  | .acts events => events

/-- What a TLS handshake gives.  What has been read ahead of it is dropped, but what
    else has been sent in plaintext comes in its way. -/
inductive Shakes (handshake : Option Bytes) (w : Wire) : Option Bytes → Prop where
  | given : (w.phase = .upgrading → w.future = []) → Shakes handshake w handshake
  | broken : w.phase = .upgrading → w.buffer ++ w.future ≠ [] → Shakes handshake w none

inductive WireStep (env : Env) (cfg : SmtpConfig) (handshake : Option Bytes) (w : Wire) :
    Label → Wire → Prop where
  | arrives (n : Nat) : 0 < n → n ≤ w.future.length →
      WireStep env cfg handshake w (.arrives n)
        { w with buffer := w.buffer ++ w.future.take n, future := w.future.drop n }
  | ends : w.future = [] → w.ended = false →
      WireStep env cfg handshake w .ends { w with ended := true }
  | acts (stamp : Stamp) (given : Option Bytes) (events : List Event) (w' : Wire) :
      Shakes handshake w given → act env cfg stamp given w = some (events, w') →
      WireStep env cfg handshake w (.acts events) w'

/-- What a connection does that has its whole stream before it: its own steps, but
    plaintext that is left behind STARTTLS may break the handshake. -/
def WholeStep (env : Env) (cfg : SmtpConfig) (handshake : Option Bytes) (c : Conn) (m : Move)
    (c' : Conn) : Prop :=
  OwnStep env cfg handshake c m c'
    ∨ c.phase = .upgrading ∧ c.input ≠ [] ∧ OwnStep env cfg none c m c'

/-! ## Reading ahead -/

section

variable {env : Env} {cfg : SmtpConfig} {handshake given : Option Bytes} {stamp : Stamp}
  {w w' : Wire} {c c' : Conn} {line : Text} {rest : Bytes} {l : List Label}

theorem takeLine_ahead {bs : Bytes} (h : lf ∈ bs) (more : Bytes) :
    takeLine (bs ++ more) = ((takeLine bs).1, (takeLine bs).2 ++ more) := by
  obtain ⟨p, q, rfl, hp⟩ := List.eq_append_cons_of_mem h
  rw [List.append_assoc, List.cons_append, takeLine_of_lf p q hp, takeLine_of_lf p _ hp]

/-- **A line that has arrived is the next line of the whole stream.** -/
theorem awaitLine_ahead {buffer future : Bytes} {ended : Bool}
    {read : Except Fault (Text × Bytes)} (hend : ended = true → future = [])
    (h : awaitLine buffer ended = some read) :
    readLine (buffer ++ future) = read.map (fun p => (p.1, p.2 ++ future)) := by
  rw [awaitLine] at h
  split_ifs at h with hready
  obtain rfl := Option.some.inj h
  have htake : takeLine (buffer ++ future)
      = ((takeLine buffer).1, (takeLine buffer).2 ++ future) := by
    rcases hready with hlf | hended
    · exact takeLine_ahead hlf future
    · rw [hend hended, List.append_nil, List.append_nil]
  rw [readLine, readLine, htake]
  cases decode? (takeLine buffer).1 with
  | none => rfl
  | some line => rfl

/-- **Only DATA reads on behind its line.** -/
theorem interpret_rest (env : Env) (cfg : SmtpConfig) (stamp : Stamp) {s : Session}
    (h : ¬ OpensData s line) (rest : Bytes) :
    interpret env cfg stamp line rest s
      = { interpret env cfg stamp line [] s with rest := rest } := by
  rw [interpret, interpret]
  cases hauth : s.authState with
  | waitingForPlain => rfl
  | waitingForLoginUsername => rfl
  | waitingForLoginPassword username => rfl
  | none =>
      cases hv : dispatch (toUppercase (trim line)) with
      | data =>
          show data env cfg stamp rest s = { data env cfg stamp [] s with rest := rest }
          rw [data, data]
          by_cases hl : s.locked = true
          · rw [if_pos hl, if_pos hl]
          · by_cases hm : s.mailFrom.isNone = true
            · rw [if_neg hl, if_neg hl, if_pos hm, if_pos hm]
            · by_cases hr : s.rcptTo.isEmpty = true
              · rw [if_neg hl, if_neg hl, if_neg hm, if_neg hm, if_pos hr, if_pos hr]
              · refine absurd ⟨?_, ?_, ?_, ?_⟩ h
                · rw [verb?_of_idle hauth, hv]
                · exact Bool.eq_false_iff.mpr hl
                · exact fun hnone => hm (by rw [hnone]; rfl)
                · exact fun hnil => hr (by rw [hnil]; rfl)
      | ehlo | starttls | auth | mailFrom | rcptTo | rset | noop | quit | unknown => rfl

/-- A line that does not open a message is all that is read. -/
theorem processLine_rest (env : Env) (cfg : SmtpConfig) (stamp : Stamp) {s : Session}
    (h : ¬ OpensData s line) (rest : Bytes) :
    processLine env cfg stamp s line rest
      = { processLine env cfg stamp s line [] with rest := rest } := by
  rw [processLine, processLine]
  by_cases hline : line = []
  · rw [if_pos hline, if_pos hline]
  · rw [if_neg hline, if_neg hline, interpret_rest env cfg stamp h]

/-! ## What the whole stream does -/

theorem WholeStep.step {m : Move} (h : WholeStep env cfg handshake c m c') :
    Step env cfg c m c' := by
  rcases h with h | ⟨-, -, h⟩
  · exact h.step
  · exact h.step

/-- The steps before an upgrade depend on no handshake. -/
theorem own_before_upgrade {given : Option Bytes} {ms : List Move}
    (h : Run (OwnStep env cfg handshake) c ms c')
    (hp : c'.phase = .fresh ∨ c'.phase = .plain ∨ c'.phase = .upgrading) :
    Run (OwnStep env cfg given) c ms c' := by
  induction h with
  | nil => exact Run.nil
  | @snoc ms t u m _ hstep ih =>
      have hphases := step_phases hstep.step
      have hbefore : t.phase = .fresh ∨ t.phase = .plain := by
        rcases hp with hu | hu | hu
        · rw [hu] at hphases
          simp at hphases
        · rw [hu] at hphases
          simpa using hphases
        · rw [hu] at hphases
          simp at hphases
          exact Or.inr hphases
      refine (ih (hbefore.imp_right Or.inl)).snoc (own_of_step given hstep.step ?_)
      rcases hbefore with ht | ht <;> rw [ht] <;> decide

/-- With the whole stream before it, a connection does what it does for one handshake
    or another. -/
theorem whole_own {ms : List Move} (h : Run (WholeStep env cfg handshake) c ms c') :
    ∃ given, Run (OwnStep env cfg given) c ms c' := by
  have hI : Run (OwnStep env cfg handshake) c ms c'
      ∨ Run (OwnStep env cfg none) c ms c' ∧ c'.phase = .closed := by
    induction h with
    | nil => exact Or.inl Run.nil
    | @snoc ms t u m _ hstep ih =>
        rcases ih with hrun | ⟨-, hclosed⟩
        · rcases hstep with hown | ⟨hp, -, hbroken⟩
          · exact Or.inl (hrun.snoc hown)
          · refine Or.inr ⟨(own_before_upgrade hrun (Or.inr (Or.inr hp))).snoc hbroken, ?_⟩
            obtain ⟨-, -, stamp, hs⟩ := hbroken
            simp only [connStep, hp, Option.some.injEq, Prod.mk.injEq] at hs
            rw [← hs.2]
        · -- nothing comes behind a handshake that broke
          have hphases := step_phases hstep.step
          rw [hclosed] at hphases
          simp at hphases
  rcases hI with h | ⟨h, -⟩
  · exact ⟨handshake, h⟩
  · exact ⟨none, h⟩

/-- Where nothing is left behind STARTTLS, the whole stream is taken as it is. -/
theorem whole_iff_own (hclean : ∀ ms c', Run (OwnStep env cfg handshake) c ms c' →
    c'.phase = .upgrading → c'.input = []) {ms : List Move} :
    Run (WholeStep env cfg handshake) c ms c' ↔ Run (OwnStep env cfg handshake) c ms c' := by
  refine ⟨fun h => ?_, fun h => h.mono (fun _ _ _ => Or.inl)⟩
  induction h with
  | nil => exact Run.nil
  | snoc _ hstep ih =>
      rcases hstep with hown | ⟨hp, hleft, -⟩
      · exact ih.snoc hown
      · exact absurd (hclean _ _ ih hp) hleft

/-- A wire and the connection with the whole stream: between two commands they are
    at the same place, and within a message the connection still has the DATA line
    before it. -/
inductive Sim (w : Wire) : Conn → List Event → Prop where
  | between : w.collected = none → Sim w w.conn []
  | closed (c : Conn) : w.phase = .closed → w.collected = none → c.phase = .closed → Sim w c []
  | within (c : Conn) (line : Text) (rest collected : Bytes) : w.collected = some collected →
      (w.phase = .plain ∨ w.phase = .tls) → c.phase = w.phase → c.session = w.session →
      readLine c.input = .ok (line, rest) → OpensData c.session line →
      readData rest = readDataFrom collected (w.buffer ++ w.future) →
      Sim w c [.read line, reply startData]

/-- The connection catches up with what is observed. -/
def Follows (env : Env) (cfg : SmtpConfig) (handshake : Option Bytes) (c : Conn)
    (events : List Event) (w : Wire) : Prop :=
  ∃ ms c' pending, Run (WholeStep env cfg handshake) c ms c'
    ∧ events = ms.flatMap Move.events ++ pending ∧ Sim w c' pending

/-- On the way into a loop they are at the same place. -/
theorem Sim.between_inv {pending : List Event} (h : Sim w c pending)
    (hp : w.phase ≠ .plain ∧ w.phase ≠ .tls ∧ w.phase ≠ .closed) :
    w.collected = none ∧ c = w.conn ∧ pending = [] := by
  cases h with
  | between hnone => exact ⟨hnone, rfl, rfl⟩
  | closed _ hclosed => exact absurd hclosed hp.2.2
  | within _ line rest collected hsome hloop => exact absurd hloop (not_or.mpr ⟨hp.1, hp.2.1⟩)

/-- A move in one of the loops. -/
theorem connStep_loop (handshake : Option Bytes) (hp : c.phase = .plain ∨ c.phase = .tls)
    {r : Reaction} (hr : processCommand env cfg stamp c.session c.input = r) :
    connStep env cfg handshake stamp c
      = some (r.events ++ extra c.phase r.result,
        ⟨next cfg c.phase r.result, r.session, r.rest⟩) := by
  obtain ⟨phase, s, input⟩ := c
  subst hr
  rcases hp with hp | hp
  · obtain rfl : phase = .plain := hp
    have hextra : extra .plain (processCommand env cfg stamp s input).result = [] := rfl
    simp only [hextra, List.append_nil]
    rfl
  · obtain rfl : phase = .tls := hp
    rfl

theorem loop_step (handshake : Option Bytes) (hp : c.phase = .plain ∨ c.phase = .tls)
    {r : Reaction} (hr : processCommand env cfg stamp c.session c.input = r) :
    WholeStep env cfg handshake c
      ⟨c, r.events ++ extra c.phase r.result, ⟨next cfg c.phase r.result, r.session, r.rest⟩⟩
      ⟨next cfg c.phase r.result, r.session, r.rest⟩ :=
  Or.inl ⟨rfl, rfl, stamp, connStep_loop handshake hp hr⟩

theorem follows_move {m : Move} {events pending : List Event}
    (hstep : WholeStep env cfg handshake c m c') (hev : events = m.events ++ pending)
    (hsim : Sim w c' pending) : Follows env cfg handshake c events w := by
  refine ⟨[m], c', pending, Run.single hstep, ?_, hsim⟩
  rw [hev, List.flatMap_singleton]

theorem next_error (cfg : SmtpConfig) (phase : Phase) (e : Fault) :
    next cfg phase (.error e) = .closed ∧ extra phase (.error e) = [] := by
  rw [next, extra]
  split_ifs
  · exact ⟨rfl, rfl⟩
  · exact ⟨rfl, rfl⟩

theorem next_quit (cfg : SmtpConfig) (phase : Phase) :
    next cfg phase (.ok .quit) = .closed ∧ extra phase (.ok .quit) = [] := by
  rw [next, extra]
  split_ifs
  · exact ⟨rfl, rfl⟩
  · exact ⟨rfl, rfl⟩

theorem next_continue (cfg : SmtpConfig) {phase : Phase} (hp : phase = .plain ∨ phase = .tls) :
    next cfg phase (.ok .continue) = phase ∧ extra phase (.ok .continue) = [] := by
  rcases hp with rfl | rfl
  · exact ⟨rfl, rfl⟩
  · exact ⟨rfl, rfl⟩

/-- A command is followed. -/
theorem command_follows {read : Except Fault (Text × Bytes)} (hnone : w.collected = none)
    (hp : w.phase = .plain ∨ w.phase = .tls)
    (hread : readLine (w.buffer ++ w.future) = read.map (fun p => (p.1, p.2 ++ w.future))) :
    Follows env cfg handshake w.conn (command env cfg stamp w read).1
      (command env cfg stamp w read).2 := by
  cases read with
  | error e =>
      have hproc : processCommand env cfg stamp w.conn.session w.conn.input
          = ⟨⟨w.session, [], .error e⟩, w.conn.input⟩ := by
        show processCommand env cfg stamp w.session (w.buffer ++ w.future) = _
        rw [processCommand, hread]
        rfl
      obtain ⟨hclosed, hextra⟩ := next_error cfg w.phase e
      refine follows_move (loop_step handshake hp hproc) ?_ (Sim.closed _ rfl hnone hclosed)
      exact (congrArg (fun es => [] ++ es ++ []) hextra).symm
  | ok p =>
      obtain ⟨line, rest⟩ := p
      rw [command]
      by_cases hopens : OpensData w.session line
      · rw [if_pos hopens]
        exact ⟨[], w.conn, _, Run.nil, rfl,
          Sim.within _ line (rest ++ w.future) [] rfl hp rfl rfl hread hopens rfl⟩
      · have hproc : processCommand env cfg stamp w.conn.session w.conn.input
            = { processLine env cfg stamp w.session line [] with rest := rest ++ w.future } := by
          show processCommand env cfg stamp w.session (w.buffer ++ w.future) = _
          rw [processCommand, hread]
          exact processLine_rest env cfg stamp hopens _
        rw [if_neg hopens, processLine_rest env cfg stamp hopens]
        exact follows_move (loop_step handshake hp hproc) (List.append_nil _).symm
          (Sim.between hnone)

/-- **A line of a message**: `read_data` fails, has the message, or goes on, as it
    does on the whole stream. -/
theorem message_cases (env : Env) (cfg : SmtpConfig) (stamp : Stamp) (collected : Bytes)
    {read : Except Fault (Text × Bytes)}
    (hread : readLine (w.buffer ++ w.future) = read.map (fun p => (p.1, p.2 ++ w.future))) :
    (∃ e, readDataFrom collected (w.buffer ++ w.future) = .error e
      ∧ message env cfg stamp w collected read
        = ([], { w with phase := .closed, collected := none }))
    ∨ (∃ rest, readDataFrom collected (w.buffer ++ w.future) = .ok (collected, rest ++ w.future)
      ∧ message env cfg stamp w collected read
        = (.body collected :: (deliver cfg (parseEmail env stamp collected w.session.envelope)
            ++ [reply "250 OK: queued"]),
          { w with session := w.session.reset, collected := none, buffer := rest }))
    ∨ ∃ more rest, readDataFrom collected (w.buffer ++ w.future)
        = readDataFrom more (rest ++ w.future)
      ∧ message env cfg stamp w collected read
        = ([], { w with collected := some more, buffer := rest }) := by
  rw [readDataFrom_eq, hread]
  cases read with
  | error e => exact Or.inl ⟨e, rfl, rfl⟩
  | ok p =>
      obtain ⟨line, rest⟩ := p
      rw [message]
      simp only [Except.map]
      cases dataStep collected line with
      | error e => exact Or.inl ⟨e, rfl, rfl⟩
      | ok more? =>
          cases more? with
          | none => exact Or.inr (Or.inl ⟨rest, rfl, rfl⟩)
          | some more => exact Or.inr (Or.inr ⟨more, rest, rfl, rfl⟩)

/-- A line of a message is followed. -/
theorem message_follows {read : Except Fault (Text × Bytes)} {collected : Bytes}
    (hp : w.phase = .plain ∨ w.phase = .tls)
    (hphase : c.phase = w.phase) (hsession : c.session = w.session)
    (hline : readLine c.input = .ok (line, rest)) (hopens : OpensData c.session line)
    (hdata : readData rest = readDataFrom collected (w.buffer ++ w.future))
    (hread : readLine (w.buffer ++ w.future) = read.map (fun p => (p.1, p.2 ++ w.future))) :
    Follows env cfg handshake c
      ([.read line, reply startData] ++ (message env cfg stamp w collected read).1)
      (message env cfg stamp w collected read).2 := by
  have hp' : c.phase = .plain ∨ c.phase = .tls := hphase ▸ hp
  have hproc : ∀ r, interpret env cfg stamp line rest c.session = r →
      processCommand env cfg stamp c.session c.input
        = { r with events := .read line :: r.events } := by
    rintro r rfl
    rw [processCommand, hline]
    exact if_neg hopens.line_ne
  rcases message_cases env cfg stamp collected hread with
    ⟨e, hfail, hmsg⟩ | ⟨more, hfull, hmsg⟩ | ⟨more, rest', hmore, hmsg⟩
  · have hturn := hproc ⟨⟨c.session, [reply startData], .error e⟩, rest⟩ (by
      rw [hopens.interpret_data, hdata.trans hfail])
    obtain ⟨hclosed, hextra⟩ := next_error cfg c.phase e
    rw [hmsg]
    refine follows_move (loop_step handshake hp' hturn) ?_ (Sim.closed _ rfl rfl hclosed)
    show _ = _ ++ extra c.phase (.error e) ++ []
    rw [hextra, List.append_nil]
    rfl
  · have hturn := hproc _ (hopens.interpret_eq (hdata.trans hfull))
    obtain ⟨hnext, hextra⟩ := next_continue cfg hp'
    have hstep := loop_step handshake hp' hturn
    rw [hnext, hextra] at hstep
    rw [hmsg]
    refine follows_move hstep (?_ : _ = _ ++ []) ?_
    · rw [hsession]
      simp
    · rw [hphase, hsession]
      exact Sim.between rfl
  · rw [hmsg, List.append_nil]
    exact ⟨[], c, _, Run.nil, rfl,
      Sim.within _ line rest more rfl hp hphase hsession hline hopens (hdata.trans hmore)⟩

/-- A session that takes a line is followed. -/
theorem take_follows {read : Except Fault (Text × Bytes)} {pending : List Event}
    (hsim : Sim w c pending) (hp : w.phase = .plain ∨ w.phase = .tls)
    (hread : readLine (w.buffer ++ w.future) = read.map (fun p => (p.1, p.2 ++ w.future))) :
    Follows env cfg handshake c (pending ++ (take env cfg stamp w read).1)
      (take env cfg stamp w read).2 := by
  cases hsim with
  | between hnone =>
      rw [take, hnone]
      exact command_follows hnone hp hread
  | closed _ hclosed =>
      rw [hclosed] at hp
      rcases hp with hp | hp <;> cases hp
  | within _ line rest collected hsome _ hphase hsession hline hopens hdata =>
      rw [take, hsome]
      exact message_follows hp hphase hsession hline hopens hdata hread

/-- What the way from a phase to the end takes at most, but for its own stream. -/
def rank (handshake : Option Bytes) : Phase → Nat
  | .closed => 0
  | .tls => 1
  | .tlsFresh => 2
  | .upgrading | .plain => 3 * (handshake.getD []).length + 4
  | .fresh => 3 * (handshake.getD []).length + 5

/-- A move that reads nothing. -/
theorem quiet_cases (handshake : Option Bytes) {given : Option Bytes} {events : List Event}
    (hp : c.phase ≠ .plain ∧ c.phase ≠ .tls)
    (h : connStep env cfg given stamp c = some (events, c')) :
    (∃ input, c.phase = .upgrading ∧ given = some input ∧ c' = upgraded c input)
      ∨ c' = { c with phase := c'.phase } ∧ c'.phase ≠ .tlsFresh
        ∧ rank handshake c'.phase < rank handshake c.phase := by
  cases hphase : c.phase with
  | plain => exact absurd hphase hp.1
  | tls => exact absurd hphase hp.2
  | closed =>
      simp only [connStep, hphase] at h
      cases h
  | fresh =>
      simp only [connStep, hphase, Option.some.injEq, Prod.mk.injEq] at h
      rw [← h.2]
      refine Or.inr ⟨rfl, by simp, ?_⟩
      simp only [rank]
      omega
  | tlsFresh =>
      simp only [connStep, hphase, Option.some.injEq, Prod.mk.injEq] at h
      rw [← h.2]
      exact Or.inr ⟨rfl, by simp, Nat.lt_succ_self 1⟩
  | upgrading =>
      cases given with
      | none =>
          simp only [connStep, hphase, Option.some.injEq, Prod.mk.injEq] at h
          rw [← h.2]
          exact Or.inr ⟨rfl, by simp, Nat.succ_pos _⟩
      | some input =>
          simp only [connStep, hphase, Option.some.injEq, Prod.mk.injEq] at h
          exact Or.inl ⟨input, rfl, rfl, h.2.symm⟩

theorem act_of_talking (given : Option Bytes) (hp : w.phase = .plain ∨ w.phase = .tls) :
    act env cfg stamp given w = (awaitLine w.buffer w.ended).map (take env cfg stamp w) := by
  rcases hp with hp | hp
  · simp only [act, hp]
  · simp only [act, hp]

theorem act_of_quiet (given : Option Bytes) (hp : w.phase ≠ .plain ∧ w.phase ≠ .tls) :
    act env cfg stamp given w
      = (connStep env cfg given stamp w.conn).map (fun p => (p.1, w.moved p.2)) := by
  cases hphase : w.phase with
  | plain => exact absurd hphase hp.1
  | tls => exact absurd hphase hp.2
  | fresh | upgrading | tlsFresh | closed => simp only [act, hphase]

theorem moved_upgraded (w : Wire) (c : Conn) (input : Bytes) :
    w.moved (upgraded c input) = Wire.of (upgraded c input) := if_pos rfl

theorem moved_same (h : c'.phase ≠ .tlsFresh) : w.moved c' = { w with phase := c'.phase } :=
  if_neg h

theorem conn_of (c : Conn) : (Wire.of c).conn = c := congrArg (Conn.mk _ _) (List.nil_append _)

/-- What a session does is followed. -/
theorem act_follows {events pending : List Event} (hsim : Sim w c pending)
    (hend : w.ended = true → w.future = []) (hshakes : Shakes handshake w given)
    (h : act env cfg stamp given w = some (events, w')) :
    Follows env cfg handshake c (pending ++ events) w' := by
  by_cases hp : w.phase = .plain ∨ w.phase = .tls
  · rw [act_of_talking given hp] at h
    obtain ⟨read, hread, htake⟩ := Option.map_eq_some_iff.mp h
    have hfollows : Follows env cfg handshake c (pending ++ (take env cfg stamp w read).1)
        (take env cfg stamp w read).2 := take_follows hsim hp (awaitLine_ahead hend hread)
    rwa [htake] at hfollows
  · rw [not_or] at hp
    rw [act_of_quiet given hp] at h
    obtain ⟨⟨events', c'⟩, hstep, heq⟩ := Option.map_eq_some_iff.mp h
    obtain ⟨rfl, rfl⟩ := Prod.mk.inj heq
    have hopen : w.phase ≠ .closed := by
      intro hclosed
      simp only [connStep, Wire.conn, hclosed] at hstep
      cases hstep
    obtain ⟨hnone, rfl, rfl⟩ := hsim.between_inv ⟨hp.1, hp.2, hopen⟩
    have hown : OwnStep env cfg given w.conn ⟨w.conn, events', c'⟩ c' := ⟨rfl, rfl, stamp, hstep⟩
    have hwhole : WholeStep env cfg handshake w.conn ⟨w.conn, events', c'⟩ c' := by
      cases hshakes with
      | given => exact Or.inl hown
      | broken hphase hleft => exact Or.inr ⟨hphase, hleft, hown⟩
    refine follows_move hwhole (List.append_nil _).symm ?_
    rcases quiet_cases handshake hp hstep with ⟨input, -, -, rfl⟩ | ⟨hsame, hne, -⟩
    · rw [moved_upgraded]
      have hbetween := Sim.between (w := Wire.of (upgraded w.conn input)) rfl
      rwa [conn_of] at hbetween
    · rw [moved_same hne, hsame]
      exact Sim.between hnone

/-! ## How long it takes -/

/-- What can still happen to a wire takes at most so many steps. -/
def Wire.remaining (handshake : Option Bytes) (w : Wire) : Nat :=
  3 * w.future.length + 2 * w.buffer.length + (if w.collected.isSome then 1 else 0)
    + (if w.ended then 0 else 1) + rank handshake w.phase

theorem rank_closed (handshake : Option Bytes) : rank handshake .closed = 0 := rfl

theorem rank_next (handshake : Option Bytes) (cfg : SmtpConfig) {phase : Phase}
    (hp : phase = .plain ∨ phase = .tls) (result : Except Fault CommandResult) :
    rank handshake (next cfg phase result) ≤ rank handshake phase := by
  rcases hp with rfl | rfl
  · show rank handshake (plainNext cfg result) ≤ _
    cases result with
    | error e => exact Nat.zero_le _
    | ok r =>
        cases r with
        | «continue» => exact le_refl _
        | quit => exact Nat.zero_le _
        | startTls =>
            rw [plainNext]
            split_ifs <;> exact le_refl _
  · show rank handshake (tlsNext result) ≤ _
    cases result with
    | error e => exact Nat.zero_le _
    | ok r =>
        cases r with
        | «continue» => exact le_refl _
        | quit => exact Nat.zero_le _
        | startTls => exact le_refl _

/-- What is known of the stream stays, and less is left to do. -/
structure Advances (handshake : Option Bytes) (w w' : Wire) : Prop where
  future : w'.future = w.future
  ended : w'.ended = w.ended
  remaining : w'.remaining handshake < w.remaining handshake

theorem rank_pos (handshake : Option Bytes) {phase : Phase}
    (hp : phase = .plain ∨ phase = .tls) : 0 < rank handshake phase := by
  rcases hp with rfl | rfl
  · exact Nat.succ_pos _
  · exact Nat.succ_pos _

/-- A command brings a session nearer to its end. -/
theorem command_advances (env : Env) (cfg : SmtpConfig) (stamp : Stamp)
    (handshake : Option Bytes) (hnone : w.collected = none)
    (hp : w.phase = .plain ∨ w.phase = .tls) :
    Advances handshake w (command env cfg stamp w (readLine w.buffer)).2 := by
  have hrank := rank_pos handshake hp
  cases hread : readLine w.buffer with
  | error e =>
      rw [command]
      refine ⟨rfl, rfl, ?_⟩
      simp only [Wire.remaining, hnone, rank_closed]
      omega
  | ok p =>
      obtain ⟨line, rest⟩ := p
      rw [command]
      by_cases hopens : OpensData w.session line
      · have hlen := readLine_length hread hopens.line_ne
        rw [if_pos hopens]
        refine ⟨rfl, rfl, ?_⟩
        simp only [Wire.remaining, hnone, Option.isSome_some, Option.isSome_none, if_true,
          Bool.false_eq_true, if_false]
        omega
      · rw [if_neg hopens, processLine_rest env cfg stamp hopens]
        refine ⟨rfl, rfl, ?_⟩
        by_cases hline : line = []
        · have hlen : rest.length ≤ w.buffer.length := by
            rw [← readLine_append hread, List.length_append]
            exact Nat.le_add_left _ _
          have hquit : (processLine env cfg stamp w.session line []).result = .ok .quit := by
            rw [processLine, if_pos hline]
          obtain ⟨hclosed, -⟩ := next_quit cfg w.phase
          simp only [Wire.remaining, hnone, hquit, hclosed, rank_closed]
          omega
        · have hlen := readLine_length hread hline
          have hnext := rank_next handshake cfg hp
            (processLine env cfg stamp w.session line []).result
          simp only [Wire.remaining, hnone]
          omega

/-- So does a line of a message. -/
theorem message_advances (env : Env) (cfg : SmtpConfig) (stamp : Stamp)
    (handshake : Option Bytes) {collected : Bytes} (hsome : w.collected = some collected)
    (hp : w.phase = .plain ∨ w.phase = .tls) :
    Advances handshake w (message env cfg stamp w collected (readLine w.buffer)).2 := by
  have hrank := rank_pos handshake hp
  cases hread : readLine w.buffer with
  | error e =>
      rw [message]
      refine ⟨rfl, rfl, ?_⟩
      simp only [Wire.remaining, hsome, rank_closed, Option.isSome_some,
        Option.isSome_none, if_true, Bool.false_eq_true, if_false]
      omega
  | ok p =>
      obtain ⟨line, rest⟩ := p
      have hlen : rest.length ≤ w.buffer.length := by
        rw [← readLine_append hread, List.length_append]
        exact Nat.le_add_left _ _
      rw [message]
      rcases dataStep_cases collected line with hend | ⟨hline, more, hmore⟩
      · rw [hend]
        refine ⟨rfl, rfl, ?_⟩
        simp only [Wire.remaining, hsome, Option.isSome_some, Option.isSome_none, if_true,
          Bool.false_eq_true, if_false]
        omega
      · have hlt := readLine_length hread hline
        rw [hmore]
        refine ⟨rfl, rfl, ?_⟩
        simp only [Wire.remaining, hsome, Option.isSome_some]
        omega

/-- **What a session does brings it nearer to its end.** -/
theorem act_remaining {events : List Event} (hend : w.ended = true → w.future = [])
    (hshakes : Shakes handshake w given)
    (h : act env cfg stamp given w = some (events, w')) :
    w'.remaining handshake < w.remaining handshake ∧ (w'.ended = true → w'.future = []) := by
  have hkept : Advances handshake w w' →
      w'.remaining handshake < w.remaining handshake ∧ (w'.ended = true → w'.future = []) :=
    fun hadv => ⟨hadv.remaining, fun hended => hadv.future.trans (hend (hadv.ended ▸ hended))⟩
  by_cases hp : w.phase = .plain ∨ w.phase = .tls
  · rw [act_of_talking given hp] at h
    obtain ⟨read, hread, htake⟩ := Option.map_eq_some_iff.mp h
    rw [awaitLine] at hread
    split_ifs at hread
    obtain rfl := Option.some.inj hread
    obtain rfl : (take env cfg stamp w (readLine w.buffer)).2 = w' := congrArg Prod.snd htake
    refine hkept ?_
    rw [take]
    cases hcollected : w.collected with
    | none => exact command_advances env cfg stamp handshake hcollected hp
    | some collected => exact message_advances env cfg stamp handshake hcollected hp
  · rw [not_or] at hp
    rw [act_of_quiet given hp] at h
    obtain ⟨⟨events', c'⟩, hstep, heq⟩ := Option.map_eq_some_iff.mp h
    have hmoved : w.moved c' = w' := (Prod.mk.inj heq).2
    rcases quiet_cases handshake hp hstep with
      ⟨input, hphase, rfl, rfl⟩ | ⟨hsame, hne, hless⟩
    · -- the new stream is the one that is given
      have hgiven : handshake = some input := by
        cases hshakes
        rfl
      have hphase : w.phase = .upgrading := hphase
      rw [moved_upgraded] at hmoved
      subst hmoved
      refine ⟨?_, fun hended => nomatch hended⟩
      simp only [Wire.remaining, Wire.of, upgraded, hphase, rank, hgiven, Option.getD_some,
        List.length_nil, Option.isSome_none, Bool.false_eq_true, if_false]
      omega
    · rw [moved_same hne] at hmoved
      subst hmoved
      refine hkept ⟨rfl, rfl, ?_⟩
      have hless : rank handshake c'.phase < rank handshake w.phase := hless
      simp only [Wire.remaining]
      omega

/-! ## Whole sessions -/

/-- What has been observed is what the connection with the whole stream does. -/
def Tracks (env : Env) (cfg : SmtpConfig) (handshake : Option Bytes) (c : Conn) (l : List Label)
    (w : Wire) : Prop :=
  (w.ended = true → w.future = []) ∧ Follows env cfg handshake c (l.flatMap Label.events) w

/-- Nothing happens to what has been observed while bytes arrive. -/
theorem Sim.arrives {pending : List Event} (h : Sim w c pending)
    (hphase : w'.phase = w.phase) (hsession : w'.session = w.session)
    (hcollected : w'.collected = w.collected)
    (hstream : w'.buffer ++ w'.future = w.buffer ++ w.future) : Sim w' c pending := by
  cases h with
  | between hnone =>
      have hconn : w.conn = w'.conn := by rw [Wire.conn, Wire.conn, hphase, hsession, hstream]
      rw [hconn]
      exact Sim.between (hcollected.trans hnone)
  | closed _ hclosed hnone hc =>
      exact Sim.closed _ (hphase.trans hclosed) (hcollected.trans hnone) hc
  | within _ line rest collected hsome hp hphase' hsession' hline hopens hdata =>
      refine Sim.within _ line rest collected (hcollected.trans hsome) ?_
        (hphase'.trans hphase.symm) (hsession'.trans hsession.symm) hline hopens ?_
      · rw [hphase]
        exact hp
      · rw [hstream]
        exact hdata

/-- **What a step preserves.** -/
theorem Tracks.step {a : Label} (h : Tracks env cfg handshake c l w)
    (hstep : WireStep env cfg handshake w a w') : Tracks env cfg handshake c (l ++ [a]) w' := by
  obtain ⟨hend, ms, c', pending, hrun, hev, hsim⟩ := h
  rw [Tracks, List.flatMap_append, List.flatMap_singleton]
  cases hstep with
  | arrives n hpos hn =>
      refine ⟨fun hended => ?_, ms, c', pending, hrun, ?_, hsim.arrives rfl rfl rfl ?_⟩
      · rw [hend hended, List.drop_nil]
      · rw [hev]
        exact List.append_nil _
      · rw [List.append_assoc, List.take_append_drop]
  | ends hfuture hended =>
      refine ⟨fun _ => hfuture, ms, c', pending, hrun, ?_, hsim.arrives rfl rfl rfl rfl⟩
      rw [hev]
      exact List.append_nil _
  | acts stamp given events w' hshakes hact =>
      obtain ⟨ms', c'', pending', hrun', hev', hsim'⟩ := act_follows hsim hend hshakes hact
      refine ⟨(act_remaining hend hshakes hact).2, ms ++ ms', c'', pending',
        hrun.append hrun', ?_, hsim'⟩
      rw [hev, List.append_assoc, List.flatMap_append, List.append_assoc, ← hev']
      rfl

/-- **What a run preserves.** -/
theorem Tracks.run (hrun : Run (WireStep env cfg handshake) (Wire.of c) l w) :
    Tracks env cfg handshake c l w := by
  induction hrun with
  | nil =>
      refine ⟨fun hended => ?_, [], c, [], Run.nil, rfl, Sim.between rfl⟩
      cases hended
  | snoc hrun hstep ih => exact ih.step hstep

/-- What has been observed of a session that has ended. -/
theorem Tracks.of_closed (h : Tracks env cfg handshake c l w) (hclosed : w.phase = .closed) :
    ∃ ms c', Run (WholeStep env cfg handshake) c ms c' ∧ c'.phase = .closed
      ∧ l.flatMap Label.events = ms.flatMap Move.events := by
  obtain ⟨-, ms, c', pending, hms, hev, hsim⟩ := h
  cases hsim with
  | between hnone => exact ⟨ms, _, hms, hclosed, hev.trans (List.append_nil _)⟩
  | closed _ _ hnone hc => exact ⟨ms, c', hms, hc, hev.trans (List.append_nil _)⟩
  | within _ line rest collected hsome hp hphase hsession hline hopens hdata =>
      rw [hclosed] at hp
      rcases hp with hp | hp <;> cases hp

/-- **A step leaves less to be done.** -/
theorem step_remaining {a : Label} (hend : w.ended = true → w.future = [])
    (hstep : WireStep env cfg handshake w a w') :
    w'.remaining handshake < w.remaining handshake := by
  cases hstep with
  | arrives n hpos hn =>
      simp only [Wire.remaining, List.length_append, List.length_take, List.length_drop]
      omega
  | ends hfuture hended =>
      simp only [Wire.remaining, hended, if_true, Bool.false_eq_true, if_false]
      omega
  | acts stamp given events w' hshakes hact => exact (act_remaining hend hshakes hact).1

theorem length_le_remaining (hrun : Run (WireStep env cfg handshake) (Wire.of c) l w) :
    l.length + w.remaining handshake ≤ (Wire.of c).remaining handshake :=
  hrun.length_add_le (Wire.remaining handshake)
    (fun _ _ _ _ hpre hstep => step_remaining (Tracks.run hpre).1 hstep)

/-- A session that waits for a line goes on when the line is there, and the stream
    brings it or ends. -/
theorem exists_step (env : Env) (cfg : SmtpConfig) (handshake : Option Bytes)
    (hp : w.phase ≠ .closed) : ∃ a w', WireStep env cfg handshake w a w' := by
  by_cases hfuture : w.future = []
  · cases hended : w.ended with
    | false => exact ⟨_, _, WireStep.ends hfuture hended⟩
    | true =>
        obtain ⟨⟨events, w'⟩, hact⟩ : ∃ p, act env cfg sampleStamp handshake w = some p := by
          have hready : awaitLine w.buffer w.ended = some (readLine w.buffer) :=
            if_pos (Or.inr hended)
          cases hphase : w.phase with
          | closed => exact absurd hphase hp
          | plain | tls =>
              simp only [act, hphase, hready]
              exact ⟨_, rfl⟩
          | upgrading =>
              simp only [act, hphase, connStep, Wire.conn]
              cases handshake <;> exact ⟨_, rfl⟩
          | fresh | tlsFresh =>
              simp only [act, hphase, connStep, Wire.conn]
              exact ⟨_, rfl⟩
        exact ⟨_, _, WireStep.acts sampleStamp handshake events w'
          (Shakes.given (fun _ => hfuture)) hact⟩
  · exact ⟨_, _, WireStep.arrives w.future.length (List.length_pos_of_ne_nil hfuture) (le_refl _)⟩

/-! ## What the whole stream does is observed -/

/-- Some events are observed on the way from a wire to another. -/
def Shows (env : Env) (cfg : SmtpConfig) (handshake : Option Bytes) (w : Wire)
    (events : List Event) (w' : Wire) : Prop :=
  ∃ l, Run (WireStep env cfg handshake) w l w' ∧ l.flatMap Label.events = events

theorem Shows.trans {w'' : Wire} {events events' : List Event}
    (h : Shows env cfg handshake w events w') (h' : Shows env cfg handshake w' events' w'') :
    Shows env cfg handshake w (events ++ events') w'' := by
  obtain ⟨l, hrun, rfl⟩ := h
  obtain ⟨l', hrun', rfl⟩ := h'
  exact ⟨l ++ l', hrun.append hrun', List.flatMap_append⟩

/-- The whole stream has arrived. -/
def Settled (w : Wire) : Prop := w.future = [] ∧ w.ended = true

theorem Shows.act {events : List Event} (hsettled : Settled w)
    (h : SmtpWire.act env cfg stamp handshake w = some (events, w')) :
    Shows env cfg handshake w events w' :=
  ⟨_, Run.single (WireStep.acts stamp handshake events w' (Shakes.given (fun _ => hsettled.1)) h),
    List.append_nil _⟩

/-- The whole stream arrives. -/
theorem shows_settled (env : Env) (cfg : SmtpConfig) (handshake : Option Bytes)
    (hended : w.ended = false) : Shows env cfg handshake w []
      { w with buffer := w.buffer ++ w.future, future := [], ended := true } := by
  have harrived : Shows env cfg handshake w []
      { w with buffer := w.buffer ++ w.future, future := [] } := by
    obtain ⟨phase, s, collected, buffer, future, ended⟩ := w
    cases future with
    | nil =>
        refine ⟨[], ?_, rfl⟩
        rw [List.append_nil]
        exact Run.nil
    | cons b future =>
        have hstep : WireStep env cfg handshake ⟨phase, s, collected, buffer, b :: future, ended⟩ _
            _ := WireStep.arrives (b :: future).length (Nat.succ_pos _) (le_refl _)
        simp only [List.take_length, List.drop_length] at hstep
        exact ⟨_, Run.single hstep, rfl⟩
  exact harrived.trans ⟨_, Run.single (WireStep.ends rfl hended), rfl⟩

/-- A wire whose stream has arrived has a line for a session that waits. -/
theorem Settled.act (h : Settled w) (hp : w.phase = .plain ∨ w.phase = .tls) :
    SmtpWire.act env cfg stamp handshake w = some (take env cfg stamp w (readLine w.buffer)) := by
  have hready : awaitLine w.buffer w.ended = some (readLine w.buffer) := if_pos (Or.inr h.2)
  rcases hp with hp | hp
  · simp only [SmtpWire.act, hp, hready]
    rfl
  · simp only [SmtpWire.act, hp, hready]
    rfl

theorem Settled.stream (h : Settled w) : w.buffer ++ w.future = w.buffer := by
  rw [h.1, List.append_nil]

/-- A message that has arrived is read to its end. -/
theorem message_shown (env : Env) (cfg : SmtpConfig) (stamp : Stamp) (handshake : Option Bytes)
    (n : Nat) : ∀ (w : Wire) (collected : Bytes), w.remaining handshake ≤ n → Settled w →
      w.collected = some collected → (w.phase = .plain ∨ w.phase = .tls) →
      (∀ bytes rest, readDataFrom collected w.buffer = .ok (bytes, rest) →
        Shows env cfg handshake w
          (.body bytes :: (deliver cfg (parseEmail env stamp bytes w.session.envelope)
            ++ [reply "250 OK: queued"]))
          { w with session := w.session.reset, collected := none, buffer := rest })
      ∧ ∀ e, readDataFrom collected w.buffer = .error e →
        ∃ w', Shows env cfg handshake w [] w' ∧ w'.phase = .closed := by
  induction n with
  | zero =>
      intro w collected hn _ _ hp
      have hrank := rank_pos handshake hp
      rw [Wire.remaining] at hn
      omega
  | succ n ih =>
      intro w collected hn hsettled hsome hp
      have hread : readLine (w.buffer ++ w.future)
          = (readLine w.buffer).map (fun p => (p.1, p.2 ++ w.future)) :=
        awaitLine_ahead (fun _ => hsettled.1) (if_pos (Or.inr hsettled.2))
      have hact : SmtpWire.act env cfg stamp handshake w
          = some (message env cfg stamp w collected (readLine w.buffer)) := by
        rw [hsettled.act hp, take, hsome]
      have hadv := message_advances env cfg stamp handshake hsome hp
      rcases message_cases env cfg stamp collected hread with
        ⟨e, hfail, hmsg⟩ | ⟨rest, hfull, hmsg⟩ | ⟨more, rest, hmore, hmsg⟩
      · rw [hsettled.stream] at hfail
        rw [hmsg] at hact
        refine ⟨fun bytes rest h => ?_, fun e' _ => ⟨_, Shows.act hsettled hact, rfl⟩⟩
        rw [hfail] at h
        cases h
      · rw [hsettled.stream, hsettled.1, List.append_nil] at hfull
        rw [hmsg] at hact
        refine ⟨fun bytes rest' h => ?_, fun e h => ?_⟩
        · rw [hfull] at h
          cases h
          exact Shows.act hsettled hact
        · rw [hfull] at h
          cases h
      · rw [hsettled.stream, hsettled.1, List.append_nil] at hmore
        rw [hmsg] at hact hadv
        have hless : ({ w with collected := some more, buffer := rest } : Wire).remaining handshake
            < w.remaining handshake := hadv.remaining
        obtain ⟨hok, herror⟩ := ih { w with collected := some more, buffer := rest } more
          (by omega) hsettled rfl hp
        rw [hmore]
        refine ⟨fun bytes rest' h => (Shows.act hsettled hact).trans (hok bytes rest' h),
          fun e h => ?_⟩
        obtain ⟨w', hshows, hclosed⟩ := herror e h
        exact ⟨w', (Shows.act hsettled hact).trans hshows, hclosed⟩

/-- A wire whose stream has arrived and the connection with the stream. -/
def Stands (w : Wire) (c : Conn) : Prop :=
  w.phase = .closed ∧ c.phase = .closed ∨ w.collected = none ∧ w.conn = c ∧ Settled w

/-- A command is shown where the whole stream has arrived. -/
theorem command_shown (env : Env) (cfg : SmtpConfig) (stamp : Stamp) (handshake : Option Bytes)
    (hnone : w.collected = none) (hsettled : Settled w)
    (hp : w.phase = .plain ∨ w.phase = .tls) {r : Reaction}
    (hr : processCommand env cfg stamp w.session w.buffer = r) :
    ∃ w', Shows env cfg handshake w (r.events ++ extra w.phase r.result) w'
      ∧ Stands w' ⟨next cfg w.phase r.result, r.session, r.rest⟩ := by
  have hact : SmtpWire.act env cfg stamp handshake w
      = some (command env cfg stamp w (readLine w.buffer)) := by
    rw [hsettled.act hp, take, hnone]
  rw [processCommand] at hr
  cases hread : readLine w.buffer with
  | error e =>
      rw [hread] at hr hact
      subst hr
      obtain ⟨hclosed, hextra⟩ := next_error cfg w.phase e
      refine ⟨{ w with phase := .closed }, ?_, Or.inl ⟨rfl, hclosed⟩⟩
      show Shows env cfg handshake w ([] ++ extra w.phase (.error e)) _
      rw [hextra]
      exact Shows.act hsettled hact
  | ok p =>
      obtain ⟨line, rest⟩ := p
      rw [hread] at hr hact
      dsimp only at hr
      subst hr
      rw [command] at hact
      by_cases hopens : OpensData w.session line
      · rw [if_pos hopens] at hact
        have hstart : Settled { w with collected := some [], buffer := rest } := hsettled
        obtain ⟨hok, herror⟩ := message_shown env cfg stamp handshake _
          { w with collected := some [], buffer := rest } [] (le_refl _) hstart rfl hp
        have hline : processLine env cfg stamp w.session line rest
            = { interpret env cfg stamp line rest w.session with
                events := .read line :: (interpret env cfg stamp line rest w.session).events } := by
          rw [processLine, if_neg hopens.line_ne]
        cases hdata : readData rest with
        | error e =>
            obtain ⟨w', hshows, hclosed'⟩ := herror e hdata
            obtain ⟨hclosed, hextra⟩ := next_error cfg w.phase e
            have hturn : interpret env cfg stamp line rest w.session
                = ⟨⟨w.session, [reply startData], .error e⟩, rest⟩ := by
              rw [hopens.interpret_data, hdata]
            rw [hline, hturn]
            refine ⟨w', ?_, Or.inl ⟨hclosed', hclosed⟩⟩
            show Shows env cfg handshake w
              ([.read line, reply startData] ++ extra w.phase (.error e)) w'
            rw [hextra]
            exact (Shows.act hsettled hact).trans hshows
        | ok q =>
            obtain ⟨bytes, rest'⟩ := q
            obtain ⟨hnext, hextra⟩ := next_continue cfg hp
            rw [hline, hopens.interpret_eq hdata]
            refine ⟨{ w with session := w.session.reset, collected := none, buffer := rest' },
              ?_, Or.inr ⟨rfl, ?_, hsettled⟩⟩
            · show Shows env cfg handshake w (.read line :: ([reply startData, .body bytes]
                ++ deliver cfg (parseEmail env stamp bytes w.session.envelope)
                ++ [reply "250 OK: queued"]) ++ extra w.phase (.ok .continue)) _
              rw [hextra, List.append_nil]
              have hshows := (Shows.act hsettled hact).trans (hok bytes rest' hdata)
              simpa using hshows
            · show Conn.mk w.phase w.session.reset (rest' ++ w.future)
                = ⟨next cfg w.phase (.ok .continue), _, _⟩
              rw [hnext, hsettled.1, List.append_nil]
      · rw [if_neg hopens] at hact
        refine ⟨_, Shows.act hsettled hact, Or.inr ⟨hnone, ?_, hsettled⟩⟩
        show Conn.mk _ _ (_ ++ w.future) = _
        rw [hsettled.1, List.append_nil]

/-- A move that reads nothing is shown. -/
theorem quiet_shown {given : Option Bytes} {events : List Event} {c' : Conn}
    (hnone : w.collected = none) (hsettled : Settled w)
    (hp : w.phase ≠ .plain ∧ w.phase ≠ .tls) (hshakes : Shakes handshake w given)
    (h : connStep env cfg given stamp w.conn = some (events, c')) :
    ∃ w', Shows env cfg handshake w events w' ∧ Stands w' c' := by
  have hact : SmtpWire.act env cfg stamp given w = some (events, w.moved c') := by
    rw [act_of_quiet given hp, h]
    rfl
  have hshows : Shows env cfg handshake w events (w.moved c') :=
    ⟨_, Run.single (WireStep.acts stamp given events _ hshakes hact), List.append_nil _⟩
  rcases quiet_cases handshake hp h with ⟨input, -, -, rfl⟩ | ⟨hsame, hne, -⟩
  · -- the new stream arrives as well
    rw [moved_upgraded] at hshows
    have harrives := shows_settled env cfg handshake (w := Wire.of (upgraded w.conn input)) rfl
    refine ⟨_, List.append_nil events ▸ hshows.trans harrives, Or.inr ⟨rfl, ?_, rfl, rfl⟩⟩
    exact congrArg (Conn.mk _ _) (List.append_nil _)
  · rw [moved_same hne] at hshows
    exact ⟨_, hshows, Or.inr ⟨hnone, hsame.symm, hsettled⟩⟩

/-- **A move is shown** where the whole stream has arrived. -/
theorem move_shown {m : Move} {c' : Conn} (hw : Stands w c)
    (h : WholeStep env cfg handshake c m c') :
    ∃ w', Shows env cfg handshake w m.events w' ∧ Stands w' c' := by
  rcases hw with ⟨-, hclosed⟩ | ⟨hnone, rfl, hsettled⟩
  · have hphases := step_phases h.step
    rw [hclosed] at hphases
    simp at hphases
  · rcases h with ⟨-, -, stamp, hstep⟩ | ⟨hphase, hleft, -, -, stamp, hstep⟩
    · by_cases hp : w.phase = .plain ∨ w.phase = .tls
      · rw [connStep_loop handshake hp rfl, Option.some.injEq, Prod.mk.injEq] at hstep
        obtain ⟨hev, rfl⟩ := hstep
        rw [← hev]
        refine command_shown env cfg stamp handshake hnone hsettled hp ?_
        show _ = processCommand env cfg stamp w.session (w.buffer ++ w.future)
        rw [hsettled.stream]
      · exact quiet_shown hnone hsettled (not_or.mp hp) (Shakes.given (fun _ => hsettled.1)) hstep
    · have hphase : w.phase = .upgrading := hphase
      exact quiet_shown hnone hsettled (by rw [hphase]; decide) (Shakes.broken hphase hleft) hstep

/-- The moves of a connection are shown by a wire. -/
theorem run_shown {ms : List Move} {c' : Conn} (h : Run (WholeStep env cfg handshake) c ms c') :
    ∃ w, Shows env cfg handshake (Wire.of c) (ms.flatMap Move.events) w ∧ Stands w c' := by
  induction h with
  | nil =>
      refine ⟨_, shows_settled env cfg handshake rfl, Or.inr ⟨rfl, ?_, rfl, rfl⟩⟩
      exact congrArg (Conn.mk _ _) (List.append_nil _)
  | snoc hrun hstep ih =>
      obtain ⟨w, hshows, hstands⟩ := ih
      obtain ⟨w', hshows', hstands'⟩ := move_shown hstands hstep
      refine ⟨w', ?_, hstands'⟩
      rw [List.flatMap_append, List.flatMap_singleton]
      exact hshows.trans hshows'

end

/-- **It does not matter how a stream arrives**, but for what is left behind STARTTLS.
    However it is cut into pieces, and whenever they arrive, what is observed of a
    session is what a connection does with the whole stream before it, up to the
    invitation to a message that is still being read; and of the sessions that have
    ended the same is observed.  Plaintext that is left behind STARTTLS may be
    dropped, or break the handshake. -/
theorem arrival_immaterial (env : Env) (cfg : SmtpConfig) (handshake : Option Bytes) (c : Conn) :
    (∀ l w, Run (WireStep env cfg handshake) (Wire.of c) l w →
        ∃ ms c' pending, Run (WholeStep env cfg handshake) c ms c'
          ∧ l.flatMap Label.events = ms.flatMap Move.events ++ pending
          ∧ (pending = [] ∨ ∃ line, pending = [.read line, reply startData]
            ∧ OpensData c'.session line))
      ∧ ∀ events, (∃ l w, Run (WireStep env cfg handshake) (Wire.of c) l w ∧ w.phase = .closed
          ∧ l.flatMap Label.events = events)
        ↔ ∃ ms c', Run (WholeStep env cfg handshake) c ms c' ∧ c'.phase = .closed
          ∧ ms.flatMap Move.events = events := by
  refine ⟨fun l w hrun => ?_, fun events => ⟨?_, ?_⟩⟩
  · obtain ⟨-, ms, c', pending, hms, hev, hsim⟩ := Tracks.run hrun
    refine ⟨ms, c', pending, hms, hev, ?_⟩
    cases hsim with
    | between hnone => exact Or.inl rfl
    | closed _ hclosed hnone hc => exact Or.inl rfl
    | within _ line rest collected hsome hp hphase hsession hline hopens hdata =>
        exact Or.inr ⟨line, rfl, hopens⟩
  · rintro ⟨l, w, hrun, hclosed, rfl⟩
    obtain ⟨ms, c', hms, hc, hev⟩ := (Tracks.run hrun).of_closed hclosed
    exact ⟨ms, c', hms, hc, hev.symm⟩
  · rintro ⟨ms, c', hms, hclosed, rfl⟩
    obtain ⟨w, ⟨l, hrun, hev⟩, hstands⟩ := run_shown hms
    rcases hstands with ⟨hw, -⟩ | ⟨-, rfl, -⟩
    · exact ⟨l, w, hrun, hw, hev⟩
    · exact ⟨l, w, hrun, hclosed, hev⟩

/-- **Every session comes to its end.**  However the stream of a client is cut into
    pieces, and whatever it says, a session takes at most three steps for each byte
    of its streams and a few more, and where nothing more can happen it is closed. -/
theorem sessions_end {env : Env} {cfg : SmtpConfig} {handshake : Option Bytes} {c : Conn}
    {l : List Label} {w : Wire} (hrun : Run (WireStep env cfg handshake) (Wire.of c) l w) :
    l.length ≤ 3 * (c.input.length + (handshake.getD []).length) + 6
      ∧ ((∀ a w', ¬ WireStep env cfg handshake w a w') → w.phase = .closed) := by
  refine ⟨?_, fun hstuck => ?_⟩
  · have hlen := length_le_remaining hrun
    have hrank : rank handshake c.phase ≤ 3 * (handshake.getD []).length + 5 := by
      cases c.phase <;> simp only [rank] <;> omega
    simp only [Wire.remaining, Wire.of, List.length_nil, Option.isSome_none, Bool.false_eq_true,
      if_false] at hlen
    omega
  · by_contra hopen
    obtain ⟨a, w', hstep⟩ := exists_step env cfg handshake hopen
    exact hstuck a w' hstep

/-- A QUIT that arrives in two pieces. -/
def quitInTwo : List Label :=
  [.acts [reply greeting], .arrives 2, .arrives 4,
    .acts [.read "QUIT\r\n".toList, reply "221 Bye"]]

/-- Nothing is configured. -/
def plainConfig : SmtpConfig := ⟨[], false, false, none, none, false⟩

theorem sessions_end_quit : ∃ w, Run (WireStep sampleEnv plainConfig none)
      (Wire.of (Conn.start plainConfig (encode "QUIT\r\n".toList))) quitInTwo w
    ∧ w.phase = .closed ∧ quitInTwo.length ≤ 24 := by
  have hrun : ∃ w, Run (WireStep sampleEnv plainConfig none)
      (Wire.of (Conn.start plainConfig (encode "QUIT\r\n".toList))) quitInTwo w
      ∧ w.phase = .closed := by
    have hgiven : ∀ w : Wire, w.phase ≠ .upgrading → Shakes none w none :=
      fun w h => Shakes.given (fun hphase => absurd hphase h)
    refine ⟨_, (((Run.single (WireStep.acts sampleStamp none _ _ (hgiven _ ?_) rfl)).snoc
      (WireStep.arrives 2 (by decide) (by decide))).snoc
      (WireStep.arrives 4 (by decide) (by decide))).snoc
      (WireStep.acts sampleStamp none _ _ (hgiven _ ?_) rfl), rfl⟩
    · decide
    · decide
  obtain ⟨w, hrun, hclosed⟩ := hrun
  exact ⟨w, hrun, hclosed, (sessions_end hrun).1⟩

end SmtpWire
