import SmtpSink.RunProofs
import SmtpSink.TurnProofs

/-! # Connections — plaintext, SMTPS, and the STARTTLS upgrade

    A connection greets its client, then calls `processCommand` until it ends.
    A plaintext connection may be upgraded: the buffered plaintext is dropped,
    the handshake gives a new stream, and the session goes on over it after a
    reset.  An SMTPS connection starts in the second loop.

    A run of a connection is a `Run` of `Step`; its labels are moves, which
    carry the connection before and after and what was observed in between. -/

namespace SmtpConnection

open Utf8 Unicode SmtpReader SmtpRecord SmtpSession SmtpTurn Runs

/-- Where the code of a connection stands. -/
inductive Phase where
  /-- `handle_connection`, before its greeting -/
  | fresh
  /-- the loop of `handle_connection` -/
  | plain
  /-- the TLS handshake after STARTTLS -/
  | upgrading
  /-- `handle_tls_session`, before its greeting -/
  | tlsFresh
  /-- the loop of `handle_tls_session` -/
  | tls
  | closed
  deriving DecidableEq

/-- A connection: where it stands, its session, and what is left of the stream
    it reads. -/
structure Conn where
  phase : Phase
  session : Session
  input : Bytes

/-- A new plaintext connection. -/
def Conn.start (cfg : SmtpConfig) (input : Bytes) : Conn :=
  ⟨.fresh, Session.new cfg.authRequired false, input⟩

/-- A new SMTPS connection, after its handshake. -/
def Conn.startTls (cfg : SmtpConfig) (input : Bytes) : Conn :=
  ⟨.tlsFresh, Session.new cfg.authRequired true, input⟩

/-- A connection at its beginning, of either kind. -/
def Initial (cfg : SmtpConfig) (c : Conn) : Prop :=
  ∃ input, c = Conn.start cfg input ∨ c = Conn.startTls cfg input

/-- The greeting, once over plaintext or SMTPS. -/
def greeting : String := "220 localhost ESMTP smtp-sink"

/-- Where the plaintext loop goes after a command. -/
def plainNext (cfg : SmtpConfig) : Except Fault CommandResult → Phase
  | .ok .continue => .plain
  | .ok .quit => .closed
  | .ok .startTls => if cfg.tlsAcceptor then .upgrading else .plain
  | .error _ => .closed

/-- Where the TLS loop goes after a command. -/
def tlsNext : Except Fault CommandResult → Phase
  | .ok .continue => .tls
  | .ok .quit => .closed
  | .ok .startTls => .tls
  | .error _ => .closed

/-- What the TLS loop writes after a command. -/
def tlsExtra : Except Fault CommandResult → List Event
  | .ok .startTls => [reply "503 TLS already active"]
  | _ => []

theorem plainNext_cases (cfg : SmtpConfig) (result : Except Fault CommandResult) :
    plainNext cfg result = .plain ∨ plainNext cfg result = .upgrading
      ∨ plainNext cfg result = .closed := by
  cases result with
  | error e => exact Or.inr (Or.inr rfl)
  | ok r =>
      cases r with
      | «continue» => exact Or.inl rfl
      | quit => exact Or.inr (Or.inr rfl)
      | startTls =>
          rw [plainNext]
          split_ifs
          · exact Or.inr (Or.inl rfl)
          · exact Or.inl rfl

theorem tlsNext_cases (result : Except Fault CommandResult) :
    tlsNext result = .tls ∨ tlsNext result = .closed := by
  cases result with
  | error e => exact Or.inr rfl
  | ok r =>
      cases r with
      | quit => exact Or.inr rfl
      | «continue» | startTls => exact Or.inl rfl

/-- The plaintext loop does not lead into the TLS loop. -/
theorem plainNext_ne_tls (cfg : SmtpConfig) (result : Except Fault CommandResult) :
    plainNext cfg result ≠ .tls := by
  cases result with
  | error e => simp [plainNext]
  | ok c =>
      cases c with
      | startTls =>
          rw [plainNext]
          split_ifs
          · decide
          · decide
      | «continue» | quit => simp [plainNext]

/-- The TLS loop adds to nothing but an upgrade. -/
theorem tlsExtra_eq_nil {result : Except Fault CommandResult} (h : result ≠ .ok .startTls) :
    tlsExtra result = [] := by
  cases result with
  | error e => rfl
  | ok c =>
      cases c with
      | startTls => exact absurd rfl h
      | «continue» | quit => rfl

/-- A connection after its TLS handshake, which gives it a new stream. -/
def upgraded (c : Conn) (input : Bytes) : Conn :=
  ⟨.tlsFresh, { c.session with tlsActive := true }.reset, input⟩

/-- One step of the code of a connection.  `handshake` is the stream a TLS
    handshake gives, if it succeeds. -/
def connStep (env : Env) (cfg : SmtpConfig) (handshake : Option Bytes) (stamp : Stamp)
    (c : Conn) : Option (List Event × Conn) :=
  match c.phase with
  | .fresh => some ([reply greeting], { c with phase := .plain })
  | .plain =>
      let r := processCommand env cfg stamp c.session c.input
      some (r.events, ⟨plainNext cfg r.result, r.session, r.rest⟩)
  | .upgrading =>
      match handshake with
      | some input => some ([], upgraded c input)
      | none => some ([], { c with phase := .closed })
  | .tlsFresh =>
      some (if c.session.mailFrom.isNone && c.session.rcptTo.isEmpty then [reply greeting]
        else [], { c with phase := .tls })
  | .tls =>
      let r := processCommand env cfg stamp c.session c.input
      some (r.events ++ tlsExtra r.result, ⟨tlsNext r.result, r.session, r.rest⟩)
  | .closed => none

/-- The label of a step: the connection before and after, and what was
    observed. -/
structure Move where
  before : Conn
  events : List Event
  after : Conn

/-- The steps of a connection, for any handshake and any clock. -/
def Step (env : Env) (cfg : SmtpConfig) (c : Conn) (m : Move) (c' : Conn) : Prop :=
  m.before = c ∧ m.after = c'
    ∧ ∃ handshake stamp, connStep env cfg handshake stamp c = some (m.events, c')

/-- The steps of a connection whose TLS handshake, if it comes to one, gives a
    certain stream. -/
def OwnStep (env : Env) (cfg : SmtpConfig) (handshake : Option Bytes) (c : Conn) (m : Move)
    (c' : Conn) : Prop :=
  m.before = c ∧ m.after = c' ∧ ∃ stamp, connStep env cfg handshake stamp c = some (m.events, c')

theorem OwnStep.step {env : Env} {cfg : SmtpConfig} {handshake : Option Bytes} {c c' : Conn}
    {m : Move} (h : OwnStep env cfg handshake c m c') : Step env cfg c m c' := by
  obtain ⟨hb, ha, stamp, hs⟩ := h
  exact ⟨hb, ha, handshake, stamp, hs⟩

/-- The phases a step goes between. -/
theorem step_phases {env : Env} {cfg : SmtpConfig} {c c' : Conn} {m : Move}
    (h : Step env cfg c m c') :
    c.phase = .fresh ∧ c'.phase = .plain
    ∨ c.phase = .plain ∧ (c'.phase = .plain ∨ c'.phase = .upgrading ∨ c'.phase = .closed)
    ∨ c.phase = .upgrading ∧ (c'.phase = .tlsFresh ∨ c'.phase = .closed)
    ∨ c.phase = .tlsFresh ∧ c'.phase = .tls
    ∨ c.phase = .tls ∧ (c'.phase = .tls ∨ c'.phase = .closed) := by
  obtain ⟨-, -, handshake, stamp, hs⟩ := h
  cases hp : c.phase with
  | fresh =>
      simp only [connStep, hp, Option.some.injEq, Prod.mk.injEq] at hs
      simp [← hs.2]
  | plain =>
      simp only [connStep, hp, Option.some.injEq, Prod.mk.injEq] at hs
      simp [← hs.2, plainNext_cases]
  | upgrading =>
      cases handshake with
      | none =>
          simp only [connStep, hp, Option.some.injEq, Prod.mk.injEq] at hs
          simp [← hs.2]
      | some input =>
          simp only [connStep, hp, Option.some.injEq, Prod.mk.injEq] at hs
          simp [← hs.2, upgraded]
  | tlsFresh =>
      simp only [connStep, hp, Option.some.injEq, Prod.mk.injEq] at hs
      simp [← hs.2]
  | tls =>
      simp only [connStep, hp, Option.some.injEq, Prod.mk.injEq] at hs
      simp [← hs.2, tlsNext_cases]
  | closed =>
      simp only [connStep, hp] at hs
      cases hs

/-- Only the upgrade depends on the handshake. -/
theorem own_of_step {env : Env} {cfg : SmtpConfig} {c c' : Conn} {m : Move}
    (handshake : Option Bytes) (h : Step env cfg c m c') (hp : c.phase ≠ .upgrading) :
    OwnStep env cfg handshake c m c' := by
  obtain ⟨hb, ha, handshake', stamp, hs⟩ := h
  refine ⟨hb, ha, stamp, ?_⟩
  cases hphase : c.phase with
  | upgrading => exact absurd hphase hp
  | fresh | plain | tlsFresh | tls | closed =>
      simp only [connStep, hphase] at hs ⊢
      exact hs

/-- A connection in one of its loops makes a move. -/
theorem exists_ownStep (env : Env) (cfg : SmtpConfig) (handshake : Option Bytes) {c : Conn}
    (hp : c.phase = .plain ∨ c.phase = .tls) : ∃ m c', OwnStep env cfg handshake c m c' := by
  obtain ⟨p, s, input⟩ := c
  rcases hp with rfl | rfl
  · exact ⟨⟨_, _, _⟩, _, rfl, rfl, sampleStamp, rfl⟩
  · exact ⟨⟨_, _, _⟩, _, rfl, rfl, sampleStamp, rfl⟩

/-- The line a move consumes. -/
def Move.line? (m : Move) : Option Text :=
  match m.events with
  | .read line :: _ => some line
  | _ => none

/-- The command a move carries out. -/
def Move.verb? (m : Move) : Option Verb :=
  m.line?.bind (SmtpTurn.verb? m.before.session)

/-- The server writes a line during a move. -/
def Move.Says (m : Move) (text : String) : Prop := reply text ∈ m.events

/-- The event is the writing of a given text. -/
def isWrite (text : Text) : Event → Bool
  | .write t => t == text
  | _ => false

theorem isWrite_iff {text : Text} {e : Event} : isWrite text e = true ↔ e = .write text := by
  cases e with
  | write t =>
      rw [isWrite, beq_iff_eq]
      exact ⟨congrArg Event.write, fun h => by injection h⟩
  | read | body | forward | push => exact ⟨fun h => (nomatch h), fun h => (nomatch h)⟩

instance (m : Move) (text : String) : Decidable (m.Says text) :=
  decidable_of_iff (m.events.any (isWrite (text.toList ++ ['\r', '\n'])) = true) (by
    rw [List.any_eq_true]
    constructor
    · rintro ⟨e, he, hw⟩
      rwa [isWrite_iff.mp hw] at he
    · intro h
      exact ⟨_, h, isWrite_iff.mpr rfl⟩)

/-- The record an event stores. -/
def pushedRecord? : Event → Option MailRecord
  | .push record => some record
  | .read _ | .write _ | .body _ | .forward _ => none

/-- The records a move stores, in order. -/
def Move.pushed (m : Move) : List MailRecord := m.events.filterMap pushedRecord?

/-- The record an event hands to the forwarder. -/
def forwardedRecord? : Event → Option MailRecord
  | .forward record => some record
  | .read _ | .write _ | .body _ | .push _ => none

/-- The records a move hands to the forwarder, in order. -/
def Move.forwarded (m : Move) : List MailRecord := m.events.filterMap forwardedRecord?

theorem Move.mem_pushed {m : Move} {record : MailRecord} :
    record ∈ m.pushed ↔ .push record ∈ m.events := by
  rw [Move.pushed, List.mem_filterMap]
  constructor
  · rintro ⟨e, he, h⟩
    cases e with
    | push r =>
        obtain rfl := Option.some.inj h
        exact he
    | read | write | body | forward => exact nomatch h
  · exact fun h => ⟨_, h, rfl⟩

/-- What a move hands to the store: the envelopes and the bytes of its messages. -/
def Move.handed (m : Move) : List (Envelope × Bytes) :=
  m.pushed.map (fun record => (m.before.session.envelope, record.raw))

/-- The message a move reads. -/
def Move.body? (m : Move) : Option Bytes :=
  m.events.findSome? (fun e =>
    match e with
    | .body data => some data
    | _ => none)

theorem Move.mem_of_body? {m : Move} {data : Bytes} (h : m.body? = some data) :
    .body data ∈ m.events := by
  obtain ⟨e, he, hdata⟩ := List.exists_of_findSome?_eq_some h
  cases e with
  | body d =>
      obtain rfl := Option.some.inj hdata
      exact he
  | read | write | forward | push => exact nomatch hdata

/-- The first `n` moves of a connection with a given handshake and clock. -/
def moves (env : Env) (cfg : SmtpConfig) (handshake : Option Bytes) (stamp : Stamp) :
    Nat → Conn → List Move × Conn :=
  iterate (fun c =>
    match connStep env cfg handshake stamp c with
    | none => none
    | some (events, c') => some (⟨c, events, c'⟩, c'))

theorem moves_own (env : Env) (cfg : SmtpConfig) (handshake : Option Bytes)
    (stamp : Stamp) (n : Nat) (c : Conn) :
    Run (OwnStep env cfg handshake) c (moves env cfg handshake stamp n c).1
      (moves env cfg handshake stamp n c).2 := by
  refine iterate_run ?_ n c
  intro s a t h
  cases hs : connStep env cfg handshake stamp s with
  | none => rw [hs] at h; exact nomatch h
  | some p =>
      rw [hs] at h
      cases h
      exact ⟨rfl, rfl, stamp, hs⟩

theorem moves_run (env : Env) (cfg : SmtpConfig) (handshake : Option Bytes)
    (stamp : Stamp) (n : Nat) (c : Conn) :
    Run (Step env cfg) c (moves env cfg handshake stamp n c).1
      (moves env cfg handshake stamp n c).2 :=
  (moves_own env cfg handshake stamp n c).mono (fun _ _ _ h => h.step)

/-- The first `n` moves of a plaintext connection in the sample environment. -/
def sampleRun (cfg : SmtpConfig) (handshake : Option Bytes) (n : Nat) (input : Bytes) :
    List Move × Conn :=
  moves sampleEnv cfg handshake sampleStamp n (Conn.start cfg input)

theorem sampleRun_run (cfg : SmtpConfig) (handshake : Option Bytes) (n : Nat)
    (input : Bytes) :
    Run (Step sampleEnv cfg) (Conn.start cfg input) (sampleRun cfg handshake n input).1
      (sampleRun cfg handshake n input).2 :=
  moves_run _ _ _ _ _ _

/-- The last of the moves that were computed. -/
theorem sampleRun_last {cfg : SmtpConfig} {handshake : Option Bytes} {n : Nat}
    {input : Bytes} (h : (sampleRun cfg handshake (n + 1) input).1.length = n + 1) :
    Run (Step sampleEnv cfg) (Conn.start cfg input)
      ((sampleRun cfg handshake (n + 1) input).1.take n
        ++ (sampleRun cfg handshake (n + 1) input).1.get ⟨n, by omega⟩ :: [])
      (sampleRun cfg handshake (n + 1) input).2 := by
  rw [← take_append_last h]
  exact sampleRun_run cfg handshake (n + 1) input

/-! ## What a move can do -/

/-- A move that consumes a line: a turn of the session.  Only a TLS connection
    asked to start TLS would add to it, and its session is never asked. -/
structure Speaks (env : Env) (cfg : SmtpConfig) (m : Move) (line : Text) (rest : Bytes)
    (r : Reaction) : Prop where
  phase : m.before.phase = .plain ∨ m.before.phase = .tls
  read : readLine m.before.input = .ok (line, rest)
  line_ne : line ≠ []
  turn : ∃ stamp, Turn env cfg stamp line rest m.before.session r
  panics : r.result = .error .panic ↔ PanicLine m.before.session line
  events : m.events = .read line :: (r.events
    ++ if m.before.phase = .tls then tlsExtra r.result else [])
  after : m.after = ⟨if m.before.phase = .tls then tlsNext r.result
    else plainNext cfg r.result, r.session, r.rest⟩

/-- A move that consumes no line, and what it does to the session. -/
inductive Quiet (cfg : SmtpConfig) (m : Move) : Prop where
  | greets : m.before.phase = .fresh → m.events = [reply greeting] →
      m.after = { m.before with phase := .plain } → Quiet cfg m
  | upgrades (input : Bytes) : m.before.phase = .upgrading → m.events = [] →
      m.after = ⟨.tlsFresh, { m.before.session with tlsActive := true }.reset, input⟩ →
      Quiet cfg m
  | handshakeFails : m.before.phase = .upgrading → m.events = [] →
      m.after = { m.before with phase := .closed } → Quiet cfg m
  | greetsTls : m.before.phase = .tlsFresh →
      m.events = (if m.before.session.mailFrom.isNone && m.before.session.rcptTo.isEmpty
        then [reply greeting] else []) →
      m.after = { m.before with phase := .tls } → Quiet cfg m
  /-- the stream has ended or is not UTF-8 -/
  | hangsUp : (m.before.phase = .plain ∨ m.before.phase = .tls) → m.events = [] →
      m.after.phase = .closed → m.after.session = m.before.session → Quiet cfg m

/-- A move in one of the two loops is a call of `process_command`. -/
theorem Step.processes {env : Env} {cfg : SmtpConfig} {c c' : Conn} {m : Move}
    (h : Step env cfg c m c') (hp : m.before.phase = .plain ∨ m.before.phase = .tls) :
    ∃ stamp, m.events
        = (processCommand env cfg stamp m.before.session m.before.input).events
          ++ (if m.before.phase = .tls then
            tlsExtra (processCommand env cfg stamp m.before.session m.before.input).result
          else [])
      ∧ m.after = ⟨if m.before.phase = .tls then
          tlsNext (processCommand env cfg stamp m.before.session m.before.input).result
        else plainNext cfg
          (processCommand env cfg stamp m.before.session m.before.input).result,
        (processCommand env cfg stamp m.before.session m.before.input).session,
        (processCommand env cfg stamp m.before.session m.before.input).rest⟩ := by
  obtain ⟨rfl, rfl, handshake, stamp, hs⟩ := h
  refine ⟨stamp, ?_⟩
  rcases hp with hp | hp
  · have hno : m.before.phase ≠ .tls := by
      rw [hp]
      decide
    simp only [connStep, hp, Option.some.injEq, Prod.mk.injEq] at hs
    rw [if_neg hno, if_neg hno, List.append_nil]
    exact ⟨hs.1.symm, hs.2.symm⟩
  · simp only [connStep, hp, Option.some.injEq, Prod.mk.injEq] at hs
    rw [if_pos hp, if_pos hp]
    exact ⟨hs.1.symm, hs.2.symm⟩

/-- A move in one of the two loops takes the next line, if there is one. -/
theorem Step.interprets {env : Env} {cfg : SmtpConfig} {c c' : Conn} {m : Move}
    {line : Text} {rest : Bytes} (h : Step env cfg c m c')
    (hp : m.before.phase = .plain ∨ m.before.phase = .tls)
    (hr : readLine m.before.input = .ok (line, rest)) (hne : line ≠ []) :
    ∃ stamp, Speaks env cfg m line rest
      (interpret env cfg stamp line rest m.before.session) := by
  obtain ⟨stamp, he, ha⟩ := h.processes hp
  have hc : processCommand env cfg stamp m.before.session m.before.input
      = { interpret env cfg stamp line rest m.before.session with
          events := .read line
            :: (interpret env cfg stamp line rest m.before.session).events } := by
    rw [processCommand, hr]
    exact if_neg hne
  rw [hc] at he ha
  exact ⟨stamp, hp, hr, hne, ⟨stamp, interpret_turn env cfg stamp line rest m.before.session⟩,
    interpret_panics env cfg stamp line rest m.before.session, he, ha⟩

/-- A move in one of the two loops speaks, unless the stream has failed or
    ended. -/
theorem Step.loop_cases {env : Env} {cfg : SmtpConfig} {c c' : Conn} {m : Move}
    (h : Step env cfg c m c') (hp : m.before.phase = .plain ∨ m.before.phase = .tls) :
    Quiet cfg m ∨ ∃ line rest r, Speaks env cfg m line rest r := by
  obtain ⟨stamp, he, ha⟩ := h.processes hp
  rcases processCommand_cases env cfg stamp m.before.session m.before.input with
    ⟨-, hc⟩ | ⟨rest, -, hc⟩ | ⟨line, rest, hr, hne, -⟩
  · -- the stream fails
    rw [hc] at he ha
    refine Or.inl (.hangsUp hp ?_ ?_ (by rw [ha]))
    · rw [he]
      split_ifs <;> rfl
    · rw [ha]
      split_ifs <;> rfl
  · -- the stream has ended
    rw [hc] at he ha
    refine Or.inl (.hangsUp hp ?_ ?_ (by rw [ha]))
    · rw [he]
      split_ifs <;> rfl
    · rw [ha]
      split_ifs <;> rfl
  · obtain ⟨stamp, hs⟩ := h.interprets hp hr hne
    exact Or.inr ⟨line, rest, _, hs⟩

/-- **Every move either consumes one line or is quiet.** -/
theorem step_cases {env : Env} {cfg : SmtpConfig} {c c' : Conn} {m : Move}
    (h : Step env cfg c m c') :
    m.before = c ∧ m.after = c'
      ∧ (Quiet cfg m ∨ ∃ line rest r, Speaks env cfg m line rest r) := by
  refine ⟨h.1, h.2.1, ?_⟩
  cases hp : m.before.phase with
  | plain => exact h.loop_cases (Or.inl hp)
  | tls => exact h.loop_cases (Or.inr hp)
  | fresh =>
      obtain ⟨rfl, rfl, handshake, stamp, hs⟩ := h
      simp only [connStep, hp, Option.some.injEq, Prod.mk.injEq] at hs
      obtain ⟨he, ha⟩ := hs
      exact Or.inl (.greets hp he.symm ha.symm)
  | upgrading =>
      obtain ⟨rfl, rfl, handshake, stamp, hs⟩ := h
      cases handshake with
      | none =>
          simp only [connStep, hp, Option.some.injEq, Prod.mk.injEq] at hs
          obtain ⟨he, ha⟩ := hs
          exact Or.inl (.handshakeFails hp he.symm ha.symm)
      | some input =>
          simp only [connStep, hp, Option.some.injEq, Prod.mk.injEq] at hs
          obtain ⟨he, ha⟩ := hs
          exact Or.inl (.upgrades input hp he.symm ha.symm)
  | tlsFresh =>
      obtain ⟨rfl, rfl, handshake, stamp, hs⟩ := h
      simp only [connStep, hp, Option.some.injEq, Prod.mk.injEq] at hs
      obtain ⟨he, ha⟩ := hs
      exact Or.inl (.greetsTls hp he.symm ha.symm)
  | closed =>
      obtain ⟨rfl, rfl, handshake, stamp, hs⟩ := h
      simp only [connStep, hp] at hs
      exact nomatch hs

section

variable {env : Env} {cfg : SmtpConfig} {m : Move} {line : Text} {rest : Bytes}
  {r : Reaction}

theorem Speaks.line?_eq (h : Speaks env cfg m line rest r) : m.line? = some line := by
  rw [Move.line?, h.events]

theorem Speaks.verb?_eq (h : Speaks env cfg m line rest r) :
    m.verb? = SmtpTurn.verb? m.before.session line := by
  rw [Move.verb?, h.line?_eq]
  rfl

theorem Speaks.session_eq (h : Speaks env cfg m line rest r) :
    m.after.session = r.session := by
  rw [h.after]

/-- A line is taken in a loop, not on the way into one. -/
theorem Speaks.phase_ne (h : Speaks env cfg m line rest r) :
    m.before.phase ≠ .fresh ∧ m.before.phase ≠ .tlsFresh := by
  rcases h.phase with hp | hp
  · rw [hp]; decide
  · rw [hp]; decide

theorem mem_tlsExtra {result : Except Fault CommandResult} {e : Event}
    (he : e ∈ tlsExtra result) : e = reply "503 TLS already active" := by
  cases result with
  | error e => exact absurd he List.not_mem_nil
  | ok c =>
      cases c with
      | startTls => exact List.mem_singleton.mp he
      | «continue» | quit => exact absurd he List.not_mem_nil

/-- What a turn writes is written by the move. -/
theorem Speaks.mem_events (h : Speaks env cfg m line rest r) {e : Event}
    (he : e ∈ r.events) : e ∈ m.events := by
  rw [h.events]
  exact List.mem_cons_of_mem _ (List.mem_append_left _ he)

/-- What a move writes is written by its turn, but for the refusal a TLS loop
    adds. -/
theorem Speaks.of_mem_events (h : Speaks env cfg m line rest r) {e : Event}
    (he : e ∈ m.events) :
    e = .read line ∨ e ∈ r.events ∨ e = reply "503 TLS already active" := by
  rw [h.events] at he
  rcases List.mem_cons.mp he with rfl | he
  · exact Or.inl rfl
  · rcases List.mem_append.mp he with he | he
    · exact Or.inr (Or.inl he)
    · refine Or.inr (Or.inr ?_)
      split_ifs at he with htls
      · exact mem_tlsExtra he
      · exact absurd he List.not_mem_nil

/-- A reply of a move other than that refusal is a reply of its turn. -/
theorem Speaks.said (h : Speaks env cfg m line rest r) {text : String}
    (hne : text ≠ "503 TLS already active") (he : m.Says text) :
    reply text ∈ r.events := by
  rcases h.of_mem_events he with he | he | he
  · exact nomatch he
  · exact he
  · exact absurd (reply_injective he) hne

/-- A move that goes on stays in its loop and writes what its turn writes. -/
theorem Speaks.continues (h : Speaks env cfg m line rest r) (hr : r.result = .ok .continue) :
    m.after = ⟨m.before.phase, r.session, r.rest⟩ ∧ m.events = .read line :: r.events := by
  rw [h.after, h.events, hr]
  rcases h.phase with hp | hp
  · rw [hp]
    exact ⟨rfl, by simp⟩
  · rw [hp]
    exact ⟨rfl, by simp [tlsExtra]⟩

/-- A move in a loop goes on in it, ends the connection, or starts an upgrade. -/
theorem Speaks.phase_after (h : Speaks env cfg m line rest r) :
    m.after.phase = .plain ∨ m.after.phase = .tls ∨ m.after.phase = .closed
      ∨ (m.after.phase = .upgrading ∧ r.result = .ok .startTls) := by
  rw [h.after]
  dsimp only
  by_cases htls : m.before.phase = .tls
  · rw [if_pos htls]
    cases r.result with
    | error e => exact Or.inr (Or.inr (Or.inl rfl))
    | ok c =>
        cases c with
        | «continue» => exact Or.inr (Or.inl rfl)
        | quit => exact Or.inr (Or.inr (Or.inl rfl))
        | startTls => exact Or.inr (Or.inl rfl)
  · rw [if_neg htls]
    cases r.result with
    | error e => exact Or.inr (Or.inr (Or.inl rfl))
    | ok c =>
        cases c with
        | «continue» => exact Or.inl rfl
        | quit => exact Or.inr (Or.inr (Or.inl rfl))
        | startTls =>
            rw [plainNext]
            by_cases ht : cfg.tlsAcceptor = true
            · rw [if_pos ht]
              exact Or.inr (Or.inr (Or.inr ⟨rfl, rfl⟩))
            · rw [if_neg ht]
              exact Or.inl rfl

end

/-- A quiet move consumes no line. -/
theorem Quiet.line?_eq {cfg : SmtpConfig} {m : Move} (h : Quiet cfg m) :
    m.line? = none := by
  cases h with
  | greets hp hev ha => rw [Move.line?, hev]; rfl
  | upgrades input hp hev ha => rw [Move.line?, hev]
  | handshakeFails hp hev ha => rw [Move.line?, hev]
  | greetsTls hp hev ha =>
      rw [Move.line?, hev]
      split_ifs with hfresh
      · rfl
      · rfl
  | hangsUp hp hev hc hs => rw [Move.line?, hev]

/-- A quiet move leaves the envelope alone, or drops it. -/
theorem Quiet.envelope {cfg : SmtpConfig} {m : Move} (h : Quiet cfg m) :
    m.after.session.envelope = m.before.session.envelope
      ∨ m.after.session.envelope = ⟨none, []⟩ := by
  cases h with
  | greets hp hev ha => rw [ha]; exact Or.inl rfl
  | upgrades input hp hev ha => rw [ha]; exact Or.inr rfl
  | handshakeFails hp hev ha => rw [ha]; exact Or.inl rfl
  | greetsTls hp hev ha => rw [ha]; exact Or.inl rfl
  | hangsUp hp hev hc hs => rw [hs]; exact Or.inl rfl

/-- A quiet move writes nothing but the greeting. -/
theorem Quiet.mem_events {cfg : SmtpConfig} {m : Move} (h : Quiet cfg m) {e : Event}
    (he : e ∈ m.events) : e = reply greeting := by
  cases h with
  | greets hp hev ha =>
      rw [hev] at he
      exact List.mem_singleton.mp he
  | upgrades input hp hev ha =>
      rw [hev] at he
      exact absurd he List.not_mem_nil
  | handshakeFails hp hev ha =>
      rw [hev] at he
      exact absurd he List.not_mem_nil
  | greetsTls hp hev ha =>
      rw [hev] at he
      split_ifs at he
      · exact List.mem_singleton.mp he
      · exact absurd he List.not_mem_nil
  | hangsUp hp hev hc hs =>
      rw [hev] at he
      exact absurd he List.not_mem_nil

/-! ## Deliveries -/

/-- The move carries out a DATA: the line that asks for it, the stream behind
    it, and the message it reads. -/
structure Delivers (env : Env) (cfg : SmtpConfig) (m : Move) (line : Text) (rest bytes : Bytes)
    (stamp : Stamp) : Prop where
  phase : m.before.phase = .plain ∨ m.before.phase = .tls
  read : readLine m.before.input = .ok (line, rest)
  opens : OpensData m.before.session line
  data : readData rest = .ok (bytes, m.after.input)
  events : m.events = [.read line, reply startData, .body bytes]
    ++ deliver cfg (parseEmail env stamp bytes m.before.session.envelope)
    ++ [reply "250 OK: queued"]
  after : m.after = ⟨m.before.phase, m.before.session.reset, m.after.input⟩

/-- The next line is an accepted DATA, and a message can be read behind it. -/
def Conn.HasMessage (c : Conn) : Prop :=
  (c.phase = .plain ∨ c.phase = .tls)
    ∧ ∃ line rest bytes rest', readLine c.input = .ok (line, rest)
      ∧ OpensData c.session line ∧ readData rest = .ok (bytes, rest')

/-- The event belongs to a delivery. -/
inductive Delivery : Event → Prop where
  | body (bytes : Bytes) : Delivery (.body bytes)
  | forward (record : MailRecord) : Delivery (.forward record)
  | push (record : MailRecord) : Delivery (.push record)
  | queued : Delivery (reply "250 OK: queued")

section

variable {env : Env} {cfg : SmtpConfig} {c c' : Conn} {m : Move} {line : Text}
  {rest bytes : Bytes} {stamp : Stamp}

theorem Delivery.ne_reply {e : Event} (h : Delivery e) {text : String}
    (hne : text ≠ "250 OK: queued") : e ≠ reply text := by
  rintro rfl
  generalize he : reply text = e at h
  cases h with
  | queued => exact hne (reply_injective he)
  | body | forward | push => exact nomatch he

/-- **Whatever belongs to a delivery is seen in one.** -/
theorem Step.delivers {e : Event} (h : Step env cfg c m c') (he : e ∈ m.events)
    (hd : Delivery e) : ∃ line rest bytes stamp, Delivers env cfg m line rest bytes stamp := by
  obtain ⟨-, -, hq | ⟨line, rest, r, hs⟩⟩ := step_cases h
  · exact absurd (hq.mem_events he) (hd.ne_reply (by decide))
  · obtain ⟨stamp, hturn⟩ := hs.turn
    have hr : e ∈ r.events := by
      rcases hs.of_mem_events he with rfl | h | h
      · exact nomatch hd
      · exact h
      · exact absurd h (hd.ne_reply (by decide))
    rcases hturn.says_or_data with ⟨lines, hev, hno⟩ | ⟨hopens, ⟨-, hdata⟩ | hdata⟩
    · rw [hev, List.mem_map] at hr
      obtain ⟨text, ht, rfl⟩ := hr
      refine absurd rfl (hd.ne_reply (fun heq => hno text ht ?_))
      rw [heq]
      decide
    · rw [hdata] at hr
      exact absurd (List.mem_singleton.mp hr) (hd.ne_reply (by decide))
    · obtain ⟨bytes, rest', hread, hdata⟩ := hdata
      obtain ⟨hafter, hevents⟩ := hs.continues (by rw [hdata])
      rw [hdata] at hafter hevents
      refine ⟨line, rest, bytes, stamp, hs.phase, hs.read, hopens, ?_, ?_, ?_⟩
      · rw [hafter]
        exact hread
      · rw [hevents]
        simp
      · rw [hafter]

/-- A delivery stores one record. -/
theorem Delivers.pushed_eq (h : Delivers env cfg m line rest bytes stamp) :
    m.pushed = [parseEmail env stamp bytes m.before.session.envelope] := by
  rw [Move.pushed, h.events, deliver]
  cases cfg.forwardHandle with
  | true => rfl
  | false => rfl

/-- A delivery forwards the record it stores, where that is configured. -/
theorem Delivers.forwarded_eq (h : Delivers env cfg m line rest bytes stamp) :
    m.forwarded = if cfg.forwardHandle = true then
      [parseEmail env stamp bytes m.before.session.envelope] else [] := by
  rw [Move.forwarded, h.events, deliver]
  cases cfg.forwardHandle with
  | true => rfl
  | false => rfl

theorem Delivers.handed_eq (h : Delivers env cfg m line rest bytes stamp) :
    m.handed = [(m.before.session.envelope, bytes)] := by
  rw [Move.handed, h.pushed_eq, List.map_singleton, raw_parseEmail]

/-- A message that can be read behind an accepted DATA is delivered. -/
theorem Step.delivers_of_opens {bytes rest' : Bytes} (h : Step env cfg c m c')
    (hp : m.before.phase = .plain ∨ m.before.phase = .tls)
    (hr : readLine m.before.input = .ok (line, rest)) (ho : OpensData m.before.session line)
    (hd : readData rest = .ok (bytes, rest')) :
    ∃ stamp, Delivers env cfg m line rest bytes stamp ∧ m.after.input = rest' := by
  obtain ⟨stamp, hs⟩ := h.interprets hp hr ho.line_ne
  rw [ho.interpret_eq hd] at hs
  obtain ⟨hafter, hevents⟩ := hs.continues rfl
  refine ⟨stamp, ⟨hp, hr, ho, ?_, ?_, ?_⟩, ?_⟩
  · rw [hafter]
    exact hd
  · rw [hevents]
    simp
  · rw [hafter]
  · rw [hafter]

/-- **A move stores nothing exactly where there is no message.** -/
theorem Step.pushed_eq_nil (h : Step env cfg c m c') : m.pushed = [] ↔ ¬ c.HasMessage := by
  obtain ⟨rfl, -⟩ := id h
  constructor
  · rintro hnil ⟨hp, line, rest, bytes, rest', hr, ho, hd⟩
    obtain ⟨stamp, hdel, -⟩ := h.delivers_of_opens hp hr ho hd
    rw [hdel.pushed_eq] at hnil
    cases hnil
  · intro hno
    refine List.eq_nil_iff_forall_not_mem.mpr (fun record hmem => hno ?_)
    obtain ⟨line, rest, bytes, stamp, hd⟩ :=
      h.delivers (Move.mem_pushed.mp hmem) (.push record)
    exact ⟨hd.phase, line, rest, bytes, _, hd.read, hd.opens, hd.data⟩

end

end SmtpConnection
