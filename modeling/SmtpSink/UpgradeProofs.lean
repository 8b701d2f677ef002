import SmtpSink.AuthGateProofs

/-! # What a STARTTLS upgrade carries over

    After the handshake the session goes on with its envelope dropped and the
    buffered plaintext discarded.  Two connections that were asked to upgrade
    are compared by all the runs they have on the same TLS bytes: the sets of
    their observations, move by move, are `traces`.

    The one field that survives is `authenticated`.  It is read by the guard of
    MAIL, RCPT and DATA only, so it cannot be seen where authentication is not
    required (`blind_simulation`), and it is seen at the first MAIL FROM
    otherwise (`probe_tells`).  `traces_upgraded_iff` puts both together. -/

namespace SmtpUpgrade

open Utf8 Unicode SmtpReader SmtpRecord SmtpSession SmtpTurn Runs SmtpConnection
open SmtpAuthGate

/-- What is observed of a move: the envelope it finds, what it reads, writes and
    hands on, and where the connection stands after it. -/
def observed (m : Move) : Envelope × List Event × Phase :=
  (m.before.session.envelope, m.events, m.after.phase)

/-- A connection that has answered STARTTLS with 220, after some plaintext. -/
structure Upgrading (env : Env) (cfg : SmtpConfig) (c : Conn) : Prop where
  reached : ∃ input l, Run (Step env cfg) (Conn.start cfg input) l c
  phase : c.phase = .upgrading

/-- A successful handshake leads to `upgraded`. -/
theorem upgraded_step {env : Env} {cfg : SmtpConfig} {c : Conn} (h : c.phase = .upgrading)
    (input : Bytes) : Step env cfg c ⟨c, [], upgraded c input⟩ (upgraded c input) := by
  refine ⟨rfl, rfl, some input, sampleStamp, ?_⟩
  simp only [connStep, h]

/-- Before an upgrade the server has answered 220. -/
theorem upgrading_said {env : Env} {cfg : SmtpConfig} {c : Conn}
    (h : Upgrading env cfg c) :
    ∃ input l m, Run (Step env cfg) (Conn.start cfg input) (l ++ [m]) c
      ∧ m.verb? = some .starttls ∧ m.Says "220 Ready to start TLS" := by
  obtain ⟨⟨input, l, hrun⟩, hp⟩ := h
  cases hrun with
  | nil => exact nomatch hp
  | @snoc l t _ m hrun hstep =>
      refine ⟨input, l, m, Run.snoc hrun hstep, ?_⟩
      obtain ⟨rfl, rfl, hq | ⟨line, rest, r, hs⟩⟩ := step_cases hstep
      · cases hq with
        | greets _ _ ha => rw [ha] at hp; exact nomatch hp
        | upgrades input _ _ ha => rw [ha] at hp; exact nomatch hp
        | handshakeFails _ _ ha => rw [ha] at hp; exact nomatch hp
        | greetsTls _ _ ha => rw [ha] at hp; exact nomatch hp
        | hangsUp _ _ hc _ => rw [hc] at hp; exact nomatch hp
      · obtain ⟨stamp, hturn⟩ := hs.turn
        rcases hs.phase_after with h | h | h | ⟨-, hres⟩
        · rw [h] at hp; exact nomatch hp
        · rw [h] at hp; exact nomatch hp
        · rw [h] at hp; exact nomatch hp
        · obtain ⟨hv, -, -, hr⟩ := hturn.startTls_inv hres
          refine ⟨hs.verb?_eq.trans hv, hs.mem_events ?_⟩
          rw [hr]
          exact List.mem_cons_self

/-- No exchange is under way and the requirement is the configuration's. -/
theorem upgrading_session {env : Env} {cfg : SmtpConfig} {c : Conn}
    (h : Upgrading env cfg c) :
    c.session.authState = .none ∧ c.session.authRequired = cfg.authRequired := by
  obtain ⟨⟨input, l, hrun⟩, hp⟩ := h
  have hI := AuthHistory.run ⟨input, Or.inl rfl⟩ hrun
  exact ⟨hI.idle (by simp [hp]) (by simp [hp]) (by simp [hp]), hI.required⟩

/-! ## The flag cannot be seen where it is not required -/

/-- A session with its flag covered. -/
def blind (s : Session) : Session := { s with authenticated := false }

/-- Reactions that differ in the flag at most. -/
structure Similar (r r' : Reaction) : Prop where
  session : blind r'.session = blind r.session
  events : r'.events = r.events
  result : r'.result = r.result
  rest : r'.rest = r.rest

section

variable (env : Env) (cfg : SmtpConfig) (stamp : Stamp) (rest : Bytes)

/-- The same lines, said by sessions that differ in the flag at most. -/
theorem similar_say {s s' : Session} (h : blind s' = blind s) (lines : List String) :
    Similar ⟨say s lines, rest⟩ ⟨say s' lines, rest⟩ := ⟨h, rfl, rfl, rfl⟩

theorem verifyPlainAuth_similar (encoded : Text) {s s' : Session}
    (h : blind s' = blind s) :
    Similar ⟨verifyPlainAuth env cfg encoded s, rest⟩
      ⟨verifyPlainAuth env cfg encoded s', rest⟩ := by
  have hset : blind { s' with authenticated := true }
      = blind { s with authenticated := true } := h
  rcases verifyPlainAuth_cases env cfg encoded s with ⟨hok, h1⟩ | ⟨hno, h1⟩
  · rcases verifyPlainAuth_cases env cfg encoded s' with ⟨-, h2⟩ | ⟨hno, -⟩
    · rw [h1, h2]
      exact similar_say rest hset _
    · exact absurd hok hno
  · rcases verifyPlainAuth_cases env cfg encoded s' with ⟨hok, -⟩ | ⟨-, h2⟩
    · exact absurd hok hno
    · rw [h1, h2]
      exact similar_say rest h _

variable (mf : Option Text) (rt : List Text) (a b tls : Bool) (st : AuthState)

theorem mailFrom_similar (trimmed : Text) :
    Similar ⟨mailFrom cfg trimmed ⟨mf, rt, a, false, tls, st⟩, rest⟩
      ⟨mailFrom cfg trimmed ⟨mf, rt, b, false, tls, st⟩, rest⟩ := by
  simp only [mailFrom, Session.locked, Bool.false_and, Bool.false_eq_true, if_false]
  cases (dropBytes? 10 trimmed).bind extractAddress with
  | none => exact ⟨rfl, rfl, rfl, rfl⟩
  | some addr =>
      dsimp only
      split_ifs
      · exact ⟨rfl, rfl, rfl, rfl⟩
      · exact ⟨rfl, rfl, rfl, rfl⟩

theorem rcptTo_similar (trimmed : Text) :
    Similar ⟨rcptTo trimmed ⟨mf, rt, a, false, tls, st⟩, rest⟩
      ⟨rcptTo trimmed ⟨mf, rt, b, false, tls, st⟩, rest⟩ := by
  simp only [rcptTo, Session.locked, Bool.false_and, Bool.false_eq_true, if_false]
  split_ifs
  · exact ⟨rfl, rfl, rfl, rfl⟩
  · cases (dropBytes? 8 trimmed).bind extractAddress with
    | none => exact ⟨rfl, rfl, rfl, rfl⟩
    | some addr => exact ⟨rfl, rfl, rfl, rfl⟩

theorem data_similar :
    Similar (data env cfg stamp rest ⟨mf, rt, a, false, tls, st⟩)
      (data env cfg stamp rest ⟨mf, rt, b, false, tls, st⟩) := by
  simp only [data, Session.locked, Bool.false_and, Bool.false_eq_true, if_false]
  split_ifs
  · exact ⟨rfl, rfl, rfl, rfl⟩
  · exact ⟨rfl, rfl, rfl, rfl⟩
  · cases readData rest with
    | error e => exact ⟨rfl, rfl, rfl, rfl⟩
    | ok q => exact ⟨rfl, rfl, rfl, rfl⟩

theorem auth_similar (trimmed : Text) :
    Similar ⟨auth env cfg trimmed ⟨mf, rt, a, false, tls, st⟩, rest⟩
      ⟨auth env cfg trimmed ⟨mf, rt, b, false, tls, st⟩, rest⟩ := by
  simp only [auth, authParts]
  split_ifs
  · exact ⟨rfl, rfl, rfl, rfl⟩
  · exact verifyPlainAuth_similar env cfg rest _ rfl
  · exact ⟨rfl, rfl, rfl, rfl⟩
  · exact ⟨rfl, rfl, rfl, rfl⟩
  · exact ⟨rfl, rfl, rfl, rfl⟩
  · exact ⟨rfl, rfl, rfl, rfl⟩

theorem starttls_similar :
    Similar ⟨starttls cfg ⟨mf, rt, a, false, tls, st⟩, rest⟩
      ⟨starttls cfg ⟨mf, rt, b, false, tls, st⟩, rest⟩ := by
  simp only [starttls]
  split_ifs
  · exact ⟨rfl, rfl, rfl, rfl⟩
  · exact ⟨rfl, rfl, rfl, rfl⟩
  · exact ⟨rfl, rfl, rfl, rfl⟩

theorem command_similar (trimmed : Text) (v : Verb) :
    Similar (command env cfg stamp trimmed rest ⟨mf, rt, a, false, tls, st⟩ v)
      (command env cfg stamp trimmed rest ⟨mf, rt, b, false, tls, st⟩ v) := by
  cases v with
  | ehlo => exact ⟨rfl, rfl, rfl, rfl⟩
  | starttls => exact starttls_similar cfg rest mf rt a b tls st
  | auth => exact auth_similar env cfg rest mf rt a b tls st trimmed
  | mailFrom => exact mailFrom_similar cfg rest mf rt a b tls st trimmed
  | rcptTo => exact rcptTo_similar rest mf rt a b tls st trimmed
  | data => exact data_similar env cfg stamp rest mf rt a b tls st
  | rset => exact ⟨rfl, rfl, rfl, rfl⟩
  | noop => exact ⟨rfl, rfl, rfl, rfl⟩
  | quit => exact ⟨rfl, rfl, rfl, rfl⟩
  | unknown => exact ⟨rfl, rfl, rfl, rfl⟩

theorem interpret_similar (line : Text) :
    Similar (interpret env cfg stamp line rest ⟨mf, rt, a, false, tls, st⟩)
      (interpret env cfg stamp line rest ⟨mf, rt, b, false, tls, st⟩) := by
  cases st with
  | none => exact command_similar env cfg stamp rest mf rt a b tls .none _ _
  | waitingForPlain =>
      have hflag : blind ⟨mf, rt, b, false, tls, .waitingForPlain⟩
          = blind ⟨mf, rt, a, false, tls, .waitingForPlain⟩ := rfl
      have h := verifyPlainAuth_similar env cfg rest (trim line) hflag
      exact ⟨congrArg (fun s => { s with authState := .none }) h.session, h.events,
        h.result, h.rest⟩
  | waitingForLoginUsername =>
      simp only [interpret, authLoginUsername]
      cases env.base64Decode (trim line) with
      | none => exact ⟨rfl, rfl, rfl, rfl⟩
      | some d => exact ⟨rfl, rfl, rfl, rfl⟩
  | waitingForLoginPassword u =>
      simp only [interpret, authLoginPassword]
      cases env.base64Decode (trim line) with
      | none => exact ⟨rfl, rfl, rfl, rfl⟩
      | some d =>
          dsimp only
          split_ifs
          · exact ⟨rfl, rfl, rfl, rfl⟩
          · exact ⟨rfl, rfl, rfl, rfl⟩

end

/-- A session that requires nothing reacts alike whatever its flag is. -/
theorem processCommand_similar (env : Env) (cfg : SmtpConfig) (stamp : Stamp)
    (input : Bytes) {s s' : Session} (hreq : s.authRequired = false)
    (h : blind s' = blind s) :
    Similar (processCommand env cfg stamp s input)
      (processCommand env cfg stamp s' input) := by
  -- the sessions are one record with two values of the flag
  obtain ⟨mf, rt, a, req, tls, st⟩ := s
  obtain ⟨mf', rt', b, req', tls', st'⟩ := s'
  cases hreq
  cases h
  rw [processCommand, processCommand]
  cases readLine input with
  | error e => exact ⟨rfl, rfl, rfl, rfl⟩
  | ok q =>
      dsimp only
      rw [processLine, processLine]
      split_ifs
      · exact ⟨rfl, rfl, rfl, rfl⟩
      · have h := interpret_similar env cfg stamp q.2 mf rt a b tls st q.1
        exact ⟨h.session, congrArg (Event.read q.1 :: ·) h.events, h.result, h.rest⟩

/-- Connections that differ in the flag at most, and do not require it. -/
structure Covered (c c' : Conn) : Prop where
  phase : c'.phase = c.phase
  input : c'.input = c.input
  required : c.session.authRequired = false
  session : blind c'.session = blind c.session

theorem processCommand_required (env : Env) (cfg : SmtpConfig) (stamp : Stamp)
    (s : Session) (input : Bytes) :
    (processCommand env cfg stamp s input).session.authRequired = s.authRequired := by
  rcases processCommand_cases env cfg stamp s input with
    ⟨-, h⟩ | ⟨rest, -, h⟩ | ⟨line, rest, -, -, h⟩
  · rw [h]
  · rw [h]
  · rw [h]
    exact (interpret_turn env cfg stamp line rest s).auth_effect.1

/-- Covered connections take the same steps. -/
theorem connStep_covered {env : Env} {cfg : SmtpConfig} {handshake : Option Bytes}
    {stamp : Stamp} {c c' d : Conn} {events : List Event} (hR : Covered c c')
    (h : connStep env cfg handshake stamp c = some (events, d)) :
    ∃ d', connStep env cfg handshake stamp c' = some (events, d') ∧ Covered d d' := by
  obtain ⟨phase, s, input⟩ := c
  obtain ⟨phase', s', input'⟩ := c'
  obtain ⟨hp, hi, hreq, hs⟩ := hR
  obtain rfl : phase' = phase := hp
  obtain rfl : input' = input := hi
  have hreq : s.authRequired = false := hreq
  have hs : blind s' = blind s := hs
  have hmail : s'.mailFrom = s.mailFrom := by
    show (blind s').mailFrom = (blind s).mailFrom
    rw [hs]
  have hrcpt : s'.rcptTo = s.rcptTo := by
    show (blind s').rcptTo = (blind s).rcptTo
    rw [hs]
  have hr := processCommand_similar env cfg stamp input' hreq hs
  have hreq' := (processCommand_required env cfg stamp s input').trans hreq
  cases phase' with
  | fresh =>
      cases h
      exact ⟨_, rfl, rfl, rfl, hreq, hs⟩
  | plain =>
      cases h
      refine ⟨⟨plainNext cfg (processCommand env cfg stamp s' input').result,
        (processCommand env cfg stamp s' input').session,
        (processCommand env cfg stamp s' input').rest⟩, ?_,
        congrArg (plainNext cfg) hr.result, hr.rest, hreq', hr.session⟩
      show some (_, _) = some (_, _)
      rw [hr.events]
  | upgrading =>
      cases handshake with
      | none =>
          cases h
          exact ⟨_, rfl, rfl, rfl, hreq, hs⟩
      | some bytes =>
          cases h
          exact ⟨_, rfl, rfl, rfl, hreq,
            congrArg (fun s => { s with tlsActive := true }.reset) hs⟩
  | tlsFresh =>
      cases h
      refine ⟨⟨.tls, s', input'⟩, ?_, rfl, rfl, hreq, hs⟩
      show some (_, _) = some (_, _)
      dsimp only
      rw [hmail, hrcpt]
  | tls =>
      cases h
      refine ⟨⟨tlsNext (processCommand env cfg stamp s' input').result,
        (processCommand env cfg stamp s' input').session,
        (processCommand env cfg stamp s' input').rest⟩, ?_,
        congrArg tlsNext hr.result, hr.rest, hreq', hr.session⟩
      show some (_, _) = some (_, _)
      rw [hr.events, hr.result]
  | closed => exact nomatch h

/-- **Covering the flag is a simulation.** -/
theorem blind_simulation (env : Env) (cfg : SmtpConfig) :
    Simulation (Step env cfg) observed Covered := by
  intro c m d c' hR hstep
  obtain ⟨rfl, rfl, handshake, stamp, hs⟩ := hstep
  obtain ⟨d', hs', hR'⟩ := connStep_covered hR hs
  refine ⟨⟨c', m.events, d'⟩, d', ⟨rfl, rfl, handshake, stamp, hs'⟩, ?_, hR'⟩
  have henv : c'.session.envelope = m.before.session.envelope := by
    show (blind c'.session).envelope = (blind m.before.session).envelope
    rw [hR.session]
  rw [observed, observed, henv, hR'.phase]

/-! ## The flag is seen where it is required -/

/-- A first line of a transaction. -/
def probe : Text := "MAIL FROM:<a>\r\n".toList

/-- The probe is answered 530 exactly by a locked session. -/
theorem probe_tells {env : Env} {cfg : SmtpConfig} {c c' : Conn} {m : Move}
    (h : Step env cfg c m c') (hp : c.phase = .tls) (hin : c.input = encode probe)
    (hst : c.session.authState = .none) :
    reply "530 Authentication required" ∈ m.events ↔ c.session.locked = true := by
  obtain ⟨phase, s, input⟩ := c
  obtain rfl : phase = .tls := hp
  obtain rfl : input = encode probe := hin
  have hst : s.authState = .none := hst
  show reply "530 Authentication required" ∈ m.events ↔ s.locked = true
  obtain ⟨hb, rfl, handshake, stamp, hs⟩ := h
  have hread : readLine (encode probe) = .ok (probe, []) := by decide +kernel
  have hverb : dispatch (toUppercase (trim probe)) = .mailFrom := by decide +kernel
  have haddr : (dropBytes? 10 (trim probe)).bind extractAddress = some "a".toList := by
    decide +kernel
  have hcommand : processCommand env cfg stamp s (encode probe)
      = ⟨{ mailFrom cfg (trim probe) s with
          events := .read probe :: (mailFrom cfg (trim probe) s).events }, []⟩ := by
    rw [processCommand, hread]
    dsimp only
    rw [processLine, if_neg (by decide), interpret, hst]
    dsimp only
    rw [hverb]
    rfl
  have hev : m.events = (processCommand env cfg stamp s (encode probe)).events
      ++ tlsExtra (processCommand env cfg stamp s (encode probe)).result := by
    simp only [connStep, Option.some.injEq, Prod.mk.injEq] at hs
    exact hs.1.symm
  rw [hev, hcommand, mailFrom, haddr]
  cases hl : s.locked with
  | true =>
      rw [if_pos rfl]
      exact ⟨fun _ => rfl, fun _ => by simp⟩
  | false =>
      rw [if_neg Bool.false_ne_true]
      dsimp only
      refine ⟨fun hmem => ?_, fun h => absurd h Bool.false_ne_true⟩
      split_ifs at hmem
      · simp [tlsExtra, reply] at hmem
      · simp [tlsExtra, reply] at hmem

/-- Where authentication is required, upgraded connections of which one only is
    authenticated can be told apart. -/
theorem traces_differ {env : Env} {cfg : SmtpConfig} {c c' : Conn}
    (hst : c.session.authState = .none) (hst' : c'.session.authState = .none)
    (hl : c.session.locked = false) (hl' : c'.session.locked = true) :
    ¬ traces (Step env cfg) observed (upgraded c' (encode probe))
      ⊆ traces (Step env cfg) observed (upgraded c (encode probe)) := by
  intro hsub
  -- the locked connection greets and takes the probe
  obtain ⟨n, h1⟩ : ∃ n, Step env cfg (upgraded c' (encode probe)) n
      { upgraded c' (encode probe) with phase := .tls } :=
    ⟨⟨_, _, _⟩, rfl, rfl, none, sampleStamp, rfl⟩
  obtain ⟨n', u', h2⟩ : ∃ n' u',
      Step env cfg { upgraded c' (encode probe) with phase := .tls } n' u' :=
    ⟨⟨_, _, _⟩, _, rfl, rfl, none, sampleStamp, rfl⟩
  obtain ⟨l, u, hrun, hobs⟩ := hsub ⟨_, _, Run.cons h1 (Run.single h2), rfl⟩
  cases l with
  | nil => cases hobs
  | cons m l =>
      cases l with
      | nil => cases (List.cons.inj hobs).2
      | cons m' l =>
          obtain ⟨t, hs1, hrun⟩ := hrun.cons_inv
          obtain ⟨t', hs2, -⟩ := hrun.cons_inv
          have ht : t = ⟨.tls, (upgraded c (encode probe)).session, encode probe⟩ := by
            obtain ⟨-, -, handshake, stamp, hc⟩ := hs1
            simp only [connStep, upgraded, Option.some.injEq, Prod.mk.injEq] at hc
            exact hc.2.symm
          rw [ht] at hs2
          have htold := probe_tells hs2 rfl rfl hst
          have htold' := probe_tells h2 rfl rfl hst'
          have hev : m'.events = n'.events :=
            congrArg (fun o => o.2.1) (List.cons.inj (List.cons.inj hobs).2).1
          have hunlocked : (upgraded c (encode probe)).session.locked = false := hl
          have hsaid := htold'.mpr hl'
          rw [← hev, htold, hunlocked] at hsaid
          exact Bool.false_ne_true hsaid

/-- **What an upgrade carries over.**  Two connections that were upgraded have
    the same runs on all TLS bytes exactly when authentication is not required
    or both are in the same way authenticated or not. -/
theorem traces_upgraded_iff {env : Env} {cfg : SmtpConfig} {c c' : Conn}
    (h : Upgrading env cfg c) (h' : Upgrading env cfg c') :
    (∀ input, traces (Step env cfg) observed (upgraded c input)
      = traces (Step env cfg) observed (upgraded c' input))
    ↔ cfg.authRequired = false ∨ c.session.authenticated = c'.session.authenticated := by
  obtain ⟨hst, hreq⟩ := upgrading_session h
  obtain ⟨hst', hreq'⟩ := upgrading_session h'
  constructor
  · intro heq
    by_contra hno
    rw [not_or, Bool.not_eq_false] at hno
    obtain ⟨hcfg, hne⟩ := hno
    have hl : c.session.locked = !c.session.authenticated := by
      rw [Session.locked, hreq, hcfg, Bool.true_and]
    have hl' : c'.session.locked = !c'.session.authenticated := by
      rw [Session.locked, hreq', hcfg, Bool.true_and]
    cases ha : c.session.authenticated with
    | true =>
        have ha' : c'.session.authenticated = false :=
          Bool.eq_false_iff.mpr (fun h => hne (ha.trans h.symm))
        exact traces_differ hst hst' (by rw [hl, ha]; rfl) (by rw [hl', ha']; rfl)
          (heq (encode probe)).ge
    | false =>
        have ha' : c'.session.authenticated = true :=
          eq_true_of_ne_false (fun h => hne (ha.trans h.symm))
        exact traces_differ hst' hst (by rw [hl', ha']; rfl) (by rw [hl, ha]; rfl)
          (heq (encode probe)).le
  · rintro (hcfg | ha) input
    · have hcovered : ∀ {d d' : Conn}, Upgrading env cfg d → Upgrading env cfg d' →
          Covered (upgraded d input) (upgraded d' input) := by
        intro d d' hd hd'
        obtain ⟨hdst, hdreq⟩ := upgrading_session hd
        obtain ⟨hdst', hdreq'⟩ := upgrading_session hd'
        refine ⟨rfl, rfl, hdreq.trans hcfg, ?_⟩
        simp only [blind, upgraded, Session.reset, hdst, hdst', hdreq, hdreq']
      exact Set.Subset.antisymm (traces_subset (blind_simulation env cfg) (hcovered h h'))
        (traces_subset (blind_simulation env cfg) (hcovered h' h))
    · have hsame : upgraded c input = upgraded c' input := by
        simp only [upgraded, Session.reset, hst, hst', hreq, hreq', ha]
      rw [hsame]

/-- A server that requires authentication and offers STARTTLS. -/
def tlsConfig : SmtpConfig := ⟨[], true, true, some ['u'], some ['p'], false⟩

/-- A connection of the sample environment that is asked to upgrade. -/
theorem sampleRun_upgrading {cfg : SmtpConfig} {n : Nat} {input : Bytes}
    (h : (sampleRun cfg none n input).2.phase = .upgrading) :
    Upgrading sampleEnv cfg (sampleRun cfg none n input).2 :=
  ⟨⟨input, _, sampleRun_run cfg none n input⟩, h⟩

/-- A client that upgrades at once. -/
def upgradeOnly : Bytes := encode "STARTTLS\r\n".toList

/-- A client that says hello first, and sends a command too many. -/
def upgradeLater : Bytes := encode "EHLO x\r\nSTARTTLS\r\nMAIL FROM:<m>\r\n".toList

/-- A client that authenticates in plaintext. -/
def upgradeAuthenticated : Bytes := encode "AUTH PLAIN AHUAcA==\r\nSTARTTLS\r\n".toList

theorem traces_upgraded_later :
    Upgrading sampleEnv tlsConfig (sampleRun tlsConfig none 2 upgradeOnly).2
      ∧ Upgrading sampleEnv tlsConfig (sampleRun tlsConfig none 3 upgradeLater).2
      ∧ ∀ input, traces (Step sampleEnv tlsConfig) observed
          (upgraded (sampleRun tlsConfig none 2 upgradeOnly).2 input)
        = traces (Step sampleEnv tlsConfig) observed
          (upgraded (sampleRun tlsConfig none 3 upgradeLater).2 input) := by
  have h : Upgrading sampleEnv tlsConfig (sampleRun tlsConfig none 2 upgradeOnly).2 :=
    sampleRun_upgrading (by decide +kernel)
  have h' : Upgrading sampleEnv tlsConfig (sampleRun tlsConfig none 3 upgradeLater).2 :=
    sampleRun_upgrading (by decide +kernel)
  exact ⟨h, h', (traces_upgraded_iff h h').mpr (Or.inr (by decide +kernel))⟩

/-- What was learnt in plaintext shows after the upgrade. -/
theorem upgrade_keeps_authenticated :
    Upgrading sampleEnv tlsConfig (sampleRun tlsConfig none 2 upgradeOnly).2
      ∧ Upgrading sampleEnv tlsConfig (sampleRun tlsConfig none 3 upgradeAuthenticated).2
      ∧ ¬ ∀ input, traces (Step sampleEnv tlsConfig) observed
          (upgraded (sampleRun tlsConfig none 2 upgradeOnly).2 input)
        = traces (Step sampleEnv tlsConfig) observed
          (upgraded (sampleRun tlsConfig none 3 upgradeAuthenticated).2 input) := by
  refine ⟨sampleRun_upgrading (by decide +kernel), sampleRun_upgrading (by decide +kernel),
    fun h => ?_⟩
  exact traces_differ (by decide +kernel) (by decide +kernel) (by decide +kernel)
    (by decide +kernel) (h (encode probe)).le

end SmtpUpgrade
