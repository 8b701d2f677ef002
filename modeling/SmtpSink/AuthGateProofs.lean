import SmtpSink.ConnectionProofs

/-! # The authentication gate

    With `auth_required`, nothing of a mail transaction is accepted before the
    client has presented the configured credentials.  The flag `authenticated`
    is set in three places of a state machine that spans several lines, so the
    argument follows the history of a connection: `AuthHistory` says that a set
    flag has a completed exchange behind it, and that a session waiting for a
    line of an exchange has just seen the lines before it.

    `AuthHistory.step` is the step lemma; `gated_move` draws the conclusion for
    every run of a connection, plaintext, SMTPS or upgraded. -/

namespace SmtpAuthGate

open Utf8 Unicode SmtpReader SmtpRecord SmtpSession SmtpTurn Runs SmtpConnection

/-- The move takes part in a mail transaction: a sender or recipient accepted,
    a message invited, or a record handed on. -/
def Gated (m : Move) : Prop :=
  (m.verb? = some .mailFrom ∨ m.verb? = some .rcptTo) ∧ m.Says "250 OK"
    ∨ m.Says startData
    ∨ ∃ record, .forward record ∈ m.events ∨ .push record ∈ m.events

/-- A completed AUTH exchange with the configured credentials: the consecutive
    moves that took its lines, the last of which answered 235. -/
inductive AuthExchange (env : Env) (cfg : SmtpConfig) : List Move → Prop where
  /-- `AUTH PLAIN` with its response on the same line -/
  | inline (m : Move) (line u p : Text) :
      m.line? = some line → RespondsPlain env m.before.session line u p →
      cfg.Admits u p → m.Says "235 Authentication successful" →
      AuthExchange env cfg [m]
  /-- `AUTH PLAIN`, then the response -/
  | prompted (m m' : Move) (line line' u p : Text) :
      m.line? = some line → PromptsPlain m.before.session line →
      m'.line? = some line' → plainCredentials env (trim line') = some (u, p) →
      cfg.Admits u p → m'.Says "235 Authentication successful" →
      AuthExchange env cfg [m, m']
  /-- `AUTH LOGIN`, then the user name and the password -/
  | login (m m' m'' : Move) (line line' line'' : Text) (u p : Bytes) :
      m.line? = some line → PromptsLogin m.before.session line →
      m'.line? = some line' → env.base64Decode (trim line') = some u →
      m''.line? = some line'' → env.base64Decode (trim line'') = some p →
      cfg.Admits (fromUtf8Lossy u) (fromUtf8Lossy p) →
      m''.Says "235 Authentication successful" →
      AuthExchange env cfg [m, m', m'']

/-- Both credentials are configured when an exchange has succeeded. -/
theorem AuthExchange.configured {env : Env} {cfg : SmtpConfig} {x : List Move}
    (h : AuthExchange env cfg x) : cfg.authUsername ≠ none ∧ cfg.authPassword ≠ none := by
  have key : ∀ {u p : Text}, cfg.Admits u p →
      cfg.authUsername ≠ none ∧ cfg.authPassword ≠ none := by
    intro u p ⟨hu, hp⟩
    rw [hu, hp]
    exact ⟨Option.some_ne_none u, Option.some_ne_none p⟩
  cases h with
  | inline m line u p hline hresp had hsaid => exact key had
  | prompted m m' line line' u p h1 h2 h3 h4 had h6 => exact key had
  | login m m' m'' line line' line'' u p h1 h2 h3 h4 h5 h6 had h8 => exact key had

/-- The moves so far end with the part of an exchange that leads to an AUTH
    state. -/
inductive Pending (env : Env) : List Move → AuthState → Prop where
  | idle (l : List Move) : Pending env l .none
  | plain (a : List Move) (m : Move) (line : Text) :
      m.line? = some line → PromptsPlain m.before.session line →
      Pending env (a ++ [m]) .waitingForPlain
  | username (a : List Move) (m : Move) (line : Text) :
      m.line? = some line → PromptsLogin m.before.session line →
      Pending env (a ++ [m]) .waitingForLoginUsername
  | password (a : List Move) (m m' : Move) (line line' : Text) (u : Bytes) :
      m.line? = some line → PromptsLogin m.before.session line →
      m'.line? = some line' → env.base64Decode (trim line') = some u →
      Pending env (a ++ [m, m']) (.waitingForLoginPassword (fromUtf8Lossy u))

/-- What the moves so far say about the AUTH fields of a connection. -/
structure AuthHistory (env : Env) (cfg : SmtpConfig) (l : List Move) (c : Conn) :
    Prop where
  required : c.session.authRequired = cfg.authRequired
  /-- a set flag was earned -/
  earned : c.session.authenticated = true →
    ∃ a x b, l = a ++ x ++ b ∧ AuthExchange env cfg x
  /-- an exchange under way has begun with the last moves -/
  pending : c.phase ≠ .closed → Pending env l c.session.authState
  /-- outside the two loops no exchange is under way -/
  idle : c.phase ≠ .plain → c.phase ≠ .tls → c.phase ≠ .closed →
    c.session.authState = .none

section

variable {env : Env} {cfg : SmtpConfig} {l : List Move} {c c' : Conn} {m : Move}

theorem AuthHistory.initial (h : Initial cfg c) : AuthHistory env cfg [] c := by
  obtain ⟨input, rfl | rfl⟩ := h
  · exact ⟨rfl, fun h => (nomatch h), fun _ => Pending.idle [], fun _ _ _ => rfl⟩
  · exact ⟨rfl, fun h => (nomatch h), fun _ => Pending.idle [], fun _ _ _ => rfl⟩

/-- One more move after a completed exchange. -/
theorem earned_snoc (h : ∃ a x b, l = a ++ x ++ b ∧ AuthExchange env cfg x) (m : Move) :
    ∃ a x b, l ++ [m] = a ++ x ++ b ∧ AuthExchange env cfg x := by
  obtain ⟨a, x, b, rfl, hx⟩ := h
  exact ⟨a, x, b ++ [m], List.append_assoc _ _ _, hx⟩

/-- A move that leaves the AUTH fields alone outside the loops, or closes the
    connection. -/
theorem AuthHistory.quiet (hI : AuthHistory env cfg l m.before) (h : Quiet cfg m) :
    AuthHistory env cfg (l ++ [m]) m.after := by
  have hidle : m.after.session.authRequired = m.before.session.authRequired ∧
      m.after.session.authenticated = m.before.session.authenticated ∧
      (m.after.phase = .closed ∨ m.after.session.authState = .none) := by
    cases h with
    | greets hp hev ha =>
        rw [ha]
        exact ⟨rfl, rfl, Or.inr (hI.idle (by simp [hp]) (by simp [hp]) (by simp [hp]))⟩
    | upgrades input hp hev ha =>
        rw [ha]
        exact ⟨rfl, rfl, Or.inr (hI.idle (by simp [hp]) (by simp [hp]) (by simp [hp]))⟩
    | handshakeFails hp hev ha =>
        rw [ha]
        exact ⟨rfl, rfl, Or.inl rfl⟩
    | greetsTls hp hev ha =>
        rw [ha]
        exact ⟨rfl, rfl, Or.inr (hI.idle (by simp [hp]) (by simp [hp]) (by simp [hp]))⟩
    | hangsUp hp hev hc hs =>
        rw [hs]
        exact ⟨rfl, rfl, Or.inl hc⟩
  obtain ⟨hreq, hauth, hstate⟩ := hidle
  refine ⟨hreq.trans hI.required, fun h => ?_, fun hne => ?_, fun _ _ hne => ?_⟩
  · exact earned_snoc (hI.earned (hauth.symm.trans h)) m
  · rw [hstate.resolve_left hne]
    exact Pending.idle _
  · exact hstate.resolve_left hne

/-- The exchange that a line completes. -/
theorem AuthHistory.exchange {line : Text} (hI : AuthHistory env cfg l m.before)
    (hopen : m.before.phase ≠ .closed) (hline : m.line? = some line)
    (h : Authenticates env cfg m.before.session line)
    (hsaid : m.Says "235 Authentication successful") :
    ∃ a x b, l ++ [m] = a ++ x ++ b ∧ AuthExchange env cfg x := by
  have hpending := hI.pending hopen
  cases h with
  | inline u p hresp had =>
      exact ⟨l, [m], [], by rw [List.append_nil],
        AuthExchange.inline m line u p hline hresp had hsaid⟩
  | prompted u p hwait hcred had =>
      -- the prompt was the move before
      rw [hwait] at hpending
      cases hpending with
      | plain a m0 line0 h0 hprompt =>
          exact ⟨a, [m0, m], [], by simp,
            AuthExchange.prompted m0 m line0 line u p h0 hprompt hline hcred had hsaid⟩
  | login u d hwait hdec had =>
      -- the prompt and the user name were the two moves before
      rw [hwait] at hpending
      cases hpending with
      | password a m0 m1 line0 line1 u0 h0 hprompt h1 hdec1 =>
          exact ⟨a, [m0, m1, m], [], by simp,
            AuthExchange.login m0 m1 m line0 line1 line u0 d h0 hprompt h1 hdec1 hline
              hdec had hsaid⟩

/-- A line keeps the history, whatever turn it takes. -/
theorem AuthHistory.speaks {line : Text} {rest : Bytes} {r : Reaction}
    (hI : AuthHistory env cfg l m.before) (h : Speaks env cfg m line rest r) :
    AuthHistory env cfg (l ++ [m]) m.after := by
  obtain ⟨stamp, hturn⟩ := h.turn
  obtain ⟨hreq, hauth, hstate⟩ := hturn.auth_effect
  have hopen : m.before.phase ≠ .closed := by
    rcases h.phase with hp | hp
    · rw [hp]; exact fun h => nomatch h
    · rw [hp]; exact fun h => nomatch h
  refine ⟨?_, fun hset => ?_, fun _ => ?_, fun hplain htls hclosed => ?_⟩
  · rw [h.session_eq, hreq]
    exact hI.required
  · rw [h.session_eq] at hset
    rcases hauth hset with hset | ⟨hline, hsaid⟩
    · exact earned_snoc (hI.earned hset) m
    · exact hI.exchange hopen h.line?_eq hline (h.mem_events hsaid)
  · rw [h.session_eq]
    rcases hstate with hs | ⟨hp, hs⟩ | ⟨hp, hs⟩ | ⟨d, hwait, hdec, hs⟩
    · rw [hs]; exact Pending.idle _
    · rw [hs]; exact Pending.plain l m line h.line?_eq hp
    · rw [hs]; exact Pending.username l m line h.line?_eq hp
    · -- the user name answers the prompt of the move before
      have hpending := hI.pending hopen
      rw [hwait] at hpending
      cases hpending with
      | username a m0 line0 h0 hprompt =>
          rw [hs, show a ++ [m0] ++ [m] = a ++ [m0, m] by simp]
          exact Pending.password a m0 m line0 line d h0 hprompt h.line?_eq hdec
  · rcases h.phase_after with hp | hp | hp | ⟨hp, hres⟩
    · exact absurd hp hplain
    · exact absurd hp htls
    · exact absurd hp hclosed
    · -- STARTTLS is a command, so no exchange was under way
      obtain ⟨hv, -, -, hr⟩ := hturn.startTls_inv hres
      rw [h.session_eq, hr]
      exact idle_of_verb? hv

theorem AuthHistory.step (hI : AuthHistory env cfg l c) (h : Step env cfg c m c') :
    AuthHistory env cfg (l ++ [m]) c' := by
  obtain ⟨rfl, rfl, hq | ⟨line, rest, r, hs⟩⟩ := step_cases h
  · exact hI.quiet hq
  · exact hI.speaks hs

theorem AuthHistory.run (h0 : Initial cfg c) (h : Run (Step env cfg) c l c') :
    AuthHistory env cfg l c' :=
  h.history_rule (AuthHistory.initial h0) (fun _ _ _ _ hI hs => hI.step hs)

/-- Nothing gated happens to a locked session. -/
theorem gated_unlocked (h : Step env cfg c m c') (hm : Gated m) :
    c.session.locked = false := by
  obtain ⟨rfl, rfl, hq | ⟨line, rest, r, hs⟩⟩ := step_cases h
  · -- a quiet move writes the greeting at most
    rcases hm with ⟨-, he⟩ | he | ⟨record, he | he⟩
    · exact absurd (reply_injective (hq.mem_events he)) (by decide)
    · exact absurd (reply_injective (hq.mem_events he)) (by decide)
    · exact nomatch hq.mem_events he
    · exact nomatch hq.mem_events he
  · obtain ⟨stamp, hturn⟩ := hs.turn
    rcases hturn.says_or_data with ⟨lines, hev, hno⟩ | ⟨hopens, -⟩
    · -- a turn that only replies: an accepted sender or recipient
      have hrecord : ∀ {record : MailRecord} {e : Event},
          e = .forward record ∨ e = .push record → e ∉ m.events := by
        rintro record e heq he
        rcases hs.of_mem_events he with h1 | h1 | h1
        · subst h1
          rcases heq with h | h <;> exact nomatch h
        · rw [hev, List.mem_map] at h1
          obtain ⟨text, -, rfl⟩ := h1
          rcases heq with h | h <;> exact nomatch h
        · subst h1
          rcases heq with h | h <;> exact nomatch h
      rcases hm with ⟨hv, he⟩ | he | ⟨record, he | he⟩
      · rw [hs.verb?_eq] at hv
        have hok := hturn.accepted_of_ok (hs.said (by decide) he)
        rcases hv with hv | hv
        · exact (hok.1 hv).1
        · exact (hok.2 hv).1
      · have := hs.said (by decide) he
        rw [hev] at this
        exact absurd (by decide) (hno _ (reply_mem_map.mp this))
      · exact absurd he (hrecord (Or.inl rfl))
      · exact absurd he (hrecord (Or.inr rfl))
    · exact hopens.unlocked

end

/-- **The authentication gate.**  Where authentication is required, a move that
    accepts a sender or a recipient, invites a message or hands on a record
    comes after a completed AUTH exchange of the same connection, so both
    credentials are configured. -/
theorem gated_move {env : Env} {cfg : SmtpConfig} {c c' : Conn} {pre post : List Move}
    {m : Move} (hreq : cfg.authRequired = true) (h0 : Initial cfg c)
    (hrun : Run (Step env cfg) c (pre ++ m :: post) c') (hm : Gated m) :
    (∃ a x b, pre = a ++ x ++ b ∧ AuthExchange env cfg x)
      ∧ cfg.authUsername ≠ none ∧ cfg.authPassword ≠ none := by
  obtain ⟨t, t', hpre, hstep, -⟩ := hrun.step_at
  have hI := AuthHistory.run h0 hpre
  have hset : t.session.authenticated = true := by
    have hl := gated_unlocked hstep hm
    rw [Session.locked, hI.required, hreq] at hl
    simpa using hl
  obtain ⟨a, x, b, hab, hx⟩ := hI.earned hset
  exact ⟨⟨a, x, b, hab, hx⟩, hx.configured⟩

/-- A server that requires authentication. -/
def closedConfig : SmtpConfig := ⟨[], false, true, some ['u'], some ['p'], false⟩

/-- A client that authenticates and names a sender. -/
def authThenMail : Bytes := encode "AUTH PLAIN AHUAcA==\r\nMAIL FROM:<a>\r\n".toList

theorem gated_move_plain :
    let run := (sampleRun closedConfig none 3 authThenMail).1
    run.length = 3 ∧ Gated (run.get ⟨2, by decide +kernel⟩)
      ∧ ∃ a x b, run.take 2 = a ++ x ++ b ∧ AuthExchange sampleEnv closedConfig x := by
  have hlen : (sampleRun closedConfig none 3 authThenMail).1.length = 3 := by
    decide +kernel
  have hgated : Gated ((sampleRun closedConfig none 3 authThenMail).1.get
      ⟨2, by decide +kernel⟩) :=
    Or.inl ⟨Or.inl (by decide +kernel), by decide +kernel⟩
  exact ⟨hlen, hgated,
    (gated_move rfl ⟨authThenMail, Or.inl rfl⟩ (sampleRun_last hlen) hgated).1⟩

end SmtpAuthGate
