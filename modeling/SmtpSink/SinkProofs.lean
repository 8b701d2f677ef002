import SmtpSink.ConnectionProofs

/-! # The sink — its options, and whom it takes mail from

    `start_sink` builds the configuration of the SMTP server from the options.
    The whitelist is normalised on the way, and a session compares it with the
    lowercased address of each MAIL FROM, and with nothing else.

    The check is made once, the sender is used later: `Listed` is the invariant
    in between, and `whitelist_safe` what follows for every run. -/

namespace Sink

open Utf8 Unicode SmtpReader SmtpRecord SmtpSession SmtpTurn Runs SmtpConnection

/-- `SinkOptions`, as far as the sessions depend on it. -/
structure SinkOptions where
  whitelist : List Text
  tls : Bool
  starttls : Bool
  authRequired : Bool
  authUsername : Option Text
  authPassword : Option Text
  forwardHost : Option Text

/-- The entries lowercased and trimmed, without those that are blank. -/
def normalized (whitelist : List Text) : List Text :=
  (whitelist.map (fun s => trim (toLowercase s))).filter (fun s => !s.isEmpty)

/-- The configuration `start_sink` gives the SMTP server. -/
def smtpConfig (opts : SinkOptions) : SmtpConfig where
  whitelist := normalized opts.whitelist
  tlsAcceptor := opts.starttls && !opts.tls
  authRequired := opts.authRequired
  authUsername := opts.authUsername
  authPassword := opts.authPassword
  forwardHandle := opts.forwardHost.isSome

/-- A connection the server has accepted: `run_smtps_server` if TLS is on, else
    `run_smtp_server`. -/
def accepted (opts : SinkOptions) (input : Bytes) : Conn :=
  if opts.tls then Conn.startTls (smtpConfig opts) input
  else Conn.start (smtpConfig opts) input

/-- The sender of the open transaction, if there is one, is on the whitelist. -/
def Listed (whitelist : List Text) (c : Conn) : Prop :=
  ∀ a, c.session.mailFrom = some a → toLowercase a ∈ whitelist

section

variable {env : Env} {cfg : SmtpConfig} {c c' : Conn} {m : Move} {l : List Move}

theorem listed_accepted (opts : SinkOptions) (input : Bytes) (whitelist : List Text) :
    Listed whitelist (accepted opts input) := by
  have hnone : (accepted opts input).session.mailFrom = none := by
    rw [accepted]
    split_ifs
    · rfl
    · rfl
  intro a ha
  exact nomatch hnone.symm.trans ha

/-- The one way to a new sender is the check. -/
theorem Listed.step (hne : cfg.whitelist ≠ []) (hI : Listed cfg.whitelist c)
    (h : Step env cfg c m c') : Listed cfg.whitelist c' := by
  have keep : m.after.session.envelope = m.before.session.envelope
      ∨ m.after.session.envelope = ⟨none, []⟩ → Listed cfg.whitelist c' := by
    obtain ⟨rfl, rfl, -⟩ := h
    rintro (he | he) a ha
    · have hsame : m.after.session.mailFrom = m.before.session.mailFrom :=
        congrArg Envelope.mailFrom he
      exact hI a (hsame.symm.trans ha)
    · have hnone : m.after.session.mailFrom = none := congrArg Envelope.mailFrom he
      exact nomatch hnone.symm.trans ha
  obtain ⟨rfl, rfl, hq | ⟨line, rest, r, hs⟩⟩ := step_cases h
  · exact keep hq.envelope
  · obtain ⟨stamp, hturn⟩ := hs.turn
    rw [hs.session_eq] at keep
    rcases hturn.envelope_effect with he | he | ⟨addr, hv, -, hok, -⟩ | ⟨addr, -, -, -, he⟩
    · exact keep (Or.inl he)
    · exact keep (Or.inr he)
    · -- a new sender: it has passed the check
      obtain ⟨-, addr', -, hw, rfl⟩ := (hturn.accepted_of_ok hok).1 hv
      intro a ha
      rw [hs.session_eq] at ha
      obtain rfl := Option.some.inj ha
      exact hw.resolve_left hne
    · -- one more recipient
      intro a ha
      rw [hs.session_eq] at ha
      have hsame : r.session.mailFrom = m.before.session.mailFrom :=
        congrArg Envelope.mailFrom he
      exact hI a (hsame.symm.trans ha)

theorem Listed.run (hne : cfg.whitelist ≠ []) (hI : Listed cfg.whitelist c)
    (h : Run (Step env cfg) c l c') : Listed cfg.whitelist c' :=
  h.history_rule (I := fun _ c => Listed cfg.whitelist c) hI
    (fun _ _ _ _ hI hs => hI.step hne hs)

/-- A MAIL FROM that is not answered 250 keeps the open transaction. -/
theorem mail_rejected (h : Step env cfg c m c') (hv : m.verb? = some .mailFrom)
    (hno : ¬ m.Says "250 OK") : m.after.session.envelope = m.before.session.envelope := by
  obtain ⟨-, -, hq | ⟨line, rest, r, hs⟩⟩ := step_cases h
  · rw [Move.verb?, hq.line?_eq] at hv
    cases hv
  · obtain ⟨stamp, hturn⟩ := hs.turn
    rw [hs.verb?_eq] at hv
    rw [hs.session_eq]
    exact hturn.mail_rejected hv (fun hok => hno (hs.mem_events hok))

/-- **The whitelist is safe.**  Where the normalised whitelist has an entry, in
    every state a connection reaches the sender is none or on it; so every record
    that is forwarded or stored was sent under a sender on it; and a rejected
    MAIL FROM leaves the open transaction alone. -/
theorem whitelist_safe (opts : SinkOptions) (input : Bytes)
    (hne : normalized opts.whitelist ≠ [])
    (hrun : Run (Step env (smtpConfig opts)) (accepted opts input) l c') :
    Listed (normalized opts.whitelist) c'
    ∧ (∀ m ∈ l, ∀ record, .push record ∈ m.events ∨ .forward record ∈ m.events →
      ∃ a, m.before.session.mailFrom = some a ∧ toLowercase a ∈ normalized opts.whitelist)
    ∧ ∀ m ∈ l, m.verb? = some .mailFrom → ¬ m.Says "250 OK" →
      m.after.session.envelope = m.before.session.envelope := by
  have hstart := listed_accepted opts input (smtpConfig opts).whitelist
  refine ⟨hstart.run hne hrun, fun m hm record hrec => ?_, fun m hm hv hno => ?_⟩
  · obtain ⟨pre, post, rfl⟩ := List.append_of_mem hm
    obtain ⟨t, t', hpre, hstep, -⟩ := hrun.step_at
    obtain ⟨line, rest, bytes, stamp, hd⟩ : ∃ line rest bytes stamp,
        Delivers env (smtpConfig opts) m line rest bytes stamp := by
      rcases hrec with he | he
      · exact hstep.delivers he (.push record)
      · exact hstep.delivers he (.forward record)
    obtain ⟨a, ha⟩ := Option.ne_none_iff_exists'.mp hd.opens.sender
    have hlisted := hstart.run hne hpre
    rw [← hstep.1] at hlisted
    exact ⟨a, ha, hlisted a ha⟩
  · obtain ⟨t, t', hstep⟩ := hrun.step_of_mem hm
    exact mail_rejected hstep hv hno

end

/-- Options with one address and a blank one on the whitelist. -/
def listedOptions : SinkOptions :=
  ⟨[" Ann@x ".toList, " ".toList], false, false, false, none, none, none⟩

/-- A client that tries a second sender before its message. -/
def rejectedSender : Bytes :=
  encode "MAIL FROM:<ann@X>\r\nRCPT TO:<b>\r\nMAIL FROM:<c>\r\nDATA\r\nhi\r\n.\r\n".toList

theorem whitelist_safe_rejected :
    let run := (sampleRun (smtpConfig listedOptions) none 5 rejectedSender).1
    run.length = 5 ∧ (run.get ⟨3, by decide +kernel⟩).Says "550 Sender not allowed"
      ∧ ∀ m ∈ run, ∀ record, .push record ∈ m.events ∨ .forward record ∈ m.events →
        ∃ a, m.before.session.mailFrom = some a
          ∧ toLowercase a ∈ normalized listedOptions.whitelist :=
  ⟨by decide +kernel, by decide +kernel,
    (whitelist_safe listedOptions rejectedSender (by decide +kernel)
      (sampleRun_run _ _ _ _)).2.1⟩

end Sink
