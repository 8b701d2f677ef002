import SmtpSink.EnvelopeProofs

/-! # Fallbacks — senders and recipients that are never missing

    `parse_email` falls back on the envelope where a message names no sender or
    no recipient, and on the sender `unknown` where the envelope has none;
    `forward_email` refuses a record without recipients.  Neither of the last two
    happens to a message of a session: a DATA is accepted only with an envelope
    (`startData_envelope`), and the recipients of a record are empty only where
    those of its envelope are (`toAddrs_ne_nil`).

    `fallbacks_unused` says so of every record of every run, whatever the parser
    finds in a message. -/

namespace Fallback

open Utf8 SmtpReader SmtpRecord SmtpSession Runs SmtpConnection SmtpEnvelope SmtpForward

/-- A record that was made of a message with neither fallback: its sender is that
    of the header or of the envelope, it has recipients, and forwarding it does
    not fail for want of them. -/
structure WellAddressed (env : Env) (envelope : Envelope) (bytes : Bytes)
    (record : MailRecord) : Prop where
  sender : ∃ addr, envelope.mailFrom = some addr
    ∧ record.fromAddr = ((headerSender env bytes).map Addr.display).getD addr
  recipients : record.toAddrs ≠ []
  forwards : ∀ {Mailbox Instant : Type} (reading : Reading Mailbox Instant)
    (forwarding : ForwardConfig),
    forwardEmail reading forwarding record ≠ .error (.error "No recipients".toList)

/-- The envelope makes up for a message that names no recipients. -/
theorem toAddrs_ne_nil (env : Env) (stamp : Stamp) (data : Bytes) {e : Envelope}
    (h : e.rcptTo ≠ []) : (parseEmail env stamp data e).toAddrs ≠ [] := by
  rw [toAddrs_parseEmail]
  split_ifs with hnil
  · exact h
  · exact hnil

/-- A message with a sender and recipients in its envelope needs no fallback. -/
theorem parseEmail_wellAddressed (env : Env) (stamp : Stamp) (data : Bytes) {e : Envelope}
    (hfrom : e.mailFrom ≠ none) (hto : e.rcptTo ≠ []) :
    WellAddressed env e data (parseEmail env stamp data e) := by
  obtain ⟨addr, haddr⟩ := Option.ne_none_iff_exists'.mp hfrom
  have hnonempty := toAddrs_ne_nil env stamp data hto
  refine ⟨⟨addr, haddr, ?_⟩, hnonempty, fun reading forwarding h => ?_⟩
  · rw [fromAddr_parseEmail, envelopeSender, haddr, Option.getD_some]
  · exact hnonempty (forwardEmail_no_recipients h).2

/-- A record that a move hands over was made of the message it read. -/
theorem handed_over {env : Env} {cfg : SmtpConfig} {c c' : Conn} {m : Move}
    {record : MailRecord} (h : Step env cfg c m c')
    (hrec : .push record ∈ m.events ∨ .forward record ∈ m.events) :
    ∃ bytes stamp, .body bytes ∈ m.events ∧ m.Says startData
      ∧ record = parseEmail env stamp bytes m.before.session.envelope := by
  obtain ⟨line, rest, bytes, stamp, hd⟩ :
      ∃ line rest bytes stamp, Delivers env cfg m line rest bytes stamp := by
    rcases hrec with he | he
    · exact h.delivers he (.push record)
    · exact h.delivers he (.forward record)
  refine ⟨bytes, stamp, by rw [hd.events]; simp, by rw [Move.Says, hd.events]; simp, ?_⟩
  rw [hd.events] at hrec
  rcases hrec with he | he
  · exact mem_deliver.1.mp he
  · exact (mem_deliver.2.mp he).2

/-- **No fallback is ever needed.**  In every run, every DATA that is accepted
    finds a sender and recipients, and every record that is stored or forwarded
    is well addressed, whatever the parser makes of its message. -/
theorem fallbacks_unused {env : Env} {cfg : SmtpConfig} {c c' : Conn} {l : List Move}
    (hrun : Run (Step env cfg) c l c') :
    (∀ m ∈ l, m.Says startData →
      m.before.session.mailFrom ≠ none ∧ m.before.session.rcptTo ≠ [])
    ∧ ∀ m ∈ l, ∀ record, (.push record ∈ m.events ∨ .forward record ∈ m.events) →
      ∃ bytes, .body bytes ∈ m.events
        ∧ WellAddressed env m.before.session.envelope bytes record := by
  have haccepted : ∀ m ∈ l, m.Says startData →
      m.before.session.mailFrom ≠ none ∧ m.before.session.rcptTo ≠ [] := by
    intro m hm hsays
    obtain ⟨u, v, hstep⟩ := hrun.step_of_mem hm
    rw [hstep.1]
    exact startData_envelope hstep hsays
  refine ⟨haccepted, fun m hm record hrec => ?_⟩
  obtain ⟨u, v, hstep⟩ := hrun.step_of_mem hm
  obtain ⟨bytes, stamp, hbody, hsays, rfl⟩ := handed_over hstep hrec
  obtain ⟨hfrom, hto⟩ := haccepted m hm hsays
  exact ⟨bytes, hbody, parseEmail_wellAddressed env stamp bytes hfrom hto⟩

/-- The one message of a session. -/
theorem fallbacks_unused_single :
    ∃ m ∈ (sampleRun openConfig none 4 oneSender).1, m.Says startData
      ∧ ∃ record bytes, .push record ∈ m.events
        ∧ WellAddressed sampleEnv m.before.session.envelope bytes record := by
  have hrun := sampleRun_run openConfig none 4 oneSender
  have hsome : ∃ m ∈ (sampleRun openConfig none 4 oneSender).1, m.body? = some sampleData := by
    decide +kernel
  obtain ⟨m, hm, hbody⟩ := hsome
  obtain ⟨t, u, hstep⟩ := hrun.step_of_mem hm
  obtain ⟨-, line, stamp, hev⟩ := body_move hstep (Move.mem_of_body? hbody)
  have hpush : .push (parseEmail sampleEnv stamp sampleData t.session.envelope) ∈ m.events := by
    rw [hev]
    exact mem_deliver.1.mpr rfl
  have hsays : m.Says startData := by
    rw [Move.Says, hev]
    simp
  obtain ⟨bytes, -, hgood⟩ := (fallbacks_unused hrun).2 m hm _ (Or.inl hpush)
  exact ⟨m, hm, hsays, _, bytes, hpush, hgood⟩

end Fallback
