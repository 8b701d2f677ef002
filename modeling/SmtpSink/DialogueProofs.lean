import SmtpSink.ServerProofs

/-! # Dialogues — what a client can tell of its connection

    A client sees the lines it sends, the last line of each answer, that a TLS
    handshake succeeds, and what the server does unprompted: that it greets, and
    that it closes.  `Mirror` is a connection rebuilt from that alone, from the
    state it began in: it knows neither the configuration nor the stream, and
    `Mirror.hear` never looks at an account, a whitelist or a data section.

    * `turn_learned` — the answer to a line tells what the line did to the session
      and where the connection goes next;
    * `mirrored` — in every run the mirror shows the connection as it is, and the
      envelopes of the messages it took, in order.  So of two servers that begin in
      one state, with the same demand for authentication and on the same kind of
      connection, those that say the same are in the same state, whatever else
      they are configured with. -/

namespace SmtpDialogue

open Utf8 Unicode SmtpReader SmtpRecord SmtpSession SmtpTurn Runs SmtpConnection SmtpServer

/-! ## What is said -/

/-- A written line, as it stands on the wire. -/
def wire (text : String) : Text := text.toList ++ ['\r', '\n']

/-- What the last line of an answer says. -/
inductive Answer where
  /-- nothing was answered -/
  | silence
  | accepted
  | queued
  | authenticated
  | asksResponse
  | asksUsername
  | asksPassword
  /-- a message was invited, and nothing was said about it -/
  | invited
  | upgrades
  | bye
  | refused
  deriving DecidableEq

/-- The answers a client tells apart; every other line is a refusal. -/
def answer : Option Text → Answer
  | none => .silence
  | some text =>
      if text = wire "250 OK" then .accepted
      else if text = wire "250 OK: queued" then .queued
      else if text = wire "235 Authentication successful" then .authenticated
      else if text = wire "334 " then .asksResponse
      else if text = wire "334 VXNlcm5hbWU6" then .asksUsername
      else if text = wire "334 UGFzc3dvcmQ6" then .asksPassword
      else if text = wire startData then .invited
      else if text = wire "220 Ready to start TLS" then .upgrades
      else if text = wire "221 Bye" then .bye
      else .refused

/-- What a client observes of a move. -/
inductive Utterance where
  /-- a line it sent, and the last line of the answer -/
  | said (line : Text) (last? : Option Text)
  /-- a TLS handshake succeeded -/
  | secured
  /-- neither: a greeting, a failed handshake, the end of the stream -/
  | unprompted

def utterance (m : Move) : Utterance :=
  match m.line? with
  | some line => .said line (replies m).getLast?
  | none =>
      if m.before.phase = .upgrading ∧ m.after.phase = .tlsFresh then .secured
      else .unprompted

/-! ## The mirror -/

/-- A connection as its client knows it: where it stands, its session, and the
    envelopes of the messages it took. -/
structure Mirror where
  phase : Phase
  session : Session
  filed : List Envelope
  deriving DecidableEq

/-- What an answer to a line tells about the session. -/
def learn (env : Env) (s : Session) (line : Text) : Answer → Session
  | .accepted =>
      match verb? s line with
      | some .mailFrom => { s with mailFrom := mailAddress? line }
      | some .rcptTo => { s with rcptTo := s.rcptTo ++ (rcptAddress? line).toList }
      | some .rset => s.reset
      | _ => s
  | .queued => s.reset
  | .authenticated => { s with authenticated := true, authState := .none }
  | .asksResponse => { s with authState := .waitingForPlain }
  | .asksUsername => { s with authState := .waitingForLoginUsername }
  | .asksPassword =>
      { s with authState := .waitingForLoginPassword
                 (fromUtf8Lossy ((env.base64Decode (trim line)).getD [])) }
  | .refused => { s with authState := .none }
  | .silence | .invited | .upgrades | .bye => s

/-- Where an answer leads. -/
def proceed (p : Phase) : Answer → Phase
  | .silence | .invited | .bye => .closed
  | .upgrades => .upgrading
  | .accepted | .queued | .authenticated | .asksResponse | .asksUsername | .asksPassword
  | .refused => p

/-- Where a connection goes on its own. -/
def drift : Phase → Phase
  | .fresh => .plain
  | .tlsFresh => .tls
  | .plain | .upgrading | .tls | .closed => .closed

/-- The mirror after one more observation. -/
def Mirror.hear (env : Env) (k : Mirror) : Utterance → Mirror
  | .said line last? =>
      ⟨proceed k.phase (answer last?), learn env k.session line (answer last?),
        k.filed ++ if answer last? = .queued then [k.session.envelope] else []⟩
  | .secured => { k with phase := .tlsFresh
                         session := { k.session with tlsActive := true }.reset }
  | .unprompted => { k with phase := drift k.phase }

/-- The mirror of a connection that has taken messages under some envelopes. -/
def mirror (c : Conn) (filed : List Envelope) : Mirror := ⟨c.phase, c.session, filed⟩

/-! ## One turn -/

section

variable {env : Env} {cfg : SmtpConfig} {stamp : Stamp} {line : Text} {rest : Bytes}
  {s : Session} {r : Reaction}

/-- The last line some events write. -/
def last? (events : List Event) : Option Text := (events.filterMap written?).getLast?

theorem last?_append_reply (events : List Event) (text : String) :
    last? (events ++ [reply text]) = some (wire text) := by
  rw [last?, List.filterMap_append]
  exact List.getLast?_concat

theorem last?_reply (text : String) : last? [reply text] = some (wire text) := rfl

theorem answer_refusal {text : String} (h : text ∈ refusals) :
    answer (some (wire text)) = .refused := by
  have hall : ∀ t ∈ refusals, answer (some (wire t)) = .refused := by decide
  exact hall text h

/-- The answer to EHLO ends like that to any accepted command. -/
theorem last?_ehlo (cfg : SmtpConfig) (s : Session) :
    last? (ehlo cfg s).events = some (wire "250 OK") := by
  rw [ehlo, say_events, List.map_append]
  exact last?_append_reply _ _

/-- What a turn did to the session can be told from its last line. -/
theorem turn_learned (h : Turn env cfg stamp line rest s r) :
    r.session = learn env s line (answer (last? r.events)) := by
  cases h with
  | refused text ht =>
      rw [say_events, List.map_singleton, last?_reply, answer_refusal ht]
      rfl
  | promptPlain => rfl
  | promptLogin => rfl
  | promptPassword d hw hd =>
      show _ = learn env s line .asksPassword
      rw [learn, hd]
      rfl
  | authenticated => rfl
  | ehlo hv =>
      rw [last?_ehlo]
      show s = learn env s line .accepted
      rw [learn, hv]
  | starttls => rfl
  | mailAccepted addr hv hl ha =>
      show _ = learn env s line .accepted
      rw [learn, hv, ha]
      rfl
  | rcptAccepted addr hv hl hm ha =>
      show _ = learn env s line .accepted
      rw [learn, hv, ha]
      rfl
  | dataFailed => rfl
  | dataAccepted =>
      rw [last?_append_reply]
      rfl
  | rset hv =>
      show _ = learn env s line .accepted
      rw [learn, hv]
      rfl
  | noop hv =>
      show _ = learn env s line .accepted
      rw [learn, hv]
      rfl
  | quit => rfl
  | panicked => rfl

/-- Where a turn leads can be told from its last line. -/
theorem turn_proceeds (h : Turn env cfg stamp line rest s r) :
    plainNext cfg r.result = proceed .plain (answer (last? r.events))
      ∧ (r.result ≠ .ok .startTls →
        tlsNext r.result = proceed .tls (answer (last? r.events))) := by
  cases h with
  | refused text ht =>
      rw [say_events, List.map_singleton, last?_reply, answer_refusal ht]
      exact ⟨rfl, fun _ => rfl⟩
  | ehlo =>
      rw [last?_ehlo]
      exact ⟨rfl, fun _ => rfl⟩
  | starttls hv ht ha =>
      refine ⟨?_, fun h => absurd rfl h⟩
      show plainNext cfg (.ok .startTls) = .upgrading
      rw [plainNext, if_pos ht]
  | dataAccepted =>
      rw [last?_append_reply]
      exact ⟨rfl, fun _ => rfl⟩
  | _ => exact ⟨rfl, fun _ => rfl⟩

theorem filed_say (s : Session) (lines : List String) :
    (say s lines).events.filterMap pushedRecord? = [] := by
  rw [say_events, List.filterMap_map]
  exact List.filterMap_eq_nil_iff.mpr (fun _ _ => rfl)

/-- A turn files one message where its last line says so, and none elsewhere. -/
theorem turn_files (h : Turn env cfg stamp line rest s r) :
    (r.events.filterMap pushedRecord?).map (fun _ => s.envelope)
      = if answer (last? r.events) = .queued then [s.envelope] else [] := by
  cases h with
  | refused text ht =>
      rw [filed_say, say_events, List.map_singleton, last?_reply, answer_refusal ht]
      rfl
  | ehlo =>
      rw [last?_ehlo, ehlo, filed_say]
      rfl
  | dataAccepted =>
      rw [last?_append_reply, deliver]
      cases cfg.forwardHandle with
      | true => rfl
      | false => rfl
  | _ => rfl

end

/-! ## One move -/

section

variable {env : Env} {cfg : SmtpConfig} {m : Move} {c c' : Conn} {line : Text}
  {rest : Bytes} {r : Reaction}

theorem speaks_utterance (h : Speaks env cfg m line rest r) :
    utterance m = .said line (last? m.events) := by
  rw [utterance, h.line?_eq]
  rfl

theorem speaks_handed (h : Speaks env cfg m line rest r) :
    m.handed.map Prod.fst
      = (r.events.filterMap pushedRecord?).map (fun _ => m.before.session.envelope) := by
  have hextra : (if m.before.phase = .tls then tlsExtra r.result else []).filterMap
      pushedRecord? = [] := by
    refine List.filterMap_eq_nil_iff.mpr (fun e he => ?_)
    split_ifs at he with htls
    · rw [mem_tlsExtra he]
      rfl
    · exact absurd he List.not_mem_nil
  rw [Move.handed, Move.pushed, List.map_map, h.events]
  show ((r.events ++ _).filterMap pushedRecord?).map _ = _
  rw [List.filterMap_append, hextra, List.append_nil]
  rfl

/-- Outside an AUTH exchange a refusal changes nothing. -/
theorem learn_refused {s : Session} (h : s.authState = .none) :
    learn env s line .refused = s := by
  rw [learn, ← h]

/-- A move that takes a line is heard as its turn is. -/
theorem speaks_heard (h : Speaks env cfg m line rest r) (filed : List Envelope) :
    mirror m.after (filed ++ m.handed.map Prod.fst)
      = (mirror m.before filed).hear env (utterance m) := by
  obtain ⟨stamp, hturn⟩ := h.turn
  rw [speaks_utterance h, speaks_handed h, turn_files hturn, mirror, h.after, Mirror.hear]
  by_cases hup : m.before.phase = .tls ∧ r.result = .ok .startTls
  · -- the loop of a TLS connection refuses the upgrade itself
    obtain ⟨hp, hres⟩ := hup
    obtain ⟨hv, -, -, rfl⟩ := hturn.startTls_inv hres
    have hlast : answer (last? m.events) = .refused := by
      rw [h.events, if_pos hp]
      show answer (some (wire "503 TLS already active")) = .refused
      exact answer_refusal (by decide)
    have hnone : answer (last? [reply "220 Ready to start TLS"]) = .upgrades := by decide
    dsimp only [mirror]
    rw [hlast, learn_refused (idle_of_verb? hv), hp]
    simp [proceed, tlsNext, hnone]
  · -- nothing is added to what the turn writes
    have hevents : m.events = .read line :: r.events := by
      rw [h.events]
      split_ifs with htls
      · rw [tlsExtra_eq_nil (fun hres => hup ⟨htls, hres⟩), List.append_nil]
      · rw [List.append_nil]
    have hlast : last? m.events = last? r.events := by
      rw [hevents]
      rfl
    rw [hlast]
    dsimp only [mirror]
    rw [← turn_learned hturn]
    rcases h.phase with hp | hp
    · rw [hp, if_neg (by decide), (turn_proceeds hturn).1]
    · rw [hp, if_pos rfl, (turn_proceeds hturn).2 (fun hres => hup ⟨hp, hres⟩)]

/-- A move that takes no line is heard as such. -/
theorem quiet_heard (h : Quiet cfg m) (filed : List Envelope) :
    mirror m.after (filed ++ m.handed.map Prod.fst)
      = (mirror m.before filed).hear env (utterance m) := by
  have hpushed : m.pushed = [] := by
    refine List.filterMap_eq_nil_iff.mpr (fun e he => ?_)
    rw [h.mem_events he]
    rfl
  rw [Move.handed, hpushed, utterance, h.line?_eq]
  cases h with
  | greets hp hev ha => simp [mirror, Mirror.hear, ha, hp, drift]
  | upgrades input hp hev ha => simp [mirror, Mirror.hear, ha, hp]
  | handshakeFails hp hev ha => simp [mirror, Mirror.hear, ha, hp, drift]
  | greetsTls hp hev ha => simp [mirror, Mirror.hear, ha, hp, drift]
  | hangsUp hp hev hc hs =>
      rcases hp with hp | hp
      · simp [mirror, Mirror.hear, hc, hs, hp, drift]
      · simp [mirror, Mirror.hear, hc, hs, hp, drift]

theorem step_heard (h : Step env cfg c m c') (filed : List Envelope) :
    mirror c' (filed ++ m.handed.map Prod.fst) = (mirror c filed).hear env (utterance m) := by
  obtain ⟨rfl, rfl, hq | ⟨line, rest, r, hs⟩⟩ := step_cases h
  · exact quiet_heard hq filed
  · exact speaks_heard hs filed

end

/-! ## A whole connection -/

section

variable {env : Env} {cfg : SmtpConfig} {c c' : Conn} {l : List Move}

/-- The connection at the end of some moves, and the envelopes of what they handed
    on. -/
def shown (l : List Move) (c : Conn) : Mirror := mirror c ((l.flatMap Move.handed).map Prod.fst)

theorem run_heard (h : Run (Step env cfg) c l c') :
    shown l c' = (l.map utterance).foldl (Mirror.hear env) (mirror c []) := by
  induction h with
  | nil => rfl
  | @snoc l d d' m _ hstep ih =>
      rw [List.map_append, List.foldl_append, ← ih, shown, List.flatMap_append, List.map_append,
        List.flatMap_singleton, step_heard hstep]
      rfl

end

/-- **The dialogue determines the connection.**  In every run, whatever the
    configuration, the clock and the rest of the stream: where the connection
    stands, its whole session and the envelopes its messages were handed on under
    are what the client makes of the lines, the last lines of the answers, the
    handshakes and the unprompted moves it observed, from the state in which the
    connection began.  So every run of another server that began in that state, and
    in which the same was observed, has come to the same. -/
theorem mirrored {env : Env} {cfg : SmtpConfig} {c c' : Conn} {l : List Move}
    (h : Run (Step env cfg) c l c') :
    shown l c' = (l.map utterance).foldl (Mirror.hear env) (mirror c [])
      ∧ ∀ (cfg' : SmtpConfig) (d d' : Conn) (l' : List Move), Run (Step env cfg') d l' d' →
        d.phase = c.phase → d.session = c.session → l'.map utterance = l.map utterance →
        shown l' d' = shown l c' := by
  refine ⟨run_heard h, fun cfg' d d' l' h' hphase hsession hsaid => ?_⟩
  have hstart : mirror d [] = mirror c [] := by rw [mirror, mirror, hphase, hsession]
  rw [run_heard h', run_heard h, hsaid, hstart]

/-- A client that sends one message knows that it was taken, and under which
    envelope. -/
theorem mirrored_single :
    let run := sampleRun SmtpEnvelope.openConfig none 4 SmtpEnvelope.oneSender
    (run.1.map utterance).foldl (Mirror.hear sampleEnv)
        (mirror (Conn.start SmtpEnvelope.openConfig SmtpEnvelope.oneSender) [])
      = ⟨.plain, Session.new false false, [⟨some "a".toList, ["x".toList]⟩]⟩ := by
  have hend : mirror (sampleRun SmtpEnvelope.openConfig none 4 SmtpEnvelope.oneSender).2
      (((sampleRun SmtpEnvelope.openConfig none 4 SmtpEnvelope.oneSender).1.flatMap
        Move.handed).map Prod.fst)
      = ⟨.plain, Session.new false false, [⟨some "a".toList, ["x".toList]⟩]⟩ := by
    decide +kernel
  have hrun := sampleRun_run SmtpEnvelope.openConfig none 4 SmtpEnvelope.oneSender
  exact (mirrored hrun).1.symm.trans hend

end SmtpDialogue
