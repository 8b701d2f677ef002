import SmtpSink.DeliveryProofs
import SmtpSink.RetentionProofs
import SmtpSink.ServerProofs
import SmtpSink.WireProofs

/-! # End to end — from the packets of a client to the listing

    A client sends any number of transactions and QUIT, over plaintext or SMTPS, to
    a server that asks for no authentication.

    `sent_is_listed` — however its bytes arrive, the session that has ended has
    stored one record for each transaction, in order, and the memory store holds the
    last of them. -/

namespace EndToEnd

open Utf8 SmtpReader SmtpRecord SmtpSession SmtpTurn SmtpConnection SmtpDelivery SmtpWire
  EmailStore Runs

/-- The line that ends a session. -/
def quitLine : Text := "QUIT\r\n".toList

/-- What a client sends. -/
def clientStream (ts : List Transaction) : Bytes :=
  encode (ts.flatMap Transaction.sent) ++ encode quitLine

/-- The record is that of a message under an envelope. -/
def MadeOf (env : Env) (h : Envelope × Bytes) (record : MailRecord) : Prop :=
  ∃ stamp, record = parseEmail env stamp h.2 h.1

/-- The records stored, as they are observed. -/
def storedRecords (l : List Label) : List MailRecord :=
  (l.flatMap Label.events).filterMap pushedRecord?

/-- What a memory store lists that these records were pushed to. -/
def listed (max : Nat) (records : List MailRecord) : List MailRecord :=
  (Retention.after max (records.map .push)).getAll

section

variable {env : Env} {cfg : SmtpConfig} {handshake : Option Bytes} {c c' d : Conn} {p : Phase}
  {s : Session} {m : Move} {ms k l : List Move}

/-! ## The moves of the session -/

/-- Every record is made of what is handed to the store with it. -/
theorem step_made (h : Step env cfg c m c') :
    List.Forall₂ (MadeOf env) m.handed m.pushed := by
  by_cases hnil : m.pushed = []
  · rw [Move.handed, hnil]
    exact List.Forall₂.nil
  · obtain ⟨record, hmem⟩ := List.exists_mem_of_ne_nil _ hnil
    obtain ⟨line, rest, bytes, stamp, hd⟩ :=
      h.delivers (Move.mem_pushed.mp hmem) (.push record)
    rw [hd.handed_eq, hd.pushed_eq]
    exact List.Forall₂.cons ⟨stamp, rfl⟩ List.Forall₂.nil

theorem run_made (h : Run (OwnStep env cfg handshake) c ms c') :
    List.Forall₂ (MadeOf env) (ms.flatMap Move.handed) (ms.flatMap Move.pushed) := by
  induction h with
  | nil => exact List.Forall₂.nil
  | snoc _ hstep ih =>
      rw [List.flatMap_append, List.flatMap_append, List.flatMap_singleton,
        List.flatMap_singleton]
      exact List.rel_append ih (step_made hstep.step)

/-- A session may go through some moves that hand messages to the store. -/
def Hands (env : Env) (cfg : SmtpConfig) (handshake : Option Bytes) (c : Conn)
    (handed : List (Envelope × Bytes)) (c' : Conn) : Prop :=
  ∃ ms, Run (OwnStep env cfg handshake) c ms c' ∧ ms.flatMap Move.handed = handed

theorem Hands.trans {handed handed' : List (Envelope × Bytes)}
    (h : Hands env cfg handshake c handed c') (h' : Hands env cfg handshake c' handed' d) :
    Hands env cfg handshake c (handed ++ handed') d := by
  obtain ⟨ms, hrun, rfl⟩ := h
  obtain ⟨ms', hrun', rfl⟩ := h'
  exact ⟨ms ++ ms', hrun.append hrun', List.flatMap_append⟩

/-- One line that leads somewhere. -/
theorem hands_of_leads (handshake : Option Bytes) {input : Bytes}
    {handed : List (Envelope × Bytes)} (hp : p = .plain ∨ p = .tls)
    (h : Leads (Step env cfg) Move.handed ⟨p, s, input⟩ 1 handed d) :
    Hands env cfg handshake ⟨p, s, input⟩ handed d := by
  obtain ⟨m, c', hstep⟩ := exists_ownStep env cfg handshake (c := ⟨p, s, input⟩) hp
  obtain ⟨hhanded, rfl⟩ := h.2 [m] c' (Run.single hstep.step) rfl
  exact ⟨[m], Run.single hstep, hhanded⟩

/-- A session says hello to its client and takes commands. -/
theorem greets_hands (env : Env) (handshake : Option Bytes) (hopen : cfg.authRequired = false)
    {input : Bytes} (hc : c = Conn.start cfg input ∨ c = Conn.startTls cfg input) :
    ∃ p s, Ready p s ∧ s.mailFrom = none ∧ s.rcptTo = []
      ∧ Hands env cfg handshake c [] ⟨p, s, input⟩ := by
  have hunlocked : ∀ tlsActive, (Session.new cfg.authRequired tlsActive).locked = false := by
    intro tlsActive
    rw [hopen]
    rfl
  have hmove : ∀ p s, OwnStep env cfg handshake c ⟨c, [reply greeting], ⟨p, s, input⟩⟩
      ⟨p, s, input⟩ → Hands env cfg handshake c [] ⟨p, s, input⟩ :=
    fun p s h => ⟨_, Run.single h, rfl⟩
  rcases hc with rfl | rfl
  · exact ⟨.plain, _, ⟨Or.inl rfl, rfl, hunlocked false⟩, rfl, rfl,
      hmove _ _ ⟨rfl, rfl, sampleStamp, rfl⟩⟩
  · exact ⟨.tls, _, ⟨Or.inr rfl, rfl, hunlocked true⟩, rfl, rfl,
      hmove _ _ ⟨rfl, rfl, sampleStamp, rfl⟩⟩

theorem rcpts_hands (env : Env) (cfg : SmtpConfig) (handshake : Option Bytes) (rest : Bytes)
    (rcpts : List Text) (hm : s.mailFrom ≠ none) (hrcpts : ∀ a ∈ rcpts, Bracketed a)
    (h : Ready p s) :
    Hands env cfg handshake ⟨p, s, encode (rcpts.flatMap rcptLine) ++ rest⟩ []
      ⟨p, { s with rcptTo := s.rcptTo ++ rcpts }, rest⟩ := by
  induction rcpts generalizing s with
  | nil =>
      rw [List.append_nil]
      exact ⟨[], Run.nil, rfl⟩
  | cons a rcpts ih =>
      have hfirst := hands_of_leads handshake h.phase (rcpt_leads env cfg
        (encode (rcpts.flatMap rcptLine) ++ rest) h hm (hrcpts a List.mem_cons_self))
      have hmore := ih (s := { s with rcptTo := s.rcptTo ++ [a] }) hm
        (fun b hb => hrcpts b (List.mem_cons_of_mem _ hb)) ⟨h.phase, h.idle, h.unlocked⟩
      rw [List.append_assoc] at hmore
      rw [List.flatMap_cons, encode_append, List.append_assoc]
      exact hfirst.trans hmore

/-- A transaction is handed on, and the envelope is empty again. -/
theorem transaction_hands (env : Env) (handshake : Option Bytes) (rest : Bytes)
    {t : Transaction} (h : Ready p s) (hm : s.mailFrom = none) (hr : s.rcptTo = [])
    (hw : t.Allowed cfg) :
    Hands env cfg handshake ⟨p, s, encode t.sent ++ rest⟩ [t.handed] ⟨p, s, rest⟩ := by
  have hmail := hands_of_leads handshake h.phase (mail_leads env
    (encode (t.recipients.flatMap rcptLine) ++ (encode dataLine ++ (encode t.body ++ rest))) h
    t.sender_bracketed hw)
  have hrcpts := rcpts_hands env cfg handshake (encode dataLine ++ (encode t.body ++ rest))
    t.recipients (s := { s with mailFrom := some t.sender }) (Option.some_ne_none t.sender)
    t.recipients_bracketed ⟨h.phase, h.idle, h.unlocked⟩
  have hne : s.rcptTo ++ t.recipients ≠ [] := by
    rw [hr]
    exact t.recipients_ne
  have hready : Ready p { s with
      mailFrom := some t.sender, rcptTo := s.rcptTo ++ t.recipients } :=
    ⟨h.phase, h.idle, h.unlocked⟩
  have hdata := hands_of_leads handshake h.phase
    (data_leads env cfg rest hready (t := t) (Option.some_ne_none t.sender) hne)
  have hall := hmail.trans (hrcpts.trans hdata)
  have hend : { s with mailFrom := some t.sender, rcptTo := s.rcptTo ++ t.recipients }.reset
      = s := by
    rw [Session.reset, ← hm, ← hr]
  have henv : Session.envelope { s with
      mailFrom := some t.sender, rcptTo := s.rcptTo ++ t.recipients }
      = ⟨some t.sender, t.recipients⟩ := by
    rw [Session.envelope, hr, List.nil_append]
  rw [hend, henv] at hall
  rw [t.sent_append, Transaction.handed]
  exact hall

theorem transactions_hands (env : Env) (handshake : Option Bytes) (rest : Bytes)
    (ts : List Transaction) (h : Ready p s) (hm : s.mailFrom = none) (hr : s.rcptTo = [])
    (hts : ∀ t ∈ ts, t.Allowed cfg) :
    Hands env cfg handshake ⟨p, s, encode (ts.flatMap Transaction.sent) ++ rest⟩
      (ts.map Transaction.handed) ⟨p, s, rest⟩ := by
  induction ts with
  | nil => exact ⟨[], Run.nil, rfl⟩
  | cons t ts ih =>
      have hfirst := transaction_hands env handshake
        (encode (ts.flatMap Transaction.sent) ++ rest) h hm hr (hts t List.mem_cons_self)
      rw [List.flatMap_cons, encode_append, List.append_assoc]
      exact hfirst.trans (ih (fun u hu => hts u (List.mem_cons_of_mem _ hu)))

/-- QUIT closes a session. -/
theorem quit_leads (env : Env) (cfg : SmtpConfig) (h : Ready p s) :
    Leads (Step env cfg) Move.handed ⟨p, s, encode quitLine⟩ 1 [] ⟨.closed, s, []⟩ := by
  refine Leads.single (exists_step h.phase s _) (fun m c' hstep => ?_)
  obtain ⟨hbefore, rfl, -⟩ := id hstep
  have hp : m.before.phase = .plain ∨ m.before.phase = .tls := by
    rw [hbefore]
    exact h.phase
  have hline : readLine m.before.input = .ok (quitLine, []) := by
    rw [hbefore]
    have hread := readLine_encode "QUIT\r".toList [] (by decide)
    rwa [List.append_nil] at hread
  obtain ⟨stamp, hs⟩ := hstep.interprets hp hline (by decide)
  have hverb : verb? s quitLine = some .quit := by
    rw [verb?_of_idle h.idle]
    decide +kernel
  have hturn : interpret env cfg stamp quitLine [] s
      = ⟨{ say s ["221 Bye"] with result := .ok .quit }, []⟩ := by
    rw [interpret_of_verb? hverb]
    rfl
  rw [hbefore, hturn] at hs
  have hpushed : m.pushed = [] := by
    rw [Move.pushed, hs.events, hbefore]
    rcases h.phase with rfl | rfl <;> rfl
  have hafter : m.after = ⟨.closed, s, []⟩ := by
    rw [hs.after, hbefore]
    rcases h.phase with rfl | rfl <;> rfl
  rw [Move.handed, hpushed, hafter]
  exact ⟨rfl, rfl⟩

/-- **The whole session** of such a client. -/
theorem session_hands (env : Env) (handshake : Option Bytes) (ts : List Transaction)
    (hopen : cfg.authRequired = false) (hts : ∀ t ∈ ts, t.Allowed cfg)
    (hc : c = Conn.start cfg (clientStream ts) ∨ c = Conn.startTls cfg (clientStream ts)) :
    ∃ s, Hands env cfg handshake c (ts.map Transaction.handed) ⟨.closed, s, []⟩ := by
  obtain ⟨p, s, hready, hm, hr, hgreets⟩ := greets_hands env handshake hopen hc
  have hall := (hgreets.trans
    (transactions_hands env handshake (encode quitLine) ts hready hm hr hts)).trans
    (hands_of_leads handshake hready.phase (quit_leads env cfg hready))
  rw [List.nil_append, List.append_nil] at hall
  exact ⟨s, hall⟩

/-- Nothing is done by a connection that is closed. -/
theorem closed_inv (hclosed : c.phase = .closed) (h : Run (OwnStep env cfg handshake) c ms c') :
    ms = [] := by
  cases ms with
  | nil => rfl
  | cons m ms =>
      obtain ⟨t, ⟨-, -, stamp, hstep⟩, -⟩ := h.cons_inv
      simp only [connStep, hclosed] at hstep
      cases hstep

/-- Two sessions of one stream that have ended have made as many moves. -/
theorem ended_length_le (hl : Run (OwnStep env cfg handshake) c l c')
    (hk : Run (OwnStep env cfg handshake) c k d) (hclosed : d.phase = .closed) :
    l.length ≤ k.length := by
  by_contra hlt
  rw [← List.take_append_drop k.length l] at hl
  obtain ⟨u, hfirst, hrest⟩ := hl.split
  have hlen : (l.take k.length).length = k.length := by
    rw [List.length_take]
    omega
  obtain ⟨-, -, rfl⟩ := SmtpServer.own_leads hfirst hk hlen.symm
  have hnil := closed_inv hclosed hrest
  rw [List.drop_eq_nil_iff] at hnil
  omega

/-- A session that has ended has handed on what it hands on whenever it ends. -/
theorem Hands.of_closed {handed : List (Envelope × Bytes)}
    (hhands : Hands env cfg handshake c handed d) (hd : d.phase = .closed)
    (h : Run (OwnStep env cfg handshake) c ms c') (hclosed : c'.phase = .closed) :
    ms.flatMap Move.handed = handed := by
  obtain ⟨k, hk, hhanded⟩ := hhands
  have hlen := le_antisymm (ended_length_le h hk hd) (ended_length_le hk h hclosed)
  rw [← hhanded]
  exact (SmtpServer.own_leads hk h hlen).2.1

/-- A session that has ended has handed on what such a client sent. -/
theorem ended_handed {ts : List Transaction} (hopen : cfg.authRequired = false)
    (hts : ∀ t ∈ ts, t.Allowed cfg)
    (hc : c = Conn.start cfg (clientStream ts) ∨ c = Conn.startTls cfg (clientStream ts))
    (h : Run (OwnStep env cfg handshake) c ms c') (hclosed : c'.phase = .closed) :
    ms.flatMap Move.handed = ts.map Transaction.handed := by
  obtain ⟨s, hhands⟩ := session_hands env handshake ts hopen hts hc
  exact hhands.of_closed rfl h hclosed

end

/-- **What a client sends is listed.**  Where no authentication is asked for, and
    however the bytes of a client arrive that sends some transactions and QUIT, the
    session that has ended has stored one record for each transaction, made of its
    envelope and its message, in order; and a memory store that receives them lists
    the last of them. -/
theorem sent_is_listed {env : Env} {cfg : SmtpConfig} {handshake : Option Bytes} {c : Conn}
    {ts : List Transaction} {l : List Label} {w : Wire} (hopen : cfg.authRequired = false)
    (hts : ∀ t ∈ ts, t.Allowed cfg)
    (hc : c = Conn.start cfg (clientStream ts) ∨ c = Conn.startTls cfg (clientStream ts))
    (hrun : Run (WireStep env cfg handshake) (Wire.of c) l w) (hended : w.phase = .closed) :
    List.Forall₂ (fun t record => MadeOf env t.handed record) ts (storedRecords l)
      ∧ ∀ max, listed max (storedRecords l) = (storedRecords l).drop (ts.length - max) := by
  obtain ⟨ms, c', hms, hclosed, hev⟩ := (Tracks.run hrun).of_closed hended
  -- such a client never comes to an upgrade, so it does not matter how that ends
  obtain ⟨given, hown⟩ := whole_own hms
  have hstored : storedRecords l = ms.flatMap Move.pushed := by
    rw [storedRecords, hev, List.filterMap_flatMap]
    rfl
  have hmade := run_made hown
  rw [ended_handed hopen hts hc hown hclosed, ← hstored, List.forall₂_map_left_iff] at hmade
  refine ⟨hmade, fun max => ?_⟩
  have hpushed : Retention.pushed ((storedRecords l).map .push) = storedRecords l := by
    rw [Retention.pushed, List.filterMap_map]
    exact List.filterMap_some
  have honly : ∀ op ∈ (storedRecords l).map StoreOp.push, ∃ email, op = .push email := by
    intro op hop
    obtain ⟨e, -, rfl⟩ := List.mem_map.mp hop
    exact ⟨e, rfl⟩
  have hall := Retention.after_pushes max honly
  rw [hpushed, ← hmade.length_eq] at hall
  exact hall

/-- One transaction, whose bytes arrive at once. -/
theorem sent_is_listed_once : ∃ l, List.Forall₂
    (fun t record => MadeOf sampleEnv t.handed record) [stuffedTransaction] (storedRecords l) := by
  have hts : ∀ t ∈ [stuffedTransaction], t.Allowed plainConfig := fun t _ => Or.inl rfl
  obtain ⟨s, ms, hms, -⟩ := session_hands sampleEnv none [stuffedTransaction] rfl hts
    (Or.inl rfl)
  obtain ⟨w, ⟨l, hrun, -⟩, hstands⟩ := run_shown (hms.mono (fun _ _ _ => Or.inl))
  have hended : w.phase = .closed := by
    rcases hstands with ⟨hclosed, -⟩ | ⟨-, hconn, -⟩
    · exact hclosed
    · exact congrArg Conn.phase hconn
  exact ⟨l, (sent_is_listed rfl hts (Or.inl rfl) hrun hended).1⟩

end EndToEnd
