import SmtpSink.ConnectionProofs
import SmtpSink.ForwardProofs

/-! # Envelopes — which sender and recipients a message is stored under

    The envelope of a transaction lives in two fields that MAIL, RCPT, RSET,
    DATA and STARTTLS change.  `EnvelopeHistory` ties them to the moves of the
    connection: the sender is the one accepted last, and the recipients are
    those the session had then and those accepted since.

    * `recipients_accepted_since` — where no MAIL FROM is accepted while
      recipients are outstanding, every recipient of a message was accepted
      after its sender.  A MAIL FROM does not clear the recipients, so without
      this they are inherited (`mailFrom_inherits`).
    * `oneTransaction_of_separated` — a client that ends what it began before the
      next MAIL FROM has none inherited.
    * `record_recipients` — the recipients a message is recorded, forwarded and
      stored under. -/

namespace SmtpEnvelope

open Utf8 Unicode SmtpReader SmtpRecord SmtpSession SmtpTurn Runs SmtpConnection
open SmtpForward

/-- The move accepts an address as the sender. -/
def AcceptsMail (m : Move) (addr : Text) : Prop :=
  m.verb? = some .mailFrom ∧ m.line?.bind mailAddress? = some addr ∧ m.Says "250 OK"

instance (m : Move) (addr : Text) : Decidable (AcceptsMail m addr) :=
  inferInstanceAs (Decidable (_ ∧ _ ∧ _))

/-- The move accepts an address as a recipient. -/
def AcceptsRcpt (m : Move) (addr : Text) : Prop :=
  m.verb? = some .rcptTo ∧ m.line?.bind rcptAddress? = some addr ∧ m.Says "250 OK"

/-- The most recent sender that was accepted: the moves before, its move and the
    moves since. -/
structure LastMail (l A : List Move) (x : Move) (B : List Move) (addr : Text) : Prop where
  split : l = A ++ x :: B
  accepts : AcceptsMail x addr
  last : ∀ y ∈ B, ∀ a, ¬ AcceptsMail y a

/-- The most recent sender is one move. -/
theorem LastMail.unique {l A A' : List Move} {x x' : Move} {B B' : List Move}
    {addr addr' : Text} (h : LastMail l A x B addr) (h' : LastMail l A' x' B' addr') :
    A = A' ∧ x = x' ∧ B = B' := by
  rcases List.append_eq_append_iff.mp (h.split.symm.trans h'.split) with
    ⟨D, rfl, hD⟩ | ⟨D, rfl, hD⟩
  · cases D with
    | nil =>
        obtain ⟨rfl, rfl⟩ := List.cons.inj hD
        exact ⟨(List.append_nil A).symm, rfl, rfl⟩
    | cons d D =>
        obtain ⟨-, rfl⟩ := List.cons.inj hD
        exact absurd h'.accepts (h.last x' (by simp) addr')
  · cases D with
    | nil =>
        obtain ⟨rfl, rfl⟩ := List.cons.inj hD
        exact ⟨List.append_nil A', rfl, rfl⟩
    | cons d D =>
        obtain ⟨-, rfl⟩ := List.cons.inj hD
        exact absurd h.accepts (h'.last x (by simp) addr)

/-- What the moves so far say about the envelope. -/
def EnvelopeHistory (l : List Move) (c : Conn) : Prop :=
  ∀ addr, c.session.mailFrom = some addr → ∃ A x B, LastMail l A x B addr
    ∧ ∀ a, a ∈ c.session.rcptTo ↔
      a ∈ x.before.session.rcptTo ∨ ∃ y ∈ B, AcceptsRcpt y a

section

variable {env : Env} {cfg : SmtpConfig} {l : List Move} {c c' : Conn} {m : Move}
  {line : Text} {rest : Bytes} {r : Reaction}

theorem acceptsMail_speaks (h : Speaks env cfg m line rest r) {addr : Text}
    (ha : AcceptsMail m addr) : r.session.envelope = ⟨some addr, m.before.session.rcptTo⟩ := by
  obtain ⟨hv, haddr, hsaid⟩ := ha
  obtain ⟨stamp, hturn⟩ := h.turn
  rw [h.verb?_eq] at hv
  rw [h.line?_eq] at haddr
  obtain ⟨-, addr', haddr', -, rfl⟩ :=
    (hturn.accepted_of_ok (h.said (by decide) hsaid)).1 hv
  obtain rfl := Option.some.inj (haddr'.symm.trans haddr)
  rfl

theorem acceptsRcpt_speaks (h : Speaks env cfg m line rest r) {addr : Text}
    (ha : AcceptsRcpt m addr) :
    r.session.envelope = ⟨m.before.session.mailFrom, m.before.session.rcptTo ++ [addr]⟩ := by
  obtain ⟨hv, haddr, hsaid⟩ := ha
  obtain ⟨stamp, hturn⟩ := h.turn
  rw [h.verb?_eq] at hv
  rw [h.line?_eq] at haddr
  obtain ⟨-, -, addr', haddr', rfl⟩ :=
    (hturn.accepted_of_ok (h.said (by decide) hsaid)).2 hv
  obtain rfl := Option.some.inj (haddr'.symm.trans haddr)
  rfl

/-- The history after a move that accepts no sender, from what it does to the
    envelope. -/
theorem EnvelopeHistory.snoc (hI : EnvelopeHistory l c)
    (hno : ∀ a, ¬ AcceptsMail m a)
    (hm : ∀ addr, c'.session.mailFrom = some addr → c.session.mailFrom = some addr)
    (hr : ∀ addr, c'.session.mailFrom = some addr →
      ∀ a, a ∈ c'.session.rcptTo ↔ a ∈ c.session.rcptTo ∨ AcceptsRcpt m a) :
    EnvelopeHistory (l ++ [m]) c' := by
  intro addr h
  obtain ⟨A, x, B, ⟨rfl, hx, hlast⟩, hrcpt⟩ := hI addr (hm addr h)
  refine ⟨A, x, B ++ [m], ⟨by simp, hx, ?_⟩, ?_⟩
  · intro y hy
    rcases List.mem_append.mp hy with hy | hy
    · exact hlast y hy
    · rw [List.mem_singleton.mp hy]
      exact hno
  · intro a
    rw [hr addr h a, hrcpt a, or_assoc]
    refine or_congr_right ?_
    constructor
    · rintro (⟨y, hy, ha⟩ | ha)
      · exact ⟨y, List.mem_append_left _ hy, ha⟩
      · exact ⟨m, List.mem_append_right _ List.mem_cons_self, ha⟩
    · rintro ⟨y, hy, ha⟩
      rcases List.mem_append.mp hy with hy | hy
      · exact Or.inl ⟨y, hy, ha⟩
      · rw [List.mem_singleton.mp hy] at ha
        exact Or.inr ha

theorem envelope_ext {s : Session} {from? : Option Text} {rcpts : List Text}
    (h : s.envelope = ⟨from?, rcpts⟩) : s.mailFrom = from? ∧ s.rcptTo = rcpts :=
  ⟨congrArg Envelope.mailFrom h, congrArg Envelope.rcptTo h⟩

/-- A move that only keeps or drops the envelope. -/
theorem EnvelopeHistory.keep (hI : EnvelopeHistory l c) (hno : ∀ a, ¬ AcceptsMail m a)
    (hnor : ∀ a, ¬ AcceptsRcpt m a)
    (h : c'.session.envelope = c.session.envelope ∨ c'.session.envelope = ⟨none, []⟩) :
    EnvelopeHistory (l ++ [m]) c' := by
  rcases h with h | h
  · have h1 : c'.session.mailFrom = c.session.mailFrom := congrArg Envelope.mailFrom h
    have h2 : c'.session.rcptTo = c.session.rcptTo := congrArg Envelope.rcptTo h
    refine hI.snoc hno (fun addr ha => h1 ▸ ha) (fun addr ha a => ?_)
    rw [h2]
    exact ⟨Or.inl, fun h => h.resolve_right (hnor a)⟩
  · obtain ⟨h1, -⟩ := envelope_ext h
    refine hI.snoc hno (fun addr ha => ?_) (fun addr ha => ?_)
    · rw [h1] at ha
      exact nomatch ha
    · rw [h1] at ha
      exact nomatch ha

theorem EnvelopeHistory.speaks (hI : EnvelopeHistory l m.before)
    (h : Speaks env cfg m line rest r) : EnvelopeHistory (l ++ [m]) m.after := by
  have hsession : m.after.session.envelope = r.session.envelope :=
    congrArg Session.envelope h.session_eq
  by_cases hmail : ∃ addr, AcceptsMail m addr
  · -- a new sender: the history starts again at this move
    obtain ⟨addr, ha⟩ := hmail
    obtain ⟨h1, h2⟩ := envelope_ext (hsession.trans (acceptsMail_speaks h ha))
    intro addr' h'
    obtain rfl : addr = addr' := Option.some.inj (h1.symm.trans h')
    refine ⟨l, m, [], ⟨rfl, ha, fun y hy => absurd hy List.not_mem_nil⟩, fun a => ?_⟩
    rw [h2]
    constructor
    · exact Or.inl
    · rintro (ha | ⟨y, hy, -⟩)
      · exact ha
      · exact absurd hy List.not_mem_nil
  · have hno : ∀ a, ¬ AcceptsMail m a := fun a ha => hmail ⟨a, ha⟩
    by_cases hrcpt : ∃ addr, AcceptsRcpt m addr
    · -- one more recipient
      obtain ⟨addr, ha⟩ := hrcpt
      obtain ⟨h1, h2⟩ := envelope_ext (hsession.trans (acceptsRcpt_speaks h ha))
      refine hI.snoc hno (fun addr' h' => h1 ▸ h') (fun addr' _ a => ?_)
      rw [h2, List.mem_append, List.mem_singleton]
      refine or_congr_right ⟨?_, fun hb => ?_⟩
      · rintro rfl
        exact ha
      · exact Option.some.inj (hb.2.1.symm.trans ha.2.1)
    · -- nothing accepted: no turn then adds to the envelope
      have hnor : ∀ a, ¬ AcceptsRcpt m a := fun a ha => hrcpt ⟨a, ha⟩
      obtain ⟨stamp, hturn⟩ := h.turn
      refine hI.keep hno hnor ?_
      rw [hsession]
      rcases hturn.envelope_effect with
        he | he | ⟨addr, hv, haddr, hok, -⟩ | ⟨addr, hv, haddr, hok, -⟩
      · exact Or.inl he
      · exact Or.inr he
      · refine absurd ⟨?_, ?_, h.mem_events hok⟩ (hno addr)
        · rw [h.verb?_eq, hv]
        · rw [h.line?_eq]; exact haddr
      · refine absurd ⟨?_, ?_, h.mem_events hok⟩ (hnor addr)
        · rw [h.verb?_eq, hv]
        · rw [h.line?_eq]; exact haddr

theorem EnvelopeHistory.step (hI : EnvelopeHistory l c) (h : Step env cfg c m c') :
    EnvelopeHistory (l ++ [m]) c' := by
  obtain ⟨rfl, rfl, hq | ⟨line, rest, r, hs⟩⟩ := step_cases h
  · have hverb : m.verb? = none := by rw [Move.verb?, hq.line?_eq]; rfl
    refine hI.keep (fun a ha => ?_) (fun a ha => ?_) hq.envelope
    · cases hverb.symm.trans ha.1
    · cases hverb.symm.trans ha.1
  · exact hI.speaks hs

theorem EnvelopeHistory.run (h0 : Initial cfg c) (h : Run (Step env cfg) c l c') :
    EnvelopeHistory l c' := by
  refine h.history_rule (I := EnvelopeHistory) ?_ (fun _ _ _ _ hI hs => hI.step hs)
  obtain ⟨input, rfl | rfl⟩ := h0
  · exact fun addr ha => nomatch ha
  · exact fun addr ha => nomatch ha

/-- A message is invited only by a session with an envelope. -/
theorem startData_envelope (h : Step env cfg c m c') (hm : m.Says startData) :
    c.session.mailFrom ≠ none ∧ c.session.rcptTo ≠ [] := by
  obtain ⟨rfl, rfl, hq | ⟨line, rest, r, hs⟩⟩ := step_cases h
  · exact absurd (reply_injective (hq.mem_events hm)) (by decide)
  · obtain ⟨stamp, hturn⟩ := hs.turn
    rcases hturn.says_or_data with ⟨lines, hev, hno⟩ | ⟨hopens, -⟩
    · have := hs.said (by decide) hm
      rw [hev] at this
      exact absurd (by decide) (hno _ (reply_mem_map.mp this))
    · exact ⟨hopens.sender, hopens.recipients⟩

end

/-- The recipients a message is received for were all accepted after the sender
    it is received from, and no other sender was accepted in between. -/
def OneTransaction (pre : List Move) (m : Move) : Prop :=
  ∃ A x B addr, LastMail pre A x B addr ∧ m.before.session.mailFrom = some addr
    ∧ ∀ a ∈ m.before.session.rcptTo, ∃ y ∈ B, AcceptsRcpt y a

/-- A message has the recipients of its own sender exactly when those outstanding
    at its MAIL FROM, if any, are all accepted again after it. -/
theorem oneTransaction_iff {env : Env} {cfg : SmtpConfig} {c c' : Conn}
    {pre post : List Move} {m : Move} (h0 : Initial cfg c)
    (hrun : Run (Step env cfg) c (pre ++ m :: post) c') (hm : m.Says startData) :
    OneTransaction pre m ↔ ∃ A x B addr, LastMail pre A x B addr
      ∧ m.before.session.mailFrom = some addr
      ∧ ∀ a ∈ x.before.session.rcptTo, ∃ y ∈ B, AcceptsRcpt y a := by
  obtain ⟨t, t', hpre, hstep, -⟩ := hrun.step_at
  obtain ⟨hmail, -⟩ := startData_envelope hstep hm
  obtain ⟨rfl, -, -⟩ := hstep
  obtain ⟨addr, haddr⟩ := Option.ne_none_iff_exists'.mp hmail
  obtain ⟨A, x, B, hlast, hrcpt⟩ := EnvelopeHistory.run h0 hpre addr haddr
  constructor
  · rintro ⟨A', x', B', addr', hlast', haddr', hall⟩
    obtain ⟨rfl, rfl, rfl⟩ := hlast'.unique hlast
    exact ⟨A', x', B', addr', hlast', haddr', fun a ha => hall a ((hrcpt a).mpr (Or.inl ha))⟩
  · rintro ⟨A', x', B', addr', hlast', haddr', hall⟩
    obtain ⟨rfl, rfl, rfl⟩ := hlast'.unique hlast
    refine ⟨A', x', B', addr', hlast', haddr', fun a ha => ?_⟩
    rcases (hrcpt a).mp ha with h | h
    · exact hall a h
    · exact h

/-- **Recipients are not inherited when the sender was accepted on its own.**  In
    every run, a message whose MAIL FROM found the session without recipients has
    the recipients accepted after that MAIL FROM. -/
theorem recipients_accepted_since {env : Env} {cfg : SmtpConfig} {c c' : Conn}
    {pre post : List Move} {m : Move}
    (hfresh : ∀ A x B addr, LastMail pre A x B addr → x.before.session.rcptTo = [])
    (h0 : Initial cfg c) (hrun : Run (Step env cfg) c (pre ++ m :: post) c')
    (hm : m.Says startData) : OneTransaction pre m := by
  obtain ⟨t, t', hpre, hstep, -⟩ := hrun.step_at
  obtain ⟨hmail, -⟩ := startData_envelope hstep hm
  obtain ⟨addr, haddr⟩ := Option.ne_none_iff_exists'.mp hmail
  obtain ⟨A, x, B, hlast, -⟩ := EnvelopeHistory.run h0 hpre addr haddr
  have hmail : m.before.session.mailFrom = some addr := by
    rw [hstep.1]
    exact haddr
  refine (oneTransaction_iff h0 hrun hm).mpr ⟨A, x, B, addr, hlast, hmail, ?_⟩
  rw [hfresh A x B addr hlast]
  exact fun a ha => absurd ha List.not_mem_nil

/-- The move drops the recipients: an RSET, a message that is queued, or the upgrade
    to TLS. -/
def Clears (m : Move) : Prop :=
  (m.verb? = some .rset ∧ m.Says "250 OK") ∨ m.Says "250 OK: queued" ∨ m.after.phase = .tlsFresh

/-- Between a recipient that is accepted and the next sender that is, something drops
    the recipients. -/
def Separated (l : List Move) : Prop :=
  ∀ A y B x C a addr, l = A ++ y :: (B ++ x :: C) → AcceptsRcpt y a → AcceptsMail x addr →
    ∃ z ∈ B, Clears z

/-- A session with recipients has accepted one that nothing has dropped since. -/
def Outstanding (l : List Move) (c : Conn) : Prop :=
  c.session.rcptTo ≠ [] → ∃ A y B a, l = A ++ y :: B ∧ AcceptsRcpt y a ∧ ∀ z ∈ B, ¬ Clears z

section

variable {env : Env} {cfg : SmtpConfig} {l : List Move} {c c' : Conn} {m : Move}

/-- What drops the recipients leaves none. -/
theorem Clears.rcptTo_eq (h : Step env cfg c m c') (hm : Clears m) : c'.session.rcptTo = [] := by
  obtain ⟨rfl, rfl, hq | ⟨line, rest, r, hs⟩⟩ := step_cases h
  · rcases hm with ⟨hv, -⟩ | hsaid | htls
    · rw [Move.verb?, hq.line?_eq] at hv
      cases hv
    · exact absurd (reply_injective (hq.mem_events hsaid)) (by decide)
    · cases hq with
      | upgrades input _ _ ha => rw [ha]; rfl
      | greets _ _ ha | handshakeFails _ _ ha | greetsTls _ _ ha =>
          rw [ha] at htls
          cases htls
      | hangsUp _ _ hc _ =>
          rw [hc] at htls
          cases htls
  · obtain ⟨stamp, hturn⟩ := hs.turn
    rw [hs.session_eq]
    rcases hm with ⟨hv, hok⟩ | hsaid | htls
    · exact hturn.rset_rcptTo (by rwa [← hs.verb?_eq]) (hs.said (by decide) hok)
    · exact hturn.queued_rcptTo (hs.said (by decide) hsaid)
    · rw [hs.after] at htls
      split_ifs at htls
      · rcases tlsNext_cases r.result with hnext | hnext
        · rw [hnext] at htls
          cases htls
        · rw [hnext] at htls
          cases htls
      · rcases plainNext_cases cfg r.result with hnext | hnext | hnext
        · rw [hnext] at htls
          cases htls
        · rw [hnext] at htls
          cases htls
        · rw [hnext] at htls
          cases htls

/-- Recipients come from a RCPT TO that is accepted. -/
theorem accepts_of_rcptTo (h : Step env cfg c m c') (hbefore : c.session.rcptTo = [])
    (hafter : c'.session.rcptTo ≠ []) : ∃ a, AcceptsRcpt m a := by
  obtain ⟨rfl, rfl, hq | ⟨line, rest, r, hs⟩⟩ := step_cases h
  · rcases hq.envelope with he | he
    · exact absurd ((congrArg Envelope.rcptTo he).trans hbefore) hafter
    · exact absurd (congrArg Envelope.rcptTo he) hafter
  · obtain ⟨stamp, hturn⟩ := hs.turn
    rw [hs.session_eq] at hafter
    rcases hturn.envelope_effect with he | he | ⟨addr, -, -, -, he⟩ | ⟨addr, hv, haddr, hok, -⟩
    · exact absurd ((congrArg Envelope.rcptTo he).trans hbefore) hafter
    · exact absurd (congrArg Envelope.rcptTo he) hafter
    · exact absurd ((congrArg Envelope.rcptTo he).trans hbefore) hafter
    · refine ⟨addr, ?_, ?_, hs.mem_events hok⟩
      · rw [hs.verb?_eq, hv]
      · rw [hs.line?_eq]
        exact haddr

theorem Outstanding.step (hI : Outstanding l c) (h : Step env cfg c m c') :
    Outstanding (l ++ [m]) c' := by
  intro hafter
  have hkeeps : ¬ Clears m := fun hm => hafter (hm.rcptTo_eq h)
  by_cases hbefore : c.session.rcptTo = []
  · obtain ⟨a, ha⟩ := accepts_of_rcptTo h hbefore hafter
    exact ⟨l, m, [], a, rfl, ha, fun z hz => absurd hz List.not_mem_nil⟩
  · obtain ⟨A, y, B, a, rfl, ha, hB⟩ := hI hbefore
    refine ⟨A, y, B ++ [m], a, by simp, ha, fun z hz => ?_⟩
    rcases List.mem_append.mp hz with hz | hz
    · exact hB z hz
    · rwa [List.mem_singleton.mp hz]

theorem Outstanding.run (h0 : Initial cfg c) (h : Run (Step env cfg) c l c') :
    Outstanding l c' := by
  refine h.history_rule (I := Outstanding) ?_ (fun _ _ _ _ hI hs => hI.step hs)
  obtain ⟨input, rfl | rfl⟩ := h0
  · exact fun hne => absurd rfl hne
  · exact fun hne => absurd rfl hne

/-- **A client that finishes what it began** has no recipients inherited: where each
    accepted RCPT TO is followed by an RSET, a message or STARTTLS before the next
    MAIL FROM that is accepted, a message has the recipients of its own sender. -/
theorem oneTransaction_of_separated {pre post : List Move} (h0 : Initial cfg c)
    (hrun : Run (Step env cfg) c (pre ++ m :: post) c') (hm : m.Says startData)
    (hsep : Separated pre) : OneTransaction pre m := by
  obtain ⟨t, t', hpre, hstep, -⟩ := hrun.step_at
  obtain ⟨hmail, -⟩ := startData_envelope hstep hm
  obtain ⟨addr, haddr⟩ := Option.ne_none_iff_exists'.mp hmail
  obtain ⟨A, x, B, hlast, -⟩ := EnvelopeHistory.run h0 hpre addr haddr
  have hsender : m.before.session.mailFrom = some addr := by
    rw [hstep.1]
    exact haddr
  refine (oneTransaction_iff h0 hrun hm).mpr ⟨A, x, B, addr, hlast, hsender, fun a ha => ?_⟩
  -- a recipient that was there at the MAIL FROM would not be separated from it
  have hsplit := hlast.split
  rw [hsplit] at hpre
  obtain ⟨d, d', hbefore, hx, -⟩ := hpre.step_at
  rw [hx.1] at ha
  obtain ⟨A', y, B', b, rfl, hy, hkeeps⟩ := Outstanding.run h0 hbefore (List.ne_nil_of_mem ha)
  have hshape : pre = A' ++ y :: (B' ++ x :: B) := by
    rw [hsplit]
    simp
  obtain ⟨z, hz, hclears⟩ := hsep A' y B' x B b addr hshape hy hlast.accepts
  exact absurd hclears (hkeeps z hz)

end

/-- A server that asks nothing of its clients. -/
def openConfig : SmtpConfig := ⟨[], false, false, none, none, true⟩

/-- A client that gives a sender, a recipient and a message. -/
def oneSender : Bytes :=
  encode "MAIL FROM:<a>\r\nRCPT TO:<x>\r\nDATA\r\n".toList ++ sampleData
    ++ encode ".\r\n".toList

theorem recipients_accepted_since_single :
    let run := (sampleRun openConfig none 4 oneSender).1
    run.length = 4 ∧ OneTransaction (run.take 3) (run.get ⟨3, by decide +kernel⟩) := by
  have hlen : (sampleRun openConfig none 4 oneSender).1.length = 4 := by decide +kernel
  refine ⟨hlen, recipients_accepted_since ?_ ⟨oneSender, Or.inl rfl⟩
    (sampleRun_last hlen) (by decide +kernel)⟩
  intro A x B addr hlast
  have hnone : ∀ x ∈ (sampleRun openConfig none 4 oneSender).1.take 3,
      x.before.session.rcptTo = [] := by decide +kernel
  exact hnone x (by rw [hlast.split]; simp)

/-- A client that gives a second sender after its recipient. -/
def twoSenders : Bytes :=
  encode "MAIL FROM:<a>\r\nRCPT TO:<x>\r\nMAIL FROM:<b>\r\nDATA\r\n".toList
    ++ sampleData ++ encode ".\r\n".toList

/-- A second MAIL FROM inherits the recipient of the first. -/
theorem mailFrom_inherits :
    let run := sampleRun openConfig none 5 twoSenders
    Run (Step sampleEnv openConfig) (Conn.start openConfig twoSenders) run.1 run.2
      ∧ run.1.length = 5 ∧ (run.1.get ⟨4, by decide +kernel⟩).Says startData
      ∧ ¬ OneTransaction (run.1.take 4) (run.1.get ⟨4, by decide +kernel⟩) := by
  have hlen : (sampleRun openConfig none 5 twoSenders).1.length = 5 := by decide +kernel
  refine ⟨sampleRun_run _ _ _ _, hlen, by decide +kernel, ?_⟩
  rintro ⟨A, x, B, addr, hlast, -, hall⟩
  have hmail : AcceptsMail ((sampleRun openConfig none 5 twoSenders).1.get
      ⟨3, by decide +kernel⟩) "b".toList := by decide +kernel
  -- the sender is that of the last move before DATA, so nothing follows it
  have hpre := take_append_last (l := (sampleRun openConfig none 5 twoSenders).1.take 4)
    (n := 3) (by decide +kernel)
  obtain ⟨-, -, rfl⟩ := hlast.unique ⟨hpre, hmail, fun y hy => absurd hy List.not_mem_nil⟩
  obtain ⟨y, hy, -⟩ := hall "x".toList (by decide +kernel)
  exact absurd hy List.not_mem_nil

/-! ## The recipients of a record -/

/-- A move that reads a message delivers it. -/
theorem body_delivers {env : Env} {cfg : SmtpConfig} {c c' : Conn} {m : Move}
    {bytes : Bytes} (h : Step env cfg c m c') (hbody : .body bytes ∈ m.events) :
    ∃ line rest stamp, Delivers env cfg m line rest bytes stamp := by
  obtain ⟨line, rest, bytes', stamp, hd⟩ := h.delivers hbody (.body bytes)
  have hbytes : bytes = bytes' := by
    have hmem := hbody
    rw [hd.events, deliver] at hmem
    cases hf : cfg.forwardHandle with
    | true => simpa [hf, reply] using hmem
    | false => simpa [hf, reply] using hmem
  exact ⟨line, rest, stamp, hbytes ▸ hd⟩

/-- A move that reads a message: its DATA is accepted, and one record is made
    of the message, forwarded where that is configured, and stored. -/
theorem body_move {env : Env} {cfg : SmtpConfig} {c c' : Conn} {m : Move}
    {bytes : Bytes} (h : Step env cfg c m c') (hbody : .body bytes ∈ m.events) :
    c.session.rcptTo ≠ [] ∧ ∃ line stamp,
      m.events = [.read line, reply startData, .body bytes]
        ++ deliver cfg (parseEmail env stamp bytes c.session.envelope)
        ++ [reply "250 OK: queued"] := by
  obtain ⟨line, rest, stamp, hd⟩ := body_delivers h hbody
  obtain ⟨rfl, -, -⟩ := h
  exact ⟨hd.opens.recipients, line, stamp, hd.events⟩

/-- The records of a delivery are the one delivered. -/
theorem mem_deliver {cfg : SmtpConfig} {record record' : MailRecord} {line : Text}
    {bytes : Bytes} :
    (.push record' ∈ [.read line, reply startData, .body bytes] ++ deliver cfg record
        ++ [reply "250 OK: queued"] ↔ record' = record)
    ∧ (.forward record' ∈ [.read line, reply startData, .body bytes] ++ deliver cfg record
        ++ [reply "250 OK: queued"] ↔ cfg.forwardHandle = true ∧ record' = record) := by
  rw [deliver]
  cases cfg.forwardHandle with
  | true => simp [reply]
  | false => simp [reply]

/-- **The recipients of a message's record.**  Of every message that is read one
    record is made; it is stored once, and forwarded once where that is
    configured.  Its recipients are the addresses of the `To` header when the
    parser finds any, and the accepted recipients otherwise; an accepted
    recipient is missing exactly when the header names addresses and not it. -/
theorem record_recipients {env : Env} {cfg : SmtpConfig} {c c' : Conn}
    {pre post : List Move} {m : Move} {bytes : Bytes}
    (hrun : Run (Step env cfg) c (pre ++ m :: post) c') (hbody : .body bytes ∈ m.events) :
    ∃ record : MailRecord,
      m.pushed = [record]
      ∧ m.forwarded = (if cfg.forwardHandle = true then [record] else [])
      ∧ record.raw = bytes
      ∧ record.toAddrs = (if headerRecipients env bytes = [] then m.before.session.rcptTo
        else headerRecipients env bytes)
      ∧ (∀ a ∈ m.before.session.rcptTo, a ∈ record.toAddrs
        ↔ headerRecipients env bytes = [] ∨ a ∈ headerRecipients env bytes)
      ∧ ∀ forwarding : ForwardConfig, forwarding.toOverride = none →
        recipients forwarding record = record.toAddrs := by
  obtain ⟨t, t', -, hstep, -⟩ := hrun.step_at
  obtain ⟨line, rest, stamp, hd⟩ := body_delivers hstep hbody
  refine ⟨parseEmail env stamp bytes m.before.session.envelope, hd.pushed_eq, hd.forwarded_eq,
    raw_parseEmail _ _ _ _, toAddrs_parseEmail _ _ _ _, ?_, ?_⟩
  · intro a ha
    rw [toAddrs_parseEmail]
    by_cases hnil : headerRecipients env bytes = []
    · rw [if_pos hnil]
      exact ⟨fun _ => Or.inl hnil, fun _ => ha⟩
    · rw [if_neg hnil]
      exact ⟨Or.inr, fun h => h.resolve_left hnil⟩
  · intro forwarding hnone
    rw [recipients, hnone]

theorem record_recipients_single :
    let m := (sampleRun openConfig none 4 oneSender).1.get ⟨3, by decide +kernel⟩
    m.body? = some sampleData ∧ ∃ record : MailRecord, m.pushed = [record]
      ∧ ("x".toList ∈ record.toAddrs ↔ headerRecipients sampleEnv sampleData = []
        ∨ "x".toList ∈ headerRecipients sampleEnv sampleData) := by
  have hlen : (sampleRun openConfig none 4 oneSender).1.length = 4 := by decide +kernel
  have hbody : ((sampleRun openConfig none 4 oneSender).1.get ⟨3, by decide +kernel⟩).body?
      = some sampleData := by decide +kernel
  have hrcpt : "x".toList ∈ ((sampleRun openConfig none 4 oneSender).1.get
      ⟨3, by decide +kernel⟩).before.session.rcptTo := by decide +kernel
  obtain ⟨record, hpush, -, -, -, hmem, -⟩ :=
    record_recipients (sampleRun_last hlen) (Move.mem_of_body? hbody)
  exact ⟨hbody, record, hpush, hmem _ hrcpt⟩

/-- The only recipient of this client is not the one its message names, and it
    is missing from the record. -/
theorem record_misses_recipient :
    let run := sampleRun openConfig none 4 oneSender
    let m := run.1.get ⟨3, by decide +kernel⟩
    Run (Step sampleEnv openConfig) (Conn.start openConfig oneSender) run.1 run.2
      ∧ m.Says startData ∧ m.before.session.rcptTo = ["x".toList]
      ∧ ∃ record : MailRecord, .push record ∈ m.events ∧ .forward record ∈ m.events
        ∧ "x".toList ∉ record.toAddrs := by
  have hlen : (sampleRun openConfig none 4 oneSender).1.length = 4 := by decide +kernel
  have hbody : ((sampleRun openConfig none 4 oneSender).1.get ⟨3, by decide +kernel⟩).body?
      = some sampleData := by decide +kernel
  refine ⟨sampleRun_run _ _ _ _, by decide +kernel, by decide +kernel, ?_⟩
  obtain ⟨t, t', -, hstep, -⟩ := (sampleRun_last hlen).step_at
  obtain ⟨-, line, stamp, hev⟩ := body_move hstep (Move.mem_of_body? hbody)
  refine ⟨parseEmail sampleEnv stamp sampleData t.session.envelope, ?_, ?_, ?_⟩
  · rw [hev]
    exact mem_deliver.1.mpr rfl
  · rw [hev]
    exact mem_deliver.2.mpr ⟨rfl, rfl⟩
  · have hheader : headerRecipients sampleEnv sampleData = ["v@d".toList] := by
      decide +kernel
    rw [toAddrs_parseEmail, hheader, if_neg (List.cons_ne_nil _ _)]
    decide

end SmtpEnvelope
