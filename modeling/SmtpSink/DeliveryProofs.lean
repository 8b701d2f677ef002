import SmtpSink.ConnectionProofs

/-! # Delivery — transactions sent in one stream

    A client that does not wait for replies sends all its transactions at once.
    Each command takes its own line from the shared stream and DATA takes the
    lines of its message, so the session comes to rest right behind what it was
    sent, with the envelope empty again.

    The stretches of the run are composed with `Leads`: every run of so many
    moves hands these messages to the store and ends in that state.
    `delivered` is the result for any list of transactions. -/

namespace SmtpDelivery

open Utf8 Unicode SmtpReader SmtpRecord SmtpSession SmtpTurn Runs SmtpConnection

/-! ## What is sent -/

/-- An address that can stand between angle brackets. -/
structure Bracketed (a : Text) : Prop where
  noOpen : '<' ∉ a
  noClose : '>' ∉ a
  noLf : '\n' ∉ a

/-- A transaction as a client sends it.  The lines of the body are given without
    their line feeds; the last of them, and no other, trims to a dot. -/
structure Transaction where
  sender : Text
  recipients : List Text
  lines : List Text
  last : Text
  sender_bracketed : Bracketed sender
  recipients_bracketed : ∀ a ∈ recipients, Bracketed a
  recipients_ne : recipients ≠ []
  lines_kept : ∀ l ∈ lines, '\n' ∉ l ∧ trim l ≠ ['.']
  last_noLf : '\n' ∉ last
  last_dot : trim last = ['.']

def endLine (l : Text) : Text := l ++ ['\n']

def mailLine (a : Text) : Text := "MAIL FROM:".toList ++ '<' :: a ++ ['>', '\r', '\n']

def rcptLine (a : Text) : Text := "RCPT TO:".toList ++ '<' :: a ++ ['>', '\r', '\n']

def dataLine : Text := "DATA\r\n".toList

/-- The body on the wire. -/
def Transaction.body (t : Transaction) : Text := (t.lines ++ [t.last]).flatMap endLine

/-- The whole transaction on the wire. -/
def Transaction.sent (t : Transaction) : Text :=
  mailLine t.sender ++ t.recipients.flatMap rcptLine ++ dataLine ++ t.body

/-- A line without the first of two leading dots. -/
def stripDot (l : Text) : Text := if ['.', '.'].isPrefixOf l then l.tail else l

/-- The message of the body. -/
def Transaction.message (t : Transaction) : Text :=
  t.lines.flatMap (fun l => endLine (stripDot l))

/-- The commands of a transaction. -/
def Transaction.commands (t : Transaction) : Nat := t.recipients.length + 2

/-- What the store is to be handed for a transaction. -/
def Transaction.handed (t : Transaction) : Envelope × Bytes :=
  (⟨some t.sender, t.recipients⟩, encode t.message)

/-- The whitelist lets the sender pass. -/
def Transaction.Allowed (cfg : SmtpConfig) (t : Transaction) : Prop :=
  cfg.whitelist = [] ∨ toLowercase t.sender ∈ cfg.whitelist

/-! ## The body is read -/

/-- The line feed is no second dot. -/
theorem dots_append_lf (l : Text) :
    ['.', '.'].isPrefixOf (l ++ ['\n']) = ['.', '.'].isPrefixOf l := by
  match l with
  | [] => rfl
  | [c] => rfl
  | c :: d :: l => rfl

theorem stripDot_endLine (l : Text) : stripDot (endLine l) = endLine (stripDot l) := by
  rw [stripDot, stripDot, endLine, dots_append_lf]
  split_ifs with hp
  · obtain ⟨u, rfl⟩ := List.isPrefixOf_iff_prefix.mp hp
    rfl
  · rfl

theorem readDataFrom_lines (lines : List Text) (hlines : ∀ l ∈ lines, '\n' ∉ l ∧ trim l ≠ ['.'])
    {last : Text} (hlf : '\n' ∉ last) (hdot : trim last = ['.']) (rest : Bytes) :
    ∀ data, readDataFrom data (encode ((lines ++ [last]).flatMap endLine) ++ rest)
      = .ok (data ++ encode (lines.flatMap (fun l => endLine (stripDot l))), rest) := by
  induction lines with
  | nil =>
      intro data
      rw [List.nil_append, List.flatMap_singleton, List.flatMap_nil, encode_nil,
        List.append_nil]
      exact readDataFrom_end data rest hlf ((trim_lf last).trans hdot)
  | cons l lines ih =>
      intro data
      obtain ⟨hl, hkeep⟩ := hlines l List.mem_cons_self
      have hkeep' : trim (endLine l) ≠ ['.'] := by rwa [endLine, trim_lf]
      have hne : endLine l ≠ [] := List.append_ne_nil_of_right_ne_nil l (by simp)
      have hrec := ih (fun k hk => hlines k (List.mem_cons_of_mem _ hk))
      have hr : readLine (encode (endLine l)
          ++ (encode ((lines ++ [last]).flatMap endLine) ++ rest)) = .ok (endLine l, _) :=
        readLine_encode l _ hl
      rw [List.cons_append, List.flatMap_cons, encode_append, List.append_assoc,
        List.flatMap_cons, encode_append]
      rw [readDataFrom_line hr hne hkeep', ← stripDot, stripDot_endLine, hrec,
        List.append_assoc]

/-- **The body of a transaction is read to its end, and no further.** -/
theorem readData_body (t : Transaction) (rest : Bytes) :
    readData (encode t.body ++ rest) = .ok (encode t.message, rest) := by
  have h := readDataFrom_lines t.lines t.lines_kept t.last_noLf t.last_dot rest []
  rwa [List.nil_append] at h

/-! ## The commands are carried out -/

/-- A command with its argument, without its CRLF. -/
theorem trim_command {p : Text} (a : Text) (hp : ∃ c x, p = c :: x ∧ isWhitespace c = false) :
    trim (p ++ '<' :: a ++ ['>', '\r', '\n']) = p ++ ('<' :: a ++ ['>']) := by
  obtain ⟨c, x, rfl, hc⟩ := hp
  have hline : c :: x ++ '<' :: a ++ ['>', '\r', '\n']
      = c :: (x ++ '<' :: a) ++ ['>'] ++ ['\r', '\n'] := by simp
  rw [hline, trim_append_whitespace _ _ (by decide), trim_visible _ hc (by decide)]
  simp

theorem noLf_command {p a : Text} (hp : '\n' ∉ p) (ha : '\n' ∉ a) :
    '\n' ∉ p ++ '<' :: a ++ ['>', '\r'] := by
  simp [hp, ha]

theorem trim_mailLine (a : Text) :
    trim (mailLine a) = "MAIL FROM:".toList ++ ('<' :: a ++ ['>']) :=
  trim_command a ⟨'M', "AIL FROM:".toList, by decide, by decide⟩

theorem trim_rcptLine (a : Text) :
    trim (rcptLine a) = "RCPT TO:".toList ++ ('<' :: a ++ ['>']) :=
  trim_command a ⟨'R', "CPT TO:".toList, by decide, by decide⟩

/-- The verb of a line with an uppercase command in front. -/
theorem verb?_mailLine {s : Session} (hs : s.authState = .none) (a : Text) :
    verb? s (mailLine a) = some .mailFrom := by
  have hup : toUppercase "MAIL FROM:".toList = "MAIL FROM:".toList := by decide +kernel
  rw [verb?_of_idle hs, trim_mailLine, toUppercase, List.flatMap_append, ← toUppercase, hup]
  rfl

theorem verb?_rcptLine {s : Session} (hs : s.authState = .none) (a : Text) :
    verb? s (rcptLine a) = some .rcptTo := by
  have hup : toUppercase "RCPT TO:".toList = "RCPT TO:".toList := by decide +kernel
  rw [verb?_of_idle hs, trim_rcptLine, toUppercase, List.flatMap_append, ← toUppercase, hup]
  rfl

theorem mailAddress?_mailLine {a : Text} (ha : Bracketed a) :
    mailAddress? (mailLine a) = some a := by
  have hdrop : dropBytes? 10 ("MAIL FROM:".toList ++ ('<' :: a ++ ['>']))
      = some ('<' :: a ++ ['>']) := dropBytes?_prefix "MAIL FROM:".toList _
  rw [mailAddress?, trim_mailLine, hdrop]
  exact extractAddress_brackets ha.noClose

theorem rcptAddress?_rcptLine {a : Text} (ha : Bracketed a) :
    rcptAddress? (rcptLine a) = some a := by
  have hdrop : dropBytes? 8 ("RCPT TO:".toList ++ ('<' :: a ++ ['>']))
      = some ('<' :: a ++ ['>']) := dropBytes?_prefix "RCPT TO:".toList _
  rw [rcptAddress?, trim_rcptLine, hdrop]
  exact extractAddress_brackets ha.noClose

section

variable {env : Env} {cfg : SmtpConfig} {p : Phase} {s : Session} {rest : Bytes} {a : Text}
  {t : Transaction}

/-- A connection in one of its loops makes a move. -/
theorem exists_step (hp : p = .plain ∨ p = .tls) (s : Session) (input : Bytes) :
    ∃ m c', Step env cfg ⟨p, s, input⟩ m c' := by
  obtain ⟨m, c', hstep⟩ := exists_ownStep env cfg none (c := ⟨p, s, input⟩) hp
  exact ⟨m, c', hstep.step⟩

/-- Replies store nothing. -/
theorem pushed_replies (lines : List String) :
    (lines.map reply).filterMap pushedRecord? = [] := by
  refine List.filterMap_eq_nil_iff.mpr (fun e he => ?_)
  obtain ⟨text, -, rfl⟩ := List.mem_map.mp he
  rfl

/-- A line that is answered and needs no more input. -/
theorem answers_leads (hp : p = .plain ∨ p = .tls) {l : Text} {s' : Session}
    {lines : List String} (hl : '\n' ∉ l)
    (hi : ∀ stamp, interpret env cfg stamp (l ++ ['\n']) rest s = ⟨say s' lines, rest⟩) :
    Leads (Step env cfg) Move.handed ⟨p, s, encode (l ++ ['\n']) ++ rest⟩ 1 []
      ⟨p, s', rest⟩ := by
  refine Leads.single (exists_step hp s _) (fun m c' hstep => ?_)
  obtain ⟨hbefore, rfl, -⟩ := id hstep
  have hp : m.before.phase = .plain ∨ m.before.phase = .tls := by
    rw [hbefore]
    exact hp
  have hr : readLine m.before.input = .ok (l ++ ['\n'], rest) := by
    rw [hbefore]
    exact readLine_encode l rest hl
  obtain ⟨stamp, hs⟩ := hstep.interprets hp hr (List.append_ne_nil_of_right_ne_nil l (by simp))
  rw [hbefore, hi stamp] at hs
  obtain ⟨hafter, hevents⟩ := hs.continues rfl
  have hpushed : m.pushed = [] := by
    rw [Move.pushed, hevents]
    exact pushed_replies lines
  rw [Move.handed, hpushed, hafter, hbefore]
  exact ⟨rfl, rfl⟩

/-- A session that takes commands and may send. -/
structure Ready (p : Phase) (s : Session) : Prop where
  phase : p = .plain ∨ p = .tls
  idle : s.authState = .none
  unlocked : s.locked = false

theorem mail_leads (env : Env) (rest : Bytes) (h : Ready p s) (ha : Bracketed a)
    (hw : cfg.whitelist = [] ∨ toLowercase a ∈ cfg.whitelist) :
    Leads (Step env cfg) Move.handed ⟨p, s, encode (mailLine a) ++ rest⟩ 1 []
      ⟨p, { s with mailFrom := some a }, rest⟩ := by
  have hline : mailLine a = "MAIL FROM:".toList ++ '<' :: a ++ ['>', '\r'] ++ ['\n'] :=
    (List.append_assoc _ ['>', '\r'] ['\n']).symm
  have haddr := mailAddress?_mailLine ha
  have hi : ∀ stamp, interpret env cfg stamp (mailLine a) rest s
      = ⟨say { s with mailFrom := some a } ["250 OK"], rest⟩ := by
    intro stamp
    have hallowed : (!cfg.whitelist.isEmpty
        && !cfg.whitelist.contains (toLowercase a)) = false := by
      rcases hw with hw | hw
      · rw [hw]
        rfl
      · simp [hw]
    rw [mailAddress?] at haddr
    rw [interpret_of_verb? (verb?_mailLine h.idle a), command, mailFrom, h.unlocked, haddr]
    simp only [hallowed, Bool.false_eq_true, if_false]
  rw [hline] at hi ⊢
  exact answers_leads h.phase (noLf_command (by decide) ha.noLf) hi

theorem rcpt_leads (env : Env) (cfg : SmtpConfig) (rest : Bytes) (h : Ready p s)
    (hm : s.mailFrom ≠ none) (ha : Bracketed a) :
    Leads (Step env cfg) Move.handed ⟨p, s, encode (rcptLine a) ++ rest⟩ 1 []
      ⟨p, { s with rcptTo := s.rcptTo ++ [a] }, rest⟩ := by
  have hline : rcptLine a = "RCPT TO:".toList ++ '<' :: a ++ ['>', '\r'] ++ ['\n'] :=
    (List.append_assoc _ ['>', '\r'] ['\n']).symm
  have haddr := rcptAddress?_rcptLine ha
  have hi : ∀ stamp, interpret env cfg stamp (rcptLine a) rest s
      = ⟨say { s with rcptTo := s.rcptTo ++ [a] } ["250 OK"], rest⟩ := by
    intro stamp
    have hsome : s.mailFrom.isNone = false := Option.isNone_eq_false_iff.mpr
      (Option.isSome_iff_ne_none.mpr hm)
    rw [rcptAddress?] at haddr
    rw [interpret_of_verb? (verb?_rcptLine h.idle a), command, rcptTo, h.unlocked, hsome,
      haddr]
    rfl
  rw [hline] at hi ⊢
  exact answers_leads h.phase (noLf_command (by decide) ha.noLf) hi

/-- The recipients are added one after the other. -/
theorem rcpts_leads (env : Env) (cfg : SmtpConfig) (rest : Bytes) (rcpts : List Text)
    (hm : s.mailFrom ≠ none) (hrcpts : ∀ a ∈ rcpts, Bracketed a) (h : Ready p s) :
    Leads (Step env cfg) Move.handed ⟨p, s, encode (rcpts.flatMap rcptLine) ++ rest⟩
      rcpts.length [] ⟨p, { s with rcptTo := s.rcptTo ++ rcpts }, rest⟩ := by
  induction rcpts generalizing s with
  | nil =>
      rw [List.append_nil]
      exact Leads.refl _
  | cons a rcpts ih =>
      have hfirst := rcpt_leads env cfg (encode (rcpts.flatMap rcptLine) ++ rest) h hm
        (hrcpts a List.mem_cons_self)
      have hmore := ih (s := { s with rcptTo := s.rcptTo ++ [a] }) hm
        (fun b hb => hrcpts b (List.mem_cons_of_mem _ hb)) ⟨h.phase, h.idle, h.unlocked⟩
      have hboth := hfirst.trans hmore
      rw [List.append_assoc, Nat.add_comm] at hboth
      rw [List.flatMap_cons, encode_append, List.append_assoc]
      exact hboth

theorem data_leads (env : Env) (cfg : SmtpConfig) (rest : Bytes) (h : Ready p s)
    (hm : s.mailFrom ≠ none) (hr : s.rcptTo ≠ []) :
    Leads (Step env cfg) Move.handed ⟨p, s, encode dataLine ++ (encode t.body ++ rest)⟩ 1
      [(s.envelope, encode t.message)] ⟨p, s.reset, rest⟩ := by
  refine Leads.single (exists_step h.phase s _) (fun m c' hstep => ?_)
  obtain ⟨hbefore, rfl, -⟩ := id hstep
  have hp : m.before.phase = .plain ∨ m.before.phase = .tls := by
    rw [hbefore]
    exact h.phase
  have hline : readLine m.before.input = .ok (dataLine, encode t.body ++ rest) := by
    rw [hbefore]
    exact readLine_encode "DATA\r".toList _ (by decide)
  have hopens : OpensData m.before.session dataLine := by
    rw [hbefore]
    refine ⟨?_, h.unlocked, hm, hr⟩
    rw [verb?_of_idle h.idle]
    decide +kernel
  obtain ⟨stamp, hd, hinput⟩ := hstep.delivers_of_opens hp hline hopens (readData_body t rest)
  rw [hd.handed_eq, hd.after, hinput, hbefore]
  exact ⟨rfl, rfl⟩

theorem Transaction.sent_append (t : Transaction) (rest : Bytes) :
    encode t.sent ++ rest = encode (mailLine t.sender)
      ++ (encode (t.recipients.flatMap rcptLine)
        ++ (encode dataLine ++ (encode t.body ++ rest))) := by
  simp only [Transaction.sent, encode_append, List.append_assoc]

/-- **A transaction is delivered, and the envelope is empty again.** -/
theorem transaction_leads (env : Env) (rest : Bytes) (h : Ready p s)
    (hm : s.mailFrom = none) (hr : s.rcptTo = []) (hw : t.Allowed cfg) :
    Leads (Step env cfg) Move.handed ⟨p, s, encode t.sent ++ rest⟩ t.commands [t.handed]
      ⟨p, s, rest⟩ := by
  have hmail := mail_leads env (encode (t.recipients.flatMap rcptLine)
    ++ (encode dataLine ++ (encode t.body ++ rest))) h t.sender_bracketed hw
  have hready : Ready p { s with mailFrom := some t.sender } := ⟨h.phase, h.idle, h.unlocked⟩
  have hrcpts := rcpts_leads env cfg (encode dataLine ++ (encode t.body ++ rest))
    t.recipients (Option.some_ne_none t.sender) t.recipients_bracketed hready
  have hready' : Ready p { s with
      mailFrom := some t.sender, rcptTo := s.rcptTo ++ t.recipients } :=
    ⟨h.phase, h.idle, h.unlocked⟩
  have hne : s.rcptTo ++ t.recipients ≠ [] := by
    rw [hr]
    exact t.recipients_ne
  have hdata := data_leads env cfg rest hready' (t := t) (Option.some_ne_none t.sender) hne
  have hall := hmail.trans (hrcpts.trans hdata)
  have hend : { s with mailFrom := some t.sender, rcptTo := s.rcptTo ++ t.recipients }.reset
      = s := by
    rw [Session.reset, ← hm, ← hr]
  rw [hend, Nat.add_comm, Nat.add_assoc] at hall
  rw [t.sent_append, Transaction.handed, Transaction.commands]
  have henv : Session.envelope { s with
      mailFrom := some t.sender, rcptTo := s.rcptTo ++ t.recipients }
      = ⟨some t.sender, t.recipients⟩ := by
    rw [Session.envelope, hr, List.nil_append]
  rw [henv] at hall
  exact hall

theorem transactions_leads (env : Env) (rest : Bytes) (ts : List Transaction)
    (h : Ready p s) (hm : s.mailFrom = none) (hr : s.rcptTo = []) (hw : ∀ t ∈ ts, t.Allowed cfg) :
    Leads (Step env cfg) Move.handed
      ⟨p, s, encode (ts.flatMap Transaction.sent) ++ rest⟩
      (ts.map Transaction.commands).sum (ts.map Transaction.handed) ⟨p, s, rest⟩ := by
  induction ts with
  | nil => exact Leads.refl _
  | cons t ts ih =>
      have hfirst := transaction_leads env (encode (ts.flatMap Transaction.sent) ++ rest) h hm
        hr (hw t List.mem_cons_self)
      have hmore := ih (fun u hu => hw u (List.mem_cons_of_mem _ hu))
      rw [List.flatMap_cons, encode_append, List.append_assoc]
      exact hfirst.trans hmore

/-- **Transactions sent in one stream are delivered one by one.**  A session that
    takes commands, may send and has no open envelope has a run through any list
    of allowed transactions, and every run of its length hands exactly their
    envelopes and messages to the store, in order, and ends with no open envelope
    right behind what was sent. -/
theorem delivered (env : Env) (cfg : SmtpConfig) (ts : List Transaction)
    (h : Ready p s) (hm : s.mailFrom = none) (hr : s.rcptTo = [])
    (hw : ∀ t ∈ ts, t.Allowed cfg) (rest : Bytes) :
    (∃ l c', Run (Step env cfg) ⟨p, s, encode (ts.flatMap Transaction.sent) ++ rest⟩ l c'
      ∧ l.length = (ts.map Transaction.commands).sum)
    ∧ ∀ l c', Run (Step env cfg) ⟨p, s, encode (ts.flatMap Transaction.sent) ++ rest⟩ l c' →
      l.length = (ts.map Transaction.commands).sum →
      l.flatMap Move.handed = ts.map Transaction.handed
        ∧ c'.session.mailFrom = none ∧ c'.session.rcptTo = [] ∧ c'.input = rest := by
  obtain ⟨hex, hall⟩ := transactions_leads env rest ts h hm hr hw
  refine ⟨hex, fun l c' hrun hlen => ?_⟩
  obtain ⟨hhanded, rfl⟩ := hall l c' hrun hlen
  exact ⟨hhanded, hm, hr, rfl⟩

end

/-- A transaction with two recipients and a line with two leading dots. -/
def stuffedTransaction : Transaction where
  sender := "A".toList
  recipients := ["x".toList, "y z".toList]
  lines := ["..hi\r".toList]
  last := ".\r".toList
  sender_bracketed := ⟨by decide, by decide, by decide⟩
  recipients_bracketed := by
    intro a ha
    have hall : ∀ a ∈ ["x".toList, "y z".toList], '<' ∉ a ∧ '>' ∉ a ∧ '\n' ∉ a := by decide
    exact ⟨(hall a ha).1, (hall a ha).2.1, (hall a ha).2.2⟩
  recipients_ne := by decide
  lines_kept := by decide
  last_noLf := by decide
  last_dot := by decide

theorem delivered_twice :
    ∃ l c', Run (Step sampleEnv ⟨["a".toList], false, false, none, none, true⟩)
        ⟨.plain, Session.new false false,
          encode ([stuffedTransaction, stuffedTransaction].flatMap Transaction.sent)⟩ l c'
      ∧ l.flatMap Move.handed
        = [(⟨some "A".toList, ["x".toList, "y z".toList]⟩, encode ".hi\r\n".toList),
          (⟨some "A".toList, ["x".toList, "y z".toList]⟩, encode ".hi\r\n".toList)]
      ∧ c'.input = [] := by
  have hall := delivered sampleEnv ⟨["a".toList], false, false, none, none, true⟩
    (p := .plain) (s := Session.new false false) [stuffedTransaction, stuffedTransaction]
    ⟨Or.inl rfl, rfl, rfl⟩ rfl rfl ?_ []
  · obtain ⟨⟨l, c', hrun, hlen⟩, hevery⟩ := hall
    obtain ⟨hhanded, -, -, hinput⟩ := hevery l c' hrun hlen
    rw [List.append_nil] at hrun
    refine ⟨l, c', hrun, ?_, hinput⟩
    rw [hhanded]
    decide +kernel
  · intro t ht
    have hsender : t = stuffedTransaction := by simpa using ht
    rw [hsender]
    exact Or.inr (by decide +kernel)

end SmtpDelivery
