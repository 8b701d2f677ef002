import SmtpSink.ReaderProofs
import SmtpSink.RecordProofs

/-! # The SMTP session — one command at a time

    `processCommand` is the step of a session: it takes the next line of the
    client, answers it, and leaves the session and the rest of the stream.  The
    AUTH state machine sees the line first; otherwise `dispatch` selects one
    handler by the uppercase form of the trimmed line.

    A step is a `Reaction`: the session and the stream after it, what was
    observed on the way (lines and message bodies read, replies written,
    records handed on) in order, and how it ended.  Everything written before a
    failure is part of the reaction.

    The first result is the exact set of lines that panic the session
    (`processCommand_panics_iff`): the address of a MAIL FROM or RCPT TO with
    its first `>` before its first `<`. -/

namespace SmtpSession

open Utf8 Unicode SmtpReader SmtpRecord

/-! ## Configuration and state -/

/-- `SmtpConfig`.  Of the TLS acceptor and the forward handle only their
    presence matters to a session. -/
structure SmtpConfig where
  whitelist : List Text
  tlsAcceptor : Bool
  authRequired : Bool
  authUsername : Option Text
  authPassword : Option Text
  forwardHandle : Bool

inductive AuthState where
  | none
  | waitingForPlain
  | waitingForLoginUsername
  | waitingForLoginPassword (username : Text)
  deriving DecidableEq

structure Session where
  mailFrom : Option Text
  rcptTo : List Text
  authenticated : Bool
  authRequired : Bool
  tlsActive : Bool
  authState : AuthState
  deriving DecidableEq

/-- `Session::new`. -/
def Session.new (authRequired tlsActive : Bool) : Session where
  mailFrom := none
  rcptTo := []
  authenticated := false
  authRequired := authRequired
  tlsActive := tlsActive
  authState := .none

/-- `Session::reset`. -/
def Session.reset (s : Session) : Session := { s with mailFrom := none, rcptTo := [] }

/-- The envelope of the open transaction. -/
def Session.envelope (s : Session) : Envelope := ⟨s.mailFrom, s.rcptTo⟩

/-- The guard of MAIL, RCPT and DATA: authentication is required and missing. -/
def Session.locked (s : Session) : Bool := s.authRequired && !s.authenticated

/-! ## Reactions -/

inductive CommandResult where
  | continue
  | quit
  | startTls
  deriving DecidableEq

/-- What can be observed of a session, in order. -/
inductive Event where
  /-- `read_line` gave a line to `process_command` -/
  | read (line : Text)
  /-- `write_all` -/
  | write (text : Text)
  /-- `read_data` returned -/
  | body (data : Bytes)
  /-- the record was handed to the forwarder -/
  | forward (record : MailRecord)
  /-- `store.push` was called -/
  | push (record : MailRecord)

/-- What a handler does with a line that needs no more input. -/
structure Response where
  session : Session
  events : List Event
  result : Except Fault CommandResult

/-- What one call of `process_command` does. -/
structure Reaction extends Response where
  rest : Bytes

/-- One written line. -/
def reply (s : String) : Event := .write (s.toList ++ ['\r', '\n'])

/-- Write some lines and go on. -/
def say (s : Session) (lines : List String) : Response :=
  ⟨s, lines.map reply, .ok .continue⟩

/-- A panic while the session is unchanged and nothing is written. -/
def panicked (s : Session) : Response := ⟨s, [], .error .panic⟩

/-! ## Addresses -/

/-- `extract_address`: the text between the first `<` and the first `>`, or the
    trimmed text when one of them is missing; `none` when the slice panics. -/
def extractAddress (s : Text) : Option Text :=
  let s := trim s
  match find '<' s, find '>' s with
  | some start, some stop => slice? s (start + 1) stop
  | _, _ => some s

/-! ## AUTH -/

/-- The check of `verify_plain_auth` on the NUL-separated fields. -/
def verifyParts (cfg : SmtpConfig) (parts : List Bytes) (s : Session) : Response :=
  if h : 3 ≤ parts.length then
    if some (fromUtf8Lossy parts[1]) = cfg.authUsername
        ∧ some (fromUtf8Lossy parts[2]) = cfg.authPassword then
      say { s with authenticated := true } ["235 Authentication successful"]
    else say s ["535 Authentication failed"]
  else say s ["535 Authentication failed"]

/-- `verify_plain_auth`. -/
def verifyPlainAuth (env : Env) (cfg : SmtpConfig) (encoded : Text) (s : Session) :
    Response :=
  match env.base64Decode (trim encoded) with
  | some decoded => verifyParts cfg (decoded.splitOn 0) s
  | none => say s ["535 Authentication failed"]

/-- The prompted PLAIN exchange: its only line. -/
def authPlain (env : Env) (cfg : SmtpConfig) (trimmed : Text) (s : Session) : Response :=
  let r := verifyPlainAuth env cfg trimmed s
  { r with session := { r.session with authState := .none } }

/-- The LOGIN exchange: the line with the user name. -/
def authLoginUsername (env : Env) (trimmed : Text) (s : Session) : Response :=
  match env.base64Decode trimmed with
  | some decoded =>
      say { s with authState := .waitingForLoginPassword (fromUtf8Lossy decoded) }
        ["334 UGFzc3dvcmQ6"]
  | none => say { s with authState := .none } ["501 Cannot decode"]

/-- The LOGIN exchange: the line with the password. -/
def authLoginPassword (env : Env) (cfg : SmtpConfig) (username trimmed : Text)
    (s : Session) : Response :=
  match env.base64Decode trimmed with
  | some decoded =>
      if some username = cfg.authUsername
          ∧ some (fromUtf8Lossy decoded) = cfg.authPassword then
        say { s with authenticated := true, authState := .none }
          ["235 Authentication successful"]
      else say { s with authState := .none } ["535 Authentication failed"]
  | none => say { s with authState := .none } ["501 Cannot decode"]

/-! ## Commands -/

/-- The branches of the command dispatcher. -/
inductive Verb where
  | ehlo
  | starttls
  | auth
  | mailFrom
  | rcptTo
  | data
  | rset
  | noop
  | quit
  | unknown
  deriving DecidableEq

/-- The prefix that selects MAIL FROM. -/
def mailFromPrefix : Text := "MAIL FROM:".toList

/-- The prefix that selects RCPT TO. -/
def rcptToPrefix : Text := "RCPT TO:".toList

/-- The branch an uppercase command line selects, tried in the order of the
    source. -/
def dispatch (cmd : Text) : Verb :=
  if "EHLO".toList.isPrefixOf cmd || "HELO".toList.isPrefixOf cmd then .ehlo
  else if "STARTTLS".toList.isPrefixOf cmd then .starttls
  else if "AUTH ".toList.isPrefixOf cmd then .auth
  else if mailFromPrefix.isPrefixOf cmd then .mailFrom
  else if rcptToPrefix.isPrefixOf cmd then .rcptTo
  else if cmd = "DATA".toList then .data
  else if cmd = "RSET".toList then .rset
  else if cmd = "NOOP".toList then .noop
  else if cmd = "QUIT".toList then .quit
  else .unknown

def ehlo (cfg : SmtpConfig) (s : Session) : Response :=
  say s (["250-localhost Hello", "250-SIZE 10485760", "250-8BITMIME"]
    ++ (if cfg.tlsAcceptor && !s.tlsActive then ["250-STARTTLS"] else [])
    ++ (if cfg.authUsername.isSome then ["250-AUTH PLAIN LOGIN"] else [])
    ++ ["250 OK"])

def starttls (cfg : SmtpConfig) (s : Session) : Response :=
  if !cfg.tlsAcceptor then say s ["454 TLS not available"]
  else if s.tlsActive then say s ["503 TLS already active"]
  else { say s ["220 Ready to start TLS"] with result := .ok .startTls }

/-- AUTH on the words of its line: the mechanism and an initial response. -/
def authParts (env : Env) (cfg : SmtpConfig) (parts : List Text) (s : Session) :
    Response :=
  if h : 2 ≤ parts.length then
    if toUppercase parts[1] = "PLAIN".toList then
      if h' : 2 < parts.length then verifyPlainAuth env cfg parts[2] s
      else say { s with authState := .waitingForPlain } ["334 "]
    else if toUppercase parts[1] = "LOGIN".toList then
      say { s with authState := .waitingForLoginUsername } ["334 VXNlcm5hbWU6"]
    else say s ["504 Unrecognized auth type"]
  else say s ["501 Syntax error"]

def auth (env : Env) (cfg : SmtpConfig) (trimmed : Text) (s : Session) : Response :=
  if cfg.authUsername.isNone then say s ["503 AUTH not available"]
  else authParts env cfg (splitWhitespace trimmed) s

def mailFrom (cfg : SmtpConfig) (trimmed : Text) (s : Session) : Response :=
  if s.locked then say s ["530 Authentication required"]
  else
    match (dropBytes? 10 trimmed).bind extractAddress with
    | none => panicked s
    | some addr =>
        if !cfg.whitelist.isEmpty && !cfg.whitelist.contains (toLowercase addr) then
          say s ["550 Sender not allowed"]
        else say { s with mailFrom := some addr } ["250 OK"]

def rcptTo (trimmed : Text) (s : Session) : Response :=
  if s.locked then say s ["530 Authentication required"]
  else if s.mailFrom.isNone then say s ["503 MAIL FROM required first"]
  else
    match (dropBytes? 8 trimmed).bind extractAddress with
    | none => panicked s
    | some addr => say { s with rcptTo := s.rcptTo ++ [addr] } ["250 OK"]

/-- The invitation to send a message. -/
def startData : String := "354 End data with <CR><LF>.<CR><LF>"

/-- The record is forwarded, where that is configured, and then stored. -/
def deliver (cfg : SmtpConfig) (record : MailRecord) : List Event :=
  (if cfg.forwardHandle then [.forward record] else []) ++ [.push record]

/-- DATA, the only command that reads on behind its line. -/
def data (env : Env) (cfg : SmtpConfig) (stamp : Stamp) (rest : Bytes) (s : Session) :
    Reaction :=
  if s.locked then ⟨say s ["530 Authentication required"], rest⟩
  else if s.mailFrom.isNone then ⟨say s ["503 MAIL FROM required first"], rest⟩
  else if s.rcptTo.isEmpty then ⟨say s ["503 RCPT TO required first"], rest⟩
  else
    match readData rest with
    | .error e => ⟨⟨s, [reply startData], .error e⟩, rest⟩
    | .ok (bytes, rest') =>
        ⟨⟨s.reset,
          [reply startData, .body bytes]
            ++ deliver cfg (parseEmail env stamp bytes s.envelope)
            ++ [reply "250 OK: queued"],
          .ok .continue⟩, rest'⟩

/-- The handlers of the commands. -/
def command (env : Env) (cfg : SmtpConfig) (stamp : Stamp) (trimmed : Text)
    (rest : Bytes) (s : Session) : Verb → Reaction
  | .ehlo => ⟨ehlo cfg s, rest⟩
  | .starttls => ⟨starttls cfg s, rest⟩
  | .auth => ⟨auth env cfg trimmed s, rest⟩
  | .mailFrom => ⟨mailFrom cfg trimmed s, rest⟩
  | .rcptTo => ⟨rcptTo trimmed s, rest⟩
  | .data => data env cfg stamp rest s
  | .rset => ⟨say s.reset ["250 OK"], rest⟩
  | .noop => ⟨say s ["250 OK"], rest⟩
  | .quit => ⟨{ say s ["221 Bye"] with result := .ok .quit }, rest⟩
  | .unknown => ⟨say s ["500 Command not recognized"], rest⟩

/-- What is done with a line: an AUTH exchange under way takes it, otherwise it
    is a command. -/
def interpret (env : Env) (cfg : SmtpConfig) (stamp : Stamp) (line : Text)
    (rest : Bytes) (s : Session) : Reaction :=
  let trimmed := trim line
  match s.authState with
  | .waitingForPlain => ⟨authPlain env cfg trimmed s, rest⟩
  | .waitingForLoginUsername => ⟨authLoginUsername env trimmed s, rest⟩
  | .waitingForLoginPassword username =>
      ⟨authLoginPassword env cfg username trimmed s, rest⟩
  | .none => command env cfg stamp trimmed rest s (dispatch (toUppercase trimmed))

/-- `process_command` behind its `read_line`. -/
def processLine (env : Env) (cfg : SmtpConfig) (stamp : Stamp) (s : Session) (line : Text)
    (rest : Bytes) : Reaction :=
  if line = [] then ⟨⟨s, [], .ok .quit⟩, rest⟩
  else
    let r := interpret env cfg stamp line rest s
    { r with events := .read line :: r.events }

/-- `process_command`. -/
def processCommand (env : Env) (cfg : SmtpConfig) (stamp : Stamp) (s : Session)
    (input : Bytes) : Reaction :=
  match readLine input with
  | .error e => ⟨⟨s, [], .error e⟩, input⟩
  | .ok (line, rest) => processLine env cfg stamp s line rest

/-! ## Where an address is cut -/

/-- The angle brackets of a text, in order. -/
def angleBrackets (s : Text) : Text := s.filter (fun c => c == '<' || c == '>')

/-- The first angle bracket is a `>`, and some `<` comes later. -/
def CrossedBrackets (s : Text) : Prop :=
  ∃ t, angleBrackets s = '>' :: t ∧ '<' ∈ t

theorem angleBrackets_append (s t : Text) :
    angleBrackets (s ++ t) = angleBrackets s ++ angleBrackets t :=
  List.filter_append _ _

theorem angleBrackets_trim (s : Text) : angleBrackets (trim s) = angleBrackets s := by
  refine filter_trim ?_ s
  intro c hc
  rw [Bool.eq_false_iff]
  intro h
  rw [Bool.or_eq_true, beq_iff_eq, beq_iff_eq] at h
  rcases h with rfl | rfl
  · exact absurd hc (by decide)
  · exact absurd hc (by decide)

theorem angleBrackets_eq_nil {s : Text} (hlt : '<' ∉ s) (hgt : '>' ∉ s) :
    angleBrackets s = [] := by
  rw [angleBrackets, List.filter_eq_nil_iff]
  intro c hc h
  rw [Bool.or_eq_true, beq_iff_eq, beq_iff_eq] at h
  rcases h with rfl | rfl
  · exact hlt hc
  · exact hgt hc

/-- The first bracket of a text. -/
theorem angleBrackets_first {p : Text} {b : Char} (q : Text) (hlt : '<' ∉ p) (hgt : '>' ∉ p)
    (hb : b = '<' ∨ b = '>') : angleBrackets (p ++ b :: q) = b :: angleBrackets q := by
  rw [angleBrackets_append, angleBrackets_eq_nil hlt hgt]
  rcases hb with rfl | rfl
  · rfl
  · rfl

/-- What stands between two brackets in their order. -/
theorem slice?_between (p a q : Text) :
    slice? (p ++ '<' :: a ++ '>' :: q) (byteLen p + 1) (byteLen (p ++ '<' :: a)) = some a := by
  have hone : ('<' : Char).utf8Size = 1 := by decide
  have hslice := slice?_append (p ++ ['<']) a ('>' :: q)
  rw [byteLen_append, byteLen_cons, byteLen_nil, hone] at hslice
  rw [byteLen_append, byteLen_cons, hone]
  simpa [Nat.add_assoc] using hslice

/-- **The address slice panics exactly on crossed brackets.** -/
theorem extractAddress_eq_none (s : Text) :
    extractAddress s = none ↔ CrossedBrackets s := by
  rw [CrossedBrackets, ← angleBrackets_trim, extractAddress]
  generalize trim s = t
  -- crossed brackets are brackets of the text
  have hboth : (∃ u, angleBrackets t = '>' :: u ∧ '<' ∈ u) → '<' ∈ t ∧ '>' ∈ t := by
    rintro ⟨u, hu, hmem⟩
    have hin : ∀ c ∈ '>' :: u, c ∈ t := fun c hc => List.mem_of_mem_filter (hu ▸ hc)
    exact ⟨hin _ (List.mem_cons_of_mem _ hmem), hin _ List.mem_cons_self⟩
  cases hlt : find '<' t with
  | none =>
      constructor
      · intro h; exact nomatch h
      · intro h
        exact absurd (hboth h).1 (find_eq_none.mp hlt)
  | some start =>
      cases hgt : find '>' t with
      | none =>
          constructor
          · intro h; exact nomatch h
          · intro h
            exact absurd (hboth h).2 (find_eq_none.mp hgt)
      | some stop =>
          obtain ⟨p, q, ht, hp, rfl⟩ := find_eq_some hlt
          obtain ⟨p', q', ht', hp', rfl⟩ := find_eq_some hgt
          show slice? t (byteLen p + 1) (byteLen p') = none ↔ _
          -- which of the two brackets comes first
          rcases List.append_eq_append_iff.mp (ht.symm.trans ht') with
            ⟨a, hpa, hqa⟩ | ⟨a, hpa, hqa⟩
          · -- `<` comes first, and the slice is the text in between
            cases a with
            | nil => exact absurd (congrArg List.head? hqa) (by simp)
            | cons c a =>
                obtain ⟨rfl, -⟩ := List.cons.inj hqa
                have hslice : slice? t (byteLen p + 1) (byteLen p') = some a := by
                  rw [ht', hpa]
                  exact slice?_between p a q'
                have hno : '>' ∉ p := fun h => hp' (hpa ▸ List.mem_append_left _ h)
                rw [hslice, ht, angleBrackets_first q hp hno (Or.inl rfl)]
                constructor
                · intro h; exact nomatch h
                · rintro ⟨u, hu, -⟩
                  exact absurd (List.cons.inj hu).1 (by decide)
          · -- `>` comes first, and the slice would end before it starts
            cases a with
            | nil => exact absurd (congrArg List.head? hqa) (by simp)
            | cons c a =>
                obtain ⟨rfl, hq⟩ := List.cons.inj hqa
                have hlen : byteLen p' < byteLen p + 1 := by
                  rw [hpa, byteLen_append]
                  omega
                have hno : '<' ∉ p' := fun h => hp (hpa ▸ List.mem_append_left _ h)
                have hbr : angleBrackets t = '>' :: angleBrackets q' := by
                  rw [ht', angleBrackets_first q' hno hp' (Or.inr rfl)]
                have hmem : '<' ∈ angleBrackets q' := by
                  rw [show q' = a ++ '<' :: q from hq, angleBrackets_append]
                  exact List.mem_append_right _ (by simp [angleBrackets])
                exact ⟨fun _ => ⟨_, hbr, hmem⟩, fun _ => slice?_reversed hlen⟩

/-- The address between angle brackets. -/
theorem extractAddress_brackets {s : Text} (hgt : '>' ∉ s) :
    extractAddress ('<' :: s ++ ['>']) = some s := by
  have hstop : find '>' ('<' :: s ++ ['>']) = some (byteLen ('<' :: s)) := by
    refine find_append [] ?_
    rw [List.mem_cons, not_or]
    exact ⟨by decide, hgt⟩
  have hstart : find '<' ('<' :: s ++ ['>']) = some 0 := if_pos rfl
  rw [extractAddress, trim_visible s (by decide) (by decide)]
  simp only [hstart, hstop]
  exact slice?_append ['<'] s ['>']

/-- The argument of a command whose uppercase form starts with a word and a
    colon.  The byte offset of the source lies behind the colon, or before it
    when a two-byte character was uppercased into the word; it is a character
    boundary in both cases. -/
theorem argument_slice (p : Text) (hascii : ∀ a ∈ p ++ [':'], a.toNat < 128)
    (hexp : NoExpansion (p ++ [':'])) (hone : p.count 'I' + p.count 'S' ≤ 1)
    {t : Text} (h : (p ++ [':']).isPrefixOf (toUppercase t) = true) :
    ∃ m r a, t = m ++ ':' :: r ∧ List.Forall₂ UpperMatch m p
      ∧ dropBytes? (p.length + 1) t = some a
      ∧ (a = r ∧ byteLen m = p.length ∨ a = ':' :: r ∧ byteLen m = p.length + 1) := by
  obtain ⟨mc, r, rfl, hmc⟩ :=
    prefix_toUppercase _ hascii hexp t (List.isPrefixOf_iff_prefix.mp h)
  have hm := List.forall₂_take_append _ _ _ hmc
  have hc := List.forall₂_drop_append _ _ _ hmc
  obtain ⟨c, hcolon, hdrop⟩ : ∃ c, UpperMatch c ':' ∧ mc.drop p.length = [c] := by
    generalize mc.drop p.length = d at hc
    cases hc with
    | cons h1 h2 =>
        cases h2 with
        | nil => exact ⟨_, h1, rfl⟩
  -- nothing but the colon itself has it as its uppercase form
  have hc' : c = ':' := by
    rcases hcolon with ⟨hlt, hup⟩ | ⟨-, h⟩ | ⟨-, h⟩
    · have key : ∀ n < 128, (Char.ofNat n).toUpper = ':' → Char.ofNat n = ':' := by
        decide
      have := key c.toNat hlt
      rw [Char.ofNat_toNat] at this
      exact this hup
    · exact absurd h (by decide)
    · exact absurd h (by decide)
  subst hc'
  generalize hmdef : mc.take p.length = m at hm
  have hsplit : mc = m ++ [':'] := by
    rw [← hmdef, ← hdrop, List.take_append_drop]
  obtain ⟨hlo, hhi⟩ := byteLen_upperMatch hm
  have hcolon1 : (':' : Char).utf8Size = 1 := by decide
  have htext : mc ++ r = m ++ ':' :: r := by rw [hsplit]; simp
  rw [htext]
  by_cases hlen : byteLen m = p.length
  · refine ⟨m, r, r, rfl, hm, ?_, Or.inl ⟨rfl, hlen⟩⟩
    rw [← hlen, dropBytes?_append]
    cases r <;> rfl
  · have hlen' : byteLen m = p.length + 1 := by omega
    refine ⟨m, r, ':' :: r, rfl, hm, ?_, Or.inr ⟨rfl, hlen'⟩⟩
    rw [← hlen']
    exact dropBytes?_prefix m (':' :: r)

/-! ## Specifications of the handlers -/

@[simp] theorem say_session (s : Session) (l : List String) : (say s l).session = s := rfl

@[simp] theorem say_events (s : Session) (l : List String) :
    (say s l).events = l.map reply := rfl

@[simp] theorem say_result (s : Session) (l : List String) :
    (say s l).result = .ok .continue := rfl

/-- The credentials a PLAIN response carries: the second and the third of its
    NUL-separated fields. -/
def plainCredentials (env : Env) (encoded : Text) : Option (Text × Text) :=
  match env.base64Decode (trim encoded) with
  | some decoded =>
      match decoded.splitOn 0 with
      | _ :: username :: password :: _ =>
          some (fromUtf8Lossy username, fromUtf8Lossy password)
      | _ => none
  | none => none

/-- The credentials are those configured; never when one is not configured. -/
def SmtpConfig.Admits (cfg : SmtpConfig) (username password : Text) : Prop :=
  cfg.authUsername = some username ∧ cfg.authPassword = some password

/-- `verify_plain_auth` sets `authenticated` and answers 235, or changes
    nothing and answers 535. -/
theorem verifyPlainAuth_cases (env : Env) (cfg : SmtpConfig) (encoded : Text)
    (s : Session) :
    ((∃ u p, plainCredentials env encoded = some (u, p) ∧ cfg.Admits u p)
      ∧ verifyPlainAuth env cfg encoded s
        = say { s with authenticated := true } ["235 Authentication successful"])
    ∨ ((¬ ∃ u p, plainCredentials env encoded = some (u, p) ∧ cfg.Admits u p)
      ∧ verifyPlainAuth env cfg encoded s = say s ["535 Authentication failed"]) := by
  rw [verifyPlainAuth, plainCredentials]
  cases env.base64Decode (trim encoded) with
  | none =>
      refine Or.inr ⟨?_, rfl⟩
      rintro ⟨u, p, h, -⟩
      exact nomatch h
  | some decoded =>
      dsimp only
      generalize decoded.splitOn 0 = parts
      match parts with
      | [] | [_] | [_, _] =>
          refine Or.inr ⟨?_, rfl⟩
          rintro ⟨u, p, h, -⟩
          exact nomatch h
      | _ :: username :: password :: more =>
          rw [verifyParts, dif_pos (by simp)]
          dsimp only [List.getElem_cons_succ, List.getElem_cons_zero]
          by_cases hok : some (fromUtf8Lossy username) = cfg.authUsername
              ∧ some (fromUtf8Lossy password) = cfg.authPassword
          · rw [if_pos hok]
            exact Or.inl ⟨⟨_, _, rfl, hok.1.symm, hok.2.symm⟩, rfl⟩
          · rw [if_neg hok]
            refine Or.inr ⟨?_, rfl⟩
            rintro ⟨u, p, h, hu, hp⟩
            cases h
            exact hok ⟨hu.symm, hp.symm⟩

theorem verifyPlainAuth_result (env : Env) (cfg : SmtpConfig) (encoded : Text)
    (s : Session) : (verifyPlainAuth env cfg encoded s).result = .ok .continue := by
  rcases verifyPlainAuth_cases env cfg encoded s with ⟨-, h⟩ | ⟨-, h⟩
  · rw [h]; rfl
  · rw [h]; rfl

theorem auth_result (env : Env) (cfg : SmtpConfig) (trimmed : Text) (s : Session) :
    (auth env cfg trimmed s).result = .ok .continue := by
  rw [auth, authParts]
  split_ifs <;> first | rfl | exact verifyPlainAuth_result _ _ _ _

/-- Message data is never cut inside a character. -/
theorem readDataLoop_ne_panic (n : Nat) :
    ∀ data input, readDataLoop n data input ≠ .error .panic := by
  induction n with
  | zero =>
      intro data input h
      cases h
  | succ n ih =>
      intro data input
      rw [readDataLoop]
      cases hr : readLine input with
      | error e =>
          obtain rfl := readLine_error hr
          exact fun h => by cases h
      | ok q =>
          obtain ⟨line, rest⟩ := q
          dsimp only
          rcases dataStep_cases data line with hend | ⟨-, more, hmore⟩
          · rw [hend]
            exact fun h => by cases h
          · rw [hmore]
            exact ih more rest

/-! ## Panics -/

/-- A match of an ASCII pattern without angle brackets has none either. -/
theorem angleBrackets_upperMatch {m p : Text} (h : List.Forall₂ UpperMatch m p)
    (hp : angleBrackets p = []) : angleBrackets m = [] := by
  induction h with
  | nil => rfl
  | @cons c a m p hca _ ih =>
      have hap : angleBrackets [a] ++ angleBrackets p = [] := by
        rw [← angleBrackets_append]
        exact hp
      obtain ⟨ha, hp'⟩ := List.append_eq_nil_iff.mp hap
      rw [show c :: m = [c] ++ m from rfl, angleBrackets_append, ih hp', List.append_nil]
      refine angleBrackets_eq_nil ?_ ?_
      · intro hc
        obtain rfl : '<' = c := List.mem_singleton.mp hc
        rcases hca with ⟨-, rfl⟩ | ⟨h, -⟩ | ⟨h, -⟩
        · exact absurd ha (by decide)
        · exact absurd h (by decide)
        · exact absurd h (by decide)
      · intro hc
        obtain rfl : '>' = c := List.mem_singleton.mp hc
        rcases hca with ⟨-, rfl⟩ | ⟨h, -⟩ | ⟨h, -⟩
        · exact absurd ha (by decide)
        · exact absurd h (by decide)
        · exact absurd h (by decide)

/-- The address of a command is cut off at a boundary, and its brackets are
    those of the line. -/
theorem argument_extract (p : Text) (hascii : ∀ a ∈ p ++ [':'], a.toNat < 128)
    (hexp : NoExpansion (p ++ [':'])) (hone : p.count 'I' + p.count 'S' ≤ 1)
    (hbr : angleBrackets p = []) {t : Text}
    (h : (p ++ [':']).isPrefixOf (toUppercase t) = true) :
    (dropBytes? (p.length + 1) t).bind extractAddress = none ↔ CrossedBrackets t := by
  obtain ⟨m, r, a, rfl, hm, hdrop, ha⟩ := argument_slice p hascii hexp hone h
  have hmnil := angleBrackets_upperMatch hm hbr
  have hcolon : angleBrackets (':' :: r) = angleBrackets r := rfl
  have hat : angleBrackets a = angleBrackets (m ++ ':' :: r) := by
    rw [angleBrackets_append, hmnil, List.nil_append, hcolon]
    rcases ha with ⟨rfl, -⟩ | ⟨rfl, -⟩
    · rfl
    · exact hcolon
  rw [hdrop]
  show extractAddress a = none ↔ _
  rw [extractAddress_eq_none, CrossedBrackets, CrossedBrackets, hat]

theorem mailFrom_address {t : Text} (h : dispatch (toUppercase t) = .mailFrom) :
    (dropBytes? 10 t).bind extractAddress = none ↔ CrossedBrackets t := by
  have hpre : mailFromPrefix.isPrefixOf (toUppercase t) = true := by
    rw [dispatch] at h
    by_contra hn
    split_ifs at h
  exact argument_extract "MAIL FROM".toList (by decide) (by decide +kernel) (by decide)
    (by decide) hpre

theorem rcptTo_address {t : Text} (h : dispatch (toUppercase t) = .rcptTo) :
    (dropBytes? 8 t).bind extractAddress = none ↔ CrossedBrackets t := by
  have hpre : rcptToPrefix.isPrefixOf (toUppercase t) = true := by
    rw [dispatch] at h
    by_contra hn
    split_ifs at h
  exact argument_extract "RCPT TO".toList (by decide) (by decide +kernel) (by decide)
    (by decide) hpre

/-- The commands that panic: an accepted MAIL FROM or RCPT TO whose address
    cannot be cut out. -/
theorem command_panics (env : Env) (cfg : SmtpConfig) (stamp : Stamp) (t : Text)
    (rest : Bytes) (s : Session) (v : Verb) :
    (command env cfg stamp t rest s v).result = .error .panic
      ↔ s.locked = false
        ∧ (v = .mailFrom ∧ (dropBytes? 10 t).bind extractAddress = none
          ∨ v = .rcptTo ∧ s.mailFrom ≠ none
            ∧ (dropBytes? 8 t).bind extractAddress = none) := by
  cases v with
  | mailFrom =>
      rw [command, mailFrom]
      cases s.locked with
      | true => simp
      | false =>
          cases (dropBytes? 10 t).bind extractAddress with
          | none => simp [panicked]
          | some addr =>
              dsimp only
              split_ifs <;> simp_all
  | rcptTo =>
      rw [command, rcptTo]
      cases s.locked with
      | true => simp
      | false =>
          cases s.mailFrom with
          | none => simp
          | some m =>
              cases (dropBytes? 8 t).bind extractAddress with
              | none => simp [panicked]
              | some addr => simp
  | data =>
      have hread : ∀ e, readData rest = .error e → e ≠ .panic := by
        rintro e he rfl
        exact readDataLoop_ne_panic _ _ _ he
      rw [command, data]
      split_ifs with h1 h2 h3
      · simp
      · simp
      · simp
      · cases hd : readData rest with
        | error e => simpa using hread e hd
        | ok q => simp
  | auth => simp [command, auth_result]
  | starttls =>
      rw [command, starttls]
      split_ifs <;> simp
  | ehlo | rset | noop | quit | unknown => simp [command, ehlo]

/-- The lines that panic a session. -/
def PanicLine (s : Session) (line : Text) : Prop :=
  s.authState = .none ∧ s.locked = false ∧ CrossedBrackets line
    ∧ (dispatch (toUppercase (trim line)) = .mailFrom
      ∨ dispatch (toUppercase (trim line)) = .rcptTo ∧ s.mailFrom ≠ none)

theorem interpret_panics (env : Env) (cfg : SmtpConfig) (stamp : Stamp) (line : Text)
    (rest : Bytes) (s : Session) :
    (interpret env cfg stamp line rest s).result = .error .panic ↔ PanicLine s line := by
  rw [interpret, PanicLine]
  have hcross : CrossedBrackets (trim line) ↔ CrossedBrackets line := by
    rw [CrossedBrackets, CrossedBrackets, angleBrackets_trim]
  cases s.authState with
  | none =>
      dsimp only
      rw [command_panics]
      constructor
      · rintro ⟨hl, ⟨hv, ha⟩ | ⟨hv, hm, ha⟩⟩
        · exact ⟨rfl, hl, hcross.mp ((mailFrom_address hv).mp ha), Or.inl hv⟩
        · exact ⟨rfl, hl, hcross.mp ((rcptTo_address hv).mp ha), Or.inr ⟨hv, hm⟩⟩
      · rintro ⟨-, hl, hc, hv | ⟨hv, hm⟩⟩
        · exact ⟨hl, Or.inl ⟨hv, (mailFrom_address hv).mpr (hcross.mpr hc)⟩⟩
        · exact ⟨hl, Or.inr ⟨hv, hm, (rcptTo_address hv).mpr (hcross.mpr hc)⟩⟩
  | waitingForPlain => simp [authPlain, verifyPlainAuth_result]
  | waitingForLoginUsername =>
      dsimp only
      rw [authLoginUsername]
      cases env.base64Decode (trim line) <;> simp
  | waitingForLoginPassword u =>
      dsimp only
      rw [authLoginPassword]
      cases env.base64Decode (trim line) with
      | none => simp
      | some d =>
          dsimp only
          split_ifs <;> simp

/-- What `process_command` does: fail on bytes that are not UTF-8, stop at the
    end of the stream, or interpret the line it read. -/
theorem processCommand_cases (env : Env) (cfg : SmtpConfig) (stamp : Stamp)
    (s : Session) (input : Bytes) :
    (readLine input = .error .io
      ∧ processCommand env cfg stamp s input = ⟨⟨s, [], .error .io⟩, input⟩)
    ∨ (∃ rest, readLine input = .ok ([], rest)
      ∧ processCommand env cfg stamp s input = ⟨⟨s, [], .ok .quit⟩, rest⟩)
    ∨ ∃ line rest, readLine input = .ok (line, rest) ∧ line ≠ []
      ∧ processCommand env cfg stamp s input
        = { interpret env cfg stamp line rest s with
            events := .read line :: (interpret env cfg stamp line rest s).events } := by
  rw [processCommand]
  cases hr : readLine input with
  | error e =>
      refine Or.inl ?_
      obtain rfl := readLine_error hr
      exact ⟨rfl, rfl⟩
  | ok q =>
      obtain ⟨line, rest⟩ := q
      refine Or.inr ?_
      by_cases hline : line = []
      · subst hline
        exact Or.inl ⟨rest, rfl, rfl⟩
      · exact Or.inr ⟨line, rest, rfl, hline, if_neg hline⟩

/-- **The lines that panic a session are exactly those with a crossed address**
    in a MAIL FROM or RCPT TO that is not refused beforehand; on every other
    input `process_command` ends with a result or an I/O error. -/
theorem processCommand_panics_iff (env : Env) (cfg : SmtpConfig) (stamp : Stamp)
    (s : Session) (input : Bytes) :
    (processCommand env cfg stamp s input).result ≠ .error .panic
      ↔ ∀ line rest, readLine input = .ok (line, rest) → ¬ PanicLine s line := by
  rcases processCommand_cases env cfg stamp s input with
    ⟨hr, hp⟩ | ⟨rest, hr, hp⟩ | ⟨line, rest, hr, hne, hp⟩
  · rw [hp, hr]
    exact ⟨fun _ _ _ h => (nomatch h), fun _ h => (nomatch h)⟩
  · rw [hp, hr]
    refine ⟨?_, fun _ h => nomatch h⟩
    rintro - line rest' heq ⟨-, -, ⟨t, ht, -⟩, -⟩
    cases heq
    exact nomatch ht
  · rw [hp, hr, ne_eq, interpret_panics]
    constructor
    · rintro h line' rest' heq
      cases heq
      exact h
    · intro h
      exact h line rest rfl

/-- A session without authentication panics on an address with its brackets
    the wrong way round. -/
theorem processCommand_crossed :
    (processCommand sampleEnv ⟨[], false, false, none, none, false⟩ sampleStamp
      (Session.new false false) (encode "MAIL FROM:>a<\r\n".toList)).result
    = .error .panic := by
  rfl

end SmtpSession
