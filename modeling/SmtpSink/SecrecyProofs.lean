import SmtpSink.ServerProofs

/-! # Secrecy — what a client can learn of the credentials

    The configured user name and password are compared with what a client
    presents, in two places, and are used nowhere else.  So two servers that
    differ only in their credentials cannot be told apart by their replies, by
    what they store or by where their sessions get to, before one of them accepts
    a login.

    `credentials_secret` — this holds of any two runs on one stream. -/

namespace SmtpSecrecy

open Utf8 Unicode SmtpReader SmtpRecord SmtpSession SmtpTurn SmtpConnection SmtpServer Runs

/-- Servers that offer the same and differ at most in whom they let in. -/
structure SameButCredentials (cfg cfg' : SmtpConfig) : Prop where
  whitelist : cfg'.whitelist = cfg.whitelist
  tlsAcceptor : cfg'.tlsAcceptor = cfg.tlsAcceptor
  forwardHandle : cfg'.forwardHandle = cfg.forwardHandle
  offered : cfg'.authUsername.isSome = cfg.authUsername.isSome

/-- The reply to a login that is accepted. -/
def acceptance : String := "235 Authentication successful"

/-- The two do the same, or one of them accepts a login. -/
def SameOrAccepted {α : Type} (events : α → List Event) (r r' : α) : Prop :=
  r' = r ∨ reply acceptance ∈ events r ∨ reply acceptance ∈ events r'

section

variable {α β : Type} {events : α → List Event} {r r' : α}

/-- Whatever is done with the results, as long as it keeps what is written. -/
theorem SameOrAccepted.map (f : α → β) (events' : β → List Event)
    (hf : ∀ r, ∀ e ∈ events r, e ∈ events' (f r)) (h : SameOrAccepted events r r') :
    SameOrAccepted events' (f r) (f r') := by
  rcases h with rfl | h | h
  · exact Or.inl rfl
  · exact Or.inr (Or.inl (hf r _ h))
  · exact Or.inr (Or.inr (hf r' _ h))

/-- Where each accepts or does the same third thing, they do the same or one accepts. -/
theorem sameOrAccepted_of_each {q : α} (h : r = q ∨ reply acceptance ∈ events r)
    (h' : r' = q ∨ reply acceptance ∈ events r') : SameOrAccepted events r r' := by
  rcases h with rfl | h
  · rcases h' with rfl | h'
    · exact Or.inl rfl
    · exact Or.inr (Or.inr h')
  · exact Or.inr (Or.inl h)

end

section

variable {env : Env} {cfg cfg' : SmtpConfig} {handshake : Option Bytes} {stamp : Stamp}
  {s : Session} {c c' d d' : Conn} {m n : Move} {ms ms' : List Move}

/-! ## Where the credentials are compared -/

/-- A PLAIN response is refused alike by all servers that do not accept it. -/
theorem verifyPlainAuth_each (env : Env) (cfg : SmtpConfig) (encoded : Text) (s : Session) :
    verifyPlainAuth env cfg encoded s = say s ["535 Authentication failed"]
      ∨ reply acceptance ∈ (verifyPlainAuth env cfg encoded s).events := by
  rw [verifyPlainAuth]
  cases env.base64Decode (trim encoded) with
  | none => exact Or.inl rfl
  | some decoded =>
      dsimp only
      rw [verifyParts]
      split_ifs
      · exact Or.inr List.mem_cons_self
      · exact Or.inl rfl
      · exact Or.inl rfl

theorem verifyPlainAuth_same (env : Env) (cfg cfg' : SmtpConfig) (encoded : Text) (s : Session) :
    SameOrAccepted Response.events (verifyPlainAuth env cfg encoded s)
      (verifyPlainAuth env cfg' encoded s) :=
  sameOrAccepted_of_each (verifyPlainAuth_each env cfg encoded s)
    (verifyPlainAuth_each env cfg' encoded s)

/-- So is a password. -/
theorem authLoginPassword_same (env : Env) (cfg cfg' : SmtpConfig) (username trimmed : Text)
    (s : Session) :
    SameOrAccepted Response.events (authLoginPassword env cfg username trimmed s)
      (authLoginPassword env cfg' username trimmed s) := by
  rw [authLoginPassword, authLoginPassword]
  cases env.base64Decode trimmed with
  | none => exact Or.inl rfl
  | some decoded =>
      dsimp only
      refine sameOrAccepted_of_each (q := say { s with authState := .none }
        ["535 Authentication failed"]) ?_ ?_
      · split_ifs
        · exact Or.inr List.mem_cons_self
        · exact Or.inl rfl
      · split_ifs
        · exact Or.inr List.mem_cons_self
        · exact Or.inl rfl

/-- The words of an AUTH command. -/
theorem authParts_same (env : Env) (cfg cfg' : SmtpConfig) (parts : List Text) (s : Session) :
    SameOrAccepted Response.events (authParts env cfg parts s) (authParts env cfg' parts s) := by
  rw [authParts, authParts]
  split_ifs
  · exact verifyPlainAuth_same env cfg cfg' _ s
  · exact Or.inl rfl
  · exact Or.inl rfl
  · exact Or.inl rfl
  · exact Or.inl rfl

/-! ## What a step tells -/

/-- The commands tell the same, but for AUTH. -/
theorem command_same (h : SameButCredentials cfg cfg') (stamp : Stamp) (trimmed : Text)
    (rest : Bytes) (s : Session) (v : Verb) :
    SameOrAccepted (fun r : Reaction => r.events) (command env cfg stamp trimmed rest s v)
      (command env cfg' stamp trimmed rest s v) := by
  cases v with
  | auth =>
      have hnone : cfg'.authUsername.isNone = cfg.authUsername.isNone := by
        rw [← Option.not_isSome, ← Option.not_isSome, h.offered]
      have hauth : SameOrAccepted Response.events (auth env cfg trimmed s)
          (auth env cfg' trimmed s) := by
        rw [auth, auth, hnone]
        split_ifs
        · exact Or.inl rfl
        · exact authParts_same env cfg cfg' _ s
      exact hauth.map (fun r => (⟨r, rest⟩ : Reaction)) _ (fun _ _ he => he)
  | ehlo =>
      refine Or.inl ?_
      rw [command, command, ehlo, ehlo, h.tlsAcceptor, h.offered]
  | starttls =>
      refine Or.inl ?_
      rw [command, command, starttls, starttls, h.tlsAcceptor]
  | mailFrom =>
      refine Or.inl ?_
      rw [command, command, mailFrom, mailFrom, h.whitelist]
  | data =>
      refine Or.inl ?_
      rw [command, command, data, data]
      simp only [deliver, h.forwardHandle]
  | rcptTo | rset | noop | quit | unknown => exact Or.inl rfl

theorem interpret_same (h : SameButCredentials cfg cfg') (stamp : Stamp) (line : Text)
    (rest : Bytes) (s : Session) :
    SameOrAccepted (fun r : Reaction => r.events) (interpret env cfg stamp line rest s)
      (interpret env cfg' stamp line rest s) := by
  rw [interpret, interpret]
  cases s.authState with
  | waitingForPlain =>
      exact (verifyPlainAuth_same env cfg cfg' (trim line) s).map
        (fun r : Response =>
          (⟨{ r with session := { r.session with authState := .none } }, rest⟩ : Reaction)) _
        (fun _ _ he => he)
  | waitingForLoginUsername => exact Or.inl rfl
  | waitingForLoginPassword username =>
      exact (authLoginPassword_same env cfg cfg' username (trim line) s).map
        (fun r => (⟨r, rest⟩ : Reaction)) _ (fun _ _ he => he)
  | none => exact command_same h stamp (trim line) rest s _

theorem processCommand_same (h : SameButCredentials cfg cfg') (stamp : Stamp) (s : Session)
    (input : Bytes) :
    SameOrAccepted (fun r : Reaction => r.events) (processCommand env cfg stamp s input)
      (processCommand env cfg' stamp s input) := by
  rw [processCommand, processCommand]
  cases readLine input with
  | error e => exact Or.inl rfl
  | ok p =>
      obtain ⟨line, rest⟩ := p
      dsimp only
      rw [processLine, processLine]
      split_ifs
      · exact Or.inl rfl
      · exact (interpret_same h stamp line rest s).map
          (fun r : Reaction => ({ r with events := .read line :: r.events } : Reaction)) _
          (fun _ _ he => List.mem_cons_of_mem _ he)

/-- **A step of a connection tells the same, or accepts a login.** -/
theorem connStep_same (env : Env) (h : SameButCredentials cfg cfg')
    (handshake : Option Bytes) (stamp : Stamp) (c : Conn) :
    SameOrAccepted (fun o : Option (List Event × Conn) => (o.map Prod.fst).getD [])
      (connStep env cfg handshake stamp c) (connStep env cfg' handshake stamp c) := by
  have hnext : plainNext cfg' = plainNext cfg := by
    funext result
    cases result with
    | error e => rfl
    | ok r =>
        cases r with
        | startTls => rw [plainNext, plainNext, h.tlsAcceptor]
        | «continue» | quit => rfl
  cases hp : c.phase with
  | fresh | upgrading | tlsFresh | closed =>
      refine Or.inl ?_
      simp only [connStep, hp]
  | plain =>
      simp only [connStep, hp, hnext]
      exact (processCommand_same h stamp c.session c.input).map
        (fun r : Reaction => some (r.events, (⟨plainNext cfg r.result, r.session, r.rest⟩ : Conn)))
        _ (fun _ _ he => he)
  | tls =>
      simp only [connStep, hp]
      exact (processCommand_same h stamp c.session c.input).map
        (fun r : Reaction => some (r.events ++ tlsExtra r.result,
          (⟨tlsNext r.result, r.session, r.rest⟩ : Conn)))
        _ (fun _ _ he => List.mem_append_left _ he)

/-! ## What a run tells -/

/-- What is written is among the replies. -/
theorem mem_replies {text : String} :
    (text.toList ++ ['\r', '\n']) ∈ replies m ↔ m.Says text := by
  rw [replies, List.mem_filterMap, Move.Says]
  constructor
  · rintro ⟨e, he, hwritten⟩
    cases e with
    | write t =>
        obtain rfl := Option.some.inj hwritten
        exact he
    | read | body | forward | push => cases hwritten
  · intro h
    exact ⟨_, h, rfl⟩

/-- **Two moves from one state** tell the same, or one of them accepts a login. -/
theorem own_same (h : SameButCredentials cfg cfg') (hown : OwnStep env cfg handshake c m d)
    (hown' : OwnStep env cfg' handshake c n d') :
    (replies n = replies m ∧ n.handed = m.handed ∧ d' = d)
      ∨ m.Says acceptance ∨ n.Says acceptance := by
  obtain ⟨hbefore, hafter, stamp, hstep⟩ := hown
  have hsame := connStep_same env h handshake stamp c
  rw [hstep] at hsame
  rcases hsame with heq | hm | hn
  · exact Or.inl (own_determined hown' ⟨hbefore, hafter, stamp, heq⟩)
  · exact Or.inr (Or.inl hm)
  · -- with the clock of the one, the other accepts, and its clock does not matter
    cases hother : connStep env cfg' handshake stamp c with
    | none =>
        rw [hother] at hn
        cases hn
    | some p =>
        obtain ⟨events, e⟩ := p
        rw [hother] at hn
        have hown'' : OwnStep env cfg' handshake c ⟨c, events, e⟩ e := ⟨rfl, rfl, stamp, hother⟩
        have hdet := own_determined hown' hown''
        have hreply : (acceptance.toList ++ ['\r', '\n']) ∈ replies ⟨c, events, e⟩ :=
          mem_replies.mpr hn
        rw [← hdet.1] at hreply
        exact Or.inr (Or.inr (mem_replies.mp hreply))

end

/-- **The credentials are secret.**  Of two servers that differ at most in their
    credentials, on one connection and after as many moves, the replies, what was
    handed to the store, and the state are the same, unless one of the two has
    accepted a login. -/
theorem credentials_secret {env : Env} {cfg cfg' : SmtpConfig} {handshake : Option Bytes}
    {c d d' : Conn} {ms ms' : List Move} (h : SameButCredentials cfg cfg')
    (hrun : Run (OwnStep env cfg handshake) c ms d)
    (hrun' : Run (OwnStep env cfg' handshake) c ms' d') (hlen : ms'.length = ms.length) :
    (ms'.flatMap replies = ms.flatMap replies ∧ ms'.flatMap Move.handed = ms.flatMap Move.handed
        ∧ d' = d)
      ∨ ∃ m, (m ∈ ms ∨ m ∈ ms') ∧ m.Says acceptance := by
  induction hrun generalizing ms' d' with
  | nil =>
      obtain rfl := List.eq_nil_of_length_eq_zero hlen
      exact Or.inl ⟨rfl, rfl, hrun'.nil_inv⟩
  | @snoc ms t u m _ hstep ih =>
      rw [List.length_append, List.length_singleton] at hlen
      rw [take_append_last hlen] at hrun'
      obtain ⟨t', hbefore, hlast⟩ := hrun'.snoc_inv
      generalize hn : ms'.get ⟨ms.length, by omega⟩ = n at hlast
      have hms' : ms' = ms'.take ms.length ++ [n] := by
        rw [← hn]
        exact take_append_last hlen
      rcases ih hbefore (by rw [List.length_take]; omega) with
        ⟨hreplies, hhanded, rfl⟩ | ⟨x, hx, hok⟩
      · rcases own_same h hstep hlast with ⟨hr, hh, rfl⟩ | hm | hn
        · refine Or.inl ⟨?_, ?_, rfl⟩
          · rw [hms', List.flatMap_append, List.flatMap_append, hreplies, List.flatMap_singleton,
              List.flatMap_singleton, hr]
          · rw [hms', List.flatMap_append, List.flatMap_append, hhanded, List.flatMap_singleton,
              List.flatMap_singleton, hh]
        · exact Or.inr ⟨m, Or.inl (by simp), hm⟩
        · refine Or.inr ⟨n, Or.inr ?_, hn⟩
          rw [hms']
          exact List.mem_append_right _ (List.mem_singleton_self n)
      · -- a login that was accepted before
        refine Or.inr ⟨x, ?_, hok⟩
        rcases hx with hx | hx
        · exact Or.inl (List.mem_append_left _ hx)
        · exact Or.inr (List.mem_of_mem_take hx)

/-- A server with one account. -/
def accountOf (u p : Text) : SmtpConfig := ⟨[], false, true, some u, some p, false⟩

/-- A client that guesses wrong at both of two servers. -/
def wrongGuess : Conn := Conn.start (accountOf ['v'] ['q'])
  (encode "AUTH PLAIN AHUAcA==\r\n".toList)

theorem credentials_secret_guess : ∃ ms ms' d d',
    Run (OwnStep sampleEnv (accountOf ['v'] ['q']) none) wrongGuess ms d
      ∧ Run (OwnStep sampleEnv (accountOf ['w'] ['r']) none) wrongGuess ms' d'
      ∧ ms.length = 2 ∧ ms'.flatMap replies = ms.flatMap replies := by
  have hsame : SameButCredentials (accountOf ['v'] ['q']) (accountOf ['w'] ['r']) :=
    ⟨rfl, rfl, rfl, rfl⟩
  have hrun := moves_own sampleEnv (accountOf ['v'] ['q']) none sampleStamp 2 wrongGuess
  have hrun' := moves_own sampleEnv (accountOf ['w'] ['r']) none sampleStamp 2 wrongGuess
  refine ⟨_, _, _, _, hrun, hrun', by decide +kernel, ?_⟩
  rcases credentials_secret hsame hrun hrun' (by decide +kernel) with h | ⟨m, hm | hm, hok⟩
  · exact h.1
  · exact absurd hok ((by decide +kernel : ∀ m ∈ _, ¬ m.Says acceptance) m hm)
  · exact absurd hok ((by decide +kernel : ∀ m ∈ _, ¬ m.Says acceptance) m hm)

end SmtpSecrecy
