import SmtpSink.SessionProofs

/-! # Turns — everything one line of the client can do

    `Turn` lists what `interpret` can do with a line, each case with the guards
    under which it happens and the complete session, events and result it
    leaves.  `interpret_turn` says that the list is complete; every later
    property of sessions is a case analysis on it, and none unfolds a handler.

    The replies are the server's own texts: `refusals` lists those with a 4xx
    or 5xx code. -/

namespace SmtpTurn

open Utf8 Unicode SmtpReader SmtpRecord SmtpSession

/-- The command a line is for a session; none while an AUTH exchange is under
    way. -/
def verb? (s : Session) (line : Text) : Option Verb :=
  if s.authState = .none then some (dispatch (toUppercase (trim line))) else none

/-- The address in the argument of a MAIL FROM line. -/
def mailAddress? (line : Text) : Option Text :=
  (dropBytes? 10 (trim line)).bind extractAddress

/-- The address in the argument of a RCPT TO line. -/
def rcptAddress? (line : Text) : Option Text :=
  (dropBytes? 8 (trim line)).bind extractAddress

/-- The replies that refuse a line. -/
def refusals : List String :=
  ["535 Authentication failed", "501 Cannot decode", "454 TLS not available",
    "503 TLS already active", "503 AUTH not available", "504 Unrecognized auth type",
    "501 Syntax error", "530 Authentication required", "550 Sender not allowed",
    "503 MAIL FROM required first", "503 RCPT TO required first",
    "500 Command not recognized"]

/-- The line starts a PLAIN exchange without an initial response. -/
def PromptsPlain (s : Session) (line : Text) : Prop :=
  verb? s line = some .auth
    ∧ ∃ w mechanism, splitWhitespace (trim line) = [w, mechanism]
      ∧ toUppercase mechanism = "PLAIN".toList

/-- The line starts a LOGIN exchange. -/
def PromptsLogin (s : Session) (line : Text) : Prop :=
  verb? s line = some .auth
    ∧ ∃ w mechanism more, splitWhitespace (trim line) = w :: mechanism :: more
      ∧ toUppercase mechanism = "LOGIN".toList

/-- The line is a PLAIN command with an initial response that carries the given
    credentials. -/
def RespondsPlain (env : Env) (s : Session) (line u p : Text) : Prop :=
  verb? s line = some .auth
    ∧ ∃ w mechanism response more,
      splitWhitespace (trim line) = w :: mechanism :: response :: more
      ∧ toUppercase mechanism = "PLAIN".toList
      ∧ plainCredentials env response = some (u, p)

/-- The line presents the configured credentials in one of the three ways. -/
inductive Authenticates (env : Env) (cfg : SmtpConfig) (s : Session) (line : Text) :
    Prop where
  | inline (u p : Text) : RespondsPlain env s line u p → cfg.Admits u p →
      Authenticates env cfg s line
  | prompted (u p : Text) : s.authState = .waitingForPlain →
      plainCredentials env (trim line) = some (u, p) → cfg.Admits u p →
      Authenticates env cfg s line
  | login (u : Text) (d : Bytes) : s.authState = .waitingForLoginPassword u →
      env.base64Decode (trim line) = some d → cfg.Admits u (fromUtf8Lossy d) →
      Authenticates env cfg s line

/-- The line is a DATA the session may carry out. -/
structure OpensData (s : Session) (line : Text) : Prop where
  verb : verb? s line = some .data
  unlocked : s.locked = false
  sender : s.mailFrom ≠ none
  recipients : s.rcptTo ≠ []

/-- What one line does to a session, case by case. -/
inductive Turn (env : Env) (cfg : SmtpConfig) (stamp : Stamp) (line : Text)
    (rest : Bytes) (s : Session) : Reaction → Prop where
  /-- a 4xx or 5xx reply; an AUTH exchange under way is over -/
  | refused (text : String) : text ∈ refusals →
      Turn env cfg stamp line rest s ⟨say { s with authState := .none } [text], rest⟩
  | promptPlain : PromptsPlain s line →
      Turn env cfg stamp line rest s
        ⟨say { s with authState := .waitingForPlain } ["334 "], rest⟩
  | promptLogin : PromptsLogin s line →
      Turn env cfg stamp line rest s
        ⟨say { s with authState := .waitingForLoginUsername } ["334 VXNlcm5hbWU6"], rest⟩
  | promptPassword (d : Bytes) : s.authState = .waitingForLoginUsername →
      env.base64Decode (trim line) = some d →
      Turn env cfg stamp line rest s
        ⟨say { s with authState := .waitingForLoginPassword (fromUtf8Lossy d) }
          ["334 UGFzc3dvcmQ6"], rest⟩
  | authenticated : Authenticates env cfg s line →
      Turn env cfg stamp line rest s
        ⟨say { s with authenticated := true, authState := .none }
          ["235 Authentication successful"], rest⟩
  | ehlo : verb? s line = some .ehlo →
      Turn env cfg stamp line rest s ⟨ehlo cfg s, rest⟩
  | starttls : verb? s line = some .starttls → cfg.tlsAcceptor = true →
      s.tlsActive = false →
      Turn env cfg stamp line rest s
        ⟨{ say s ["220 Ready to start TLS"] with result := .ok .startTls }, rest⟩
  | mailAccepted (addr : Text) : verb? s line = some .mailFrom → s.locked = false →
      mailAddress? line = some addr →
      (cfg.whitelist = [] ∨ toLowercase addr ∈ cfg.whitelist) →
      Turn env cfg stamp line rest s ⟨say { s with mailFrom := some addr } ["250 OK"], rest⟩
  | rcptAccepted (addr : Text) : verb? s line = some .rcptTo → s.locked = false →
      s.mailFrom ≠ none → rcptAddress? line = some addr →
      Turn env cfg stamp line rest s
        ⟨say { s with rcptTo := s.rcptTo ++ [addr] } ["250 OK"], rest⟩
  /-- the stream fails inside the message -/
  | dataFailed : verb? s line = some .data → s.locked = false → s.mailFrom ≠ none →
      s.rcptTo ≠ [] → readData rest = .error .io →
      Turn env cfg stamp line rest s ⟨⟨s, [reply startData], .error .io⟩, rest⟩
  | dataAccepted (bytes rest' : Bytes) : verb? s line = some .data → s.locked = false →
      s.mailFrom ≠ none → s.rcptTo ≠ [] → readData rest = .ok (bytes, rest') →
      Turn env cfg stamp line rest s
        ⟨⟨s.reset,
          [reply startData, .body bytes]
            ++ deliver cfg (parseEmail env stamp bytes s.envelope)
            ++ [reply "250 OK: queued"],
          .ok .continue⟩, rest'⟩
  | rset : verb? s line = some .rset →
      Turn env cfg stamp line rest s ⟨say s.reset ["250 OK"], rest⟩
  | noop : verb? s line = some .noop →
      Turn env cfg stamp line rest s ⟨say s ["250 OK"], rest⟩
  | quit : verb? s line = some .quit →
      Turn env cfg stamp line rest s
        ⟨{ say s ["221 Bye"] with result := .ok .quit }, rest⟩
  | panicked : PanicLine s line →
      Turn env cfg stamp line rest s ⟨panicked s, rest⟩

section

variable {env : Env} {cfg : SmtpConfig} {stamp : Stamp} {line : Text} {rest : Bytes}
  {s : Session}

theorem verb?_of_idle (h : s.authState = .none) :
    verb? s line = some (dispatch (toUppercase (trim line))) := if_pos h

theorem idle_of_verb? {v : Verb} (h : verb? s line = some v) : s.authState = .none := by
  by_contra hn
  rw [verb?, if_neg hn] at h
  exact nomatch h

/-- A line that is a command is handled by its handler. -/
theorem interpret_of_verb? {v : Verb} (h : verb? s line = some v) :
    interpret env cfg stamp line rest s = command env cfg stamp (trim line) rest s v := by
  have hidle := idle_of_verb? h
  rw [verb?_of_idle hidle] at h
  rw [interpret, hidle]
  dsimp only
  rw [Option.some.inj h]

/-- A DATA that may be carried out depends on the data section alone. -/
theorem OpensData.interpret_data (h : OpensData s line) :
    interpret env cfg stamp line rest s
      = match readData rest with
        | .error e => ⟨⟨s, [reply startData], .error e⟩, rest⟩
        | .ok (bytes, rest') => ⟨⟨s.reset,
            [reply startData, .body bytes]
              ++ deliver cfg (parseEmail env stamp bytes s.envelope)
              ++ [reply "250 OK: queued"],
            .ok .continue⟩, rest'⟩ := by
  have hm : s.mailFrom.isNone = false := Option.isNone_eq_false_iff.mpr
    (Option.isSome_iff_ne_none.mpr h.sender)
  have hr : s.rcptTo.isEmpty = false := List.isEmpty_eq_false_iff.mpr h.recipients
  rw [interpret_of_verb? h.verb, command, data, h.unlocked, hm, hr]
  rfl

/-- It reads the message and delivers it. -/
theorem OpensData.interpret_eq {bytes rest' : Bytes} (h : OpensData s line)
    (hd : readData rest = .ok (bytes, rest')) :
    interpret env cfg stamp line rest s = ⟨⟨s.reset,
      [reply startData, .body bytes]
        ++ deliver cfg (parseEmail env stamp bytes s.envelope) ++ [reply "250 OK: queued"],
      .ok .continue⟩, rest'⟩ := by
  rw [h.interpret_data, hd]

theorem OpensData.line_ne (h : OpensData s line) : line ≠ [] := by
  rintro rfl
  have hv := h.verb
  rw [verb?_of_idle (idle_of_verb? hv)] at hv
  exact absurd hv (by decide)

/-- A refused line ends an AUTH exchange; without one it changes nothing. -/
theorem refused_of_idle (h : s.authState = .none) (text : String)
    (ht : text ∈ refusals) : Turn env cfg stamp line rest s ⟨say s [text], rest⟩ := by
  have : Turn env cfg stamp line rest s
      ⟨say { s with authState := .none } [text], rest⟩ := Turn.refused text ht
  rwa [← h] at this

/-- The PLAIN response of a command. -/
theorem verifyPlainAuth_turn {response : Text} (hidle : s.authState = .none)
    (hresp : ∀ u p, plainCredentials env response = some (u, p) →
      RespondsPlain env s line u p) :
    Turn env cfg stamp line rest s ⟨verifyPlainAuth env cfg response s, rest⟩ := by
  rcases verifyPlainAuth_cases env cfg response s with ⟨⟨u, p, hup, had⟩, h⟩ | ⟨-, h⟩
  · rw [h]
    have : Turn env cfg stamp line rest s
        ⟨say { s with authenticated := true, authState := .none }
          ["235 Authentication successful"], rest⟩ :=
      Turn.authenticated (Authenticates.inline u p (hresp u p hup) had)
    rwa [← hidle] at this
  · rw [h]
    exact refused_of_idle hidle _ (by decide)

theorem auth_turn (hv : verb? s line = some .auth) :
    Turn env cfg stamp line rest s ⟨auth env cfg (trim line) s, rest⟩ := by
  have hidle := idle_of_verb? hv
  rw [auth]
  by_cases hu : cfg.authUsername.isNone = true
  · rw [if_pos hu]
    exact refused_of_idle hidle _ (by decide)
  · rw [if_neg hu]
    cases hw : splitWhitespace (trim line) with
    | nil => exact refused_of_idle hidle _ (by decide)
    | cons w ws =>
        cases ws with
        | nil => exact refused_of_idle hidle _ (by decide)
        | cons mechanism more =>
            rw [authParts, dif_pos (by simp)]
            dsimp only [List.getElem_cons_succ, List.getElem_cons_zero]
            by_cases hplain : toUppercase mechanism = "PLAIN".toList
            · rw [if_pos hplain]
              cases more with
              | nil => exact Turn.promptPlain ⟨hv, w, mechanism, hw, hplain⟩
              | cons response more =>
                  rw [dif_pos (by simp)]
                  exact verifyPlainAuth_turn hidle (fun u p h =>
                    ⟨hv, w, mechanism, response, more, hw, hplain, h⟩)
            · rw [if_neg hplain]
              by_cases hlogin : toUppercase mechanism = "LOGIN".toList
              · rw [if_pos hlogin]
                exact Turn.promptLogin ⟨hv, w, mechanism, more, hw, hlogin⟩
              · rw [if_neg hlogin]
                exact refused_of_idle hidle _ (by decide)

theorem mailFrom_turn (hv : verb? s line = some .mailFrom) :
    Turn env cfg stamp line rest s ⟨mailFrom cfg (trim line) s, rest⟩ := by
  have hidle := idle_of_verb? hv
  have hd : dispatch (toUppercase (trim line)) = .mailFrom := by
    rw [verb?_of_idle hidle] at hv
    exact Option.some.inj hv
  rw [mailFrom]
  cases hl : s.locked with
  | true => exact refused_of_idle hidle _ (by decide)
  | false =>
      rw [if_neg Bool.false_ne_true]
      cases ha : (dropBytes? 10 (trim line)).bind extractAddress with
      | none =>
          have hcross := (mailFrom_address hd).mp ha
          rw [CrossedBrackets, angleBrackets_trim] at hcross
          exact Turn.panicked ⟨hidle, hl, hcross, Or.inl hd⟩
      | some addr =>
          dsimp only
          by_cases hw : (!cfg.whitelist.isEmpty
              && !cfg.whitelist.contains (toLowercase addr)) = true
          · rw [if_pos hw]
            exact refused_of_idle hidle _ (by decide)
          · rw [if_neg hw]
            refine Turn.mailAccepted addr hv hl ha ?_
            by_cases he : cfg.whitelist = []
            · exact Or.inl he
            · refine Or.inr ?_
              by_contra hmem
              exact hw (by simp [he, hmem])

theorem rcptTo_turn (hv : verb? s line = some .rcptTo) :
    Turn env cfg stamp line rest s ⟨rcptTo (trim line) s, rest⟩ := by
  have hidle := idle_of_verb? hv
  have hd : dispatch (toUppercase (trim line)) = .rcptTo := by
    rw [verb?_of_idle hidle] at hv
    exact Option.some.inj hv
  rw [rcptTo]
  cases hl : s.locked with
  | true => exact refused_of_idle hidle _ (by decide)
  | false =>
      rw [if_neg Bool.false_ne_true]
      by_cases hm : s.mailFrom.isNone = true
      · rw [if_pos hm]
        exact refused_of_idle hidle _ (by decide)
      · rw [if_neg hm]
        have hsome : s.mailFrom ≠ none := fun h => hm (by rw [h]; rfl)
        cases ha : (dropBytes? 8 (trim line)).bind extractAddress with
        | none =>
            have hcross := (rcptTo_address hd).mp ha
            rw [CrossedBrackets, angleBrackets_trim] at hcross
            exact Turn.panicked ⟨hidle, hl, hcross, Or.inr ⟨hd, hsome⟩⟩
        | some addr => exact Turn.rcptAccepted addr hv hl hsome ha

theorem data_turn (hv : verb? s line = some .data) :
    Turn env cfg stamp line rest s (data env cfg stamp rest s) := by
  have hidle := idle_of_verb? hv
  rw [data]
  cases hl : s.locked with
  | true => exact refused_of_idle hidle _ (by decide)
  | false =>
      rw [if_neg Bool.false_ne_true]
      by_cases hm : s.mailFrom.isNone = true
      · rw [if_pos hm]
        exact refused_of_idle hidle _ (by decide)
      · rw [if_neg hm]
        have hsome : s.mailFrom ≠ none := fun h => hm (by rw [h]; rfl)
        by_cases hr : s.rcptTo.isEmpty = true
        · rw [if_pos hr]
          exact refused_of_idle hidle _ (by decide)
        · rw [if_neg hr]
          have hne : s.rcptTo ≠ [] := fun h => hr (by rw [h]; rfl)
          cases hd : readData rest with
          | ok q => exact Turn.dataAccepted q.1 q.2 hv hl hsome hne hd
          | error e =>
              cases e with
              | io => exact Turn.dataFailed hv hl hsome hne hd
              | panic => exact absurd hd (readDataLoop_ne_panic _ _ _)

theorem starttls_turn (hv : verb? s line = some .starttls) :
    Turn env cfg stamp line rest s ⟨starttls cfg s, rest⟩ := by
  have hidle := idle_of_verb? hv
  rw [starttls]
  cases ht : cfg.tlsAcceptor with
  | false => exact refused_of_idle hidle _ (by decide)
  | true =>
      cases ha : s.tlsActive with
      | true => exact refused_of_idle hidle _ (by decide)
      | false => exact Turn.starttls hv ht ha

theorem command_turn {v : Verb} (hv : verb? s line = some v) :
    Turn env cfg stamp line rest s (command env cfg stamp (trim line) rest s v) := by
  cases v with
  | ehlo => exact Turn.ehlo hv
  | starttls => exact starttls_turn hv
  | auth => exact auth_turn hv
  | mailFrom => exact mailFrom_turn hv
  | rcptTo => exact rcptTo_turn hv
  | data => exact data_turn hv
  | rset => exact Turn.rset hv
  | noop => exact Turn.noop hv
  | quit => exact Turn.quit hv
  | unknown => exact refused_of_idle (idle_of_verb? hv) _ (by decide)

theorem authPlain_turn (hw : s.authState = .waitingForPlain) :
    Turn env cfg stamp line rest s ⟨authPlain env cfg (trim line) s, rest⟩ := by
  rw [authPlain]
  rcases verifyPlainAuth_cases env cfg (trim line) s with ⟨⟨u, p, hup, had⟩, h⟩ | ⟨-, h⟩
  · rw [h]
    exact Turn.authenticated (Authenticates.prompted u p hw hup had)
  · rw [h]
    exact Turn.refused _ (by decide)

theorem authLoginUsername_turn (hw : s.authState = .waitingForLoginUsername) :
    Turn env cfg stamp line rest s ⟨authLoginUsername env (trim line) s, rest⟩ := by
  rw [authLoginUsername]
  cases hd : env.base64Decode (trim line) with
  | none => exact Turn.refused _ (by decide)
  | some d => exact Turn.promptPassword d hw hd

theorem authLoginPassword_turn {u : Text}
    (hw : s.authState = .waitingForLoginPassword u) :
    Turn env cfg stamp line rest s ⟨authLoginPassword env cfg u (trim line) s, rest⟩ := by
  rw [authLoginPassword]
  cases hd : env.base64Decode (trim line) with
  | none => exact Turn.refused _ (by decide)
  | some d =>
      dsimp only
      by_cases hok : some u = cfg.authUsername
          ∧ some (fromUtf8Lossy d) = cfg.authPassword
      · rw [if_pos hok]
        exact Turn.authenticated
          (Authenticates.login u d hw hd ⟨hok.1.symm, hok.2.symm⟩)
      · rw [if_neg hok]
        exact Turn.refused _ (by decide)

/-- **The list of turns is complete.** -/
theorem interpret_turn (env : Env) (cfg : SmtpConfig) (stamp : Stamp) (line : Text)
    (rest : Bytes) (s : Session) :
    Turn env cfg stamp line rest s (interpret env cfg stamp line rest s) := by
  rw [interpret]
  cases hw : s.authState with
  | none => exact command_turn (verb?_of_idle hw)
  | waitingForPlain => exact authPlain_turn hw
  | waitingForLoginUsername => exact authLoginUsername_turn hw
  | waitingForLoginPassword u => exact authLoginPassword_turn hw

/-! ## Consequences of the list

    What the turns say about the replies, the AUTH state machine and the
    message commands. -/

theorem reply_injective {a b : String} (h : reply a = reply b) : a = b := by
  injection h with h
  exact String.toList_inj.mp (List.append_cancel_right h)

theorem reply_mem_map {t : String} {l : List String} :
    reply t ∈ l.map reply ↔ t ∈ l := by
  rw [List.mem_map]
  constructor
  · rintro ⟨a, ha, h⟩
    rwa [← reply_injective h]
  · intro h
    exact ⟨t, h, rfl⟩

/-- The lines of an EHLO reply. -/
theorem ehlo_lines (cfg : SmtpConfig) (s : Session) :
    ∃ lines : List String, ehlo cfg s = say s lines
      ∧ lines ∈ [["250-localhost Hello", "250-SIZE 10485760", "250-8BITMIME", "250 OK"],
        ["250-localhost Hello", "250-SIZE 10485760", "250-8BITMIME", "250-STARTTLS",
          "250 OK"],
        ["250-localhost Hello", "250-SIZE 10485760", "250-8BITMIME",
          "250-AUTH PLAIN LOGIN", "250 OK"],
        ["250-localhost Hello", "250-SIZE 10485760", "250-8BITMIME", "250-STARTTLS",
          "250-AUTH PLAIN LOGIN", "250 OK"]] := by
  refine ⟨_, rfl, ?_⟩
  by_cases h1 : (cfg.tlsAcceptor && !s.tlsActive) = true
  · rw [if_pos h1]
    by_cases h2 : cfg.authUsername.isSome = true
    · rw [if_pos h2]; decide
    · rw [if_neg h2]; decide
  · rw [if_neg h1]
    by_cases h2 : cfg.authUsername.isSome = true
    · rw [if_pos h2]; decide
    · rw [if_neg h2]; decide

/-- The replies of a DATA that is carried out. -/
def messageReplies : List String := [startData, "250 OK: queued"]

/-- A turn either only writes replies, none of which belongs to a message, or is
    a DATA that is carried out. -/
theorem Turn.says_or_data {r : Reaction} (h : Turn env cfg stamp line rest s r) :
    (∃ lines : List String, r.events = lines.map reply ∧ ∀ t ∈ lines, t ∉ messageReplies)
    ∨ (OpensData s line
      ∧ ((readData rest = .error .io ∧ r = ⟨⟨s, [reply startData], .error .io⟩, rest⟩)
        ∨ ∃ bytes rest', readData rest = .ok (bytes, rest')
          ∧ r = ⟨⟨s.reset,
            [reply startData, .body bytes]
              ++ deliver cfg (parseEmail env stamp bytes s.envelope)
              ++ [reply "250 OK: queued"],
            .ok .continue⟩, rest'⟩)) := by
  cases h with
  | refused text ht =>
      have hother : ∀ t ∈ refusals, t ∉ messageReplies := by decide
      refine Or.inl ⟨[text], rfl, fun t h => ?_⟩
      obtain rfl := List.mem_singleton.mp h
      exact hother t ht
  | promptPlain => exact Or.inl ⟨_, rfl, by decide⟩
  | promptLogin => exact Or.inl ⟨_, rfl, by decide⟩
  | promptPassword => exact Or.inl ⟨_, rfl, by decide⟩
  | authenticated => exact Or.inl ⟨_, rfl, by decide⟩
  | ehlo =>
      obtain ⟨lines, hl, hmem⟩ := ehlo_lines cfg s
      rw [hl]
      refine Or.inl ⟨lines, rfl, ?_⟩
      clear hl
      revert lines
      decide
  | starttls => exact Or.inl ⟨["220 Ready to start TLS"], rfl, by decide⟩
  | mailAccepted => exact Or.inl ⟨_, rfl, by decide⟩
  | rcptAccepted => exact Or.inl ⟨_, rfl, by decide⟩
  | dataFailed hv hl hm hr hd => exact Or.inr ⟨⟨hv, hl, hm, hr⟩, Or.inl ⟨hd, rfl⟩⟩
  | dataAccepted bytes rest' hv hl hm hr hd =>
      exact Or.inr ⟨⟨hv, hl, hm, hr⟩, Or.inr ⟨bytes, rest', hd, rfl⟩⟩
  | rset => exact Or.inl ⟨_, rfl, by decide⟩
  | noop => exact Or.inl ⟨_, rfl, by decide⟩
  | quit => exact Or.inl ⟨["221 Bye"], rfl, by decide⟩
  | panicked => exact Or.inl ⟨[], rfl, by decide⟩

/-- A MAIL FROM or RCPT TO answered 250 was accepted. -/
theorem Turn.accepted_of_ok {r : Reaction} (h : Turn env cfg stamp line rest s r)
    (hok : reply "250 OK" ∈ r.events) :
    (verb? s line = some .mailFrom → s.locked = false ∧ ∃ addr,
      mailAddress? line = some addr ∧ (cfg.whitelist = [] ∨ toLowercase addr ∈ cfg.whitelist)
        ∧ r = ⟨say { s with mailFrom := some addr } ["250 OK"], rest⟩)
    ∧ (verb? s line = some .rcptTo → s.locked = false ∧ s.mailFrom ≠ none ∧ ∃ addr,
      rcptAddress? line = some addr
        ∧ r = ⟨say { s with rcptTo := s.rcptTo ++ [addr] } ["250 OK"], rest⟩) := by
  have other : ∀ {v : Verb} {p q : Prop}, verb? s line = some v → v ≠ .mailFrom →
      v ≠ .rcptTo → (verb? s line = some .mailFrom → p)
        ∧ (verb? s line = some .rcptTo → q) := by
    intro v p q hv h1 h2
    rw [hv]
    exact ⟨fun h => absurd (Option.some.inj h) h1, fun h => absurd (Option.some.inj h) h2⟩
  cases h with
  | refused text ht =>
      obtain rfl := reply_injective (List.mem_singleton.mp hok)
      exact absurd ht (by decide)
  | promptPlain hp => exact other hp.1 (by decide) (by decide)
  | promptLogin hp => exact other hp.1 (by decide) (by decide)
  | promptPassword => exact absurd (reply_injective (List.mem_singleton.mp hok)) (by decide)
  | authenticated => exact absurd (reply_injective (List.mem_singleton.mp hok)) (by decide)
  | ehlo hv => exact other hv (by decide) (by decide)
  | starttls hv => exact other hv (by decide) (by decide)
  | mailAccepted addr hv hl ha hw =>
      refine ⟨fun _ => ⟨hl, addr, ha, hw, rfl⟩, fun h => ?_⟩
      rw [hv] at h
      exact absurd (Option.some.inj h) (by decide)
  | rcptAccepted addr hv hl hm ha =>
      refine ⟨fun h => ?_, fun _ => ⟨hl, hm, addr, ha, rfl⟩⟩
      rw [hv] at h
      exact absurd (Option.some.inj h) (by decide)
  | dataFailed hv => exact other hv (by decide) (by decide)
  | dataAccepted _ _ hv => exact other hv (by decide) (by decide)
  | rset hv => exact other hv (by decide) (by decide)
  | noop hv => exact other hv (by decide) (by decide)
  | quit hv => exact other hv (by decide) (by decide)
  | panicked => exact absurd hok (by simp [SmtpSession.panicked])

/-- What a turn does to the AUTH state machine. -/
theorem Turn.auth_effect {r : Reaction} (h : Turn env cfg stamp line rest s r) :
    r.session.authRequired = s.authRequired
    ∧ (r.session.authenticated = true → s.authenticated = true
      ∨ Authenticates env cfg s line ∧ reply "235 Authentication successful" ∈ r.events)
    ∧ (r.session.authState = .none
      ∨ PromptsPlain s line ∧ r.session.authState = .waitingForPlain
      ∨ PromptsLogin s line ∧ r.session.authState = .waitingForLoginUsername
      ∨ ∃ d, s.authState = .waitingForLoginUsername
        ∧ env.base64Decode (trim line) = some d
        ∧ r.session.authState = .waitingForLoginPassword (fromUtf8Lossy d)) := by
  cases h with
  | refused => exact ⟨rfl, Or.inl, Or.inl rfl⟩
  | promptPlain hp => exact ⟨rfl, Or.inl, Or.inr (Or.inl ⟨hp, rfl⟩)⟩
  | promptLogin hp => exact ⟨rfl, Or.inl, Or.inr (Or.inr (Or.inl ⟨hp, rfl⟩))⟩
  | promptPassword d hw hd =>
      exact ⟨rfl, Or.inl, Or.inr (Or.inr (Or.inr ⟨d, hw, hd, rfl⟩))⟩
  | authenticated ha =>
      exact ⟨rfl, fun _ => Or.inr ⟨ha, List.mem_singleton.mpr rfl⟩, Or.inl rfl⟩
  | ehlo hv => exact ⟨rfl, Or.inl, Or.inl (idle_of_verb? hv)⟩
  | starttls hv => exact ⟨rfl, Or.inl, Or.inl (idle_of_verb? hv)⟩
  | mailAccepted _ hv => exact ⟨rfl, Or.inl, Or.inl (idle_of_verb? hv)⟩
  | rcptAccepted _ hv => exact ⟨rfl, Or.inl, Or.inl (idle_of_verb? hv)⟩
  | dataFailed hv => exact ⟨rfl, Or.inl, Or.inl (idle_of_verb? hv)⟩
  | dataAccepted _ _ hv => exact ⟨rfl, Or.inl, Or.inl (idle_of_verb? hv)⟩
  | rset hv => exact ⟨rfl, Or.inl, Or.inl (idle_of_verb? hv)⟩
  | noop hv => exact ⟨rfl, Or.inl, Or.inl (idle_of_verb? hv)⟩
  | quit hv => exact ⟨rfl, Or.inl, Or.inl (idle_of_verb? hv)⟩
  | panicked hp => exact ⟨rfl, Or.inl, Or.inl hp.1⟩

/-- No turn changes how the session is transported. -/
theorem Turn.tlsActive_eq {r : Reaction} (h : Turn env cfg stamp line rest s r) :
    r.session.tlsActive = s.tlsActive := by
  cases h with
  | _ => rfl

/-- What a turn does to the envelope: nothing, drop it, set its sender, or add a
    recipient. -/
theorem Turn.envelope_effect {r : Reaction} (h : Turn env cfg stamp line rest s r) :
    r.session.envelope = s.envelope ∨ r.session.envelope = ⟨none, []⟩
    ∨ (∃ addr, verb? s line = some .mailFrom ∧ mailAddress? line = some addr
      ∧ reply "250 OK" ∈ r.events ∧ r.session.envelope = ⟨some addr, s.rcptTo⟩)
    ∨ ∃ addr, verb? s line = some .rcptTo ∧ rcptAddress? line = some addr
      ∧ reply "250 OK" ∈ r.events
      ∧ r.session.envelope = ⟨s.mailFrom, s.rcptTo ++ [addr]⟩ := by
  cases h with
  | dataAccepted | rset => exact Or.inr (Or.inl rfl)
  | mailAccepted addr hv hl ha hw =>
      exact Or.inr (Or.inr (Or.inl ⟨addr, hv, ha, List.mem_singleton.mpr rfl, rfl⟩))
  | rcptAccepted addr hv hl hm ha =>
      exact Or.inr (Or.inr (Or.inr ⟨addr, hv, ha, List.mem_singleton.mpr rfl, rfl⟩))
  | _ => exact Or.inl rfl

/-- An RSET that is answered 250 leaves no recipients. -/
theorem Turn.rset_rcptTo {r : Reaction} (h : Turn env cfg stamp line rest s r)
    (hv : verb? s line = some .rset) (hok : reply "250 OK" ∈ r.events) :
    r.session.rcptTo = [] := by
  have other : ∀ {v : Verb}, verb? s line = some v → v ≠ .rset → False :=
    fun h hne => hne (Option.some.inj (h.symm.trans hv))
  cases h with
  | rset => rfl
  | refused text ht =>
      obtain rfl := reply_injective (List.mem_singleton.mp hok)
      exact absurd ht (by decide)
  | promptPlain hp => exact (other hp.1 (by decide)).elim
  | promptLogin hp => exact (other hp.1 (by decide)).elim
  | promptPassword => exact absurd (reply_injective (List.mem_singleton.mp hok)) (by decide)
  | authenticated => exact absurd (reply_injective (List.mem_singleton.mp hok)) (by decide)
  | ehlo hv' | starttls hv' | noop hv' | quit hv' => exact (other hv' (by decide)).elim
  | mailAccepted _ hv' | rcptAccepted _ hv' => exact (other hv' (by decide)).elim
  | dataFailed hv' => exact (other hv' (by decide)).elim
  | dataAccepted _ _ hv' => exact (other hv' (by decide)).elim
  | panicked => exact absurd hok List.not_mem_nil

/-- A message that is queued leaves no recipients. -/
theorem Turn.queued_rcptTo {r : Reaction} (h : Turn env cfg stamp line rest s r)
    (hok : reply "250 OK: queued" ∈ r.events) : r.session.rcptTo = [] := by
  rcases h.says_or_data with ⟨lines, hev, hno⟩ | ⟨-, ⟨-, rfl⟩ | ⟨bytes, rest', -, rfl⟩⟩
  · rw [hev] at hok
    exact absurd (by decide) (hno _ (reply_mem_map.mp hok))
  · exact absurd (reply_injective (List.mem_singleton.mp hok)) (by decide)
  · rfl

/-- A MAIL FROM that is not accepted leaves the envelope as it is. -/
theorem Turn.mail_rejected {r : Reaction} (h : Turn env cfg stamp line rest s r)
    (hv : verb? s line = some .mailFrom) (hno : reply "250 OK" ∉ r.events) :
    r.session.envelope = s.envelope := by
  have other : ∀ {v : Verb}, verb? s line = some v → v ≠ .mailFrom → False :=
    fun h hne => hne (Option.some.inj (h.symm.trans hv))
  cases h with
  | mailAccepted => exact absurd (List.mem_singleton.mpr rfl) hno
  | rcptAccepted _ hv' => exact (other hv' (by decide)).elim
  | dataAccepted _ _ hv' => exact (other hv' (by decide)).elim
  | rset hv' => exact (other hv' (by decide)).elim
  | _ => rfl

/-- A panic writes nothing. -/
theorem Turn.panic_inv {r : Reaction} (h : Turn env cfg stamp line rest s r)
    (hr : r.result = .error .panic) : r = ⟨SmtpSession.panicked s, rest⟩ := by
  cases h with
  | panicked => rfl
  | _ => exact absurd hr (by simp [SmtpSession.ehlo])

/-- Only STARTTLS on a plaintext session, outside an AUTH exchange, asks for an
    upgrade. -/
theorem Turn.startTls_inv {r : Reaction} (h : Turn env cfg stamp line rest s r)
    (hr : r.result = .ok .startTls) :
    verb? s line = some .starttls ∧ cfg.tlsAcceptor = true ∧ s.tlsActive = false
      ∧ r = ⟨{ say s ["220 Ready to start TLS"] with result := .ok .startTls }, rest⟩ := by
  cases h with
  | starttls hv ht ha => exact ⟨hv, ht, ha, rfl⟩
  | _ => exact absurd hr (by simp [SmtpSession.ehlo, SmtpSession.panicked])

end

end SmtpTurn
