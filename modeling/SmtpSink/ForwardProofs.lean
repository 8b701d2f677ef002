import SmtpSink.RecordProofs

/-! # Forwarding — the message made of a record

    `forwardEmail` builds the outgoing message of a record: its sender, its
    recipients, its subject, its date and its bodies, with the overrides of the
    configuration.  What mail addresses and dates look like as texts is decided
    outside the repository and is a parameter (`Reading`).

    * `forwardEmail_panics_iff` — the attempt of a record does not return where the
      record's date can be read and cannot stand in a header, such as one before
      1970.
    * `preserves_iff` — of the content of a record its bodies are carried over and
      its attachments are not, so the message is the mail that was received just
      where there are none. -/

namespace SmtpForward

open Utf8 SmtpRecord

/-- `ForwardConfig`, as far as the message depends on it. -/
structure ForwardConfig where
  toOverride : Option Text
  fromOverride : Option Text

/-- How texts are read as mailboxes and as RFC 3339 instants. -/
structure Reading (Mailbox Instant : Type) where
  mailbox : Text → Option Mailbox
  instant : Text → Option Instant
  /-- the instant can stand in a `Date` header: it is not before 1970, nor after 9999 -/
  datable : Instant → Bool

/-- The body of an outgoing message. -/
inductive Body where
  | alternative (text html : Text)
  | html (html : Text)
  | text (text : Text)
  | empty
  deriving DecidableEq

structure Outgoing (Mailbox Instant : Type) where
  sender : Mailbox
  subject : Text
  recipients : List Mailbox
  /-- absent when the record's date cannot be read -/
  date : Option Instant
  body : Body

/-- The recipients of the message: the override, or those of the record. -/
def recipients (cfg : ForwardConfig) (email : MailRecord) : List Text :=
  match cfg.toOverride with
  | none => email.toAddrs
  | some overrideTo => [overrideTo]

/-- The bodies of a record, in the shape the message gives them. -/
def bodyOf (email : MailRecord) : Body :=
  match email.html, email.text with
  | some html, some text => .alternative text html
  | some html, none => .html html
  | none, some text => .text text
  | none, none => .empty

variable {Mailbox Instant : Type}

/-- The recipients as mailboxes, up to the first that is not one. -/
def toMailboxes (reading : Reading Mailbox Instant) :
    List Text → Except Text (List Mailbox)
  | [] => .ok []
  | recipient :: more =>
      match reading.mailbox recipient with
      | none => .error ("Invalid recipient: ".toList ++ recipient)
      | some mailbox =>
          match toMailboxes reading more with
          | .error e => .error e
          | .ok mailboxes => .ok (mailbox :: mailboxes)

/-- How `forward_email` ends where it makes no message. -/
inductive Failure where
  | error (text : Text)
  /-- `builder.date` panics -/
  | panic

/-- `forward_email`, up to the transport. -/
def forwardEmail (reading : Reading Mailbox Instant) (cfg : ForwardConfig)
    (email : MailRecord) : Except Failure (Outgoing Mailbox Instant) :=
  match reading.mailbox (cfg.fromOverride.getD email.fromAddr) with
  | none => .error (.error ("Invalid from address: ".toList ++ email.fromAddr))
  | some sender =>
      if (recipients cfg email).isEmpty then .error (.error "No recipients".toList)
      else
        match toMailboxes reading (recipients cfg email) with
        | .error e => .error (.error e)
        | .ok mailboxes =>
            if (reading.instant email.date).any (fun t => !reading.datable t) then .error .panic
            else
              .ok
                { sender := sender
                  subject := email.subject.getD "(no subject)".toList
                  recipients := mailboxes
                  date := reading.instant email.date
                  body := bodyOf email }

/-- The attempt to forward a record panics. -/
def panics (reading : Reading Mailbox Instant) (cfg : ForwardConfig) (email : MailRecord) :
    Bool :=
  match forwardEmail reading cfg email with
  | .error .panic => true
  | .error (.error _) | .ok _ => false

theorem toMailboxes_eq_ok {reading : Reading Mailbox Instant} :
    ∀ {l : List Text} {mailboxes : List Mailbox},
      toMailboxes reading l = .ok mailboxes ↔ l.map reading.mailbox = mailboxes.map some := by
  intro l
  induction l with
  | nil =>
      intro mailboxes
      constructor
      · rintro h
        cases h
        rfl
      · intro h
        rw [List.map_eq_nil_iff.mp h.symm]
        rfl
  | cons a l ih =>
      intro mailboxes
      rw [toMailboxes, List.map_cons]
      cases ha : reading.mailbox a with
      | none =>
          constructor
          · intro h; exact nomatch h
          · intro h
            cases mailboxes with
            | nil => exact nomatch h
            | cons b bs => exact nomatch (List.cons.inj h).1
      | some mailbox =>
          dsimp only
          constructor
          · intro h
            cases hl : toMailboxes reading l with
            | error e =>
                rw [hl] at h
                exact nomatch h
            | ok bs =>
                rw [hl] at h
                cases h
                rw [ih.mp hl]
                rfl
          · intro h
            cases mailboxes with
            | nil => exact nomatch h
            | cons b bs =>
                obtain ⟨hb, hbs⟩ := List.cons.inj h
                cases hb
                rw [ih.mpr hbs]

theorem toMailboxes_eq_error {reading : Reading Mailbox Instant} {l : List Text} {e : Text}
    (h : toMailboxes reading l = .error e) : ∃ a, e = "Invalid recipient: ".toList ++ a := by
  induction l with
  | nil => cases h
  | cons a l ih =>
      rw [toMailboxes] at h
      cases ha : reading.mailbox a with
      | none =>
          rw [ha] at h
          exact ⟨a, (Except.error.inj h).symm⟩
      | some mailbox =>
          rw [ha] at h
          dsimp only at h
          cases hl : toMailboxes reading l with
          | error e' =>
              rw [hl] at h
              exact ih (hl.trans h)
          | ok mailboxes =>
              rw [hl] at h
              cases h

/-- Mailboxes are all read. -/
theorem toMailboxes_ne_error {reading : Reading Mailbox Instant} {l : List Text} {e : Text}
    (h : ∀ a ∈ l, reading.mailbox a ≠ none) : toMailboxes reading l ≠ .error e := by
  induction l with
  | nil => exact fun he => nomatch he
  | cons a l ih =>
      rw [toMailboxes]
      cases ha : reading.mailbox a with
      | none => exact absurd ha (h a List.mem_cons_self)
      | some mailbox =>
          dsimp only
          cases hl : toMailboxes reading l with
          | error e' =>
              intro he
              obtain rfl := Except.error.inj he
              exact ih (fun b hb => h b (List.mem_cons_of_mem _ hb)) hl
          | ok mailboxes => exact fun he => nomatch he

/-- The ways `forward_email` goes. -/
inductive Goes (reading : Reading Mailbox Instant) (cfg : ForwardConfig) (email : MailRecord) :
    Except Failure (Outgoing Mailbox Instant) → Prop where
  | noSender : reading.mailbox (cfg.fromOverride.getD email.fromAddr) = none →
      Goes reading cfg email (.error (.error ("Invalid from address: ".toList ++ email.fromAddr)))
  | noRecipients : recipients cfg email = [] →
      Goes reading cfg email (.error (.error "No recipients".toList))
  | noRecipient (e : Text) : toMailboxes reading (recipients cfg email) = .error e →
      Goes reading cfg email (.error (.error e))
  | noDate (sender : Mailbox) (mailboxes : List Mailbox) (t : Instant) :
      reading.mailbox (cfg.fromOverride.getD email.fromAddr) = some sender →
      recipients cfg email ≠ [] →
      (recipients cfg email).map reading.mailbox = mailboxes.map some →
      reading.instant email.date = some t → reading.datable t = false →
      Goes reading cfg email (.error .panic)
  | message (sender : Mailbox) (mailboxes : List Mailbox) :
      reading.mailbox (cfg.fromOverride.getD email.fromAddr) = some sender →
      recipients cfg email ≠ [] →
      (recipients cfg email).map reading.mailbox = mailboxes.map some →
      (∀ t, reading.instant email.date = some t → reading.datable t = true) →
      Goes reading cfg email (.ok ⟨sender, email.subject.getD "(no subject)".toList, mailboxes,
        reading.instant email.date, bodyOf email⟩)

theorem forwardEmail_goes (reading : Reading Mailbox Instant) (cfg : ForwardConfig)
    (email : MailRecord) : Goes reading cfg email (forwardEmail reading cfg email) := by
  rw [forwardEmail]
  cases hs : reading.mailbox (cfg.fromOverride.getD email.fromAddr) with
  | none => exact .noSender hs
  | some sender =>
      dsimp only
      by_cases hr : (recipients cfg email).isEmpty = true
      · rw [if_pos hr]
        exact .noRecipients (List.isEmpty_iff.mp hr)
      · have hne : recipients cfg email ≠ [] := fun hnil => hr (by rw [hnil]; rfl)
        rw [if_neg hr]
        cases hm : toMailboxes reading (recipients cfg email) with
        | error e => exact .noRecipient e hm
        | ok mailboxes =>
            have hread := toMailboxes_eq_ok.mp hm
            dsimp only
            by_cases hd : (reading.instant email.date).any (fun t => !reading.datable t) = true
            · rw [if_pos hd]
              obtain ⟨t, ht, hbad⟩ := (Option.any_eq_true _ _).mp hd
              exact .noDate sender mailboxes t hs hne hread ht (by simpa using hbad)
            · rw [if_neg hd]
              refine .message sender mailboxes hs hne hread (fun t ht => ?_)
              rw [ht] at hd
              simpa using hd

/-- What is built, and when. -/
theorem forwardEmail_eq_ok {reading : Reading Mailbox Instant} {cfg : ForwardConfig}
    {email : MailRecord} {message : Outgoing Mailbox Instant}
    (h : forwardEmail reading cfg email = .ok message) :
    reading.mailbox (cfg.fromOverride.getD email.fromAddr) = some message.sender
      ∧ (recipients cfg email).map reading.mailbox = message.recipients.map some
      ∧ message.subject = email.subject.getD "(no subject)".toList
      ∧ message.body = bodyOf email := by
  have hgoes := forwardEmail_goes reading cfg email
  rw [h] at hgoes
  cases hgoes with
  | message sender mailboxes hs _ hread => exact ⟨hs, hread, rfl, rfl⟩

/-- **Where an attempt panics**: a message could be built but for its date. -/
theorem forwardEmail_panics_iff {reading : Reading Mailbox Instant} {cfg : ForwardConfig}
    {email : MailRecord} : panics reading cfg email = true
      ↔ reading.mailbox (cfg.fromOverride.getD email.fromAddr) ≠ none
        ∧ recipients cfg email ≠ [] ∧ (∀ a ∈ recipients cfg email, reading.mailbox a ≠ none)
        ∧ ∃ t, reading.instant email.date = some t ∧ reading.datable t = false := by
  have hgoes := forwardEmail_goes reading cfg email
  rw [panics]
  constructor
  · intro h
    generalize forwardEmail reading cfg email = outcome at hgoes h
    cases hgoes with
    | noDate sender mailboxes t hs hne hread ht hbad =>
        refine ⟨by rw [hs]; exact Option.some_ne_none sender, hne, fun a ha => ?_, t, ht, hbad⟩
        have hmem := List.mem_map_of_mem (f := reading.mailbox) ha
        rw [hread] at hmem
        obtain ⟨mailbox, -, hmailbox⟩ := List.mem_map.mp hmem
        rw [← hmailbox]
        exact Option.some_ne_none mailbox
    | noSender | noRecipients | noRecipient | message => cases h
  · rintro ⟨hs, hne, hall, t, ht, hbad⟩
    generalize forwardEmail reading cfg email = outcome at hgoes
    cases hgoes with
    | noDate => rfl
    | noSender hnone => exact absurd hnone hs
    | noRecipients hnil => exact absurd hnil hne
    | noRecipient e he => exact absurd he (toMailboxes_ne_error hall)
    | message sender mailboxes _ _ _ hgood =>
        rw [hgood t ht] at hbad
        cases hbad

/-- The failure for want of recipients is told from the others by its text. -/
theorem forwardEmail_no_recipients {reading : Reading Mailbox Instant} {cfg : ForwardConfig}
    {email : MailRecord}
    (h : forwardEmail reading cfg email = .error (.error "No recipients".toList)) :
    cfg.toOverride = none ∧ email.toAddrs = [] := by
  have hgoes := forwardEmail_goes reading cfg email
  rw [h] at hgoes
  generalize htext : "No recipients".toList = text at hgoes
  have hnil : recipients cfg email = [] := by
    cases hgoes with
    | noSender => exact absurd htext (by simp)
    | noRecipients hnil => exact hnil
    | noRecipient e he =>
        obtain ⟨a, rfl⟩ := toMailboxes_eq_error he
        exact absurd htext (by simp)
  rw [recipients] at hnil
  cases hto : cfg.toOverride with
  | none => rw [hto] at hnil; exact ⟨rfl, hnil⟩
  | some overrideTo => rw [hto] at hnil; cases hnil

/-! ## The content of the message -/

/-- A leaf of the MIME structure of a message. -/
structure MimePart where
  /-- the name of an attachment; a body part has none -/
  filename : Option Text
  /-- absent where no content type is set -/
  contentType : Option Text
  data : Bytes
  deriving DecidableEq

/-- `ContentType::TEXT_PLAIN`. -/
def textPlain : Text := "text/plain; charset=utf-8".toList

/-- `ContentType::TEXT_HTML`. -/
def textHtml : Text := "text/html; charset=utf-8".toList

/-- The parts the builder is given, in order. -/
def Body.parts : Body → List MimePart
  | .alternative t h => [⟨none, some textPlain, encode t⟩, ⟨none, some textHtml, encode h⟩]
  | .html h => [⟨none, some textHtml, encode h⟩]
  | .text t => [⟨none, some textPlain, encode t⟩]
  | .empty => [⟨none, none, []⟩]

/-- The body part of a content type. -/
def bodyPart? (contentType : Text) (parts : List MimePart) : Option Bytes :=
  (parts.find? (fun part =>
    decide (part.filename = none ∧ part.contentType = some contentType))).map MimePart.data

/-- The parts that are attachments. -/
def attached (parts : List MimePart) : List MimePart :=
  parts.filter (fun part => part.filename.isSome)

/-- An attachment of a record as a part of a message. -/
def attachmentPart (a : Attachment) : MimePart :=
  ⟨some a.filename, some a.contentType, a.data⟩

/-- The message is the mail of the record: its sender and its recipients with
    the overrides, its subject, its bodies and its attachments. -/
structure Preserves (reading : Reading Mailbox Instant) (cfg : ForwardConfig)
    (email : MailRecord) (message : Outgoing Mailbox Instant) : Prop where
  sender : reading.mailbox (cfg.fromOverride.getD email.fromAddr) = some message.sender
  recipients : (recipients cfg email).map reading.mailbox = message.recipients.map some
  subject : ∀ s, email.subject = some s → message.subject = s
  text : bodyPart? textPlain message.body.parts = email.text.map encode
  html : bodyPart? textHtml message.body.parts = email.html.map encode
  attachments : attached message.body.parts = email.attachments.map attachmentPart

/-- The bodies of a record are carried over. -/
theorem bodyPart?_bodyOf (email : MailRecord) :
    bodyPart? textPlain (bodyOf email).parts = email.text.map encode
      ∧ bodyPart? textHtml (bodyOf email).parts = email.html.map encode := by
  have hne : textHtml ≠ textPlain := by decide
  rw [bodyOf]
  cases email.html with
  | none =>
      cases email.text with
      | none => simp [Body.parts, bodyPart?]
      | some text => simp [Body.parts, bodyPart?, hne.symm]
  | some html =>
      cases email.text with
      | none => simp [Body.parts, bodyPart?, hne]
      | some text => simp [Body.parts, bodyPart?, hne.symm]

/-- No part of the message is an attachment. -/
theorem attached_bodyOf (email : MailRecord) : attached (bodyOf email).parts = [] := by
  rw [bodyOf]
  cases email.html with
  | none => cases email.text <;> rfl
  | some html => cases email.text <;> rfl

/-- **The message is the mail of the record exactly when the record has no
    attachments.** -/
theorem preserves_iff {reading : Reading Mailbox Instant} {cfg : ForwardConfig}
    {email : MailRecord} {message : Outgoing Mailbox Instant}
    (h : forwardEmail reading cfg email = .ok message) :
    Preserves reading cfg email message ↔ email.attachments = [] := by
  obtain ⟨hsender, hrecipients, hsubject, hbody⟩ := forwardEmail_eq_ok h
  have hnone : attached message.body.parts = [] := by rw [hbody, attached_bodyOf]
  obtain ⟨htext, hhtml⟩ := bodyPart?_bodyOf email
  rw [← hbody] at htext hhtml
  constructor
  · intro hp
    -- attachments that are to be kept are among none
    have hmap := hp.attachments
    rw [hnone] at hmap
    exact List.map_eq_nil_iff.mp hmap.symm
  · intro hnil
    refine ⟨hsender, hrecipients, fun s hs => ?_, htext, hhtml, ?_⟩
    · rw [hsubject, hs, Option.getD_some]
    · rw [hnone, hnil, List.map_nil]

/-- A mailbox of the form `user@domain`. -/
def simpleMailbox (t : Text) : Option (Text × Text) :=
  let user := t.takeWhile (· != '@')
  let domain := (t.dropWhile (· != '@')).drop 1
  let plain := fun c : Char => c.isAlphanum || c == '.'
  if !user.isEmpty && !domain.isEmpty && user.all plain && domain.all plain then
    some (user, domain)
  else none

/-- The first of January 1960. -/
def oldDate : Text := "1960-01-01T00:00:00+00:00".toList

/-- Simple mailboxes, and one date. -/
def sampleReading : Reading (Text × Text) Int where
  mailbox := simpleMailbox
  instant := fun t => if t = oldDate then some (-315619200) else none
  datable := fun t => decide (0 ≤ t ∧ t < 253402300800)

/-- A record with the given date and attachments. -/
def sampleEmail (date : Text) (attachments : List Attachment) : MailRecord :=
  ⟨['1'], ["b@y.test".toList], "a@x.test".toList, none, some ['t'], none, date, ∅, attachments, []⟩

/-- The message made of it. -/
def sampleOutgoing : Outgoing (Text × Text) Int :=
  ⟨(['a'], "x.test".toList), "(no subject)".toList, [(['b'], "y.test".toList)], none, .text ['t']⟩

example : panics sampleReading ⟨none, none⟩ (sampleEmail oldDate []) = true := by decide +kernel

theorem preserves_sampleEmail :
    Preserves sampleReading ⟨none, none⟩ (sampleEmail [] []) sampleOutgoing := by
  have hmessage : forwardEmail sampleReading ⟨none, none⟩ (sampleEmail [] [])
      = .ok sampleOutgoing := rfl
  exact (preserves_iff hmessage).mpr rfl

/-- The one attachment of a mail is not forwarded. -/
theorem attachment_dropped :
    let email := sampleEmail [] [⟨"a.pdf".toList, "application/pdf".toList, 1, none, [0]⟩]
    forwardEmail sampleReading ⟨none, none⟩ email = .ok sampleOutgoing
      ∧ attached sampleOutgoing.body.parts = []
      ∧ ¬ Preserves sampleReading ⟨none, none⟩ email sampleOutgoing :=
  ⟨rfl, rfl, fun h => nomatch h.attachments⟩

end SmtpForward
