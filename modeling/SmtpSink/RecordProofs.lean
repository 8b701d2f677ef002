import Mathlib.Data.List.AList
import SmtpSink.UnicodeProofs

/-! # Mail records — what a received message is stored as

    `MailRecord` and `Attachment` are the records of the store; `Message` is
    what the MIME parser tells about the bytes of a message, through the
    accessors the server calls.  `parseEmail` combines a parsed message with
    the envelope of the session.

    The recipients of a record are those of the `To` header when it names any
    address and the envelope's otherwise (`toAddrs_parseEmail`). -/

namespace SmtpRecord

open Utf8 Unicode

/-! ## Records -/

structure Attachment where
  filename : Text
  contentType : Text
  size : Nat
  contentId : Option Text
  data : Bytes

structure MailRecord where
  id : Text
  toAddrs : List Text
  fromAddr : Text
  subject : Option Text
  text : Option Text
  html : Option Text
  date : Text
  headers : AList (fun _ : Text => Text)
  attachments : List Attachment
  raw : Bytes

/-! ## Parsed messages -/

/-- One entry of an address header. -/
structure Addr where
  name : Option Text
  address : Option Text

/-- One attachment part of a message. -/
structure Part where
  attachmentName : Option Text
  contentType : Option (Text × Option Text)
  contentId : Option Text
  contents : Bytes

/-- What the MIME parser found in a message. -/
structure Message where
  fromHeader : Option (List Addr)
  toHeader : Option (List Addr)
  subject : Option Text
  bodyText : Option Text
  bodyHtml : Option Text
  /-- the `Date` header as a Unix timestamp -/
  date : Option Int
  /-- header names with their values, where these are text -/
  headers : List (Text × Option Text)
  attachments : List Part

/-- What the code outside this repository computes: base64 decoding, MIME
    parsing, and the RFC 3339 text of a Unix timestamp (`none` when it is out
    of range). -/
structure Env where
  base64Decode : Text → Option Bytes
  parse : Bytes → Option Message
  rfc3339 : Int → Option Text

/-- What one call of `parse_email` draws from the clock and the generator of
    UUIDs. -/
structure Stamp where
  millis : Int
  uuid : Text
  now : Text
  partUuid : Nat → Text

/-- The envelope of a transaction. -/
structure Envelope where
  mailFrom : Option Text
  rcptTo : List Text
  deriving DecidableEq

/-! ## `parse_email` -/

/-- The id of a record: a timestamp and a UUID. -/
def recordId (stamp : Stamp) : Text :=
  (toString stamp.millis).toList ++ '-' :: stamp.uuid

/-- The sender of the envelope, if there is one. -/
def envelopeSender (e : Envelope) : Text := e.mailFrom.getD "unknown".toList

/-- An address as text, with its display name if it has one. -/
def Addr.display (a : Addr) : Text :=
  match a.name with
  | none => a.address.getD []
  | some name => name ++ " <".toList ++ a.address.getD [] ++ ">".toList

/-- The addresses a message's `To` header names. -/
def Message.toAddresses (msg : Message) : List Text :=
  (msg.toHeader.getD []).filterMap Addr.address

/-- The sender of the record: the first `From` entry, or the envelope's. -/
def recordFrom (msg : Message) (e : Envelope) : Text :=
  match msg.fromHeader.bind List.head? with
  | some a => a.display
  | none => envelopeSender e

/-- The recipients of the record: those of the `To` header, unless there are
    none, in which case those of the envelope. -/
def recordTo (msg : Message) (e : Envelope) : List Text :=
  match (msg.toHeader.map (fun l => l.filterMap Addr.address)).filter
      (fun v => !v.isEmpty) with
  | some v => v
  | none => e.rcptTo

/-- The date of the record: the `Date` header's instant, or the clock's. -/
def recordDate (env : Env) (stamp : Stamp) (msg : Message) : Text :=
  match msg.date with
  | none => stamp.now
  | some t => (env.rfc3339 t).getD stamp.now

/-- The text headers by lowercased name; of two with one name the later stays. -/
def recordHeaders (hs : List (Text × Option Text)) : AList (fun _ : Text => Text) :=
  hs.foldl (fun m h =>
    match h.2 with
    | some value => m.insert (toLowercase h.1) value
    | none => m) ∅

/-- The attachment made of a message's `i`-th attachment part. -/
def attachmentOf (stamp : Stamp) (part : Part) (i : Nat) : Attachment where
  filename := part.attachmentName.getD ("attachment_".toList ++ stamp.partUuid i)
  contentType :=
    match part.contentType with
    | none => "application/octet-stream".toList
    | some (ctype, none) => ctype
    | some (ctype, some subtype) => ctype ++ '/' :: subtype
  size := part.contents.length
  contentId := part.contentId.map (trimMatches (fun c => c == '<' || c == '>'))
  data := part.contents

/-- `parse_email`: the record of a message received under an envelope. -/
def parseEmail (env : Env) (stamp : Stamp) (data : Bytes) (e : Envelope) : MailRecord :=
  match env.parse data with
  | none =>
      { id := recordId stamp
        toAddrs := e.rcptTo
        fromAddr := envelopeSender e
        subject := none
        text := none
        html := none
        date := stamp.now
        headers := ∅
        attachments := []
        raw := data }
  | some msg =>
      { id := recordId stamp
        toAddrs := recordTo msg e
        fromAddr := recordFrom msg e
        subject := msg.subject
        text := msg.bodyText
        html := msg.bodyHtml
        date := recordDate env stamp msg
        headers := recordHeaders msg.headers
        attachments := msg.attachments.zipIdx.map (fun p => attachmentOf stamp p.1 p.2)
        raw := data }

/-- The addresses the `To` header of a byte string names; none when it does
    not parse as a message. -/
def headerRecipients (env : Env) (data : Bytes) : List Text :=
  match env.parse data with
  | none => []
  | some msg => msg.toAddresses

/-- The recipients of a record: the header's if there are any, else the
    envelope's. -/
theorem toAddrs_parseEmail (env : Env) (stamp : Stamp) (data : Bytes) (e : Envelope) :
    (parseEmail env stamp data e).toAddrs
      = if headerRecipients env data = [] then e.rcptTo
        else headerRecipients env data := by
  rw [parseEmail, headerRecipients]
  cases hp : env.parse data with
  | none => rfl
  | some msg =>
      show recordTo msg e
        = if msg.toAddresses = [] then e.rcptTo else msg.toAddresses
      rw [recordTo, Message.toAddresses]
      cases msg.toHeader with
      | none => rfl
      | some l =>
          show (match (some (l.filterMap Addr.address)).filter (fun v => !v.isEmpty) with
              | some v => v
              | none => e.rcptTo)
            = if l.filterMap Addr.address = [] then e.rcptTo else l.filterMap Addr.address
          cases hl : l.filterMap Addr.address with
          | nil => rfl
          | cons a as => rfl

/-- The entry of the `From` header a record takes its sender from. -/
def headerSender (env : Env) (data : Bytes) : Option Addr :=
  (env.parse data).bind (fun msg => msg.fromHeader.bind List.head?)

/-- The sender of a record: the header's if there is one, else the envelope's. -/
theorem fromAddr_parseEmail (env : Env) (stamp : Stamp) (data : Bytes) (e : Envelope) :
    (parseEmail env stamp data e).fromAddr
      = ((headerSender env data).map Addr.display).getD (envelopeSender e) := by
  rw [parseEmail, headerSender]
  cases env.parse data with
  | none => rfl
  | some msg =>
      show recordFrom msg e = ((msg.fromHeader.bind List.head?).map Addr.display).getD _
      rw [recordFrom]
      cases msg.fromHeader.bind List.head? <;> rfl

@[simp] theorem raw_parseEmail (env : Env) (stamp : Stamp) (data : Bytes) (e : Envelope) :
    (parseEmail env stamp data e).raw = data := by
  rw [parseEmail]
  cases env.parse data <;> rfl

/-! ## Sample inputs

    What the outside code gives on the inputs of the sample runs of later
    files: the base64 text of `NUL u NUL p`, and a message with one `To` address
    and a text body, from which the parser also derives an HTML body. -/

/-- The bytes of the sample message. -/
def sampleData : Bytes := encode "To: <v@d>\r\n\r\nhi\r\n".toList

def sampleMessage : Message where
  fromHeader := none
  toHeader := some [⟨none, some "v@d".toList⟩]
  subject := none
  bodyText := some "hi\r\n".toList
  bodyHtml := some "<html><body>hi<br/></body></html>".toList
  date := none
  headers := [("To".toList, none)]
  attachments := []

def sampleEnv : Env where
  base64Decode := fun t => if t = "AHUAcA==".toList then some [0, 117, 0, 112] else none
  parse := fun data => if data = sampleData then some sampleMessage else none
  rfc3339 := fun _ => none

def sampleStamp : Stamp where
  millis := 1700000000000
  uuid := "67e5504410b1426f9247bb680e5fe0c8".toList
  now := "2023-11-14T22:13:20+00:00".toList
  partUuid := fun _ => "67e5504410b1426f9247bb680e5fe0c8".toList

end SmtpRecord
