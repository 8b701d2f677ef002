import SmtpSink.AttachmentProofs
import SmtpSink.QuotedStringProofs

/-! # Content-Disposition — the name a download is saved under

    A download is answered with the content of an attachment, its type and a
    disposition that has the name of the attachment between quotes.  The name is
    put there as it is, whatever the message called it; and a header value with a
    character that cannot be sent makes the answer a server error.

    * `served_iff` — all attachments of an email are answered with their content
      and type exactly where these and the names can be sent, and names are
      unambiguous.
    * `faithful_iff` — a download is faithful exactly for a name that can be sent
      and has neither a quote nor a backslash, where the first attachment of that
      name has the content.  A name with a quote is cut off at it
      (`quoted_name`). -/

namespace Disposition

open Utf8 SmtpRecord EmailStore Attachments QuotedString
open SqliteStore (Json Database sampleJson)

/-! ## The handler -/

/-- What a handler answers. -/
inductive Answer where
  /-- status 200 -/
  | ok (headers : List (String × Text)) (body : Bytes)
  /-- status 404 -/
  | notFound (body : String)
  /-- status 500 -/
  | serverError

/-- An answer with status 200 where every header value can be sent. -/
def respond (sendable : Char → Bool) (headers : List (String × Text)) (body : Bytes) :
    Answer :=
  if headers.all (fun h => h.2.all sendable) then .ok headers body else .serverError

/-- The disposition in front of the name. -/
def dispositionStart : Text := "attachment; filename=\"".toList

/-- The disposition of an attachment with a name. -/
def disposition (filename : Text) : Text := dispositionStart ++ filename ++ ['"']

/-- The headers of a download. -/
def downloadHeaders (att : Attachment) : List (String × Text) :=
  [("content-type", att.contentType), ("content-disposition", disposition att.filename)]

/-- `get_attachment`, given how the store looks an attachment up. -/
def getAttachment (sendable : Char → Bool) (lookup : Text → Text → Option Attachment)
    (id filename : Text) : Answer :=
  match lookup id filename with
  | some att => respond sendable (downloadHeaders att) att.data
  | none => .notFound "Attachment not found"

/-! ## Reading the answer -/

/-- The filename of a disposition, read as a quoted string, and what follows it. -/
def filenameOf (value : Text) : Option (Text × Text) :=
  if dispositionStart.isPrefixOf value then
    read '"' '\\' false (value.drop dispositionStart.length)
  else none

/-- The answer is the content of the attachment under its own name, without
    further parameters. -/
def Faithful (answer : Answer) (a : Attachment) : Prop :=
  ∃ headers value, answer = .ok headers a.data
    ∧ headers.lookup "content-disposition" = some value
    ∧ filenameOf value = some (a.filename, [])

/-- The answer is the content of the attachment, under its type. -/
def Delivers (answer : Answer) (a : Attachment) : Prop :=
  ∃ headers, answer = .ok headers a.data
    ∧ headers.lookup "content-type" = some a.contentType

/-- Types and names can be sent. -/
def AllSendable (sendable : Char → Bool) (attachments : List Attachment) : Prop :=
  ∀ a ∈ attachments,
    (∀ c ∈ a.contentType, sendable c = true) ∧ ∀ c ∈ a.filename, sendable c = true

/-- Characters of printable ASCII can be sent. -/
def Printable (sendable : Char → Bool) : Prop :=
  ∀ c : Char, 32 ≤ c.toNat → c.toNat < 127 → sendable c = true

/-- The name needs no escaping and can be sent. -/
structure PlainName (sendable : Char → Bool) (filename : Text) : Prop where
  quote : '"' ∉ filename
  backslash : '\\' ∉ filename
  sendable : ∀ c ∈ filename, sendable c = true

/-- The first attachment with the name of `a` has its content, and a type that can
    be sent. -/
def FirstAlike (sendable : Char → Bool) (attachments : List Attachment) (a : Attachment) : Prop :=
  ∃ b, attachments.find? (·.filename == a.filename) = some b ∧ b.data = a.data
    ∧ ∀ c ∈ b.contentType, sendable c = true

section

variable {sendable : Char → Bool} {attachments : List Attachment} {a : Attachment}
  {filename : Text}

/-- **A name between quotes is read back exactly when it needed no escaping.** -/
theorem filenameOf_disposition :
    filenameOf (disposition filename) = some (filename, [])
      ↔ '"' ∉ filename ∧ '\\' ∉ filename := by
  have hpre : dispositionStart.isPrefixOf (disposition filename) = true := by
    rw [disposition, List.append_assoc]
    exact List.isPrefixOf_iff_prefix.mpr (List.prefix_append _ _)
  rw [filenameOf, if_pos hpre, disposition, List.append_assoc, List.drop_left]
  exact read_unescaped_iff

/-- A disposition can be sent exactly when the name can. -/
theorem disposition_sendable (h : Printable sendable) :
    (disposition filename).all sendable = true ↔ ∀ c ∈ filename, sendable c = true := by
  have hascii : ∀ c ∈ dispositionStart ++ ['"'], 32 ≤ c.toNat ∧ c.toNat < 127 := by decide
  have hstart : ∀ c ∈ dispositionStart ++ ['"'], sendable c = true :=
    fun c hc => h c (hascii c hc).1 (hascii c hc).2
  rw [List.all_eq_true, disposition]
  refine ⟨fun hall c hc => hall c ?_, fun hname c hc => ?_⟩
  · exact List.mem_append_left _ (List.mem_append_right _ hc)
  · rcases List.mem_append.mp hc with hc | hc
    · rcases List.mem_append.mp hc with hc | hc
      · exact hstart c (List.mem_append_left _ hc)
      · exact hname c hc
    · exact hstart c (List.mem_append_right _ hc)

theorem lookup_downloadHeaders (att : Attachment) :
    (downloadHeaders att).lookup "content-disposition" = some (disposition att.filename) := rfl

/-- The headers of a download can be sent exactly when its type and name can. -/
theorem downloadHeaders_sendable (h : Printable sendable) (att : Attachment) :
    (downloadHeaders att).all (fun p => p.2.all sendable) = true
      ↔ (∀ c ∈ att.contentType, sendable c = true) ∧ ∀ c ∈ att.filename, sendable c = true := by
  rw [downloadHeaders, List.all_cons, List.all_cons, List.all_nil, Bool.and_true,
    Bool.and_eq_true, disposition_sendable h, List.all_eq_true]

/-- **What a lookup is answered with**: the content of the attachment it finds, where
    the headers can be sent. -/
theorem getAttachment_ok_iff (h : Printable sendable)
    {lookup : Text → Text → Option Attachment} {id : Text}
    (hl : lookup id filename = attachments.find? (·.filename == filename))
    {headers : List (String × Text)} {data : Bytes} :
    getAttachment sendable lookup id filename = .ok headers data
      ↔ ∃ b, attachments.find? (·.filename == filename) = some b ∧ b.filename = filename
        ∧ (∀ c ∈ b.contentType, sendable c = true) ∧ (∀ c ∈ filename, sendable c = true)
        ∧ headers = downloadHeaders b ∧ data = b.data := by
  rw [getAttachment, hl]
  cases hfind : attachments.find? (·.filename == filename) with
  | none =>
      refine iff_of_false (fun hok => nomatch hok) ?_
      rintro ⟨b, hb, -⟩
      cases hb
  | some b =>
      have hpass := List.find?_some hfind
      obtain rfl : b.filename = filename := beq_iff_eq.mp hpass
      dsimp only
      rw [respond]
      constructor
      · intro hok
        split_ifs at hok with hsend
        obtain ⟨rfl, rfl⟩ := Answer.ok.inj hok
        obtain ⟨htype, hname⟩ := (downloadHeaders_sendable h b).mp hsend
        exact ⟨b, rfl, rfl, htype, hname, rfl, rfl⟩
      · rintro ⟨b', hb', -, htype, hname, rfl, rfl⟩
        obtain rfl := Option.some.inj hb'
        rw [if_pos ((downloadHeaders_sendable h b).mpr ⟨htype, hname⟩)]

/-- The answer delivers an attachment where the lookup serves it and it can be
    sent. -/
theorem delivers_first_iff (h : Printable sendable) {lookup : Text → Text → Option Attachment}
    {id : Text}
    (hl : lookup id a.filename = attachments.find? (·.filename == a.filename)) :
    Delivers (getAttachment sendable lookup id a.filename) a
      ↔ Serves (attachments.find? (·.filename == a.filename)) a
        ∧ (∀ c ∈ a.contentType, sendable c = true) ∧ ∀ c ∈ a.filename, sendable c = true := by
  constructor
  · rintro ⟨headers, hok, htype⟩
    obtain ⟨b, hfind, -, hsendable, hname, rfl, hdata⟩ := (getAttachment_ok_iff h hl).mp hok
    have htype : b.contentType = a.contentType := Option.some.inj htype
    exact ⟨⟨b, hfind, hdata.symm, htype⟩, htype ▸ hsendable, hname⟩
  · rintro ⟨⟨b, hfind, hdata, htype⟩, hsendable, hname⟩
    refine ⟨downloadHeaders b, (getAttachment_ok_iff h hl).mpr ?_, congrArg some htype⟩
    have hpass := List.find?_some hfind
    exact ⟨b, hfind, beq_iff_eq.mp hpass, htype.symm ▸ hsendable, hname, rfl, hdata.symm⟩

theorem delivers_all_iff (h : Printable sendable) {lookup : Text → Text → Option Attachment}
    {id : Text}
    (hl : ∀ filename, lookup id filename = attachments.find? (·.filename == filename)) :
    (∀ a ∈ attachments, Delivers (getAttachment sendable lookup id a.filename) a)
      ↔ Unambiguous attachments ∧ AllSendable sendable attachments := by
  rw [← serves_first_iff, AllSendable, ← forall₂_and]
  exact forall₂_congr (fun a _ => delivers_first_iff h (hl a.filename))

/-- **All attachments of an email are delivered** exactly where their names are
    unambiguous and can be sent like their types, by a server on a memory store or
    on a database. -/
theorem served_iff (h : Printable sendable) (id : Text) (e : MailRecord) :
    (∀ s : MemoryStore, s.getById id = some e →
      ((∀ a ∈ e.attachments,
          Delivers (getAttachment sendable s.getAttachment id a.filename) a)
        ↔ Unambiguous e.attachments ∧ AllSendable sendable e.attachments))
    ∧ ∀ (json : Json) (db : Database), SqliteStore.getById json false id db = some e →
      ((∀ a ∈ e.attachments, Delivers (getAttachment sendable
          (fun id filename => SqliteStore.getAttachment false id filename db) id a.filename) a)
        ↔ Unambiguous e.attachments ∧ AllSendable sendable e.attachments) :=
  ⟨fun _ hs => delivers_all_iff h (memory_getAttachment hs),
    fun _ _ hdb => delivers_all_iff h (sqlite_getAttachment hdb)⟩

/-- **When the answer to a lookup is faithful.** -/
theorem faithful_first_iff (h : Printable sendable) {lookup : Text → Text → Option Attachment}
    {id : Text}
    (hl : lookup id a.filename = attachments.find? (·.filename == a.filename)) :
    Faithful (getAttachment sendable lookup id a.filename) a
      ↔ PlainName sendable a.filename ∧ FirstAlike sendable attachments a := by
  constructor
  · rintro ⟨headers, value, hok, hvalue, hread⟩
    obtain ⟨b, hfind, hname, htype, hsendable, rfl, hdata⟩ := (getAttachment_ok_iff h hl).mp hok
    rw [lookup_downloadHeaders, hname] at hvalue
    obtain rfl := Option.some.inj hvalue
    obtain ⟨hquote, hback⟩ := filenameOf_disposition.mp hread
    exact ⟨⟨hquote, hback, hsendable⟩, b, hfind, hdata.symm, htype⟩
  · rintro ⟨hplain, b, hfind, hdata, htype⟩
    have hpass := List.find?_some hfind
    have hname : b.filename = a.filename := beq_iff_eq.mp hpass
    refine ⟨downloadHeaders b, _, (getAttachment_ok_iff h hl).mpr ?_, lookup_downloadHeaders b, ?_⟩
    · exact ⟨b, hfind, hname, htype, hplain.sendable, rfl, hdata.symm⟩
    · rw [hname]
      exact filenameOf_disposition.mpr ⟨hplain.quote, hplain.backslash⟩

/-- Where names are unambiguous, the first attachment of a name will do. -/
theorem firstAlike_of_unambiguous (hu : Unambiguous attachments) (ha : a ∈ attachments)
    (htype : ∀ b ∈ attachments, ∀ c ∈ b.contentType, sendable c = true) :
    FirstAlike sendable attachments a := by
  obtain ⟨b, hb, hdata, -⟩ := (serves_first_iff attachments).mpr hu a ha
  exact ⟨b, hb, hdata, htype b (List.mem_of_find?_eq_some hb)⟩

/-- **A download is faithful exactly for plain names**, for every attachment of an
    email that a memory store or a database has. -/
theorem faithful_iff (h : Printable sendable) (id : Text) {e : MailRecord}
    (a : Attachment) :
    (∀ s : MemoryStore, s.getById id = some e →
      (Faithful (getAttachment sendable s.getAttachment id a.filename) a
        ↔ PlainName sendable a.filename ∧ FirstAlike sendable e.attachments a))
    ∧ ∀ (json : Json) (db : Database),
      SqliteStore.getById json false id db = some e →
      (Faithful (getAttachment sendable
          (fun id filename => SqliteStore.getAttachment false id filename db) id a.filename) a
        ↔ PlainName sendable a.filename ∧ FirstAlike sendable e.attachments a) := by
  refine ⟨fun s hs => ?_, fun json db hdb => ?_⟩
  · exact faithful_first_iff h (memory_getAttachment hs a.filename)
  · exact faithful_first_iff h (sqlite_getAttachment hdb a.filename)

end

/-! ## Sample names -/

/-- A choice of what can be sent: tabs, and everything from the blank on but DEL. -/
def sampleSendable (c : Char) : Bool := 32 ≤ c.toNat && c.toNat != 127 || c == '\t'

theorem sampleSendable_printable : Printable sampleSendable := by
  intro c hlo hhi
  have hdel : c.toNat ≠ 127 := by omega
  simp [sampleSendable, hlo, hdel]

theorem faithful_namedApart :
    (∃ e, (memoryWith namedApart).getById (recordWith namedApart).id = some e
      ∧ ∀ a ∈ e.attachments, Faithful (getAttachment sampleSendable
        (memoryWith namedApart).getAttachment (recordWith namedApart).id a.filename) a)
    ∧ ∃ e, SqliteStore.getById sampleJson false (recordWith namedApart).id
        (databaseWith namedApart) = some e
      ∧ ∀ a ∈ e.attachments, Faithful (getAttachment sampleSendable
        (fun id filename => SqliteStore.getAttachment false id filename (databaseWith namedApart))
        (recordWith namedApart).id a.filename) a := by
  have hnames : Unambiguous (recordWith namedApart).attachments := by decide +kernel
  have htypes : ∀ b ∈ (recordWith namedApart).attachments, ∀ c ∈ b.contentType,
      sampleSendable c = true := by decide +kernel
  have hplain : ∀ a ∈ (recordWith namedApart).attachments, '"' ∉ a.filename
      ∧ '\\' ∉ a.filename ∧ ∀ c ∈ a.filename, sampleSendable c = true := by decide +kernel
  have hall : ∀ a ∈ (recordWith namedApart).attachments, PlainName sampleSendable a.filename
      ∧ FirstAlike sampleSendable (recordWith namedApart).attachments a := by
    intro a ha
    obtain ⟨hquote, hback, hsend⟩ := hplain a ha
    exact ⟨⟨hquote, hback, hsend⟩, firstAlike_of_unambiguous hnames ha htypes⟩
  refine ⟨⟨_, rfl, fun a ha => ?_⟩, ⟨_, rfl, fun a ha => ?_⟩⟩
  · refine ((faithful_iff sampleSendable_printable _ a).1 (memoryWith namedApart) rfl).mpr ?_
    exact hall a ha
  · refine ((faithful_iff sampleSendable_printable _ a).2 sampleJson (databaseWith namedApart)
      rfl).mpr ?_
    exact hall a ha

/-- A part with a quote in its name. -/
def quotedPart : List (String × Bytes) := [("a\"b.txt", [1])]

/-- A name with a quote is cut off at it. -/
theorem quoted_name :
    ∃ a ∈ (recordWith quotedPart).attachments,
      filenameOf (disposition a.filename) = some ("a".toList, "b.txt\"".toList)
      ∧ ¬ Faithful (getAttachment sampleSendable (memoryWith quotedPart).getAttachment
        (recordWith quotedPart).id a.filename) a
      ∧ ¬ Faithful (getAttachment sampleSendable
        (fun id filename => SqliteStore.getAttachment false id filename (databaseWith quotedPart))
        (recordWith quotedPart).id a.filename) a := by
  have hstored : ∃ e, SqliteStore.getById sampleJson false (recordWith quotedPart).id
      (databaseWith quotedPart) = some e := ⟨_, rfl⟩
  obtain ⟨e, he⟩ := hstored
  refine ⟨_, List.mem_cons_self, by decide +kernel, fun h => ?_, fun h => ?_⟩
  · have hplain := (faithful_first_iff sampleSendable_printable
      (memory_getAttachment rfl _)).mp h
    exact absurd hplain.1.quote (by decide +kernel)
  · have hplain := (faithful_first_iff sampleSendable_printable
      (sqlite_getAttachment he _)).mp h
    exact absurd hplain.1.quote (by decide +kernel)

end Disposition
