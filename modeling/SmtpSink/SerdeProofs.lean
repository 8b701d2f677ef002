import SmtpSink.JsonObjectProofs
import SmtpSink.SqliteHistoryProofs

/-! # Records as JSON — what the interface sends and the database keeps

    `recordJson` is the value a record is serialized as: texts that are missing and
    an empty list of attachments are left out, and neither the raw message nor the
    data of an attachment is there (`published`).  The entries of the headers come
    in whatever order the map has them.  How values are written and parsed is up to
    a `Codec`; inside the message of a WebSocket the members of every object are in
    the order the codec arranges them in.

    * `listing_reads_back` — with any lawful codec a listing, and the snapshot of a
      WebSocket, is read back as the published records.
    * `serdeJson_readsBack` — so are the texts of the columns `to_addrs` and
      `headers`. -/

namespace Serde

open Utf8 SmtpRecord JsonText
open SqliteHistory (SameRecord)

/-! ## Serialization -/

/-- The fields of an attachment. -/
def attachmentFields (a : Attachment) : List (Text × Option Value) :=
  [("filename".toList, some (.string a.filename)),
    ("content_type".toList, some (.string a.contentType)),
    ("size".toList, some (.number (Numeral.ofNat a.size))),
    ("content_id".toList, a.contentId.map .string)]

/-- `Serialize` of an attachment. -/
def attachmentJson (a : Attachment) : Value := .object (present (attachmentFields a))

/-- The fields of a record, given the entries of its headers and the values of its
    attachments. -/
def recordFields (headers : List (Text × Text)) (attachments : List Value) (e : MailRecord) :
    List (Text × Option Value) :=
  [("id".toList, some (.string e.id)),
    ("to".toList, some (.array (e.toAddrs.map .string))),
    ("from".toList, some (.string e.fromAddr)),
    ("subject".toList, e.subject.map .string),
    ("text".toList, e.text.map .string),
    ("html".toList, e.html.map .string),
    ("date".toList, some (.string e.date)),
    ("headers".toList, some (.object (members headers))),
    ("attachments".toList, if attachments.isEmpty then none else some (.array attachments))]

/-- `Serialize` of a record. -/
def recordJson (headers : List (Text × Text)) (e : MailRecord) : Value :=
  .object (present (recordFields headers (e.attachments.map attachmentJson) e))

/-- A value a record may be serialized as. -/
def Writes (e : MailRecord) (v : Value) : Prop :=
  ∃ headers, headers.Perm (entriesOf e.headers) ∧ v = recordJson headers e

/-- The message of a snapshot, given the values of the emails. -/
def snapshotJson (emails : List Value) : Value :=
  .object [("event".toList, .string "emails".toList), ("data".toList, .array emails)]

/-- The text `handle_websocket` sends, given the values of the emails. -/
def snapshotText (c : Codec) (emails : List Value) : Text :=
  c.print (c.arrange (snapshotJson emails))

/-- The text `get_emails` sends. -/
def listingText (c : Codec) (emails : List Value) : Text := c.print (.array emails)

/-! ## Deserialization -/

/-- A field that has to be there. -/
def required {α : Type} (name : String) (read : Value → Option α) (m : List (Text × Value)) :
    Option α :=
  match field name.toList m with
  | some (some v) => read v
  | some none | none => none

/-- A field with a default. -/
def defaulted {α : Type} (name : String) (read : Value → Option α) (default : α)
    (m : List (Text × Value)) : Option α :=
  match field name.toList m with
  | some (some v) => read v
  | some none => some default
  | none => none

/-- A text that may be `null`. -/
def asOptionText : Value → Option (Option Text)
  | .null => some none
  | .string t => some (some t)
  | .bool _ | .number _ | .array _ | .object _ => none

/-- A number of 64 bits. -/
def asUsize : Value → Option Nat
  | .number x => x.toNat?.filter (· < 2 ^ 64)
  | .null | .bool _ | .string _ | .array _ | .object _ => none

/-- `Deserialize` of an attachment, from an object. -/
def readAttachment : Value → Option Attachment
  | .object m => do
      let filename ← required "filename" asText m
      let contentType ← required "content_type" asText m
      let size ← required "size" asUsize m
      let contentId ← defaulted "content_id" asOptionText none m
      return { filename, contentType, size, contentId, data := [] }
  | .null | .bool _ | .number _ | .string _ | .array _ => none

/-- `Deserialize` of a record, from an object. -/
def readRecord : Value → Option MailRecord
  | .object m => do
      let id ← required "id" asText m
      let toAddrs ← required "to" (asArray asText) m
      let fromAddr ← required "from" asText m
      let subject ← defaulted "subject" asOptionText none m
      let text ← defaulted "text" asOptionText none m
      let html ← defaulted "html" asOptionText none m
      let date ← required "date" asText m
      let headers ← required "headers" asMap m
      let attachments ← defaulted "attachments" (asArray readAttachment) [] m
      return { id, toAddrs, fromAddr, subject, text, html, date, headers, attachments, raw := [] }
  | .null | .bool _ | .number _ | .string _ | .array _ => none

/-- The emails of a snapshot. -/
def readSnapshot : Value → Option (List MailRecord)
  | .object m =>
      match required "event" asText m with
      | some event =>
          if event = "emails".toList then required "data" (asArray readRecord) m else none
      | none => none
  | .null | .bool _ | .number _ | .string _ | .array _ => none

/-- An attachment without its data. -/
def bare (a : Attachment) : Attachment := { a with data := [] }

/-- What is sent of a record. -/
def published (e : MailRecord) : MailRecord :=
  { e with
    attachments := e.attachments.map bare
    raw := [] }

/-- The sizes of the attachments are numbers of 64 bits. -/
def SizesFit (e : MailRecord) : Prop := ∀ a ∈ e.attachments, a.size < 2 ^ 64

section

variable {m m' : List (Text × Value)} {headers : List (Text × Text)} {attachments : List Value}
  {e : MailRecord} {a : Attachment} {v : Value} {name : String} {f : Value → Value}

/-! ## What is written -/

theorem nodup_attachmentFields (a : Attachment) : ((attachmentFields a).map Prod.fst).Nodup := by
  show ["filename".toList, "content_type".toList, "size".toList, "content_id".toList].Nodup
  decide

theorem nodup_recordFields (headers : List (Text × Text)) (attachments : List Value)
    (e : MailRecord) : ((recordFields headers attachments e).map Prod.fst).Nodup := by
  show ["id".toList, "to".toList, "from".toList, "subject".toList, "text".toList, "html".toList,
    "date".toList, "headers".toList, "attachments".toList].Nodup
  decide

/-- A text that may be missing is within any limits. -/
theorem writable_option (d : Nat) (o : Option Text) : ∀ v ∈ o.map Value.string, Writable d v := by
  intro v hv
  obtain ⟨t, -, rfl⟩ := Option.map_eq_some_iff.mp hv
  exact Writable.string d t

theorem writable_attachmentJson (hsize : a.size < 2 ^ 64) : Writable 1 (attachmentJson a) := by
  refine writable_present (nodup_attachmentFields a) ?_
  simp only [attachmentFields, List.forall_mem_cons, Option.mem_def, Option.some.injEq,
    forall_eq']
  exact ⟨Writable.string 0 _, Writable.string 0 _, Writable.number 0 _ hsize,
    writable_option 0 _, fun p hp => absurd hp List.not_mem_nil⟩

/-- **The value of a record is within the limits of a reader.** -/
theorem writable_recordJson (hsize : SizesFit e) (hheaders : headers.Perm (entriesOf e.headers)) :
    Writable 3 (recordJson headers e) := by
  have hnames : (headers.map Prod.fst).Nodup :=
    ((hheaders.map _).nodup_iff).mpr (nodup_entriesOf e.headers)
  have hatts : Writable 2 (.array (e.attachments.map attachmentJson)) := by
    refine Writable.array 1 _ (fun v hv => ?_)
    obtain ⟨a, ha, rfl⟩ := List.mem_map.mp hv
    exact writable_attachmentJson (hsize a ha)
  refine writable_present (nodup_recordFields headers _ e) ?_
  simp only [recordFields, List.forall_mem_cons, Option.mem_def, Option.some.injEq, forall_eq']
  refine ⟨Writable.string 2 _, (writable_strings _).mono (by decide), Writable.string 2 _,
    writable_option 2 _, writable_option 2 _, writable_option 2 _, Writable.string 2 _,
    (writable_members hnames).mono (by decide), fun v hv => ?_,
    fun p hp => absurd hp List.not_mem_nil⟩
  split_ifs at hv with hempty
  obtain rfl := Option.some.inj hv
  exact hatts

/-! ## Reading back -/

theorem required_of_field {α : Type} {read : Value → Option α}
    (h : field name.toList m = some (some v)) : required name read m = read v := by
  rw [required, h]

/-- A text that may be missing is read back. -/
theorem defaulted_of_field {o : Option Text} (h : field name.toList m = some (o.map .string)) :
    defaulted name asOptionText none m = some o := by
  rw [defaulted, h]
  cases o <;> rfl

theorem asUsize_ofNat {n : Nat} (h : n < 2 ^ 64) :
    asUsize (.number (Numeral.ofNat n)) = some n := by
  rw [asUsize, Numeral.toNat?_ofNat, Option.filter_some, decide_eq_true h, if_pos rfl]

/-- An attachment is read back without its data. -/
theorem readAttachment_of_finds (hsize : a.size < 2 ^ 64) (h : Finds m (attachmentFields a)) :
    readAttachment (.object m) = some (bare a) := by
  simp only [Finds, attachmentFields, List.forall_mem_cons] at h
  obtain ⟨hfilename, htype, hnumber, hcid, -⟩ := h
  have hnumber : required "size" asUsize m = some a.size :=
    (required_of_field hnumber).trans (asUsize_ofNat hsize)
  simp only [readAttachment, required_of_field hfilename, required_of_field htype, hnumber,
    defaulted_of_field hcid]
  rfl

/-- **A record is read back as it was published**, from members in any order. -/
theorem readRecord_of_finds (h : Finds m (recordFields headers attachments e))
    (hheaders : headers.Perm (entriesOf e.headers))
    (hatts : readAll readAttachment attachments = some (e.attachments.map bare)) :
    ∃ r, readRecord (.object m) = some r ∧ SameRecord r (published e) := by
  simp only [Finds, recordFields, List.forall_mem_cons] at h
  obtain ⟨hid, hto, hfrom, hsubject, htext, hhtml, hdate, hhead, hfield, -⟩ := h
  obtain ⟨map, hmap, hlookup⟩ := asMap_members hheaders
  have hto : required "to" (asArray asText) m = some e.toAddrs :=
    (required_of_field hto).trans (asArray_strings _)
  have hhead : required "headers" asMap m = some map := (required_of_field hhead).trans hmap
  have hattachments : defaulted "attachments" (asArray readAttachment) [] m
      = some (e.attachments.map bare) := by
    rw [defaulted, hfield]
    cases attachments with
    | nil => exact hatts
    | cons v attachments => exact hatts
  refine ⟨{ published e with headers := map }, ?_, rfl, rfl, rfl, rfl, rfl, rfl, rfl, hlookup,
    rfl, rfl⟩
  simp only [readRecord, required_of_field hid, hto, required_of_field hfrom,
    defaulted_of_field hsubject, defaulted_of_field htext, defaulted_of_field hhtml,
    required_of_field hdate, hhead, hattachments]
  rfl

/-- The attachments are read back, also rearranged. -/
theorem readAll_attachments (hf : Arranges f) (hsize : SizesFit e) :
    readAll readAttachment (e.attachments.map attachmentJson) = some (e.attachments.map bare)
      ∧ readAll readAttachment ((e.attachments.map attachmentJson).map f)
        = some (e.attachments.map bare) := by
  have hfinds : ∀ a, Finds (present (attachmentFields a)) (attachmentFields a) :=
    fun a => finds_of_perm (nodup_attachmentFields a) (List.Perm.refl _)
  refine ⟨readAll_map (fun a ha => readAttachment_of_finds (hsize a ha) (hfinds a)), ?_⟩
  rw [List.map_map]
  refine readAll_map (fun a ha => ?_)
  obtain ⟨m', hm', hperm⟩ := hf.object _ (nodup_present (nodup_attachmentFields a))
  have harranged := (hfinds a).arranged hperm
  have hsame : (attachmentFields a).map (fun p => (p.1, p.2.map f)) = attachmentFields a := by
    rw [attachmentFields]
    cases a.contentId <;> simp [hf.string, hf.number]
  rw [hsame] at harranged
  show readAttachment (f (.object _)) = _
  rw [hm']
  exact readAttachment_of_finds (hsize a ha) harranged

/-- **What is written of a record is read back**, also rearranged. -/
theorem readRecord_of_writes (hf : Arranges f) (hsize : SizesFit e) (h : Writes e v) :
    (∃ r, readRecord v = some r ∧ SameRecord r (published e))
      ∧ ∃ r, readRecord (f v) = some r ∧ SameRecord r (published e) := by
  obtain ⟨headers, hheaders, rfl⟩ := h
  obtain ⟨hplain, harranged⟩ := readAll_attachments hf hsize
  have hnodup := nodup_recordFields headers (e.attachments.map attachmentJson) e
  have hfinds : Finds (present (recordFields headers (e.attachments.map attachmentJson) e)) _ :=
    finds_of_perm hnodup (List.Perm.refl _)
  refine ⟨readRecord_of_finds hfinds hheaders hplain, ?_⟩
  obtain ⟨m', hm', hperm⟩ := hf.object _ (nodup_present hnodup)
  obtain ⟨headers', hheaders', hsorted⟩ := hf.members
    (((hheaders.map _).nodup_iff).mpr (nodup_entriesOf e.headers))
  have hsame : (recordFields headers (e.attachments.map attachmentJson) e).map
        (fun p => (p.1, p.2.map f))
      = recordFields headers' ((e.attachments.map attachmentJson).map f) e := by
    have hstring : f ∘ Value.string = Value.string := funext hf.string
    simp only [recordFields, List.map_cons, List.map_nil, Option.map_some, hheaders', hf.string,
      Option.map_map, apply_ite (Option.map f), Option.map_none, hf.array, List.isEmpty_map,
      List.map_map, hstring]
  have hread := hfinds.arranged hperm
  rw [hsame] at hread
  rw [recordJson, hm']
  exact readRecord_of_finds hread (hsorted.trans hheaders) harranged

/-- The published records of a listing are read back one by one. -/
theorem readAll_records {emails : List MailRecord} {vs : List Value}
    (h : List.Forall₂ (fun e v => ∃ r, readRecord (f v) = some r ∧ SameRecord r (published e))
      emails vs) :
    ∃ rs, readAll readRecord (vs.map f) = some rs
      ∧ List.Forall₂ SameRecord rs (emails.map published) := by
  induction h with
  | nil => exact ⟨[], rfl, List.Forall₂.nil⟩
  | cons hhead _ ih =>
      obtain ⟨r, hr, hsame⟩ := hhead
      obtain ⟨rs, hrs, hall⟩ := ih
      refine ⟨r :: rs, ?_, List.Forall₂.cons hsame hall⟩
      rw [List.map_cons, readAll, hr, hrs]

end

/-- The values some records may be serialized as, one after the other. -/
def WritesAll (emails : List MailRecord) (vs : List Value) : Prop := List.Forall₂ Writes emails vs

section

variable {c : Codec} {emails : List MailRecord} {vs : List Value}

theorem writable_listing (hsize : ∀ e ∈ emails, SizesFit e) (h : WritesAll emails vs) :
    Writable 4 (.array vs) := by
  have hwrites := (List.forall₂_and_left emails vs).mpr ⟨hsize, h⟩
  refine Writable.array 3 _ (fun v hv => ?_)
  obtain ⟨e, hsize, headers, hheaders, rfl⟩ : ∃ e, SizesFit e ∧ Writes e v := by
    clear h hsize
    induction hwrites with
    | nil => exact absurd hv List.not_mem_nil
    | cons hev _ ih =>
        rcases List.mem_cons.mp hv with rfl | hv
        · exact ⟨_, hev⟩
        · exact ih hv
  exact writable_recordJson hsize hheaders

theorem nodup_snapshotNames (vs : List Value) :
    ([("event".toList, Value.string "emails".toList), ("data".toList, .array vs)].map
      Prod.fst).Nodup := by
  show ["event".toList, "data".toList].Nodup
  decide

theorem writable_snapshotJson (h : Writable 4 (.array vs)) : Writable 5 (snapshotJson vs) := by
  refine Writable.object 4 _ (nodup_snapshotNames vs) ?_
  exact List.forall_mem_cons.mpr ⟨Writable.string 4 _, List.forall_mem_singleton.mpr h⟩

/-- The emails of a snapshot are in its message, rearranged. -/
theorem readSnapshot_arranged {f : Value → Value} (hf : Arranges f) (vs : List Value) :
    readSnapshot (f (snapshotJson vs)) = readAll readRecord (vs.map f) := by
  obtain ⟨m', hm', hperm⟩ := hf.object _ (nodup_snapshotNames vs)
  have hevent : field "event".toList m' = some (some (f (.string "emails".toList))) :=
    field_arranged hperm _
  have hdata : field "data".toList m' = some (some (f (.array vs))) := field_arranged hperm _
  rw [hf.string] at hevent
  rw [hf.array] at hdata
  rw [snapshotJson, hm', readSnapshot, required_of_field hevent]
  exact required_of_field hdata

/-- **What is sent of a store is read back.**  With any lawful codec, and whatever
    order the headers of each record come in, the text of a listing and the text of
    a snapshot are read as the records without their raw messages and attachment
    data, one after the other. -/
theorem listing_reads_back (hc : c.Lawful) (hsize : ∀ e ∈ emails, SizesFit e)
    (h : WritesAll emails vs) :
    (∃ rs, (c.parse (listingText c vs)).bind (asArray readRecord) = some rs
        ∧ List.Forall₂ SameRecord rs (emails.map published))
      ∧ ∃ rs, (c.parse (snapshotText c vs)).bind readSnapshot = some rs
        ∧ List.Forall₂ SameRecord rs (emails.map published) := by
  have hlisting := writable_listing hsize h
  have hwrites := (List.forall₂_and_left emails vs).mpr ⟨hsize, h⟩
  refine ⟨?_, ?_⟩
  · obtain ⟨rs, hrs, hsame⟩ := readAll_records (f := id) (hwrites.imp
      (fun e v hev => (readRecord_of_writes hc.arranges hev.1 hev.2).1))
    refine ⟨rs, ?_, hsame⟩
    rw [listingText, hc.parse_print hlisting (by decide), Option.bind_some, ← hrs, List.map_id]
    rfl
  · obtain ⟨rs, hrs, hsame⟩ := readAll_records (f := c.arrange) (hwrites.imp
      (fun e v hev => (readRecord_of_writes hc.arranges hev.1 hev.2).2))
    refine ⟨rs, ?_, hsame⟩
    have hsnapshot := hc.arranges.writable (writable_snapshotJson hlisting)
    rw [snapshotText, hc.parse_print hsnapshot (by decide), Option.bind_some,
      readSnapshot_arranged hc.arranges, hrs]

end

/-- Compact texts, with the members sorted by the bytes of their names. -/
def compactJson : Codec := compact (fun s t => decide (encode s ≤ encode t))

/-- A record with an attachment and no headers, sent in both ways. -/
theorem listing_reads_back_attached :
    ∃ rs, (compactJson.parse (snapshotText compactJson
        [recordJson [] SqliteHistory.attached])).bind readSnapshot = some rs
      ∧ List.Forall₂ SameRecord rs [published SqliteHistory.attached] := by
  have hsize : ∀ e ∈ [SqliteHistory.attached], SizesFit e := by
    intro e he a ha
    obtain rfl := List.mem_singleton.mp he
    obtain rfl := List.mem_singleton.mp ha
    decide
  have hwrites : WritesAll [SqliteHistory.attached] [recordJson [] SqliteHistory.attached] :=
    List.Forall₂.cons ⟨[], List.Perm.refl _, rfl⟩ List.Forall₂.nil
  exact (listing_reads_back (lawful_compact _) hsize hwrites).2

/-! ## Columns -/

/-- The JSON texts of the columns, given the order in which the entries of a map
    come. -/
def serdeJson (c : Codec) (order : AList (fun _ : Text => Text) → List (Text × Text)) :
    SqliteStore.Json where
  list l := c.print (.array (l.map .string))
  map m := c.print (.object (members (order m)))
  readList t := (c.parse t).bind (asArray asText)
  readMap t := (c.parse t).bind asMap

/-- **The texts of the columns are read back**, whatever order the headers come
    in. -/
theorem serdeJson_readsBack {c : Codec} (hc : c.Lawful)
    {order : AList (fun _ : Text => Text) → List (Text × Text)}
    (h : ∀ m, (order m).Perm (entriesOf m)) (e : MailRecord) :
    SqliteHistory.ReadsBack (serdeJson c order) e := by
  obtain ⟨map, hmap, hlookup⟩ := asMap_members (h e.headers)
  have hnames : ((order e.headers).map Prod.fst).Nodup :=
    (((h e.headers).map _).nodup_iff).mpr (nodup_entriesOf e.headers)
  refine ⟨?_, map, ?_, hlookup⟩
  · show (c.parse (c.print (.array (e.toAddrs.map .string)))).bind (asArray asText) = _
    rw [hc.parse_print (writable_strings _) (by decide), Option.bind_some, asArray_strings]
  · show (c.parse (c.print (.object (members (order e.headers))))).bind asMap = _
    rw [hc.parse_print (writable_members hnames) (by decide), Option.bind_some, hmap]

/-- Compactly written, the list of recipients is the array of its texts. -/
theorem serdeJson_list (order : AList (fun _ : Text => Text) → List (Text × Text))
    (l : List Text) : (serdeJson compactJson order).list l = array l := (array_eq_print l).symm

/-- Compact texts of the columns, with the headers in the order of the map. -/
def compactColumns : SqliteStore.Json := serdeJson compactJson entriesOf

theorem compactColumns_readsBack (e : MailRecord) : SqliteHistory.ReadsBack compactColumns e :=
  serdeJson_readsBack (lawful_compact _) (fun _ => List.Perm.refl _) e

end Serde
