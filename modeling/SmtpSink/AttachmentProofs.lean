import SmtpSink.SqliteHistoryProofs

/-! # Downloads — an attachment by its name

    The attachments of an email are listed with their names, and a download is
    the first attachment with a name.  Names are taken from the parts of the
    message as they are, and nothing makes them different; so all attachments of
    an email can be downloaded just where those of one name have one content
    (`downloads_iff`). -/

namespace Attachments

open Utf8 SmtpRecord EmailStore SqliteStore

/-- The answer to a download is an attachment's content. -/
def Serves (answer : Option Attachment) (a : Attachment) : Prop :=
  ∃ b, answer = some b ∧ b.data = a.data ∧ b.contentType = a.contentType

/-- Attachments of one name have one content. -/
def Unambiguous (attachments : List Attachment) : Prop :=
  ∀ a ∈ attachments, ∀ b ∈ attachments, a.filename = b.filename →
    a.data = b.data ∧ a.contentType = b.contentType

instance (attachments : List Attachment) : Decidable (Unambiguous attachments) :=
  inferInstanceAs (Decidable (∀ a ∈ attachments, ∀ b ∈ attachments, _ → _))

/-- **Looking up the first of a name** serves every attachment of a list exactly
    when names are unambiguous. -/
theorem serves_first_iff (attachments : List Attachment) :
    (∀ a ∈ attachments, Serves (attachments.find? (·.filename == a.filename)) a)
      ↔ Unambiguous attachments := by
  constructor
  · intro h a ha b hb hname
    -- one lookup answers both
    obtain ⟨c, hc, hdata, htype⟩ := h a ha
    obtain ⟨c', hc', hdata', htype'⟩ := h b hb
    rw [hname, hc'] at hc
    obtain rfl := Option.some.inj hc
    exact ⟨hdata.symm.trans hdata', htype.symm.trans htype'⟩
  · intro h a ha
    -- some attachment of the name is found, and all of them are alike
    have hsome : (attachments.find? (·.filename == a.filename)).isSome = true :=
      List.find?_isSome.mpr ⟨a, ha, beq_self_eq_true _⟩
    obtain ⟨b, hb⟩ := Option.isSome_iff_exists.mp hsome
    have hpass := List.find?_some hb
    have hname : b.filename = a.filename := beq_iff_eq.mp hpass
    obtain ⟨hdata, htype⟩ := h b (List.mem_of_find?_eq_some hb) a ha hname
    exact ⟨b, hb, hdata, htype⟩

/-- A memory store looks an attachment up in its email. -/
theorem memory_getAttachment {s : MemoryStore} {id : Text} {e : MailRecord}
    (h : s.getById id = some e) (filename : Text) :
    s.getAttachment id filename = e.attachments.find? (·.filename == filename) := by
  rw [MemoryStore.getAttachment, h]
  rfl

/-- So does a database, for an email that it has. -/
theorem sqlite_getAttachment {json : Json} {db : Database} {id : Text} {e : MailRecord}
    (h : SqliteStore.getById json false id db = some e) (filename : Text) :
    SqliteStore.getAttachment false id filename db
      = e.attachments.find? (·.filename == filename) := by
  rw [SqliteStore.getById, if_neg Bool.false_ne_true] at h
  obtain ⟨row, -, rfl⟩ := Option.map_eq_some_iff.mp h
  show _ = (loadAttachments db id).find? (·.filename == filename)
  rw [SqliteStore.getAttachment, if_neg Bool.false_ne_true, SqliteHistory.loadAttachments_eq,
    List.find?_map, List.find?_filter]
  simp only [Function.comp, Bool.decide_and, Bool.decide_eq_true]
  rfl

/-- **Every listed attachment can be downloaded exactly when names are
    unambiguous**, for every email of a memory store and of a database. -/
theorem downloads_iff (id : Text) (e : MailRecord) :
    (∀ s : MemoryStore, s.getById id = some e →
      ((∀ a ∈ e.attachments, Serves (s.getAttachment id a.filename) a)
        ↔ Unambiguous e.attachments))
    ∧ ∀ (json : Json) (db : Database), SqliteStore.getById json false id db = some e →
      ((∀ a ∈ e.attachments, Serves (SqliteStore.getAttachment false id a.filename db) a)
        ↔ Unambiguous e.attachments) := by
  refine ⟨fun s h => ?_, fun json db h => ?_⟩
  · simp only [memory_getAttachment h]
    exact serves_first_iff e.attachments
  · simp only [sqlite_getAttachment h]
    exact serves_first_iff e.attachments

/-! ## Sample emails -/

/-- A message with attachment parts of the given names and contents. -/
def messageWith (parts : List (String × Bytes)) : Message :=
  { sampleMessage with
    attachments := parts.map (fun p => ⟨some p.1.toList, none, none, p.2⟩) }

/-- The record that is made of it. -/
def recordWith (parts : List (String × Bytes)) : MailRecord :=
  parseEmail { sampleEnv with parse := fun _ => some (messageWith parts) } sampleStamp sampleData
    ⟨none, []⟩

/-- The memory store with that record. -/
def memoryWith (parts : List (String × Bytes)) : MemoryStore :=
  (MemoryStore.new 10).push (recordWith parts)

/-- The database with that record. -/
def databaseWith (parts : List (String × Bytes)) : Database :=
  push sampleJson 10 (recordWith parts) (SqliteHistory.attachedPush.sql) Database.empty

/-- Two parts with different names. -/
def namedApart : List (String × Bytes) := [("a.txt", [1]), ("b.txt", [2])]

theorem downloads_namedApart :
    (∃ e, (memoryWith namedApart).getById (recordWith namedApart).id = some e
      ∧ ∀ a ∈ e.attachments,
        Serves ((memoryWith namedApart).getAttachment (recordWith namedApart).id a.filename) a)
    ∧ ∃ e, SqliteStore.getById sampleJson false (recordWith namedApart).id
        (databaseWith namedApart) = some e
      ∧ ∀ a ∈ e.attachments, Serves (SqliteStore.getAttachment false (recordWith namedApart).id
        a.filename (databaseWith namedApart)) a := by
  have hnames : Unambiguous (recordWith namedApart).attachments := by decide +kernel
  exact ⟨⟨_, rfl, ((downloads_iff _ _).1 (memoryWith namedApart) rfl).mpr hnames⟩,
    ⟨_, rfl, ((downloads_iff _ _).2 sampleJson (databaseWith namedApart) rfl).mpr hnames⟩⟩

/-- Two parts with one name. -/
def namedAlike : List (String × Bytes) := [("a.txt", [1]), ("a.txt", [2])]

/-- The second of two parts with one name cannot be downloaded. -/
theorem second_namedAlike :
    ∃ a ∈ (recordWith namedAlike).attachments, a.data = [2]
      ∧ ¬ Serves ((memoryWith namedAlike).getAttachment (recordWith namedAlike).id a.filename) a
      ∧ ¬ Serves (SqliteStore.getAttachment false (recordWith namedAlike).id a.filename
        (databaseWith namedAlike)) a := by
  refine ⟨_, List.mem_cons_of_mem _ List.mem_cons_self, rfl, ?_, ?_⟩
  · rintro ⟨b, hb, hdata, -⟩
    cases hb
    exact absurd hdata (by decide)
  · rintro ⟨b, hb, hdata, -⟩
    cases hb
    exact absurd hdata (by decide)

end Attachments
