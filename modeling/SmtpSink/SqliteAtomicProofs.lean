import SmtpSink.SqliteHistoryProofs

/-! # Failing pushes — what is left of a record

    A push is a sequence of statements, each of which may fail by itself: the
    insertion of the email, one insertion for each attachment, the count and the
    deletion of the eviction.  Only the first result is looked at, so a push
    whose attachment is refused stores the record without it; `allOrNothing_iff`
    is the exact extent to which it is atomic. -/

namespace SqliteAtomic

open Utf8 SmtpRecord EmailStore SqliteStore SqliteHistory

/-- The record is stored with all of its attachments. -/
def Stored (json : Json) (p : Push) (db : Database) : Prop :=
  rowOf json p.email p.sql.createdAt ∈ db.emails
    ∧ db.attachments.filter (·.emailId == p.email.id)
      = p.email.attachments.map (attachmentRow p.email.id)

/-- No row of the record exists. -/
def Absent (id : Text) (db : Database) : Prop :=
  (∀ r ∈ db.emails, r.id ≠ id) ∧ ∀ a ∈ db.attachments, a.emailId ≠ id

/-- The push is all or nothing. -/
def AllOrNothing (json : Json) (p : Push) (db : Database) : Prop :=
  Stored json p db ∨ Absent p.email.id db

/-- The eviction of the push deletes the record that was just inserted. -/
def EvictsItself (max : Nat) (p : Push) (db : Database) : Prop :=
  p.sql.countFails = false ∧ p.sql.deleteFails = false ∧ p.email.id ∈ evicted max p db

instance (max : Nat) (p : Push) (db : Database) : Decidable (EvictsItself max p db) :=
  inferInstanceAs (Decidable (_ ∧ _))

section

variable {json : Json} {max : Nat} {p : Push} {db : Database}

theorem kept_eq_nil_iff : kept p = []
    ↔ ∀ i < p.email.attachments.length, p.sql.attachmentFails i = true := by
  rw [kept, List.map_eq_nil_iff, List.filter_eq_nil_iff,
    ← forall_zipIdx (P := fun i => p.sql.attachmentFails i = true)]
  simp only [Bool.not_eq_true', Bool.not_eq_false]

/-- The rows of the record among those that are inserted. -/
theorem insertedSome_attachments (hatts : ∀ a ∈ db.attachments, a.emailId ≠ p.email.id) :
    (insertedSome json p db).attachments.filter (·.emailId == p.email.id)
      = (kept p).map (attachmentRow p.email.id) := by
  have hold : db.attachments.filter (·.emailId == p.email.id) = [] :=
    List.filter_eq_nil_iff.mpr (fun a ha heq => hatts a ha (beq_iff_eq.mp heq))
  have hnew : ((kept p).map (attachmentRow p.email.id)).filter (·.emailId == p.email.id)
      = (kept p).map (attachmentRow p.email.id) := by
    refine List.filter_eq_self.mpr (fun a ha => ?_)
    obtain ⟨att, -, rfl⟩ := List.mem_map.mp ha
    exact beq_self_eq_true _
  rw [insertedSome, List.filter_append, hold, hnew, List.nil_append]

/-- Where the row stays, the record is stored if all its attachments are. -/
theorem stored_of_row {db' : Database} (hrow : rowOf json p.email p.sql.createdAt ∈ db'.emails)
    (hatts : db'.attachments.filter (·.emailId == p.email.id)
      = (kept p).map (attachmentRow p.email.id)) :
    AllOrNothing json p db' ↔ kept p = p.email.attachments := by
  have hinj : Function.Injective (attachmentRow p.email.id) := by
    rintro ⟨f, t, n, c, d⟩ ⟨f', t', n', c', d'⟩ h
    cases h
    rfl
  rw [AllOrNothing, Stored, hatts]
  constructor
  · rintro (⟨-, h⟩ | ⟨h, -⟩)
    · exact List.map_injective_iff.mpr hinj h
    · exact absurd rfl (h _ hrow)
  · intro h
    rw [h]
    exact Or.inl ⟨hrow, rfl⟩

/-- Where the row is gone, so must the attachments be. -/
theorem absent_of_no_row {db' : Database} (hrow : ∀ r ∈ db'.emails, r.id ≠ p.email.id) :
    AllOrNothing json p db' ↔ ∀ a ∈ db'.attachments, a.emailId ≠ p.email.id := by
  constructor
  · rintro (⟨h, -⟩ | ⟨-, h⟩)
    · exact absurd rfl (hrow _ h)
    · exact h
  · exact fun h => Or.inr ⟨hrow, h⟩

/-- A record that is inserted and evicted again. -/
theorem allOrNothing_evicted (hatts : ∀ a ∈ db.attachments, a.emailId ≠ p.email.id)
    (hid : p.email.id ∈ evicted max p db) :
    AllOrNothing json p
        (deleteEmails p.sql.foreignKeys (evicted max p db) (insertedSome json p db))
      ↔ p.sql.foreignKeys = true ∨ kept p = [] := by
  -- the row is deleted by its id, whoever owns it
  have hgone : ∀ r ∈ (deleteEmails p.sql.foreignKeys (evicted max p db)
      (insertedSome json p db)).emails, r.id ≠ p.email.id := by
    intro r hr heq
    exact (mem_deleteEmails.mp hr).2 (heq ▸ hid)
  rw [absent_of_no_row hgone]
  cases p.sql.foreignKeys with
  | true =>
      -- the deletion cascades
      refine ⟨fun _ => Or.inl rfl, fun _ a ha heq => ?_⟩
      have hpass := (List.mem_filter.mp ha).2
      rw [heq] at hpass
      simp [hid] at hpass
  | false =>
      show (∀ a ∈ (insertedSome json p db).attachments, a.emailId ≠ p.email.id) ↔ _
      constructor
      · intro h
        have hnone : (insertedSome json p db).attachments.filter
            (·.emailId == p.email.id) = [] :=
          List.filter_eq_nil_iff.mpr (fun a ha heq => h a ha (beq_iff_eq.mp heq))
        rw [insertedSome_attachments hatts] at hnone
        exact Or.inr (List.map_eq_nil_iff.mp hnone)
      · rintro (h | hnone) a ha
        · exact absurd h Bool.false_ne_true
        · rw [insertedSome, hnone, List.map_nil, List.append_nil] at ha
          exact hatts a ha

/-- A record that is inserted and stays. -/
theorem allOrNothing_kept (hatts : ∀ a ∈ db.attachments, a.emailId ≠ p.email.id)
    (hself : ¬ EvictsItself max p db) :
    AllOrNothing json p (if p.sql.countFails || p.sql.deleteFails then insertedSome json p db
        else deleteEmails p.sql.foreignKeys (evicted max p db) (insertedSome json p db))
      ↔ kept p = p.email.attachments := by
  have hrow : rowOf json p.email p.sql.createdAt ∈ (insertedSome json p db).emails :=
    List.mem_append_right _ List.mem_cons_self
  by_cases hfail : (p.sql.countFails || p.sql.deleteFails) = true
  · rw [if_pos hfail]
    exact stored_of_row hrow (insertedSome_attachments hatts)
  · rw [if_neg hfail]
    obtain ⟨hcount, hdelete⟩ := Bool.or_eq_false_iff.mp (Bool.eq_false_iff.mpr hfail)
    have hid : p.email.id ∉ evicted max p db := fun h => hself ⟨hcount, hdelete, h⟩
    refine stored_of_row (mem_deleteEmails.mpr ⟨hrow, hid⟩) ?_
    rw [filter_deleteEmails _ _ hid, insertedSome_attachments hatts]

/-- **A push is all or nothing exactly when** its first statement fails, or it
    keeps the row and no insertion of an attachment fails, or it evicts the row
    again and no attachment is left behind: foreign keys are enforced or none was
    inserted. -/
theorem allOrNothing_iff (hfresh : Absent p.email.id db) :
    AllOrNothing json p (push json max p.email p.sql db)
      ↔ p.sql.insertFails = true
        ∨ (¬ EvictsItself max p db
          ∧ ∀ i < p.email.attachments.length, p.sql.attachmentFails i = false)
        ∨ (EvictsItself max p db ∧ (p.sql.foreignKeys = true
          ∨ ∀ i < p.email.attachments.length, p.sql.attachmentFails i = true)) := by
  obtain ⟨hemails, hatts⟩ := hfresh
  rw [push_failing hemails, ← kept_eq_self_iff, ← kept_eq_nil_iff]
  by_cases hins : p.sql.insertFails = true
  · -- the push gives up before it has changed anything
    rw [if_pos hins]
    exact ⟨fun _ => Or.inl hins, fun _ => Or.inr ⟨hemails, hatts⟩⟩
  · rw [if_neg hins]
    by_cases hself : EvictsItself max p db
    · obtain ⟨hcount, hdelete, hid⟩ := id hself
      rw [hcount, hdelete, Bool.or_self, if_neg Bool.false_ne_true,
        allOrNothing_evicted hatts hid]
      constructor
      · exact fun h => Or.inr (Or.inr ⟨hself, h⟩)
      · rintro (h | ⟨h, -⟩ | ⟨-, h⟩)
        · exact absurd h hins
        · exact absurd hself h
        · exact h
    · rw [allOrNothing_kept hatts hself]
      constructor
      · exact fun h => Or.inr (Or.inl ⟨hself, h⟩)
      · rintro (h | ⟨-, h⟩ | ⟨h, -⟩)
        · exact absurd h hins
        · exact h
        · exact absurd h hself

end

/-- The push of a record with one attachment, whose insertion may fail. -/
def attachedPushFailing (fails : Bool) : Push :=
  { attachedPush with sql := { attachedPush.sql with attachmentFails := fun _ => fails } }

theorem absent_empty (id : Text) : Absent id Database.empty :=
  ⟨fun _ h => absurd h List.not_mem_nil, fun _ h => absurd h List.not_mem_nil⟩

theorem allOrNothing_attached : AllOrNothing sampleJson (attachedPushFailing false)
    (push sampleJson 10 attached (attachedPushFailing false).sql Database.empty) :=
  (allOrNothing_iff (p := attachedPushFailing false) (absent_empty _)).mpr
    (Or.inr (Or.inl ⟨by decide +kernel, fun _ _ => rfl⟩))

/-- A record whose only attachment is refused is stored without it. -/
theorem half_stored :
    let db := push sampleJson 10 attached (attachedPushFailing true).sql Database.empty
    db.emails.map EmailRow.id = [attached.id] ∧ db.attachments = []
      ∧ ¬ AllOrNothing sampleJson (attachedPushFailing true) db := by
  refine ⟨rfl, rfl, ?_⟩
  rintro (⟨-, h⟩ | ⟨h, -⟩)
  · exact nomatch h
  · exact h _ List.mem_cons_self rfl

end SqliteAtomic
