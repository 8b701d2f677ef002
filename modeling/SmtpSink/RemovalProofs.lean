import SmtpSink.KeyedProofs
import SmtpSink.RetentionProofs
import SmtpSink.SqliteHistoryProofs

/-! # Ids — looking records up and removing them

    Both backends stand for a table of records with distinct ids: the memory store
    for its list, a database for what is read from its rows.  `Refines` says that
    the operations on ids are those of the table, and `Refines.exact` what follows
    for every backend that does: a record is looked up exactly, and a removal takes
    it out, with its attachments and nothing else, once.

    `removal_exact` — both backends are exact in every state they reach: the memory
    store where no id is pushed that it holds, the database always, since it
    refuses such a push. -/

namespace Removal

open Utf8 SmtpRecord EmailStore Runs OrderBy SqliteStore SqliteHistory Keyed

/-- A store and the notifications it has sent. -/
structure Watched (σ : Type) where
  store : σ
  notified : Nat

/-- The operations of `EmailStorage` that go by ids, and what `get_all` may
    return. -/
structure Backend (σ : Type) where
  Lists : σ → List MailRecord → Prop
  getById : Text → σ → Option MailRecord
  getAttachment : Text → Text → σ → Option Attachment
  remove : Text → Watched σ → Watched σ × Bool

/-- The memory store. -/
def memory : Backend MemoryStore where
  Lists s all := all = s.getAll
  getById id s := s.getById id
  getAttachment id filename s := s.getAttachment id filename
  remove id w :=
    match w.store.remove id with
    | none => (w, false)
    | some store => (⟨store, w.notified + 1⟩, true)

/-- A database with foreign keys enforced, where no statement fails. -/
def sqlite (json : Json) : Backend Database where
  Lists db all := ∃ rows, AllRows db rows ∧ all = getAll json (some rows) db
  getById id db := SqliteStore.getById json false id db
  getAttachment id filename db := SqliteStore.getAttachment false id filename db
  remove id w :=
    let result := SqliteStore.remove true false id w.store
    (⟨result.1, if result.2 then w.notified + 1 else w.notified⟩, result.2)

/-! ## Tables of records -/

/-- The operations of a backend are those of a table of records. -/
structure Refines {σ : Type} (b : Backend σ) (R : σ → Table MailRecord.id → Prop) : Prop where
  lists : ∀ s t all, R s t → b.Lists s all → all.Perm t.rows
  getById : ∀ s t id, R s t → b.getById id s = t.lookup id
  getAttachment : ∀ s t id filename, R s t → b.getAttachment id filename s
    = (t.lookup id).bind (fun e => e.attachments.find? (·.filename == filename))
  present : ∀ w t id, R w.store t → (t.lookup id).isSome = true →
    ∃ s, b.remove id w = (⟨s, w.notified + 1⟩, true) ∧ R s (t.erase id)
  absent : ∀ w t id, R w.store t → t.lookup id = none → b.remove id w = (w, false)

/-- Records are looked up and removed exactly by their ids. -/
structure Exact {σ : Type} (b : Backend σ) (w : Watched σ) : Prop where
  distinct : ∀ all, b.Lists w.store all → (all.map MailRecord.id).Nodup
  found : ∀ all id e, b.Lists w.store all → (b.getById id w.store = some e ↔ e ∈ all ∧ e.id = id)
  removes : ∀ all id, b.Lists w.store all →
    ((b.remove id w).2 = true ↔ ∃ e ∈ all, e.id = id)
  /-- every other record stays, with its attachments -/
  others : ∀ all all' id, b.Lists w.store all → b.Lists (b.remove id w).1.store all' →
    all'.Perm (all.filter (fun e => e.id != id))
  attachments : ∀ id id' filename, b.getAttachment id' filename (b.remove id w).1.store
    = if id' = id then none else b.getAttachment id' filename w.store
  notifies : ∀ id, (b.remove id w).1.notified
    = if (b.remove id w).2 then w.notified + 1 else w.notified
  unchanged : ∀ id, (b.remove id w).2 = false → (b.remove id w).1 = w
  /-- a second removal returns false, changes nothing and sends nothing -/
  again : ∀ id, b.remove id (b.remove id w).1 = ((b.remove id w).1, false)

section

variable {σ : Type} {b : Backend σ} {R : σ → Table MailRecord.id → Prop} {w : Watched σ}
  {t : Table MailRecord.id}

/-- What a removal does, in terms of the table. -/
theorem Refines.remove_cases (h : Refines b R) (hR : R w.store t) (id : Text) :
    (∃ e ∈ t.rows, e.id = id) ∧ (∃ s, b.remove id w = (⟨s, w.notified + 1⟩, true)
        ∧ R s (t.erase id))
      ∨ (∀ e ∈ t.rows, e.id ≠ id) ∧ b.remove id w = (w, false) ∧ t.erase id = t := by
  cases hid : t.lookup id with
  | some e =>
      obtain ⟨he, heid⟩ := lookup_eq_some_iff.mp hid
      exact Or.inl ⟨⟨e, he, heid⟩, h.present w t id hR (by rw [hid]; rfl)⟩
  | none =>
      have hnone : ∀ e ∈ t.rows, e.id ≠ id := by
        intro e he heid
        rw [lookup_eq_some_iff.mpr ⟨he, heid⟩] at hid
        cases hid
      exact Or.inr ⟨hnone, h.absent w t id hR hid, erase_of_absent hnone⟩

/-- After a removal the backend stands for the table without the id. -/
theorem Refines.removed (h : Refines b R) (hR : R w.store t) (id : Text) :
    R (b.remove id w).1.store (t.erase id) := by
  rcases h.remove_cases hR id with ⟨-, s, hs, hR'⟩ | ⟨-, hs, ht⟩
  · rw [hs]
    exact hR'
  · rw [hs, ht]
    exact hR

/-- **A backend that stands for a table is exact.** -/
theorem Refines.exact (h : Refines b R) (hR : R w.store t) : Exact b w where
  distinct all hall := ((h.lists _ t all hR hall).map MailRecord.id).nodup_iff.mpr t.nodup
  found all id e hall := by
    rw [h.getById _ t id hR, lookup_eq_some_iff, (h.lists _ t all hR hall).mem_iff]
  removes all id hall := by
    have hmem := fun e => (h.lists _ t all hR hall).mem_iff (a := e)
    simp only [hmem]
    rcases h.remove_cases hR id with ⟨he, s, hs, -⟩ | ⟨hnone, hs, -⟩
    · rw [hs]
      exact ⟨fun _ => he, fun _ => rfl⟩
    · rw [hs]
      refine ⟨fun hfalse => absurd hfalse Bool.false_ne_true, ?_⟩
      rintro ⟨e, he, heid⟩
      exact absurd heid (hnone e he)
  others all all' id hall hall' :=
    (h.lists _ _ all' (h.removed hR id) hall').trans ((h.lists _ t all hR hall).filter _).symm
  attachments id id' filename := by
    rw [h.getAttachment _ _ id' filename (h.removed hR id), h.getAttachment _ t id' filename hR,
      lookup_erase]
    by_cases hid : id' = id
    · rw [if_pos hid, if_pos hid]
      rfl
    · rw [if_neg hid, if_neg hid]
  notifies id := by
    rcases h.remove_cases hR id with ⟨-, s, hs, -⟩ | ⟨-, hs, -⟩
    · rw [hs]
      rfl
    · rw [hs]
      rfl
  unchanged id hfalse := by
    rcases h.remove_cases hR id with ⟨-, s, hs, -⟩ | ⟨-, hs, -⟩
    · rw [hs] at hfalse
      cases hfalse
    · rw [hs]
  again id := by
    refine h.absent _ _ id (h.removed hR id) ?_
    rw [lookup_erase, if_pos rfl]

end

/-! ## The memory store -/

/-- The list of a memory store is the table. -/
def MemoryTable (s : MemoryStore) (t : Table MailRecord.id) : Prop := t.rows = s.emails

theorem memory_refines : Refines memory MemoryTable where
  lists s t all h hall := by
    obtain rfl : all = s.emails := hall
    rw [← h]
  getById s t id h := by
    show s.emails.find? (·.id == id) = t.rows.find? (·.id == id)
    rw [h]
  getAttachment s t id filename h := by
    show (s.emails.find? (·.id == id)).bind _ = (t.rows.find? (·.id == id)).bind _
    rw [h]
  present w t id h hsome := by
    obtain ⟨store, n⟩ := w
    have h : t.rows = store.emails := h
    obtain ⟨pos, hpos⟩ : ∃ pos, store.emails.findIdx? (·.id == id) = some pos := by
      rw [Table.lookup, h, List.find?_isSome] at hsome
      refine Option.isSome_iff_exists.mp ?_
      rw [List.findIdx?_isSome, List.any_eq_true]
      exact hsome
    refine ⟨{ store with emails := store.emails.eraseIdx pos }, ?_, ?_⟩
    · show (match MemoryStore.remove store id with
        | none => _
        | some store => _) = _
      rw [MemoryStore.remove, hpos]
    · show (t.erase id).rows = store.emails.eraseIdx pos
      rw [← eraseP_rows, h, List.eraseP_eq_eraseIdx, hpos]
  absent w t id h hnone := by
    obtain ⟨store, n⟩ := w
    have h : t.rows = store.emails := h
    have hpos : store.emails.findIdx? (·.id == id) = none := by
      rw [Table.lookup, h, List.find?_eq_none] at hnone
      exact List.findIdx?_eq_none_iff.mpr (fun e he => by simpa using hnone e he)
    show (match MemoryStore.remove store id with
      | none => _
      | some store => _) = _
    rw [MemoryStore.remove, hpos]

/-- No id is pushed that the store holds. -/
def FreshPushes (max : Nat) (ops : List StoreOp) : Prop :=
  ∀ pre email post, ops = pre ++ .push email :: post →
    ∀ e ∈ (Retention.after max pre).getAll, e.id ≠ email.id

theorem FreshPushes.of_snoc {max : Nat} {ops : List StoreOp} {op : StoreOp}
    (h : FreshPushes max (ops ++ [op])) : FreshPushes max ops := by
  rintro pre email post rfl
  exact h pre email (post ++ [op]) (by simp)

/-- Pushes with ids of their own are fresh. -/
theorem freshPushes_of_nodup {ops : List StoreOp} (max : Nat)
    (h : ((Retention.pushed ops).map MailRecord.id).Nodup) : FreshPushes max ops := by
  rintro pre email post rfl e he heq
  rw [Retention.pushed_append, List.map_append, List.nodup_append] at h
  have hmem := (Retention.after_sublist max pre).subset he
  exact h.2.2 _ (List.mem_map_of_mem hmem) _ List.mem_cons_self heq

/-- Fresh pushes keep ids distinct. -/
theorem FreshPushes.nodup {max : Nat} {ops : List StoreOp} (h : FreshPushes max ops) :
    ((Retention.after max ops).emails.map MailRecord.id).Nodup := by
  induction ops using List.reverseRecOn with
  | nil => exact List.nodup_nil
  | append_singleton ops op ih =>
      have hI := ih h.of_snoc
      cases op with
      | push email =>
          rw [Retention.after_push]
          refine List.Nodup.sublist ((List.drop_sublist _ _).map MailRecord.id) ?_
          rw [List.map_append, List.nodup_append]
          refine ⟨hI, List.nodup_singleton _, fun id hid id' hid' => ?_⟩
          obtain ⟨e, he, rfl⟩ := List.mem_map.mp hid
          obtain rfl := List.mem_singleton.mp hid'
          exact h ops email [] rfl e he
      | remove id =>
          rw [Retention.after_snoc, apply_remove]
          exact hI.sublist (List.eraseP_sublist.map MailRecord.id)
      | clear =>
          rw [Retention.after_snoc, apply_clear]
          exact List.nodup_nil

/-! ## The database -/

/-- What is read from a database, in the order of its rows, is the table. -/
def DatabaseTable (json : Json) (db : Database) (t : Table MailRecord.id) : Prop :=
  Refers db ∧ t.rows = getAll json (some db.emails) db

theorem getAll_ids (json : Json) (db : Database) (rows : List EmailRow) :
    (getAll json (some rows) db).map MailRecord.id = rows.map EmailRow.id := by
  rw [getAll, List.map_map]
  rfl

/-- The deletion of one email. -/
theorem deleteEmails_one (db : Database) (id : Text) :
    deleteEmails true [id] db
      = ⟨db.emails.filter (fun r => r.id != id),
        db.attachments.filter (fun a => a.emailId != id)⟩ := by
  have hcontains : ∀ other : Text, (! [id].contains other) = (other != id) := by
    intro other
    rw [List.contains_cons, List.contains_nil, Bool.or_false]
    rfl
  simp only [deleteEmails, hcontains, if_true]

/-- What is read after the deletion of an email. -/
theorem getAll_deleteEmails (json : Json) (db : Database) (id : Text) :
    getAll json (some (deleteEmails true [id] db).emails) (deleteEmails true [id] db)
      = (getAll json (some db.emails) db).filter (fun e => e.id != id) := by
  have hrows : (deleteEmails true [id] db).emails = db.emails.filter (fun r => r.id != id) := by
    rw [deleteEmails_one]
  rw [getAll, getAll, Option.getD_some, Option.getD_some, List.filter_map, hrows]
  refine List.map_congr_left (fun r hr => ?_)
  -- the attachments of the emails that stay are those they had
  have hid : r.id ∉ [id] := by
    rw [List.mem_singleton]
    exact bne_iff_ne.mp (List.mem_filter.mp hr).2
  have hatts : loadAttachments (deleteEmails true [id] db) r.id = loadAttachments db r.id := by
    rw [loadAttachments_eq, loadAttachments_eq, filter_deleteEmails true db hid]
  rw [readRow, readRow, hatts]

/-- A removal deletes the email with the id, if there is one. -/
theorem remove_eq_delete {db : Database} (hrefers : Refers db) (id : Text) :
    (SqliteStore.remove true false id db).1 = deleteEmails true [id] db := by
  rw [SqliteStore.remove]
  split_ifs with hany
  · rfl
  · -- no email has the id, so no attachment refers to it
    have hnone : ∀ r ∈ db.emails, (r.id != id) = true :=
      fun r hr => bne_iff_ne.mpr (fun hid => hany (List.any_eq_true.mpr ⟨r, hr, by simp [hid]⟩))
    have hatts : ∀ a ∈ db.attachments, (a.emailId != id) = true := by
      intro a ha
      obtain ⟨r, hr, heq⟩ := hrefers a ha
      rw [← heq]
      exact hnone r hr
    rw [deleteEmails_one, List.filter_eq_self.mpr hnone, List.filter_eq_self.mpr hatts]

/-- `get_by_id` is a lookup in what `get_all` reads. -/
theorem getById_eq (json : Json) (db : Database) (id : Text) :
    SqliteStore.getById json false id db
      = (getAll json (some db.emails) db).find? (·.id == id) := by
  have htest : (·.id == id) ∘ readRow json db = fun row : EmailRow => row.id == id := rfl
  rw [SqliteStore.getById, if_neg Bool.false_ne_true, getAll, Option.getD_some, List.find?_map,
    htest]
  cases hrow : db.emails.find? (·.id == id) with
  | none => rfl
  | some row =>
      have hpass := List.find?_some hrow
      obtain rfl : row.id = id := beq_iff_eq.mp hpass
      rfl

theorem any_id_iff {json : Json} {db : Database} {t : Table MailRecord.id}
    (h : DatabaseTable json db t) (id : Text) :
    db.emails.any (·.id == id) = (t.lookup id).isSome := by
  rw [Table.lookup, h.2, getAll, Option.getD_some, List.find?_map, Option.isSome_map,
    List.isSome_find?]
  rfl

theorem sqlite_refines (json : Json) : Refines (sqlite json) (DatabaseTable json) where
  lists db t all h hall := by
    obtain ⟨rows, hrows, rfl⟩ := hall
    rw [h.2]
    exact hrows.perm.map _
  getById db t id h := by
    show SqliteStore.getById json false id db = t.rows.find? (·.id == id)
    rw [h.2, getById_eq]
  getAttachment db t id filename h := by
    show SqliteStore.getAttachment false id filename db
      = (t.rows.find? (·.id == id)).bind _
    rw [h.2, ← getById_eq]
    exact h.1.lookup json id (·.filename == filename)
  present w t id h hsome := by
    rw [← any_id_iff h] at hsome
    have hremove : SqliteStore.remove true false id w.store
        = (deleteEmails true [id] w.store, true) := by
      rw [SqliteStore.remove, hsome]
      rfl
    refine ⟨deleteEmails true [id] w.store, ?_, h.1.delete [id], ?_⟩
    · simp only [sqlite, hremove, if_true]
    · rw [getAll_deleteEmails, ← h.2]
      rfl
  absent w t id h hnone := by
    have hany : w.store.emails.any (·.id == id) = false := by
      rw [any_id_iff h, hnone]
      rfl
    have hremove : SqliteStore.remove true false id w.store = (w.store, false) := by
      rw [SqliteStore.remove, hany]
      rfl
    simp only [sqlite, hremove, Bool.false_eq_true, if_false]

/-- The table of a database with distinct ids. -/
theorem exists_databaseTable {json : Json} {db : Database} (hdb : Distinct db)
    (hrefers : Refers db) : ∃ t, DatabaseTable json db t :=
  ⟨⟨getAll json (some db.emails) db, by rw [getAll_ids]; exact hdb⟩, hrefers, rfl⟩

/-- **Ids are exact on both backends.**  A memory store that is pushed no id it
    holds, and a database whose foreign keys are enforced, look records up and
    remove them exactly by their ids, in every state the operations lead to.  A
    removal keeps the order of the memory store's list, and of the database's rows
    it takes those of the email and of its attachments. -/
theorem removal_exact :
    (∀ max ops notified, FreshPushes max ops →
      Exact memory ⟨Retention.after max ops, notified⟩
        ∧ ∀ id, (memory.remove id ⟨Retention.after max ops, notified⟩).1.store.getAll
          = (Retention.after max ops).getAll.filter (fun e => e.id != id))
    ∧ ∀ json max ops st notified, (∀ op ∈ ops, op.Enforced) →
      Run (OpStep json) (openStore none max) ops st →
      Exact (sqlite json) ⟨st.db, notified⟩
        ∧ (st.db.emails.map EmailRow.id).Nodup
        ∧ ∀ id, let db := ((sqlite json).remove id ⟨st.db, notified⟩).1.store
          db.emails = st.db.emails.filter (fun r => r.id != id)
            ∧ db.attachments = st.db.attachments.filter (fun a => a.emailId != id) := by
  refine ⟨fun max ops notified hfresh => ?_, fun json max ops st notified hops hrun => ?_⟩
  · have hR : MemoryTable (Retention.after max ops) ⟨_, hfresh.nodup⟩ := rfl
    refine ⟨memory_refines.exact hR, fun id => ?_⟩
    exact (memory_refines.removed (w := ⟨Retention.after max ops, notified⟩) hR id).symm
  · have hrefers := Refers.run hrun hops
    have hdb := Distinct.run hrun
    obtain ⟨t, ht⟩ : ∃ t, DatabaseTable json st.db t := exists_databaseTable hdb hrefers
    refine ⟨(sqlite_refines json).exact ht, hdb, fun id => ?_⟩
    show (SqliteStore.remove true false id st.db).1.emails = _
      ∧ (SqliteStore.remove true false id st.db).1.attachments = _
    rw [remove_eq_delete hrefers, deleteEmails_one]
    exact ⟨rfl, rfl⟩

/-- Two records in memory, and one with an attachment in a database. -/
theorem removal_exact_samples :
    let kept := (memory.remove (Retention.recordAt 1).id
      ⟨Retention.after 10 [.push (Retention.recordAt 1), .push (Retention.recordAt 2)], 0⟩).1
    let left := ((sqlite sampleJson).remove attached.id ⟨attachedDb, 0⟩).1
    kept.notified = 1 ∧ kept.store.getAll = [Retention.recordAt 2]
      ∧ left.notified = 1 ∧ left.store.attachments = [] := by
  have hids : ((Retention.pushed [.push (Retention.recordAt 1),
      .push (Retention.recordAt 2)]).map MailRecord.id).Nodup := by decide +kernel
  have hops : ∀ op ∈ [Op.push attachedPush], op.Enforced := by
    intro op hop
    obtain rfl := List.mem_singleton.mp hop
    rfl
  obtain ⟨hmemory, horder⟩ := removal_exact.1 10 _ 0 (freshPushes_of_nodup 10 hids)
  obtain ⟨hsqlite, -, hrows⟩ := removal_exact.2 sampleJson 10 _ _ 0 hops attachedPush_run
  refine ⟨(hmemory.notifies _).trans rfl, ?_, (hsqlite.notifies _).trans rfl, ?_⟩
  · exact (horder (Retention.recordAt 1).id).trans rfl
  · exact ((hrows attached.id).2).trans rfl

end Removal
