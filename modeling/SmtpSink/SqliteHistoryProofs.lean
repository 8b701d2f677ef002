import SmtpSink.SqliteStoreProofs

/-! # Histories of the SQLite store — capacity, attachments, and round trips

    The operations of a store, one after the other, with closing and opening it
    again in between.  Every operation is a deletion of some emails, which a push
    does behind an insertion (`opStep_cases`), so an invariant is kept when
    insertions and deletions keep it.

    * `within_max_iff` — the capacity bound holds in every state just where it
      held of the file that was opened: a push enforces it, the opening does not.
    * `lookups_agree` — with foreign keys enforced an attachment is found just
      where its email has it.
    * `returned_as_pushed` — what is read is what was pushed. -/

namespace SqliteHistory

open Utf8 SmtpRecord EmailStore Runs OrderBy SqliteStore

/-- An operation on a store. -/
inductive Op where
  | push (p : Push)
  | remove (id : Text) (foreignKeys : Bool)
  | clear (foreignKeys : Bool)
  /-- one of the operations that only read -/
  | read
  /-- the store is closed and its file is opened again -/
  | reopen (max : Nat)

/-- What an operation does where no statement fails. -/
inductive OpStep (json : Json) (st : Store) : Op → Store → Prop where
  | push (p : Push) (db : Database) : PushStep json st.max st.db p db →
      OpStep json st (.push p) { st with db := db }
  | remove (id : Text) (foreignKeys : Bool) :
      OpStep json st (.remove id foreignKeys)
        { st with db := (remove foreignKeys false id st.db).1 }
  | clear (foreignKeys : Bool) :
      OpStep json st (.clear foreignKeys) { st with db := clear foreignKeys false st.db }
  | read : OpStep json st .read st
  | reopen (max : Nat) : OpStep json st (.reopen max) (openStore (some st.db) max)

/-- Foreign keys are enforced while the operation runs. -/
def Op.Enforced : Op → Prop
  | .push p => p.sql.foreignKeys = true
  | .remove _ foreignKeys | .clear foreignKeys => foreignKeys = true
  | .read | .reopen _ => True

/-- The push an operation makes. -/
def Op.push? : Op → Option Push
  | .push p => some p
  | .remove _ _ | .clear _ | .read | .reopen _ => none

/-- The records some operations push, in order. -/
def pushed (ops : List Op) : List MailRecord := (ops.filterMap Op.push?).map Push.email

/-- The tables after the insertions of a push. -/
def inserted (json : Json) (p : Push) (db : Database) : Database where
  emails := db.emails ++ [inputRow json p.input]
  attachments := db.attachments ++ p.email.attachments.map (attachmentRow p.email.id)

/-- The attachments whose insertion succeeds. -/
def kept (p : Push) : List Attachment :=
  (p.email.attachments.zipIdx.filter (fun q => !p.sql.attachmentFails q.2)).map Prod.fst

/-- The tables after the insertions that succeed. -/
def insertedSome (json : Json) (p : Push) (db : Database) : Database where
  emails := db.emails ++ [inputRow json p.input]
  attachments := db.attachments ++ (kept p).map (attachmentRow p.email.id)

/-- The ids of the emails a push evicts. -/
def evicted (max : Nat) (p : Push) (db : Database) : List Text :=
  (p.sql.byAge.take (db.emails.length + 1 - max)).map EmailRow.id

section

variable {json : Json} {max : Nat} {db db' : Database} {p : Push} {st st' : Store} {op : Op}
  {ops : List Op}

@[simp] theorem deleteEmails_nil (foreignKeys : Bool) (db : Database) :
    deleteEmails foreignKeys [] db = db := by
  cases foreignKeys with
  | true => simp [deleteEmails]
  | false => simp [deleteEmails]

theorem forall_zipIdx {α : Type} {l : List α} {P : Nat → Prop} :
    (∀ q ∈ l.zipIdx, P q.2) ↔ ∀ i < l.length, P i := by
  have hsnd : l.zipIdx.map Prod.snd = List.range l.length := by
    rw [List.zipIdx_map_snd, List.range_eq_range']
  rw [← List.forall_mem_map, hsnd]
  simp only [List.mem_range]

theorem kept_eq_self_iff : kept p = p.email.attachments
    ↔ ∀ i < p.email.attachments.length, p.sql.attachmentFails i = false := by
  have hlen : p.email.attachments.zipIdx.length = p.email.attachments.length :=
    List.length_zipIdx
  have hall : (∀ q ∈ p.email.attachments.zipIdx, (!p.sql.attachmentFails q.2) = true)
      ↔ ∀ i < p.email.attachments.length, p.sql.attachmentFails i = false := by
    rw [forall_zipIdx (P := fun i => (!p.sql.attachmentFails i) = true)]
    simp only [Bool.not_eq_true']
  rw [← hall]
  constructor
  · intro h
    have hcount := congrArg List.length h
    rw [kept, List.length_map, ← hlen] at hcount
    exact List.length_filter_eq_length_iff.mp hcount
  · intro h
    rw [kept, List.filter_eq_self.mpr h]
    exact List.zipIdx_map_fst 0 p.email.attachments

/-- **A push with a new id under any failures**: the insertion fails and nothing
    happens, or the rows that were not refused are inserted and the eviction
    follows, if its statements succeed. -/
theorem push_failing (hfresh : ∀ r ∈ db.emails, r.id ≠ p.email.id) :
    push json max p.email p.sql db
      = if p.sql.insertFails then db
        else if p.sql.countFails || p.sql.deleteFails then insertedSome json p db
        else deleteEmails p.sql.foreignKeys (evicted max p db) (insertedSome json p db) := by
  have hany : db.emails.any (·.id == (rowOf json p.email p.sql.createdAt).id) = false :=
    List.any_eq_false.mpr (fun r hr heq => hfresh r hr (beq_iff_eq.mp heq))
  have hins : insertEmail (rowOf json p.email p.sql.createdAt) db
      = some { db with emails := db.emails ++ [inputRow json p.input] } := by
    rw [insertEmail, hany]
    rfl
  have hatts : insertAttachments p.sql p.email
      { db with emails := db.emails ++ [inputRow json p.input] } = insertedSome json p db := by
    rw [insertAttachments, insertedSome, kept, List.map_map]
    rfl
  have hlen : (insertedSome json p db).emails.length = db.emails.length + 1 :=
    List.length_append
  rw [push, hins]
  cases p.sql.insertFails with
  | true => rfl
  | false =>
      show enforceMax p.sql max (insertAttachments p.sql p.email _) = _
      rw [hatts, enforceMax, hlen]
      cases p.sql.countFails with
      | true => simp
      | false =>
          cases p.sql.deleteFails with
          | true => simp
          | false =>
              simp only [Bool.false_eq_true, if_false, Bool.not_false, Bool.and_true,
                Bool.or_self, decide_eq_true_eq, evicted]
              by_cases hmax : max < db.emails.length + 1
              · rw [if_pos hmax]
              · rw [if_neg hmax, show db.emails.length + 1 - max = 0 by omega, List.take_zero,
                  List.map_nil, deleteEmails_nil]

/-- A push is refused for its id, or it inserts and then evicts. -/
theorem push_cases (h : PushStep json max db p db') :
    (∃ r ∈ db.emails, r.id = p.email.id) ∧ db' = db
    ∨ (∀ r ∈ db.emails, r.id ≠ p.email.id)
      ∧ db' = deleteEmails p.sql.foreignKeys (evicted max p db) (inserted json p db) := by
  obtain ⟨rfl, hok, -⟩ := h
  by_cases hid : ∃ r ∈ db.emails, r.id = p.email.id
  · refine Or.inl ⟨hid, ?_⟩
    obtain ⟨r, hr, hrid⟩ := hid
    have hany : db.emails.any (·.id == (rowOf json p.email p.sql.createdAt).id) = true :=
      List.any_eq_true.mpr ⟨r, hr, beq_iff_eq.mpr hrid⟩
    rw [push, hok.insert, insertEmail, hany]
    rfl
  · have hfresh : ∀ r ∈ db.emails, r.id ≠ p.email.id := fun r hr heq => hid ⟨r, hr, heq⟩
    have hkept : kept p = p.email.attachments :=
      kept_eq_self_iff.mpr (fun i _ => hok.attachment i)
    have hall : insertedSome json p db = inserted json p db := by
      rw [insertedSome, hkept]
      rfl
    refine Or.inr ⟨hfresh, ?_⟩
    rw [push_failing hfresh, hok.insert, hok.count, hok.delete, hall]
    rfl

/-- **Every operation deletes some emails, which a push does behind its
    insertions**; the deletion follows the foreign keys where they are enforced. -/
theorem opStep_cases (h : OpStep json st op st') :
    ∃ foreignKeys ids, (op.Enforced → foreignKeys = true)
      ∧ (st'.db = deleteEmails foreignKeys ids st.db
        ∨ ∃ p, op = .push p ∧ (∀ r ∈ st.db.emails, r.id ≠ p.email.id)
          ∧ st'.db = deleteEmails foreignKeys ids (inserted json p st.db)) := by
  cases h with
  | push p db hpush =>
      rcases push_cases hpush with ⟨-, rfl⟩ | ⟨hfresh, rfl⟩
      · exact ⟨true, [], fun _ => rfl, Or.inl (deleteEmails_nil _ _).symm⟩
      · exact ⟨p.sql.foreignKeys, _, id, Or.inr ⟨p, rfl, hfresh, rfl⟩⟩
  | remove id foreignKeys =>
      rw [SqliteStore.remove]
      by_cases hany : (!false && st.db.emails.any (·.id == id)) = true
      · rw [if_pos hany]
        exact ⟨foreignKeys, [id], fun h => h, Or.inl rfl⟩
      · rw [if_neg hany]
        exact ⟨true, [], fun _ => rfl, Or.inl (deleteEmails_nil _ _).symm⟩
  | clear foreignKeys => exact ⟨foreignKeys, _, fun h => h, Or.inl rfl⟩
  | read => exact ⟨true, [], fun _ => rfl, Or.inl (deleteEmails_nil _ _).symm⟩
  | reopen max => exact ⟨true, [], fun _ => rfl, Or.inl (deleteEmails_nil _ _).symm⟩

/-- A deletion of other emails leaves the attachments of the record. -/
theorem filter_deleteEmails {id : Text} {ids : List Text} (foreignKeys : Bool)
    (db : Database) (hid : id ∉ ids) :
    (deleteEmails foreignKeys ids db).attachments.filter (·.emailId == id)
      = db.attachments.filter (·.emailId == id) := by
  cases foreignKeys with
  | false => rfl
  | true =>
      show (db.attachments.filter _).filter _ = _
      rw [List.filter_filter]
      refine List.filter_congr (fun a _ => ?_)
      rw [Bool.and_eq_left_iff_imp, beq_iff_eq]
      rintro rfl
      simpa using hid

theorem mem_deleteEmails {foreignKeys : Bool} {ids : List Text} {r : EmailRow} :
    r ∈ (deleteEmails foreignKeys ids db).emails ↔ r ∈ db.emails ∧ r.id ∉ ids := by
  rw [deleteEmails, List.mem_filter, Bool.not_eq_true', List.contains_eq_mem,
    decide_eq_false_iff_not]

/-! ## The capacity -/

/-- A deletion leaves no more emails than there were. -/
theorem length_deleteEmails_le (foreignKeys : Bool) (ids : List Text) (db : Database) :
    (deleteEmails foreignKeys ids db).emails.length ≤ db.emails.length :=
  List.length_filter_le _ _

/-- A push that is not refused leaves the store within its maximum, however much
    it held. -/
theorem push_restores (h : PushStep json max db p db')
    (hfresh : ∀ r ∈ db.emails, r.id ≠ p.email.id) : db'.emails.length ≤ max := by
  rcases push_cases h with ⟨⟨r, hr, hid⟩, -⟩ | ⟨-, rfl⟩
  · exact absurd hid (hfresh r hr)
  · have hperm := h.orders.perm
    have hlen := hperm.length_eq
    rw [List.length_append, List.length_singleton] at hlen
    generalize hk : db.emails.length + 1 - max = k
    -- the rows in the order of the deletion: the first `k` of them go
    have hgone : (p.sql.byAge.take k).filter (fun r => !(evicted max p db).contains r.id)
        = [] := by
      refine List.filter_eq_nil_iff.mpr (fun r hr => ?_)
      have hids : r.id ∈ evicted max p db := by
        rw [evicted, hk]
        exact List.mem_map_of_mem hr
      simpa using hids
    have hleft : (deleteEmails p.sql.foreignKeys (evicted max p db)
        (inserted json p db)).emails.length
        = (p.sql.byAge.filter (fun r => !(evicted max p db).contains r.id)).length :=
      (hperm.filter _).length_eq.symm
    rw [hleft, ← List.take_append_drop k p.sql.byAge, List.filter_append, hgone,
      List.nil_append]
    refine (List.length_filter_le _ _).trans ?_
    rw [List.length_drop]
    omega

/-- A push keeps the store within its maximum. -/
theorem push_within (h : PushStep json max db p db') (hle : db.emails.length ≤ max) :
    db'.emails.length ≤ max := by
  by_cases hid : ∃ r ∈ db.emails, r.id = p.email.id
  · rcases push_cases h with ⟨-, rfl⟩ | ⟨hfresh, -⟩
    · exact hle
    · obtain ⟨r, hr, heq⟩ := hid
      exact absurd heq (hfresh r hr)
  · exact push_restores h (fun r hr heq => hid ⟨r, hr, heq⟩)

/-- **Where the file was within the maximum, every state is.** -/
theorem opStep_within (h : OpStep json st op st') (hop : ∀ max, op ≠ .reopen max)
    (hle : st.db.emails.length ≤ st.max) :
    st'.max = st.max ∧ st'.db.emails.length ≤ st'.max := by
  cases h with
  | push p db hpush => exact ⟨rfl, push_within hpush hle⟩
  | remove id foreignKeys =>
      refine ⟨rfl, le_trans ?_ hle⟩
      rw [SqliteStore.remove]
      split_ifs
      · exact length_deleteEmails_le _ _ _
      · exact le_refl _
  | clear foreignKeys => exact ⟨rfl, (length_deleteEmails_le _ _ _).trans hle⟩
  | read => exact ⟨rfl, hle⟩
  | reopen max => exact absurd rfl (hop max)

/-- `get_all` returns as many records as there are. -/
theorem length_getAll {rows : List EmailRow} (h : AllRows db rows) :
    (getAll json (some rows) db).length = db.emails.length := by
  rw [getAll, List.length_map]
  exact h.perm.length_eq

/-- **The capacity bound across restarts.**  Of a file that is opened with a
    maximum, every state the operations lead to is within it, the first one
    included, if and only if the file was. -/
theorem within_max_iff (json : Json) (file : Option Database) (max : Nat) :
    (∀ ops st, Run (OpStep json) (openStore file max) ops st → (∀ m, .reopen m ∉ ops) →
      st.db.emails.length ≤ max
        ∧ ∀ rows, AllRows st.db rows → (getAll json (some rows) st.db).length ≤ max)
    ↔ (openStore file max).db.emails.length ≤ max := by
  constructor
  · intro h
    exact (h [] _ Run.nil (fun m => List.not_mem_nil)).1
  · intro hle ops st hrun hops
    have hI : st.max = max ∧ st.db.emails.length ≤ st.max := by
      induction hrun with
      | nil => exact ⟨rfl, hle⟩
      | @snoc ops t u op hrun hstep ih =>
          obtain ⟨hmax, hlen⟩ := ih (fun m hm => hops m (List.mem_append_left _ hm))
          obtain ⟨hmax', hlen'⟩ := opStep_within hstep
            (fun m hm => hops m (List.mem_append_right _ (hm ▸ List.mem_cons_self))) hlen
          exact ⟨hmax'.trans hmax, hlen'⟩
    have hlen : st.db.emails.length ≤ max := hI.1 ▸ hI.2
    exact ⟨hlen, fun rows hrows => (length_getAll hrows).trans_le hlen⟩

end

/-- The tables after two pushes that are some seconds apart. -/
def pairDb (seconds : Int) : Database := ⟨(twoPushes seconds).map (inputRow sampleJson), []⟩

/-- The two pushes. -/
def pairOps (seconds : Int) : List Op :=
  [.push (succeeding (received 1700000000000, 1700000000)
      [inputRow sampleJson (received 1700000000000, 1700000000)]),
    .push (succeeding (received 1700000000999, 1700000000 + seconds) (pairDb seconds).emails)]

theorem pairOps_run {seconds : Int} (h : 0 ≤ seconds) :
    Run (OpStep sampleJson) (openStore none 2) (pairOps seconds) ⟨2, pairDb seconds⟩ := by
  have hfirst : PushStep sampleJson 2 Database.empty
      (succeeding (received 1700000000000, 1700000000)
        [inputRow sampleJson (received 1700000000000, 1700000000)])
      ⟨[inputRow sampleJson (received 1700000000000, 1700000000)], []⟩ :=
    ⟨rfl, ⟨rfl, fun _ => rfl, rfl, rfl⟩, answers_self (List.pairwise_singleton _ _)⟩
  have hsorted : (pairDb seconds).emails.Pairwise (fun r r' => r.createdAt ≤ r'.createdAt) :=
    List.pairwise_pair.mpr (Int.le_add_of_nonneg_right h)
  have hsecond : PushStep sampleJson 2
      ⟨[inputRow sampleJson (received 1700000000000, 1700000000)], []⟩
      (succeeding (received 1700000000999, 1700000000 + seconds) (pairDb seconds).emails)
      (pairDb seconds) :=
    ⟨rfl, ⟨rfl, fun _ => rfl, rfl, rfl⟩, answers_self hsorted⟩
  exact (Run.single (OpStep.push _ _ hfirst)).snoc (OpStep.push _ _ hsecond)

/-- The tables after two pushes. -/
def twoEmails : Database := ⟨(twoPushes 1).map (inputRow sampleJson), []⟩

/-- A file with two emails is opened with a smaller maximum: it is left above
    it. -/
theorem reopened_above_max :
    (∃ ops, Run (OpStep sampleJson) (openStore none 2) ops ⟨2, twoEmails⟩)
      ∧ ¬ ∀ ops st, Run (OpStep sampleJson) (openStore (some twoEmails) 1) ops st →
        (∀ m, .reopen m ∉ ops) → st.db.emails.length ≤ 1
          ∧ ∀ rows, AllRows st.db rows → (getAll sampleJson (some rows) st.db).length ≤ 1 := by
  refine ⟨⟨pairOps 1, pairOps_run (by decide)⟩, fun h => ?_⟩
  have hle := (h [] _ Run.nil (fun m => List.not_mem_nil)).1
  exact absurd hle (by decide)

section

variable {json : Json} {max : Nat} {db : Database} {p : Push} {st st' : Store} {op : Op}
  {ops : List Op}

/-! ## Ids -/

/-- No two emails have one id. -/
def Distinct (db : Database) : Prop := (db.emails.map EmailRow.id).Nodup

theorem Distinct.delete (h : Distinct db) (foreignKeys : Bool) (ids : List Text) :
    Distinct (deleteEmails foreignKeys ids db) :=
  h.sublist (List.filter_sublist.map EmailRow.id)

theorem Distinct.insert (h : Distinct db) (json : Json)
    (hfresh : ∀ r ∈ db.emails, r.id ≠ p.email.id) : Distinct (inserted json p db) := by
  rw [Distinct, inserted, List.map_append, List.nodup_append]
  refine ⟨h, List.nodup_singleton _, fun id hid id' hid' => ?_⟩
  obtain ⟨r, hr, rfl⟩ := List.mem_map.mp hid
  obtain rfl := List.mem_singleton.mp hid'
  exact hfresh r hr

theorem Distinct.step (h : Distinct st.db) (hstep : OpStep json st op st') :
    Distinct st'.db := by
  obtain ⟨foreignKeys, ids, -, heq | ⟨p, -, hfresh, heq⟩⟩ := opStep_cases hstep
  · rw [heq]
    exact h.delete foreignKeys ids
  · rw [heq]
    exact (h.insert json hfresh).delete foreignKeys ids

/-- **A push with an id that is taken is refused**, so ids stay distinct. -/
theorem Distinct.run (hrun : Run (OpStep json) (openStore none max) ops st) :
    Distinct st.db := by
  induction hrun with
  | nil => exact List.nodup_nil
  | snoc _ hstep ih => exact ih.step hstep

/-! ## Attachments -/

/-- Every attachment refers to an email. -/
def Refers (db : Database) : Prop := ∀ a ∈ db.attachments, ∃ r ∈ db.emails, r.id = a.emailId

theorem Refers.delete (h : Refers db) (ids : List Text) : Refers (deleteEmails true ids db) := by
  intro a ha
  obtain ⟨hmem, hid⟩ := List.mem_filter.mp ha
  obtain ⟨r, hr, heq⟩ := h a hmem
  refine ⟨r, mem_deleteEmails.mpr ⟨hr, ?_⟩, heq⟩
  rw [heq]
  simpa using hid

theorem Refers.insert (h : Refers db) (json : Json) (p : Push) :
    Refers (inserted json p db) := by
  intro a ha
  rcases List.mem_append.mp ha with ha | ha
  · obtain ⟨r, hr, heq⟩ := h a ha
    exact ⟨r, List.mem_append_left _ hr, heq⟩
  · obtain ⟨att, -, rfl⟩ := List.mem_map.mp ha
    exact ⟨_, List.mem_append_right _ List.mem_cons_self, rfl⟩

theorem Refers.step (h : Refers st.db) (hop : op.Enforced) (hstep : OpStep json st op st') :
    Refers st'.db := by
  obtain ⟨foreignKeys, ids, hkeys, heq | ⟨p, -, -, heq⟩⟩ := opStep_cases hstep
  · rw [heq, hkeys hop]
    exact h.delete ids
  · rw [heq, hkeys hop]
    exact (h.insert json p).delete ids

theorem Refers.run (hrun : Run (OpStep json) (openStore none max) ops st)
    (hops : ∀ op ∈ ops, op.Enforced) : Refers st.db := by
  induction hrun with
  | nil => exact fun a ha => absurd ha List.not_mem_nil
  | snoc hrun hstep ih =>
      exact (ih (fun o ho => hops o (List.mem_append_left _ ho))).step
        (hops _ (List.mem_append_right _ List.mem_cons_self)) hstep

theorem loadAttachments_eq (db : Database) (id : Text) :
    loadAttachments db id = (db.attachments.filter (·.emailId == id)).map toAttachment := rfl

/-- **An attachment is looked up in its email.**  Where every attachment refers to
    an email, the first row with an email's id that passes a test is found just
    in the email that `get_by_id` returns. -/
theorem Refers.lookup (h : Refers db) (json : Json) (id : Text) (test : Attachment → Bool) :
    (db.attachments.find? (fun a => a.emailId == id && test (toAttachment a))).map toAttachment
      = (getById json false id db).bind (fun e => e.attachments.find? test) := by
  rw [getById, if_neg Bool.false_ne_true]
  cases hid : db.emails.find? (·.id == id) with
  | some row =>
      show _ = (loadAttachments db id).find? test
      rw [loadAttachments_eq, List.find?_map, List.find?_filter]
      simp only [Function.comp, Bool.decide_and, Bool.decide_eq_true]
  | none =>
      -- no email, so no row refers to it
      have hnone : db.attachments.find? (fun a => a.emailId == id && test (toAttachment a))
          = none := by
        refine List.find?_eq_none.mpr (fun a ha hpass => ?_)
        obtain ⟨r, hr, heq⟩ := h a ha
        rw [Bool.and_eq_true, beq_iff_eq] at hpass
        exact List.find?_eq_none.mp hid r hr (beq_iff_eq.mpr (heq.trans hpass.1))
      rw [hnone]
      rfl

theorem isSome_bind_find? {o : Option MailRecord} {test : Attachment → Bool} :
    (o.bind (fun e => e.attachments.find? test)).isSome = true
      ↔ ∃ e, o = some e ∧ ∃ att ∈ e.attachments, test att = true := by
  cases o with
  | none =>
      constructor
      · exact fun h => nomatch h
      · rintro ⟨e, h, -⟩
        exact nomatch h
  | some e =>
      rw [Option.bind_some, List.find?_isSome]
      constructor
      · exact fun h => ⟨e, rfl, h⟩
      · rintro ⟨e', heq, h⟩
        rwa [Option.some.inj heq]

end

/-- **Attachments live and die with their emails.**  With foreign keys enforced,
    after any operations on a new database every attachment refers to an email,
    and an attachment is found by its name or its content id just where the email
    with the id has one; what is found is what a memory store with that email
    finds. -/
theorem lookups_agree {json : Json} {max : Nat} {ops : List Op} {st : Store}
    (hops : ∀ op ∈ ops, op.Enforced) (hrun : Run (OpStep json) (openStore none max) ops st) :
    (∀ a ∈ st.db.attachments, ∃ r ∈ st.db.emails, r.id = a.emailId)
      ∧ (∀ id filename, (getAttachment false id filename st.db).isSome = true ↔
        ∃ e, getById json false id st.db = some e
          ∧ ∃ att ∈ e.attachments, att.filename = filename)
      ∧ (∀ id cid, (getAttachmentByCid false id cid st.db).isSome = true ↔
        ∃ e, getById json false id st.db = some e
          ∧ ∃ att ∈ e.attachments, att.contentId = some cid)
      ∧ ∀ (mem : MemoryStore) id, mem.getById id = getById json false id st.db →
        (∀ filename, getAttachment false id filename st.db = mem.getAttachment id filename)
          ∧ ∀ cid, getAttachmentByCid false id cid st.db = mem.getAttachmentByCid id cid := by
  have hrefers := Refers.run hrun hops
  have hname : ∀ id filename, getAttachment false id filename st.db
      = (getById json false id st.db).bind
        (fun e => e.attachments.find? (·.filename == filename)) :=
    fun id filename => hrefers.lookup json id (·.filename == filename)
  have hcid : ∀ id cid, getAttachmentByCid false id cid st.db
      = (getById json false id st.db).bind
        (fun e => e.attachments.find? (·.contentId == some cid)) :=
    fun id cid => hrefers.lookup json id (·.contentId == some cid)
  refine ⟨hrefers, fun id filename => ?_, fun id cid => ?_, fun mem id hmem => ⟨?_, ?_⟩⟩
  · rw [hname, isSome_bind_find?]
    simp only [beq_iff_eq]
  · rw [hcid, isSome_bind_find?]
    simp only [beq_iff_eq]
  · intro filename
    rw [hname, ← hmem]
    rfl
  · intro cid
    rw [hcid, ← hmem]
    rfl

/-- A record with an attachment. -/
def attached : MailRecord :=
  { received 1700000000000 with
    attachments := [⟨"a.txt".toList, "text/plain".toList, 2, some "c1".toList, [104, 105]⟩] }

/-- Its push, with foreign keys enforced. -/
def attachedPush : Push where
  email := attached
  sql :=
    { (succeeding (attached, 1700000000) [rowOf sampleJson attached 1700000000]).sql with
      foreignKeys := true }

/-- The tables after it. -/
def attachedDb : Database := push sampleJson 10 attached attachedPush.sql Database.empty

theorem attachedPush_run :
    Run (OpStep sampleJson) (openStore none 10) [.push attachedPush] ⟨10, attachedDb⟩ :=
  Run.single (OpStep.push _ _ ⟨rfl, ⟨rfl, fun _ => rfl, rfl, rfl⟩,
    answers_self (List.pairwise_singleton _ _)⟩)

theorem lookups_agree_attached :
    (getAttachment false attached.id "a.txt".toList attachedDb).isSome = true := by
  have hops : ∀ op ∈ [Op.push attachedPush], op.Enforced := by
    intro op hop
    obtain rfl := List.mem_singleton.mp hop
    rfl
  refine ((lookups_agree hops attachedPush_run).2.1 _ _).mpr ⟨_, rfl, ?_⟩
  exact ⟨_, List.mem_cons_self, rfl⟩

/-! ## Round trips -/

/-- The JSON texts of a record are read back: its recipients, and its headers as a
    map. -/
structure ReadsBack (json : Json) (email : MailRecord) : Prop where
  list : json.readList (json.list email.toAddrs) = some email.toAddrs
  map : ∃ m, json.readMap (json.map email.headers) = some m
    ∧ ∀ name, m.lookup name = email.headers.lookup name

/-- Two records agree in every field; headers are compared as maps. -/
structure SameRecord (a b : MailRecord) : Prop where
  id : a.id = b.id
  toAddrs : a.toAddrs = b.toAddrs
  fromAddr : a.fromAddr = b.fromAddr
  subject : a.subject = b.subject
  text : a.text = b.text
  html : a.html = b.html
  date : a.date = b.date
  headers : ∀ name, a.headers.lookup name = b.headers.lookup name
  attachments : a.attachments = b.attachments
  raw : a.raw = b.raw

/-- Each row is that of a pushed record, whose attachments are the rows that refer
    to it; and rows refer to pushed records only. -/
structure Faithful (json : Json) (emails : List MailRecord) (db : Database) : Prop where
  row : ∀ r ∈ db.emails, ∃ e ∈ emails, ∃ t, r = rowOf json e t
    ∧ db.attachments.filter (·.emailId == r.id) = e.attachments.map (attachmentRow e.id)
  refers : ∀ a ∈ db.attachments, ∃ e ∈ emails, e.id = a.emailId

section

variable {json : Json} {max : Nat} {db : Database} {p : Push} {st st' : Store} {op : Op}
  {ops : List Op} {emails : List MailRecord}

theorem Faithful.mono (h : Faithful json emails db) {more : List MailRecord} :
    Faithful json (emails ++ more) db := by
  refine ⟨fun r hr => ?_, fun a ha => ?_⟩
  · obtain ⟨e, he, hrow⟩ := h.row r hr
    exact ⟨e, List.mem_append_left _ he, hrow⟩
  · obtain ⟨e, he, heq⟩ := h.refers a ha
    exact ⟨e, List.mem_append_left _ he, heq⟩

/-- A deletion takes no attachment from an email it leaves. -/
theorem Faithful.delete (h : Faithful json emails db) (foreignKeys : Bool)
    (ids : List Text) : Faithful json emails (deleteEmails foreignKeys ids db) := by
  refine ⟨fun r hr => ?_, fun a ha => ?_⟩
  · obtain ⟨hmem, hid⟩ := mem_deleteEmails.mp hr
    obtain ⟨e, he, t, hrow, hatts⟩ := h.row r hmem
    refine ⟨e, he, t, hrow, ?_⟩
    rw [← hatts, filter_deleteEmails _ _ hid]
  · rw [deleteEmails] at ha
    cases foreignKeys with
    | false => exact h.refers a ha
    | true => exact h.refers a (List.mem_of_mem_filter ha)

/-- An insertion with a new id. -/
theorem Faithful.insert (h : Faithful json emails db)
    (hnew : ∀ e ∈ emails, e.id ≠ p.email.id) :
    Faithful json (emails ++ [p.email]) (inserted json p db) := by
  refine ⟨fun r hr => ?_, fun a ha => ?_⟩
  · rcases List.mem_append.mp hr with hr | hr
    · obtain ⟨e, he, t, rfl, hatts⟩ := h.row r hr
      refine ⟨e, List.mem_append_left _ he, t, rfl, ?_⟩
      -- no attachment of the new email refers to an old one
      have hnone : (p.email.attachments.map (attachmentRow p.email.id)).filter
          (·.emailId == (rowOf json e t).id) = [] := by
        refine List.filter_eq_nil_iff.mpr (fun a ha heq => ?_)
        obtain ⟨att, -, rfl⟩ := List.mem_map.mp ha
        exact hnew e he (beq_iff_eq.mp heq).symm
      rw [inserted, List.filter_append, hatts, hnone, List.append_nil]
    · obtain rfl := List.mem_singleton.mp hr
      refine ⟨p.email, List.mem_append_right _ List.mem_cons_self, p.sql.createdAt, rfl, ?_⟩
      -- and no old attachment refers to the new one
      have hnone : db.attachments.filter (·.emailId == p.email.id) = [] := by
        refine List.filter_eq_nil_iff.mpr (fun a ha heq => ?_)
        obtain ⟨e, he, hid⟩ := h.refers a ha
        exact hnew e he (hid.trans (beq_iff_eq.mp heq))
      have hall : (p.email.attachments.map (attachmentRow p.email.id)).filter
          (·.emailId == p.email.id) = p.email.attachments.map (attachmentRow p.email.id) := by
        refine List.filter_eq_self.mpr (fun a ha => ?_)
        obtain ⟨att, -, rfl⟩ := List.mem_map.mp ha
        exact beq_self_eq_true _
      show (db.attachments ++ p.email.attachments.map (attachmentRow p.email.id)).filter
        (·.emailId == p.email.id) = _
      rw [List.filter_append, hnone, hall, List.nil_append]
  · rcases List.mem_append.mp ha with ha | ha
    · obtain ⟨e, he, heq⟩ := h.refers a ha
      exact ⟨e, List.mem_append_left _ he, heq⟩
    · obtain ⟨att, -, rfl⟩ := List.mem_map.mp ha
      exact ⟨p.email, List.mem_append_right _ List.mem_cons_self, rfl⟩

theorem pushed_snoc (ops : List Op) (op : Op) :
    pushed (ops ++ [op]) = pushed ops ++ pushed [op] := by
  rw [pushed, List.filterMap_append, List.map_append]
  rfl

/-- **What an operation preserves**, where a push has a new id. -/
theorem Faithful.step (h : Faithful json (pushed ops) st.db)
    (hids : ((pushed (ops ++ [op])).map MailRecord.id).Nodup) (hstep : OpStep json st op st') :
    Faithful json (pushed (ops ++ [op])) st'.db := by
  obtain ⟨foreignKeys, ids, -, heq | ⟨p, rfl, -, heq⟩⟩ := opStep_cases hstep
  · rw [heq, pushed_snoc]
    exact (h.delete foreignKeys ids).mono
  · rw [pushed_snoc, List.map_append, List.nodup_append] at hids
    have hnew : ∀ e ∈ pushed ops, e.id ≠ p.email.id :=
      fun e he => hids.2.2 _ (List.mem_map_of_mem he) _ List.mem_cons_self
    rw [heq, pushed_snoc]
    exact (h.insert hnew).delete foreignKeys ids

theorem Faithful.run (hrun : Run (OpStep json) (openStore none max) ops st)
    (hids : ((pushed ops).map MailRecord.id).Nodup) : Faithful json (pushed ops) st.db := by
  induction hrun with
  | nil => exact ⟨fun r hr => absurd hr List.not_mem_nil, fun a ha => absurd ha List.not_mem_nil⟩
  | snoc hrun hstep ih =>
      have hids' := hids
      rw [pushed_snoc, List.map_append, List.nodup_append] at hids'
      exact (ih hids'.1).step hids hstep

/-- A row is read as the record it was made of. -/
theorem Faithful.sameRecord (h : Faithful json emails db)
    (hjson : ∀ e ∈ emails, ReadsBack json e) {r : EmailRow} (hr : r ∈ db.emails) :
    ∃ e ∈ emails, e.id = r.id ∧ SameRecord (readRow json db r) e := by
  obtain ⟨e, he, t, rfl, hatts⟩ := h.row r hr
  obtain ⟨m, hm, hlookup⟩ := (hjson e he).map
  refine ⟨e, he, rfl, rfl, ?_, rfl, rfl, rfl, rfl, rfl, fun name => ?_, ?_, rfl⟩
  · show (json.readList (json.list e.toAddrs)).getD [] = e.toAddrs
    rw [(hjson e he).list]
    rfl
  · show ((json.readMap (json.map e.headers)).getD ∅).lookup name = _
    rw [hm]
    exact hlookup name
  · show loadAttachments db (rowOf json e t).id = e.attachments
    rw [loadAttachments_eq, hatts, List.map_map]
    exact List.map_id _

end

/-- **Records come back as they went in.**  After any operations on a new
    database whose pushes have distinct ids, with closing and opening it in
    between, every record that `get_all`, `get_by_id` or `query` returns agrees in
    every field with the record pushed with its id. -/
theorem returned_as_pushed {json : Json} {max : Nat} {ops : List Op} {st : Store}
    (hjson : ∀ e ∈ pushed ops, ReadsBack json e)
    (hids : ((pushed ops).map MailRecord.id).Nodup)
    (hrun : Run (OpStep json) (openStore none max) ops st) :
    (∀ rows, AllRows st.db rows → ∀ r ∈ getAll json (some rows) st.db,
        ∃ e ∈ pushed ops, e.id = r.id ∧ SameRecord r e)
      ∧ (∀ id r, getById json false id st.db = some r →
        ∃ e ∈ pushed ops, e.id = id ∧ SameRecord r e)
      ∧ ∀ likes q rows, Answer likes q st.db rows → ∀ r ∈ query json (some rows) st.db,
        ∃ e ∈ pushed ops, e.id = r.id ∧ SameRecord r e := by
  have hI := Faithful.run hrun hids
  refine ⟨fun rows hrows r hr => ?_, fun id r hr => ?_, fun likes q rows hrows r hr => ?_⟩
  · obtain ⟨row, hrow, rfl⟩ := List.mem_map.mp hr
    exact hI.sameRecord hjson (hrows.perm.mem_iff.mp hrow)
  · rw [getById, if_neg Bool.false_ne_true] at hr
    obtain ⟨row, hrow, rfl⟩ := Option.map_eq_some_iff.mp hr
    have hpass := List.find?_some hrow
    obtain rfl : row.id = id := beq_iff_eq.mp hpass
    exact hI.sameRecord hjson (List.mem_of_find?_eq_some hrow)
  · obtain ⟨row, hrow, rfl⟩ := List.mem_map.mp hr
    exact hI.sameRecord hjson (List.mem_of_mem_filter (hrows.perm.mem_iff.mp hrow))

theorem returned_as_pushed_attached : ∃ r, getById sampleJson false attached.id attachedDb = some r
    ∧ SameRecord r attached := by
  have hjson : ∀ e ∈ pushed [.push attachedPush], ReadsBack sampleJson e := by
    intro e he
    obtain rfl := List.mem_singleton.mp he
    exact ⟨rfl, ∅, rfl, fun _ => rfl⟩
  refine ⟨_, rfl, ?_⟩
  obtain ⟨e, he, -, hsame⟩ :=
    (returned_as_pushed hjson (List.nodup_singleton _) attachedPush_run).2.1 attached.id _ rfl
  obtain rfl := List.mem_singleton.mp he
  exact hsame

end SqliteHistory
