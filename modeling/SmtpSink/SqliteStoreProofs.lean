import SmtpSink.JsonProofs
import SmtpSink.OrderByProofs
import SmtpSink.RunProofs
import SmtpSink.StoreProofs

/-! # The SQLite store — rows, queries, and the eviction by age

    `Database` is the two tables of the schema.  What SQLite decides for one
    `push` is a parameter of it (`Sql`): the clock's value for `created_at`,
    which statements fail, and the order in which `ORDER BY created_at` returns
    rows, which SQL leaves open among equal values; for a `query` it is the
    operator LIKE and the rows of the answer (`Answer`).  JSON texts are written
    and read outside the repository (`Json`).

    The eviction deletes the rows that come first in that order.  It is first-in
    first-out exactly when the row that has to go is strictly older than the next
    one, each time one has to go (`fifo_iff_strict`). -/

namespace SqliteStore

open Utf8 SmtpRecord EmailStore Runs OrderBy

/-- A row of the table `emails`. -/
structure EmailRow where
  id : Text
  fromAddr : Text
  toAddrs : Text
  subject : Option Text
  textBody : Option Text
  htmlBody : Option Text
  date : Text
  headers : Text
  raw : Bytes
  createdAt : Int

/-- A row of the table `attachments`. -/
structure AttachmentRow where
  emailId : Text
  filename : Text
  contentType : Text
  contentId : Option Text
  data : Bytes
  size : Nat

structure Database where
  emails : List EmailRow
  attachments : List AttachmentRow

/-- A new database. -/
def Database.empty : Database := ⟨[], []⟩

/-- The JSON texts of a list of strings and of a map of strings, and back. -/
structure Json where
  list : List Text → Text
  map : AList (fun _ : Text => Text) → Text
  readList : Text → Option (List Text)
  readMap : Text → Option (AList (fun _ : Text => Text))

/-- What SQLite decides for one push. -/
structure Sql where
  createdAt : Int
  insertFails : Bool
  attachmentFails : Nat → Bool
  countFails : Bool
  deleteFails : Bool
  /-- the rows in the order of `ORDER BY created_at ASC` -/
  byAge : List EmailRow
  /-- `ON DELETE CASCADE` is enforced -/
  foreignKeys : Bool

/-- The row a record is inserted as. -/
def rowOf (json : Json) (email : MailRecord) (createdAt : Int) : EmailRow where
  id := email.id
  fromAddr := email.fromAddr
  toAddrs := json.list email.toAddrs
  subject := email.subject
  textBody := email.text
  htmlBody := email.html
  date := email.date
  headers := json.map email.headers
  raw := email.raw
  createdAt := createdAt

/-- The row an attachment is inserted as. -/
def attachmentRow (emailId : Text) (att : Attachment) : AttachmentRow where
  emailId := emailId
  filename := att.filename
  contentType := att.contentType
  contentId := att.contentId
  data := att.data
  size := att.size

/-- The insertion of an email, refused by the primary key. -/
def insertEmail (row : EmailRow) (db : Database) : Option Database :=
  if db.emails.any (·.id == row.id) then none
  else some { db with emails := db.emails ++ [row] }

/-- The insertions of the attachments, each of which may fail. -/
def insertAttachments (sql : Sql) (email : MailRecord) (db : Database) : Database :=
  { db with
    attachments := db.attachments
      ++ (email.attachments.zipIdx.filter (fun p => !sql.attachmentFails p.2)).map
        (fun p => attachmentRow email.id p.1) }

/-- The deletion of the emails with given ids. -/
def deleteEmails (foreignKeys : Bool) (ids : List Text) (db : Database) : Database where
  emails := db.emails.filter (fun r => !ids.contains r.id)
  attachments :=
    if foreignKeys then db.attachments.filter (fun a => !ids.contains a.emailId)
    else db.attachments

/-- `enforce_max`. -/
def enforceMax (sql : Sql) (max : Nat) (db : Database) : Database :=
  let count := if sql.countFails then 0 else db.emails.length
  if max < count && !sql.deleteFails then
    deleteEmails sql.foreignKeys ((sql.byAge.take (count - max)).map EmailRow.id) db
  else db

/-- `SqliteStore::push`. -/
def push (json : Json) (max : Nat) (email : MailRecord) (sql : Sql) (db : Database) :
    Database :=
  if sql.insertFails then db
  else
    match insertEmail (rowOf json email sql.createdAt) db with
    | none => db
    | some db => enforceMax sql max (insertAttachments sql email db)

/-- The attachment a row of `attachments` is read as. -/
def toAttachment (row : AttachmentRow) : Attachment where
  filename := row.filename
  contentType := row.contentType
  size := row.size
  contentId := row.contentId
  data := row.data

/-- `row_to_record`: the columns by their places in the SELECT list, the same in
    all three statements. -/
def rowToRecord (json : Json) (row : EmailRow) : MailRecord where
  id := row.id
  toAddrs := (json.readList row.toAddrs).getD []
  fromAddr := row.fromAddr
  subject := row.subject
  text := row.textBody
  html := row.htmlBody
  date := row.date
  headers := (json.readMap row.headers).getD ∅
  attachments := []
  raw := row.raw

/-- `load_attachments`. -/
def loadAttachments (db : Database) (emailId : Text) : List Attachment :=
  (db.attachments.filter (·.emailId == emailId)).map toAttachment

/-- The record of a row with its attachments. -/
def readRow (json : Json) (db : Database) (row : EmailRow) : MailRecord :=
  { rowToRecord json row with attachments := loadAttachments db row.id }

/-- A column matches the pattern of a text; NULL does not.  `likes pattern value`
    is the operator LIKE of SQLite. -/
def columnLike (likes : Text → Text → Bool) (column : Option Text) (text : Text) : Bool :=
  match column with
  | none => false
  | some value => likes ('%' :: text ++ ['%']) value

/-- The WHERE clause of a query; texts are compared by their bytes. -/
def selects (likes : Text → Text → Bool) (query : EmailQuery) (row : EmailRow) : Bool :=
  optional (columnLike likes (some row.fromAddr)) query.fromQuery
    && optional (columnLike likes (some row.toAddrs)) query.toQuery
    && optional (columnLike likes row.subject) query.subject
    && optional (fun since => decide (encode since ≤ encode row.date)) query.sinceDate
    && optional (fun upTo => decide (encode row.date ≤ encode upTo)) query.untilDate

/-- The rows SQLite may answer a query with, the newest first. -/
def Answer (likes : Text → Text → Bool) (query : EmailQuery) (db : Database)
    (rows : List EmailRow) : Prop :=
  Answers (fun r => OrderDual.toDual r.createdAt) (db.emails.filter (selects likes query)) rows

/-- `SqliteStore::query`, given the rows of the answer, if there is one. -/
def query (json : Json) (answer : Option (List EmailRow)) (db : Database) : List MailRecord :=
  (answer.getD []).map (readRow json db)

/-- The rows SQLite may return for the whole table, the newest first. -/
def AllRows (db : Database) (rows : List EmailRow) : Prop :=
  Answers (fun r => OrderDual.toDual r.createdAt) db.emails rows

/-- `SqliteStore::get_all`, given the rows of the table, if they are returned. -/
def getAll (json : Json) (answer : Option (List EmailRow)) (db : Database) :
    List MailRecord :=
  (answer.getD []).map (readRow json db)

/-- `SqliteStore::get_by_id`; `fails` when a statement fails. -/
def getById (json : Json) (fails : Bool) (id : Text) (db : Database) : Option MailRecord :=
  if fails then none
  else (db.emails.find? (·.id == id)).map (fun row =>
    { rowToRecord json row with attachments := loadAttachments db id })

/-- `SqliteStore::get_attachment`: the first row with the email and the name. -/
def getAttachment (fails : Bool) (emailId filename : Text) (db : Database) :
    Option Attachment :=
  if fails then none
  else (db.attachments.find? (fun a => a.emailId == emailId && a.filename == filename)).map
    toAttachment

/-- `SqliteStore::get_attachment_by_cid`; NULL is no content id. -/
def getAttachmentByCid (fails : Bool) (emailId cid : Text) (db : Database) :
    Option Attachment :=
  if fails then none
  else (db.attachments.find? (fun a => a.emailId == emailId && a.contentId == some cid)).map
    toAttachment

/-- `SqliteStore::clear`. -/
def clear (foreignKeys fails : Bool) (db : Database) : Database :=
  if fails then db else deleteEmails foreignKeys (db.emails.map EmailRow.id) db

/-- `SqliteStore::remove`, and whether a row was deleted. -/
def remove (foreignKeys fails : Bool) (id : Text) (db : Database) : Database × Bool :=
  if !fails && db.emails.any (·.id == id) then (deleteEmails foreignKeys [id] db, true)
  else (db, false)

/-- A store: its maximum and its database. -/
structure Store where
  max : Nat
  db : Database

/-- `SqliteStore::open` on a file, which may not exist yet; tables that exist are
    left as they are. -/
def openStore (file : Option Database) (max : Nat) : Store := ⟨max, file.getD Database.empty⟩

/-! ## Sequences of pushes -/

/-- Every statement of the push succeeds. -/
structure Sql.Succeeds (sql : Sql) : Prop where
  insert : sql.insertFails = false
  attachment : ∀ i, sql.attachmentFails i = false
  count : sql.countFails = false
  delete : sql.deleteFails = false

/-- One push, with what SQLite decides. -/
structure Push where
  email : MailRecord
  sql : Sql

/-- The record that is pushed and the clock's value. -/
def Push.input (p : Push) : MailRecord × Int := (p.email, p.sql.createdAt)

/-- The row of a pushed record. -/
def inputRow (json : Json) (p : MailRecord × Int) : EmailRow := rowOf json p.1 p.2

/-- The successful pushes, in whatever order rows of one age are returned. -/
structure PushStep (json : Json) (max : Nat) (db : Database) (p : Push) (db' : Database) :
    Prop where
  eq : db' = push json max p.email p.sql db
  succeeds : p.sql.Succeeds
  orders : Answers EmailRow.createdAt (db.emails ++ [inputRow json p.input]) p.sql.byAge

/-- What a successful push makes of the table. -/
theorem push_emails {json : Json} {max : Nat} {db db' : Database} {p : Push}
    (h : PushStep json max db p db') (hid : ∀ r ∈ db.emails, r.id ≠ p.email.id) :
    db'.emails = (db.emails ++ [inputRow json p.input]).filter (fun r =>
      !((p.sql.byAge.take (db.emails.length + 1 - max)).map EmailRow.id).contains r.id) := by
  obtain ⟨rfl, hok, -⟩ := h
  have hany : db.emails.any (·.id == (rowOf json p.email p.sql.createdAt).id) = false := by
    rw [List.any_eq_false]
    intro r hr heq
    exact hid r hr (beq_iff_eq.mp heq)
  have hins : insertEmail (rowOf json p.email p.sql.createdAt) db
      = some { db with emails := db.emails ++ [inputRow json p.input] } := by
    rw [insertEmail, hany]
    rfl
  rw [push, hok.insert, hins]
  show (enforceMax p.sql max (insertAttachments p.sql p.email
    { db with emails := db.emails ++ [inputRow json p.input] })).emails = _
  simp only [enforceMax, hok.count, hok.delete, insertAttachments, List.length_append,
    List.length_singleton, Bool.false_eq_true, if_false, Bool.not_false, Bool.and_true,
    decide_eq_true_eq]
  by_cases hmax : max < db.emails.length + 1
  · rw [if_pos hmax]
    rfl
  · rw [if_neg hmax, show db.emails.length + 1 - max = 0 by omega]
    exact (List.filter_eq_self.mpr (fun _ _ => rfl)).symm

/-- The most recent of some pushed records, oldest first. -/
def recent (json : Json) (max : Nat) (inputs : List (MailRecord × Int)) : List EmailRow :=
  (inputs.map (inputRow json)).drop (inputs.length - max)

/-- The store evicts first-in first-out on a sequence of records and clock
    values: in whatever order rows of one age are returned, after each push the
    table holds the most recent records. -/
def Fifo (json : Json) (max : Nat) (inputs : List (MailRecord × Int)) : Prop :=
  ∀ pre post l db, inputs = pre ++ post → l.map Push.input = pre →
    Run (PushStep json max) Database.empty l db → db.emails = recent json max pre

/-- Each record that has to go is strictly older than the one after it. -/
def StrictlyOlder (max : Nat) (inputs : List (MailRecord × Int)) : Prop :=
  ∀ pre a b post, inputs = pre ++ a :: b :: post → max ≤ (b :: post).length → a.2 < b.2

section

variable {json : Json} {max : Nat} {inputs pre : List (MailRecord × Int)}

theorem recent_of_le (h : inputs.length ≤ max) :
    recent json max inputs = inputs.map (inputRow json) := by
  rw [recent, show inputs.length - max = 0 by omega, List.drop_zero]

/-- Where there are more, the oldest are missing. -/
theorem recent_append {old : List (MailRecord × Int)} (h : inputs.length = max) :
    recent json max (old ++ inputs) = inputs.map (inputRow json) := by
  rw [recent, List.length_append, h, Nat.add_sub_cancel, List.map_append,
    List.drop_left' (List.length_map _)]

/-- The eviction of the first row in the order, where ids are distinct. -/
theorem evict_first {r : EmailRow} {rows t : List EmailRow} {byAge : List EmailRow}
    (hids : ((r :: rows).map EmailRow.id).Nodup) (hbyAge : byAge = r :: t) :
    (r :: rows).filter (fun r => !((byAge.take 1).map EmailRow.id).contains r.id) = rows := by
  rw [hbyAge]
  rw [List.map_cons, List.nodup_cons] at hids
  have hrest : ∀ r' ∈ rows, r'.id ≠ r.id := by
    intro r' hr' heq
    exact hids.1 (heq ▸ List.mem_map_of_mem hr')
  rw [List.filter_cons_of_neg (by simp)]
  refine List.filter_eq_self.mpr (fun r' hr' => ?_)
  simpa using hrest r' hr'

/-- The table after one more push, where the ids are distinct. -/
theorem push_recent {db db' : Database} {p : Push} (h : PushStep json max db p db')
    (hdb : db.emails = recent json max pre)
    (hids : ((pre ++ [p.input]).map (fun q => q.1.id)).Nodup) :
    db'.emails = (db.emails ++ [inputRow json p.input]).filter (fun r =>
      !((p.sql.byAge.take (db.emails.length + 1 - max)).map EmailRow.id).contains r.id) := by
  -- the ids in the table are those of earlier records
  refine push_emails h (fun r hr heq => ?_)
  rw [hdb, recent] at hr
  obtain ⟨q, hq, rfl⟩ := List.mem_map.mp (List.mem_of_mem_drop hr)
  rw [List.map_append, List.nodup_append] at hids
  exact hids.2.2 _ (List.mem_map_of_mem hq) _ List.mem_cons_self heq

/-- The oldest record of a full table. -/
theorem exists_oldest (hmax : 1 ≤ max) (h : max ≤ pre.length) :
    ∃ old a mid, pre = old ++ a :: mid ∧ (a :: mid).length = max := by
  have hlen : (pre.drop (pre.length - max)).length = max := by
    rw [List.length_drop]
    omega
  cases hd : pre.drop (pre.length - max) with
  | nil =>
      rw [hd, List.length_nil] at hlen
      omega
  | cons a mid =>
      rw [hd] at hlen
      exact ⟨pre.take (pre.length - max), a, mid, by rw [← hd, List.take_append_drop], hlen⟩

/-- The record that has to go is strictly older than all that stay. -/
theorem StrictlyOlder.oldest {old rest : List (MailRecord × Int)} {a : MailRecord × Int}
    (hstrict : StrictlyOlder max (old ++ a :: rest)) (hlen : rest.length = max)
    (hclock : (old ++ a :: rest).Pairwise (fun q q' => q.2 ≤ q'.2)) :
    ∀ q ∈ rest, a.2 < q.2 := by
  cases rest with
  | nil => exact fun q hq => absurd hq List.not_mem_nil
  | cons b more =>
      have hab : a.2 < b.2 := hstrict old a b more rfl hlen.ge
      rw [List.pairwise_append, List.pairwise_cons, List.pairwise_cons] at hclock
      intro q hq
      rcases List.mem_cons.mp hq with rfl | hq
      · exact hab
      · exact lt_of_lt_of_le hab (hclock.2.1.2.1 q hq)

/-- A full table and the record pushed onto it. -/
theorem recent_full {db : Database} {old mid : List (MailRecord × Int)}
    {a x : MailRecord × Int} (hdb : db.emails = recent json max (old ++ a :: mid))
    (hlen : (a :: mid).length = max) :
    db.emails.length = max ∧ db.emails ++ [inputRow json x]
      = inputRow json a :: (mid ++ [x]).map (inputRow json) := by
  rw [recent_append hlen] at hdb
  refine ⟨by rw [hdb, List.length_map, hlen], ?_⟩
  rw [hdb, List.map_append]
  rfl

/-- **What a push preserves.** -/
theorem fifo_step {db db' : Database} {p : Push} (hmax : 1 ≤ max)
    (h : PushStep json max db p db') (hdb : db.emails = recent json max pre)
    (hids : ((pre ++ [p.input]).map (fun q => q.1.id)).Nodup)
    (hclock : (pre ++ [p.input]).Pairwise (fun q q' => q.2 ≤ q'.2))
    (hstrict : StrictlyOlder max (pre ++ [p.input])) :
    db'.emails = recent json max (pre ++ [p.input]) := by
  have hpush := push_recent h hdb hids
  by_cases hfull : max ≤ pre.length
  · -- one record has to go, the oldest
    obtain ⟨old, a, mid, rfl, hlen⟩ := exists_oldest hmax hfull
    obtain ⟨hcount, hrows⟩ := recent_full (x := p.input) hdb hlen
    have hsplit : (old ++ a :: mid) ++ [p.input] = old ++ a :: (mid ++ [p.input]) :=
      List.append_assoc _ _ _
    have hrest : (mid ++ [p.input]).length = max := by
      rw [List.length_append, ← hlen]
      rfl
    rw [hsplit] at hids hclock hstrict ⊢
    have hlt := hstrict.oldest hrest hclock
    have horders := h.orders
    rw [hrows] at horders
    obtain ⟨t, ht⟩ := horders.head_of_lt (by
      intro r hr
      obtain ⟨q, hq, rfl⟩ := List.mem_map.mp hr
      exact hlt q hq)
    rw [hpush, hrows, hcount, show max + 1 - max = 1 by omega]
    rw [show old ++ a :: (mid ++ [p.input]) = (old ++ [a]) ++ (mid ++ [p.input]) by simp,
      recent_append hrest]
    refine evict_first ?_ ht
    rw [List.map_append, List.nodup_append] at hids
    rw [List.map_cons, List.map_map]
    exact hids.2.1
  · -- nothing has to go
    have hlen : db.emails.length = pre.length := by
      rw [hdb, recent_of_le (by omega), List.length_map]
    rw [hpush, hlen, show pre.length + 1 - max = 0 by omega,
      recent_of_le (by rw [List.length_append]; exact (by omega : pre.length < max)),
      hdb, recent_of_le (by omega), List.map_append]
    exact List.filter_eq_self.mpr (fun _ _ => rfl)

theorem StrictlyOlder.of_append {more : List (MailRecord × Int)}
    (h : StrictlyOlder max (inputs ++ more)) : StrictlyOlder max inputs := by
  rintro pre a b post rfl hlen
  refine h pre a b (post ++ more) (by simp) (le_trans hlen ?_)
  rw [← List.cons_append, List.length_append]
  exact Nat.le_add_right _ _

/-- The table after a run of pushes. -/
theorem StrictlyOlder.run {l : List Push} {db : Database} (hmax : 1 ≤ max)
    (h : Run (PushStep json max) Database.empty l db)
    (hids : ((l.map Push.input).map (fun q => q.1.id)).Nodup)
    (hclock : (l.map Push.input).Pairwise (fun q q' => q.2 ≤ q'.2))
    (hstrict : StrictlyOlder max (l.map Push.input)) :
    db.emails = recent json max (l.map Push.input) := by
  induction h with
  | nil => exact (recent_of_le (List.length_nil.trans_le (Nat.zero_le max))).symm
  | @snoc l db db' p _ hstep ih =>
      rw [List.map_append, List.map_singleton] at hids hclock hstrict ⊢
      have hids' := hids
      rw [List.map_append, List.nodup_append] at hids'
      have hdb := ih hids'.1 (List.pairwise_append.mp hclock).1 hstrict.of_append
      exact fifo_step hmax hstep hdb hids hclock hstrict

/-- A push that succeeds. -/
def succeeding (input : MailRecord × Int) (byAge : List EmailRow) : Push where
  email := input.1
  sql :=
    { createdAt := input.2
      insertFails := false
      attachmentFails := fun _ => false
      countFails := false
      deleteFails := false
      byAge := byAge
      foreignKeys := false }

theorem succeeding_input (input : MailRecord × Int) (byAge : List EmailRow) :
    (succeeding input byAge).input = input := rfl

/-- A push succeeds with every order of the rows that is an answer. -/
theorem succeeding_step {db : Database} {input : MailRecord × Int} {byAge : List EmailRow}
    (h : Answers EmailRow.createdAt (db.emails ++ [inputRow json input]) byAge) :
    PushStep json max db (succeeding input byAge)
      (push json max input.1 (succeeding input byAge).sql db) :=
  ⟨rfl, ⟨rfl, fun _ => rfl, rfl, rfl⟩, h⟩

/-- Every sequence can be pushed. -/
theorem exists_run (json : Json) (max : Nat) (inputs : List (MailRecord × Int)) :
    ∃ l db, l.map Push.input = inputs ∧ Run (PushStep json max) Database.empty l db := by
  induction inputs using List.reverseRecOn with
  | nil => exact ⟨[], Database.empty, rfl, Run.nil⟩
  | append_singleton inputs input ih =>
      obtain ⟨l, db, rfl, hrun⟩ := ih
      obtain ⟨byAge, hbyAge⟩ :=
        exists_answers EmailRow.createdAt (db.emails ++ [inputRow json input])
      refine ⟨l ++ [succeeding input byAge], _, ?_, hrun.snoc (succeeding_step hbyAge)⟩
      rw [List.map_append]
      rfl

/-- **Two records of one age**, the older of which has to go: the younger may go
    instead. -/
theorem not_fifo_of_tie {old mid post : List (MailRecord × Int)} {a b : MailRecord × Int}
    (hlen : (b :: mid).length = max) (hab : a.2 = b.2)
    (hids : ((old ++ a :: b :: mid).map (fun q => q.1.id)).Nodup)
    (hclock : (old ++ a :: b :: mid).Pairwise (fun q q' => q.2 ≤ q'.2)) :
    ¬ Fifo json max (old ++ a :: b :: mid ++ post) := by
  intro hfifo
  -- all but the last of them are pushed
  obtain ⟨init, x, hinit⟩ : ∃ init x, b :: mid = init ++ [x] :=
    ⟨_, _, (List.dropLast_append_getLast (List.cons_ne_nil b mid)).symm⟩
  have hinitlen : (a :: init).length = max := by
    rw [← hlen, hinit, List.length_append]
    rfl
  have hsplit : old ++ a :: b :: mid = (old ++ a :: init) ++ [x] := by
    rw [hinit]
    simp
  obtain ⟨l, db, hl, hrun⟩ := exists_run json max (old ++ a :: init)
  have hdb := hfifo _ ([x] ++ post) l db (by rw [hsplit]; simp) hl hrun
  obtain ⟨hcount, hrows⟩ := recent_full (x := x) hdb hinitlen
  rw [← hinit, List.map_cons] at hrows
  -- the last one is pushed, and the younger row comes first
  have hsorted : (db.emails ++ [inputRow json x]).Pairwise
      (fun r r' => r.createdAt ≤ r'.createdAt) := by
    rw [hrows, ← List.map_cons, ← List.map_cons, List.pairwise_map]
    exact (List.pairwise_append.mp hclock).2.1
  have horder : Answers EmailRow.createdAt (db.emails ++ [inputRow json x])
      (inputRow json b :: inputRow json a :: mid.map (inputRow json)) := by
    rw [hrows] at hsorted ⊢
    exact answers_swap [] hab hsorted
  have hstep := @succeeding_step json max db x _ horder
  have hdb' := hfifo (old ++ a :: b :: mid) post (l ++ [_]) _ rfl
    (by rw [List.map_append, hl, hsplit]; rfl) (hrun.snoc hstep)
  -- the older row stays, although the record is not among the last ones
  have hpush := push_recent hstep hdb
  rw [succeeding_input, ← hsplit, hrows, hcount, show max + 1 - max = 1 by omega] at hpush
  rw [hpush hids, show old ++ a :: b :: mid = (old ++ [a]) ++ b :: mid by simp,
    recent_append hlen] at hdb'
  rw [List.map_append, List.nodup_append, List.map_cons, List.nodup_cons] at hids
  have ha : inputRow json a ∈ (b :: mid).map (inputRow json) := by
    rw [← hdb']
    refine List.mem_filter.mpr ⟨List.mem_cons_self, ?_⟩
    have hne : (inputRow json a).id ≠ (inputRow json b).id :=
      fun (heq : a.1.id = b.1.id) => hids.2.1.1 (heq ▸ List.mem_cons_self)
    simpa [succeeding] using hne
  obtain ⟨q, hq, heq⟩ := List.mem_map.mp ha
  have hid : q.1.id = a.1.id := congrArg EmailRow.id heq
  exact hids.2.1.1 (hid ▸ List.mem_map_of_mem hq)

/-- **First-in first-out holds exactly where ages decide.**  For records with
    distinct ids and a clock that does not go back, the table holds the last
    records after every push, in whatever order rows of one age are returned, if
    and only if each record that has to go is strictly older than the next. -/
theorem fifo_iff_strict (hmax : 1 ≤ max) (hids : (inputs.map (fun q => q.1.id)).Nodup)
    (hclock : inputs.Pairwise (fun q q' => q.2 ≤ q'.2)) :
    Fifo json max inputs ↔ StrictlyOlder max inputs := by
  constructor
  · rintro hfifo pre a b post rfl hlen
    have hle : a.2 ≤ b.2 := by
      rw [List.pairwise_append, List.pairwise_cons] at hclock
      exact hclock.2.1.1 b List.mem_cons_self
    refine lt_of_le_of_ne hle (fun hab => ?_)
    -- the tie shows as soon as `max` records have come behind `a`
    have hcut : pre ++ a :: b :: post
        = pre ++ a :: b :: post.take (max - 1) ++ post.drop (max - 1) := by
      simp
    have hfull : (b :: post.take (max - 1)).length = max := by
      rw [List.length_cons] at hlen ⊢
      rw [List.length_take]
      omega
    rw [hcut] at hfifo hids hclock
    rw [List.map_append, List.nodup_append] at hids
    exact not_fifo_of_tie hfull hab hids.1 (List.pairwise_append.mp hclock).1 hfifo
  · rintro hstrict pre post l db rfl rfl hrun
    rw [List.map_append, List.nodup_append] at hids
    exact StrictlyOlder.run hmax hrun hids.1 (List.pairwise_append.mp hclock).1
      hstrict.of_append

end

/-! ## A table for one record -/

/-- The texts of the records received below. -/
def sampleJson : Json where
  list := JsonText.array
  map := fun _ => "{}".toList
  readList := fun t => if t = JsonText.array ["x@y".toList] then some ["x@y".toList] else none
  readMap := fun t => if t = "{}".toList then some ∅ else none

/-- A record received at a certain time, in milliseconds. -/
def received (millis : Nat) : MailRecord :=
  parseEmail sampleEnv { sampleStamp with millis := millis } [] ⟨none, ["x@y".toList]⟩

/-- Two records, the second of which is pushed some seconds later. -/
def twoPushes (seconds : Int) : List (MailRecord × Int) :=
  [(received 1700000000000, 1700000000), (received 1700000000999, 1700000000 + seconds)]

theorem twoPushes_fifo : Fifo sampleJson 1 (twoPushes 1) := by
  refine (fifo_iff_strict (le_refl 1) (by decide +kernel) (by decide +kernel)).mpr ?_
  intro pre a b post h _
  cases pre with
  | nil =>
      cases h
      exact Int.lt_succ 1700000000
  | cons c pre =>
      have hlen := congrArg List.length h
      rw [List.length_append] at hlen
      simp only [twoPushes, List.length_cons, List.length_nil] at hlen
      omega

/-- Two pushes in one second: the record just pushed may be evicted. -/
theorem twoPushes_same_second :
    ((twoPushes 0).map (fun q => q.1.id)).Nodup
      ∧ (twoPushes 0).Pairwise (fun q q' => q.2 ≤ q'.2)
      ∧ ¬ Fifo sampleJson 1 (twoPushes 0) := by
  have hids : ((twoPushes 0).map (fun q => q.1.id)).Nodup := by decide +kernel
  have hclock : (twoPushes 0).Pairwise (fun q q' => q.2 ≤ q'.2) := by decide +kernel
  exact ⟨hids, hclock, @not_fifo_of_tie _ _ [] [] [] _ _ rfl rfl hids hclock⟩

end SqliteStore
