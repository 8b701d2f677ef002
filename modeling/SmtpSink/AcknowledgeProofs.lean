import SmtpSink.EnvelopeProofs
import SmtpSink.SqliteStoreProofs

/-! # Acknowledgements — what "250 OK: queued" says about the SQLite store

    A session over a SQLite store, whose statements may fail, while others use
    the same store.  `push` returns nothing, so a refused INSERT is dropped
    without a trace, and the reply is the same.

    `acknowledged_stored_iff` gives the exact extent: in every run, the mails
    that are acknowledged while there is room for them are in the table, if and
    only if the INSERT of each of them succeeds. -/

namespace Acknowledge

open Utf8 SmtpRecord SmtpSession Runs SmtpConnection SqliteStore SmtpEnvelope

/-- The records a move stores, one after the other. -/
def pushAll (json : Json) (max : Nat) (sql : Sql) (records : List MailRecord)
    (db : Database) : Database :=
  records.foldl (fun db record => push json max record sql db) db

/-- A move of the session with what SQLite decides for its push, and the
    database before and after it. -/
structure Exchange where
  move : Move
  sql : Sql
  before : Database
  after : Database

inductive Act where
  | session (x : Exchange)
  /-- anyone else uses the store -/
  | others

/-- The move of the session. -/
def Act.exchange? : Act → Option Exchange
  | .session x => some x
  | .others => none

/-- A session and the database it stores to. -/
structure State where
  conn : Conn
  db : Database

/-- The steps of a session over a store that it shares. -/
inductive ActStep (env : Env) (cfg : SmtpConfig) (json : Json) (max : Nat) (s : State) :
    Act → State → Prop where
  | session (x : Exchange) (c : Conn) : Step env cfg s.conn x.move c → x.before = s.db →
      x.after = pushAll json max x.sql x.move.pushed s.db →
      ActStep env cfg json max s (.session x) ⟨c, x.after⟩
  | others (db : Database) : ActStep env cfg json max s .others ⟨s.conn, db⟩

/-- The table has the row of a record. -/
def Holds (json : Json) (record : MailRecord) (db : Database) : Prop :=
  ∃ createdAt, rowOf json record createdAt ∈ db.emails

/-- The INSERT of a record succeeds, or its row is already there. -/
def Inserts (json : Json) (sql : Sql) (record : MailRecord) (db : Database) : Prop :=
  (sql.insertFails = false ∧ ∀ r ∈ db.emails, r.id ≠ record.id) ∨ Holds json record db

/-- The exchange acknowledges a mail for which there is room. -/
def Acknowledges (max : Nat) (x : Exchange) : Prop :=
  x.move.Says "250 OK: queued" ∧ x.before.emails.length < max

/-- The mail of the exchange is in the table once its push has returned. -/
def Stored (json : Json) (x : Exchange) : Prop :=
  ∃ record, x.move.pushed = [record] ∧ Holds json record x.after

section

variable {env : Env} {cfg : SmtpConfig} {json : Json} {max : Nat} {s t : State} {x : Exchange}
  {l : List Act} {sql : Sql} {record : MailRecord} {db : Database}

/-- **A push stores its record just where its INSERT succeeds.** -/
theorem holds_push_iff (hroom : db.emails.length < max) :
    Holds json record (push json max record sql db) ↔ Inserts json sql record db := by
  rw [push, Inserts]
  cases hf : sql.insertFails with
  | true =>
      rw [if_pos rfl]
      exact ⟨Or.inr, fun h => h.resolve_left (fun hl => absurd hl.1.symm Bool.false_ne_true)⟩
  | false =>
      rw [if_neg Bool.false_ne_true]
      by_cases hid : ∀ r ∈ db.emails, r.id ≠ record.id
      · have hany : db.emails.any (·.id == (rowOf json record sql.createdAt).id) = false :=
          List.any_eq_false.mpr (fun r hr heq => hid r hr (beq_iff_eq.mp heq))
        rw [insertEmail, hany]
        refine iff_of_true ⟨sql.createdAt, ?_⟩ (Or.inl ⟨rfl, hid⟩)
        -- there is room, so nothing is evicted
        have hcount : ¬ max < (if sql.countFails then 0 else db.emails.length + 1) := by
          split_ifs
          · omega
          · omega
        simp [enforceMax, insertAttachments, hcount]
      · have hany : db.emails.any (·.id == (rowOf json record sql.createdAt).id) = true := by
          rw [not_forall] at hid
          obtain ⟨r, hr⟩ := hid
          rw [Classical.not_imp, not_not] at hr
          exact List.any_eq_true.mpr ⟨r, hr.1, beq_iff_eq.mpr hr.2⟩
        rw [insertEmail, hany]
        exact ⟨Or.inr, fun h => h.resolve_left (fun hl => hid hl.2)⟩

/-- An acknowledged mail is one record, which is pushed. -/
theorem acknowledged_push (h : ActStep env cfg json max s (.session x) t)
    (hqueued : x.move.Says "250 OK: queued") :
    ∃ record, x.move.pushed = [record] ∧ x.after = push json max record x.sql x.before := by
  cases h with
  | session x c hstep hbefore hafter =>
      obtain ⟨line, rest, bytes, stamp, hd⟩ := hstep.delivers hqueued .queued
      refine ⟨_, hd.pushed_eq, ?_⟩
      rw [hafter, hd.pushed_eq, hbefore]
      rfl

theorem stored_iff (h : ActStep env cfg json max s (.session x) t)
    (ha : Acknowledges max x) :
    Stored json x ↔ ∀ record ∈ x.move.pushed, Inserts json x.sql record x.before := by
  obtain ⟨record, hpushed, hafter⟩ := acknowledged_push h ha.1
  have hiff : Holds json record (push json max record x.sql x.before)
      ↔ Inserts json x.sql record x.before := holds_push_iff ha.2
  rw [← hafter] at hiff
  rw [Stored, hpushed]
  constructor
  · rintro ⟨record', heq, hholds⟩ r hr
    obtain rfl := List.singleton_inj.mp heq
    obtain rfl := List.mem_singleton.mp hr
    exact hiff.mp hholds
  · exact fun hins => ⟨record, rfl, hiff.mpr (hins record List.mem_cons_self)⟩

/-- **Acknowledged mails are stored exactly where their INSERT succeeds.** -/
theorem acknowledged_stored_iff (hrun : Run (ActStep env cfg json max) s l t) :
    (∀ x, .session x ∈ l → Acknowledges max x → Stored json x)
      ↔ ∀ x, .session x ∈ l → Acknowledges max x →
        ∀ record ∈ x.move.pushed, Inserts json x.sql record x.before := by
  refine forall_congr' (fun x => forall₂_congr (fun hx ha => ?_))
  obtain ⟨u, v, hstep⟩ := hrun.step_of_mem hx
  exact stored_iff hstep ha

end

/-! ## A client that stores one mail -/

/-- Moves over a store that nobody else uses, with one decision on every
    statement. -/
def exchanges (json : Json) (max : Nat) (sql : Sql) :
    List Move → Database → List Act × Database
  | [], db => ([], db)
  | m :: l, db =>
      let db' := pushAll json max sql m.pushed db
      let more := exchanges json max sql l db'
      (.session ⟨m, sql, db, db'⟩ :: more.1, more.2)

theorem exchanges_run {env : Env} {cfg : SmtpConfig} {json : Json} {max : Nat} {sql : Sql}
    {l : List Move} {c c' : Conn} {db : Database} (h : Run (Step env cfg) c l c') :
    Run (ActStep env cfg json max) ⟨c, db⟩ (exchanges json max sql l db).1
      ⟨c', (exchanges json max sql l db).2⟩ := by
  induction l generalizing c db with
  | nil =>
      obtain rfl := h.nil_inv
      exact Run.nil
  | cons m l ih =>
      obtain ⟨d, hstep, hrest⟩ := h.cons_inv
      exact Run.cons (ActStep.session ⟨m, sql, db, _⟩ d hstep rfl rfl) (ih hrest)

/-- Statements that succeed, but perhaps the INSERT of an email. -/
def sampleSql (insertFails : Bool) : Sql :=
  { (succeeding (received 0, 0) []).sql with insertFails := insertFails }

/-- One client stores one mail in an empty database with room for ten. -/
def oneMail (insertFails : Bool) : List Act × Database :=
  exchanges sampleJson 10 (sampleSql insertFails) (sampleRun openConfig none 4 oneSender).1
    Database.empty

instance (max : Nat) (x : Exchange) : Decidable (Acknowledges max x) :=
  inferInstanceAs (Decidable (_ ∧ _))

theorem acknowledged_stored_single :
    (∃ a ∈ (oneMail false).1, ∃ x ∈ a.exchange?, Acknowledges 10 x)
      ∧ ∀ x, .session x ∈ (oneMail false).1 → Acknowledges 10 x → Stored sampleJson x := by
  have hempty : ∀ a ∈ (oneMail false).1, ∀ x ∈ a.exchange?,
      x.sql.insertFails = false ∧ x.before.emails.length = 0 := by decide +kernel
  refine ⟨by decide +kernel,
    (acknowledged_stored_iff (exchanges_run (sampleRun_run _ _ _ _))).mpr ?_⟩
  intro x hx _ record _
  obtain ⟨hinsert, hlen⟩ := hempty _ hx x rfl
  refine Or.inl ⟨hinsert, fun r hr => ?_⟩
  rw [List.eq_nil_of_length_eq_zero hlen] at hr
  exact absurd hr List.not_mem_nil

/-- The INSERT fails, and the mail is acknowledged all the same. -/
theorem acknowledged_not_stored :
    Run (ActStep sampleEnv openConfig sampleJson 10)
        ⟨Conn.start openConfig oneSender, Database.empty⟩ (oneMail true).1
        ⟨(sampleRun openConfig none 4 oneSender).2, (oneMail true).2⟩
      ∧ ¬ ∀ x, .session x ∈ (oneMail true).1 → Acknowledges 10 x → Stored sampleJson x := by
  refine ⟨exchanges_run (sampleRun_run _ _ _ _), fun hall => ?_⟩
  have hlost : ∃ a ∈ (oneMail true).1, ∃ x ∈ a.exchange?,
      Acknowledges 10 x ∧ x.after.emails.length = 0 := by decide +kernel
  obtain ⟨a, ha, x, hx, hack, hlen⟩ := hlost
  cases a with
  | others => exact nomatch hx
  | session y =>
      obtain rfl := Option.some.inj hx
      obtain ⟨record, -, createdAt, hrow⟩ := hall y ha hack
      rw [List.eq_nil_of_length_eq_zero hlen] at hrow
      exact absurd hrow List.not_mem_nil

end Acknowledge
