import SmtpSink.RecordProofs

/-! # The memory store — a bounded list of records

    `MemoryStore` keeps its records in the order they were pushed and evicts
    from the front.  An operation that changes the records is followed by one
    notification of the watchers; `StoreOp.change` is the change alone, and
    `none` where the operation neither changes nor notifies.

    `query` keeps the records that pass five optional filters; the texts are
    compared after `to_lowercase`, the dates by their bytes. -/

namespace EmailStore

open Utf8 Unicode SmtpRecord

/-- `EmailQuery`. -/
structure EmailQuery where
  fromQuery : Option Text
  toQuery : Option Text
  subject : Option Text
  sinceDate : Option Text
  untilDate : Option Text

/-- `str::contains`. -/
def contains (s pattern : Text) : Bool := s.tails.any (pattern.isPrefixOf ·)

/-- One text contains another, both in lowercase. -/
def containsLower (s pattern : Text) : Bool :=
  contains (toLowercase s) (toLowercase pattern)

/-- A filter that is off keeps everything. -/
def optional (filter : Text → Bool) : Option Text → Bool
  | none => true
  | some text => filter text

/-- `matches_query`. -/
def matchesQuery (email : MailRecord) (query : EmailQuery) : Bool :=
  optional (containsLower email.fromAddr ·) query.fromQuery
    && optional (fun q => email.toAddrs.any (containsLower · q)) query.toQuery
    && optional (containsLower (email.subject.getD []) ·) query.subject
    && optional (fun q => !decide (encode email.date < encode q)) query.sinceDate
    && optional (fun q => !decide (encode q < encode email.date)) query.untilDate

structure MemoryStore where
  max : Nat
  emails : List MailRecord

/-- `MemoryStore::new`. -/
def MemoryStore.new (max : Nat) : MemoryStore := ⟨max, []⟩

/-- The eviction loop of `push`. -/
def evict (max : Nat) : List MailRecord → List MailRecord
  | [] => []
  | e :: es => if max < (e :: es).length then evict max es else e :: es

def MemoryStore.push (s : MemoryStore) (email : MailRecord) : MemoryStore :=
  { s with emails := evict s.max (s.emails ++ [email]) }

def MemoryStore.getAll (s : MemoryStore) : List MailRecord := s.emails

def MemoryStore.getById (s : MemoryStore) (id : Text) : Option MailRecord :=
  s.emails.find? (·.id == id)

def MemoryStore.getAttachment (s : MemoryStore) (emailId filename : Text) :
    Option Attachment :=
  (s.getById emailId).bind (fun e => e.attachments.find? (·.filename == filename))

def MemoryStore.getAttachmentByCid (s : MemoryStore) (emailId cid : Text) :
    Option Attachment :=
  (s.getById emailId).bind (fun e => e.attachments.find? (·.contentId == some cid))

def MemoryStore.query (s : MemoryStore) (q : EmailQuery) : List MailRecord :=
  s.emails.filter (matchesQuery · q)

def MemoryStore.clear (s : MemoryStore) : MemoryStore := { s with emails := [] }

/-- `remove`, when there is a record with the id. -/
def MemoryStore.remove (s : MemoryStore) (id : Text) : Option MemoryStore :=
  match s.emails.findIdx? (·.id == id) with
  | none => none
  | some pos => some { s with emails := s.emails.eraseIdx pos }

/-- The operations that change the records. -/
inductive StoreOp where
  | push (email : MailRecord)
  | remove (id : Text)
  | clear

/-- What an operation makes of the store, where it goes on to notify. -/
def StoreOp.change (s : MemoryStore) : StoreOp → Option MemoryStore
  | .push email => some (s.push email)
  | .remove id => s.remove id
  | .clear => some s.clear

/-- What an operation makes of the store. -/
def StoreOp.apply (s : MemoryStore) (op : StoreOp) : MemoryStore := (op.change s).getD s

/-- The eviction drops from the front what is too much. -/
theorem evict_eq_drop (max : Nat) (l : List MailRecord) :
    evict max l = l.drop (l.length - max) := by
  induction l with
  | nil => exact (List.drop_nil).symm
  | cons e es ih =>
      rw [evict, List.length_cons]
      by_cases h : max < es.length + 1
      · rw [if_pos h, ih, show es.length + 1 - max = (es.length - max) + 1 by omega]
        rfl
      · rw [if_neg h, show es.length + 1 - max = 0 by omega]
        rfl

/-! ## What an operation leaves -/

@[simp] theorem StoreOp.apply_max (s : MemoryStore) (op : StoreOp) :
    (op.apply s).max = s.max := by
  cases op with
  | push email => rfl
  | clear => rfl
  | remove id =>
      rw [StoreOp.apply, StoreOp.change, MemoryStore.remove]
      cases s.emails.findIdx? (·.id == id) <;> rfl

theorem apply_push (s : MemoryStore) (email : MailRecord) :
    (StoreOp.apply s (.push email)).emails
      = (s.emails ++ [email]).drop (s.emails.length + 1 - s.max) := by
  show evict s.max (s.emails ++ [email]) = _
  rw [evict_eq_drop, List.length_append, List.length_singleton]

theorem apply_remove (s : MemoryStore) (id : Text) :
    (StoreOp.apply s (.remove id)).emails = s.emails.eraseP (·.id == id) := by
  rw [StoreOp.apply, StoreOp.change, MemoryStore.remove, List.eraseP_eq_eraseIdx]
  cases s.emails.findIdx? (·.id == id) <;> rfl

theorem apply_clear (s : MemoryStore) : (StoreOp.apply s .clear).emails = [] := rfl

end EmailStore
