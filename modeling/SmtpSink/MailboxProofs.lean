import SmtpSink.ListingProofs
import SmtpSink.RemovalProofs
import SmtpSink.SearchProofs
import SmtpSink.SerdeProofs
import SmtpSink.WindowProofs

/-! # The mailbox — what both backends stand for

    A mailbox is a window of records with the seconds of their pushes, each later
    than the one before.  A memory store holds its records, and a database whose
    foreign keys are enforced is its tables (`tables`): every operation keeps both,
    with evictions between removals and closing and opening between them
    (`Mirrors.step`).

    `backends_agree` — after any operations the two stores answer alike: the same
    records, in opposite orders, under the same ids, with the same attachments,
    and the same answers to every search that is comparable with the records. -/

namespace MailboxStore

open Utf8 SmtpRecord EmailStore Runs OrderBy SqliteStore SqliteHistory Listing Windows
open Serde (compactColumns)

/-- A window of pushed records, by their ids, each pushed in a later second. -/
structure Mailbox (max : Nat) extends
    Window (fun p : MailRecord × Int => p.1.id) max where
  increasing : rows.Pairwise (fun p q => p.2 < q.2)

/-- The tables of a database that holds some pushed records. -/
def tables (json : Json) (held : List (MailRecord × Int)) : Database where
  emails := held.map (inputRow json)
  attachments := held.flatMap (fun p => p.1.attachments.map (attachmentRow p.1.id))

/-- What an operation on a database is on a memory store. -/
def change? : Op → Option StoreOp
  | .push p => some (.push p.email)
  | .remove id _ => some (.remove id)
  | .clear _ => some .clear
  | .read | .reopen _ => none

/-- The changes among some operations, in order. -/
def changes (ops : List Op) : List StoreOp := ops.filterMap change?

/-! ## What both hold -/

/-- A database and a memory store hold the records of one mailbox, which are among
    those pushed. -/
def Mirrors (json : Json) (max : Nat) (ops : List Op) (st : Store) : Prop :=
  ∃ m : Mailbox max, st = ⟨max, tables json m.rows⟩
    ∧ Retention.after max (changes ops) = ⟨max, m.rows.map Prod.fst⟩
    ∧ ∀ p ∈ m.rows, p ∈ inputs ops

section

variable {json : Json} {max : Nat} {held : List (MailRecord × Int)} {p : Push}

/-- The attachments of some records that are not deleted. -/
theorem filter_attachments (held : List (MailRecord × Int)) (keep : Text → Bool) :
    (held.flatMap (fun p => p.1.attachments.map (attachmentRow p.1.id))).filter
        (fun a => keep a.emailId)
      = (held.filter (fun p => keep p.1.id)).flatMap
        (fun p => p.1.attachments.map (attachmentRow p.1.id)) := by
  induction held with
  | nil => rfl
  | cons p held ih =>
      rw [List.flatMap_cons, List.filter_append, ih]
      by_cases hp : keep p.1.id = true
      · have hall : (p.1.attachments.map (attachmentRow p.1.id)).filter
            (fun a => keep a.emailId) = p.1.attachments.map (attachmentRow p.1.id) := by
          refine List.filter_eq_self.mpr (fun a ha => ?_)
          obtain ⟨att, -, rfl⟩ := List.mem_map.mp ha
          exact hp
        rw [hall, List.filter_cons_of_pos (by exact hp), List.flatMap_cons]
      · have hnone : (p.1.attachments.map (attachmentRow p.1.id)).filter
            (fun a => keep a.emailId) = [] := by
          refine List.filter_eq_nil_iff.mpr (fun a ha => ?_)
          obtain ⟨att, -, rfl⟩ := List.mem_map.mp ha
          exact hp
        rw [hnone, List.filter_cons_of_neg (by exact hp), List.nil_append]

/-- A deletion from the tables of some records. -/
theorem deleteEmails_tables (json : Json) (held : List (MailRecord × Int)) (ids : List Text) :
    deleteEmails true ids (tables json held)
      = tables json (held.filter (fun p => !ids.contains p.1.id)) := by
  have hatts := filter_attachments held (fun id => !ids.contains id)
  rw [deleteEmails, tables, tables, if_pos rfl, hatts, List.filter_map]
  rfl

/-- An insertion into the tables of some records. -/
theorem inserted_tables (json : Json) (held : List (MailRecord × Int)) (p : Push) :
    inserted json p (tables json held) = tables json (held ++ [p.input]) := by
  rw [inserted, tables, tables, List.map_append, List.flatMap_append, List.flatMap_singleton]
  rfl

theorem refers_tables (json : Json) (held : List (MailRecord × Int)) :
    Refers (tables json held) := by
  intro a ha
  obtain ⟨p, hp, ha⟩ := List.mem_flatMap.mp ha
  obtain ⟨att, -, rfl⟩ := List.mem_map.mp ha
  exact ⟨inputRow json p, List.mem_map_of_mem hp, rfl⟩

/-- Rows of later and later seconds are returned in that order only. -/
theorem byAge_eq {byAge : List EmailRow} (hstrict : held.Pairwise (fun p q => p.2 < q.2))
    (h : Answers EmailRow.createdAt (held.map (inputRow json)) byAge) :
    byAge = held.map (inputRow json) := by
  have hrows : (held.map (inputRow json)).Pairwise (fun r r' => r.createdAt < r'.createdAt) :=
    List.pairwise_map.mpr hstrict
  have hnodup : (held.map (inputRow json)).Nodup := hrows.imp (fun hlt heq => by
    rw [heq] at hlt
    exact lt_irrefl _ hlt)
  exact (answers_unique_iff hnodup (List.Perm.refl _)).mpr hrows byAge h

/-- **A push onto the tables of a mailbox** leaves those of the mailbox with the
    record behind the others and the first ones gone that are too many. -/
theorem push_tables {m : Mailbox max} {db' : Database}
    (h : PushStep json max (tables json m.rows) p db') (hkeys : p.sql.foreignKeys = true)
    (hnew : ∀ q ∈ m.rows, q.1.id ≠ p.email.id) (hlater : ∀ q ∈ m.rows, q.2 < p.sql.createdAt) :
    db' = tables json (pushRow max m.rows p.input) := by
  rcases push_cases h with ⟨⟨r, hr, hid⟩, -⟩ | ⟨-, rfl⟩
  · obtain ⟨q, hq, rfl⟩ := List.mem_map.mp hr
    exact absurd hid (hnew q hq)
  · have hstrict : (m.rows ++ [p.input]).Pairwise (fun q q' => q.2 < q'.2) := by
      rw [List.pairwise_append]
      refine ⟨m.increasing, List.pairwise_singleton _ _, fun q hq q' hq' => ?_⟩
      obtain rfl := List.mem_singleton.mp hq'
      exact hlater q hq
    have hids : ((m.rows ++ [p.input]).map (fun q => q.1.id)).Nodup := by
      rw [List.map_append, List.nodup_append]
      refine ⟨m.nodup, List.nodup_singleton _, fun id hid id' hid' => ?_⟩
      obtain ⟨q, hq, rfl⟩ := List.mem_map.mp hid
      obtain rfl := List.mem_singleton.mp hid'
      exact hnew q hq
    have hbyAge : p.sql.byAge = (m.rows ++ [p.input]).map (inputRow json) := by
      refine byAge_eq hstrict ?_
      have horders := h.orders
      rwa [List.map_append]
    -- the oldest rows are the first ones, which are told by their ids
    have hevicted : evicted max p (tables json m.rows)
        = ((m.rows ++ [p.input]).take (m.rows.length + 1 - max)).map (fun q => q.1.id) := by
      have hlen : (tables json m.rows).emails.length = m.rows.length := List.length_map _
      rw [evicted, hbyAge, hlen, ← List.map_take, List.map_map]
      rfl
    rw [hkeys, inserted_tables, deleteEmails_tables, hevicted]
    exact congrArg (tables json) (filter_keys_eq_drop ⟨_, hids⟩ _)

theorem changes_snoc (ops : List Op) (op : Op) :
    changes (ops ++ [op]) = changes ops ++ changes [op] := List.filterMap_append

/-- What one more change makes of a memory store that holds some records. -/
theorem after_changes {ops : List Op} {op : Op} {change : StoreOp} {emails : List MailRecord}
    (hmem : Retention.after max (changes ops) = ⟨max, emails⟩) (hop : change? op = some change) :
    Retention.after max (changes (ops ++ [op])) = change.apply ⟨max, emails⟩ := by
  have hsingle : changes [op] = [change] := by
    rw [changes, List.filterMap_cons_some hop]
    rfl
  rw [changes_snoc, hsingle, Retention.after_snoc, hmem]

/-- The records of a window after a push. -/
theorem map_pushRow (max : Nat) (held : List (MailRecord × Int)) (x : MailRecord × Int) :
    (pushRow max held x).map Prod.fst
      = (held.map Prod.fst ++ [x.1]).drop ((held.map Prod.fst).length + 1 - max) := by
  rw [pushRow, List.map_drop, List.map_append, List.length_map]
  rfl

theorem apply_push_eq (held : List (MailRecord × Int)) (p : Push) :
    StoreOp.apply ⟨max, held.map Prod.fst⟩ (.push p.email)
      = ⟨max, (pushRow max held p.input).map Prod.fst⟩ := by
  have hemails := apply_push ⟨max, held.map Prod.fst⟩ p.email
  have hmax := StoreOp.apply_max ⟨max, held.map Prod.fst⟩ (.push p.email)
  rw [map_pushRow]
  exact (MemoryStore.mk.injEq ..).mpr ⟨hmax, hemails⟩

theorem apply_remove_eq (m : Mailbox max) (id : Text) :
    StoreOp.apply ⟨max, m.rows.map Prod.fst⟩ (.remove id)
      = ⟨max, (m.toWindow.erase id).rows.map Prod.fst⟩ := by
  have hemails := apply_remove ⟨max, m.rows.map Prod.fst⟩ id
  have hmax := StoreOp.apply_max ⟨max, m.rows.map Prod.fst⟩ (.remove id)
  have herase : (m.rows.map Prod.fst).eraseP (·.id == id)
      = (m.toWindow.erase id).rows.map Prod.fst := by
    rw [List.eraseP_map]
    exact congrArg (List.map Prod.fst) (Keyed.eraseP_rows m.toTable id)
  exact (MemoryStore.mk.injEq ..).mpr ⟨hmax, hemails.trans herase⟩

theorem remove_tables (m : Mailbox max) (id : Text) :
    (SqliteStore.remove true false id (tables json m.rows)).1
      = tables json (m.toWindow.erase id).rows := by
  have hkeep : ∀ q : MailRecord × Int, (! [id].contains q.1.id) = (q.1.id != id) := by
    intro q
    rw [List.contains_cons, List.contains_nil, Bool.or_false]
    rfl
  rw [Removal.remove_eq_delete (refers_tables json m.rows), deleteEmails_tables]
  simp only [hkeep]
  rfl

theorem clear_tables (held : List (MailRecord × Int)) :
    SqliteStore.clear true false (tables json held) = tables json [] := by
  have hgone : held.filter (fun p => !((tables json held).emails.map EmailRow.id).contains p.1.id)
      = [] := by
    refine List.filter_eq_nil_iff.mpr (fun p hp => ?_)
    have hmem : p.1.id ∈ (tables json held).emails.map EmailRow.id :=
      List.mem_map_of_mem (f := EmailRow.id) (List.mem_map_of_mem (f := inputRow json) hp)
    simpa using hmem
  show deleteEmails true _ _ = _
  rw [deleteEmails_tables, hgone]

variable {ops : List Op} {op : Op} {st st' : Store}

/-- A push keeps both. -/
theorem Mirrors.push {db : Database} (h : Mirrors json max ops st)
    (hids : ((pushed (ops ++ [.push p])).map MailRecord.id).Nodup)
    (hclock : (inputs (ops ++ [.push p])).Pairwise (fun p q => p.2 < q.2))
    (hkeys : p.sql.foreignKeys = true) (hpush : PushStep json st.max st.db p db) :
    Mirrors json max (ops ++ [.push p]) { st with db := db } := by
  obtain ⟨m, rfl, hmem, hheld⟩ := h
  rw [pushed_snoc, List.map_append, List.nodup_append] at hids
  rw [inputs_snoc, List.pairwise_append] at hclock
  have hnew : ∀ q ∈ m.rows, q.1.id ≠ p.email.id := by
    intro q hq
    refine hids.2.2 _ ?_ _ List.mem_cons_self
    rw [pushed_eq, List.map_map]
    exact List.mem_map_of_mem (f := MailRecord.id ∘ Prod.fst) (hheld q hq)
  have hlater : ∀ q ∈ m.rows, q.2 < p.sql.createdAt :=
    fun q hq => hclock.2.2 q (hheld q hq) p.input List.mem_cons_self
  have hstrict : (pushRow max m.rows p.input).Pairwise (fun q q' => q.2 < q'.2) := by
    refine List.Pairwise.sublist (pushRow_sublist max m.rows p.input) ?_
    rw [List.pairwise_append]
    refine ⟨m.increasing, List.pairwise_singleton _ _, fun q hq q' hq' => ?_⟩
    obtain rfl := List.mem_singleton.mp hq'
    exact hlater q hq
  refine ⟨⟨m.toWindow.push p.input hnew, hstrict⟩, ?_, ?_, fun q hq => ?_⟩
  · rw [push_tables hpush hkeys hnew hlater]
    rfl
  · exact (after_changes hmem rfl).trans (apply_push_eq m.rows p)
  · rw [inputs_snoc]
    rcases List.mem_append.mp ((pushRow_sublist max m.rows p.input).subset hq) with hq | hq
    · exact List.mem_append_left _ (hheld q hq)
    · exact List.mem_append_right _ hq

/-- **Both backends stand for one mailbox**, whatever the operation. -/
theorem Mirrors.step (h : Mirrors json max ops st)
    (hids : ((pushed (ops ++ [op])).map MailRecord.id).Nodup)
    (hclock : (inputs (ops ++ [op])).Pairwise (fun p q => p.2 < q.2)) (hop : op.Enforced)
    (hmax : ∀ m, op = .reopen m → m = max) (hstep : OpStep json st op st') :
    Mirrors json max (ops ++ [op]) st' := by
  cases hstep with
  | push p db hpush => exact h.push hids hclock hop hpush
  | remove id foreignKeys =>
      obtain rfl : foreignKeys = true := hop
      obtain ⟨m, rfl, hmem, hheld⟩ := h
      refine ⟨⟨m.toWindow.erase id, m.increasing.sublist List.filter_sublist⟩, ?_, ?_, ?_⟩
      · show Store.mk max _ = _
        rw [remove_tables]
      · exact (after_changes hmem rfl).trans (apply_remove_eq m id)
      · intro q hq
        rw [inputs_snoc]
        exact List.mem_append_left _ (hheld q (List.mem_of_mem_filter hq))
  | clear foreignKeys =>
      obtain rfl : foreignKeys = true := hop
      obtain ⟨m, rfl, hmem, -⟩ := h
      refine ⟨⟨Window.empty, List.Pairwise.nil⟩, ?_, ?_, fun q hq => absurd hq List.not_mem_nil⟩
      · show Store.mk max _ = _
        rw [clear_tables]
        rfl
      · exact (after_changes hmem rfl).trans rfl
  | read =>
      obtain ⟨m, rfl, hmem, hheld⟩ := h
      refine ⟨m, rfl, ?_, fun q hq => ?_⟩
      · rw [changes_snoc, ← hmem]
        exact congrArg (Retention.after max) (List.append_nil _)
      · rw [inputs_snoc]
        exact List.mem_append_left _ (hheld q hq)
  | reopen max' =>
      obtain rfl := hmax max' rfl
      obtain ⟨m, rfl, hmem, hheld⟩ := h
      refine ⟨m, rfl, ?_, fun q hq => ?_⟩
      · rw [changes_snoc, ← hmem]
        exact congrArg (Retention.after max') (List.append_nil _)
      · rw [inputs_snoc]
        exact List.mem_append_left _ (hheld q hq)

/-- After any operations both stand for one mailbox. -/
theorem Mirrors.run (hrun : Run (OpStep json) (openStore none max) ops st)
    (hids : ((pushed ops).map MailRecord.id).Nodup)
    (hclock : (inputs ops).Pairwise (fun p q => p.2 < q.2)) (hops : ∀ op ∈ ops, op.Enforced)
    (hmax : ∀ m, .reopen m ∈ ops → m = max) : Mirrors json max ops st := by
  induction hrun with
  | nil =>
      exact ⟨⟨Window.empty, List.Pairwise.nil⟩, rfl, rfl, fun q hq => absurd hq List.not_mem_nil⟩
  | @snoc ops t u op hrun hstep ih =>
      have hids' := hids
      have hclock' := hclock
      rw [pushed_snoc, List.map_append, List.nodup_append] at hids'
      rw [inputs_snoc, List.pairwise_append] at hclock'
      refine (ih hids'.1 hclock'.1 (fun o ho => hops o (List.mem_append_left _ ho))
        (fun m hm => hmax m (List.mem_append_left _ hm))).step hids hclock
        (hops op (List.mem_append_right _ List.mem_cons_self)) (fun m hm => ?_) hstep
      exact hmax m (List.mem_append_right _ (hm ▸ List.mem_cons_self))

end

/-! ## What is answered -/

/-- A database and a memory store answer alike, where the database lists the
    newest records first. -/
structure Agree (json : Json) (db : Database) (mem : MemoryStore) : Prop where
  all : ∀ rows, AllRows db rows →
    List.Forall₂ SameRecord (SqliteStore.getAll json (some rows) db) mem.getAll.reverse
  matching : ∀ likes q rows, Search.ReadsLike likes → Search.AllComparable mem.emails q →
    Answer likes q db rows →
    List.Forall₂ SameRecord (SqliteStore.query json (some rows) db) (mem.query q).reverse
  byId : ∀ id, Option.Rel SameRecord (SqliteStore.getById json false id db) (mem.getById id)
  byName : ∀ id filename,
    SqliteStore.getAttachment false id filename db = mem.getAttachment id filename
  byCid : ∀ id cid,
    SqliteStore.getAttachmentByCid false id cid db = mem.getAttachmentByCid id cid
  removes : ∀ id, (SqliteStore.remove true false id db).2 = (mem.remove id).isSome

section

variable {json : Json} {max : Nat} {m : Mailbox max} {p : MailRecord × Int}

/-- The attachments of a record are the rows that refer to it. -/
theorem loadAttachments_tables (json : Json) (hp : p ∈ m.rows) :
    loadAttachments (tables json m.rows) p.1.id = p.1.attachments := by
  have hsingle := filter_key_eq_singleton (t := m.toTable) hp
  have hrows : (tables json m.rows).attachments.filter (·.emailId == p.1.id)
      = p.1.attachments.map (attachmentRow p.1.id) := by
    refine (filter_attachments m.rows (· == p.1.id)).trans ?_
    rw [hsingle, List.flatMap_singleton]
  rw [loadAttachments_eq, hrows, List.map_map]
  exact List.map_id _

/-- What is read for a record of the mailbox is the record. -/
theorem sameRecord_readBack (hjson : ReadsBack json p.1) (hp : p ∈ m.rows) :
    SameRecord (readBack json (tables json m.rows) p) p.1 := by
  obtain ⟨map, hmap, hlookup⟩ := hjson.map
  refine ⟨rfl, ?_, rfl, rfl, rfl, rfl, rfl, fun name => ?_, loadAttachments_tables json hp, rfl⟩
  · show (json.readList (json.list p.1.toAddrs)).getD [] = _
    rw [hjson.list]
    rfl
  · show ((json.readMap (json.map p.1.headers)).getD ∅).lookup name = _
    rw [hmap]
    exact hlookup name

/-- Records of the mailbox are listed from the newest. -/
theorem forall₂_listing (hjson : ∀ p ∈ m.rows, ReadsBack json p.1)
    {l : List (MailRecord × Int)} (hl : l.Sublist m.rows) {rows : List EmailRow}
    (h : Answers (fun r => OrderDual.toDual r.createdAt) (l.map (inputRow json)) rows) :
    List.Forall₂ SameRecord (SqliteStore.getAll json (some rows) (tables json m.rows))
      (l.map Prod.fst).reverse := by
  have hstrict : l.Pairwise (fun p q => p.2 < q.2) := m.increasing.sublist hl
  have hnodup : (l.map (inputRow json)).Nodup := by
    refine List.pairwise_map.mpr (hstrict.imp (fun hlt heq => ?_))
    exact absurd (congrArg EmailRow.createdAt heq) (ne_of_lt hlt)
  rw [getAll_of_strict _ hnodup hstrict h, ← List.map_reverse, List.forall₂_map_left_iff,
    List.forall₂_map_right_iff, List.forall₂_same]
  intro p hp
  have hmem := hl.subset (List.mem_reverse.mp hp)
  exact sameRecord_readBack (hjson p hmem) hmem

/-- A record is read by its id as the memory store finds it. -/
theorem rel_getById (hjson : ∀ p ∈ m.rows, ReadsBack json p.1) (id : Text) :
    Option.Rel SameRecord (SqliteStore.getById json false id (tables json m.rows))
      (MemoryStore.getById ⟨max, m.rows.map Prod.fst⟩ id) := by
  have hread : SqliteStore.getById json false id (tables json m.rows)
      = (m.rows.find? (fun p => p.1.id == id)).map (readBack json (tables json m.rows)) := by
    rw [Removal.getById_eq]
    show (SqliteStore.getAll json (some (m.rows.map (inputRow json))) _).find? _ = _
    rw [getAll_rows, List.find?_map]
    rfl
  have hheld : MemoryStore.getById ⟨max, m.rows.map Prod.fst⟩ id
      = (m.rows.find? (fun p => p.1.id == id)).map Prod.fst := by
    show (m.rows.map Prod.fst).find? _ = _
    rw [List.find?_map]
    rfl
  rw [hread, hheld]
  cases hfind : m.rows.find? (fun p => p.1.id == id) with
  | none => exact Option.Rel.none
  | some p =>
      have hp := List.mem_of_find?_eq_some hfind
      exact Option.Rel.some (sameRecord_readBack (hjson p hp) hp)

/-- Records that agree have the same attachments. -/
theorem bind_attachments {o o' : Option MailRecord} (h : Option.Rel SameRecord o o')
    (test : Attachment → Bool) :
    o.bind (fun e => e.attachments.find? test) = o'.bind (fun e => e.attachments.find? test) := by
  cases h with
  | none => rfl
  | some hsame =>
      rw [Option.bind_some, Option.bind_some, hsame.attachments]

/-- **Two stores that stand for one mailbox answer alike.** -/
theorem agree_tables (hjson : ∀ p ∈ m.rows, ReadsBack json p.1)
    (hlist : ∀ l, json.list l = JsonText.array l) :
    Agree json (tables json m.rows) ⟨max, m.rows.map Prod.fst⟩ where
  all rows h := forall₂_listing hjson (List.Sublist.refl _) h
  matching likes q rows hlike hcmp h := by
    have hselects : ∀ p ∈ m.rows, selects likes q (inputRow json p) = matchesQuery p.1 q :=
      fun p hp => Search.selects_rowOf hlist hlike hcmp (List.mem_map_of_mem hp) p.2
    have hrows : (tables json m.rows).emails.filter (selects likes q)
        = (m.rows.filter (fun p => matchesQuery p.1 q)).map (inputRow json) := by
      show (m.rows.map (inputRow json)).filter _ = _
      rw [List.filter_map]
      exact congrArg (List.map _) (List.filter_congr hselects)
    have hquery : MemoryStore.query ⟨max, m.rows.map Prod.fst⟩ q
        = (m.rows.filter (fun p => matchesQuery p.1 q)).map Prod.fst := List.filter_map
    rw [Answer, hrows] at h
    rw [hquery]
    exact forall₂_listing hjson List.filter_sublist h
  byId id := rel_getById hjson id
  byName id filename := ((refers_tables json m.rows).lookup json id (·.filename == filename)).trans
    (bind_attachments (rel_getById hjson id) _)
  byCid id cid := ((refers_tables json m.rows).lookup json id (·.contentId == some cid)).trans
    (bind_attachments (rel_getById hjson id) _)
  removes id := by
    have hany : (tables json m.rows).emails.any (·.id == id)
        = (m.rows.map Prod.fst).any (·.id == id) := by
      show (m.rows.map (inputRow json)).any _ = _
      rw [List.any_map, List.any_map]
      rfl
    rw [SqliteStore.remove, MemoryStore.remove, hany, Bool.not_false, Bool.true_and,
      ← List.findIdx?_isSome]
    cases (m.rows.map Prod.fst).findIdx? (·.id == id) <;> rfl

/-- What both hold is answered alike. -/
theorem Mirrors.agree {ops : List Op} {st : Store} (h : Mirrors json max ops st)
    (hlist : ∀ l, json.list l = JsonText.array l) (hjson : ∀ e ∈ pushed ops, ReadsBack json e) :
    Agree json st.db (Retention.after max (changes ops)) := by
  obtain ⟨m, rfl, hmem, hpushed⟩ := h
  rw [hmem]
  refine agree_tables (fun p hp => hjson p.1 ?_) hlist
  rw [pushed_eq]
  exact List.mem_map_of_mem (hpushed p hp)

end

/-- **Both backends answer alike over whole histories.**  After any pushes with
    distinct ids in later and later seconds, removals and clearings, with closing
    and opening the database between them, a database whose foreign keys are
    enforced and a memory store of the same maximum agree: their listings are the
    same records in opposite orders, what is found by an id, a name or a content
    id is the same, so is what a removal returns, and so is every answer to a
    search all of whose records are comparable with it. -/
theorem backends_agree {json : Json} {max : Nat} {ops : List Op} {st : Store}
    (hlist : ∀ l, json.list l = JsonText.array l) (hjson : ∀ e ∈ pushed ops, ReadsBack json e)
    (hids : ((pushed ops).map MailRecord.id).Nodup)
    (hclock : (inputs ops).Pairwise (fun p q => p.2 < q.2)) (hops : ∀ op ∈ ops, op.Enforced)
    (hmax : ∀ m, .reopen m ∈ ops → m = max)
    (hrun : Run (OpStep json) (openStore none max) ops st) :
    Agree json st.db (Retention.after max (changes ops)) :=
  (Mirrors.run hrun hids hclock hops hmax).agree hlist hjson

/-- A push of a record onto an empty database. -/
def firstPush (json : Json) (p : MailRecord × Int) : Push where
  email := p.1
  sql := { (succeeding p [inputRow json p]).sql with foreignKeys := true }

theorem firstPush_run (json : Json) (max : Nat) (p : MailRecord × Int) :
    Run (OpStep json) (openStore none max) [.push (firstPush json p)]
      ⟨max, SqliteStore.push json max p.1 (firstPush json p).sql Database.empty⟩ :=
  Run.single (OpStep.push _ _ ⟨rfl, ⟨rfl, fun _ => rfl, rfl, rfl⟩,
    answers_self (List.pairwise_singleton _ _)⟩)

theorem backends_agree_attached :
    ∃ st, Run (OpStep compactColumns) (openStore none 10)
        [.push (firstPush compactColumns (attached, 1700000000))] st
      ∧ SqliteStore.getAttachment false attached.id "a.txt".toList st.db
        = attached.attachments.head? := by
  have hrun := firstPush_run compactColumns 10 (attached, 1700000000)
  have hops : ∀ op ∈ [Op.push (firstPush compactColumns (attached, 1700000000))],
      op.Enforced := by
    intro op hop
    obtain rfl := List.mem_singleton.mp hop
    rfl
  have hmax : ∀ m, Op.reopen m ∈
      [Op.push (firstPush compactColumns (attached, 1700000000))] → m = 10 := by
    intro m hm
    have heq := List.mem_singleton.mp hm
    cases heq
  have hids : ((pushed [Op.push (firstPush compactColumns
      (attached, 1700000000))]).map MailRecord.id).Nodup := List.nodup_singleton _
  have hclock : (inputs [Op.push (firstPush compactColumns
      (attached, 1700000000))]).Pairwise (fun p q => p.2 < q.2) := List.pairwise_singleton _ _
  have hagree := backends_agree (Serde.serdeJson_list JsonText.entriesOf)
    (fun e _ => Serde.compactColumns_readsBack e) hids hclock hops hmax hrun
  exact ⟨_, hrun, (hagree.byName attached.id "a.txt".toList).trans rfl⟩

end MailboxStore
