import SmtpSink.KeyedProofs
import SmtpSink.SqliteHistoryProofs

/-! # Listings — the order in which a database returns its emails

    `get_all` and `query` order by the second of the insertion, the newest first.
    Emails inserted in one second may come in any order, so a listing is the
    reverse of the pushes in every answer exactly when each surviving email was
    pushed in a later second than the one before it (`newest_first_iff`). -/

namespace Listing

open Utf8 SmtpRecord EmailStore Runs OrderBy SqliteStore SqliteHistory Keyed

/-- The pushes among some operations: the records, and the second of each. -/
def inputs (ops : List Op) : List (MailRecord × Int) :=
  (ops.filterMap Op.push?).map Push.input

/-- The pushes whose emails a database still has, in order. -/
def survivors (ops : List Op) (db : Database) : List (MailRecord × Int) :=
  (inputs ops).filter (fun p => decide (p.1.id ∈ db.emails.map EmailRow.id))

/-- What is read for the row of a push. -/
def readBack (json : Json) (db : Database) (p : MailRecord × Int) : MailRecord :=
  readRow json db (inputRow json p)

/-- Every answer of `get_all` is the surviving emails, and every answer of `query`
    those that match, in the reverse order of their pushes. -/
structure NewestFirst (json : Json) (ops : List Op) (db : Database) : Prop where
  all : ∀ rows, AllRows db rows →
    getAll json (some rows) db = (survivors ops db).reverse.map (readBack json db)
  matching : ∀ likes q rows, Answer likes q db rows →
    query json (some rows) db
      = ((survivors ops db).filter (fun p => selects likes q (inputRow json p))).reverse.map
        (readBack json db)

section

variable {json : Json} {max : Nat} {ops : List Op} {op : Op} {st st' : Store}

theorem inputs_snoc (ops : List Op) (op : Op) :
    inputs (ops ++ [op]) = inputs ops ++ inputs [op] := by
  rw [inputs, List.filterMap_append, List.map_append]
  rfl

theorem pushed_eq (ops : List Op) : pushed ops = (inputs ops).map Prod.fst := by
  rw [inputs, List.map_map]
  rfl

/-- The emails are pushed ones, in the order of their pushes. -/
theorem emails_sublist (hrun : Run (OpStep json) (openStore none max) ops st) :
    st.db.emails.Sublist ((inputs ops).map (inputRow json)) := by
  induction hrun with
  | nil => exact List.nil_sublist _
  | @snoc ops t u op hrun hstep ih =>
      rw [inputs_snoc, List.map_append]
      obtain ⟨foreignKeys, ids, -, heq | ⟨p, rfl, -, heq⟩⟩ := opStep_cases hstep
      · rw [heq]
        exact (List.filter_sublist.trans ih).trans (List.sublist_append_left _ _)
      · rw [heq]
        exact List.filter_sublist.trans (ih.append (List.Sublist.refl _))

/-- The emails are the rows of the surviving pushes. -/
theorem emails_eq (hids : ((pushed ops).map MailRecord.id).Nodup)
    (hrun : Run (OpStep json) (openStore none max) ops st) :
    st.db.emails = (survivors ops st.db).map (inputRow json) := by
  rw [pushed_eq, List.map_map] at hids
  have hkeys : (((inputs ops).map (inputRow json)).map EmailRow.id).Nodup := by
    rw [List.map_map]
    exact hids
  have hfilter := eq_filter_of_sublist ⟨_, hkeys⟩ (emails_sublist hrun)
  rw [List.filter_map] at hfilter
  exact hfilter

/-- What a listing reads for the rows of some pushes. -/
theorem getAll_rows (json : Json) (db : Database) (l : List (MailRecord × Int)) :
    getAll json (some (l.map (inputRow json))) db = l.map (readBack json db) := by
  rw [getAll, Option.getD_some, List.map_map]
  rfl

theorem query_eq_getAll (json : Json) (answer : Option (List EmailRow)) (db : Database) :
    query json answer db = getAll json answer db := rfl

/-- A listing tells the order of its rows, where ids are distinct. -/
theorem rows_unique {db : Database} {rows rows' : List EmailRow} (hdb : Distinct db)
    (hrows : rows.Perm db.emails) (hrows' : rows'.Perm db.emails)
    (h : getAll json (some rows) db = getAll json (some rows') db) : rows = rows' := by
  have hids : rows.map EmailRow.id = rows'.map EmailRow.id := by
    have hread := congrArg (List.map MailRecord.id) h
    rw [getAll, getAll, List.map_map, List.map_map] at hread
    exact hread
  exact eq_of_map_eq ⟨db.emails, hdb⟩ (fun r hr => hrows.mem_iff.mp hr)
    (fun r hr => hrows'.mem_iff.mp hr) hids

/-- Pushes in later and later seconds, read from the newest. -/
theorem reverse_strict (json : Json) (l : List (MailRecord × Int)) :
    (l.map (inputRow json)).reverse.Pairwise
        (fun r r' => OrderDual.toDual r.createdAt < OrderDual.toDual r'.createdAt)
      ↔ l.Pairwise (fun p p' => p.2 < p'.2) := by
  rw [List.pairwise_reverse, List.pairwise_map]
  rfl

/-- Rows of later and later seconds are listed from the newest. -/
theorem getAll_of_strict {l : List (MailRecord × Int)} {rows : List EmailRow} (db : Database)
    (hnodup : (l.map (inputRow json)).Nodup) (hstrict : l.Pairwise (fun p p' => p.2 < p'.2))
    (h : Answers (fun r => OrderDual.toDual r.createdAt) (l.map (inputRow json)) rows) :
    getAll json (some rows) db = l.reverse.map (readBack json db) := by
  have huniq := (answers_unique_iff hnodup (List.reverse_perm _)).mpr
    ((reverse_strict json l).mpr hstrict) rows h
  rw [huniq, ← List.map_reverse, getAll_rows]

end

/-- **A database lists the newest emails first exactly where no two of them came
    in one second.**  After any operations on a new database whose pushes have
    distinct ids, `get_all` and `query` return the surviving and the matching
    emails in the reverse order of their pushes, in whatever order rows of one
    second come, if and only if each surviving email was pushed in a later second
    than the one before it. -/
theorem newest_first_iff {json : Json} {max : Nat} {ops : List Op} {st : Store}
    (hids : ((pushed ops).map MailRecord.id).Nodup)
    (hrun : Run (OpStep json) (openStore none max) ops st) :
    NewestFirst json ops st.db
      ↔ (survivors ops st.db).Pairwise (fun p p' => p.2 < p'.2) := by
  have hrows := emails_eq hids hrun
  have hdb := Distinct.run hrun
  have hnodup : st.db.emails.Nodup := List.Nodup.of_map _ hdb
  have hperm : st.db.emails.reverse.Perm st.db.emails := List.reverse_perm _
  constructor
  · intro h
    have huniq : ∀ rows, AllRows st.db rows → rows = st.db.emails.reverse := by
      intro rows hanswer
      have hread : getAll json (some rows) st.db
          = getAll json (some st.db.emails.reverse) st.db := by
        rw [h.all rows hanswer, ← getAll_rows, List.map_reverse, ← hrows]
      exact rows_unique hdb hanswer.perm hperm hread
    have hstrict := (answers_unique_iff hnodup hperm).mp huniq
    rwa [hrows, reverse_strict] at hstrict
  · intro hstrict
    refine ⟨fun rows hanswer => ?_, fun likes q rows hanswer => ?_⟩
    · rw [AllRows, hrows] at hanswer
      exact getAll_of_strict st.db (hrows ▸ hnodup) hstrict hanswer
    · have hmatching : st.db.emails.filter (selects likes q)
          = ((survivors ops st.db).filter (fun p => selects likes q (inputRow json p))).map
            (inputRow json) := by
        rw [hrows, List.filter_map]
        rfl
      rw [Answer, hmatching] at hanswer
      rw [query_eq_getAll]
      exact getAll_of_strict st.db (hmatching ▸ hnodup.filter _) (hstrict.filter _) hanswer

/-- Two emails of different seconds. -/
theorem newest_first_pair :
    NewestFirst sampleJson (pairOps 1) (pairDb 1) := by
  have hids : ((pushed (pairOps 1)).map MailRecord.id).Nodup := by decide +kernel
  exact (newest_first_iff hids (pairOps_run (by decide))).mpr (by decide +kernel)

/-- Two emails of one second may be listed in the order of their pushes. -/
theorem oldest_first_tie : ¬ ∀ (json : Json) (max : Nat) (ops : List Op) (st : Store),
    ((pushed ops).map MailRecord.id).Nodup →
    (inputs ops).Pairwise (fun p p' => p.2 ≤ p'.2) →
    Run (OpStep json) (openStore none max) ops st → NewestFirst json ops st.db := by
  intro h
  have hrun : Run (OpStep sampleJson) (openStore none 2) (pairOps 0) ⟨2, pairDb 0⟩ :=
    pairOps_run (le_refl 0)
  have hlisted := (h sampleJson 2 _ _ (by decide +kernel) (by decide +kernel) hrun).all
    (pairDb 0).emails ⟨List.Perm.refl _, by decide +kernel⟩
  have hids := congrArg (List.map MailRecord.id) hlisted
  exact absurd hids (by decide +kernel)

end Listing
