import SmtpSink.ListingProofs

/-! # Age — which emails a database evicts, whatever ties there are

    Emails inserted in one second may be evicted in any order, so the database is
    not first-in first-out.  It never lets go of a newer email for an older one,
    though: a push leaves each row where it was, unless nothing that is left is
    older than it (`push_keeps`).

    `evicted_no_newer` — in every state that operations lead to, an email that was
    neither cleared nor removed and is not there any more is no newer than any
    email that is. -/

namespace Age

open Utf8 SmtpRecord EmailStore Runs OrderBy SqliteStore SqliteHistory Listing

section

variable {json : Json} {max : Nat} {db db' : Database} {p : Push} {st st' : Store} {op : Op}
  {ops : List Op} {r₀ : EmailRow}

/-- No row that is left is older. -/
def NoneOlder (createdAt : Int) (db : Database) : Prop := ∀ r ∈ db.emails, createdAt ≤ r.createdAt

/-- What is not among the first rows comes behind them. -/
theorem le_of_not_mem_take {sorted : List EmailRow} {k : Nat}
    (h : sorted.Pairwise (fun r r' => r.createdAt ≤ r'.createdAt)) {r r' : EmailRow}
    (hr : r ∈ sorted.take k) (hr' : r' ∈ sorted) (hout : r' ∉ sorted.take k) :
    r.createdAt ≤ r'.createdAt := by
  rw [← List.take_append_drop k sorted] at h hr'
  exact (List.pairwise_append.mp h).2.2 r hr r' ((List.mem_append.mp hr').resolve_left hout)

/-- **A push keeps a row, or leaves none that is older.** -/
theorem push_keeps (h : PushStep json max db p db') (hdb : Distinct db)
    (hnew : ∀ r ∈ db.emails, r.id ≠ p.email.id) (h₀ : r₀ ∈ db.emails ++ [inputRow json p.input]) :
    r₀ ∈ db'.emails ∨ NoneOlder r₀.createdAt db' := by
  obtain rfl : db' = deleteEmails p.sql.foreignKeys (evicted max p db) (inserted json p db) := by
    rcases push_cases h with ⟨⟨r, hr, hid⟩, -⟩ | ⟨-, heq⟩
    · exact absurd hid (hnew r hr)
    · exact heq
  have hids := hdb.insert json hnew
  have hmem := fun r => h.orders.perm.mem_iff (a := r)
  by_cases hgone : r₀.id ∈ evicted max p db
  · -- the row is among the oldest, and what is left is not
    refine Or.inr (fun r hr => ?_)
    obtain ⟨hr, hkept⟩ := mem_deleteEmails.mp hr
    obtain ⟨r₁, hr₁, heq⟩ := List.mem_map.mp hgone
    have hsame : r₁ = r₀ :=
      List.inj_on_of_nodup_map hids ((hmem r₁).mp (List.mem_of_mem_take hr₁)) h₀ heq
    rw [← hsame]
    exact le_of_not_mem_take h.orders.sorted hr₁ ((hmem r).mpr hr)
      (fun hin => hkept (List.mem_map_of_mem hin))
  · exact Or.inl (mem_deleteEmails.mpr ⟨h₀, hgone⟩)

/-- **What becomes of a row** in one operation. -/
theorem fate (hstep : OpStep json st op st') (hdb : Distinct st.db)
    (hnew : ∀ p, op = .push p → ∀ r ∈ st.db.emails, r.id ≠ p.email.id) (h₀ : r₀ ∈ st.db.emails) :
    r₀ ∈ st'.db.emails ∨ (∃ foreignKeys, op = .clear foreignKeys)
      ∨ (∃ foreignKeys, op = .remove r₀.id foreignKeys) ∨ NoneOlder r₀.createdAt st'.db := by
  cases hstep with
  | push p db hpush =>
      rcases push_keeps hpush hdb (hnew p rfl) (List.mem_append_left _ h₀) with h | h
      · exact Or.inl h
      · exact Or.inr (Or.inr (Or.inr h))
  | remove id foreignKeys =>
      by_cases hid : r₀.id = id
      · exact Or.inr (Or.inr (Or.inl ⟨foreignKeys, by rw [hid]⟩))
      · refine Or.inl ?_
        rw [SqliteStore.remove]
        split_ifs
        · exact mem_deleteEmails.mpr ⟨h₀, by simpa using hid⟩
        · exact h₀
  | clear foreignKeys => exact Or.inr (Or.inl ⟨foreignKeys, rfl⟩)
  | read => exact Or.inl h₀
  | reopen max => exact Or.inl h₀

/-- What an operation adds is no older than what was pushed before. -/
theorem NoneOlder.step {createdAt : Int} (h : NoneOlder createdAt st.db)
    (hlater : ∀ q ∈ inputs [op], createdAt ≤ q.2) (hstep : OpStep json st op st') :
    NoneOlder createdAt st'.db := by
  intro r hr
  obtain ⟨foreignKeys, ids, -, heq | ⟨p, rfl, -, heq⟩⟩ := opStep_cases hstep
  · rw [heq] at hr
    exact h r (mem_deleteEmails.mp hr).1
  · rw [heq] at hr
    rcases List.mem_append.mp (mem_deleteEmails.mp hr).1 with hr | hr
    · exact h r hr
    · obtain rfl := List.mem_singleton.mp hr
      exact hlater p.input List.mem_cons_self

/-- A pushed email is there or everything that is there is no older, as long as it
    is neither cleared nor removed. -/
def Kept (json : Json) (p : Push) (db : Database) : Prop :=
  inputRow json p.input ∈ db.emails ∨ NoneOlder p.sql.createdAt db

theorem Kept.step (h : Kept json p st.db) (hdb : Distinct st.db)
    (hnew : ∀ p, op = .push p → ∀ r ∈ st.db.emails, r.id ≠ p.email.id)
    (hlater : ∀ q ∈ inputs [op], p.sql.createdAt ≤ q.2)
    (hclear : ∀ foreignKeys, op ≠ .clear foreignKeys)
    (hremove : ∀ foreignKeys, op ≠ .remove p.email.id foreignKeys)
    (hstep : OpStep json st op st') : Kept json p st'.db := by
  rcases h with h | h
  · rcases fate hstep hdb hnew h with h | ⟨foreignKeys, h⟩ | ⟨foreignKeys, h⟩ | h
    · exact Or.inl h
    · exact absurd h (hclear foreignKeys)
    · exact absurd h (hremove foreignKeys)
    · exact Or.inr h
  · exact Or.inr (h.step hlater hstep)

/-- The ids of the emails are those of pushes, so a push of another id is new. -/
theorem push_new (hrun : Run (OpStep json) (openStore none max) ops st)
    (hids : ((pushed (ops ++ [op])).map MailRecord.id).Nodup) :
    ∀ p, op = .push p → ∀ r ∈ st.db.emails, r.id ≠ p.email.id := by
  rintro p rfl r hr
  obtain ⟨q, hq, rfl⟩ := List.mem_map.mp ((emails_sublist hrun).subset hr)
  rw [pushed_snoc, List.map_append, List.nodup_append] at hids
  refine hids.2.2 _ ?_ _ List.mem_cons_self
  rw [pushed_eq, List.map_map]
  exact List.mem_map_of_mem (f := MailRecord.id ∘ Prod.fst) hq

/-- **A pushed email is kept** until it is cleared, removed, or no newer than all
    that is left. -/
theorem kept_run (hids : ((pushed ops).map MailRecord.id).Nodup)
    (hclock : (inputs ops).Pairwise (fun p q => p.2 ≤ q.2))
    (hrun : Run (OpStep json) (openStore none max) ops st) :
    ∀ pre p post, ops = pre ++ .push p :: post → (∀ foreignKeys, .clear foreignKeys ∉ post) →
      (∀ foreignKeys, .remove p.email.id foreignKeys ∉ post) → Kept json p st.db := by
  induction hrun with
  | nil => exact fun pre p post h => absurd h (by simp)
  | @snoc ops t u op hrun hstep ih =>
      intro pre p post hops hclear hremove
      have hnew := push_new hrun hids
      have hdb := Distinct.run hrun
      rw [pushed_snoc, List.map_append, List.nodup_append] at hids
      rw [inputs_snoc, List.pairwise_append] at hclock
      rcases List.eq_nil_or_concat post with rfl | ⟨post, op', rfl⟩
      · -- the operation is the push of the email
        obtain ⟨rfl, hop⟩ := List.append_inj' hops rfl
        obtain rfl := List.singleton_inj.mp hop
        cases hstep with
        | push p db hpush =>
            exact push_keeps hpush hdb (hnew p rfl)
              (List.mem_append_right _ List.mem_cons_self)
      · rw [List.concat_eq_append] at hops hclear hremove
        rw [← List.cons_append, ← List.append_assoc] at hops
        obtain ⟨rfl, hop⟩ := List.append_inj' hops rfl
        obtain rfl := List.singleton_inj.mp hop
        have hkept := ih hids.1 hclock.1 pre p post rfl
          (fun k hk => hclear k (List.mem_append_left _ hk))
          (fun k hk => hremove k (List.mem_append_left _ hk))
        refine hkept.step hdb hnew (fun q hq => hclock.2.2 p.input ?_ q hq)
          (fun k hk => hclear k (List.mem_append_right _ (hk ▸ List.mem_cons_self)))
          (fun k hk => hremove k (List.mem_append_right _ (hk ▸ List.mem_cons_self))) hstep
        rw [inputs, List.filterMap_append, List.map_append]
        exact List.mem_append_right _ List.mem_cons_self

end

/-- **An eviction never takes a newer email for an older one.**  After any
    operations on a new database whose pushes have distinct ids and whose clock
    never goes back, with any maximum at each opening and whatever order rows of
    one second come in, a pushed email that was neither cleared nor removed since
    is there, or no email that is there was inserted in an earlier second. -/
theorem evicted_no_newer {json : Json} {max : Nat} {ops pre post : List Op} {p : Push}
    {st : Store} (hids : ((pushed ops).map MailRecord.id).Nodup)
    (hclock : (inputs ops).Pairwise (fun p q => p.2 ≤ q.2))
    (hrun : Run (OpStep json) (openStore none max) ops st) (hops : ops = pre ++ .push p :: post)
    (hclear : ∀ foreignKeys, .clear foreignKeys ∉ post)
    (hremove : ∀ foreignKeys, .remove p.email.id foreignKeys ∉ post)
    (hgone : ∀ r ∈ st.db.emails, r.id ≠ p.email.id) :
    ∀ r ∈ st.db.emails, p.sql.createdAt ≤ r.createdAt := by
  rcases kept_run hids hclock hrun pre p post hops hclear hremove with h | h
  · exact absurd rfl (hgone _ h)
  · exact h

/-- Two emails of one second, the second of which is returned first. -/
def tieOps : List Op :=
  [.push (succeeding (received 1700000000000, 1700000000)
      [inputRow sampleJson (received 1700000000000, 1700000000)]),
    .push (succeeding (received 1700000000999, 1700000000)
      [inputRow sampleJson (received 1700000000999, 1700000000),
        inputRow sampleJson (received 1700000000000, 1700000000)])]

/-- The first of them is left where there is room for one. -/
def tieDb : Database := ⟨[inputRow sampleJson (received 1700000000000, 1700000000)], []⟩

theorem tieOps_run : Run (OpStep sampleJson) (openStore none 1) tieOps ⟨1, tieDb⟩ := by
  have hfirst : PushStep sampleJson 1 Database.empty
      (succeeding (received 1700000000000, 1700000000)
        [inputRow sampleJson (received 1700000000000, 1700000000)]) tieDb :=
    ⟨rfl, ⟨rfl, fun _ => rfl, rfl, rfl⟩, answers_self (List.pairwise_singleton _ _)⟩
  have hsecond : PushStep sampleJson 1 tieDb
      (succeeding (received 1700000000999, 1700000000)
        [inputRow sampleJson (received 1700000000999, 1700000000),
          inputRow sampleJson (received 1700000000000, 1700000000)]) tieDb :=
    ⟨rfl, ⟨rfl, fun _ => rfl, rfl, rfl⟩, List.Perm.swap _ _ _,
      List.pairwise_pair.mpr (le_refl (1700000000 : Int))⟩
  exact (Run.single (OpStep.push _ _ hfirst)).snoc (OpStep.push _ _ hsecond)

theorem evicted_no_newer_tie : ∃ r ∈ tieDb.emails, 1700000000 ≤ r.createdAt := by
  refine ⟨_, List.mem_cons_self, ?_⟩
  exact evicted_no_newer (by decide +kernel) (by decide +kernel) tieOps_run
    (show tieOps = [_] ++ .push _ :: [] from rfl) (fun _ => List.not_mem_nil)
    (fun _ => List.not_mem_nil) (by decide +kernel) _ List.mem_cons_self

end Age
