import SmtpSink.KeyedProofs
import SmtpSink.StoreProofs

/-! # Retention — which records the memory store holds

    Pushes, removals and clears interleave in any order, and a push evicts what
    is oldest then, so what a store holds depends on its whole history.  The
    records it holds are in the order of their pushes (`after_sublist`), which
    makes an eviction visible from outside: a record is evicted just when a push
    leaves the store full of later records (`Evicted`).

    `missing_snoc` is the step: what one more operation does to a record.
    `retained` says for every history which records are held. -/

namespace Retention

open SmtpRecord EmailStore

/-- A new store after some operations. -/
def after (max : Nat) (ops : List StoreOp) : MemoryStore :=
  ops.foldl StoreOp.apply (MemoryStore.new max)

/-- The record an operation pushes. -/
def pushed? : StoreOp → Option MailRecord
  | .push email => some email
  | .remove _ | .clear => none

/-- The records some operations push, in order. -/
def pushed (ops : List StoreOp) : List MailRecord := ops.filterMap pushed?

/-- When a record and then some operations have followed, the store is full of
    records pushed later. -/
def FullOfLater (max : Nat) (pre : List StoreOp) (email : MailRecord)
    (ops : List StoreOp) : Prop :=
  (after max (pre ++ .push email :: ops)).getAll.length = max
    ∧ ∀ e ∈ (after max (pre ++ .push email :: ops)).getAll, e ∈ pushed ops

/-- Some push, its own or one among the operations behind it, left the store full
    of records pushed later than a record. -/
def Evicted (max : Nat) (pre : List StoreOp) (email : MailRecord) (post : List StoreOp) :
    Prop :=
  ∃ ops more, post = ops ++ more ∧ (ops = [] ∨ ∃ init e, ops = init ++ [.push e])
    ∧ FullOfLater max pre email ops

/-- At or after its own push a record was cleared, removed or evicted. -/
def Dropped (max : Nat) (pre : List StoreOp) (email : MailRecord) (post : List StoreOp) :
    Prop :=
  .clear ∈ post ∨ .remove email.id ∈ post ∨ Evicted max pre email post

section

variable {max : Nat} {ops pre post : List StoreOp} {email : MailRecord} {op : StoreOp}

theorem after_snoc (max : Nat) (ops : List StoreOp) (op : StoreOp) :
    after max (ops ++ [op]) = op.apply (after max ops) := List.foldl_concat ..

@[simp] theorem after_max (max : Nat) (ops : List StoreOp) : (after max ops).max = max := by
  induction ops using List.reverseRecOn with
  | nil => rfl
  | append_singleton ops op ih => rw [after_snoc, StoreOp.apply_max, ih]

theorem pushed_append (ops ops' : List StoreOp) :
    pushed (ops ++ ops') = pushed ops ++ pushed ops' := List.filterMap_append

theorem pushed_push (ops : List StoreOp) (email : MailRecord) :
    pushed (ops ++ [.push email]) = pushed ops ++ [email] := pushed_append _ _

theorem after_push (ops : List StoreOp) (email : MailRecord) :
    (after max (ops ++ [.push email])).emails = ((after max ops).emails ++ [email]).drop
      ((after max ops).emails.length + 1 - max) := by
  rw [after_snoc, apply_push, after_max]

/-- The store never holds more than its maximum. -/
theorem after_length (max : Nat) (ops : List StoreOp) :
    (after max ops).emails.length ≤ max := by
  induction ops using List.reverseRecOn with
  | nil => exact Nat.zero_le max
  | append_singleton ops op ih =>
      cases op with
      | push email =>
          rw [after_push, List.length_drop, List.length_append, List.length_singleton]
          omega
      | remove id =>
          rw [after_snoc, apply_remove]
          exact (List.length_eraseP_le).trans ih
      | clear =>
          rw [after_snoc, apply_clear]
          exact Nat.zero_le max

/-- The records held are records pushed, in the order of their pushes. -/
theorem after_sublist (max : Nat) (ops : List StoreOp) :
    (after max ops).emails.Sublist (pushed ops) := by
  induction ops using List.reverseRecOn with
  | nil => exact List.Sublist.refl _
  | append_singleton ops op ih =>
      rw [pushed_append]
      cases op with
      | push email =>
          rw [after_push]
          exact (List.drop_sublist _ _).trans (ih.append (List.Sublist.refl _))
      | remove id =>
          rw [after_snoc, apply_remove]
          exact ((List.eraseP_sublist).trans ih).trans (List.sublist_append_left _ _)
      | clear =>
          rw [after_snoc, apply_clear]
          exact List.nil_sublist _

/-- What comes behind an element of a list in a part of it that starts there. -/
theorem sublist_of_cons {α : Type} {a : α} {l before behind : List α}
    (hnodup : (before ++ a :: behind).Nodup) (h : (a :: l).Sublist (before ++ a :: behind)) :
    l.Sublist behind := by
  obtain ⟨l₁, l₂, hl, h₁, h₂⟩ := List.sublist_append_iff.mp h
  cases l₁ with
  | nil =>
      rw [List.nil_append] at hl
      rw [← hl] at h₂
      exact List.cons_sublist_cons.mp h₂
  | cons b l₁ =>
      obtain ⟨rfl, -⟩ := List.cons.inj hl
      have ha : a ∈ before := h₁.subset List.mem_cons_self
      rw [List.nodup_append] at hnodup
      exact absurd rfl (hnodup.2.2 a ha a List.mem_cons_self)

theorem nodup_pushed (hids : ((pushed ops).map MailRecord.id).Nodup) : (pushed ops).Nodup :=
  List.Nodup.of_map _ hids

/-- A record is not among those pushed later. -/
theorem not_mem_later
    (hids : ((pushed (pre ++ .push email :: post)).map MailRecord.id).Nodup) :
    email ∉ pushed post ∧ ∀ e ∈ pushed post, e.id ≠ email.id := by
  rw [pushed_append, List.map_append, List.nodup_append] at hids
  have hcons := hids.2.1
  rw [show pushed (.push email :: post) = email :: pushed post from rfl, List.map_cons,
    List.nodup_cons] at hcons
  refine ⟨fun h => hcons.1 (List.mem_map_of_mem h), fun e he heq => hcons.1 ?_⟩
  rw [← heq]
  exact List.mem_map_of_mem he

/-- **What evicts a record.**  A push leaves a record out that was held just when
    it fills the store with later ones. -/
theorem evicts_iff {e : MailRecord}
    (hids : ((pushed (pre ++ .push email :: (ops ++ [.push e]))).map MailRecord.id).Nodup)
    (hheld : email ∈ (after max (pre ++ .push email :: ops)).emails) :
    email ∉ (after max (pre ++ .push email :: (ops ++ [.push e]))).emails
      ↔ FullOfLater max pre email (ops ++ [.push e]) := by
  constructor
  · intro hout
    have hsplit : pre ++ .push email :: (ops ++ [.push e])
        = (pre ++ .push email :: ops) ++ [.push e] := by simp
    have hnodup := nodup_pushed hids
    have hlen := after_length max (pre ++ .push email :: ops)
    have hsub := after_sublist max (pre ++ .push email :: ops)
    rw [FullOfLater, MemoryStore.getAll]
    rw [hsplit, after_push] at hout ⊢
    rw [hsplit, pushed_append, pushed_append, List.nodup_append] at hnodup
    rw [pushed_append] at hsub
    generalize (after max (pre ++ .push email :: ops)).emails = l at *
    by_cases hfull : l.length = max
    · -- the oldest record has to go, and so it is this one
      rw [hfull, show max + 1 - max = 1 by omega] at hout ⊢
      cases l with
      | nil => exact absurd hheld List.not_mem_nil
      | cons e₀ l =>
          obtain rfl : email = e₀ := (List.mem_cons.mp hheld).resolve_right
            (fun h => hout (List.mem_append_left _ h))
          have hlater : l.Sublist (pushed ops) := sublist_of_cons hnodup.1 hsub
          refine ⟨by simpa using hfull, fun e' he' => ?_⟩
          rw [pushed_push]
          rcases List.mem_append.mp he' with he' | he'
          · exact List.mem_append_left _ (hlater.subset he')
          · exact List.mem_append_right _ he'
    · -- nothing has to go
      rw [show l.length + 1 - max = 0 by omega] at hout
      exact absurd (List.mem_append_left _ hheld) hout
  · rintro ⟨-, hall⟩ hin
    exact (not_mem_later hids).1 (hall email hin)

/-- The push of a record itself leaves it out only where nothing is held. -/
theorem own_push_iff (max : Nat) (pre : List StoreOp) (email : MailRecord) :
    email ∉ (after max (pre ++ [.push email])).emails ↔ FullOfLater max pre email [] := by
  constructor
  · intro hout
    rw [FullOfLater, MemoryStore.getAll]
    rw [after_push] at hout ⊢
    have hlen := after_length max pre
    generalize (after max pre).emails = l at *
    by_cases hmax : max = 0
    · rw [hmax, List.drop_eq_nil_of_le (by rw [List.length_append]; rfl)]
      exact ⟨rfl, fun e he => he⟩
    · rw [List.drop_append_of_le_length (by omega)] at hout
      exact absurd (List.mem_append_right _ List.mem_cons_self) hout
  · rintro ⟨-, hall⟩ hin
    exact absurd (hall email hin) List.not_mem_nil

/-- A removal takes out the record with the id, where ids are distinct. -/
theorem mem_eraseP_iff {l : List MailRecord} {id : Utf8.Text}
    (hids : (l.map MailRecord.id).Nodup) :
    email ∈ l.eraseP (·.id == id) ↔ email ∈ l ∧ email.id ≠ id := by
  let t : Keyed.Table MailRecord.id := ⟨l, hids⟩
  have herase : l.eraseP (·.id == id) = (t.erase id).rows := Keyed.eraseP_rows t id
  rw [herase]
  exact Keyed.mem_erase

/-- **What one more operation does to a record.** -/
theorem missing_snoc
    (hids : ((pushed (pre ++ .push email :: (ops ++ [op]))).map MailRecord.id).Nodup) :
    email ∉ (after max (pre ++ .push email :: (ops ++ [op]))).emails ↔
      email ∉ (after max (pre ++ .push email :: ops)).emails ∨ op = .clear
      ∨ op = .remove email.id
      ∨ (∃ e, op = .push e) ∧ FullOfLater max pre email (ops ++ [op]) := by
  have hsplit : pre ++ .push email :: (ops ++ [op])
      = (pre ++ .push email :: ops) ++ [op] := by simp
  cases op with
  | clear =>
      rw [hsplit, after_snoc, apply_clear]
      exact ⟨fun _ => Or.inr (Or.inl rfl), fun _ => List.not_mem_nil⟩
  | remove id =>
      have hheld : ((after max (pre ++ .push email :: ops)).emails.map MailRecord.id).Nodup := by
        rw [hsplit, pushed_append, List.map_append, List.nodup_append] at hids
        exact hids.1.sublist ((after_sublist max _).map _)
      rw [hsplit, after_snoc, apply_remove, mem_eraseP_iff hheld, not_and_or, not_not]
      constructor
      · rintro (h | rfl)
        · exact Or.inl h
        · exact Or.inr (Or.inr (Or.inl rfl))
      · rintro (h | h | h | ⟨⟨e, h⟩, -⟩)
        · exact Or.inl h
        · exact nomatch h
        · exact Or.inr (StoreOp.remove.inj h).symm
        · exact nomatch h
  | push e =>
      by_cases hheld : email ∈ (after max (pre ++ .push email :: ops)).emails
      · rw [evicts_iff hids hheld]
        constructor
        · exact fun h => Or.inr (Or.inr (Or.inr ⟨⟨e, rfl⟩, h⟩))
        · rintro (h | h | h | ⟨-, h⟩)
          · exact absurd hheld h
          · exact nomatch h
          · exact nomatch h
          · exact h
      · refine ⟨fun _ => Or.inl hheld, fun _ hin => ?_⟩
        rw [hsplit, after_push] at hin
        rcases List.mem_append.mp (List.mem_of_mem_drop hin) with hin | hin
        · exact hheld hin
        · have hlater := (not_mem_later hids).1
          rw [pushed_push] at hlater
          exact hlater (List.mem_append_right _ hin)

/-- An eviction happens at the last operation or before it. -/
theorem evicted_snoc (max : Nat) (pre : List StoreOp) (email : MailRecord)
    (ops : List StoreOp) (op : StoreOp) :
    Evicted max pre email (ops ++ [op]) ↔ Evicted max pre email ops
      ∨ (∃ e, op = .push e) ∧ FullOfLater max pre email (ops ++ [op]) := by
  constructor
  · rintro ⟨l, more, hl, hpush, hfull⟩
    rcases List.eq_nil_or_concat more with rfl | ⟨more, op', rfl⟩
    · -- the eviction is at the end
      rw [List.append_nil] at hl
      subst hl
      rcases hpush with h | ⟨init, e, h⟩
      · exact absurd h (by simp)
      · exact Or.inr ⟨⟨e, (List.singleton_inj.mp (List.append_inj' h rfl).2)⟩, hfull⟩
    · rw [List.concat_eq_append, ← List.append_assoc] at hl
      exact Or.inl ⟨l, more, (List.append_inj' hl rfl).1, hpush, hfull⟩
  · rintro (⟨l, more, rfl, hpush, hfull⟩ | ⟨⟨e, rfl⟩, hfull⟩)
    · exact ⟨l, more ++ [op], List.append_assoc _ _ _, hpush, hfull⟩
    · exact ⟨ops ++ [.push e], [], (List.append_nil _).symm, Or.inr ⟨ops, e, rfl⟩, hfull⟩

/-- One more operation may drop a record that was not dropped before. -/
theorem dropped_snoc (max : Nat) (pre : List StoreOp) (email : MailRecord)
    (ops : List StoreOp) (op : StoreOp) :
    Dropped max pre email (ops ++ [op]) ↔ Dropped max pre email ops ∨ op = .clear
      ∨ op = .remove email.id
      ∨ (∃ e, op = .push e) ∧ FullOfLater max pre email (ops ++ [op]) := by
  rw [Dropped, Dropped, evicted_snoc, List.mem_append, List.mem_append, List.mem_singleton,
    List.mem_singleton, eq_comm (a := op), eq_comm (a := op)]
  tauto

/-- A record that was pushed is missing just where it was dropped. -/
theorem missing_iff
    (hids : ((pushed (pre ++ .push email :: post)).map MailRecord.id).Nodup) :
    email ∉ (after max (pre ++ .push email :: post)).emails ↔ Dropped max pre email post := by
  induction post using List.reverseRecOn with
  | nil =>
      rw [own_push_iff]
      constructor
      · exact fun h => Or.inr (Or.inr ⟨[], [], rfl, Or.inl rfl, h⟩)
      · rintro (h | h | ⟨ops, more, hops, -, h⟩)
        · exact absurd h List.not_mem_nil
        · exact absurd h List.not_mem_nil
        · obtain ⟨rfl, -⟩ := List.append_eq_nil_iff.mp hops.symm
          exact h
  | append_singleton ops op ih =>
      have hids' := hids
      rw [← List.cons_append, ← List.append_assoc, pushed_append, List.map_append,
        List.nodup_append] at hids'
      rw [missing_snoc hids, dropped_snoc, ih hids'.1]

/-- Where records are only pushed the last ones are held. -/
theorem after_pushes (max : Nat) {ops : List StoreOp}
    (h : ∀ op ∈ ops, ∃ email, op = .push email) :
    (after max ops).emails = (pushed ops).drop ((pushed ops).length - max) := by
  induction ops using List.reverseRecOn with
  | nil => exact List.drop_nil.symm
  | append_singleton ops op ih =>
      obtain ⟨email, rfl⟩ := h op (List.mem_append_right _ List.mem_cons_self)
      rw [after_push, ih (fun o ho => h o (List.mem_append_left _ ho)), pushed_push,
        List.length_append, List.length_singleton, List.length_drop,
        ← List.drop_append_of_le_length (Nat.sub_le _ _), List.drop_drop]
      congr 1
      omega

end

/-- **Which records a store holds.**  After any operations whose pushes have
    distinct ids it holds at most its maximum, in the order of their pushes; of a
    pushed record it is missing exactly where the record was cleared, removed or
    evicted.  Where records are only pushed it holds the last ones. -/
theorem retained (max : Nat) (ops : List StoreOp)
    (hids : ((pushed ops).map MailRecord.id).Nodup) :
    (after max ops).getAll.length ≤ max
      ∧ (after max ops).getAll.Sublist (pushed ops)
      ∧ (∀ pre email post, ops = pre ++ .push email :: post →
        (email ∉ (after max ops).getAll ↔ Dropped max pre email post))
      ∧ ((∀ op ∈ ops, ∃ email, op = .push email) →
        (after max ops).getAll = (pushed ops).drop ((pushed ops).length - max)) := by
  refine ⟨after_length max ops, after_sublist max ops, ?_, after_pushes max⟩
  rintro pre email post rfl
  exact missing_iff hids

/-- A record received at a certain time, in milliseconds. -/
def recordAt (millis : Int) : MailRecord :=
  parseEmail sampleEnv { sampleStamp with millis := millis } [] ⟨none, []⟩

theorem retained_two :
    recordAt 1 ∉ (after 1 [.push (recordAt 1), .push (recordAt 2)]).getAll := by
  have hids : ((pushed [.push (recordAt 1), .push (recordAt 2)]).map MailRecord.id).Nodup := by
    decide +kernel
  refine ((retained 1 _ hids).2.2.1 [] (recordAt 1) [.push (recordAt 2)] rfl).mpr ?_
  exact Or.inr (Or.inr ⟨[.push (recordAt 2)], [], rfl, Or.inr ⟨[], recordAt 2, rfl⟩, rfl,
    fun e he => he⟩)

end Retention
