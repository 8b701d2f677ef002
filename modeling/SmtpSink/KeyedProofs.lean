import Mathlib.Data.List.Nodup

/-! # Tables — rows with distinct keys

    A table is a list of rows of which no two have one key.  Looking a key up
    finds the only row that has it (`lookup_eq_some_iff`), and erasing a key takes
    out that row alone, whether the first row with the key is erased or every row
    with it (`eraseP_rows`).  A key that no row has is erased without effect.

    `eq_filter_of_sublist` — a part of a table that keeps its order is told by its
    keys. -/

namespace Keyed

variable {α κ : Type} {key : α → κ}

/-- Rows of which no two have one key. -/
structure Table (key : α → κ) where
  rows : List α
  nodup : (rows.map key).Nodup

/-- Rows of a table are told by their keys. -/
theorem eq_of_map_eq (t : Table key) {l l' : List α} (hl : ∀ a ∈ l, a ∈ t.rows)
    (hl' : ∀ a ∈ l', a ∈ t.rows) (h : l.map key = l'.map key) : l = l' := by
  induction l generalizing l' with
  | nil => exact (List.map_eq_nil_iff.mp h.symm).symm
  | cons a l ih =>
      cases l' with
      | nil => exact absurd h (by simp)
      | cons b l' =>
          obtain ⟨hab, hrest⟩ := List.cons.inj h
          rw [List.forall_mem_cons] at hl hl'
          rw [List.inj_on_of_nodup_map t.nodup hl.1 hl'.1 hab, ih hl.2 hl'.2 hrest]

variable [BEq κ] [LawfulBEq κ]

/-- The first row with a key. -/
def Table.lookup (t : Table key) (k : κ) : Option α := t.rows.find? (key · == k)

/-- The rows with other keys. -/
def Table.erase (t : Table key) (k : κ) : Table key where
  rows := t.rows.filter (key · != k)
  nodup := t.nodup.sublist (List.filter_sublist.map key)

variable {t : Table key} {k : κ} {a : α}

/-- **A key is looked up exactly.** -/
theorem lookup_eq_some_iff : t.lookup k = some a ↔ a ∈ t.rows ∧ key a = k := by
  constructor
  · intro h
    have hpass := List.find?_some h
    exact ⟨List.mem_of_find?_eq_some h, beq_iff_eq.mp hpass⟩
  · rintro ⟨ha, rfl⟩
    have hsome : (t.lookup (key a)).isSome = true :=
      List.find?_isSome.mpr ⟨a, ha, beq_self_eq_true _⟩
    obtain ⟨b, hb⟩ := Option.isSome_iff_exists.mp hsome
    have hpass := List.find?_some hb
    rw [hb, List.inj_on_of_nodup_map t.nodup (List.mem_of_find?_eq_some hb) ha
      (beq_iff_eq.mp hpass)]

theorem mem_erase : a ∈ (t.erase k).rows ↔ a ∈ t.rows ∧ key a ≠ k := by
  rw [Table.erase, List.mem_filter, bne_iff_ne]

/-- An erased key is not found, and every other is found as before. -/
theorem lookup_erase [DecidableEq κ] (t : Table key) (k k' : κ) :
    (t.erase k).lookup k' = if k' = k then none else t.lookup k' := by
  split_ifs with hk
  · refine List.find?_eq_none.mpr (fun a ha hpass => ?_)
    exact (mem_erase.mp ha).2 ((beq_iff_eq.mp hpass).trans hk)
  · show (t.rows.filter (key · != k)).find? (key · == k') = t.rows.find? (key · == k')
    rw [List.find?_filter]
    congr 1
    funext a
    rw [Bool.eq_iff_iff, decide_eq_true_eq, and_iff_right_iff_imp, beq_iff_eq]
    rintro rfl
    exact bne_iff_ne.mpr hk

/-- Erasing the first row with a key erases the key. -/
theorem eraseP_rows (t : Table key) (k : κ) :
    t.rows.eraseP (key · == k) = (t.erase k).rows := by
  obtain ⟨rows, hnodup⟩ := t
  show rows.eraseP (key · == k) = rows.filter (key · != k)
  induction rows with
  | nil => rfl
  | cons b rows ih =>
      rw [List.map_cons, List.nodup_cons] at hnodup
      by_cases hb : (key b == k) = true
      · -- no later row has the key
        have hrest : rows.filter (key · != k) = rows := by
          refine List.filter_eq_self.mpr (fun c hc => bne_iff_ne.mpr (fun hck => hnodup.1 ?_))
          rw [beq_iff_eq.mp hb, ← hck]
          exact List.mem_map_of_mem hc
        rw [List.eraseP_cons_of_pos (by simpa using hb),
          List.filter_cons_of_neg (by simpa using hb), hrest]
      · rw [List.eraseP_cons_of_neg (by simpa using hb),
          List.filter_cons_of_pos (by simpa using hb), ih hnodup.2]

/-- A key that no row has is erased without effect. -/
theorem erase_of_absent (h : ∀ a ∈ t.rows, key a ≠ k) : t.erase k = t := by
  obtain ⟨rows, hnodup⟩ := t
  have hall : rows.filter (key · != k) = rows :=
    List.filter_eq_self.mpr (fun a ha => bne_iff_ne.mpr (h a ha))
  simp only [Table.erase, hall]

/-- A sublist of a table is the rows with certain keys. -/
theorem eq_filter_of_sublist {rows : List α} (t : Table key) (h : rows.Sublist t.rows) :
    rows = t.rows.filter (fun a => decide (key a ∈ rows.map key)) := by
  have hnodup := t.nodup
  generalize t.rows = all at h hnodup
  induction h with
  | slnil => rfl
  | @cons rows all a h ih =>
      rw [List.map_cons, List.nodup_cons] at hnodup
      have ha : key a ∉ rows.map key := fun hk => hnodup.1 ((h.map key).subset hk)
      rw [List.filter_cons_of_neg (by simpa using ha)]
      exact ih hnodup.2
  | @cons_cons rows all a h ih =>
      rw [List.map_cons, List.nodup_cons] at hnodup
      have hrest : all.filter (fun b => decide (key b ∈ (a :: rows).map key))
          = all.filter (fun b => decide (key b ∈ rows.map key)) := by
        refine List.filter_congr (fun b hb => decide_eq_decide.mpr ?_)
        have hne : key b ≠ key a := fun hba => hnodup.1 (hba ▸ List.mem_map_of_mem hb)
        rw [List.map_cons, List.mem_cons]
        exact or_iff_right hne
      rw [List.filter_cons_of_pos (by simp), hrest, ← ih hnodup.2]

end Keyed
