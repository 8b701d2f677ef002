import Mathlib.Data.List.Chain
import Mathlib.Data.List.Sort

/-! # ORDER BY — the orders a query may return its rows in

    A query that orders its rows by a key returns a permutation of them sorted
    by the key.  Nothing is said about rows with one key: every such order is an
    answer (`Answers`), so what holds of a query is what holds of all its
    answers. -/

namespace OrderBy

variable {α κ : Type} [LinearOrder κ] {key : α → κ}

/-- The rows in an order that `ORDER BY key ASC` allows. -/
structure Answers (key : α → κ) (rows sorted : List α) : Prop where
  perm : sorted.Perm rows
  sorted : sorted.Pairwise (fun r r' => key r ≤ key r')

/-- There is an answer. -/
theorem exists_answers (key : α → κ) (rows : List α) : ∃ sorted, Answers key rows sorted := by
  refine ⟨rows.insertionSort (fun r r' => key r ≤ key r'), rows.perm_insertionSort _, ?_⟩
  have htotal : Std.Total (fun r r' : α => key r ≤ key r') := ⟨fun r r' => le_total _ _⟩
  have htrans : IsTrans α (fun r r' : α => key r ≤ key r') := ⟨fun _ _ _ => le_trans⟩
  exact rows.pairwise_insertionSort _

/-- Rows that are sorted already are an answer. -/
theorem answers_self {rows : List α} (h : rows.Pairwise (fun r r' => key r ≤ key r')) :
    Answers key rows rows := ⟨List.Perm.refl rows, h⟩

/-- **A row with the strictly least key comes first in every answer.** -/
theorem Answers.head_of_lt {a : α} {rest sorted : List α}
    (h : Answers key (a :: rest) sorted) (hlt : ∀ b ∈ rest, key a < key b) :
    ∃ t, sorted = a :: t := by
  obtain ⟨hperm, hsorted⟩ := h
  cases sorted with
  | nil => exact absurd hperm.length_eq (by simp)
  | cons x t =>
      have ha : a ∈ x :: t := hperm.mem_iff.mpr List.mem_cons_self
      have hx : x ∈ a :: rest := hperm.mem_iff.mp List.mem_cons_self
      rcases List.mem_cons.mp hx with rfl | hx
      · exact ⟨t, rfl⟩
      · rcases List.mem_cons.mp ha with rfl | ha
        · exact ⟨t, rfl⟩
        · have hle : key x ≤ key a := List.rel_of_pairwise_cons hsorted ha
          exact absurd (hlt x hx) (not_lt.mpr hle)

/-- Of two neighbours with one key, the second may come first. -/
theorem answers_swap {a b : α} (pre : List α) {post : List α} (hab : key a = key b)
    (h : (pre ++ a :: b :: post).Pairwise (fun r r' => key r ≤ key r')) :
    Answers key (pre ++ a :: b :: post) (pre ++ b :: a :: post) := by
  refine ⟨(List.Perm.swap a b post).append_left pre, ?_⟩
  rw [List.pairwise_append, List.pairwise_cons, List.pairwise_cons] at h ⊢
  obtain ⟨hpre, ⟨ha, hb, hpost⟩, hcross⟩ := h
  refine ⟨hpre, ⟨?_, fun r hr => ha r (List.mem_cons_of_mem _ hr), hpost⟩, ?_⟩
  · intro r hr
    rcases List.mem_cons.mp hr with rfl | hr
    · exact hab.ge
    · exact hb r hr
  · intro r hr r' hr'
    exact hcross r hr r' ((List.Perm.swap a b post).mem_iff.mp hr')

/-- **The order is determined exactly where no two keys are equal.** -/
theorem answers_unique_iff {rows l : List α} (hnodup : rows.Nodup) (hperm : l.Perm rows) :
    (∀ sorted, Answers key rows sorted → sorted = l)
      ↔ l.Pairwise (fun r r' => key r < key r') := by
  constructor
  · intro h
    obtain ⟨sorted, hsorted⟩ := exists_answers key rows
    obtain rfl := h sorted hsorted
    have htrans : IsTrans α (fun r r' : α => key r < key r') := ⟨fun _ _ _ => lt_trans⟩
    refine List.isChain_iff_pairwise.mp
      (List.isChain_iff_forall_rel_of_append_cons_cons.mpr ?_)
    rintro a b pre post rfl
    have hle : key a ≤ key b := by
      have hright := (List.pairwise_append.mp hsorted.sorted).2.1
      exact List.rel_of_pairwise_cons hright List.mem_cons_self
    refine lt_of_le_of_ne hle (fun hab => ?_)
    -- two neighbours with one key could be exchanged
    have hswap := answers_swap pre hab hsorted.sorted
    have heq := h _ ⟨hswap.perm.trans hperm, hswap.sorted⟩
    obtain ⟨rfl, -⟩ := List.cons.inj (List.append_cancel_left heq)
    have htwice := (List.nodup_append.mp (hperm.nodup_iff.mpr hnodup)).2.1
    exact (List.nodup_cons.mp htwice).1 List.mem_cons_self
  · intro hlt sorted hsorted
    have hkeys : (l.map key).Nodup := List.pairwise_map.mpr (hlt.imp ne_of_lt)
    have hl := hsorted.perm.trans hperm.symm
    refine List.Perm.eq_of_pairwise (fun a b ha hb hab hba => ?_) hsorted.sorted
      (hlt.imp le_of_lt) hl
    exact List.inj_on_of_nodup_map hkeys (hl.mem_iff.mp ha) hb (le_antisymm hab hba)

end OrderBy
