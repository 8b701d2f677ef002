import SmtpSink.KeyedProofs

/-! # Windows — tables that keep their last rows

    A window is a table of at most so many rows.  A row with a new key is pushed
    behind the others, and the first ones go where there are too many.

    `filter_keys_eq_drop` — taking out the rows with the keys of the first ones is
    taking out the first ones. -/

namespace Windows

open Keyed

variable {α κ : Type} {key : α → κ} {max : Nat}

/-- A table with at most `max` rows. -/
structure Window (key : α → κ) (max : Nat) extends Table key where
  bounded : rows.length ≤ max

/-- What is left of some rows when another one is pushed behind them. -/
def pushRow (max : Nat) (rows : List α) (a : α) : List α :=
  (rows ++ [a]).drop (rows.length + 1 - max)

def Window.empty : Window key max := ⟨⟨[], List.nodup_nil⟩, Nat.zero_le max⟩

theorem pushRow_sublist (max : Nat) (rows : List α) (a : α) :
    (pushRow max rows a).Sublist (rows ++ [a]) := List.drop_sublist _ _

/-- A row with a new key, behind the others. -/
def Window.push (w : Window key max) (a : α) (h : ∀ b ∈ w.rows, key b ≠ key a) :
    Window key max where
  rows := pushRow max w.rows a
  nodup := by
    refine List.Nodup.sublist ((pushRow_sublist max w.rows a).map key) ?_
    rw [List.map_append, List.nodup_append]
    refine ⟨w.nodup, List.nodup_singleton _, fun k hk k' hk' => ?_⟩
    obtain ⟨b, hb, rfl⟩ := List.mem_map.mp hk
    obtain rfl := List.mem_singleton.mp hk'
    exact h b hb
  bounded := by
    rw [pushRow, List.length_drop, List.length_append, List.length_singleton]
    omega

variable [BEq κ] [LawfulBEq κ]

/-- The rows with other keys. -/
def Window.erase (w : Window key max) (k : κ) : Window key max where
  toTable := w.toTable.erase k
  bounded := Nat.le_trans (List.length_filter_le _ _) w.bounded

/-- A row is told by its key. -/
theorem filter_key_eq_singleton {t : Table key} {a : α} (ha : a ∈ t.rows) :
    t.rows.filter (key · == key a) = [a] := by
  have hall : ∀ b ∈ t.rows.filter (key · == key a), b = a := by
    intro b hb
    obtain ⟨hb, heq⟩ := List.mem_filter.mp hb
    exact List.inj_on_of_nodup_map t.nodup hb ha (beq_iff_eq.mp heq)
  have hmem : a ∈ t.rows.filter (key · == key a) :=
    List.mem_filter.mpr ⟨ha, beq_self_eq_true _⟩
  have hnodup : (t.rows.filter (key · == key a)).Nodup := (List.Nodup.of_map key t.nodup).filter _
  generalize t.rows.filter (key · == key a) = l at hall hmem hnodup
  cases l with
  | nil => exact absurd hmem List.not_mem_nil
  | cons b l =>
      obtain rfl := hall b List.mem_cons_self
      cases l with
      | nil => rfl
      | cons c l =>
          obtain rfl := hall c (List.mem_cons_of_mem _ List.mem_cons_self)
          exact absurd List.mem_cons_self (List.nodup_cons.mp hnodup).1

/-- **The first rows are told by their keys.** -/
theorem filter_keys_eq_drop (t : Table key) (n : Nat) :
    t.rows.filter (fun a => !((t.rows.take n).map key).contains (key a)) = t.rows.drop n := by
  have hnodup := t.nodup
  rw [← List.take_append_drop n t.rows, List.map_append, List.nodup_append] at hnodup
  generalize hids : (t.rows.take n).map key = keys at hnodup ⊢
  have hfirst : (t.rows.take n).filter (fun a => !keys.contains (key a)) = [] := by
    refine List.filter_eq_nil_iff.mpr (fun a ha => ?_)
    have hmem : key a ∈ keys := hids ▸ List.mem_map_of_mem ha
    simpa using hmem
  have hrest : (t.rows.drop n).filter (fun a => !keys.contains (key a)) = t.rows.drop n := by
    refine List.filter_eq_self.mpr (fun a ha => ?_)
    rw [Bool.not_eq_true', List.contains_eq_mem, decide_eq_false_iff_not]
    exact fun hmem => hnodup.2.2 _ hmem _ (List.mem_map_of_mem ha) rfl
  calc t.rows.filter (fun a => !keys.contains (key a))
      = (t.rows.take n).filter (fun a => !keys.contains (key a))
          ++ (t.rows.drop n).filter (fun a => !keys.contains (key a)) := by
        rw [← List.filter_append, List.take_append_drop]
    _ = t.rows.drop n := by rw [hfirst, hrest, List.nil_append]

end Windows
