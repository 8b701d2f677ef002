import Mathlib.Data.List.Basic

/-! # Quoted strings — text up to the first unescaped quote

    A reader behind an opening quote takes elements until a quote; an escape takes
    the next element as it is.  What is read is never longer than what was passed
    over (`read_length`), and as long only where nothing was escaped.

    `read_unescaped_iff` — text that was put between quotes as it is, is read back
    with nothing left exactly when it has neither a quote nor an escape. -/

namespace QuotedString

variable {α : Type}

/-- What is read in front of the rest of a reading. -/
theorem map_cons_eq_some {a : α} {t rest : List α} {result : Option (List α × List α)}
    (h : result.map (fun p => (a :: p.1, p.2)) = some (t, rest)) :
    ∃ u, result = some (u, rest) ∧ t = a :: u := by
  obtain ⟨⟨u, rest'⟩, rfl, heq⟩ := Option.map_eq_some_iff.mp h
  obtain ⟨rfl, rfl⟩ := Prod.mk.inj heq
  exact ⟨u, rfl, rfl⟩

variable [DecidableEq α]

/-- The elements up to the first unescaped quote, and what follows it.  The flag
    says that the next element is escaped. -/
def read (quote escape : α) : Bool → List α → Option (List α × List α)
  | _, [] => none
  | true, a :: s => (read quote escape false s).map (fun p => (a :: p.1, p.2))
  | false, a :: s =>
      if a = quote then some ([], s)
      else if a = escape then read quote escape true s
      else (read quote escape false s).map (fun p => (a :: p.1, p.2))

section

variable {quote escape : α} {s t rest : List α}

/-- Text that needs no escaping is read as it is. -/
theorem read_plain (hq : quote ∉ t) (he : escape ∉ t) (rest : List α) :
    read quote escape false (t ++ quote :: rest) = some (t, rest) := by
  induction t with
  | nil => exact if_pos rfl
  | cons a t ih =>
      rw [List.mem_cons, not_or] at hq he
      rw [List.cons_append, read, if_neg (Ne.symm hq.1), if_neg (Ne.symm he.1), ih hq.2 he.2]
      rfl

/-- What is read, its quote and what follows are no longer than the text. -/
theorem read_length {escaped : Bool} (h : read quote escape escaped s = some (t, rest)) :
    t.length + 1 + rest.length ≤ s.length := by
  induction s generalizing escaped t with
  | nil =>
      rw [read] at h
      cases h
  | cons a s ih =>
      -- the element is kept in front of what is read behind it
      have hkeep : ∀ {t}, (read quote escape false s).map (fun p => (a :: p.1, p.2))
          = some (t, rest) → t.length + 1 + rest.length ≤ s.length + 1 := by
        intro t h
        obtain ⟨u, hread, rfl⟩ := map_cons_eq_some h
        have hlen := ih hread
        rw [List.length_cons]
        omega
      cases escaped with
      | true => exact hkeep h
      | false =>
          rw [read] at h
          split_ifs at h
          · obtain ⟨rfl, rfl⟩ := Prod.mk.inj (Option.some.inj h)
            rw [List.length_nil, List.length_cons]
            omega
          · exact Nat.le_succ_of_le (ih h)
          · exact hkeep h

/-- **What is read is as long as the text only where nothing was escaped.** -/
theorem read_eq_of_length (h : read quote escape false s = some (t, rest))
    (hlen : s.length = t.length + 1 + rest.length) :
    s = t ++ quote :: rest ∧ quote ∉ t ∧ escape ∉ t := by
  induction s generalizing t with
  | nil =>
      rw [read] at h
      cases h
  | cons a s ih =>
      rw [read] at h
      split_ifs at h with hquote hescape
      · obtain ⟨rfl, rfl⟩ := Prod.mk.inj (Option.some.inj h)
        exact ⟨by rw [hquote]; rfl, List.not_mem_nil, List.not_mem_nil⟩
      · -- the escape itself is not read
        have hshort := read_length h
        rw [List.length_cons] at hlen
        omega
      · obtain ⟨u, hread, rfl⟩ := map_cons_eq_some h
        rw [List.length_cons, List.length_cons] at hlen
        obtain ⟨rfl, hq, he⟩ := ih hread (by omega)
        rw [List.mem_cons, List.mem_cons, not_or, not_or]
        exact ⟨rfl, ⟨Ne.symm hquote, hq⟩, ⟨Ne.symm hescape, he⟩⟩

/-- **Text between quotes is read back exactly when it needed no escaping.** -/
theorem read_unescaped_iff :
    read quote escape false (t ++ [quote]) = some (t, []) ↔ quote ∉ t ∧ escape ∉ t := by
  constructor
  · intro h
    exact (read_eq_of_length h (by simp)).2
  · rintro ⟨hq, he⟩
    exact read_plain hq he []

end

end QuotedString
