import Mathlib

/-! # Comparisons part by part

    Whatever is put together from parts of fixed extent is compared by its first
    part, then by the second, and so on; `Ordering.then` says so for numbers in
    mixed radix, for pairs and for lists.

    * `cmp_eq_then` — the rule behind all of them;
    * `parts` — two lists are equal, or one goes on where the other ends, or they
      part at some place. -/

namespace Compare

variable {α β : Type} [LinearOrder α] [LinearOrder β]

/-- A comparison that one part decides, and `o` where that part is the same. -/
theorem cmp_eq_then {a b : α} {x y : β} {o : Ordering} (hlt : a < b → x < y)
    (hgt : b < a → y < x) (heq : a = b → cmp x y = o) : cmp x y = (cmp a b).then o := by
  rcases lt_trichotomy a b with h | h | h
  · rw [h.cmp_eq_lt, (hlt h).cmp_eq_lt]
    rfl
  · rw [h.cmp_eq_eq, heq h]
    rfl
  · rw [h.cmp_eq_gt, (hgt h).cmp_eq_gt]
    rfl

/-- What follows two parts that are not both the same is not read. -/
theorem then_of_ne {a b : α} {c d : β} (h : ¬ (a = b ∧ c = d)) (o o' : Ordering) :
    (cmp a b).then ((cmp c d).then o) = (cmp a b).then ((cmp c d).then o') := by
  rcases lt_trichotomy a b with hab | hab | hab
  · rw [hab.cmp_eq_lt]
    rfl
  · have hcd : c ≠ d := fun hcd => h ⟨hab, hcd⟩
    rcases lt_or_gt_of_ne hcd with hcd | hcd
    · rw [hcd.cmp_eq_lt]
      rfl
    · rw [hcd.cmp_eq_gt]
      rfl
  · rw [hab.cmp_eq_gt]
    rfl

/-- Two comparisons with the same strict results are the same. -/
theorem eq_of_strict {o o' : Ordering} (hlt : o = .lt ↔ o' = .lt) (hgt : o = .gt ↔ o' = .gt) :
    o = o' := by
  cases o with
  | lt => exact (hlt.mp rfl).symm
  | eq =>
      cases o' with
      | lt => exact hlt.mpr rfl
      | eq => rfl
      | gt => exact hgt.mpr rfl
  | gt => exact (hgt.mp rfl).symm

/-- What adds the same on both sides compares alike. -/
theorem cmp_congr {a b : α} {x y : β} (hlt : a < b ↔ x < y) (heq : a = b ↔ x = y) :
    cmp x y = cmp a b := by
  rcases lt_trichotomy a b with h | h | h
  · rw [h.cmp_eq_lt, (hlt.mp h).cmp_eq_lt]
  · rw [h.cmp_eq_eq, (heq.mp h).cmp_eq_eq]
  · have hgt : y < x := by
      refine lt_of_le_of_ne (le_of_not_gt (fun hxy => ?_)) (fun hyx => ?_)
      · exact lt_asymm h (hlt.mpr hxy)
      · exact h.ne' (heq.mpr hyx.symm)
    rw [h.cmp_eq_gt, hgt.cmp_eq_gt]

theorem cmp_toLex (x y : α × β) :
    cmp (toLex x) (toLex y) = (cmp x.1 y.1).then (cmp x.2 y.2) := by
  refine cmp_eq_then (fun h => Prod.Lex.toLex_lt_toLex.mpr (Or.inl h))
    (fun h => Prod.Lex.toLex_lt_toLex.mpr (Or.inl h)) (fun h => ?_)
  refine cmp_congr ?_ ?_
  · rw [Prod.Lex.toLex_lt_toLex, h]
    exact ⟨fun hlt => Or.inr ⟨rfl, hlt⟩, fun hlt => (hlt.resolve_left (lt_irrefl _)).2⟩
  · rw [toLex_inj, Prod.ext_iff]
    exact ⟨fun heq => ⟨h, heq⟩, And.right⟩

/-- Two digits of a number. -/
theorem cmp_scale {k a b r s : ℤ} (hr : 0 ≤ r) (hrk : r < k) (hs : 0 ≤ s) (hsk : s < k) :
    cmp (a * k + r) (b * k + s) = (cmp a b).then (cmp r s) := by
  have hk : 0 ≤ k := by omega
  refine cmp_eq_then (fun h => ?_) (fun h => ?_) ?_
  · have := mul_le_mul_of_nonneg_right (Int.add_one_le_of_lt h) hk
    linarith
  · have := mul_le_mul_of_nonneg_right (Int.add_one_le_of_lt h) hk
    linarith
  · rintro rfl
    exact cmp_congr (by omega) (by omega)

section

variable {γ : Type} [LT γ]

/-- Lists are compared by their heads first. -/
theorem compares_cons {a b : γ} {x y : List γ} {o o' : Ordering} (h : o.Compares a b)
    (h' : o'.Compares x y) : (o.then o').Compares (a :: x) (b :: y) := by
  cases o with
  | lt => exact List.cons_lt_cons_iff.mpr (Or.inl h)
  | eq =>
      obtain rfl : a = b := h
      cases o' with
      | lt => exact List.cons_lt_cons_iff.mpr (Or.inr ⟨rfl, h'⟩)
      | eq => exact congrArg (List.cons a) h'
      | gt => exact List.cons_lt_cons_iff.mpr (Or.inr ⟨rfl, h'⟩)
  | gt => exact List.cons_lt_cons_iff.mpr (Or.inl h)

/-- What two lists have in common does not matter. -/
theorem compares_append_left (p : List γ) {x y : List γ} {o : Ordering} (h : o.Compares x y) :
    o.Compares (p ++ x) (p ++ y) := by
  induction p with
  | nil => exact h
  | cons a p ih => exact compares_cons (o := .eq) rfl ih

/-- What follows parts of one length that differ does not matter. -/
theorem append_lt_append {a b : List γ} (hlen : a.length = b.length) (h : a < b)
    (x y : List γ) : a ++ x < b ++ y := by
  induction a generalizing b with
  | nil =>
      obtain rfl := List.eq_nil_of_length_eq_zero hlen.symm
      exact absurd h (List.not_lt_nil [])
  | cons c a ih =>
      obtain ⟨d, b, rfl⟩ := List.exists_cons_of_length_eq_add_one hlen.symm
      rcases List.cons_lt_cons_iff.mp h with hcd | ⟨rfl, hab⟩
      · exact List.cons_lt_cons_iff.mpr (Or.inl hcd)
      · exact List.cons_lt_cons_iff.mpr (Or.inr ⟨rfl, ih (Nat.succ.inj hlen) hab⟩)

/-- Lists with parts of one length in front. -/
theorem compares_append {a b x y : List γ} {o o' : Ordering} (hlen : a.length = b.length)
    (h : o.Compares a b) (h' : o'.Compares x y) : (o.then o').Compares (a ++ x) (b ++ y) := by
  cases o with
  | lt => exact append_lt_append hlen h x y
  | eq =>
      obtain rfl : a = b := h
      exact compares_append_left a h'
  | gt => exact append_lt_append hlen.symm h y x

end

/-- How two lists compare. -/
theorem parts {γ : Type} [DecidableEq γ] (a b : List γ) : a = b ∨ (∃ x t, b = a ++ x :: t)
    ∨ (∃ x t, a = b ++ x :: t)
    ∨ ∃ p x y s t, x ≠ y ∧ a = p ++ x :: s ∧ b = p ++ y :: t := by
  induction a generalizing b with
  | nil =>
      cases b with
      | nil => exact Or.inl rfl
      | cons y t => exact Or.inr (Or.inl ⟨y, t, rfl⟩)
  | cons x s ih =>
      cases b with
      | nil => exact Or.inr (Or.inr (Or.inl ⟨x, s, rfl⟩))
      | cons y t =>
          by_cases hxy : x = y
          · -- the heads are the same, and the tails stand to each other as they do
            subst hxy
            rcases ih t with rfl | ⟨z, u, rfl⟩ | ⟨z, u, rfl⟩ | ⟨p, z, w, u, v, hne, rfl, rfl⟩
            · exact Or.inl rfl
            · exact Or.inr (Or.inl ⟨z, u, rfl⟩)
            · exact Or.inr (Or.inr (Or.inl ⟨z, u, rfl⟩))
            · exact Or.inr (Or.inr (Or.inr ⟨x :: p, z, w, u, v, hne, rfl, rfl⟩))
          · exact Or.inr (Or.inr (Or.inr ⟨[], x, y, s, t, hxy, rfl, rfl⟩))

end Compare
