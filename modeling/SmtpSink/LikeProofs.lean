import Mathlib

/-! # LIKE and substrings — two ways to search a text

    `like` is the LIKE operator: `%` stands for any text and `_` for any
    character, and other characters match themselves up to ASCII case.

    `Occurs r q s` says that `q` occurs in `s` up to a relation of characters.
    A pattern of a text without wildcards between two `%` is such an occurrence
    (`like_literal`), and so is a substring of texts that are spelled
    in blocks, one for each character, when two blocks with an element in common
    that a comparison from some place on comes to are the same
    (`Spells.infix_occurs`). -/

namespace Like

/-- Equality up to ASCII case. -/
def sameAscii (c d : Char) : Prop := c.toLower = d.toLower

instance (c d : Char) : Decidable (sameAscii c d) :=
  inferInstanceAs (Decidable (c.toLower = d.toLower))

/-- Letters go to letters and other characters to themselves. -/
theorem isAlpha_toLower (c : Char) : c.toLower.isAlpha = c.isAlpha := by
  show (c.toLower.isUpper || c.toLower.isLower) = c.isAlpha
  rw [Char.isUpper_toLower_eq_false, Char.isLower_toLower_eq_isAlpha, Bool.false_or]

theorem toLower_of_not_isAlpha {c : Char} (h : c.isAlpha = false) : c.toLower = c := by
  refine Char.toLower_eq_of_not_isUpper ?_
  rw [Char.isAlpha, Bool.or_eq_false_iff] at h
  exact Bool.not_eq_true _ ▸ h.1

theorem sameAscii.symm {c d : Char} (h : sameAscii c d) : sameAscii d c := Eq.symm h

theorem sameAscii.isAlpha {c d : Char} (h : sameAscii c d) : c.isAlpha = d.isAlpha := by
  rw [← isAlpha_toLower c, ← isAlpha_toLower d, h]

/-- What is no ASCII letter is only equal to itself. -/
theorem sameAscii.eq {c d : Char} (h : sameAscii c d) (hd : d.isAlpha = false) : c = d := by
  rw [← toLower_of_not_isAlpha (h.isAlpha.trans hd), ← toLower_of_not_isAlpha hd, h]

/-- `text LIKE pattern`. -/
def like : List Char → List Char → Bool
  | [], text => text.isEmpty
  | '%' :: pattern, text => text.tails.any (like pattern ·)
  | '_' :: _, [] => false
  | '_' :: pattern, _ :: text => like pattern text
  | _ :: _, [] => false
  | c :: pattern, d :: text => decide (sameAscii c d) && like pattern text

/-- The pattern has no wildcard. -/
def Literal (q : List Char) : Prop := ∀ c ∈ q, c ≠ '%' ∧ c ≠ '_'

instance (q : List Char) : Decidable (Literal q) := List.decidableBAll _ q

/-- `q` occurs in `s` up to a relation of their characters. -/
def Occurs {α β : Type} (r : α → β → Prop) (q : List α) (s : List β) : Prop :=
  ∃ m, m <:+: s ∧ List.Forall₂ r q m

theorem like_percent (pattern text : List Char) :
    like ('%' :: pattern) text = true ↔ ∃ t, t <:+ text ∧ like pattern t = true := by
  rw [like, List.any_eq_true]
  constructor
  · rintro ⟨t, ht, h⟩
    exact ⟨t, (List.mem_tails _ _).mp ht, h⟩
  · rintro ⟨t, ht, h⟩
    exact ⟨t, (List.mem_tails _ _).mpr ht, h⟩

theorem like_percent_end (text : List Char) : like ['%'] text = true :=
  (like_percent [] text).mpr ⟨[], List.nil_suffix, rfl⟩

/-- A literal character matches one character. -/
theorem like_cons {c : Char} (h : c ≠ '%' ∧ c ≠ '_') (pattern text : List Char) :
    like (c :: pattern) text = true
      ↔ ∃ d t, text = d :: t ∧ sameAscii c d ∧ like pattern t = true := by
  cases text with
  | nil =>
      constructor
      · intro hl
        rw [like] at hl
        · exact nomatch hl
        · exact h.1
        · exact h.2
      · rintro ⟨d, t, hdt, -⟩
        exact nomatch hdt
  | cons d t =>
      have heq : like (c :: pattern) (d :: t) = (decide (sameAscii c d) && like pattern t) := by
        rw [like]
        · exact h.1
        · exact h.2
      rw [heq, Bool.and_eq_true, decide_eq_true_eq]
      constructor
      · rintro ⟨hc, hl⟩
        exact ⟨d, t, rfl, hc, hl⟩
      · rintro ⟨d', t', hdt, hc, hl⟩
        cases hdt
        exact ⟨hc, hl⟩

theorem like_append {q : List Char} (hq : Literal q) (pattern : List Char) :
    ∀ text, like (q ++ pattern) text = true
      ↔ ∃ m t, text = m ++ t ∧ List.Forall₂ sameAscii q m ∧ like pattern t = true := by
  induction q with
  | nil =>
      intro text
      constructor
      · intro h
        exact ⟨[], text, rfl, List.Forall₂.nil, h⟩
      · rintro ⟨m, t, rfl, hm, h⟩
        cases hm
        exact h
  | cons c q ih =>
      intro text
      have hq' : Literal q := fun d hd => hq d (List.mem_cons_of_mem _ hd)
      rw [List.cons_append, like_cons (hq c List.mem_cons_self)]
      constructor
      · rintro ⟨d, t, rfl, hc, h⟩
        obtain ⟨m, t', rfl, hm, h⟩ := (ih hq' t).mp h
        exact ⟨d :: m, t', rfl, List.Forall₂.cons hc hm, h⟩
      · rintro ⟨m, t, rfl, hm, h⟩
        cases hm with
        | @cons _ d _ m hc hm =>
            exact ⟨d, m ++ t, rfl, hc, (ih hq' _).mpr ⟨m, t, rfl, hm, h⟩⟩

/-- **A literal between two `%` is searched for up to ASCII case.** -/
theorem like_literal {q : List Char} (hq : Literal q) (text : List Char) :
    like ('%' :: q ++ ['%']) text = true ↔ Occurs sameAscii q text := by
  rw [List.cons_append, like_percent]
  constructor
  · rintro ⟨t, ⟨x, rfl⟩, h⟩
    obtain ⟨m, t', rfl, hm, -⟩ := (like_append hq _ t).mp h
    exact ⟨m, ⟨x, t', by simp⟩, hm⟩
  · rintro ⟨m, ⟨x, y, rfl⟩, hm⟩
    exact ⟨m ++ y, ⟨x, by simp⟩,
      (like_append hq _ _).mpr ⟨m, y, rfl, hm, like_percent_end y⟩⟩

/-! ## Texts spelled in blocks -/

/-- A list is spelled by the blocks `R` gives for its elements. -/
inductive Spells {α γ : Type} (R : α → List γ → Prop) : List α → List γ → Prop where
  | nil : Spells R [] []
  | cons {c : α} {x : List γ} {q : List α} {t : List γ} :
      R c x → Spells R q t → Spells R (c :: q) (x ++ t)

/-- A comparison of two lists from their beginnings: where their first blocks have
    an element in common they are the same block, of elements related by `r`, and
    the comparison goes on behind them. -/
def Aligned {α β γ : Type} (R : α → List γ → Prop) (R' : β → List γ → Prop)
    (r : α → β → Prop) (P : List α → List β → Prop) : Prop :=
  ∀ c q d s x y, P (c :: q) (d :: s) → R c x → R' d y → (∃ a ∈ x, a ∈ y) →
    r c d ∧ x = y ∧ P q s

section

variable {α β γ : Type} {R : α → List γ → Prop} {R' : β → List γ → Prop}
  {r : α → β → Prop} {P : List α → List β → Prop} {q : List α} {s : List β} {t u : List γ}

/-- What is in a spelling is in one of the blocks. -/
theorem Spells.exists_block {a : γ} (h : Spells R q t) (ha : a ∈ t) :
    ∃ c ∈ q, ∃ x, R c x ∧ a ∈ x := by
  induction h with
  | nil => exact absurd ha List.not_mem_nil
  | @cons c x q t hx _ ih =>
      rcases List.mem_append.mp ha with ha | ha
      · exact ⟨c, List.mem_cons_self, x, hx, ha⟩
      · obtain ⟨d, hd, hblock⟩ := ih ha
        exact ⟨d, List.mem_cons_of_mem _ hd, hblock⟩

/-- A block is in the spelling. -/
theorem Spells.block_subset {c : α} (h : Spells R q t) (hc : c ∈ q) :
    ∃ x, R c x ∧ x ⊆ t := by
  induction h with
  | nil => exact absurd hc List.not_mem_nil
  | @cons d x q t hx _ ih =>
      rcases List.mem_cons.mp hc with rfl | hc
      · exact ⟨x, hx, List.subset_append_left x t⟩
      · obtain ⟨y, hy, hsub⟩ := ih hc
        exact ⟨y, hy, List.subset_append_of_subset_right x hsub⟩

/-- A spelling that starts another one. -/
theorem Spells.prefix_occurs (hne : ∀ c x, R c x → x ≠ []) (hne' : ∀ d y, R' d y → y ≠ [])
    (halign : Aligned R R' r P) (hq : Spells R q t) (hs : Spells R' s u) (hP : P q s)
    (h : t <+: u) : ∃ m, m <+: s ∧ List.Forall₂ r q m := by
  induction hq generalizing s u with
  | nil => exact ⟨[], List.nil_prefix, List.Forall₂.nil⟩
  | @cons c x q t hx _ ih =>
      obtain ⟨a, x', rfl⟩ := List.exists_cons_of_ne_nil (hne c x hx)
      cases hs with
      | nil => exact absurd (List.prefix_nil.mp h) (by simp)
      | @cons d y s u hy hu =>
          obtain ⟨b, y', rfl⟩ := List.exists_cons_of_ne_nil (hne' d y hy)
          have hab : a = b := by
            rw [List.cons_append, List.cons_append, List.cons_prefix_cons] at h
            exact h.1
          obtain ⟨hcd, hxy, hP⟩ := halign c q d s _ _ hP hx hy
            ⟨a, List.mem_cons_self, hab ▸ List.mem_cons_self⟩
          rw [hxy, List.prefix_append_right_inj] at h
          obtain ⟨m, hm, hqm⟩ := ih hu hP h
          exact ⟨d :: m, List.cons_prefix_cons.mpr ⟨rfl, hm⟩, List.Forall₂.cons hcd hqm⟩

/-- **A spelling inside another one**, compared from every place of it on. -/
theorem Spells.infix_occurs (hne : ∀ c x, R c x → x ≠ []) (hnd : ∀ c x, R c x → x.Nodup)
    (hne' : ∀ d y, R' d y → y ≠ []) (halign : Aligned R R' r P) (hq : Spells R q t)
    (hs : Spells R' s u) (hP : ∀ v, v <:+ s → P q v) (h : t <:+: u) : Occurs r q s := by
  cases hq with
  | nil => exact ⟨[], List.nil_infix, List.Forall₂.nil⟩
  | @cons c x q t hx ht =>
      obtain ⟨a, x', rfl⟩ := List.exists_cons_of_ne_nil (hne c x hx)
      induction hs with
      | nil => exact absurd (List.infix_nil.mp h) (by simp)
      | @cons d y s u hy hu ih =>
          have hrest : (a :: x') ++ t <:+: u → Occurs r (c :: q) (d :: s) := by
            intro h
            obtain ⟨m, hm, hqm⟩ := ih (fun v hv => hP v (hv.trans (List.suffix_cons d s))) h
            exact ⟨m, hm.trans (List.suffix_cons d s).isInfix, hqm⟩
          obtain ⟨p, z, hpz⟩ := h
          rw [List.append_assoc] at hpz
          rcases List.append_eq_append_iff.mp hpz with ⟨w, hy', hu'⟩ | ⟨w, -, hu'⟩
          · cases w with
            | nil => exact hrest ⟨[], z, hu'⟩
            | cons b w =>
                -- it starts inside the first block, so it starts with it
                obtain ⟨rfl, -⟩ := List.cons.inj hu'
                have hstart : P (c :: q) (d :: s) := hP _ (List.suffix_refl _)
                obtain ⟨-, hxy, -⟩ := halign c q d s _ _ hstart hx hy
                  ⟨a, List.mem_cons_self, by rw [hy']; simp⟩
                cases p with
                | nil =>
                    obtain ⟨m, hm, hqm⟩ := Spells.prefix_occurs hne hne' halign
                      (Spells.cons hx ht) (Spells.cons hy hu) hstart ⟨z, hpz⟩
                    exact ⟨m, hm.isInfix, hqm⟩
                | cons e p =>
                    rw [hy'] at hxy
                    obtain ⟨rfl, rfl⟩ := List.cons.inj hxy
                    exact absurd (hnd c _ hx) (by simp)
          · exact hrest ⟨w, z, by rw [List.append_assoc]; exact hu'.symm⟩

end

end Like
