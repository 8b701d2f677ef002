import SmtpSink.LikeProofs
import SmtpSink.SqliteStoreProofs

/-! # Searches — the memory store's answer and the SQLite store's

    The memory store looks for a substring after `to_lowercase`, per recipient;
    the SQLite store matches a LIKE pattern, over the JSON text of the
    recipients.  Both compare the text looked for with a text from every place
    of it on, and as long as neither comes to something that counts for one of
    them only (`parts`)

    * a wildcard that stands for another character,
    * characters that are the same in lowercase but not up to ASCII case, and a
      capital sigma, whose lowercase form depends on its context,
    * a character that JSON escapes or adds, where the pattern holds out,

    both come down to an occurrence up to ASCII case.  LIKE itself is a parameter:
    what is used of it is what it makes of texts it reads whole (`ReadsLike`).

    Where a record is `Comparable` with a query, the stores agree on it
    (`query_ids_eq`). -/

namespace Search

open Utf8 Unicode UnicodeCase SmtpRecord Like JsonText EmailStore SqliteStore

/-! ## Lowercase forms -/

/-- The lowercase forms of a character; a capital sigma has two. -/
def lowerForms (c : Char) : List Text :=
  if c = 'Σ' then [['σ'], ['ς']] else [charToLowercase c]

/-- Two characters have a lowercase character in common. -/
def Share (c d : Char) : Prop := ∃ x ∈ lowerForms c, ∃ y ∈ lowerForms d, ∃ a ∈ x, a ∈ y

instance (c d : Char) : Decidable (Share c d) :=
  inferInstanceAs (Decidable (∃ x ∈ lowerForms c, ∃ y ∈ lowerForms d, ∃ a ∈ x, a ∈ y))

private theorem lowerExpansions_forms : ∀ e ∈ lowerExpansions,
    e.2.map Char.ofNat ≠ [] ∧ (e.2.map Char.ofNat).Nodup
      ∧ ∀ a ∈ e.2.map Char.ofNat, 128 ≤ a.toNat ∨ a.isAlpha = true := by
  decide

theorem charToLowercase_form (c : Char) :
    charToLowercase c ≠ [] ∧ (charToLowercase c).Nodup := by
  have hsingle : ∀ d : Char, [d] ≠ [] ∧ [d].Nodup :=
    fun d => ⟨List.cons_ne_nil d [], List.nodup_singleton d⟩
  rw [charToLowercase]
  by_cases hc : c.toNat < 128
  · rw [if_pos hc]
    exact hsingle _
  · rw [if_neg hc]
    rcases mapAbove_cases lowerExpansions lowerRanges c with
      ⟨e, he, hform⟩ | hform | ⟨r, -, -, -, hform⟩
    · obtain ⟨hne, hnodup, -⟩ := lowerExpansions_forms e he
      rw [hform]
      exact ⟨hne, hnodup⟩
    · rw [hform]
      exact hsingle _
    · rw [hform]
      exact hsingle _

/-- A lowercase form has a character, and has it once. -/
theorem lowerForms_form {c : Char} {x : Text} (h : x ∈ lowerForms c) : x ≠ [] ∧ x.Nodup := by
  rw [lowerForms] at h
  by_cases hc : c = 'Σ'
  · rw [if_pos hc] at h
    rcases List.mem_cons.mp h with rfl | h
    · decide
    · obtain rfl := List.mem_singleton.mp h
      decide
  · rw [if_neg hc] at h
    obtain rfl := List.mem_singleton.mp h
    exact charToLowercase_form c

/-- Every lowercase range stays inside the scalar values, and only the range of
    the Kelvin sign reaches ASCII, at a letter. -/
private theorem lowerRanges_images : ∀ r ∈ lowerRanges,
    (r.image + (r.last - r.first) < 0xD800
      ∨ 0xE000 ≤ r.image ∧ r.image + (r.last - r.first) < 0x110000)
    ∧ (128 ≤ r.image ∨ (r.first = 0x212A ∧ r.last = 0x212A ∧ r.image = 0x6B)) := by
  decide +kernel

/-- An ASCII sign is the lowercase form of itself alone. -/
theorem eq_of_mem_charToLowercase {a c : Char} (h : a ∈ charToLowercase c)
    (hascii : a.toNat < 128) (hsign : a.isAlpha = false) : c = a := by
  rw [charToLowercase] at h
  by_cases hc : c.toNat < 128
  · rw [if_pos hc, List.mem_singleton] at h
    rw [h, isAlpha_toLower] at hsign
    rw [h, toLower_of_not_isAlpha hsign]
  · rw [if_neg hc] at h
    rcases mapAbove_cases lowerExpansions lowerRanges c with
      ⟨e, he, hform⟩ | hform | ⟨r, hmem, hfirst, hlast, hform⟩
    · rw [hform] at h
      rcases (lowerExpansions_forms e he).2.2 a h with hlarge | hletter
      · exact absurd hascii (Nat.not_lt.mpr hlarge)
      · exact absurd hsign (by rw [hletter]; exact Bool.noConfusion)
    · rw [hform] at h
      exact (List.mem_singleton.mp h).symm
    · rw [hform] at h
      obtain rfl := List.mem_singleton.mp h
      obtain ⟨hvalid, himage⟩ := lowerRanges_images r hmem
      rw [toNat_ofNat (by omega)] at hascii
      rcases himage with hlarge | hkelvin
      · omega
      · have hk : r.image + (c.toNat - r.first) = 0x6B := by omega
        rw [hk] at hsign
        exact absurd hsign (by decide)

theorem eq_of_mem_lowerForms {a c : Char} {x : Text} (hx : x ∈ lowerForms c) (ha : a ∈ x)
    (hascii : a.toNat < 128) (hsign : a.isAlpha = false) : c = a := by
  by_cases hc : c = 'Σ'
  · rw [lowerForms, if_pos hc] at hx
    have hgreek : ∀ y ∈ [['σ'], ['ς']], ∀ b ∈ y, 128 ≤ b.toNat := by decide
    exact absurd hascii (Nat.not_lt.mpr (hgreek x hx a ha))
  · rw [lowerForms, if_neg hc, List.mem_singleton] at hx
    exact eq_of_mem_charToLowercase (hx ▸ ha) hascii hsign

/-- A lowercased text is spelled by lowercase forms. -/
theorem toLowercaseAfter_spells (s : Text) : ∀ before,
    Spells (fun c x => x ∈ lowerForms c) s (toLowercaseAfter before s) := by
  induction s with
  | nil => exact fun _ => Spells.nil
  | cons c s ih =>
      intro before
      rw [toLowercaseAfter]
      refine Spells.cons ?_ (ih _)
      rw [lowerForms]
      by_cases hc : c = 'Σ'
      · rw [if_pos hc, if_pos hc]
        by_cases hfinal : (caseIgnorableThenCased before && !caseIgnorableThenCased s) = true
        · rw [if_pos hfinal]
          exact List.mem_cons_of_mem _ List.mem_cons_self
        · rw [if_neg hfinal]
          exact List.mem_cons_self
      · rw [if_neg hc, if_neg hc]
        exact List.mem_singleton_self _

/-- Without a capital sigma the context does not count. -/
theorem toLowercaseAfter_append {m : Text} (hm : 'Σ' ∉ m) (rest : Text) : ∀ before,
    toLowercaseAfter before (m ++ rest)
      = m.flatMap charToLowercase ++ toLowercaseAfter (m.reverse ++ before) rest := by
  induction m with
  | nil => exact fun _ => rfl
  | cons c m ih =>
      intro before
      rw [List.mem_cons, not_or] at hm
      obtain ⟨hc, hm⟩ := hm
      rw [List.cons_append, toLowercaseAfter, if_neg (Ne.symm hc), ih hm, List.flatMap_cons,
        List.append_assoc, List.reverse_cons, List.append_assoc]
      rfl

theorem toLowercase_eq_flatMap {m : Text} (hm : 'Σ' ∉ m) :
    toLowercase m = m.flatMap charToLowercase := by
  have happ := toLowercaseAfter_append hm [] []
  rwa [List.append_nil, toLowercaseAfter, List.append_nil] at happ

/-- A part of a text keeps its lowercase form in the whole. -/
theorem toLowercase_infix {m s : Text} (hm : 'Σ' ∉ m) (h : m <:+: s) :
    m.flatMap charToLowercase <:+: toLowercase s := by
  obtain ⟨x, y, rfl⟩ := h
  have hsuffix : ∀ before, ∃ z, toLowercaseAfter before (x ++ (m ++ y))
      = z ++ toLowercaseAfter (x.reverse ++ before) (m ++ y) := by
    induction x with
    | nil => exact fun before => ⟨[], rfl⟩
    | cons c x ih =>
        intro before
        obtain ⟨z, hz⟩ := ih (c :: before)
        rw [List.cons_append, toLowercaseAfter, hz, ← List.append_assoc, List.reverse_cons,
          List.append_assoc x.reverse]
        exact ⟨_, rfl⟩
  obtain ⟨z, hz⟩ := hsuffix []
  rw [toLowercase, List.append_assoc, hz, toLowercaseAfter_append hm]
  exact ⟨z, _, List.append_assoc _ _ _⟩

theorem lowerForms_of_ne {c : Char} (hc : c ≠ 'Σ') : lowerForms c = [charToLowercase c] :=
  if_neg hc

/-- Up to ASCII case there is one lowercase form. -/
theorem charToLowercase_congr {c d : Char} (h : sameAscii c d) :
    charToLowercase c = charToLowercase d := by
  cases hd : d.isAlpha with
  | false => rw [h.eq hd]
  | true =>
      have hascii : ∀ e : Char, e.isAlpha = true → charToLowercase e = [e.toLower] := by
        intro e he
        refine if_pos ?_
        simp only [Char.isAlpha, Char.isUpper, Char.isLower, Bool.or_eq_true, Bool.and_eq_true,
          decide_eq_true_eq, ge_iff_le, UInt32.le_iff_toNat_le] at he
        rcases he with ⟨-, he⟩ | ⟨-, he⟩
        · exact lt_of_le_of_lt he (by decide)
        · exact lt_of_le_of_lt he (by decide)
      rw [hascii c (h.isAlpha.trans hd), hascii d hd, h]

/-- `str::contains` finds the segments. -/
theorem contains_iff (s pattern : Text) : contains s pattern = true ↔ pattern <:+: s := by
  rw [contains, List.any_eq_true, List.infix_iff_prefix_suffix]
  constructor
  · rintro ⟨t, ht, h⟩
    exact ⟨t, List.isPrefixOf_iff_prefix.mp h, (List.mem_tails _ _).mp ht⟩
  · rintro ⟨t, h, ht⟩
    exact ⟨t, (List.mem_tails _ _).mpr ht, List.isPrefixOf_iff_prefix.mpr h⟩

theorem flatMap_charToLowercase {q m : Text} (h : List.Forall₂ sameAscii q m) :
    q.flatMap charToLowercase = m.flatMap charToLowercase := by
  induction h with
  | nil => rfl
  | cons hcd _ ih =>
      rw [List.flatMap_cons, List.flatMap_cons, charToLowercase_congr hcd, ih]

/-- A capital sigma is the same as itself only. -/
theorem sigma_iff {c d : Char} (h : sameAscii c d) : c = 'Σ' ↔ d = 'Σ' := by
  constructor
  · rintro rfl
    exact h.symm.eq (by decide)
  · rintro rfl
    exact h.eq (by decide)

theorem lowerForms_congr {c d : Char} (h : sameAscii c d) : lowerForms c = lowerForms d := by
  rw [lowerForms, lowerForms, charToLowercase_congr h]
  exact if_congr (sigma_iff h) rfl rfl

theorem share_of_same {c d : Char} (h : sameAscii c d) : Share c d := by
  obtain ⟨x, hx⟩ : ∃ x, x ∈ lowerForms d := by
    rw [lowerForms]
    by_cases hd : d = 'Σ'
    · rw [if_pos hd]
      exact ⟨_, List.mem_cons_self⟩
    · rw [if_neg hd]
      exact ⟨_, List.mem_cons_self⟩
  obtain ⟨a, ha⟩ := List.exists_mem_of_ne_nil x (lowerForms_form hx).1
  exact ⟨x, lowerForms_congr h ▸ hx, x, hx, a, ha, ha⟩

/-! ## Where the two searches part -/

/-- `%` and `_`. -/
def isWildcard (c : Char) : Bool := c = '%' || c = '_'

/-- A pattern is compared with a text to its end, or up to a wildcard. -/
def holdsOut : Text → Text → Bool
  | [], _ => true
  | c :: _, [] => isWildcard c
  | c :: q, d :: s => isWildcard c || decide (sameAscii c d) && holdsOut q s

/-- The comparisons of `q` with a text from one place on, in lowercase and with LIKE:
    they come to something that counts for one of them only, before both come to a
    mismatch or to the end. -/
def parts : Text → List Sign → Bool
  | [], _ => false
  | c :: _, [] => c = '%'
  | c :: q, .own d :: u =>
      if sameAscii c d then c = '%' || c = 'Σ' || parts q u
      else isWildcard c || decide (Share c d)
  | c :: q, .escaped d :: u =>
      -- LIKE may begin inside the escape
      decide (Share c d)
        || (escapeChar d).tails.any (fun v => !v.isEmpty && holdsOut (c :: q) (v ++ signsText u))
  | c :: q, .added a :: u => holdsOut (c :: q) (a :: signsText u)

/-- The two searches for `q` part at no place of the text. -/
def Together (q : Text) (signs : List Sign) : Prop := ∀ u, u <:+ signs → parts q u = false

instance (q : Text) (signs : List Sign) : Decidable (Together q signs) :=
  decidable_of_iff (∀ u ∈ signs.tails, parts q u = false)
    ⟨fun h u hu => h u ((List.mem_tails _ _).mpr hu),
      fun h u hu => h u ((List.mem_tails _ _).mp hu)⟩

/-- A wildcard does not part the searches where nothing is compared with it. -/
example : Together "john_doe@example.com".toList ("alice@example.com".toList.map .own) := by
  decide +kernel

/-! ## The search after `to_lowercase` -/

theorem isWildcard_iff {c : Char} : isWildcard c = true ↔ c = '%' ∨ c = '_' := by
  rw [isWildcard, Bool.or_eq_true, decide_eq_true_eq, decide_eq_true_eq]

/-- A pattern that is stopped does not begin with a wildcard. -/
theorem not_wildcard_of_holdsOut {c : Char} {q s : Text} (h : holdsOut (c :: q) s = false) :
    isWildcard c = false := by
  cases s with
  | nil => exact h
  | cons d s => exact (Bool.or_eq_false_iff.mp h).1

theorem parts_own {c d : Char} {q : Text} {u : List Sign} :
    parts (c :: q) (.own d :: u) = false
      ↔ sameAscii c d ∧ c ≠ '%' ∧ c ≠ 'Σ' ∧ parts q u = false
        ∨ ¬ sameAscii c d ∧ isWildcard c = false ∧ ¬ Share c d := by
  rw [parts]
  by_cases hcd : sameAscii c d
  · simp only [if_true, Bool.or_eq_false_iff, decide_eq_false_iff_not, hcd, true_and,
      not_true_eq_false, false_and, or_false, and_assoc]
  · simp only [if_false, Bool.or_eq_false_iff, decide_eq_false_iff_not, hcd, false_and,
      not_false_eq_true, true_and, false_or]

theorem parts_escaped {c d : Char} {q : Text} {u : List Sign}
    (h : parts (c :: q) (.escaped d :: u) = false) :
    ¬ Share c d ∧ ∀ v, v <:+ escapeChar d → v ≠ [] →
      holdsOut (c :: q) (v ++ signsText u) = false := by
  simp only [parts, Bool.or_eq_false_iff, decide_eq_false_iff_not, List.any_eq_false,
    Bool.and_eq_true, Bool.not_eq_true', not_and, Bool.not_eq_true,
    List.isEmpty_eq_false_iff] at h
  exact ⟨h.1, fun v hv => h.2 v ((List.mem_tails _ _).mpr hv)⟩

/-- The searches part at `%`. -/
theorem not_percent_of_parts {c : Char} {q : Text} {u : List Sign}
    (h : parts (c :: q) u = false) : c ≠ '%' := by
  have hwild : isWildcard c = false → c ≠ '%' :=
    fun hno hc => Bool.false_ne_true (hno.symm.trans (isWildcard_iff.mpr (Or.inl hc)))
  cases u with
  | nil => exact of_decide_eq_false h
  | cons g u =>
      cases g with
      | own d =>
          rcases parts_own.mp h with ⟨-, hc, -⟩ | ⟨-, hno, -⟩
          · exact hc
          · exact hwild hno
      | escaped d =>
          exact hwild (not_wildcard_of_holdsOut
            ((parts_escaped h).2 _ (List.suffix_refl _) (escapeChar_ne_nil d)))
      | added a => exact hwild (not_wildcard_of_holdsOut h)

/-- As long as the searches do not part, lowercase forms with a character in
    common are the same. -/
theorem aligned_parts : Aligned (fun c x => x ∈ lowerForms c) (fun d y => y ∈ lowerForms d)
    sameAscii (fun q s => parts q (s.map .own) = false) := by
  intro c q d s x y hparts hx hy hshare
  rcases parts_own.mp hparts with ⟨hcd, -, hsigma, hrest⟩ | ⟨-, -, hno⟩
  · rw [lowerForms_congr hcd, lowerForms_of_ne (fun hd => hsigma ((sigma_iff hcd).mpr hd)),
      List.mem_singleton] at hx
    rw [lowerForms_of_ne (fun hd => hsigma ((sigma_iff hcd).mpr hd)), List.mem_singleton] at hy
    exact ⟨hcd, hx.trans hy.symm, hrest⟩
  · exact absurd ⟨x, hx, y, hy, hshare⟩ hno

/-- A capital sigma is not found where the searches do not part. -/
theorem not_sigma {q m : Text} (h : List.Forall₂ sameAscii q m) :
    ∀ {u}, parts q (m.map .own ++ u) = false → 'Σ' ∉ q ∧ 'Σ' ∉ m := by
  induction h with
  | nil => exact fun _ => ⟨List.not_mem_nil, List.not_mem_nil⟩
  | @cons c d q m hcd _ ih =>
      intro u hparts
      rcases parts_own.mp hparts with ⟨-, -, hsigma, hrest⟩ | ⟨hno, -⟩
      · obtain ⟨hq, hm⟩ := ih hrest
        exact ⟨List.not_mem_cons_of_ne_of_not_mem (Ne.symm hsigma) hq,
          List.not_mem_cons_of_ne_of_not_mem
            (fun hd => hsigma ((sigma_iff hcd).mpr hd.symm)) hm⟩
      · exact absurd hcd hno

/-- **A search after `to_lowercase`** is one up to ASCII case. -/
theorem containsLower_iff {q s : Text} (h : Together q (s.map .own)) :
    containsLower s q = true ↔ Occurs sameAscii q s := by
  rw [containsLower, contains_iff]
  constructor
  · exact Spells.infix_occurs (fun _ _ hx => (lowerForms_form hx).1)
      (fun _ _ hx => (lowerForms_form hx).2) (fun _ _ hx => (lowerForms_form hx).1)
      aligned_parts (toLowercaseAfter_spells q []) (toLowercaseAfter_spells s [])
      (fun v hv => h _ (hv.map _))
  · rintro ⟨m, hm, hqm⟩
    obtain ⟨x, y, rfl⟩ := hm
    have hparts : parts q (m.map .own ++ y.map .own) = false :=
      h _ ⟨x.map .own, by rw [List.append_assoc, List.map_append, List.map_append]⟩
    obtain ⟨hq, hm⟩ := not_sigma hqm hparts
    rw [toLowercase_eq_flatMap hq, flatMap_charToLowercase hqm]
    exact toLowercase_infix hm ⟨x, y, rfl⟩

/-! ## The search with LIKE -/

theorem holdsOut_of_like {q : Text} : ∀ {s}, like (q ++ ['%']) s = true → holdsOut q s = true := by
  induction q with
  | nil => exact fun _ => rfl
  | cons c q ih =>
      intro s h
      cases hwild : isWildcard c with
      | true =>
          cases s with
          | nil => exact hwild
          | cons d s => exact Bool.or_eq_true_iff.mpr (Or.inl hwild)
      | false =>
          have hliteral : ¬ (c = '%' ∨ c = '_') :=
            fun hc => Bool.false_ne_true (hwild.symm.trans (isWildcard_iff.mpr hc))
          obtain ⟨d, t, rfl, hcd, h⟩ := (like_cons (not_or.mp hliteral) _ _).mp h
          rw [holdsOut, hwild, decide_eq_true hcd, ih h]
          rfl

/-- `_` and the other characters but `%` take one character. -/
theorem like_one {c : Char} (hc : c ≠ '%') (pattern : Text) (d : Char) (text : Text) :
    like (c :: pattern) (d :: text) = true
      ↔ (c = '_' ∨ sameAscii c d) ∧ like pattern text = true := by
  by_cases hunder : c = '_'
  · subst hunder
    exact (and_iff_right (Or.inl rfl)).symm
  · rw [like_cons ⟨hc, hunder⟩, or_iff_right hunder]
    constructor
    · rintro ⟨d', t, hdt, hcd, h⟩
      cases hdt
      exact ⟨hcd, h⟩
    · rintro ⟨hcd, h⟩
      exact ⟨d, text, rfl, hcd, h⟩

theorem like_nil_right {c : Char} (hc : c ≠ '%') (pattern : Text) :
    like (c :: pattern) [] = false := by
  by_cases hunder : c = '_'
  · subst hunder
    rfl
  · rw [← Bool.not_eq_true, like_cons ⟨hc, hunder⟩]
    rintro ⟨d, t, hdt, -⟩
    exact nomatch hdt

/-- **LIKE from one place on**: as long as the searches do not part, what is matched
    are characters of the text up to ASCII case. -/
theorem like_iff_of_parts {q : Text} : ∀ {u}, parts q u = false →
    (like (q ++ ['%']) (signsText u) = true
      ↔ ∃ m, m.map .own <+: u ∧ List.Forall₂ sameAscii q m) := by
  induction q with
  | nil =>
      exact fun _ => iff_of_true (like_percent_end _) ⟨[], List.nil_prefix, List.Forall₂.nil⟩
  | cons c q ih =>
      intro u hparts
      have hpercent := not_percent_of_parts hparts
      -- what is matched begins with a character as it is
      have hown : ∀ {g u}, (∃ m, m.map Sign.own <+: g :: u ∧ List.Forall₂ sameAscii (c :: q) m) →
          ∃ d m, g = .own d ∧ sameAscii c d ∧ m.map Sign.own <+: u
            ∧ List.Forall₂ sameAscii q m := by
        rintro g u ⟨_, hm, _ | @⟨_, d, _, m, hcd, hqm⟩⟩
        rw [List.map_cons, List.cons_prefix_cons] at hm
        exact ⟨d, m, hm.1.symm, hcd, hm.2, hqm⟩
      have hstop : ∀ {s}, holdsOut (c :: q) s = false → ¬ like (c :: q ++ ['%']) s = true :=
        fun h hlike => Bool.false_ne_true (h.symm.trans (holdsOut_of_like hlike))
      cases u with
      | nil =>
          refine iff_of_false (fun h => ?_) ?_
          · exact Bool.false_ne_true ((like_nil_right hpercent _).symm.trans h)
          · rintro ⟨m, hm, hqm⟩
            obtain rfl := List.map_eq_nil_iff.mp (List.prefix_nil.mp hm)
            cases hqm
      | cons g u =>
          cases g with
          | own d =>
              refine (like_one hpercent _ d (signsText u)).trans ?_
              rcases parts_own.mp hparts with ⟨hcd, -, -, hrest⟩ | ⟨hcd, hwild, -⟩
              · rw [and_iff_right (Or.inr hcd)]
                refine (ih hrest).trans ⟨?_, fun h => ?_⟩
                · rintro ⟨m, hm, hqm⟩
                  exact ⟨d :: m, List.cons_prefix_cons.mpr ⟨rfl, hm⟩, List.Forall₂.cons hcd hqm⟩
                · obtain ⟨_, m, -, -, hm, hqm⟩ := hown h
                  exact ⟨m, hm, hqm⟩
              · refine iff_of_false (fun h => ?_) (fun h => ?_)
                · rcases h.1 with hunder | hsame
                  · rw [isWildcard_iff.mpr (Or.inr hunder)] at hwild
                    exact Bool.noConfusion hwild
                  · exact hcd hsame
                · obtain ⟨d', m, hd, hcd', -⟩ := hown h
                  cases hd
                  exact hcd hcd'
          | escaped d =>
              refine iff_of_false (hstop ?_) (fun h => ?_)
              · exact (parts_escaped hparts).2 _ (List.suffix_refl _) (escapeChar_ne_nil d)
              · obtain ⟨d', m, hd, -⟩ := hown h
                exact Sign.noConfusion hd
          | added a =>
              refine iff_of_false (hstop hparts) (fun h => ?_)
              obtain ⟨d', m, hd, -⟩ := hown h
              exact Sign.noConfusion hd

/-- A place of a text is before one of its parts or inside an escape. -/
theorem suffix_signsText {t : Text} {signs : List Sign} (h : t <:+ signsText signs) :
    (∃ u, u <:+ signs ∧ t = signsText u)
      ∨ ∃ d u v, .escaped d :: u <:+ signs ∧ v <:+ escapeChar d ∧ v ≠ []
          ∧ t = v ++ signsText u := by
  induction signs with
  | nil => exact Or.inl ⟨[], List.nil_suffix, List.suffix_nil.mp h⟩
  | cons g signs ih =>
      rw [signsText_cons] at h
      obtain ⟨p, hp⟩ := h
      have hwhole : t = g.text ++ signsText signs → ∃ u, u <:+ g :: signs ∧ t = signsText u :=
        fun ht => ⟨g :: signs, List.suffix_refl _, ht⟩
      rcases List.append_eq_append_iff.mp hp with ⟨v, hv, ht⟩ | ⟨w, -, hw⟩
      · -- it begins inside the first part
        by_cases hne : v = []
        · subst hne
          exact Or.inl ⟨signs, List.suffix_cons _ _, ht⟩
        · have hsingle : g.text.length = 1 → t = g.text ++ signsText signs := by
            intro hlen
            have hlen' := congrArg List.length hv
            have hpos := List.length_pos_iff.mpr hne
            rw [List.length_append] at hlen'
            have hp : p = [] := List.length_eq_zero_iff.mp (by omega)
            rw [ht, hv, hp]
            rfl
          cases g with
          | own c => exact Or.inl (hwhole (hsingle rfl))
          | escaped d =>
              exact Or.inr ⟨d, signs, v, List.suffix_refl _, ⟨p, hv.symm⟩, hne, ht⟩
          | added a => exact Or.inl (hwhole (hsingle rfl))
      · rcases ih ⟨w, hw.symm⟩ with ⟨u, hu, ht⟩ | ⟨d, u, v, hu, hrest⟩
        · exact Or.inl ⟨u, hu.trans (List.suffix_cons _ _), ht⟩
        · exact Or.inr ⟨d, u, v, hu.trans (List.suffix_cons _ _), hrest⟩

/-- **A search with LIKE** is one up to ASCII case. -/
theorem like_iff_of_together {q : Text} {signs : List Sign} (h : Together q signs) :
    like ('%' :: q ++ ['%']) (signsText signs) = true
      ↔ ∃ m, m.map .own <:+: signs ∧ List.Forall₂ sameAscii q m := by
  rw [List.cons_append, like_percent]
  constructor
  · rintro ⟨t, ht, hlike⟩
    rcases suffix_signsText ht with ⟨u, hu, rfl⟩ | ⟨d, u, v, hu, hv, hne, rfl⟩
    · obtain ⟨m, hm, hqm⟩ := (like_iff_of_parts (h u hu)).mp hlike
      exact ⟨m, hm.isInfix.trans hu.isInfix, hqm⟩
    · cases q with
      | nil => exact ⟨[], List.nil_infix, List.Forall₂.nil⟩
      | cons c q =>
          have hno := (parts_escaped (h _ hu)).2 v hv hne
          exact absurd (hno.symm.trans (holdsOut_of_like hlike)) Bool.false_ne_true
  · rintro ⟨m, ⟨x, y, hxy⟩, hqm⟩
    rw [List.append_assoc] at hxy
    have hu : m.map .own ++ y <:+ signs := ⟨x, hxy⟩
    refine ⟨signsText (m.map .own ++ y), ?_, ?_⟩
    · obtain ⟨p, rfl⟩ := hu
      exact ⟨p.flatMap Sign.text, List.flatMap_append.symm⟩
    · exact (like_iff_of_parts (h _ hu)).mpr ⟨m, List.prefix_append _ _, hqm⟩

/-! ## The JSON text of the recipients -/

/-- Where the searches part in a recipient, they part in the JSON text. -/
theorem parts_charSign {q : Text} : ∀ {w : Text} {signs : List Sign},
    parts q (w.map .own) = true → parts q (w.map charSign ++ signs) = true := by
  induction q with
  | nil => exact fun h => (Bool.false_ne_true h).elim
  | cons c q ih =>
      intro w signs h
      rw [← Bool.not_eq_false]
      intro hparts
      have hpercent := not_percent_of_parts hparts
      cases w with
      | nil => exact hpercent (of_decide_eq_true h)
      | cons d w =>
          refine Bool.false_ne_true (Eq.trans (Eq.symm (parts_own.mpr ?_)) h)
          by_cases hplain : escapeChar d = [d]
          · rw [List.map_cons, charSign_eq_own.mpr ⟨hplain, rfl⟩, List.cons_append] at hparts
            rcases parts_own.mp hparts with ⟨hcd, hc, hsigma, hrest⟩ | hstops
            · refine Or.inl ⟨hcd, hc, hsigma, ?_⟩
              rw [← Bool.not_eq_true]
              exact fun hw => Bool.false_ne_true (hrest.symm.trans (ih hw))
            · exact Or.inr hstops
          · rw [List.map_cons, charSign, if_neg hplain, List.cons_append] at hparts
            obtain ⟨hshare, hout⟩ := parts_escaped hparts
            have hstop := hout _ (List.suffix_refl _) (escapeChar_ne_nil d)
            exact Or.inr ⟨fun hcd => hshare (share_of_same hcd),
              not_wildcard_of_holdsOut hstop, hshare⟩

theorem Together.recipient {q t : Text} {l : List Text} (h : Together q (arraySigns l))
    (ht : t ∈ l) : Together q (t.map .own) := by
  intro v hv
  obtain ⟨w, hw, rfl⟩ := List.suffix_map_iff.mp hv
  obtain ⟨signs, hsigns⟩ := exists_suffix_arraySigns ht
  rw [← Bool.not_eq_true]
  intro hparts
  obtain ⟨x, rfl⟩ := hw
  have hplace : w.map charSign ++ .added '"' :: signs <:+ arraySigns l := by
    refine List.IsSuffix.trans ⟨x.map charSign, ?_⟩ hsigns
    rw [List.map_append, List.append_assoc]
  exact Bool.false_ne_true ((h _ hplace).symm.trans (parts_charSign hparts))

/-- What is found in a recipient is written as it is. -/
theorem charSign_of_parts {q m : Text} (h : List.Forall₂ sameAscii q m) :
    ∀ {u}, parts q (m.map charSign ++ u) = false → m.map charSign = m.map .own := by
  induction h with
  | nil => exact fun _ => rfl
  | @cons c d q m hcd _ ih =>
      intro u hparts
      by_cases hplain : escapeChar d = [d]
      · rw [List.map_cons, charSign_eq_own.mpr ⟨hplain, rfl⟩, List.cons_append] at hparts
        rcases parts_own.mp hparts with ⟨-, -, -, hrest⟩ | ⟨hno, -⟩
        · rw [List.map_cons, List.map_cons, ih hrest, charSign_eq_own.mpr ⟨hplain, rfl⟩]
        · exact absurd hcd hno
      · rw [List.map_cons, charSign, if_neg hplain, List.cons_append] at hparts
        exact absurd (share_of_same hcd) (parts_escaped hparts).1

/-- **The JSON text holds a text just when one of the strings does.** -/
theorem infix_array_iff {q : Text} {l : List Text} (h : Together q (arraySigns l))
    (hempty : l = [] → q ≠ []) :
    (∃ m, m.map .own <:+: arraySigns l ∧ List.Forall₂ sameAscii q m)
      ↔ ∃ t ∈ l, Occurs sameAscii q t := by
  constructor
  · rintro ⟨m, hm, hqm⟩
    by_cases hnil : m = []
    · subst hnil
      obtain rfl := List.forall₂_nil_right_iff.mp hqm
      obtain ⟨t, ht⟩ := List.exists_mem_of_ne_nil l (fun hl => hempty hl rfl)
      exact ⟨t, ht, [], List.nil_infix, hqm⟩
    · obtain ⟨t, ht, hmt⟩ := infix_arraySigns hnil hm
      obtain ⟨m', hm', heq⟩ := List.infix_map_iff.mp hmt
      refine ⟨t, ht, m', hm', ?_⟩
      exact eq_of_map_charSign heq ▸ hqm
  · rintro ⟨t, ht, m, ⟨x, y, rfl⟩, hqm⟩
    obtain ⟨signs, hsigns⟩ := exists_suffix_arraySigns ht
    have hplace : m.map charSign ++ (y.map charSign ++ .added '"' :: signs) <:+ arraySigns l := by
      refine List.IsSuffix.trans ⟨x.map charSign, ?_⟩ hsigns
      rw [List.map_append, List.map_append]
      simp only [List.append_assoc]
    have hown := charSign_of_parts hqm (h _ hplace)
    exact ⟨m, hown ▸ (List.prefix_append _ _).isInfix.trans hplace.isInfix, hqm⟩

/-! ## The two stores -/

/-- The since and until filters. -/
def inPeriod (email : MailRecord) (query : EmailQuery) : Bool :=
  optional (fun q => !decide (encode email.date < encode q)) query.sinceDate
    && optional (fun q => !decide (encode q < encode email.date)) query.untilDate

/-- SQLite reads a text whole: NUL would end it, and it takes two characters for
    another one. -/
def Readable (t : Text) : Prop := ∀ c ∈ t, c ≠ '\x00' ∧ c ≠ '\uFFFE' ∧ c ≠ '\uFFFF'

/-- The pattern of a text is not longer than SQLite takes. -/
def PatternFits (q : Text) : Prop := (encode ('%' :: q ++ ['%'])).length ≤ 50000

instance (t : Text) : Decidable (Readable t) := List.decidableBAll _ t

instance (q : Text) : Decidable (PatternFits q) :=
  inferInstanceAs (Decidable ((encode ('%' :: q ++ ['%'])).length ≤ 50000))

/-- **The operator LIKE of SQLite**, of texts that are read whole. -/
def ReadsLike (likes : Text → Text → Bool) : Prop :=
  ∀ q s, PatternFits q → Readable q → Readable s →
    likes ('%' :: q ++ ['%']) s = like ('%' :: q ++ ['%']) s

/-- Both stores compare the text of a filter alike with a text. -/
structure Alike (q : Text) (signs : List Sign) : Prop where
  filter : Readable q
  text : Readable (signsText signs)
  together : Together q signs

section

variable (email : MailRecord) (query : EmailQuery)

def FromAlike : Prop := ∀ q ∈ query.fromQuery, Alike q (email.fromAddr.map .own)

/-- In no recipients there is no text, but LIKE finds the empty one. -/
def ToAlike : Prop :=
  ∀ q ∈ query.toQuery, Alike q (arraySigns email.toAddrs) ∧ (email.toAddrs = [] → q ≠ [])

/-- In no subject LIKE finds nothing, but there is the empty text. -/
def SubjectAlike : Prop :=
  ∀ q ∈ query.subject,
    (∀ s ∈ email.subject, Alike q (s.map .own)) ∧ (email.subject = none → q ≠ [])

/-- A record both stores treat alike: each text filter does, or one that does turns
    the record down. -/
inductive Comparable : Prop where
  | alike : FromAlike email query → ToAlike email query → SubjectAlike email query → Comparable
  | period : inPeriod email query = false → Comparable
  | sender : FromAlike email query →
      optional (containsLower email.fromAddr ·) query.fromQuery = false → Comparable
  | recipients : ToAlike email query →
      optional (fun q => email.toAddrs.any (containsLower · q)) query.toQuery = false → Comparable
  | subject : SubjectAlike email query →
      optional (containsLower (email.subject.getD []) ·) query.subject = false → Comparable

end

/-- No pattern is too long, if one is compared at all. -/
def PatternsFit (emails : List MailRecord) (query : EmailQuery) : Prop :=
  emails ≠ [] →
    ∀ o ∈ [query.fromQuery, query.toQuery, query.subject], ∀ q ∈ o, PatternFits q

/-- Both stores treat all records alike. -/
structure AllComparable (emails : List MailRecord) (query : EmailQuery) : Prop where
  patterns : PatternsFit emails query
  records : ∀ email ∈ emails, Comparable email query

/-- Both stores hold the same records. -/
structure Holds (json : Json) (mem : MemoryStore) (db : Database) : Prop where
  row : ∀ email ∈ mem.emails, ∃ t, rowOf json email t ∈ db.emails
  record : ∀ r ∈ db.emails, ∃ email ∈ mem.emails, ∃ t, r = rowOf json email t

/-- A filter agrees with another one where it is on. -/
theorem optional_congr {f g : Text → Bool} {o : Option Text} (h : ∀ q ∈ o, f q = g q) :
    optional f o = optional g o := by
  cases o with
  | none => rfl
  | some q => exact h q rfl

/-- A text without the wildcards of a pattern. -/
def dropWildcards (q : Text) : Text :=
  q.flatMap (fun c => if c = '%' then [] else if c = '_' then ['x'] else [c])

theorem literal_dropWildcards (q : Text) : Literal (dropWildcards q) := by
  intro d hd
  obtain ⟨c, -, hc⟩ := List.mem_flatMap.mp hd
  by_cases hpercent : c = '%'
  · rw [if_pos hpercent] at hc
    exact nomatch hc
  · rw [if_neg hpercent] at hc
    by_cases hunder : c = '_'
    · rw [if_pos hunder, List.mem_singleton] at hc
      rw [hc]
      decide
    · rw [if_neg hunder, List.mem_singleton] at hc
      rw [hc]
      exact ⟨hpercent, hunder⟩

theorem like_dropWildcards (q : Text) : like (q ++ ['%']) (dropWildcards q) = true := by
  induction q with
  | nil => exact like_percent_end []
  | cons c q ih =>
      rw [dropWildcards, List.flatMap_cons, ← dropWildcards, List.cons_append]
      by_cases hpercent : c = '%'
      · subst hpercent
        rw [if_pos rfl]
        exact (like_percent _ _).mpr ⟨dropWildcards q, List.suffix_refl _, ih⟩
      · by_cases hunder : c = '_'
        · subst hunder
          rw [if_neg hpercent, if_pos rfl]
          exact ih
        · rw [if_neg hpercent, if_neg hunder]
          exact (like_cons ⟨hpercent, hunder⟩ _ _).mpr ⟨c, dropWildcards q, rfl, rfl, ih⟩

/-- **Every wildcard tells the stores apart**: a text with one finds a text
    that does not contain it. -/
theorem exists_found_by_wildcard {q : Text} (h : ¬ Literal q) :
    ∃ s, columnLike like (some s) q = true ∧ containsLower s q = false := by
  refine ⟨dropWildcards q, ?_, ?_⟩
  · exact (like_percent _ _).mpr ⟨_, List.suffix_refl _, like_dropWildcards q⟩
  · rw [← Bool.not_eq_true, containsLower, contains_iff]
    intro hinfix
    obtain ⟨w, hw, hwild⟩ : ∃ w ∈ q, w = '%' ∨ w = '_' := by
      by_contra hno
      refine h (fun c hc => ⟨fun hp => hno ⟨c, hc, Or.inl hp⟩, fun hu => hno ⟨c, hc, Or.inr hu⟩⟩)
    -- the wildcard is left in the lowercase text, and comes from itself alone
    have hform : w.toNat < 128 ∧ w.isAlpha = false ∧ lowerForms w = [[w]] := by
      rcases hwild with rfl | rfl
      · decide
      · decide
    obtain ⟨x, hx, hsub⟩ := (toLowercaseAfter_spells q []).block_subset hw
    rw [hform.2.2, List.mem_singleton] at hx
    have hmem : w ∈ toLowercase (dropWildcards q) :=
      hinfix.subset (hsub (hx ▸ List.mem_singleton_self w))
    obtain ⟨d, hd, y, hy, hwy⟩ := (toLowercaseAfter_spells _ []).exists_block hmem
    obtain rfl := eq_of_mem_lowerForms hy hwy hform.1 hform.2.1
    rcases hwild with rfl | rfl
    · exact (literal_dropWildcards q _ hd).1 rfl
    · exact (literal_dropWildcards q _ hd).2 rfl

/-- **So does every letter with a case above ASCII**: a text with one is not
    found where the letter stands in another case. -/
theorem exists_missed_in_other_case {q : Text} {c d : Char} (hq : Literal q) (hsigma : 'Σ' ∉ q)
    (hc : c ∈ q) (hd : d ≠ 'Σ') (heq : charToLowercase c = charToLowercase d)
    (hcd : ¬ sameAscii c d) :
    ∃ s, columnLike like (some s) q = false ∧ containsLower s q = true := by
  refine ⟨q.map (fun e => if e = c then d else e), ?_, ?_⟩
  · rw [← Bool.not_eq_true]
    intro hlike
    obtain ⟨m, hm, hqm⟩ := (like_literal hq _).mp hlike
    -- as long as the text, the occurrence is all of it
    obtain rfl : m = q.map (fun e => if e = c then d else e) :=
      hm.eq_of_length (by rw [← hqm.length_eq, List.length_map])
    rw [List.forall₂_map_right_iff, List.forall₂_same] at hqm
    have hbad := hqm c hc
    rw [if_pos rfl] at hbad
    exact hcd hbad
  · have hsigma' : 'Σ' ∉ q.map (fun e => if e = c then d else e) := by
      intro hmem
      obtain ⟨e, he, hed⟩ := List.mem_map.mp hmem
      by_cases hec : e = c
      · rw [if_pos hec] at hed
        exact hd hed
      · rw [if_neg hec] at hed
        exact hsigma (hed ▸ he)
    rw [containsLower, contains_iff, toLowercase_eq_flatMap hsigma,
      toLowercase_eq_flatMap hsigma', List.flatMap_map]
    refine (List.flatMap_congr (fun e _ => ?_)).symm ▸ List.infix_refl _
    by_cases hec : e = c
    · rw [if_pos hec, hec, heq]
    · rw [if_neg hec]

section

variable {likes : Text → Text → Bool} {q : Text}

/-- A LIKE filter on a column that is not NULL. -/
theorem columnLike_iff (hlike : ReadsLike likes) (hfits : PatternFits q) {signs : List Sign}
    (h : Alike q signs) :
    columnLike likes (some (signsText signs)) q = true
      ↔ ∃ m, m.map .own <:+: signs ∧ List.Forall₂ sameAscii q m := by
  rw [columnLike, hlike q _ hfits h.filter h.text]
  exact like_iff_of_together h.together

theorem columnLike_eq (hlike : ReadsLike likes) (hfits : PatternFits q) {s : Text}
    (h : Alike q (s.map .own)) : columnLike likes (some s) q = containsLower s q := by
  rw [Bool.eq_iff_iff, containsLower_iff h.together]
  have hcolumn := columnLike_iff hlike hfits h
  rw [signsText_own] at hcolumn
  refine hcolumn.trans (exists_congr (fun m => and_congr_left (fun _ => ?_)))
  have hinj : Function.Injective (List.map Sign.own) :=
    List.map_injective_iff.mpr (fun _ _ => Sign.own.inj)
  constructor
  · intro h
    obtain ⟨m', hm', heq⟩ := List.infix_map_iff.mp h
    exact hinj heq ▸ hm'
  · exact fun h => h.map _

theorem columnLike_array (hlike : ReadsLike likes) (hfits : PatternFits q) {l : List Text}
    (h : Alike q (arraySigns l)) (hempty : l = [] → q ≠ []) :
    columnLike likes (some (array l)) q = l.any (containsLower · q) := by
  rw [Bool.eq_iff_iff, List.any_eq_true, ← signsText_arraySigns]
  refine ((columnLike_iff hlike hfits h).trans (infix_array_iff h.together hempty)).trans ?_
  refine exists_congr (fun t => and_congr_right (fun ht => ?_))
  exact (containsLower_iff (h.together.recipient ht)).symm

/-- Nothing but the empty text is in the empty text. -/
theorem containsLower_nil (hq : q ≠ []) : containsLower [] q = false := by
  rw [containsLower, ← Bool.not_eq_true, contains_iff]
  intro hinfix
  obtain ⟨c, hc⟩ := List.exists_mem_of_ne_nil q hq
  obtain ⟨x, hx, hsub⟩ := (toLowercaseAfter_spells q []).block_subset hc
  have hnil : toLowercase q = [] := List.infix_nil.mp hinfix
  exact (lowerForms_form hx).1 (List.subset_nil.mp (hnil ▸ hsub))

theorem columnLike_subject (hlike : ReadsLike likes) (hfits : PatternFits q)
    {subject : Option Text} (hsome : ∀ s ∈ subject, Alike q (s.map .own))
    (hnone : subject = none → q ≠ []) :
    columnLike likes subject q = containsLower (subject.getD []) q := by
  cases subject with
  | none => exact (containsLower_nil (hnone rfl)).symm
  | some s => exact columnLike_eq hlike hfits (hsome s rfl)

end

theorem decide_le (a b : Bytes) : decide (a ≤ b) = !decide (b < a) := by
  rw [Bool.eq_iff_iff, decide_eq_true_iff, Bool.not_eq_true', decide_eq_false_iff_not,
    List.not_lt]

section

variable {json : Json} {likes : Text → Text → Bool} {emails : List MailRecord}
  {email : MailRecord} {q : EmailQuery}

/-- The filters of a database on the row of a record. -/
theorem selects_eq (hjson : ∀ l, json.list l = array l) (t : Int) :
    selects likes q (rowOf json email t)
      = (optional (columnLike likes (some email.fromAddr)) q.fromQuery
        && optional (columnLike likes (some (array email.toAddrs))) q.toQuery
        && optional (columnLike likes email.subject) q.subject && inPeriod email q) := by
  have hperiod : (optional (fun since => decide (encode since ≤ encode email.date)) q.sinceDate
      && optional (fun upTo => decide (encode email.date ≤ encode upTo)) q.untilDate)
      = inPeriod email q := by
    rw [inPeriod]
    exact congrArg₂ _ (optional_congr (fun _ _ => decide_le _ _))
      (optional_congr (fun _ _ => decide_le _ _))
  rw [selects, Bool.and_assoc _ _ (optional _ q.untilDate), ← hperiod, ← hjson]
  rfl

/-- **A comparable record** is selected just when it matches. -/
theorem selects_rowOf (hjson : ∀ l, json.list l = array l) (hlike : ReadsLike likes)
    (h : AllComparable emails q) (hemail : email ∈ emails) (t : Int) :
    selects likes q (rowOf json email t) = matchesQuery email q := by
  have hfits := h.patterns (List.ne_nil_of_mem hemail)
  have hfrom : FromAlike email q → optional (columnLike likes (some email.fromAddr)) q.fromQuery
      = optional (containsLower email.fromAddr ·) q.fromQuery :=
    fun ha => optional_congr (fun p hp =>
      columnLike_eq hlike (hfits _ List.mem_cons_self p hp) (ha p hp))
  have hto : ToAlike email q → optional (columnLike likes (some (array email.toAddrs))) q.toQuery
      = optional (fun p => email.toAddrs.any (containsLower · p)) q.toQuery :=
    fun ha => optional_congr (fun p hp =>
      columnLike_array hlike (hfits _ (by simp) p hp) (ha p hp).1 (ha p hp).2)
  have hsubject : SubjectAlike email q → optional (columnLike likes email.subject) q.subject
      = optional (containsLower (email.subject.getD []) ·) q.subject :=
    fun ha => optional_congr (fun p hp =>
      columnLike_subject hlike (hfits _ (by simp) p hp) (ha p hp).1 (ha p hp).2)
  rw [selects_eq hjson, matchesQuery, Bool.and_assoc _ _ (optional _ q.untilDate), ← inPeriod]
  -- a filter that turns the record down decides for both
  cases h.records email hemail with
  | alike hf ht hs => rw [hfrom hf, hto ht, hsubject hs]
  | period hp => rw [hp, Bool.and_false, Bool.and_false]
  | sender hf hno => simp only [hfrom hf, hno, Bool.false_and]
  | recipients ht hno => simp only [hto ht, hno, Bool.and_false, Bool.false_and]
  | subject hs hno => simp only [hsubject hs, hno, Bool.and_false, Bool.false_and]

end

end Search
