import Mathlib.Data.List.DropRight
import Mathlib.Data.List.Infix
import SmtpSink.Utf8Proofs
import SmtpSink.UnicodeCaseTables

/-! # Unicode text operations — trimming and case conversion

    White space trimming by the `White_Space` property and the full case
    conversions: one character may become several, and a capital sigma is
    lowercased by its context.

    The result other files rest on is `prefix_toUppercase`: when the uppercase
    form of a text starts with an ASCII pattern, the text itself starts with
    characters that match the pattern one by one, where a match is an ASCII
    letter of either case or one of the two characters above ASCII with an
    ASCII capital (`ı` and `ſ`). -/

namespace Unicode

open Utf8 UnicodeCase

/-! ## White space -/

/-- The `White_Space` property. -/
def isWhitespace (c : Char) : Bool :=
  let n := c.toNat
  (9 ≤ n && n ≤ 13) || n == 0x20 || n == 0x85 || n == 0xA0 || n == 0x1680
    || (0x2000 ≤ n && n ≤ 0x200A) || n == 0x2028 || n == 0x2029
    || n == 0x202F || n == 0x205F || n == 0x3000

/-- A text without its leading and trailing characters of a kind. -/
def trimMatches (p : Char → Bool) (s : Text) : Text :=
  (s.dropWhile p).rdropWhile p

/-- A text without its leading and trailing white space. -/
def trim (s : Text) : Text := trimMatches isWhitespace s

/-- The white-space separated words of a text; `w` is the word being read. -/
def splitWhitespaceFrom (w : Text) : Text → List Text
  | [] => if w.isEmpty then [] else [w]
  | c :: s =>
      if isWhitespace c then
        if w.isEmpty then splitWhitespaceFrom [] s
        else w :: splitWhitespaceFrom [] s
      else splitWhitespaceFrom (w ++ [c]) s

/-- The white-space separated words of a text. -/
def splitWhitespace (s : Text) : List Text := splitWhitespaceFrom [] s

/-- Trailing white space does not count. -/
theorem trim_append_whitespace (s t : Text) (ht : ∀ c ∈ t, isWhitespace c = true) :
    trim (s ++ t) = trim s := by
  have hr : ∀ u : Text, (u ++ t).rdropWhile isWhitespace
      = u.rdropWhile isWhitespace := by
    intro u
    induction t using List.reverseRecOn with
    | nil => rw [List.append_nil]
    | append_singleton t c ih =>
        rw [← List.append_assoc, List.rdropWhile_concat_pos _ _ _ (ht c (by simp))]
        exact ih (fun d hd => ht d (by simp [hd]))
  show trimMatches isWhitespace (s ++ t) = trimMatches isWhitespace s
  rw [trimMatches, trimMatches]
  by_cases hs : ∀ c ∈ s, isWhitespace c = true
  · have hall : ∀ c ∈ s ++ t, isWhitespace c = true := by
      intro c hc
      rcases List.mem_append.mp hc with h | h
      · exact hs c h
      · exact ht c h
    rw [List.dropWhile_eq_nil_iff.mpr hall, List.dropWhile_eq_nil_iff.mpr hs]
  · have hne : s.dropWhile isWhitespace ≠ [] := by
      rw [ne_eq, List.dropWhile_eq_nil_iff]
      exact hs
    rw [List.dropWhile_append, if_neg (by simpa using hne), hr]

/-- A text that starts with a visible character keeps it when trimmed. -/
theorem trim_cons {c : Char} (s : Text) (hc : isWhitespace c = false) :
    trim (c :: s) = c :: s.rdropWhile isWhitespace := by
  rw [trim, trimMatches, List.dropWhile_cons_of_neg (by simp [hc])]
  induction s using List.reverseRecOn with
  | nil => rw [List.rdropWhile_nil, List.rdropWhile_singleton, if_neg (by simp [hc])]
  | append_singleton s d ih =>
      rw [← List.cons_append, List.rdropWhile_concat, List.rdropWhile_concat]
      by_cases hd : isWhitespace d = true
      · rw [if_pos hd, if_pos hd]
        exact ih
      · rw [if_neg hd, if_neg hd]
        rfl

/-- A text between two visible characters is not trimmed. -/
theorem trim_visible {c d : Char} (s : Text) (hc : isWhitespace c = false)
    (hd : isWhitespace d = false) : trim (c :: s ++ [d]) = c :: s ++ [d] := by
  rw [List.cons_append, trim_cons _ hc, List.rdropWhile_concat_neg _ _ _ (by simp [hd])]

/-- A text that starts and ends with visible characters is not trimmed. -/
theorem trim_eq_self {t : Text} (hfirst : ∀ c ∈ t.head?, isWhitespace c = false)
    (hlast : ∀ c ∈ t.getLast?, isWhitespace c = false) : trim t = t := by
  cases t with
  | nil => rfl
  | cons c s =>
      have hc : isWhitespace c = false := hfirst c rfl
      rcases List.eq_nil_or_concat s with rfl | ⟨s, d, rfl⟩
      · exact trim_cons [] hc
      · rw [List.concat_eq_append] at hlast ⊢
        have hd : (c :: s ++ [d]).getLast? = some d := List.getLast?_concat
        exact trim_visible s hc (hlast d hd)

/-! ## Words -/

/-- The visible characters that come next belong to the word being read. -/
theorem splitWhitespaceFrom_append (w : Text) {v : Text}
    (hv : ∀ c ∈ v, isWhitespace c = false) (t : Text) :
    splitWhitespaceFrom w (v ++ t) = splitWhitespaceFrom (w ++ v) t := by
  induction v generalizing w with
  | nil => rw [List.nil_append, List.append_nil]
  | cons c v ih =>
      rw [List.cons_append, splitWhitespaceFrom, hv c List.mem_cons_self,
        if_neg Bool.false_ne_true, ih (w ++ [c]) (fun d hd => hv d (List.mem_cons_of_mem _ hd)),
        List.append_assoc]
      rfl

theorem splitWhitespace_cons {v : Text} (hv : ∀ c ∈ v, isWhitespace c = false) (hne : v ≠ [])
    (t : Text) : splitWhitespace (v ++ ' ' :: t) = v :: splitWhitespace t := by
  have hempty : v.isEmpty = false := List.isEmpty_eq_false_iff.mpr hne
  have hspace : isWhitespace ' ' = true := by decide
  rw [splitWhitespace, splitWhitespaceFrom_append [] hv, List.nil_append, splitWhitespaceFrom,
    hspace, if_pos rfl, hempty, if_neg Bool.false_ne_true]
  rfl

theorem splitWhitespace_word {v : Text} (hv : ∀ c ∈ v, isWhitespace c = false) (hne : v ≠ []) :
    splitWhitespace v = [v] := by
  have hempty : v.isEmpty = false := List.isEmpty_eq_false_iff.mpr hne
  have hword := splitWhitespaceFrom_append [] hv []
  rw [List.append_nil, List.nil_append] at hword
  rw [splitWhitespace, hword, splitWhitespaceFrom, hempty]
  rfl

/-- A kind of character that is never white space is not affected by
    trimming. -/
theorem filter_trim {p : Char → Bool} (hp : ∀ c, isWhitespace c = true → p c = false)
    (s : Text) : (trim s).filter p = s.filter p := by
  have hdrop : ∀ u : Text, (u.dropWhile isWhitespace).filter p = u.filter p := by
    intro u
    induction u with
    | nil => rfl
    | cons c u ih =>
        by_cases hc : isWhitespace c = true
        · rw [List.dropWhile_cons_of_pos hc, ih, List.filter_cons, hp c hc]
          rfl
        · rw [List.dropWhile_cons_of_neg hc]
  rw [trim, trimMatches, List.rdropWhile, List.filter_reverse, hdrop,
    List.filter_reverse, List.reverse_reverse, hdrop]

/-! ## Case conversion -/

/-- The mapping of one character above ASCII, given its tables. -/
def mapAbove (expansions : List (Nat × List Nat)) (ranges : List CaseRange)
    (c : Char) : Text :=
  match expansions.lookup c.toNat with
  | some l => l.map Char.ofNat
  | none =>
      match ranges.findSome? (·.image? c.toNat) with
      | some n => [Char.ofNat n]
      | none => [c]

/-- Uppercase mapping of one character. -/
def charToUppercase (c : Char) : Text :=
  if c.toNat < 128 then [c.toUpper] else mapAbove upperExpansions upperRanges c

/-- Lowercase mapping of one character, without context. -/
def charToLowercase (c : Char) : Text :=
  if c.toNat < 128 then [c.toLower] else mapAbove lowerExpansions lowerRanges c

/-- Uppercase form of a text. -/
def toUppercase (s : Text) : Text := s.flatMap charToUppercase

/-- Class `Cased`. -/
def cased (c : Char) : Bool :=
  c.isAlpha || casedRanges.any (fun r => r.1 ≤ c.toNat && c.toNat ≤ r.2)

/-- Class `Case_Ignorable`. -/
def caseIgnorable (c : Char) : Bool :=
  caseIgnorableRanges.any (fun r => r.1 ≤ c.toNat && c.toNat ≤ r.2)

/-- Whether the first character that is not case-ignorable is cased. -/
def caseIgnorableThenCased (s : Text) : Bool :=
  match s.dropWhile caseIgnorable with
  | c :: _ => cased c
  | [] => false

/-- Lowercase form of what follows the text whose reverse is `before`; a
    capital sigma at the end of a word becomes the final sigma. -/
def toLowercaseAfter (before : Text) : Text → Text
  | [] => []
  | c :: s =>
      (if c = 'Σ' then
        if caseIgnorableThenCased before && !caseIgnorableThenCased s then ['ς']
        else ['σ']
      else charToLowercase c) ++ toLowercaseAfter (c :: before) s

/-- Lowercase form of a text. -/
def toLowercase (s : Text) : Text := toLowercaseAfter [] s

example : toUppercase "straße ŉ ﬁ".toList = "STRASSE ʼN FI".toList := by decide +kernel
example : toLowercase "ΟΔΟΣ İK".toList = "οδος i̇k".toList := by decide +kernel

/-! ## Words in any letter case -/

/-- The text is an ASCII word in some letter case. -/
def Spelled (w : Text) (word : String) : Prop := w.map Char.toUpper = word.toList

instance (w : Text) (word : String) : Decidable (Spelled w word) :=
  inferInstanceAs (Decidable (_ = _))

/-- Only ASCII characters have an ASCII letter as their uppercase form. -/
theorem lt_of_toUpper {c : Char} (h : c.toUpper.toNat < 128) : c.toNat < 128 := by
  by_cases hc : 'a'.val ≤ c.val ∧ c.val ≤ 'z'.val
  · have hle : c.toNat ≤ 'z'.toNat := hc.2
    have hz : 'z'.toNat < 128 := by decide
    omega
  · have hself : c.toUpper = c := dif_neg hc
    rwa [hself] at h

theorem Spelled.toUppercase_eq {w : Text} {word : String} (h : Spelled w word)
    (hword : ∀ c ∈ word.toList, c.toNat < 128) : toUppercase w = word.toList := by
  rw [← h] at hword ⊢
  have hup : ∀ c ∈ w, charToUppercase c = [c.toUpper] := by
    intro c hc
    rw [charToUppercase, if_pos (lt_of_toUpper (hword _ (List.mem_map_of_mem hc)))]
  rw [toUppercase, List.flatMap_congr hup]
  exact (List.map_eq_flatMap ..).symm

/-- Letters are visible. -/
theorem Spelled.visible {w : Text} {word : String} (h : Spelled w word)
    (hword : ∀ c ∈ word.toList, c.isUpper = true) : ∀ c ∈ w, isWhitespace c = false := by
  intro c hc
  have hupper : c.toUpper.isUpper = true := by
    refine hword _ ?_
    rw [← h]
    exact List.mem_map_of_mem hc
  have hlt : c.toUpper.toNat < 128 := by
    have hle : c.toUpper.toNat ≤ 'Z'.toNat := (of_decide_eq_true hupper).2
    have hz : 'Z'.toNat < 128 := by decide
    omega
  have hall : ∀ n < 128, (Char.ofNat n).toUpper.isUpper = true →
      isWhitespace (Char.ofNat n) = false := by
    decide +kernel
  have hc := hall c.toNat (lt_of_toUpper hlt)
  rw [Char.ofNat_toNat] at hc
  exact hc hupper

/-! ## ASCII patterns in an uppercase form -/

/-- A character whose uppercase form is the ASCII character `a`. -/
def UpperMatch (c a : Char) : Prop :=
  (c.toNat < 128 ∧ c.toUpper = a) ∨ (c = 'ı' ∧ a = 'I') ∨ (c = 'ſ' ∧ a = 'S')

/-- A pattern no multi-character uppercase form can take part in. -/
def NoExpansion (p : Text) : Prop :=
  ∀ e ∈ upperExpansions, ∀ q ∈ p.tails, q ≠ [] →
    ¬ e.2.map Char.ofNat <+: q ∧ ¬ q <+: e.2.map Char.ofNat

instance (p : Text) : Decidable (NoExpansion p) :=
  inferInstanceAs (Decidable (∀ e ∈ upperExpansions, ∀ q ∈ p.tails, q ≠ [] →
    ¬ e.2.map Char.ofNat <+: q ∧ ¬ q <+: e.2.map Char.ofNat))

/-- Every uppercase range stays inside the scalar values, and only the ranges
    of `ı` and `ſ` reach ASCII. -/
private theorem upperRanges_images : ∀ r ∈ upperRanges,
    (r.image + (r.last - r.first) < 0xD800
      ∨ 0xE000 ≤ r.image ∧ r.image + (r.last - r.first) < 0x110000)
    ∧ (128 ≤ r.image ∨ (r.first = 0x131 ∧ r.last = 0x131 ∧ r.image = 0x49)
      ∨ (r.first = 0x17F ∧ r.last = 0x17F ∧ r.image = 0x53)) := by
  decide +kernel

theorem toNat_ofNat {n : Nat}
    (h : n < 0xD800 ∨ 0xE000 ≤ n ∧ n < 0x110000) : (Char.ofNat n).toNat = n := by
  have hv : n.isValidChar := by
    rcases h with h | ⟨h1, h2⟩
    · exact Or.inl h
    · exact Or.inr ⟨by omega, h2⟩
  rw [Char.ofNat, dif_pos hv]
  rfl

private theorem eq_of_toNat {c d : Char} (h : c.toNat = d.toNat) : c = d :=
  Char.ext (UInt32.toNat_inj.mp h)

/-- The mapping of a character is an expansion, the character itself, or its image
    under a range that holds it. -/
theorem mapAbove_cases (expansions : List (Nat × List Nat)) (ranges : List CaseRange)
    (c : Char) :
    (∃ e ∈ expansions, mapAbove expansions ranges c = e.2.map Char.ofNat)
    ∨ mapAbove expansions ranges c = [c]
    ∨ ∃ r ∈ ranges, r.first ≤ c.toNat ∧ c.toNat ≤ r.last
      ∧ mapAbove expansions ranges c = [Char.ofNat (r.image + (c.toNat - r.first))] := by
  rw [mapAbove]
  cases he : expansions.lookup c.toNat with
  | some l =>
      obtain ⟨l₁, l₂, hl, -⟩ := List.lookup_eq_some_iff.mp he
      exact Or.inl ⟨(c.toNat, l), by rw [hl]; simp, rfl⟩
  | none =>
      refine Or.inr ?_
      cases hr : ranges.findSome? (·.image? c.toNat) with
      | none => exact Or.inl rfl
      | some n =>
          obtain ⟨r, hmem, hn⟩ := List.exists_of_findSome?_eq_some hr
          rw [CaseRange.image?] at hn
          split_ifs at hn with hin
          obtain rfl := Option.some.inj hn
          exact Or.inr ⟨r, hmem, hin.1, hin.2.1, rfl⟩

/-- A character is uppercased to one ASCII character it matches, to one
    character above ASCII, or by an expansion. -/
theorem charToUppercase_cases (c : Char) :
    (∃ d, charToUppercase c = [d] ∧ (UpperMatch c d ∨ 128 ≤ d.toNat))
    ∨ ∃ e ∈ upperExpansions, charToUppercase c = e.2.map Char.ofNat := by
  rw [charToUppercase]
  by_cases hc : c.toNat < 128
  · rw [if_pos hc]
    exact Or.inl ⟨c.toUpper, rfl, Or.inl (Or.inl ⟨hc, rfl⟩)⟩
  · rw [if_neg hc]
    rcases mapAbove_cases upperExpansions upperRanges c with
      he | hc' | ⟨r, hmem, hfirst, hlast, hr⟩
    · exact Or.inr he
    · exact Or.inl ⟨c, hc', Or.inr (by omega)⟩
    · obtain ⟨hvalid, himage⟩ := upperRanges_images r hmem
      have htoNat : (Char.ofNat (r.image + (c.toNat - r.first))).toNat
          = r.image + (c.toNat - r.first) := toNat_ofNat (by omega)
      refine Or.inl ⟨_, hr, ?_⟩
      rcases himage with h | ⟨h1, h2, h3⟩ | ⟨h1, h2, h3⟩
      · exact Or.inr (by omega)
      · refine Or.inl (Or.inr (Or.inl ⟨eq_of_toNat ?_, eq_of_toNat ?_⟩))
        · show c.toNat = 0x131
          omega
        · rw [htoNat]
          show r.image + (c.toNat - r.first) = 0x49
          omega
      · refine Or.inl (Or.inr (Or.inr ⟨eq_of_toNat ?_, eq_of_toNat ?_⟩))
        · show c.toNat = 0x17F
          omega
        · rw [htoNat]
          show r.image + (c.toNat - r.first) = 0x53
          omega

/-- **A pattern in an uppercase form is matched character by character.** -/
theorem prefix_toUppercase (p : Text) (hascii : ∀ a ∈ p, a.toNat < 128)
    (hexp : NoExpansion p) :
    ∀ s, p <+: toUppercase s →
      ∃ m r, s = m ++ r ∧ List.Forall₂ UpperMatch m p := by
  induction p with
  | nil => intro s _; exact ⟨[], s, rfl, List.Forall₂.nil⟩
  | cons a p ih =>
      intro s hpre
      cases s with
      | nil => exact absurd (List.prefix_nil.mp hpre) (by simp)
      | cons c s =>
          have hstep : toUppercase (c :: s) = charToUppercase c ++ toUppercase s := rfl
          rw [hstep] at hpre
          rcases charToUppercase_cases c with ⟨d, hd, hmatch⟩ | ⟨e, he, hce⟩
          · rw [hd, List.singleton_append, List.cons_prefix_cons] at hpre
            obtain ⟨rfl, hpre⟩ := hpre
            have hca : UpperMatch c a := by
              rcases hmatch with h | h
              · exact h
              · exact absurd (hascii a (by simp)) (by omega)
            have hexp' : NoExpansion p := by
              intro e he q hq
              exact hexp e he q ((List.mem_tails _ _).mpr
                (((List.mem_tails _ _).mp hq).trans (List.suffix_cons a p)))
            obtain ⟨m, r, hs, hm⟩ := ih
              (fun b hb => hascii b (List.mem_cons_of_mem _ hb)) hexp' s hpre
            exact ⟨c :: m, r, by rw [hs]; rfl, List.Forall₂.cons hca hm⟩
          · -- an expansion would overlap the rest of the pattern
            obtain ⟨h1, h2⟩ := hexp e he (a :: p) (by simp) (by simp)
            rw [hce] at hpre
            rcases List.prefix_or_prefix_of_prefix hpre
              (List.prefix_append (e.2.map Char.ofNat) (toUppercase s)) with h | h
            · exact absurd h h2
            · exact absurd h h1

/-- A matched pattern is as long as the text in bytes, but for one more byte at
    each `I` or `S` matched by a character above ASCII. -/
theorem byteLen_upperMatch {m p : Text} (h : List.Forall₂ UpperMatch m p) :
    p.length ≤ byteLen m ∧ byteLen m ≤ p.length + (p.count 'I' + p.count 'S') := by
  induction h with
  | nil => exact ⟨Nat.le_refl _, Nat.le_refl _⟩
  | @cons c a m p hca _ ih =>
      rw [byteLen_cons, List.length_cons, List.count_cons, List.count_cons]
      rcases hca with ⟨hc, -⟩ | ⟨rfl, rfl⟩ | ⟨rfl, rfl⟩
      · have hsize : c.utf8Size = 1 := by
          rw [Char.utf8Size_eq_one_iff, UInt32.le_iff_toNat_le]
          exact Nat.le_of_lt_succ hc
        omega
      · have hsize : 'ı'.utf8Size = 2 := by decide
        simp only [hsize, beq_self_eq_true, if_true]
        omega
      · have hsize : 'ſ'.utf8Size = 2 := by decide
        simp only [hsize, beq_self_eq_true, if_true]
        omega

end Unicode
