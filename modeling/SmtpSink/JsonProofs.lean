import Mathlib.Data.List.Infix

/-! # JSON texts — a list of strings, written compactly

    `array` is the JSON text of a list of strings without blanks: the strings in
    quotes, separated by commas, in brackets.

    `arraySigns` is the same text with a mark on each of its parts (`Sign`): a
    character of a string as it is, an escape of one, or what JSON adds.  A
    segment of characters as they are lies inside one of the strings
    (`infix_arraySigns`). -/

namespace JsonText

/-- A hexadecimal digit, in lower case. -/
def hexDigit (n : Nat) : Char := "0123456789abcdef".toList.getD n '0'

/-- A character inside a JSON string. -/
def escapeChar (c : Char) : List Char :=
  if c = '"' then ['\\', '"']
  else if c = '\\' then ['\\', '\\']
  else if c = '\x08' then ['\\', 'b']
  else if c = '\t' then ['\\', 't']
  else if c = '\n' then ['\\', 'n']
  else if c = '\x0c' then ['\\', 'f']
  else if c = '\r' then ['\\', 'r']
  else if c.toNat < 32 then
    ['\\', 'u', '0', '0', hexDigit (c.toNat / 16), hexDigit (c.toNat % 16)]
  else [c]

/-- The inside of a JSON string. -/
def escape (s : List Char) : List Char := s.flatMap escapeChar

/-- The rest of an array, behind one of its strings. -/
def arrayTail : List (List Char) → List Char
  | [] => [']']
  | s :: more => ',' :: '"' :: (escape s ++ '"' :: arrayTail more)

/-- The JSON text of a list of strings. -/
def array : List (List Char) → List Char
  | [] => ['[', ']']
  | s :: more => '[' :: '"' :: (escape s ++ '"' :: arrayTail more)

/-- A part of the JSON text of strings. -/
inductive Sign where
  /-- a character of a string, written as it is -/
  | own (c : Char)
  /-- a character of a string, written as an escape -/
  | escaped (c : Char)
  /-- a quote, a comma or a bracket -/
  | added (a : Char)
  deriving DecidableEq

/-- What a part is written as. -/
def Sign.text : Sign → List Char
  | .own c => [c]
  | .escaped c => escapeChar c
  | .added a => [a]

def signsText (signs : List Sign) : List Char := signs.flatMap Sign.text

/-- The part for a character of a string. -/
def charSign (c : Char) : Sign := if escapeChar c = [c] then .own c else .escaped c

/-- The parts of `arrayTail`. -/
def tailSigns : List (List Char) → List Sign
  | [] => [.added ']']
  | s :: more =>
      .added ',' :: .added '"' :: (s.map charSign ++ .added '"' :: tailSigns more)

/-- The parts of `array`. -/
def arraySigns : List (List Char) → List Sign
  | [] => [.added '[', .added ']']
  | s :: more => .added '[' :: .added '"' :: (s.map charSign ++ .added '"' :: tailSigns more)

theorem escapeChar_ne_nil (c : Char) : escapeChar c ≠ [] := by
  rw [escapeChar]
  split_ifs <;> exact List.cons_ne_nil _ _

@[simp] theorem signsText_cons (g : Sign) (signs : List Sign) :
    signsText (g :: signs) = g.text ++ signsText signs := List.flatMap_cons

theorem signsText_own (s : List Char) : signsText (s.map .own) = s := by
  rw [signsText, List.flatMap_map]
  exact List.flatMap_singleton' s

theorem text_charSign (c : Char) : (charSign c).text = escapeChar c := by
  rw [charSign]
  by_cases hc : escapeChar c = [c]
  · rw [if_pos hc, hc]
    rfl
  · rw [if_neg hc]
    rfl

/-- Only a character as it is stands for itself. -/
theorem charSign_eq_own {c d : Char} : charSign c = .own d ↔ escapeChar c = [c] ∧ c = d := by
  rw [charSign]
  by_cases hc : escapeChar c = [c]
  · rw [if_pos hc, Sign.own.injEq]
    exact (and_iff_right hc).symm
  · rw [if_neg hc]
    exact iff_of_false Sign.noConfusion (fun h => hc h.1)

theorem eq_of_map_charSign {m m' : List Char} (h : m.map .own = m'.map charSign) : m = m' := by
  induction m generalizing m' with
  | nil => exact (List.map_eq_nil_iff.mp h.symm).symm
  | cons c m ih =>
      cases m' with
      | nil => exact absurd h (List.cons_ne_nil _ _)
      | cons d m' =>
          obtain ⟨hcd, hm⟩ := List.cons.inj h
          rw [(charSign_eq_own.mp hcd.symm).2, ih hm]

theorem signsText_escape (s : List Char) (signs : List Sign) :
    signsText (s.map charSign ++ signs) = escape s ++ signsText signs := by
  rw [signsText, List.flatMap_append, List.flatMap_map, escape]
  exact congrArg (· ++ _) (List.flatMap_congr (fun c _ => text_charSign c))

/-- **The parts make up the text.** -/
theorem signsText_arraySigns (l : List (List Char)) : signsText (arraySigns l) = array l := by
  have htail : ∀ more, signsText (tailSigns more) = arrayTail more := by
    intro more
    induction more with
    | nil => rfl
    | cons s more ih =>
        simp only [tailSigns, arrayTail, signsText_cons, signsText_escape, ih, Sign.text,
          List.cons_append, List.nil_append]
  cases l with
  | nil => rfl
  | cons s more =>
      simp only [arraySigns, array, signsText_cons, signsText_escape, htail, Sign.text,
        List.cons_append, List.nil_append]

/-- A segment without a certain element lies on one side of it. -/
theorem infix_append_cons {α : Type} {a : α} {m p q : List α} (hm : a ∉ m)
    (h : m <:+: p ++ a :: q) : m <:+: p ∨ m <:+: q := by
  have hpre : ∀ l, l <+: a :: q → (∀ c ∈ l, c ∈ m) → l = [] := by
    rintro l ⟨t, ht⟩ hl
    cases l with
    | nil => rfl
    | cons b l =>
        obtain rfl : b = a := (List.cons.inj ht).1
        exact absurd (hl b List.mem_cons_self) hm
  rcases List.infix_append_iff.mp h with h | h | ⟨l, l', rfl, hl, hl'⟩
  · exact Or.inl h
  · rcases List.infix_cons_iff.mp h with h | h
    · rw [hpre m h (fun _ hc => hc)]
      exact Or.inl List.nil_infix
    · exact Or.inr h
  · rw [hpre l' hl' (fun _ hc => List.mem_append_right _ hc), List.append_nil]
    exact Or.inl hl.isInfix

/-- A part that JSON adds lies on one side of characters as they are. -/
theorem infix_added {a : Char} {m : List Char} {p signs : List Sign}
    (h : m.map .own <:+: p ++ .added a :: signs) : m.map .own <:+: p ∨ m.map .own <:+: signs := by
  refine infix_append_cons (fun hmem => ?_) h
  obtain ⟨c, -, hc⟩ := List.mem_map.mp hmem
  exact Sign.noConfusion hc

/-- **Characters as they are** lie inside one of the strings. -/
theorem infix_arraySigns {m : List Char} (hm : m ≠ []) {l : List (List Char)}
    (h : m.map .own <:+: arraySigns l) : ∃ s ∈ l, m.map .own <:+: s.map charSign := by
  have hnil : ¬ m.map Sign.own <:+: [] := fun h => hm (List.map_eq_nil_iff.mp (List.infix_nil.mp h))
  have htail : ∀ more, m.map .own <:+: tailSigns more →
      ∃ s ∈ more, m.map .own <:+: s.map charSign := by
    intro more
    induction more with
    | nil => exact fun h => ((infix_added (p := []) h).elim hnil hnil).elim
    | cons s more ih =>
        intro h
        have h := (infix_added (p := []) h).resolve_left hnil
        have h := (infix_added (p := []) h).resolve_left hnil
        rcases infix_added h with h | h
        · exact ⟨s, List.mem_cons_self, h⟩
        · obtain ⟨t, ht, h⟩ := ih h
          exact ⟨t, List.mem_cons_of_mem _ ht, h⟩
  cases l with
  | nil =>
      have h := (infix_added (p := []) h).resolve_left hnil
      exact ((infix_added (p := []) h).elim hnil hnil).elim
  | cons s more =>
      have h := (infix_added (p := []) h).resolve_left hnil
      have h := (infix_added (p := []) h).resolve_left hnil
      rcases infix_added h with h | h
      · exact ⟨s, List.mem_cons_self, h⟩
      · obtain ⟨t, ht, h⟩ := htail more h
        exact ⟨t, List.mem_cons_of_mem _ ht, h⟩

/-- Every string of the list has its parts among those of the text, behind which
    a quote stands. -/
theorem exists_suffix_arraySigns {l : List (List Char)} {s : List Char} (hs : s ∈ l) :
    ∃ signs, s.map charSign ++ .added '"' :: signs <:+ arraySigns l := by
  have htail : ∀ more : List (List Char), s ∈ more →
      ∃ signs, s.map charSign ++ .added '"' :: signs <:+ tailSigns more := by
    intro more
    induction more with
    | nil => exact fun h => absurd h List.not_mem_nil
    | cons t more ih =>
        intro h
        rcases List.mem_cons.mp h with rfl | h
        · exact ⟨tailSigns more, [.added ',', .added '"'], rfl⟩
        · obtain ⟨signs, hsigns⟩ := ih h
          refine ⟨signs, hsigns.trans
            ⟨.added ',' :: .added '"' :: (t.map charSign ++ [.added '"']), ?_⟩⟩
          rw [tailSigns]
          simp
  cases l with
  | nil => exact absurd hs List.not_mem_nil
  | cons t more =>
      rcases List.mem_cons.mp hs with rfl | hs
      · exact ⟨tailSigns more, [.added '[', .added '"'], rfl⟩
      · obtain ⟨signs, hsigns⟩ := htail more hs
        refine ⟨signs, hsigns.trans
          ⟨.added '[' :: .added '"' :: (t.map charSign ++ [.added '"']), ?_⟩⟩
        rw [arraySigns]
        simp

end JsonText
