import SmtpSink.JsonProofs

/-! # JSON strings — reading an escaped text back

    A reader behind an opening quote takes one character at a time: a character
    that needs no escaping, a short escape, or a code unit in four hexadecimal
    digits, of which a leading surrogate must be followed by a trailing one.

    `readChars_escape` — the escaped text of any string is read back up to its
    closing quote, with what follows left over. -/

namespace JsonText

/-- The value of a hexadecimal digit. -/
def hexValue (c : Char) : Option Nat :=
  if '0' ≤ c ∧ c ≤ '9' then some (c.toNat - '0'.toNat)
  else if 'a' ≤ c ∧ c ≤ 'f' then some (c.toNat - 'a'.toNat + 10)
  else if 'A' ≤ c ∧ c ≤ 'F' then some (c.toNat - 'A'.toNat + 10)
  else none

/-- A code unit in four hexadecimal digits, and what follows it. -/
def readUnit : List Char → Option (Nat × List Char)
  | a :: b :: c :: d :: s =>
      match hexValue a, hexValue b, hexValue c, hexValue d with
      | some i, some j, some k, some l => some (((i * 16 + j) * 16 + k) * 16 + l, s)
      | _, _, _, _ => none
  | _ => none

/-- A code unit is the first half of a surrogate pair. -/
def isLeading (n : Nat) : Bool := 0xD800 ≤ n && n < 0xDC00

/-- A code unit is the second half of a surrogate pair. -/
def isTrailing (n : Nat) : Bool := 0xDC00 ≤ n && n < 0xE000

/-- The second half of a surrogate pair, behind the first. -/
def readTrailing (lead : Nat) : List Char → Option (Char × List Char)
  | '\\' :: 'u' :: s =>
      match readUnit s with
      | some (n, s) =>
          if isTrailing n then
            some (Char.ofNat (0x10000 + (lead - 0xD800) * 0x400 + (n - 0xDC00)), s)
          else none
      | none => none
  | _ => none

/-- The character a short escape stands for. -/
def shortEscape (c : Char) : Option Char :=
  if c = '"' ∨ c = '\\' ∨ c = '/' then some c
  else if c = 'b' then some '\x08'
  else if c = 'f' then some '\x0c'
  else if c = 'n' then some '\n'
  else if c = 'r' then some '\r'
  else if c = 't' then some '\t'
  else none

/-- The character behind a backslash. -/
def readEscape : List Char → Option (Char × List Char)
  | [] => none
  | c :: s =>
      if c = 'u' then
        match readUnit s with
        | some (n, s) =>
            if isLeading n then readTrailing n s
            else if isTrailing n then none
            else some (Char.ofNat n, s)
        | none => none
      else (shortEscape c).map (fun d => (d, s))

/-- The next character of a string, or `none` for its closing quote. -/
def readChar : List Char → Option (Option Char × List Char)
  | [] => none
  | c :: s =>
      if c = '"' then some (none, s)
      else if c = '\\' then (readEscape s).map (fun p => (some p.1, p.2))
      else if c.toNat < 32 then none
      else some (some c, s)

/-- The characters up to the closing quote, and what follows it. -/
def readChars : Nat → List Char → Option (List Char × List Char)
  | 0, _ => none
  | n + 1, s =>
      match readChar s with
      | none => none
      | some (none, s) => some ([], s)
      | some (some c, s) => (readChars n s).map (fun p => (c :: p.1, p.2))

/-- A string in quotes. -/
def quote (s : List Char) : List Char := '"' :: (escape s ++ ['"'])

/-- The digits that `escape` writes are read back. -/
theorem hexValue_hexDigit {n : Nat} (h : n < 16) : hexValue (hexDigit n) = some n := by
  have hall : ∀ k : Fin 16, hexValue (hexDigit k.val) = some k.val := by decide
  exact hall ⟨n, h⟩

/-- **An escaped character is read back.** -/
theorem readChar_escapeChar (c : Char) (s : List Char) :
    readChar (escapeChar c ++ s) = some (some c, s) := by
  rw [escapeChar]
  split_ifs with h1 h2 h3 h4 h5 h6 h7 h8
  · rw [h1]; rfl
  · rw [h2]; rfl
  · rw [h3]; rfl
  · rw [h4]; rfl
  · rw [h5]; rfl
  · rw [h6]; rfl
  · rw [h7]; rfl
  · -- a control character, by its code
    have hhigh := hexValue_hexDigit (n := c.toNat / 16) (by omega)
    have hlow := hexValue_hexDigit (n := c.toNat % 16) (by omega)
    have hzero : hexValue '0' = some 0 := by decide
    have hunit : readUnit ('0' :: '0' :: hexDigit (c.toNat / 16) :: hexDigit (c.toNat % 16) :: s)
        = some (c.toNat, s) := by
      simp only [readUnit, hzero, hhigh, hlow]
      congr 2
      omega
    have hescape : readEscape ('u' :: '0' :: '0' :: hexDigit (c.toNat / 16)
        :: hexDigit (c.toNat % 16) :: s) = some (c, s) := by
      have hlead : isLeading c.toNat = false := by
        rw [isLeading, Bool.and_eq_false_iff]
        exact Or.inl (decide_eq_false (by omega))
      have htrail : isTrailing c.toNat = false := by
        rw [isTrailing, Bool.and_eq_false_iff]
        exact Or.inl (decide_eq_false (by omega))
      simp only [readEscape, hunit, hlead, htrail, Bool.false_eq_true, if_true, if_false,
        Char.ofNat_toNat]
    show (readEscape ('u' :: '0' :: '0' :: hexDigit (c.toNat / 16)
      :: hexDigit (c.toNat % 16) :: s)).map _ = _
    rw [hescape]
    rfl
  · show readChar (c :: s) = _
    rw [readChar, if_neg h1, if_neg h2, if_neg h8]

/-- **An escaped text is read back** up to its closing quote. -/
theorem readChars_escape {t : List Char} {n : Nat} (h : t.length < n) (rest : List Char) :
    readChars n (escape t ++ '"' :: rest) = some (t, rest) := by
  induction t generalizing n with
  | nil =>
      cases n with
      | zero => exact absurd h (Nat.not_lt_zero _)
      | succ n => rfl
  | cons c t ih =>
      cases n with
      | zero => exact absurd h (Nat.not_lt_zero _)
      | succ n =>
          have hsplit : escape (c :: t) ++ '"' :: rest
              = escapeChar c ++ (escape t ++ '"' :: rest) := List.append_assoc _ _ _
          rw [hsplit, readChars, readChar_escapeChar]
          show (readChars n _).map _ = _
          rw [ih (Nat.lt_of_succ_lt_succ h)]
          rfl

/-- An escaped text is no shorter than the text. -/
theorem length_le_escape (t : List Char) : t.length ≤ (escape t).length := by
  induction t with
  | nil => exact Nat.le_refl 0
  | cons c t ih =>
      rw [escape, List.flatMap_cons, List.length_append, List.length_cons]
      have hpos := List.length_pos_iff.mpr (escapeChar_ne_nil c)
      have htail : t.length ≤ (t.flatMap escapeChar).length := ih
      omega

end JsonText
