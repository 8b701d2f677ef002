import Mathlib.Data.List.TakeWhile
import SmtpSink.JsonStringProofs

/-! # JSON values — written compactly and read back

    A value is written without blanks; a reader takes blanks between any two
    tokens.  A list between brackets is written and read by its items alone
    (`readList_printList`), so arrays and objects share one argument.

    `parse_print` — every value is read back from its text. -/

namespace JsonText

/-! ## Blanks and lists -/

/-- The blanks between tokens. -/
def isBlank (c : Char) : Bool := c == ' ' || c == '\t' || c == '\n' || c == '\r'

def skip (s : List Char) : List Char := s.dropWhile isBlank

/-- The texts behind the first one in a list, and its closing bracket. -/
def printTail (close : Char) : List (List Char) → List Char
  | [] => [close]
  | t :: more => ',' :: (t ++ printTail close more)

/-- Texts between brackets, separated by commas. -/
def printList (start close : Char) : List (List Char) → List Char
  | [] => [start, close]
  | t :: more => start :: (t ++ printTail close more)

/-- One item and those that follow it, up to the closing bracket. -/
def readItems {α : Type} (close : Char) (item : List Char → Option (α × List Char)) :
    Nat → List Char → Option (List α × List Char)
  | 0, _ => none
  | n + 1, s =>
      match item s with
      | none => none
      | some (a, s) =>
          match skip s with
          | [] => none
          | c :: s =>
              if c = close then some ([a], s)
              else if c = ',' then
                (readItems close item n s).map (fun p => (a :: p.1, p.2))
              else none

/-- The items behind an opening bracket. -/
def readList {α : Type} (close : Char) (item : List Char → Option (α × List Char))
    (s : List Char) : Option (List α × List Char) :=
  match skip s with
  | [] => none
  | c :: t => if c = close then some ([], t) else readItems close item s.length (c :: t)

/-- A text that starts with no blank. -/
def Starts (s : List Char) : Prop := ∃ c t, s = c :: t ∧ isBlank c = false

theorem skip_of_starts {s : List Char} (h : Starts s) (rest : List Char) :
    skip (s ++ rest) = s ++ rest := by
  obtain ⟨c, t, rfl, hc⟩ := h
  exact List.dropWhile_cons_of_neg (by simp [hc])

section

variable {α : Type} {close : Char} {item : List Char → Option (α × List Char)}
  {print : α → List Char} {l : List α}

/-- Items that are read back in front of a comma or the closing bracket. -/
def ReadsItems (close : Char) (item : List Char → Option (α × List Char))
    (print : α → List Char) (l : List α) : Prop :=
  ∀ a ∈ l, ∀ c rest, c = ',' ∨ c = close → item (print a ++ c :: rest) = some (a, c :: rest)

theorem readItems_print {a : α} {n : Nat} (hclose : isBlank close = false) (hcomma : close ≠ ',')
    (h : ReadsItems close item print (a :: l)) (hn : l.length < n) (rest : List Char) :
    readItems close item n (print a ++ (printTail close (l.map print) ++ rest))
      = some (a :: l, rest) := by
  induction l generalizing a n with
  | nil =>
      cases n with
      | zero => exact absurd hn (Nat.not_lt_zero _)
      | succ n =>
          have hitem := h a List.mem_cons_self close rest (Or.inr rfl)
          have hskip : skip (close :: rest) = close :: rest :=
            skip_of_starts (s := [close]) ⟨close, [], rfl, hclose⟩ rest
          show readItems close item (n + 1) (print a ++ close :: rest) = _
          simp only [readItems, hitem, hskip, if_true]
  | cons b l ih =>
      cases n with
      | zero => exact absurd hn (Nat.not_lt_zero _)
      | succ n =>
          have hrest := ih (a := b) (n := n) (fun x hx => h x (List.mem_cons_of_mem _ hx))
            (Nat.lt_of_succ_lt_succ hn)
          have hitem := h a List.mem_cons_self ','
            (print b ++ (printTail close (l.map print) ++ rest)) (Or.inl rfl)
          have hskip : ∀ s, skip (',' :: s) = ',' :: s :=
            fun s => skip_of_starts (s := [',']) ⟨',', [], rfl, rfl⟩ s
          rw [List.map_cons, printTail, List.cons_append, List.append_assoc]
          simp only [readItems, hitem, hskip, if_neg hcomma.symm, if_true, hrest]
          rfl

/-- A list is no longer than its text. -/
theorem length_le_printTail (close : Char) (ts : List (List Char)) :
    ts.length < (printTail close ts).length := by
  induction ts with
  | nil => exact Nat.zero_lt_one
  | cons t ts ih =>
      rw [printTail, List.length_cons, List.length_cons, List.length_append]
      omega

theorem length_lt_printTail {t : List Char} {ts : List (List Char)} (h : t ∈ ts) (close : Char) :
    t.length + 1 < (printTail close ts).length := by
  induction ts with
  | nil => exact absurd h List.not_mem_nil
  | cons u ts ih =>
      have hpos := length_le_printTail close ts
      rw [printTail, List.length_cons, List.length_append]
      rcases List.mem_cons.mp h with rfl | h
      · omega
      · have htail := ih h
        omega

/-- A text in a list is shorter than the list's by its brackets. -/
theorem length_lt_printList {t : List Char} {ts : List (List Char)} (h : t ∈ ts)
    (start close : Char) : t.length + 1 < (printList start close ts).length := by
  cases ts with
  | nil => exact absurd h List.not_mem_nil
  | cons u ts =>
      have hpos := length_le_printTail close ts
      rw [printList, List.length_cons, List.length_append]
      rcases List.mem_cons.mp h with rfl | h
      · omega
      · have htail := length_lt_printTail h close
        omega

/-- **A list is read back from its text**, where its items are. -/
theorem readList_printList (start : Char) (hclose : isBlank close = false) (hcomma : close ≠ ',')
    (hstart : ∀ a ∈ l, ∃ c t, print a = c :: t ∧ isBlank c = false ∧ c ≠ close)
    (h : ReadsItems close item print l) (rest : List Char) :
    ∃ s, printList start close (l.map print) ++ rest = start :: s
      ∧ readList close item s = some (l, rest) := by
  cases l with
  | nil =>
      have hskip : skip (close :: rest) = close :: rest :=
        skip_of_starts (s := [close]) ⟨close, [], rfl, hclose⟩ rest
      refine ⟨close :: rest, rfl, ?_⟩
      simp only [readList, hskip, if_true]
  | cons a l =>
      obtain ⟨c, t, ha, hc, hne⟩ := hstart a List.mem_cons_self
      refine ⟨print a ++ (printTail close (l.map print) ++ rest), ?_, ?_⟩
      · rw [List.map_cons, printList, List.cons_append, List.append_assoc]
      · have hlen : l.length < (print a ++ (printTail close (l.map print) ++ rest)).length := by
          have htail := length_le_printTail close (l.map print)
          rw [List.length_map] at htail
          rw [List.length_append, List.length_append]
          omega
        have hitems := readItems_print hclose hcomma h hlen rest
        have hskip := skip_of_starts (s := print a) ⟨c, t, ha, hc⟩
          (printTail close (l.map print) ++ rest)
        rw [readList, hskip]
        rw [ha, List.cons_append] at hitems ⊢
        show (if c = close then _ else _) = _
        rw [if_neg hne]
        exact hitems

end

/-! ## Numbers -/

def isDigits (l : List Char) : Bool := !l.isEmpty && l.all Char.isDigit

/-- A text without its sign. -/
def unsign : List Char → List Char
  | [] => []
  | c :: l => if c == '+' || c == '-' then l else c :: l

/-- An exponent, or nothing. -/
def isExponent : List Char → Bool
  | [] => true
  | c :: l => (c == 'e' || c == 'E') && isDigits (unsign l)

/-- What follows the integer part of a number. -/
def isFraction : List Char → Bool
  | [] => true
  | c :: l =>
      if c = '.' then !(l.takeWhile Char.isDigit).isEmpty && isExponent (l.dropWhile Char.isDigit)
      else isExponent (c :: l)

/-- A number without its sign: no digit follows a leading zero. -/
def isUnsigned : List Char → Bool
  | [] => false
  | c :: l => if c = '0' then isFraction l else c.isDigit && isFraction (l.dropWhile Char.isDigit)

def isNumeral : List Char → Bool
  | [] => false
  | c :: l => if c = '-' then isUnsigned l else isUnsigned (c :: l)

/-- The text of a number. -/
abbrev Numeral := { l : List Char // isNumeral l = true }

/-- The characters of numbers. -/
def numeralChar (c : Char) : Bool :=
  c.isDigit || c == '+' || c == '-' || c == '.' || c == 'e' || c == 'E'

theorem numeralChar_of_isDigit {c : Char} (h : c.isDigit = true) : numeralChar c = true := by
  rw [numeralChar, h]
  rfl

theorem isDigits_numeralChar {l : List Char} (h : isDigits l = true) :
    ∀ c ∈ l, numeralChar c = true := by
  rw [isDigits, Bool.and_eq_true, List.all_eq_true] at h
  exact fun c hc => numeralChar_of_isDigit (h.2 c hc)

theorem isExponent_numeralChar {l : List Char} (h : isExponent l = true) :
    ∀ c ∈ l, numeralChar c = true := by
  cases l with
  | nil => exact fun c hc => absurd hc List.not_mem_nil
  | cons e l =>
      rw [isExponent, Bool.and_eq_true, Bool.or_eq_true, beq_iff_eq, beq_iff_eq] at h
      obtain ⟨he, hl⟩ := h
      refine List.forall_mem_cons.mpr ⟨?_, ?_⟩
      · rcases he with rfl | rfl <;> rfl
      · cases l with
        | nil => exact fun c hc => absurd hc List.not_mem_nil
        | cons d ds =>
            rw [unsign] at hl
            split_ifs at hl with hd
            · rw [Bool.or_eq_true, beq_iff_eq, beq_iff_eq] at hd
              refine List.forall_mem_cons.mpr ⟨?_, isDigits_numeralChar hl⟩
              rcases hd with rfl | rfl <;> rfl
            · exact isDigits_numeralChar hl

/-- Digits in front of what is a part of a number. -/
theorem dropWhile_numeralChar {l : List Char}
    (h : ∀ c ∈ l.dropWhile Char.isDigit, numeralChar c = true) : ∀ c ∈ l, numeralChar c = true := by
  intro c hc
  rw [← List.takeWhile_append_dropWhile (p := Char.isDigit) (l := l)] at hc
  rcases List.mem_append.mp hc with hc | hc
  · exact numeralChar_of_isDigit (List.mem_takeWhile_imp hc)
  · exact h c hc

theorem isFraction_numeralChar {l : List Char} (h : isFraction l = true) :
    ∀ c ∈ l, numeralChar c = true := by
  cases l with
  | nil => exact fun c hc => absurd hc List.not_mem_nil
  | cons d l =>
      rw [isFraction] at h
      split_ifs at h with hd
      · rw [Bool.and_eq_true] at h
        rw [hd]
        exact List.forall_mem_cons.mpr
          ⟨rfl, dropWhile_numeralChar (isExponent_numeralChar h.2)⟩
      · exact isExponent_numeralChar h

theorem isUnsigned_cons {c : Char} {l : List Char} (h : isUnsigned (c :: l) = true) :
    c.isDigit = true ∧ ∀ d ∈ l, numeralChar d = true := by
  rw [isUnsigned] at h
  split_ifs at h with hc
  · rw [hc]
    exact ⟨rfl, isFraction_numeralChar h⟩
  · rw [Bool.and_eq_true] at h
    exact ⟨h.1, dropWhile_numeralChar (isFraction_numeralChar h.2)⟩

/-- A number starts with a digit or a minus sign, and has the characters of
    numbers only. -/
theorem Numeral.cons (x : Numeral) :
    ∃ c l, x.val = c :: l ∧ (c = '-' ∨ c.isDigit = true) ∧ ∀ d ∈ x.val, numeralChar d = true := by
  obtain ⟨l, h⟩ := x
  cases l with
  | nil => exact absurd h Bool.false_ne_true
  | cons c l =>
      refine ⟨c, l, rfl, ?_⟩
      rw [isNumeral] at h
      split_ifs at h with hc
      · refine ⟨Or.inl hc, List.forall_mem_cons.mpr ⟨by rw [hc]; rfl, ?_⟩⟩
        cases l with
        | nil => exact fun d hd => absurd hd List.not_mem_nil
        | cons d l =>
            obtain ⟨hd, hl⟩ := isUnsigned_cons h
            exact List.forall_mem_cons.mpr ⟨numeralChar_of_isDigit hd, hl⟩
      · obtain ⟨hd, hl⟩ := isUnsigned_cons h
        exact ⟨Or.inr hd, List.forall_mem_cons.mpr ⟨numeralChar_of_isDigit hd, hl⟩⟩

/-- The digits of a number start with a zero only if it is zero. -/
theorem head_toDigits {n : Nat} (h : 0 < n) : (Nat.toDigits 10 n).head? ≠ some '0' := by
  induction n using Nat.strong_induction_on with
  | _ n ih =>
      rw [Nat.toDigits_eq_if (by decide)]
      split_ifs with hn
      · intro hzero
        have hchar : n.digitChar = '0' := Option.some.inj hzero
        rw [Nat.digitChar_eq_zero] at hchar
        omega
      · rw [List.head?_append_of_ne_nil _ Nat.toDigits_ne_nil]
        exact ih (n / 10) (by omega) (by omega)

theorem isNumeral_toDigits (n : Nat) : isNumeral (Nat.toDigits 10 n) = true := by
  have hall : ∀ c ∈ Nat.toDigits 10 n, c.isDigit = true :=
    fun c hc => Nat.isDigit_of_mem_toDigits (by decide) (by decide) hc
  rcases Nat.eq_zero_or_pos n with rfl | hn
  · rw [Nat.toDigits_zero]
    rfl
  · have hhead := head_toDigits hn
    cases hl : Nat.toDigits 10 n with
    | nil => exact absurd hl Nat.toDigits_ne_nil
    | cons c l =>
        rw [hl] at hall hhead
        rw [List.forall_mem_cons] at hall
        have hminus : c ≠ '-' := by
          rintro rfl
          exact absurd hall.1 Bool.false_ne_true
        have hzero : c ≠ '0' := by
          rintro rfl
          exact hhead rfl
        have hdrop : l.dropWhile Char.isDigit = [] := List.dropWhile_eq_nil_iff.mpr hall.2
        rw [isNumeral, if_neg hminus, isUnsigned, if_neg hzero, hall.1, hdrop]
        rfl

/-- The text of a natural number. -/
def Numeral.ofNat (n : Nat) : Numeral := ⟨Nat.toDigits 10 n, isNumeral_toDigits n⟩

/-- The natural number of a text of digits. -/
def Numeral.toNat? (x : Numeral) : Option Nat :=
  if x.val.all Char.isDigit then some (Nat.ofDigitChars 10 x.val 0) else none

@[simp] theorem Numeral.toNat?_ofNat (n : Nat) : (Numeral.ofNat n).toNat? = some n := by
  have hall : (Numeral.ofNat n).val.all Char.isDigit = true :=
    List.all_eq_true.mpr (fun c hc => Nat.isDigit_of_mem_toDigits (by decide) (by decide) hc)
  rw [Numeral.toNat?, if_pos hall, Numeral.ofNat, Nat.ofDigitChars_toDigits (by decide) (by decide)]

/-! ## Values -/

inductive Value where
  | null
  | bool (b : Bool)
  | number (x : Numeral)
  | string (s : List Char)
  | array (l : List Value)
  | object (m : List (List Char × Value))

/-- Induction over a value, with what holds of its parts. -/
theorem Value.rule {P : Value → Prop} (null : P .null) (bool : ∀ b, P (.bool b))
    (number : ∀ x, P (.number x)) (string : ∀ s, P (.string s))
    (array : ∀ l, (∀ v ∈ l, P v) → P (.array l))
    (object : ∀ m, (∀ p ∈ m, P p.2) → P (.object m)) : ∀ v, P v
  | .null => null
  | .bool b => bool b
  | .number x => number x
  | .string s => string s
  | .array l => array l (fun v _ => Value.rule null bool number string array object v)
  | .object m => object m (fun p _ => Value.rule null bool number string array object p.2)
termination_by v => sizeOf v
decreasing_by
  · have hv := List.sizeOf_lt_of_mem ‹v ∈ l›
    simp only [Value.array.sizeOf_spec]
    omega
  · have hp := List.sizeOf_lt_of_mem ‹p ∈ m›
    cases p
    simp only [Value.object.sizeOf_spec, Prod.mk.sizeOf_spec] at hp ⊢
    omega

mutual

/-- The compact text of a value. -/
def print : Value → List Char
  | .null => "null".toList
  | .bool b => if b then "true".toList else "false".toList
  | .number x => x.val
  | .string s => quote s
  | .array l => printList '[' ']' (printValues l)
  | .object m => printList '{' '}' (printMembers m)

def printValues : List Value → List (List Char)
  | [] => []
  | v :: l => print v :: printValues l

def printMembers : List (List Char × Value) → List (List Char)
  | [] => []
  | (name, v) :: m => (quote name ++ ':' :: print v) :: printMembers m

end

/-- A member of an object. -/
def printMember (p : List Char × Value) : List Char := quote p.1 ++ ':' :: print p.2

theorem printValues_eq (l : List Value) : printValues l = l.map print := by
  induction l with
  | nil => rfl
  | cons v l ih => rw [printValues, ih]; rfl

theorem printMembers_eq (m : List (List Char × Value)) :
    printMembers m = m.map printMember := by
  induction m with
  | nil => rfl
  | cons p m ih => rw [printMembers, ih]; rfl

/-! ## The reader -/

/-- A value that is one of three words, or a number. -/
def readScalar (s : List Char) : Option (Value × List Char) :=
  if "null".toList.isPrefixOf s then some (.null, s.drop 4)
  else if "true".toList.isPrefixOf s then some (.bool true, s.drop 4)
  else if "false".toList.isPrefixOf s then some (.bool false, s.drop 5)
  else if h : isNumeral (s.takeWhile numeralChar) = true then
    some (.number ⟨s.takeWhile numeralChar, h⟩, s.dropWhile numeralChar)
  else none

/-- A member of an object: its name, a colon, and its value. -/
def readMember (value : List Char → Option (Value × List Char)) (s : List Char) :
    Option ((List Char × Value) × List Char) :=
  match skip s with
  | [] => none
  | c :: s =>
      if c = '"' then
        match readChars s.length s with
        | none => none
        | some (name, s) =>
            match skip s with
            | [] => none
            | c :: s => if c = ':' then (value s).map (fun p => ((name, p.1), p.2)) else none
      else none

/-- A value no deeper than a number of levels, and what follows it. -/
def readValue : Nat → List Char → Option (Value × List Char)
  | 0, _ => none
  | d + 1, s =>
      match skip s with
      | [] => none
      | c :: s =>
          if c = '"' then (readChars s.length s).map (fun p => (.string p.1, p.2))
          else if c = '[' then (readList ']' (readValue d) s).map (fun p => (.array p.1, p.2))
          else if c = '{' then
            (readList '}' (readMember (readValue d)) s).map (fun p => (.object p.1, p.2))
          else readScalar (c :: s)

/-- The value of a text, if it is one. -/
def parse (s : List Char) : Option Value :=
  match readValue s.length s with
  | some (v, rest) => if skip rest = [] then some v else none
  | none => none

/-! ## The round trip -/

/-- What follows a value does not go on a number. -/
def Ends (rest : List Char) : Prop := ∀ c ∈ rest.head?, numeralChar c = false

theorem ends_cons {c : Char} (h : numeralChar c = false) (rest : List Char) : Ends (c :: rest) := by
  intro d hd
  obtain rfl : c = d := Option.some.inj hd
  exact h

/-- The first character of a value. -/
def startChar (c : Char) : Bool :=
  c == 'n' || c == 't' || c == 'f' || c == '"' || c == '[' || c == '{' || c == '-' || c.isDigit

theorem startChar_cases {c : Char} (h : startChar c = true) : isBlank c = false ∧ c ≠ ']' := by
  refine ⟨?_, ?_⟩
  · rw [isBlank, Bool.eq_false_iff]
    intro hblank
    simp only [Bool.or_eq_true, beq_iff_eq] at hblank
    rcases hblank with ((rfl | rfl) | rfl) | rfl <;> exact absurd h (by decide)
  · rintro rfl
    exact absurd h (by decide)

theorem printList_start (start close : Char) (ts : List (List Char)) :
    ∃ t, printList start close ts = start :: t := by
  cases ts with
  | nil => exact ⟨_, rfl⟩
  | cons t ts => exact ⟨_, rfl⟩

theorem print_start (v : Value) : ∃ c t, print v = c :: t ∧ startChar c = true := by
  cases v with
  | null => exact ⟨'n', _, rfl, rfl⟩
  | bool b =>
      cases b with
      | true => exact ⟨'t', _, rfl, rfl⟩
      | false => exact ⟨'f', _, rfl, rfl⟩
  | number x =>
      obtain ⟨c, l, hx, hc, -⟩ := x.cons
      refine ⟨c, l, hx, ?_⟩
      rcases hc with rfl | hc
      · rfl
      · rw [startChar, hc, Bool.or_true]
  | string s => exact ⟨'"', _, rfl, rfl⟩
  | array l =>
      obtain ⟨t, ht⟩ := printList_start '[' ']' (printValues l)
      exact ⟨'[', t, ht, rfl⟩
  | object m =>
      obtain ⟨t, ht⟩ := printList_start '{' '}' (printMembers m)
      exact ⟨'{', t, ht, rfl⟩

theorem starts_print (v : Value) : Starts (print v) := by
  obtain ⟨c, t, ht, hc⟩ := print_start v
  exact ⟨c, t, ht, (startChar_cases hc).1⟩

/-- A string in quotes is read back. -/
theorem readChars_quote (t rest : List Char) :
    ∃ s, quote t ++ rest = '"' :: s ∧ readChars s.length s = some (t, rest) := by
  refine ⟨escape t ++ '"' :: rest, ?_, readChars_escape ?_ rest⟩
  · rw [quote, List.cons_append, List.append_assoc]
    rfl
  · have hlen := length_le_escape t
    rw [List.length_append, List.length_cons]
    omega

/-- A number is read back in front of what does not go on it. -/
theorem readScalar_numeral (x : Numeral) {rest : List Char} (h : Ends rest) :
    readScalar (x.val ++ rest) = some (.number x, rest) := by
  obtain ⟨c, l, hx, hc, hall⟩ := x.cons
  have hword : ∀ d w, d ≠ '-' ∧ d.isDigit = false →
      (d :: w).isPrefixOf (x.val ++ rest) = false := by
    intro d w hd
    have hne : (d == c) = false := by
      rw [beq_eq_false_iff_ne]
      rintro rfl
      rcases hc with rfl | hc
      · exact hd.1 rfl
      · exact absurd (hc.symm.trans hd.2) Bool.true_eq_false.mp
    rw [hx, List.cons_append, List.isPrefixOf_cons_cons, hne, Bool.false_and]
  have htake : rest.takeWhile numeralChar = [] ∧ rest.dropWhile numeralChar = rest := by
    cases rest with
    | nil => exact ⟨rfl, rfl⟩
    | cons d rest =>
        have hd : numeralChar d = false := h d rfl
        exact ⟨List.takeWhile_cons_of_neg (by simp [hd]), List.dropWhile_cons_of_neg (by simp [hd])⟩
  have htakeAll : (x.val ++ rest).takeWhile numeralChar = x.val := by
    rw [List.takeWhile_append_of_pos hall, htake.1, List.append_nil]
  have hdropAll : (x.val ++ rest).dropWhile numeralChar = rest := by
    rw [List.dropWhile_append_of_pos hall, htake.2]
  have hnull : "null".toList.isPrefixOf (x.val ++ rest) = false := hword 'n' _ (by decide)
  have htrue : "true".toList.isPrefixOf (x.val ++ rest) = false := hword 't' _ (by decide)
  have hfalse : "false".toList.isPrefixOf (x.val ++ rest) = false := hword 'f' _ (by decide)
  have hnumeral : isNumeral ((x.val ++ rest).takeWhile numeralChar) = true := by
    rw [htakeAll]
    exact x.property
  rw [readScalar, hnull, htrue, hfalse, if_neg Bool.false_ne_true, if_neg Bool.false_ne_true,
    if_neg Bool.false_ne_true, dif_pos hnumeral, hdropAll]
  simp only [htakeAll]

/-- A word or a number is read as a scalar. -/
theorem readValue_scalar {v : Value} {c : Char} {t rest : List Char} (d : Nat)
    (hv : print v = c :: t) (hquote : c ≠ '"') (hbracket : c ≠ '[') (hbrace : c ≠ '{')
    (h : readScalar (print v ++ rest) = some (v, rest)) :
    readValue (d + 1) (print v ++ rest) = some (v, rest) := by
  rw [readValue, skip_of_starts (starts_print v)]
  rw [hv, List.cons_append] at h ⊢
  show (if c = '"' then _ else _) = _
  rw [if_neg hquote, if_neg hbracket, if_neg hbrace, h]

/-- A member is read back where its value is. -/
theorem readMember_printMember {value : List Char → Option (Value × List Char)}
    {p : List Char × Value} {rest : List Char} (h : value (print p.2 ++ rest) = some (p.2, rest)) :
    readMember value (printMember p ++ rest) = some (p, rest) := by
  obtain ⟨s, hs, hread⟩ := readChars_quote p.1 (':' :: (print p.2 ++ rest))
  have htext : printMember p ++ rest = '"' :: s := by
    rw [← hs, printMember, List.append_assoc]
    rfl
  have hstart : skip ('"' :: s) = '"' :: s :=
    skip_of_starts (s := ['"']) ⟨'"', [], rfl, rfl⟩ s
  have hcolon : skip (':' :: (print p.2 ++ rest)) = ':' :: (print p.2 ++ rest) :=
    skip_of_starts (s := [':']) ⟨':', [], rfl, rfl⟩ _
  rw [htext]
  simp only [readMember, hstart, hread, hcolon, if_true, h]
  rfl

/-- The value is read back from its text by a reader of `d` levels. -/
def ReadsBack (d : Nat) (v : Value) : Prop :=
  ∀ rest, Ends rest → readValue d (print v ++ rest) = some (v, rest)

/-- An array is read back by one more level than its elements. -/
theorem ReadsBack.array {d : Nat} {l : List Value} (h : ∀ v ∈ l, ReadsBack d v) :
    ReadsBack (d + 1) (.array l) := by
  intro rest _
  have hitems : ReadsItems ']' (readValue d) print l := by
    intro v hv c rest' hc
    refine h v hv _ (ends_cons ?_ rest')
    rcases hc with rfl | rfl <;> rfl
  have hstart : ∀ v ∈ l, ∃ c t, print v = c :: t ∧ isBlank c = false ∧ c ≠ ']' := by
    intro v _
    obtain ⟨c, t, hv, hc⟩ := print_start v
    exact ⟨c, t, hv, startChar_cases hc⟩
  obtain ⟨s, hs, hread⟩ := readList_printList '[' rfl (by decide) hstart hitems rest
  rw [readValue, skip_of_starts (starts_print _), print, printValues_eq, hs]
  show (readList ']' (readValue d) s).map _ = _
  rw [hread]
  rfl

/-- An object is read back by one more level than the values of its members. -/
theorem ReadsBack.object {d : Nat} {m : List (List Char × Value)}
    (h : ∀ p ∈ m, ReadsBack d p.2) : ReadsBack (d + 1) (.object m) := by
  intro rest _
  have hitems : ReadsItems '}' (readMember (readValue d)) printMember m := by
    intro p hp c rest' hc
    refine readMember_printMember (h p hp _ (ends_cons ?_ rest'))
    rcases hc with rfl | rfl <;> rfl
  have hstart : ∀ p ∈ m, ∃ c t, printMember p = c :: t ∧ isBlank c = false ∧ c ≠ '}' :=
    fun p _ => ⟨'"', _, rfl, rfl, by decide⟩
  obtain ⟨s, hs, hread⟩ := readList_printList '{' rfl (by decide) hstart hitems rest
  rw [readValue, skip_of_starts (starts_print _), print, printMembers_eq, hs]
  show (readList '}' (readMember (readValue d)) s).map _ = _
  rw [hread]
  rfl

theorem length_print_pos (v : Value) : 0 < (print v).length := by
  obtain ⟨c, t, ht, -⟩ := print_start v
  rw [ht]
  exact Nat.succ_pos _

/-- **A value is read back from its text** by as many levels as it has
    characters. -/
theorem readsBack_of_length {v : Value} {d : Nat} (hd : (print v).length ≤ d) :
    ReadsBack d v := by
  obtain ⟨d, rfl⟩ := Nat.exists_eq_add_one_of_ne_zero
    (Nat.ne_of_gt ((length_print_pos v).trans_le hd))
  induction v using Value.rule generalizing d with
  | null =>
      intro rest _
      exact readValue_scalar d rfl (by decide) (by decide) (by decide) rfl
  | bool b =>
      intro rest _
      cases b with
      | true => exact readValue_scalar d rfl (by decide) (by decide) (by decide) rfl
      | false => exact readValue_scalar d rfl (by decide) (by decide) (by decide) rfl
  | number x =>
      intro rest hrest
      obtain ⟨c, l, hx, hc, -⟩ := x.cons
      have hne : ∀ e, e ≠ '-' ∧ e.isDigit = false → c ≠ e := by
        rintro e ⟨hminus, hdigit⟩ rfl
        rcases hc with rfl | hc
        · exact hminus rfl
        · exact absurd (hc.symm.trans hdigit) Bool.true_eq_false.mp
      exact readValue_scalar d hx (hne _ (by decide)) (hne _ (by decide)) (hne _ (by decide))
        (readScalar_numeral x hrest)
  | string s =>
      intro rest _
      obtain ⟨t, ht, hread⟩ := readChars_quote s rest
      rw [readValue, skip_of_starts (starts_print _), print, ht]
      show (readChars t.length t).map _ = _
      rw [hread]
      rfl
  | array l ih =>
      refine ReadsBack.array (fun v hv => ?_)
      have hlen : (print v).length + 1 < (print (.array l)).length := by
        rw [print, printValues_eq]
        exact length_lt_printList (List.mem_map_of_mem hv) '[' ']'
      have hpos := length_print_pos v
      obtain ⟨d, rfl⟩ := Nat.exists_eq_add_one_of_ne_zero (n := d) (by omega)
      exact ih v hv d (by omega)
  | object m ih =>
      refine ReadsBack.object (fun p hp => ?_)
      have hlen : (printMember p).length + 1 < (print (.object m)).length := by
        rw [print, printMembers_eq]
        exact length_lt_printList (List.mem_map_of_mem hp) '{' '}'
      rw [printMember, List.length_append, List.length_cons] at hlen
      have hpos := length_print_pos p.2
      obtain ⟨d, rfl⟩ := Nat.exists_eq_add_one_of_ne_zero (n := d) (by omega)
      exact ih p hp d (by omega)

/-- **The text of a value is read as the value.** -/
theorem parse_print (v : Value) : parse (print v) = some v := by
  have hread := readsBack_of_length (le_refl (print v).length) []
    (fun c hc => absurd hc (by simp))
  rw [List.append_nil] at hread
  rw [parse, hread]
  rfl

/-- The text of a list of strings is that of an array. -/
theorem array_eq_print (l : List (List Char)) : array l = print (.array (l.map .string)) := by
  have htail : ∀ more, arrayTail more = printTail ']' (more.map quote) := by
    intro more
    induction more with
    | nil => rfl
    | cons s more ih =>
        rw [arrayTail, ih, List.map_cons, printTail, quote]
        simp
  have hprint : (l.map Value.string).map print = l.map quote := by
    rw [List.map_map]
    rfl
  rw [print, printValues_eq, hprint]
  cases l with
  | nil => rfl
  | cons s more =>
      rw [array, htail, List.map_cons, printList, quote]
      simp

end JsonText
