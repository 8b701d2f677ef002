import Mathlib.Algebra.Ring.Nat
import Mathlib.Data.List.Basic

/-! # UTF-8 texts — characters, their bytes, and slices addressed by bytes

    A text is a list of Unicode scalar values; on the wire it is the list of
    its UTF-8 bytes.  This file builds the two directions and the operations a
    program performs on byte offsets:

    * `encode` / `decode?` — strict UTF-8, inverse to each other
      (`decode?_encode`, `encode_of_decode?`);
    * `fromUtf8Lossy` — decoding with U+FFFD for every maximal ill-formed
      piece;
    * `find`, `dropBytes?`, `slice?` — byte offsets into a text, where a slice
      off the end, in reverse order or inside a character is `none`. -/

namespace Utf8

/-- A text: its Unicode scalar values in order. -/
abbrev Text := List Char

/-- A byte string. -/
abbrev Bytes := List UInt8

/-- What holds of the characters of a text is decided on the text, not on all
    characters. -/
instance (priority := high) decidableForallMem {p : Char → Prop} [DecidablePred p]
    (s : List Char) : Decidable (∀ c ∈ s, p c) := List.decidableBAll p s

instance (priority := high) decidableExistsMem {p : Char → Prop} [DecidablePred p]
    (s : List Char) : Decidable (∃ c ∈ s, p c) := List.decidableBEx p s

/-- The UTF-8 bytes of a text. -/
def encode (s : Text) : Bytes := s.flatMap String.utf8EncodeChar

/-- The character whose encoding starts the byte string. -/
def decodeChar? (bs : Bytes) : Option Char :=
  ByteArray.utf8DecodeChar? ⟨(bs.take 4).toArray⟩ 0

/-- Decode with at most `n` characters; `none` at the first ill-formed byte. -/
def decodeWithin : Nat → Bytes → Option Text
  | _, [] => some []
  | 0, _ :: _ => none
  | n + 1, b :: bs =>
      match decodeChar? (b :: bs) with
      | none => none
      | some c => (decodeWithin n ((b :: bs).drop c.utf8Size)).map (c :: ·)

/-- Strict UTF-8 decoding: `none` unless the whole byte string is well formed. -/
def decode? (bs : Bytes) : Option Text := decodeWithin bs.length bs

@[simp] theorem encode_nil : encode [] = [] := rfl

@[simp] theorem encode_cons (c : Char) (s : Text) :
    encode (c :: s) = String.utf8EncodeChar c ++ encode s := rfl

@[simp] theorem encode_append (s t : Text) :
    encode (s ++ t) = encode s ++ encode t := by
  simp [encode, List.flatMap_append]

/-- Every character occupies at least one byte. -/
theorem length_le_encode (s : Text) : s.length ≤ (encode s).length := by
  induction s with
  | nil => exact Nat.le_refl _
  | cons c s ih =>
      have hc := c.utf8Size_pos
      simp only [encode_cons, List.length_append, List.length_cons,
        String.length_utf8EncodeChar]
      omega

/-- A character at the front of a byte string is read back. -/
theorem decodeChar?_encode (c : Char) (bs : Bytes) :
    decodeChar? (String.utf8EncodeChar c ++ bs) = some c := by
  have h4 : (String.utf8EncodeChar c).length ≤ 4 := by
    rw [String.length_utf8EncodeChar]
    exact c.utf8Size_le_four
  have htake : (String.utf8EncodeChar c ++ bs).take 4
      = String.utf8EncodeChar c
        ++ bs.take (4 - (String.utf8EncodeChar c).length) := by
    rw [List.take_append, List.take_of_length_le h4]
  have hbytes : (⟨((String.utf8EncodeChar c ++ bs).take 4).toArray⟩ : ByteArray)
      = (String.utf8EncodeChar c).toByteArray
        ++ (bs.take (4 - (String.utf8EncodeChar c).length)).toByteArray := by
    rw [htake, ← List.toByteArray_append]
    ext1
    simp
  rw [decodeChar?, hbytes]
  exact ByteArray.utf8DecodeChar?_utf8EncodeChar_append

/-- What is read at the front of a byte string is encoded there. -/
theorem encode_of_decodeChar? {bs : Bytes} {c : Char}
    (h : decodeChar? bs = some c) :
    ∃ rest, bs = String.utf8EncodeChar c ++ rest := by
  obtain ⟨l, hl⟩ := ByteArray.exists_of_utf8DecodeChar?_eq_some h
  have hlist : bs.take 4 = String.utf8EncodeChar c ++ l.data.toList := by
    have := congrArg (fun b => b.data.toList) hl
    simpa using this
  refine ⟨l.data.toList ++ bs.drop 4, ?_⟩
  rw [← List.append_assoc, ← hlist, List.take_append_drop]

theorem decodeWithin_encode (s : Text) :
    ∀ n, s.length ≤ n → decodeWithin n (encode s) = some s := by
  induction s with
  | nil => intro n _; cases n <;> rfl
  | cons c s ih =>
      intro n hn
      cases n with
      | zero => exact absurd hn (by simp)
      | succ n =>
          have hrec := ih n (by simpa using hn)
          cases hb : String.utf8EncodeChar c with
          | nil => exact absurd hb String.utf8EncodeChar_ne_nil
          | cons b t =>
              have hdec := decodeChar?_encode c (encode s)
              have hdrop : (String.utf8EncodeChar c ++ encode s).drop c.utf8Size
                  = encode s := by
                rw [← String.length_utf8EncodeChar, List.drop_left]
              rw [encode_cons]
              rw [hb, List.cons_append] at hdec hdrop ⊢
              simp only [decodeWithin, hdec, hdrop, hrec, Option.map_some]

/-- **Decoding inverts encoding.** -/
theorem decode?_encode (s : Text) : decode? (encode s) = some s :=
  decodeWithin_encode s _ (length_le_encode s)

theorem encode_of_decodeWithin :
    ∀ (n : Nat) (bs : Bytes) (s : Text),
      decodeWithin n bs = some s → encode s = bs := by
  intro n
  induction n with
  | zero =>
      intro bs s h
      cases bs with
      | nil => cases h; rfl
      | cons b bs => exact nomatch h
  | succ n ih =>
      intro bs s h
      cases bs with
      | nil => cases h; rfl
      | cons b bs =>
          cases hc : decodeChar? (b :: bs) with
          | none => simp only [decodeWithin, hc] at h; exact nomatch h
          | some c =>
              simp only [decodeWithin, hc] at h
              obtain ⟨t, ht, rfl⟩ := Option.map_eq_some_iff.mp h
              obtain ⟨rest, hrest⟩ := encode_of_decodeChar? hc
              rw [hrest, ← String.length_utf8EncodeChar, List.drop_left] at ht
              rw [encode_cons, ih rest t ht, hrest]

/-- **Encoding inverts decoding**: only UTF-8 byte strings are decoded. -/
theorem encode_of_decode? {bs : Bytes} {s : Text} (h : decode? bs = some s) :
    encode s = bs :=
  encode_of_decodeWithin _ bs s h

/-- A text that starts a byte string of characters is a prefix of them. -/
theorem encode_eq_append {a t : Text} {bs : Bytes} (h : encode a ++ bs = encode t) :
    ∃ u, t = a ++ u ∧ encode u = bs := by
  induction a generalizing t with
  | nil => exact ⟨t, rfl, h.symm⟩
  | cons c a ih =>
      rw [encode_cons, List.append_assoc] at h
      cases t with
      | nil => exact absurd (List.append_eq_nil_iff.mp h).1 String.utf8EncodeChar_ne_nil
      | cons d t =>
          have hd : some c = some d := by
            rw [← decodeChar?_encode c (encode a ++ bs), h, encode_cons, decodeChar?_encode]
          obtain rfl := Option.some.inj hd
          obtain ⟨u, rfl, hu⟩ := ih (List.append_cancel_left h)
          exact ⟨u, rfl, hu⟩

/-! ## ASCII bytes

    An ASCII byte stands for itself only: no other character's encoding
    contains it, so cutting bytes at line feeds cuts between characters. -/

/-- The byte an ASCII character stands for. -/
def asciiByte (a : Char) : UInt8 := UInt8.ofNat a.toNat

theorem asciiByte_mem_encodeChar {a : Char} (ha : a.toNat < 128) (c : Char) :
    asciiByte a ∈ String.utf8EncodeChar c ↔ c = a := by
  have hbyte : (asciiByte a).toNat = a.toNat := by
    rw [asciiByte, UInt8.toNat_ofNat', Nat.mod_eq_of_lt (by omega)]
  constructor
  · intro h
    have hv : c.val.toNat = a.toNat := by
      rw [String.utf8EncodeChar] at h
      generalize c.val.toNat = v at h ⊢
      split at h
      · simp [← UInt8.toNat_inj, hbyte] at h
        omega
      · split at h
        · simp [← UInt8.toNat_inj, hbyte] at h
          omega
        · split at h <;>
          · simp [← UInt8.toNat_inj, hbyte] at h
            omega
    exact Char.ext (UInt32.toNat_inj.mp hv)
  · rintro rfl
    have hle : c.val.toNat ≤ 127 := Nat.le_of_lt_succ ha
    rw [String.utf8EncodeChar, if_pos hle]
    exact List.mem_singleton.mpr rfl

/-- The bytes of a text hold an ASCII byte exactly when the text has its character. -/
theorem asciiByte_mem_encode {a : Char} (ha : a.toNat < 128) (s : Text) :
    asciiByte a ∈ encode s ↔ a ∈ s := by
  induction s with
  | nil => simp
  | cons c s ih =>
      rw [encode_cons, List.mem_append, asciiByte_mem_encodeChar ha, ih, List.mem_cons]
      constructor
      · rintro (rfl | h)
        · exact Or.inl rfl
        · exact Or.inr h
      · rintro (h | h)
        · exact Or.inl h.symm
        · exact Or.inr h

/-- An ASCII character is encoded by its byte. -/
theorem encode_ascii {a : Char} (ha : a.toNat < 128) (s : Text) :
    encode (a :: s) = asciiByte a :: encode s := by
  have hle : a.val.toNat ≤ 127 := Nat.le_of_lt_succ ha
  rw [encode_cons, String.utf8EncodeChar, if_pos hle]
  rfl

/-- Bytes cut at their first ASCII character are cut between characters. -/
theorem encode_eq_cut {a : Char} (ha : a.toNat < 128) {p q : Bytes} {t : Text}
    (hp : asciiByte a ∉ p) (h : encode t = p ++ asciiByte a :: q) :
    ∃ u v, t = u ++ a :: v ∧ encode u = p ∧ encode v = q := by
  have hmem : a ∈ t := by
    rw [← asciiByte_mem_encode ha, h]
    exact List.mem_append_right p List.mem_cons_self
  obtain ⟨u, v, rfl, hu⟩ := List.eq_append_cons_of_mem hmem
  rw [encode_append, encode_ascii ha] at h
  have hu' : asciiByte a ∉ encode u := fun hin => hu ((asciiByte_mem_encode ha u).mp hin)
  rcases List.append_eq_append_iff.mp h with ⟨b, hb, hq⟩ | ⟨b, hb, hq⟩
  · cases b with
    | nil =>
        obtain ⟨-, hv⟩ := List.cons.inj hq
        exact ⟨u, v, rfl, by rw [hb, List.append_nil], hv⟩
    | cons x b =>
        obtain ⟨rfl, -⟩ := List.cons.inj hq
        exact absurd (by rw [hb]; simp) hp
  · cases b with
    | nil =>
        obtain ⟨-, hv⟩ := List.cons.inj hq
        exact ⟨u, v, rfl, by rw [hb, List.append_nil], hv.symm⟩
    | cons x b =>
        obtain ⟨rfl, -⟩ := List.cons.inj hq
        exact absurd (by rw [hb]; simp) hu'

/-- The line feed byte. -/
def lf : UInt8 := 10

/-- The bytes of a text hold a line feed exactly when the text does. -/
theorem lf_mem_encode (s : Text) : lf ∈ encode s ↔ '\n' ∈ s :=
  asciiByte_mem_encode (a := '\n') (by decide) s

/-! ## Lossy decoding -/

/-- Whether `b` may follow the lead byte `lead` of a longer encoding. -/
def secondByteOk (lead b : UInt8) : Bool :=
  if lead = 0xE0 then 0xA0 ≤ b && b ≤ 0xBF
  else if lead = 0xED then 0x80 ≤ b && b ≤ 0x9F
  else if lead = 0xF0 then 0x90 ≤ b && b ≤ 0xBF
  else if lead = 0xF4 then 0x80 ≤ b && b ≤ 0x8F
  else 0x80 ≤ b && b ≤ 0xBF

/-- How many bytes one replacement character stands for when no character
    starts the byte string: the longest piece that begins an encoding. -/
def illFormedLength : Bytes → Nat
  | lead :: b :: rest =>
      if 0xE0 ≤ lead && lead ≤ 0xEF then
        if secondByteOk lead b then 2 else 1
      else if 0xF0 ≤ lead && lead ≤ 0xF4 then
        if secondByteOk lead b then
          match rest with
          | b' :: _ => if 0x80 ≤ b' && b' ≤ 0xBF then 3 else 2
          | [] => 2
        else 1
      else 1
  | _ => 1

/-- Lossy decoding with at most `n` characters. -/
def fromUtf8LossyWithin : Nat → Bytes → Text
  | _, [] => []
  | 0, _ :: _ => []
  | n + 1, b :: bs =>
      match decodeChar? (b :: bs) with
      | some c => c :: fromUtf8LossyWithin n ((b :: bs).drop c.utf8Size)
      | none =>
          '\uFFFD' :: fromUtf8LossyWithin n
            ((b :: bs).drop (illFormedLength (b :: bs)))

/-- Decoding that never fails: each maximal ill-formed piece is read as the
    replacement character U+FFFD. -/
def fromUtf8Lossy (bs : Bytes) : Text := fromUtf8LossyWithin bs.length bs

/-- Well-formed bytes are read as strict decoding reads them. -/
theorem fromUtf8LossyWithin_of_decodeWithin (n : Nat) :
    ∀ (bs : Bytes) (s : Text), decodeWithin n bs = some s → fromUtf8LossyWithin n bs = s := by
  induction n with
  | zero =>
      intro bs s h
      cases bs with
      | nil => cases h; rfl
      | cons b bs => exact nomatch h
  | succ n ih =>
      intro bs s h
      cases bs with
      | nil => cases h; rfl
      | cons b bs =>
          rw [decodeWithin] at h
          rw [fromUtf8LossyWithin]
          cases hc : decodeChar? (b :: bs) with
          | none =>
              rw [hc] at h
              exact nomatch h
          | some c =>
              rw [hc] at h
              obtain ⟨t, ht, rfl⟩ := Option.map_eq_some_iff.mp h
              exact congrArg (c :: ·) (ih _ t ht)

theorem fromUtf8Lossy_encode (s : Text) : fromUtf8Lossy (encode s) = s :=
  fromUtf8LossyWithin_of_decodeWithin _ _ s (decode?_encode s)

/-- Where nothing is replaced, the bytes are well formed. -/
theorem decodeWithin_of_lossy (n : Nat) :
    ∀ bs : Bytes, bs.length ≤ n → '\uFFFD' ∉ fromUtf8LossyWithin n bs →
      decodeWithin n bs = some (fromUtf8LossyWithin n bs) := by
  induction n with
  | zero =>
      intro bs hlen _
      obtain rfl := List.eq_nil_of_length_eq_zero (Nat.le_zero.mp hlen)
      rfl
  | succ n ih =>
      intro bs hlen h
      cases bs with
      | nil => rfl
      | cons b bs =>
          rw [fromUtf8LossyWithin] at h ⊢
          rw [decodeWithin]
          cases hc : decodeChar? (b :: bs) with
          | none =>
              rw [hc] at h
              exact absurd List.mem_cons_self h
          | some c =>
              rw [hc] at h
              have hpos := c.utf8Size_pos
              have hshort : ((b :: bs).drop c.utf8Size).length ≤ n := by
                rw [List.length_drop]
                omega
              have hrec := ih _ hshort (fun hmem => h (List.mem_cons_of_mem _ hmem))
              simp only [hrec, Option.map_some]

theorem decode?_of_lossy {bs : Bytes} (h : '\uFFFD' ∉ fromUtf8Lossy bs) :
    decode? bs = some (fromUtf8Lossy bs) :=
  decodeWithin_of_lossy _ bs (Nat.le_refl _) h

/-! ## Byte offsets -/

/-- The length of a text in bytes. -/
def byteLen (s : Text) : Nat := (s.map Char.utf8Size).sum

@[simp] theorem byteLen_nil : byteLen [] = 0 := rfl

@[simp] theorem byteLen_cons (c : Char) (s : Text) :
    byteLen (c :: s) = c.utf8Size + byteLen s := rfl

theorem byteLen_append (s t : Text) : byteLen (s ++ t) = byteLen s + byteLen t := by
  simp [byteLen]

/-- The byte offset of the first occurrence of a character. -/
def find (p : Char) : Text → Option Nat
  | [] => none
  | c :: s => if c = p then some 0 else (find p s).map (c.utf8Size + ·)

/-- The text from byte offset `n` on; `none` past the end or inside a
    character. -/
def dropBytes? : Nat → Text → Option Text
  | 0, s => some s
  | _ + 1, [] => none
  | n + 1, c :: s =>
      if c.utf8Size ≤ n + 1 then dropBytes? (n + 1 - c.utf8Size) s else none

/-- The first `n` bytes of a text; `none` past the end or inside a character. -/
def takeBytes? : Nat → Text → Option Text
  | 0, _ => some []
  | _ + 1, [] => none
  | n + 1, c :: s =>
      if c.utf8Size ≤ n + 1 then
        (takeBytes? (n + 1 - c.utf8Size) s).map (c :: ·)
      else none

/-- The slice between two byte offsets; `none` when they are in reverse order,
    past the end or inside a character. -/
def slice? (s : Text) (start stop : Nat) : Option Text :=
  if start ≤ stop then (dropBytes? start s).bind (takeBytes? (stop - start))
  else none

theorem dropBytes?_cons (c : Char) (s : Text) (n : Nat)
    (h : c.utf8Size ≤ n) : dropBytes? n (c :: s) = dropBytes? (n - c.utf8Size) s := by
  cases n with
  | zero =>
      have := c.utf8Size_pos
      omega
  | succ n => rw [dropBytes?, if_pos h]

/-- A boundary between two parts of a text is a valid offset. -/
theorem dropBytes?_append (p s : Text) (n : Nat) :
    dropBytes? (byteLen p + n) (p ++ s) = dropBytes? n s := by
  induction p with
  | nil => rw [byteLen_nil, Nat.zero_add, List.nil_append]
  | cons c p ih =>
      rw [List.cons_append, dropBytes?_cons c _ _ (by rw [byteLen_cons]; omega)]
      rw [← ih, byteLen_cons]
      congr 1
      omega

/-- What stands behind a part of a text. -/
theorem dropBytes?_prefix (p s : Text) : dropBytes? (byteLen p) (p ++ s) = some s := by
  have := dropBytes?_append p s 0
  rw [Nat.add_zero] at this
  rw [this]
  cases s <;> rfl

theorem takeBytes?_append (p s : Text) : takeBytes? (byteLen p) (p ++ s) = some p := by
  induction p with
  | nil => cases s <;> rfl
  | cons c p ih =>
      have hc := c.utf8Size_pos
      obtain ⟨m, hm⟩ : ∃ m, byteLen (c :: p) = m + 1 :=
        ⟨byteLen (c :: p) - 1, by rw [byteLen_cons]; omega⟩
      have hlen : c.utf8Size + byteLen p = m + 1 := hm
      rw [hm, List.cons_append, takeBytes?, if_pos (by omega),
        show m + 1 - c.utf8Size = byteLen p by omega, ih]
      rfl

/-- The slice between two boundaries is the part between them. -/
theorem slice?_append (p m r : Text) :
    slice? (p ++ m ++ r) (byteLen p) (byteLen p + byteLen m) = some m := by
  rw [slice?, if_pos (Nat.le_add_right _ _), List.append_assoc, dropBytes?_prefix,
    Nat.add_sub_cancel_left]
  exact takeBytes?_append m r

/-- A reversed slice is no slice. -/
theorem slice?_reversed {s : Text} {start stop : Nat} (h : stop < start) :
    slice? s start stop = none := by
  rw [slice?, if_neg (by omega)]

theorem find_eq_none {p : Char} {s : Text} : find p s = none ↔ p ∉ s := by
  induction s with
  | nil => simp [find]
  | cons c s ih =>
      rw [find]
      by_cases hc : c = p
      · simp [hc]
      · rw [if_neg hc, Option.map_eq_none_iff, ih, List.mem_cons, not_or]
        exact ⟨fun h => ⟨fun e => hc e.symm, h⟩, fun h => h.2⟩

/-- A character is found right behind text that lacks it. -/
theorem find_append {p : Char} {pre : Text} (post : Text) (h : p ∉ pre) :
    find p (pre ++ p :: post) = some (byteLen pre) := by
  induction pre with
  | nil => exact if_pos rfl
  | cons c pre ih =>
      rw [List.mem_cons, not_or] at h
      rw [List.cons_append, find, if_neg (fun hc => h.1 hc.symm), ih h.2]
      rfl

/-- Where a character is found, it stands right behind text that lacks it. -/
theorem find_eq_some {p : Char} {s : Text} {n : Nat} (h : find p s = some n) :
    ∃ pre post, s = pre ++ p :: post ∧ p ∉ pre ∧ n = byteLen pre := by
  induction s generalizing n with
  | nil => exact nomatch h
  | cons c s ih =>
      rw [find] at h
      by_cases hc : c = p
      · rw [if_pos hc] at h
        cases h
        exact ⟨[], s, by rw [hc]; rfl, by simp, rfl⟩
      · rw [if_neg hc] at h
        obtain ⟨k, hk, rfl⟩ := Option.map_eq_some_iff.mp h
        obtain ⟨pre, post, hs, hpre, rfl⟩ := ih hk
        refine ⟨c :: pre, post, by rw [hs]; rfl, ?_, rfl⟩
        rw [List.mem_cons, not_or]
        exact ⟨fun e => hc e.symm, hpre⟩

end Utf8
