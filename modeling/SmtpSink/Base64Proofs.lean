import SmtpSink.UnicodeProofs

/-! # Base64 — the standard alphabet with padding

    Three bytes are four characters of six bits each; one or two bytes at the end
    are padded.  The decoder accepts canonical texts only, those that the encoder
    writes, so each text has at most one reading and each byte string one
    spelling (`decode_eq_some`). -/

namespace Base64

open Utf8 Unicode

/-- The characters for the sextets, in order. -/
def alphabet : Text :=
  "ABCDEFGHIJKLMNOPQRSTUVWXYZabcdefghijklmnopqrstuvwxyz0123456789+/".toList

/-- The character for a sextet. -/
def sextetChar (n : Nat) : Char := alphabet.getD n '='

/-- The sextet of a character. -/
def sextet? (c : Char) : Option Nat := alphabet.idxOf? c

/-- Three bytes as one number. -/
def group (a b c : UInt8) : Nat := a.toNat * 65536 + b.toNat * 256 + c.toNat

/-- The first four sextets of a number. -/
def sextets (n : Nat) : Text :=
  [sextetChar (n / 262144 % 64), sextetChar (n / 4096 % 64), sextetChar (n / 64 % 64),
    sextetChar (n % 64)]

/-- The standard encoding. -/
def encode : Bytes → Text
  | [] => []
  | [a] => (sextets (group a 0 0)).take 2 ++ ['=', '=']
  | [a, b] => (sextets (group a b 0)).take 3 ++ ['=']
  | a :: b :: c :: rest => sextets (group a b c) ++ encode rest

/-- The bytes of four sextets. -/
def bytesOf (w x y z : Nat) : Bytes :=
  let n := w * 262144 + x * 4096 + y * 64 + z
  [UInt8.ofNat (n / 65536), UInt8.ofNat (n / 256), UInt8.ofNat n]

/-- The bytes of one group of characters, padded or not. -/
def decodeGroup (w x y z : Char) : Option Bytes :=
  match sextet? w, sextet? x, sextet? y, sextet? z with
  | some w, some x, some y, some z => some (bytesOf w x y z)
  | some w, some x, some y, none => some ((bytesOf w x y 0).take 2)
  | some w, some x, none, none => some ((bytesOf w x 0 0).take 1)
  | _, _, _, _ => none

/-- The bytes of a text, whatever its padding bits. -/
def decodeGroups : Text → Option Bytes
  | [] => some []
  | w :: x :: y :: z :: rest => do
      let bytes ← decodeGroup w x y z
      let more ← decodeGroups rest
      return bytes ++ more
  | _ => none

/-- The standard decoder: canonical texts only. -/
def decode (t : Text) : Option Bytes := (decodeGroups t).filter (fun d => encode d == t)

/-! ## The alphabet -/

theorem sextet?_sextetChar {n : Nat} (h : n < 64) : sextet? (sextetChar n) = some n := by
  have hall : ∀ n < 64, sextet? (sextetChar n) = some n := by decide +kernel
  exact hall n h

theorem sextet?_padding : sextet? '=' = none := by decide +kernel

theorem sextetChar_visible (n : Nat) : isWhitespace (sextetChar n) = false := by
  have hall : ∀ c ∈ '=' :: alphabet, isWhitespace c = false := by decide +kernel
  refine hall _ ?_
  rw [sextetChar, List.getD_eq_getElem?_getD]
  cases hn : alphabet[n]? with
  | none => exact List.mem_cons_self
  | some c => exact List.mem_cons_of_mem _ (List.mem_of_getElem? hn)

/-! ## Round trips -/

theorem bytesOf_group (a b c : UInt8) :
    bytesOf (group a b c / 262144 % 64) (group a b c / 4096 % 64) (group a b c / 64 % 64)
      (group a b c % 64) = [a, b, c] := by
  have ha := a.toNat_lt
  have hb := b.toNat_lt
  have hc := c.toNat_lt
  have hn : group a b c / 262144 % 64 * 262144 + group a b c / 4096 % 64 * 4096
      + group a b c / 64 % 64 * 64 + group a b c % 64 = group a b c := by
    rw [group]
    omega
  rw [bytesOf, hn]
  -- a byte is what is left of a number
  have byte : ∀ (x : UInt8) (n : Nat), n % 256 = x.toNat → UInt8.ofNat n = x := by
    intro x n h
    rw [← UInt8.toNat_inj, UInt8.toNat_ofNat']
    exact h
  rw [byte a (group a b c / 65536) (by rw [group]; omega),
    byte b (group a b c / 256) (by rw [group]; omega), byte c (group a b c) (by rw [group]; omega)]

theorem decodeGroups_append {w x y z : Char} {bytes : Bytes} (rest : Text)
    (h : decodeGroup w x y z = some bytes) :
    decodeGroups (w :: x :: y :: z :: rest) = (decodeGroups rest).map (bytes ++ ·) := by
  rw [decodeGroups, h]
  cases decodeGroups rest <;> rfl

theorem decodeGroup_one (a : UInt8) : decodeGroup (sextetChar (group a 0 0 / 262144 % 64))
    (sextetChar (group a 0 0 / 4096 % 64)) '=' '=' = some [a] := by
  have hlt : ∀ n : Nat, n % 64 < 64 := fun n => Nat.mod_lt n (by decide)
  have hbytes := bytesOf_group a 0 0
  have h1 : group a 0 0 / 64 % 64 = 0 := by simp [group]; omega
  have h2 : group a 0 0 % 64 = 0 := by simp [group]; omega
  rw [h1, h2] at hbytes
  rw [decodeGroup, sextet?_sextetChar (hlt _), sextet?_sextetChar (hlt _), sextet?_padding]
  dsimp only
  rw [hbytes, List.take_succ_cons, List.take_zero]

theorem decodeGroup_two (a b : UInt8) : decodeGroup (sextetChar (group a b 0 / 262144 % 64))
    (sextetChar (group a b 0 / 4096 % 64)) (sextetChar (group a b 0 / 64 % 64)) '='
      = some [a, b] := by
  have hlt : ∀ n : Nat, n % 64 < 64 := fun n => Nat.mod_lt n (by decide)
  have hbytes := bytesOf_group a b 0
  have h2 : group a b 0 % 64 = 0 := by simp [group]; omega
  rw [h2] at hbytes
  rw [decodeGroup, sextet?_sextetChar (hlt _), sextet?_sextetChar (hlt _),
    sextet?_sextetChar (hlt _), sextet?_padding]
  dsimp only
  rw [hbytes, List.take_succ_cons, List.take_succ_cons, List.take_zero]

theorem decodeGroup_three (a b c : UInt8) : decodeGroup (sextetChar (group a b c / 262144 % 64))
    (sextetChar (group a b c / 4096 % 64)) (sextetChar (group a b c / 64 % 64))
    (sextetChar (group a b c % 64)) = some [a, b, c] := by
  have hlt : ∀ n : Nat, n % 64 < 64 := fun n => Nat.mod_lt n (by decide)
  rw [decodeGroup, sextet?_sextetChar (hlt _), sextet?_sextetChar (hlt _),
    sextet?_sextetChar (hlt _), sextet?_sextetChar (hlt _)]
  dsimp only
  rw [bytesOf_group]

theorem decodeGroups_encode (d : Bytes) : decodeGroups (encode d) = some d := by
  match d with
  | [] => rfl
  | [a] => exact decodeGroups_append [] (decodeGroup_one a)
  | [a, b] => exact decodeGroups_append [] (decodeGroup_two a b)
  | a :: b :: c :: rest =>
      -- a whole group, and what follows it
      have hrec := decodeGroups_append (encode rest) (decodeGroup_three a b c)
      rw [decodeGroups_encode rest] at hrec
      exact hrec

/-- **A text is decoded exactly when it is the encoding of what it is decoded
    to.** -/
theorem decode_eq_some {t : Text} {d : Bytes} : decode t = some d ↔ t = encode d := by
  rw [decode, Option.filter_eq_some_iff, beq_iff_eq]
  constructor
  · rintro ⟨-, h⟩
    exact h.symm
  · rintro rfl
    exact ⟨decodeGroups_encode d, rfl⟩

theorem decode_encode (d : Bytes) : decode (encode d) = some d := decode_eq_some.mpr rfl

/-- Each byte string has its own spelling. -/
theorem encode_injective {d d' : Bytes} (h : encode d = encode d') : d = d' := by
  have hd := decode_encode d
  rw [h, decode_encode] at hd
  exact (Option.some.inj hd).symm

/-- A spelling has no white space. -/
theorem encode_visible (d : Bytes) : ∀ c ∈ encode d, isWhitespace c = false := by
  have hsextets : ∀ n, ∀ c ∈ sextets n, isWhitespace c = false := by
    intro n c hc
    rw [sextets] at hc
    simp only [List.mem_cons, List.not_mem_nil, or_false] at hc
    rcases hc with rfl | rfl | rfl | rfl
    all_goals exact sextetChar_visible _
  have hpadding : ∀ c ∈ ['=', '='], isWhitespace c = false := by decide
  match d with
  | [] => exact fun c hc => absurd hc List.not_mem_nil
  | [a] =>
      intro c hc
      rcases List.mem_append.mp hc with hc | hc
      · exact hsextets _ c (List.mem_of_mem_take hc)
      · exact hpadding c hc
  | [a, b] =>
      intro c hc
      rcases List.mem_append.mp hc with hc | hc
      · exact hsextets _ c (List.mem_of_mem_take hc)
      · exact hpadding c (List.mem_cons_of_mem _ hc)
  | a :: b :: c :: rest =>
      intro x hx
      rcases List.mem_append.mp hx with hx | hx
      · exact hsextets _ x hx
      · exact encode_visible rest x hx

example : encode (Utf8.encode "sure.".toList) = "c3VyZS4=".toList := by decide +kernel

end Base64
