import SmtpSink.TurnProofs

/-! # Arguments — where MAIL FROM and RCPT TO are cut

    The dispatcher looks for its prefix in the uppercase form of a line and then
    drops the length of the prefix, in bytes, from the line itself.  The two agree
    as long as every character of the command is uppercased without changing its
    size.

    A prefix in an uppercase form is matched character by character, and only `I`
    and `S` have a match outside ASCII; of these, only the `I` of MAIL occurs in a
    prefix.  `cuts_right_iff` — a line is cut behind its first colon unless it spells
    MAIL with a dotless i, which is cut before the colon (`dotless_cut`). -/

namespace SmtpArgument

open Utf8 Unicode SmtpRecord SmtpSession SmtpTurn

/-! ## The text behind the colon -/

/-- The text behind the first colon. -/
def behindColon (t : Text) : Text := (t.dropWhile (· != ':')).tail

theorem behindColon_append {m : Text} (r : Text) (hm : ':' ∉ m) :
    behindColon (m ++ ':' :: r) = r := by
  have hpass : ∀ c ∈ m, (c != ':') = true := by
    intro c hc
    rw [bne_iff_ne]
    rintro rfl
    exact hm hc
  rw [behindColon, List.dropWhile_append_of_pos hpass]
  rfl

/-- Only a colon is uppercased to a colon. -/
theorem colon_upperMatch {c a : Char} (h : UpperMatch c a) (hc : c = ':') : a = ':' := by
  subst hc
  rcases h with ⟨-, rfl⟩ | ⟨h, -⟩ | ⟨h, -⟩
  · rfl
  · exact absurd h (by decide)
  · exact absurd h (by decide)

theorem colon_notMem_upperMatch {m p : Text} (h : List.Forall₂ UpperMatch m p)
    (hp : ':' ∉ p) : ':' ∉ m := by
  induction h with
  | nil => exact List.not_mem_nil
  | @cons c a m p hca _ ih =>
      rw [List.mem_cons, not_or] at hp ⊢
      refine ⟨fun hc => hp.1 (colon_upperMatch hca hc.symm).symm, ih hp.2⟩

/-! ## The size of a matched prefix -/

/-- A pattern without `I` and `S` is matched by a text of its own size. -/
theorem byteLen_plain {m p : Text} (h : List.Forall₂ UpperMatch m p)
    (hp : p.count 'I' + p.count 'S' = 0) : byteLen m = p.length := by
  obtain ⟨hlo, hhi⟩ := byteLen_upperMatch h
  omega

/-- A character that matches `I` has one byte, unless it is the dotless i. -/
theorem utf8Size_matches_I {c : Char} (h : UpperMatch c 'I') :
    c.utf8Size = 1 ↔ c ≠ 'ı' := by
  rcases h with ⟨hc, -⟩ | ⟨rfl, -⟩ | ⟨-, hS⟩
  · have hsize : c.utf8Size = 1 := by
      rw [Char.utf8Size_eq_one_iff, UInt32.le_iff_toNat_le]
      exact Nat.le_of_lt_succ hc
    refine iff_of_true hsize ?_
    rintro rfl
    exact absurd hc (by decide)
  · exact iff_of_false (by decide) (fun h => h rfl)
  · exact absurd hS (by decide)

/-- **The one `I` of a pattern decides about the size of a match.** -/
theorem byteLen_matches_I {m p q : Text} (h : List.Forall₂ UpperMatch m (p ++ 'I' :: q))
    (hp : p.count 'I' + p.count 'S' = 0) (hq : q.count 'I' + q.count 'S' = 0) :
    byteLen m = (p ++ 'I' :: q).length ↔ m[p.length]? ≠ some 'ı' := by
  have hfront := byteLen_plain (List.forall₂_take_append _ _ _ h) hp
  have hback := List.forall₂_drop_append _ _ _ h
  have hm := List.take_append_drop p.length m
  have hlen : (m.take p.length).length = p.length :=
    (List.forall₂_take_append _ _ _ h).length_eq
  generalize m.take p.length = m₁ at hfront hm hlen
  generalize m.drop p.length = m₂ at hback hm
  cases hback with
  | @cons c _ m₂ _ hc hrest =>
      have hsize := byteLen_plain hrest hq
      have hone := utf8Size_matches_I hc
      have hget : m[p.length]? = some c := by
        rw [← hm, ← hlen, List.getElem?_append_right (Nat.le_refl _), Nat.sub_self]
        rfl
      rw [hget, ← hm, byteLen_append, byteLen_cons, List.length_append, List.length_cons,
        Ne, Option.some_inj, ← Ne, ← hone]
      omega

/-! ## Where a line is cut -/

/-- The slice of a command is what stands behind its colon exactly when its word
    was matched by a text of the same size. -/
theorem argument_cut_iff (p : Text) (hascii : ∀ a ∈ p ++ [':'], a.toNat < 128)
    (hexp : NoExpansion (p ++ [':'])) (hone : p.count 'I' + p.count 'S' ≤ 1)
    (hcolon : ':' ∉ p) {t : Text} (h : (p ++ [':']).isPrefixOf (toUppercase t) = true) :
    ∃ m r, t = m ++ ':' :: r ∧ List.Forall₂ UpperMatch m p
      ∧ (dropBytes? (p.length + 1) t = some (behindColon t) ↔ byteLen m = p.length) := by
  obtain ⟨m, r, a, rfl, hm, hdrop, ha⟩ := argument_slice p hascii hexp hone h
  refine ⟨m, r, rfl, hm, ?_⟩
  rw [hdrop, behindColon_append r (colon_notMem_upperMatch hm hcolon), Option.some_inj]
  rcases ha with ⟨rfl, hlen⟩ | ⟨rfl, hlen⟩
  · exact iff_of_true rfl hlen
  · refine iff_of_false (fun heq => ?_) (by omega)
    have := congrArg List.length heq
    rw [List.length_cons] at this
    omega

/-- A line that selects MAIL FROM is cut behind its colon unless it has a dotless i. -/
theorem mailFrom_cut_iff {t : Text} (h : mailFromPrefix.isPrefixOf (toUppercase t) = true) :
    dropBytes? 10 t = some (behindColon t) ↔ t[2]? ≠ some 'ı' := by
  obtain ⟨m, r, rfl, hm, hcut⟩ := argument_cut_iff "MAIL FROM".toList (by decide)
    (by decide +kernel) (by decide) (by decide) h
  have hsize := byteLen_matches_I (p := "MA".toList) (q := "L FROM".toList) hm (by decide)
    (by decide)
  have hlen : m.length = 9 := hm.length_eq
  have hget : (m ++ ':' :: r)[2]? = m[2]? := List.getElem?_append_left (by omega)
  rw [hget]
  exact hcut.trans hsize

/-- A line that selects RCPT TO is cut behind its colon. -/
theorem rcptTo_cut {t : Text} (h : rcptToPrefix.isPrefixOf (toUppercase t) = true) :
    dropBytes? 8 t = some (behindColon t) := by
  obtain ⟨m, r, -, hm, hcut⟩ := argument_cut_iff "RCPT TO".toList (by decide)
    (by decide +kernel) (by decide) (by decide) h
  exact hcut.mpr (byteLen_plain hm (by decide))

/-! ## What is stored -/

/-- A line with one of the prefixes selects its command. -/
theorem dispatch_mailFrom {cmd : Text} (h : mailFromPrefix.isPrefixOf cmd = true) :
    dispatch cmd = .mailFrom := by
  obtain ⟨r, rfl⟩ := List.isPrefixOf_iff_prefix.mp h
  rfl

theorem dispatch_rcptTo {cmd : Text} (h : rcptToPrefix.isPrefixOf cmd = true) :
    dispatch cmd = .rcptTo := by
  obtain ⟨r, rfl⟩ := List.isPrefixOf_iff_prefix.mp h
  rfl

/-- A line is cut right: where it selects MAIL FROM or RCPT TO, the offset of the
    source is a character boundary with the text behind the colon after it, and an
    accepted command stores the address of that text. -/
structure CutsRight (line : Text) : Prop where
  mailFrom : mailFromPrefix.isPrefixOf (toUppercase (trim line)) = true →
    dropBytes? 10 (trim line) = some (behindColon (trim line))
      ∧ ∀ env cfg stamp rest (s : Session), s.authState = .none →
        reply "250 OK" ∈ (interpret env cfg stamp line rest s).events →
        (interpret env cfg stamp line rest s).session.mailFrom
          = extractAddress (behindColon (trim line))
  rcptTo : rcptToPrefix.isPrefixOf (toUppercase (trim line)) = true →
    dropBytes? 8 (trim line) = some (behindColon (trim line))
      ∧ ∀ env cfg stamp rest (s : Session), s.authState = .none →
        reply "250 OK" ∈ (interpret env cfg stamp line rest s).events →
        ∃ addr, extractAddress (behindColon (trim line)) = some addr
          ∧ (interpret env cfg stamp line rest s).session.rcptTo = s.rcptTo ++ [addr]

theorem ok_notMem {s : Session} {text : String} (h : text ≠ "250 OK") :
    reply "250 OK" ∉ (say s [text]).events :=
  fun hok => h (reply_injective (List.mem_singleton.mp hok)).symm

/-- An accepted MAIL FROM stores the address of its slice. -/
theorem mailFrom_stores {cfg : SmtpConfig} {s : Session} {t a : Text}
    (hcut : dropBytes? 10 t = some a) (hok : reply "250 OK" ∈ (mailFrom cfg t s).events) :
    (mailFrom cfg t s).session.mailFrom = extractAddress a := by
  rw [mailFrom, hcut, Option.bind_some] at hok ⊢
  split_ifs at hok ⊢
  · exact absurd hok (ok_notMem (by decide))
  · cases ha : extractAddress a with
    | none =>
        rw [ha] at hok
        exact absurd hok List.not_mem_nil
    | some addr =>
        rw [ha] at hok
        dsimp only at hok ⊢
        split_ifs at hok ⊢
        · exact absurd hok (ok_notMem (by decide))
        · rfl

/-- An accepted RCPT TO stores the address of its slice. -/
theorem rcptTo_stores {s : Session} {t a : Text} (hcut : dropBytes? 8 t = some a)
    (hok : reply "250 OK" ∈ (rcptTo t s).events) :
    ∃ addr, extractAddress a = some addr
      ∧ (rcptTo t s).session.rcptTo = s.rcptTo ++ [addr] := by
  rw [rcptTo, hcut, Option.bind_some] at hok ⊢
  split_ifs at hok ⊢
  · exact absurd hok (ok_notMem (by decide))
  · exact absurd hok (ok_notMem (by decide))
  · cases ha : extractAddress a with
    | none =>
        rw [ha] at hok
        exact absurd hok List.not_mem_nil
    | some addr => exact ⟨addr, rfl, rfl⟩

/-- **A line is cut right unless it selects MAIL FROM with a dotless i.** -/
theorem cuts_right_iff (line : Text) :
    CutsRight line ↔ ¬ (mailFromPrefix.isPrefixOf (toUppercase (trim line)) = true
      ∧ (trim line)[2]? = some 'ı') := by
  constructor
  · rintro h ⟨hpre, hdotless⟩
    exact (mailFrom_cut_iff hpre).mp (h.mailFrom hpre).1 hdotless
  · intro h
    refine ⟨fun hpre => ?_, fun hpre => ?_⟩
    · have hcut := (mailFrom_cut_iff hpre).mpr (fun hdotless => h ⟨hpre, hdotless⟩)
      refine ⟨hcut, fun env cfg stamp rest s hidle hok => ?_⟩
      have hverb : verb? s line = some .mailFrom := by
        rw [verb?_of_idle hidle, dispatch_mailFrom hpre]
      rw [interpret_of_verb? hverb, command] at hok ⊢
      exact mailFrom_stores hcut hok
    · have hcut := rcptTo_cut hpre
      refine ⟨hcut, fun env cfg stamp rest s hidle hok => ?_⟩
      have hverb : verb? s line = some .rcptTo := by
        rw [verb?_of_idle hidle, dispatch_rcptTo hpre]
      rw [interpret_of_verb? hverb, command] at hok ⊢
      exact rcptTo_stores hcut hok

/-- A sender given behind a MAIL with a dotless i. -/
def dotlessLine : Text := "maıl from:a@b\r\n".toList

/-- Its colon becomes part of the sender. -/
theorem dotless_cut :
    mailFromPrefix.isPrefixOf (toUppercase (trim dotlessLine)) = true
      ∧ behindColon (trim dotlessLine) = "a@b".toList
      ∧ dropBytes? 10 (trim dotlessLine) = some ":a@b".toList
      ∧ mailAddress? dotlessLine = some ":a@b".toList ∧ ¬ CutsRight dotlessLine := by
  have hpre : mailFromPrefix.isPrefixOf (toUppercase (trim dotlessLine)) = true := by
    decide +kernel
  have hbehind : behindColon (trim dotlessLine) = "a@b".toList := by decide +kernel
  have hdrop : dropBytes? 10 (trim dotlessLine) = some ":a@b".toList := by decide +kernel
  refine ⟨hpre, hbehind, hdrop, by decide +kernel, fun h => ?_⟩
  have hcut := (h.mailFrom hpre).1
  rw [hdrop, hbehind] at hcut
  exact absurd hcut (by decide)

end SmtpArgument
