import SmtpSink.ConnectionProofs

/-! # Eight-bit messages — what 8BITMIME would promise

    EHLO announces 8BITMIME, so a client may send message lines of arbitrary
    octets.  They are read by the line reader of the commands, which decodes
    every line: a message is taken just where all of its lines are UTF-8, and
    otherwise the session fails with the transaction.

    Lines that consist of dots and white space are left out here; they are the
    subject of `SmtpReader.readData_stuffed_iff`. -/

namespace SmtpEightBit

open Utf8 Unicode SmtpReader SmtpRecord SmtpSession SmtpTurn SmtpConnection

/-- A message line of octets other than CR and LF. -/
structure OctetLine where
  octets : Bytes
  noCr : asciiByte '\r' ∉ octets
  noLf : lf ∉ octets

/-- The line as it stands in the message. -/
def OctetLine.crlf (l : OctetLine) : Bytes := l.octets ++ encode ['\r', '\n']

/-- The line as the client sends it: one more dot before a leading dot. -/
def OctetLine.dotStuffed (l : OctetLine) : Bytes :=
  if [asciiByte '.'].isPrefixOf l.octets then asciiByte '.' :: l.crlf else l.crlf

/-- The line is text. -/
def OctetLine.isUtf8 (l : OctetLine) : Bool := (decode? l.octets).isSome

/-- The line consists of white space and at least one dot. -/
def OctetLine.onlyDots (l : OctetLine) : Bool :=
  (decode? l.octets).any
    (fun t => t.contains '.' && t.all (fun c => c == '.' || isWhitespace c))

/-- The octets of a message. -/
def octets (ls : List OctetLine) : Bytes := ls.flatMap OctetLine.crlf

/-- The octets of a message as sent in the data section. -/
def stuffedOctets (ls : List OctetLine) : Bytes := ls.flatMap OctetLine.dotStuffed

/-! ## One line -/

/-- A line that trims to a dot consists of white space and that dot. -/
theorem dots_of_trim {t : Text} (h : trim t = ['.']) :
    t.contains '.' = true ∧ t.all (fun c => c == '.' || isWhitespace c) = true := by
  -- what is no white space is neither lost nor gained by trimming
  have hkeep : ∀ p : Char → Bool, (∀ c, isWhitespace c = true → p c = false) →
      t.filter p = ['.'].filter p := fun p hp => by rw [← filter_trim hp, h]
  constructor
  · have hdot := hkeep (· == '.') (fun c hc => by
      rw [beq_eq_false_iff_ne]
      rintro rfl
      exact absurd hc (by decide))
    rw [List.contains_iff_mem]
    refine List.mem_of_mem_filter (p := (· == '.')) ?_
    rw [hdot]
    decide
  · -- nothing but white space and dots is left out of the trimmed line
    have hrest := hkeep (fun c => !(c == '.' || isWhitespace c)) (fun c hc => by
      rw [hc, Bool.or_true, Bool.not_true])
    rw [List.all_eq_true]
    intro c hc
    by_contra hno
    have hmem : c ∈ t.filter (fun c => !(c == '.' || isWhitespace c)) :=
      List.mem_filter.mpr ⟨hc, by rw [Bool.eq_false_iff.mpr hno, Bool.not_false]⟩
    rw [hrest] at hmem
    exact absurd hmem List.not_mem_nil

section

variable {l : OctetLine} {t : Text}

theorem encode_crlf : encode ['\r', '\n'] = [asciiByte '\r', lf] := by decide

/-- A line of text is a message line of text. -/
def OctetLine.toMessageLine (l : OctetLine) (t : Text) (h : encode t = l.octets) :
    MessageLine :=
  ⟨t, fun hmem => l.noLf (h ▸ (lf_mem_encode t).mpr hmem)⟩

theorem encode_toMessageLine_crlf (h : encode t = l.octets) :
    encode (l.toMessageLine t h).crlf = l.crlf := by
  rw [MessageLine.crlf, encode_append, OctetLine.crlf, OctetLine.toMessageLine, h]

/-- The leading dot of a line of text. -/
theorem isPrefixOf_encode (t : Text) :
    [asciiByte '.'].isPrefixOf (encode t) = ['.'].isPrefixOf t := by
  rw [Bool.eq_iff_iff, List.isPrefixOf_iff_prefix, List.isPrefixOf_iff_prefix]
  constructor
  · rintro ⟨bs, hbs⟩
    obtain ⟨u, hu, -⟩ := encode_eq_append (a := ['.']) hbs
    exact ⟨u, hu.symm⟩
  · rintro ⟨u, rfl⟩
    exact ⟨encode u, rfl⟩

theorem encode_toMessageLine_dotStuffed (h : encode t = l.octets) :
    encode (l.toMessageLine t h).dotStuffed = l.dotStuffed := by
  rw [MessageLine.dotStuffed, OctetLine.dotStuffed, ← h, isPrefixOf_encode]
  show encode (if ['.'].isPrefixOf t then _ else _) = _
  by_cases hdot : ['.'].isPrefixOf t = true
  · rw [if_pos hdot, if_pos hdot, ← encode_toMessageLine_crlf h]
    rfl
  · rw [if_neg hdot, if_neg hdot, encode_toMessageLine_crlf h]

theorem not_hidesDot (h : encode t = l.octets) (hl : l.onlyDots = false) :
    ¬ (l.toMessageLine t h).hidesDot := by
  rintro ⟨-, hdot⟩
  obtain ⟨h1, h2⟩ := dots_of_trim hdot
  rw [OctetLine.onlyDots, ← h, decode?_encode, Option.any_some, Bool.and_eq_false_iff] at hl
  rcases hl with hl | hl
  · exact absurd (h1.symm.trans hl) (by decide)
  · exact absurd (h2.symm.trans hl) (by decide)

/-- A line that is no text is sent as bytes that are no text. -/
theorem decode?_dotStuffed (h : l.isUtf8 = false) : decode? l.dotStuffed = none := by
  -- a text ends before the line's CR with a text, and the octets are none
  have hcrlf : ∀ t, encode t ≠ l.crlf := by
    intro t ht
    rw [OctetLine.crlf, encode_crlf] at ht
    obtain ⟨u, -, -, hu, -⟩ := encode_eq_cut (a := '\r') (by decide) l.noCr ht
    rw [OctetLine.isUtf8, ← hu, decode?_encode] at h
    exact nomatch h
  cases hd : decode? l.dotStuffed with
  | none => rfl
  | some t =>
      have ht := encode_of_decode? hd
      rw [OctetLine.dotStuffed] at ht
      split_ifs at ht with hdot
      · obtain ⟨u, -, hu⟩ := encode_eq_append (a := ['.']) ht.symm
        exact absurd hu (hcrlf u)
      · exact absurd ht (hcrlf t)

theorem takeLine_dotStuffed (l : OctetLine) (rest : Bytes) :
    takeLine (l.dotStuffed ++ rest) = (l.dotStuffed, rest) := by
  have hcut : ∃ bs, l.dotStuffed = bs ++ [lf] ∧ lf ∉ bs := by
    have hcr : lf ∉ l.octets ++ [asciiByte '\r'] := by
      rw [List.mem_append, not_or]
      exact ⟨l.noLf, by decide⟩
    rw [OctetLine.dotStuffed, OctetLine.crlf, encode_crlf]
    split_ifs with hdot
    · refine ⟨asciiByte '.' :: (l.octets ++ [asciiByte '\r']), by simp, ?_⟩
      rw [List.mem_cons, not_or]
      exact ⟨by decide, hcr⟩
    · exact ⟨l.octets ++ [asciiByte '\r'], by simp, hcr⟩
  obtain ⟨bs, hbs, hlf⟩ := hcut
  rw [hbs, List.append_assoc]
  exact takeLine_of_lf bs rest hlf

/-- **One line of the data section**: text reaches the data, anything else is an
    error of the stream. -/
theorem readDataFrom_octets (hl : l.onlyDots = false) (data rest : Bytes) :
    readDataFrom data (l.dotStuffed ++ rest)
      = if l.isUtf8 then readDataFrom (data ++ l.crlf) rest else .error .io := by
  cases hd : decode? l.octets with
  | none =>
      have hno : l.isUtf8 = false := by rw [OctetLine.isUtf8, hd]; rfl
      -- `read_line` gives up on the line, and `read_data` with it
      have hline : readLine (l.dotStuffed ++ rest) = .error .io := by
        rw [readLine, takeLine_dotStuffed]
        simp only [decode?_dotStuffed hno]
      rw [readDataFrom_eq, hline, hno]
      rfl
  | some t =>
      have ht := encode_of_decode? hd
      have hyes : l.isUtf8 = true := by rw [OctetLine.isUtf8, hd]; rfl
      rw [← encode_toMessageLine_dotStuffed ht, readDataFrom_dotStuffed,
        if_neg (not_hidesDot ht hl), encode_toMessageLine_crlf ht, if_pos hyes]

end

/-! ## The message -/

/-- The whole data section. -/
theorem readDataFrom_stuffedOctets (ls : List OctetLine) (rest : Bytes)
    (hls : ∀ l ∈ ls, l.onlyDots = false) :
    ∀ data, readDataFrom data (stuffedOctets ls ++ (terminator ++ rest))
      = if ls.all OctetLine.isUtf8 then .ok (data ++ octets ls, rest) else .error .io := by
  induction ls with
  | nil =>
      intro data
      -- only the terminator is left
      have hend := readDataFrom_message [] rest (fun l hl => absurd hl List.not_mem_nil) data
      rw [List.all_nil, if_pos rfl]
      exact hend
  | cons l ls ih =>
      intro data
      have hl := hls l List.mem_cons_self
      have ih := ih (fun k hk => hls k (List.mem_cons_of_mem _ hk))
      rw [stuffedOctets, List.flatMap_cons, List.append_assoc, readDataFrom_octets hl,
        List.all_cons, octets, List.flatMap_cons]
      cases l.isUtf8 with
      | false => rfl
      | true =>
          -- the line joins the data read so far, over which the induction runs
          rw [if_pos rfl, Bool.true_and, ← List.append_assoc data]
          exact ih (data ++ l.crlf)

/-- The message is stored octet for octet and acknowledged, and the session goes
    on behind its terminator. -/
structure Transparent (ls : List OctetLine) (rest : Bytes) (r : Reaction) : Prop where
  result : r.result = .ok .continue
  stored : ∃ record, r.events.filterMap pushedRecord? = [record] ∧ record.raw = octets ls
  answered : reply "250 OK: queued" ∈ r.events
  rest_eq : r.rest = rest

section

variable {env : Env} {cfg : SmtpConfig} {stamp : Stamp} {s : Session} {input rest : Bytes}
  {line : Text}

/-- **A message of octets is taken exactly when all its lines are UTF-8.** -/
theorem transparent_iff_utf8 (ls : List OctetLine)
    (hls : ∀ l ∈ ls, l.onlyDots = false)
    (hr : readLine input = .ok (line, stuffedOctets ls ++ (terminator ++ rest)))
    (ho : OpensData s line) :
    Transparent ls rest (processCommand env cfg stamp s input)
      ↔ ∀ l ∈ ls, l.isUtf8 = true := by
  rw [processCommand, hr]
  simp only [processLine, if_neg ho.line_ne]
  rw [ho.interpret_data, readData, readDataFrom_stuffedOctets ls rest hls, ← List.all_eq_true]
  cases ls.all OctetLine.isUtf8 with
  | false =>
      refine ⟨fun h => ?_, fun h => absurd h Bool.false_ne_true⟩
      cases h.result
  | true =>
      refine ⟨fun _ => rfl, fun _ => ⟨rfl, ⟨parseEmail env stamp (octets ls) s.envelope,
        ?_, raw_parseEmail _ _ _ _⟩, ?_, rfl⟩⟩
      · simp only [if_true, List.nil_append, deliver]
        cases cfg.forwardHandle with
        | true => rfl
        | false => rfl
      · simp

end

/-- A session with an open transaction. -/
def openSession : Session := ⟨some ['a'], [['b']], false, false, false, .none⟩

theorem opensData_openSession : OpensData openSession "DATA\r\n".toList :=
  ⟨by decide +kernel, rfl, by decide, by decide⟩

/-- A line with an accent, in UTF-8. -/
def accentLine : OctetLine := ⟨[99, 97, 102, 0xC3, 0xA9], by decide, by decide⟩

/-- The line with its accent in Latin-1. -/
def latinLine : OctetLine := ⟨[99, 97, 102, 0xE9], by decide, by decide⟩

theorem transparent_accentLine :
    Transparent [accentLine] [] (processCommand sampleEnv ⟨[], false, false, none, none, false⟩
      sampleStamp openSession
      (encode "DATA\r\n".toList ++ (stuffedOctets [accentLine] ++ (terminator ++ [])))) :=
  (transparent_iff_utf8 [accentLine] (by decide +kernel)
    (readLine_encode "DATA\r".toList _ (by decide)) opensData_openSession).mpr
    (by decide +kernel)

/-- A message with a single octet that is no UTF-8 ends the session, although EHLO
    announced 8BITMIME. -/
theorem latinLine_fails :
    let r := processCommand sampleEnv ⟨[], false, false, none, none, false⟩ sampleStamp
      openSession (encode "DATA\r\n".toList ++ (stuffedOctets [latinLine] ++ (terminator ++ [])))
    reply "250-8BITMIME" ∈ (ehlo ⟨[], false, false, none, none, false⟩ openSession).events
      ∧ latinLine.onlyDots = false ∧ OpensData openSession "DATA\r\n".toList
      ∧ r.result = .error .io ∧ ¬ Transparent [latinLine] [] r := by
  have hfail : (processCommand sampleEnv ⟨[], false, false, none, none, false⟩ sampleStamp
      openSession (encode "DATA\r\n".toList
        ++ (stuffedOctets [latinLine] ++ (terminator ++ [])))).result = .error .io := by
    decide +kernel
  refine ⟨by simp [ehlo], by decide +kernel, opensData_openSession, hfail, fun h => ?_⟩
  exact nomatch h.result.symm.trans hfail

end SmtpEightBit
