import SmtpSink.UnicodeProofs

/-! # Reading the client — lines and message data

    The session reads its client through two functions: `readLine` takes the
    bytes up to the next line feed and decodes them, and `readData` collects
    the lines of a message until one of them, trimmed, is a single dot.

    The result is the exact extent to which DATA framing is transparent
    (`readData_stuffed_iff`): a dot-stuffed message comes back byte for byte,
    with the reader right behind the terminator, unless the message has a line
    whose only visible character is a dot that is not its first character. -/

namespace SmtpReader

open Utf8 Unicode

/-- How a session can fail: an `io::Error` it returns, or a panic. -/
inductive Fault where
  | io
  | panic
  deriving DecidableEq, Repr

/-- The bytes up to and including the next line feed, and what follows. -/
def takeLine : Bytes → Bytes × Bytes
  | [] => ([], [])
  | b :: bs => if b = lf then ([b], bs) else (b :: (takeLine bs).1, (takeLine bs).2)

/-- `AsyncBufReadExt::read_line`: the next line with its line feed, or what is
    left at the end of the stream; an error when it is not UTF-8.  The line is
    empty only at the end of the stream (0 bytes read). -/
def readLine (input : Bytes) : Except Fault (Text × Bytes) :=
  match decode? (takeLine input).1 with
  | some line => .ok (line, (takeLine input).2)
  | none => .error .io

/-- What `read_data` makes of a line: it goes on with more data, or is done. -/
def dataStep (data : Bytes) (line : Text) : Except Fault (Option Bytes) :=
  if line = [] then .ok none
  else if trim line = ['.'] then .ok none
  else if ['.', '.'].isPrefixOf line then
    match dropBytes? 1 line with
    | none => .error .panic
    | some content => .ok (some (data ++ encode content))
  else .ok (some (data ++ encode line))

/-- The loop of `read_data`, for at most `n` lines. -/
def readDataLoop : Nat → Bytes → Bytes → Except Fault (Bytes × Bytes)
  | 0, data, input => .ok (data, input)
  | n + 1, data, input =>
      match readLine input with
      | .error e => .error e
      | .ok (line, rest) =>
          match dataStep data line with
          | .error e => .error e
          | .ok none => .ok (data, rest)
          | .ok (some more) => readDataLoop n more rest

/-- The loop of `read_data` on top of the data read so far.  Every line but the
    last takes a byte, so the input bounds the number of lines. -/
def readDataFrom (data input : Bytes) : Except Fault (Bytes × Bytes) :=
  readDataLoop (input.length + 1) data input

/-- The data of a message, and the stream behind it. -/
def readData (input : Bytes) : Except Fault (Bytes × Bytes) := readDataFrom [] input

/-! ## Lines -/

theorem takeLine_append (bs : Bytes) : (takeLine bs).1 ++ (takeLine bs).2 = bs := by
  induction bs with
  | nil => rfl
  | cons b bs ih =>
      rw [takeLine]
      by_cases hb : b = lf
      · rw [if_pos hb]; rfl
      · rw [if_neg hb, List.cons_append, ih]

theorem takeLine_of_lf (l rest : Bytes) (hl : lf ∉ l) :
    takeLine (l ++ lf :: rest) = (l ++ [lf], rest) := by
  induction l with
  | nil => rfl
  | cons b l ih =>
      rw [List.mem_cons, not_or] at hl
      rw [List.cons_append, takeLine, if_neg (fun h => hl.1 h.symm), ih hl.2]
      rfl

theorem takeLine_of_notMem {bs : Bytes} (h : lf ∉ bs) : takeLine bs = (bs, []) := by
  induction bs with
  | nil => rfl
  | cons b bs ih =>
      rw [List.mem_cons, not_or] at h
      rw [takeLine, if_neg (fun hb => h.1 hb.symm), ih h.2]

/-- Reading a line fails on the stream only. -/
theorem readLine_error {input : Bytes} {e : Fault} (h : readLine input = .error e) :
    e = .io := by
  rw [readLine] at h
  cases hd : decode? (takeLine input).1 with
  | none =>
      rw [hd] at h
      cases h
      rfl
  | some t =>
      rw [hd] at h
      cases h

/-- What is read is the next line of the stream, decoded. -/
theorem takeLine_of_readLine {input rest : Bytes} {line : Text}
    (h : readLine input = .ok (line, rest)) : takeLine input = (encode line, rest) := by
  rw [readLine] at h
  cases hd : decode? (takeLine input).1 with
  | none => rw [hd] at h; exact nomatch h
  | some t =>
      rw [hd] at h
      obtain ⟨rfl, rfl⟩ : t = line ∧ (takeLine input).2 = rest := by
        simpa using h
      rw [encode_of_decode? hd]

/-- A line and what follows it make up the stream. -/
theorem readLine_append {input rest : Bytes} {line : Text}
    (h : readLine input = .ok (line, rest)) : encode line ++ rest = input := by
  have happ := takeLine_append input
  rwa [takeLine_of_readLine h] at happ

/-- A line that is read and not empty shortens the stream. -/
theorem readLine_length {input rest : Bytes} {line : Text}
    (h : readLine input = .ok (line, rest)) (hne : line ≠ []) :
    rest.length < input.length := by
  have hpos : 0 < line.length := List.length_pos_of_ne_nil hne
  have hle := length_le_encode line
  rw [← readLine_append h, List.length_append]
  omega

/-- A line of text ended by a line feed is read as it was sent. -/
theorem readLine_encode (l : Text) (rest : Bytes) (hl : '\n' ∉ l) :
    readLine (encode (l ++ ['\n']) ++ rest) = .ok (l ++ ['\n'], rest) := by
  have hbytes : encode (l ++ ['\n']) ++ rest = encode l ++ lf :: rest := by
    rw [encode_append, List.append_assoc]
    rfl
  have hline : encode l ++ [lf] = encode (l ++ ['\n']) := by
    rw [encode_append]
    rfl
  have hlf : lf ∉ encode l := fun h => hl ((lf_mem_encode l).mp h)
  rw [readLine]
  rw [hbytes, takeLine_of_lf _ _ hlf]
  simp only [hline, decode?_encode]

/-- What is left at the end of the stream is a line, too. -/
theorem readLine_tail {l : Text} (hl : '\n' ∉ l) : readLine (encode l) = .ok (l, []) := by
  have hlf : lf ∉ encode l := fun h => hl ((lf_mem_encode l).mp h)
  rw [readLine, takeLine_of_notMem hlf]
  simp only [decode?_encode]

/-- What is read is the text up to a line feed, or all that is left. -/
theorem readLine_cases {input rest : Bytes} {line : Text}
    (h : readLine input = .ok (line, rest)) :
    (∃ l, '\n' ∉ l ∧ line = l ++ ['\n'] ∧ input = encode (l ++ ['\n']) ++ rest)
    ∨ '\n' ∉ line ∧ input = encode line ∧ rest = [] := by
  have htake := takeLine_of_readLine h
  by_cases hin : lf ∈ input
  · obtain ⟨p, q, rfl, hp⟩ := List.eq_append_cons_of_mem hin
    rw [takeLine_of_lf p q hp] at htake
    obtain ⟨hbytes, rfl⟩ := Prod.mk.inj htake
    -- the bytes have one line feed, the last of them
    obtain ⟨l, u, rfl, rfl, hu⟩ := encode_eq_cut (a := '\n') (by decide) hp hbytes.symm
    obtain rfl : u = [] := by
      have := length_le_encode u
      rw [hu] at this
      exact List.eq_nil_of_length_eq_zero (Nat.le_zero.mp this)
    have hl : '\n' ∉ l := fun hmem => hp ((lf_mem_encode l).mpr hmem)
    exact Or.inl ⟨l, hl, rfl, (readLine_append h).symm⟩
  · rw [takeLine_of_notMem hin] at htake
    obtain ⟨rfl, rfl⟩ := Prod.mk.inj htake
    exact Or.inr ⟨fun hmem => hin ((lf_mem_encode line).mpr hmem), rfl, rfl⟩

/-! ## The data loop -/

/-- A dot is a character of one byte. -/
theorem dropBytes?_dot (s : Text) : dropBytes? 1 ('.' :: s) = some s :=
  dropBytes?_prefix ['.'] s

/-- At its end a stream gives an empty line. -/
@[simp] theorem dataStep_nil (data : Bytes) : dataStep data [] = .ok none := rfl

/-- A line that trims to a dot ends the data. -/
theorem dataStep_dot {line : Text} (hdot : trim line = ['.']) (data : Bytes) :
    dataStep data line = .ok none := by
  rw [dataStep, if_pos hdot, ite_self]

/-- Any other line is added to the data, without the first of two leading dots. -/
theorem dataStep_more {line : Text} (hne : line ≠ []) (hdot : trim line ≠ ['.'])
    (data : Bytes) : dataStep data line
      = .ok (some (data ++ encode (if ['.', '.'].isPrefixOf line then line.tail else line))) := by
  rw [dataStep, if_neg hne, if_neg hdot]
  by_cases hp : ['.', '.'].isPrefixOf line = true
  · obtain ⟨u, rfl⟩ := List.isPrefixOf_iff_prefix.mp hp
    have hdrop : dropBytes? 1 (['.', '.'] ++ u) = some ('.' :: u) := dropBytes?_dot _
    rw [if_pos hp, if_pos hp, hdrop]
    rfl
  · rw [if_neg hp, if_neg hp]

/-- No line fails, and only a line that is not empty goes on. -/
theorem dataStep_cases (data : Bytes) (line : Text) :
    dataStep data line = .ok none ∨ line ≠ [] ∧ ∃ more, dataStep data line = .ok (some more) := by
  by_cases hline : line = []
  · exact Or.inl (by rw [hline, dataStep_nil])
  · by_cases hdot : trim line = ['.']
    · exact Or.inl (dataStep_dot hdot data)
    · exact Or.inr ⟨hline, _, dataStep_more hline hdot data⟩

/-- Any number of lines beyond the length of the stream gives the same data. -/
theorem readDataLoop_fuel (n : Nat) :
    ∀ (m : Nat) (data input : Bytes), input.length < n → input.length < m →
      readDataLoop n data input = readDataLoop m data input := by
  induction n with
  | zero => intro m data input hn _; exact absurd hn (Nat.not_lt_zero _)
  | succ n ih =>
      intro m data input hn hm
      cases m with
      | zero => exact absurd hm (Nat.not_lt_zero _)
      | succ m =>
          rw [readDataLoop, readDataLoop]
          cases hr : readLine input with
          | error e => rfl
          | ok p =>
              obtain ⟨line, rest⟩ := p
              rcases dataStep_cases data line with hend | ⟨hline, more, hmore⟩
              · simp only [hend]
              · have hlt := readLine_length hr hline
                simp only [hmore]
                exact ih m more rest (by omega) (by omega)

/-- One round of the data loop. -/
theorem readDataFrom_eq (data input : Bytes) :
    readDataFrom data input =
      match readLine input with
      | .error e => .error e
      | .ok (line, rest) =>
          match dataStep data line with
          | .error e => .error e
          | .ok none => .ok (data, rest)
          | .ok (some more) => readDataFrom more rest := by
  rw [readDataFrom, readDataLoop]
  cases hr : readLine input with
  | error e => rfl
  | ok p =>
      obtain ⟨line, rest⟩ := p
      rcases dataStep_cases data line with hend | ⟨hline, more, hmore⟩
      · simp only [hend]
      · have hlt := readLine_length hr hline
        simp only [hmore]
        exact readDataLoop_fuel _ _ more rest hlt (Nat.lt_succ_self _)

/-- A line that trims to a dot ends the data. -/
theorem readDataFrom_end {l : Text} (data rest : Bytes) (hl : '\n' ∉ l)
    (hdot : trim (l ++ ['\n']) = ['.']) :
    readDataFrom data (encode (l ++ ['\n']) ++ rest) = .ok (data, rest) := by
  rw [readDataFrom_eq, readLine_encode l rest hl]
  simp only [dataStep_dot hdot]

/-- Any other line is added to the data. -/
theorem readDataFrom_line {input rest : Bytes} {line : Text}
    (hr : readLine input = .ok (line, rest)) (hne : line ≠ []) (hdot : trim line ≠ ['.'])
    (data : Bytes) :
    readDataFrom data input = readDataFrom
      (data ++ encode (if ['.', '.'].isPrefixOf line then line.tail else line)) rest := by
  rw [readDataFrom_eq, hr]
  simp only [dataStep_more hne hdot]

/-- A line that starts with two dots loses the first. -/
theorem readDataFrom_stuffed {l : Text} (data rest : Bytes)
    (hl : '\n' ∉ '.' :: '.' :: l)
    (hdot : trim ('.' :: '.' :: l ++ ['\n']) ≠ ['.']) :
    readDataFrom data (encode ('.' :: '.' :: l ++ ['\n']) ++ rest)
      = readDataFrom (data ++ encode ('.' :: l ++ ['\n'])) rest := by
  have hpre : ['.', '.'].isPrefixOf ('.' :: '.' :: l ++ ['\n']) = true := by
    rw [List.isPrefixOf_iff_prefix]
    exact ⟨l ++ ['\n'], rfl⟩
  rw [readDataFrom_line (readLine_encode _ rest hl) (List.cons_ne_nil _ _) hdot, if_pos hpre]
  rfl

/-- Any other line is kept as it is. -/
theorem readDataFrom_keep {l : Text} (data rest : Bytes) (hl : '\n' ∉ l)
    (hdot : trim (l ++ ['\n']) ≠ ['.'])
    (hpre : ['.', '.'].isPrefixOf (l ++ ['\n']) = false) :
    readDataFrom data (encode (l ++ ['\n']) ++ rest)
      = readDataFrom (data ++ encode (l ++ ['\n'])) rest := by
  have hne : l ++ ['\n'] ≠ [] := List.append_ne_nil_of_right_ne_nil l (by simp)
  rw [readDataFrom_line (readLine_encode l rest hl) hne hdot, hpre]
  rfl

/-! ## Dot-stuffed messages -/

/-- A line of a message: any text without a line feed. -/
structure MessageLine where
  text : Text
  noLf : '\n' ∉ text

/-- The line as it stands in the message, ended by CRLF. -/
def MessageLine.crlf (l : MessageLine) : Text := l.text ++ ['\r', '\n']

/-- The line as the client sends it: one more dot before a leading dot. -/
def MessageLine.dotStuffed (l : MessageLine) : Text :=
  if ['.'].isPrefixOf l.text then '.' :: l.crlf else l.crlf

/-- A line with a single visible character, a dot behind white space. -/
def MessageLine.hidesDot (l : MessageLine) : Prop :=
  ¬ ['.'].isPrefixOf l.text ∧ trim l.text = ['.']

instance (l : MessageLine) : Decidable l.hidesDot :=
  inferInstanceAs (Decidable (_ ∧ _))

/-- The bytes of a message. -/
def messageBytes (ls : List MessageLine) : Bytes :=
  encode (ls.flatMap MessageLine.crlf)

/-- The bytes of a message as sent in the data section. -/
def stuffedBytes (ls : List MessageLine) : Bytes :=
  encode (ls.flatMap MessageLine.dotStuffed)

/-- The line that ends the data section. -/
def terminator : Bytes := encode ".\r\n".toList

theorem stuffedBytes_cons (l : MessageLine) (ls : List MessageLine) :
    stuffedBytes (l :: ls) = encode l.dotStuffed ++ stuffedBytes ls := by
  rw [stuffedBytes, List.flatMap_cons, encode_append]
  rfl

theorem messageBytes_cons (l : MessageLine) (ls : List MessageLine) :
    messageBytes (l :: ls) = encode l.crlf ++ messageBytes ls := by
  rw [messageBytes, List.flatMap_cons, encode_append]
  rfl

theorem trim_lf (t : Text) : trim (t ++ ['\n']) = trim t :=
  trim_append_whitespace t ['\n'] (by decide)

theorem trim_crlf (t : Text) : trim (t ++ ['\r'] ++ ['\n']) = trim t := by
  rw [List.append_assoc]
  exact trim_append_whitespace t _ (by decide)

theorem trim_dot_dot (t : Text) : trim ('.' :: '.' :: t) ≠ ['.'] := by
  rw [trim_cons _ (by decide)]
  intro h
  rw [List.cons_inj_right, List.rdropWhile_eq_nil_iff] at h
  exact absurd (h '.' (by simp)) (by decide)

/-- One line of the data section.  A hidden dot ends it, every other line
    reaches the data as it stands in the message. -/
theorem readDataFrom_dotStuffed (l : MessageLine) (data rest : Bytes) :
    readDataFrom data (encode l.dotStuffed ++ rest)
      = if l.hidesDot then .ok (data, rest)
        else readDataFrom (data ++ encode l.crlf) rest := by
  obtain ⟨t, ht⟩ := l
  have hcr : '\n' ∉ t ++ ['\r'] := by
    rw [List.mem_append]
    rintro (h | h)
    · exact ht h
    · exact absurd h (by decide)
  have hidden : MessageLine.hidesDot ⟨t, ht⟩ ↔ ¬ ['.'].isPrefixOf t ∧ trim t = ['.'] :=
    Iff.rfl
  rw [MessageLine.dotStuffed, MessageLine.crlf]
  dsimp only
  rw [show t ++ ['\r', '\n'] = t ++ ['\r'] ++ ['\n'] by simp]
  by_cases hp : ['.'].isPrefixOf t = true
  · -- a leading dot: the sent line starts with two, and one is removed
    rw [if_pos hp, if_neg (fun h => (hidden.mp h).1 hp)]
    obtain ⟨u, rfl⟩ := List.isPrefixOf_iff_prefix.mp hp
    have hmem : '\n' ∉ '.' :: '.' :: (u ++ ['\r']) := by
      rw [List.mem_cons, not_or]
      exact ⟨by decide, hcr⟩
    exact readDataFrom_stuffed data rest hmem (trim_dot_dot _)
  · rw [if_neg hp]
    by_cases hdot : trim t = ['.']
    · rw [if_pos (hidden.mpr ⟨hp, hdot⟩)]
      exact readDataFrom_end data rest hcr (by rw [trim_crlf]; exact hdot)
    · rw [if_neg (fun h => hdot (hidden.mp h).2)]
      refine readDataFrom_keep data rest hcr (by rw [trim_crlf]; exact hdot) ?_
      cases t with
      | nil => rfl
      | cons c t =>
          have hc : ('.' == c) = false := by
            cases hb : '.' == c with
            | false => rfl
            | true => exact absurd (by simp [List.isPrefixOf, hb]) hp
          simp [List.isPrefixOf, hc]

/-- A message without hidden dots is read completely. -/
theorem readDataFrom_message (ls : List MessageLine) (rest : Bytes)
    (hls : ∀ l ∈ ls, ¬ l.hidesDot) :
    ∀ data, readDataFrom data (stuffedBytes ls ++ (terminator ++ rest))
      = .ok (data ++ messageBytes ls, rest) := by
  induction ls with
  | nil =>
      intro data
      have hend := readDataFrom_end (l := ['.', '\r']) data rest (by decide) (by decide)
      rw [show messageBytes [] = [] from rfl, List.append_nil]
      exact hend
  | cons l ls ih =>
      intro data
      rw [stuffedBytes_cons, List.append_assoc, readDataFrom_dotStuffed,
        if_neg (hls l (by simp)), ih (fun k hk => hls k (by simp [hk])),
        messageBytes_cons, List.append_assoc]

/-- The first hidden dot of a message ends its data section. -/
theorem readDataFrom_hidden (ls : List MessageLine) (l : MessageLine)
    (more : List MessageLine) (rest : Bytes) (hls : ∀ k ∈ ls, ¬ k.hidesDot)
    (hl : l.hidesDot) :
    ∀ data, readDataFrom data (stuffedBytes (ls ++ l :: more) ++ rest)
      = .ok (data ++ messageBytes ls, stuffedBytes more ++ rest) := by
  induction ls with
  | nil =>
      intro data
      rw [List.nil_append, stuffedBytes_cons, List.append_assoc,
        readDataFrom_dotStuffed, if_pos hl]
      rw [show messageBytes [] = [] from rfl, List.append_nil]
  | cons k ls ih =>
      intro data
      rw [List.cons_append, stuffedBytes_cons, List.append_assoc,
        readDataFrom_dotStuffed, if_neg (hls k (by simp)),
        ih (fun j hj => hls j (by simp [hj])), messageBytes_cons, List.append_assoc]

/-- **DATA framing is transparent exactly for messages without hidden dots**:
    the message comes back byte for byte, with the reader right behind the
    terminator. -/
theorem readData_stuffed_iff (ls : List MessageLine) (rest : Bytes) :
    readData (stuffedBytes ls ++ (terminator ++ rest)) = .ok (messageBytes ls, rest)
      ↔ ∀ l ∈ ls, ¬ l.hidesDot := by
  constructor
  · intro h
    by_contra hex
    rw [not_forall] at hex
    -- cut the message at its first hidden dot
    have hsplit : ∃ pre l post, ls = pre ++ l :: post ∧ (∀ k ∈ pre, ¬ k.hidesDot)
        ∧ l.hidesDot := by
      have hfind : ls.find? (fun l => decide l.hidesDot) ≠ none := by
        intro hnone
        obtain ⟨l, hl⟩ := hex
        rw [List.find?_eq_none] at hnone
        exact hl (fun hmem hd => hnone l hmem (decide_eq_true hd))
      obtain ⟨l, hl⟩ := Option.ne_none_iff_exists'.mp hfind
      obtain ⟨hd, pre, post, rfl, hpre⟩ := List.find?_eq_some_iff_append.mp hl
      refine ⟨pre, l, post, rfl, ?_, of_decide_eq_true hd⟩
      intro k hk hkd
      have := hpre k hk
      rw [decide_eq_true hkd] at this
      exact nomatch this
    obtain ⟨pre, l, post, rfl, hpre, hl⟩ := hsplit
    have hcut := readDataFrom_hidden pre l post (terminator ++ rest) hpre hl []
    -- what is left of the stream is then longer than `rest`
    have heq : stuffedBytes post ++ (terminator ++ rest) = rest := by
      have := hcut.symm.trans h
      injection this with this
      exact congrArg Prod.snd this
    have hlen := congrArg List.length heq
    have hterm : terminator.length = 3 := by decide
    simp only [List.length_append] at hlen
    omega
  · intro h
    exact readDataFrom_message ls rest h []

/-- A line with a blank before its only dot. -/
def blankDot : MessageLine := ⟨[' ', '.'], by decide⟩

/-- The line behind a hidden dot is left in the stream as the next command. -/
theorem readData_blankDot :
    readData (stuffedBytes [⟨"Hi".toList, by decide⟩, blankDot,
        ⟨"RCPT TO:<x@y>".toList, by decide⟩] ++ (terminator ++ []))
      ≠ .ok (messageBytes [⟨"Hi".toList, by decide⟩, blankDot,
        ⟨"RCPT TO:<x@y>".toList, by decide⟩], [])
    ∧ readData (stuffedBytes [⟨"Hi".toList, by decide⟩, blankDot,
        ⟨"RCPT TO:<x@y>".toList, by decide⟩] ++ (terminator ++ []))
      = .ok (encode "Hi\r\n".toList, encode "RCPT TO:<x@y>\r\n.\r\n".toList) := by
  decide +kernel

end SmtpReader
