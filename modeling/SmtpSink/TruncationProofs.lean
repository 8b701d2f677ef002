import SmtpSink.EnvelopeProofs

/-! # Truncation — messages whose client hangs up

    The loop of `read_data` has two exits: the line that ends the data section,
    and the end of the stream.  `process_command` does not tell them apart, so
    what was read before the stream ended is stored like a message.

    `stored_received_iff` gives the exact extent: in every run, the messages
    that are stored or forwarded were all received completely, unless a data
    section is opened on a stream that ends before the line that would end the
    section (`CutShort`). -/

namespace SmtpTruncation

open Utf8 Unicode SmtpReader SmtpRecord SmtpSession SmtpTurn Runs SmtpConnection
open SmtpEnvelope

/-! ## Complete data sections -/

/-- A complete data section: lines, of which the last and no other trims to a
    dot. -/
inductive Complete : Text → Prop where
  | last (l : Text) : '\n' ∉ l → trim l = ['.'] → Complete (l ++ ['\n'])
  | line (l t : Text) : '\n' ∉ l → trim l ≠ ['.'] → Complete t →
      Complete (l ++ '\n' :: t)

/-- A stream of text that ends before its data section is complete. -/
def EndsEarly (input : Bytes) : Prop :=
  ∃ text, input = encode text ∧ ∀ t u, text = t ++ u → ¬ Complete t

theorem Complete.lf_mem {t : Text} (h : Complete t) : '\n' ∈ t := by
  cases h with
  | last l => exact List.mem_append_right l List.mem_cons_self
  | line l t => exact List.mem_append_right l List.mem_cons_self

/-- A text is cut at its first line feed in one way. -/
theorem first_line_unique {l l' t t' : Text} (hl : '\n' ∉ l) (hl' : '\n' ∉ l')
    (h : l ++ '\n' :: t = l' ++ '\n' :: t') : l = l' ∧ t = t' := by
  induction l generalizing l' with
  | nil =>
      cases l' with
      | nil => exact ⟨rfl, (List.cons.inj h).2⟩
      | cons c l' =>
          obtain ⟨rfl, -⟩ := List.cons.inj h
          exact absurd List.mem_cons_self hl'
  | cons c l ih =>
      rw [List.mem_cons, not_or] at hl
      cases l' with
      | nil => exact absurd (List.cons.inj h).1.symm hl.1
      | cons d l' =>
          rw [List.mem_cons, not_or] at hl'
          obtain ⟨rfl, htail⟩ := List.cons.inj h
          obtain ⟨rfl, rfl⟩ := ih hl.2 hl'.2 htail
          exact ⟨rfl, rfl⟩

/-- Of a complete section behind a line that does not end it, the rest is
    complete. -/
theorem Complete.tail {l t u v : Text} (hl : '\n' ∉ l) (hdot : trim l ≠ ['.'])
    (h : Complete t) (hcut : l ++ '\n' :: v = t ++ u) : ∃ t', Complete t' ∧ v = t' ++ u := by
  cases h with
  | last k hk hend =>
      have hcut' : l ++ '\n' :: v = k ++ '\n' :: u := by
        rw [hcut, List.append_assoc]
        rfl
      obtain ⟨rfl, -⟩ := first_line_unique hl hk hcut'
      exact absurd hend hdot
  | line k t hk _ ht =>
      have hcut' : l ++ '\n' :: v = k ++ '\n' :: (t ++ u) := by
        rw [hcut, List.append_assoc]
        rfl
      obtain ⟨-, rfl⟩ := first_line_unique hl hk hcut'
      exact ⟨t, ht, rfl⟩

/-- What ends early has no complete section in front. -/
theorem EndsEarly.not_complete {input : Bytes} {t : Text} (h : EndsEarly input)
    (ht : Complete t) (rest : Bytes) : input ≠ encode t ++ rest := by
  rintro rfl
  obtain ⟨text, htext, hno⟩ := h
  obtain ⟨u, rfl, -⟩ := encode_eq_append htext
  exact hno t u rfl ht

/-- One more line in front, which does not end the section. -/
theorem EndsEarly.line {l : Text} {rest : Bytes} (h : EndsEarly rest) (hl : '\n' ∉ l)
    (hdot : trim l ≠ ['.']) : EndsEarly (encode (l ++ ['\n']) ++ rest) := by
  obtain ⟨text, rfl, hno⟩ := h
  refine ⟨l ++ '\n' :: text, ?_, fun t u hcut ht => ?_⟩
  · rw [← encode_append, List.append_assoc]
    rfl
  · obtain ⟨t', ht', htext⟩ := ht.tail hl hdot hcut
    exact hno t' u htext ht'

/-- A stream without a line feed. -/
theorem endsEarly_of_notMem {l : Text} (hl : '\n' ∉ l) : EndsEarly (encode l) := by
  refine ⟨l, rfl, ?_⟩
  rintro t u rfl ht
  exact hl (List.mem_append_left u ht.lf_mem)

/-! ## The two exits of the loop -/

/-- Data that was read is a complete section, or all of a stream that ends
    early. -/
theorem readDataFrom_cases (n : Nat) :
    ∀ {data input bytes rest : Bytes}, input.length < n →
      readDataFrom data input = .ok (bytes, rest) →
      (∃ t, Complete t ∧ input = encode t ++ rest) ∨ EndsEarly input := by
  induction n with
  | zero => exact fun h => absurd h (Nat.not_lt_zero _)
  | succ n ih =>
      intro data input bytes rest hlen h
      cases hr : readLine input with
      | error e =>
          rw [readDataFrom_eq, hr] at h
          exact nomatch h
      | ok q =>
          obtain ⟨line, rest'⟩ := q
          rcases readLine_cases hr with ⟨l, hl, rfl, rfl⟩ | ⟨hl, rfl, -⟩
          · by_cases hdot : trim l = ['.']
            · -- the first exit
              rw [readDataFrom_end data rest' hl ((trim_lf l).trans hdot)] at h
              cases h
              exact Or.inl ⟨_, Complete.last l hl hdot, rfl⟩
            · have hne : l ++ ['\n'] ≠ [] := List.append_ne_nil_of_right_ne_nil l (by simp)
              have hdot' : trim (l ++ ['\n']) ≠ ['.'] := by rwa [trim_lf]
              have hshort := readLine_length hr hne
              rw [readDataFrom_line hr hne hdot'] at h
              rcases ih (by omega) h with ⟨t, ht, rfl⟩ | hearly
              · refine Or.inl ⟨l ++ '\n' :: t, Complete.line l t hl hdot ht, ?_⟩
                rw [← List.append_assoc, ← encode_append, List.append_assoc]
                rfl
              · exact Or.inr (hearly.line hl hdot)
          · exact Or.inr (endsEarly_of_notMem hl)

/-- Text is always read. -/
theorem readDataFrom_text (n : Nat) :
    ∀ {data : Bytes} {text : Text}, text.length < n →
      ∃ q, readDataFrom data (encode text) = .ok q := by
  induction n with
  | zero => exact fun h => absurd h (Nat.not_lt_zero _)
  | succ n ih =>
      intro data text hlen
      by_cases hlf : '\n' ∈ text
      · obtain ⟨l, u, rfl, hl⟩ := List.eq_append_cons_of_mem hlf
        have hr : readLine (encode (l ++ '\n' :: u)) = .ok (l ++ ['\n'], encode u) := by
          rw [← readLine_encode l (encode u) hl, ← encode_append, List.append_assoc]
          rfl
        by_cases hdot : trim (l ++ ['\n']) = ['.']
        · rw [readDataFrom_eq, hr]
          simp [dataStep_dot hdot]
        · have hne : l ++ ['\n'] ≠ [] := List.append_ne_nil_of_right_ne_nil l (by simp)
          rw [readDataFrom_line hr hne hdot]
          refine ih ?_
          rw [List.length_append, List.length_cons] at hlen
          omega
      · have hr := readLine_tail hlf
        by_cases hnil : text = []
        · subst hnil
          exact ⟨_, rfl⟩
        · by_cases hdot : trim text = ['.']
          · rw [readDataFrom_eq, hr]
            simp [dataStep_dot hdot]
          · rw [readDataFrom_line hr hnil hdot]
            exact ⟨_, rfl⟩

/-- **What `read_data` returns was complete exactly when the stream did not end
    early.** -/
theorem readData_complete_iff {input bytes rest : Bytes}
    (h : readData input = .ok (bytes, rest)) :
    (∃ t, Complete t ∧ input = encode t ++ rest) ↔ ¬ EndsEarly input := by
  constructor
  · rintro ⟨t, ht, hinput⟩ hearly
    exact hearly.not_complete ht rest hinput
  · intro hno
    exact (readDataFrom_cases _ (Nat.lt_succ_self _) h).resolve_right hno

/-! ## Runs -/

/-- The move hands a record to the store or to the forwarder. -/
def HandsOver (m : Move) : Prop :=
  ∃ record, .push record ∈ m.events ∨ .forward record ∈ m.events

/-- The move takes a complete data section from the stream, behind its line. -/
def ReceivesAll (m : Move) : Prop :=
  ∃ line t, Complete t
    ∧ readLine m.before.input = .ok (line, encode t ++ m.after.input)

/-- The move opens a data section on a stream that ends before the section is
    complete. -/
def CutShort (m : Move) : Prop :=
  (m.before.phase = .plain ∨ m.before.phase = .tls)
    ∧ ∃ line rest, readLine m.before.input = .ok (line, rest)
      ∧ OpensData m.before.session line ∧ EndsEarly rest

/-- A move hands over a message it received completely, unless it is cut
    short. -/
theorem step_received_iff {env : Env} {cfg : SmtpConfig} {c c' : Conn} {m : Move}
    (h : Step env cfg c m c') : (HandsOver m → ReceivesAll m) ↔ ¬ CutShort m := by
  constructor
  · rintro hall ⟨hp, line, rest, hr, ho, hearly⟩
    obtain ⟨⟨bytes, rest'⟩, hd⟩ : ∃ q, readData rest = .ok q := by
      obtain ⟨text, rfl, -⟩ := hearly
      exact readDataFrom_text _ (Nat.lt_succ_self _)
    obtain ⟨stamp, hdel, hafter⟩ := h.delivers_of_opens hp hr ho hd
    have hpush : .push (parseEmail env stamp bytes m.before.session.envelope) ∈ m.events := by
      rw [hdel.events, deliver]
      simp
    obtain ⟨line', t, ht, hr'⟩ := hall ⟨_, Or.inl hpush⟩
    cases hr.symm.trans hr'
    exact EndsEarly.not_complete hearly ht _ rfl
  · rintro hno ⟨record, hrec⟩
    have hdel : ∃ line rest bytes stamp, Delivers env cfg m line rest bytes stamp := by
      rcases hrec with he | he
      · exact h.delivers he (.push record)
      · exact h.delivers he (.forward record)
    obtain ⟨line, rest, bytes, stamp, hd⟩ := hdel
    obtain ⟨t, ht, rfl⟩ := (readData_complete_iff hd.data).mpr
      (fun hearly => hno ⟨hd.phase, line, rest, hd.read, hd.opens, hearly⟩)
    exact ⟨line, t, ht, hd.read⟩

/-- **Stored messages are complete where no client hangs up inside one.**  In
    every run, what is stored or forwarded was received up to the line that ends
    it, if and only if no data section was opened on a stream that ends before
    that line. -/
theorem stored_received_iff {env : Env} {cfg : SmtpConfig} {c c' : Conn} {l : List Move}
    (hrun : Run (Step env cfg) c l c') :
    (∀ m ∈ l, HandsOver m → ReceivesAll m) ↔ ∀ m ∈ l, ¬ CutShort m := by
  refine forall₂_congr (fun m hm => ?_)
  obtain ⟨u, v, hstep⟩ := hrun.step_of_mem hm
  exact step_received_iff hstep

/-- A complete section of three lines and the dot. -/
theorem sampleData_complete :
    ∃ t, Complete t ∧ sampleData ++ encode ".\r\n".toList = encode t := by
  refine ⟨"To: <v@d>\r\n\r\nhi\r\n.\r\n".toList, ?_, by decide +kernel⟩
  refine Complete.line "To: <v@d>\r".toList _ (by decide) (by decide) ?_
  refine Complete.line ['\r'] _ (by decide) (by decide) ?_
  refine Complete.line "hi\r".toList _ (by decide) (by decide) ?_
  exact Complete.last ['.', '\r'] (by decide) (by decide)

/-- A client that ends its message. -/
theorem stored_received_single :
    let run := (sampleRun openConfig none 4 oneSender).1
    run.length = 4 ∧ (∃ m ∈ run, HandsOver m) ∧ ∀ m ∈ run, HandsOver m → ReceivesAll m := by
  have hlen : (sampleRun openConfig none 4 oneSender).1.length = 4 := by decide +kernel
  have hbody : ((sampleRun openConfig none 4 oneSender).1.get ⟨3, by decide +kernel⟩).body?
      = some sampleData := by decide +kernel
  have hdata : ∀ m ∈ (sampleRun openConfig none 4 oneSender).1,
      ∀ q ∈ (readLine m.before.input).toOption, verb? m.before.session q.1 = some .data →
        q.2 = sampleData ++ encode ".\r\n".toList := by decide +kernel
  refine ⟨hlen, ?_, (stored_received_iff (sampleRun_run _ _ _ _)).mpr ?_⟩
  · have hmem := List.get_mem (sampleRun openConfig none 4 oneSender).1 ⟨3, by decide +kernel⟩
    obtain ⟨t, u, hstep⟩ := (sampleRun_run openConfig none 4 oneSender).step_of_mem hmem
    obtain ⟨-, line, stamp, hev⟩ := body_move hstep (Move.mem_of_body? hbody)
    refine ⟨_, hmem, parseEmail sampleEnv stamp sampleData t.session.envelope, Or.inl ?_⟩
    rw [hev]
    exact mem_deliver.1.mpr rfl
  · rintro m hm ⟨-, line, rest, hr, ho, hearly⟩
    obtain ⟨t, ht, hsection⟩ := sampleData_complete
    have hrest := hdata m hm (line, rest) (by rw [hr]; rfl) ho.verb
    refine hearly.not_complete ht [] ?_
    rw [List.append_nil, ← hsection]
    exact hrest

/-- A client that hangs up inside its message. -/
def hangingUp : Bytes :=
  encode "MAIL FROM:<a>\r\nRCPT TO:<x>\r\nDATA\r\nhi\r\n".toList

/-- What it sent of the message is stored. -/
theorem hangingUp_stored :
    let run := sampleRun openConfig none 4 hangingUp
    Run (Step sampleEnv openConfig) (Conn.start openConfig hangingUp) run.1 run.2
      ∧ run.1.length = 4 ∧ ¬ ∀ m ∈ run.1, HandsOver m → ReceivesAll m := by
  have hlen : (sampleRun openConfig none 4 hangingUp).1.length = 4 := by decide +kernel
  have hrun := sampleRun_run openConfig none 4 hangingUp
  refine ⟨hrun, hlen, fun hall => ?_⟩
  have hmem := List.get_mem (sampleRun openConfig none 4 hangingUp).1 ⟨3, by decide +kernel⟩
  obtain ⟨u, v, hstep⟩ := hrun.step_of_mem hmem
  refine (step_received_iff hstep).mp (hall _ hmem)
    ⟨by decide +kernel, "DATA\r\n".toList, encode "hi\r\n".toList, by decide +kernel,
      ⟨by decide +kernel, by decide +kernel, by decide +kernel, by decide +kernel⟩, ?_⟩
  exact (endsEarly_of_notMem (l := []) (by decide)).line (l := "hi\r".toList) (by decide)
    (by decide)

end SmtpTruncation
