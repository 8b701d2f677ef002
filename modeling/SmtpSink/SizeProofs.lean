import SmtpSink.DeliveryProofs
import SmtpSink.EnvelopeProofs

/-! # Message sizes — the announced limit and what is stored

    The reply to EHLO announces a size limit.  The loop that reads a message adds
    up the lines of its data section and never counts them, so a stored message
    has exactly the size the client gave it (`readDataFrom_section`).

    `sizes_kept_iff` — the messages a session accepts and stores keep to the limit
    exactly as long as the client's data sections do.  A client that ignores the
    announcement is not refused, in whatever lines it sends its message
    (`oversized_stored`). -/

namespace MessageSize

open Utf8 Unicode SmtpReader SmtpRecord SmtpSession SmtpTurn Runs SmtpConnection SmtpDelivery
  SmtpEnvelope

/-- The limit in the reply to EHLO. -/
def sizeLimit : Nat := 10485760

theorem ehlo_announces (cfg : SmtpConfig) (s : Session) :
    reply ("250-SIZE " ++ toString sizeLimit) ∈ (ehlo cfg s).events := by
  have htext : "250-SIZE " ++ toString sizeLimit = "250-SIZE 10485760" := by decide +kernel
  rw [htext, ehlo, say_events]
  exact List.mem_map_of_mem (by simp)

/-! ## The data section -/

/-- The lines of the data section that a stream begins with, up to the line that
    trims to a dot or the end of the stream. -/
inductive DataSection : Bytes → List Text → Prop where
  | ended {input rest : Bytes} : readLine input = .ok ([], rest) → DataSection input []
  | dot {input rest : Bytes} {line : Text} : readLine input = .ok (line, rest) →
      trim line = ['.'] → DataSection input []
  | line {input rest : Bytes} {line : Text} {lines : List Text} :
      readLine input = .ok (line, rest) → line ≠ [] → trim line ≠ ['.'] →
      DataSection rest lines → DataSection input (line :: lines)

/-- The size of some lines, in bytes and without their stuffing dots. -/
def sectionSize (lines : List Text) : Nat :=
  (lines.map (fun line => (encode (stripDot line)).length)).sum

/-- **The lines of a data section are all kept.** -/
theorem readDataFrom_section {input : Bytes} {lines : List Text}
    (h : DataSection input lines) :
    ∀ data, ∃ rest, readDataFrom data input
      = .ok (data ++ lines.flatMap (fun line => encode (stripDot line)), rest) := by
  induction h with
  | @ended input rest hr =>
      intro data
      refine ⟨rest, ?_⟩
      rw [readDataFrom_eq, hr, List.flatMap_nil, List.append_nil]
      rfl
  | @dot input rest line hr hdot =>
      intro data
      refine ⟨rest, ?_⟩
      rw [readDataFrom_eq, hr, List.flatMap_nil, List.append_nil]
      simp only [dataStep_dot hdot]
  | @line input rest line lines hr hne hdot _ ih =>
      intro data
      obtain ⟨rest', hrest⟩ := ih (data ++ encode (stripDot line))
      refine ⟨rest', ?_⟩
      rw [readDataFrom_line hr hne hdot, ← stripDot, hrest, List.flatMap_cons,
        List.append_assoc]

/-- A message that is read was sent as a data section. -/
theorem exists_section (n : Nat) :
    ∀ (data input : Bytes) (r : Bytes × Bytes), input.length < n →
      readDataFrom data input = .ok r → ∃ lines, DataSection input lines := by
  induction n with
  | zero => exact fun data input r hlen => absurd hlen (Nat.not_lt_zero _)
  | succ n ih =>
      intro data input r hlen h
      cases hr : readLine input with
      | error e =>
          rw [readDataFrom_eq, hr] at h
          cases h
      | ok p =>
          obtain ⟨line, rest⟩ := p
          by_cases hne : line = []
          · exact ⟨[], .ended (hne ▸ hr)⟩
          by_cases hdot : trim line = ['.']
          · exact ⟨[], .dot hr hdot⟩
          · have hshort := readLine_length hr hne
            rw [readDataFrom_line hr hne hdot] at h
            obtain ⟨lines, hlines⟩ := ih _ rest r (by omega) h
            exact ⟨line :: lines, .line hr hne hdot hlines⟩

/-- **A message is as long as the data section it was sent in.** -/
theorem readData_size {input bytes rest : Bytes} {lines : List Text}
    (h : readData input = .ok (bytes, rest)) (hs : DataSection input lines) :
    bytes.length = sectionSize lines := by
  obtain ⟨rest', h'⟩ := readDataFrom_section hs []
  obtain ⟨rfl, -⟩ := Prod.mk.inj (Except.ok.inj (h.symm.trans h'))
  rw [List.nil_append, List.length_flatMap]
  rfl

theorem length_stripDot (line : Text) :
    (encode (stripDot line)).length ≤ (encode line).length := by
  rw [stripDot]
  split_ifs
  · cases line with
    | nil => exact Nat.le_refl _
    | cons c line =>
        rw [List.tail_cons, encode_cons, List.length_append]
        exact Nat.le_add_left _ _
  · exact Nat.le_refl _

/-- A data section is no longer than the stream. -/
theorem sectionSize_le {input : Bytes} {lines : List Text} (h : DataSection input lines) :
    sectionSize lines ≤ input.length := by
  induction h with
  | ended | dot => exact Nat.zero_le _
  | @line input rest line lines hr _ _ _ ih =>
      have hline := length_stripDot line
      rw [sectionSize, List.map_cons, List.sum_cons, ← sectionSize, ← readLine_append hr,
        List.length_append]
      omega

/-! ## Runs -/

/-- The move takes a message and stores it as this record. -/
def Accepted (m : Move) (record : MailRecord) : Prop :=
  m.Says "250 OK: queued" ∧ .push record ∈ m.events

/-- A data section that the connection is about to read keeps to the limit. -/
def WithinLimit (c : Conn) : Prop :=
  ∀ line rest lines, c.phase = .plain ∨ c.phase = .tls → readLine c.input = .ok (line, rest) →
    OpensData c.session line → DataSection rest lines → sectionSize lines ≤ sizeLimit

/-- A stream that ends within the limit cannot exceed it. -/
theorem withinLimit_of_length {c : Conn} (h : c.input.length ≤ sizeLimit) : WithinLimit c := by
  intro line rest lines _ hr _ hs
  have hsection := sectionSize_le hs
  rw [← readLine_append hr, List.length_append] at h
  omega

section

variable {env : Env} {cfg : SmtpConfig} {c c' : Conn} {m : Move} {line : Text}
  {rest bytes : Bytes} {stamp : Stamp} {record : MailRecord} {l : List Move}

/-- A delivery accepts one record. -/
theorem accepted_iff (h : Delivers env cfg m line rest bytes stamp) :
    Accepted m record ↔ record = parseEmail env stamp bytes m.before.session.envelope := by
  rw [Accepted, ← Move.mem_pushed, h.pushed_eq, List.mem_singleton]
  refine and_iff_right ?_
  rw [Move.Says, h.events]
  exact List.mem_append_right _ List.mem_cons_self

/-- What is stored was accepted. -/
theorem accepted_of_pushed (h : Step env cfg c m c') (hp : record ∈ m.pushed) :
    Accepted m record := by
  obtain ⟨line, rest, bytes, stamp, hd⟩ := h.delivers (Move.mem_pushed.mp hp) (.push record)
  rw [hd.pushed_eq, List.mem_singleton] at hp
  exact (accepted_iff hd).mpr hp

/-- **One move keeps to the limit exactly when its data section does.** -/
theorem step_kept_iff (h : Step env cfg c m c') :
    (∀ record, Accepted m record → record.raw.length ≤ sizeLimit) ↔ WithinLimit m.before := by
  constructor
  · intro hkept line rest lines hp hr ho hs
    obtain ⟨rest', hdata⟩ := readDataFrom_section hs []
    obtain ⟨stamp, hd, -⟩ := h.delivers_of_opens hp hr ho hdata
    have hlen := hkept _ ((accepted_iff hd).mpr rfl)
    rwa [raw_parseEmail, readData_size hdata hs] at hlen
  · rintro hlimit record ⟨hqueued, hpush⟩
    obtain ⟨line, rest, bytes, stamp, hd⟩ := h.delivers hpush (.push record)
    obtain ⟨lines, hs⟩ := exists_section _ [] rest _ (Nat.lt_succ_self _) hd.data
    rw [(accepted_iff hd).mp ⟨hqueued, hpush⟩, raw_parseEmail, readData_size hd.data hs]
    exact hlimit line rest lines hd.phase hd.read hd.opens hs

/-- **The announced size is kept by the client or by no one.**  In every run, the
    messages that are accepted and stored are within the limit exactly when every
    data section behind an accepted DATA is. -/
theorem sizes_kept_iff (hrun : Run (Step env cfg) c l c') :
    (∀ m ∈ l, ∀ record, Accepted m record → record.raw.length ≤ sizeLimit)
      ↔ ∀ m ∈ l, WithinLimit m.before := by
  refine forall₂_congr (fun m hm => ?_)
  obtain ⟨u, v, hstep⟩ := hrun.step_of_mem hm
  exact step_kept_iff hstep

end

/-- A client whose message is far below the limit. -/
theorem sizes_kept_single :
    let run := sampleRun openConfig none 4 oneSender
    run.1.length = 4 ∧ ∀ m ∈ run.1, ∀ record, Accepted m record →
      record.raw.length ≤ sizeLimit := by
  have hshort : ∀ m ∈ (sampleRun openConfig none 4 oneSender).1,
      m.before.input.length ≤ sizeLimit := by decide +kernel
  exact ⟨by decide +kernel, (sizes_kept_iff (sampleRun_run _ _ _ _)).mpr
    (fun m hm => withinLimit_of_length (hshort m hm))⟩

/-! ## A message that is too large -/

theorem letters_kept (n : Nat) :
    ∀ l ∈ List.replicate n ['a'], '\n' ∉ l ∧ trim l ≠ ['.'] := by
  intro l hl
  rw [List.eq_of_mem_replicate hl]
  exact ⟨by decide, by decide⟩

/-- A message of `n` lines with one letter each. -/
def lettered (n : Nat) : Transaction :=
  { stuffedTransaction with
    lines := List.replicate n ['a']
    lines_kept := letters_kept n }

theorem length_lettered (n : Nat) : (encode (lettered n).message).length = 2 * n := by
  rw [Transaction.message]
  show (encode ((List.replicate n ['a']).flatMap _)).length = 2 * n
  induction n with
  | zero => rfl
  | succ n ih =>
      rw [List.replicate_succ, List.flatMap_cons, encode_append, List.length_append, ih]
      have hline : (encode (endLine (stripDot ['a']))).length = 2 := by decide
      omega

/-- **A message beyond the announced limit is accepted and stored.** -/
theorem oversized_stored :
    reply ("250-SIZE " ++ toString sizeLimit)
        ∈ (ehlo openConfig (Session.new false false)).events
      ∧ ∃ l c', Run (Step sampleEnv openConfig)
          (Conn.start openConfig (encode (lettered 5242881).sent)) l c'
        ∧ ∃ m ∈ l, ∃ record, Accepted m record ∧ sizeLimit < record.raw.length := by
  refine ⟨ehlo_announces _ _, ?_⟩
  have hallowed : (lettered 5242881).Allowed openConfig := Or.inl rfl
  obtain ⟨⟨l, c', hrun, hlen⟩, hevery⟩ := transaction_leads (p := .plain)
    (s := Session.new false false) sampleEnv [] ⟨Or.inl rfl, rfl, rfl⟩ rfl rfl hallowed
  obtain ⟨hhanded, -⟩ := hevery l c' hrun hlen
  rw [List.append_nil] at hrun
  have hgreets : Step sampleEnv openConfig
      (Conn.start openConfig (encode (lettered 5242881).sent))
      ⟨Conn.start openConfig (encode (lettered 5242881).sent), [reply greeting],
        ⟨.plain, Session.new false false, encode (lettered 5242881).sent⟩⟩
      ⟨.plain, Session.new false false, encode (lettered 5242881).sent⟩ :=
    ⟨rfl, rfl, none, sampleStamp, rfl⟩
  -- the one message that is handed over is that of some move
  have hmem : (lettered 5242881).handed ∈ l.flatMap Move.handed := by
    rw [hhanded]
    exact List.mem_cons_self
  obtain ⟨m, hm, hrecord⟩ := List.mem_flatMap.mp hmem
  obtain ⟨record, hpushed, heq⟩ := List.mem_map.mp hrecord
  obtain ⟨u, v, hstep⟩ := hrun.step_of_mem hm
  have hraw : record.raw = encode (lettered 5242881).message := congrArg Prod.snd heq
  refine ⟨_, c', Run.cons hgreets hrun, m, List.mem_cons_of_mem _ hm, record,
    accepted_of_pushed hstep hpushed, ?_⟩
  rw [hraw, length_lettered]
  decide

end MessageSize
