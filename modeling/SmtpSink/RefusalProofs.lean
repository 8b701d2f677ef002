import SmtpSink.EnvelopeProofs
import SmtpSink.ReplyProofs

/-! # Refusals — a refused command changes nothing

    A reply is a refusal when its code is a 4xx or a 5xx code.  Of all turns only
    `Turn.refused` writes one, so the frame of a refusal is read off that case:
    the session keeps everything but an AUTH exchange under way, the connection
    stays in its loop, nothing is delivered, and nothing is read behind the
    line. -/

namespace SmtpRefusal

open Utf8 Unicode SmtpReader SmtpRecord SmtpSession SmtpTurn Runs SmtpConnection SmtpReply
  SmtpEnvelope

/-- The event writes a reply with a 4xx or 5xx code. -/
def refuses : Event → Bool
  | .write text => text.head? == some '4' || text.head? == some '5'
  | .read _ | .body _ | .forward _ | .push _ => false

/-- The server refuses something during a move. -/
def Refuses (m : Move) : Prop := ∃ e ∈ m.events, refuses e = true

/-- What delivers a record is no refusal. -/
theorem refuses_deliver {cfg : SmtpConfig} {record : MailRecord} {e : Event}
    (he : e ∈ deliver cfg record) : refuses e = false := by
  rw [deliver] at he
  rcases List.mem_append.mp he with he | he
  · split_ifs at he with hf
    · rw [List.mem_singleton.mp he]
      rfl
    · exact absurd he List.not_mem_nil
  · rw [List.mem_singleton.mp he]
    rfl

section

variable {env : Env} {cfg : SmtpConfig} {stamp : Stamp} {line : Text} {rest : Bytes}
  {s : Session} {l : List Move} {c c' : Conn} {m : Move}

/-- **Only a refused turn writes a refusal.** -/
theorem turn_refuses {r : Reaction} (h : Turn env cfg stamp line rest s r) :
    (∃ text ∈ refusals, r = ⟨say { s with authState := .none } [text], rest⟩)
    ∨ ∀ e ∈ r.events, refuses e = false := by
  cases h with
  | refused text ht => exact Or.inl ⟨text, ht, rfl⟩
  | promptPlain | promptLogin | promptPassword | authenticated | starttls | mailAccepted
  | rcptAccepted | dataFailed | rset | noop | quit =>
      refine Or.inr (fun e he => ?_)
      rw [List.mem_singleton.mp he]
      decide +kernel
  | ehlo =>
      -- the capabilities are one of a few lists
      obtain ⟨lines, hl, hmem⟩ := ehlo_lines cfg s
      refine Or.inr ?_
      rw [hl, say_events]
      clear hl
      revert lines
      decide +kernel
  | dataAccepted bytes rest' =>
      -- what is said before the record, the record, and what is said behind it
      refine Or.inr (fun e he => ?_)
      rcases List.mem_append.mp he with he | he
      · rcases List.mem_append.mp he with he | he
        · have hstart : ∀ e ∈ [reply startData, .body bytes], refuses e = false := by
            rw [List.forall_mem_cons, List.forall_mem_singleton]
            exact ⟨by decide +kernel, rfl⟩
          exact hstart e he
        · exact refuses_deliver he
      · rw [List.mem_singleton.mp he]
        decide +kernel
  | panicked => exact Or.inr (fun e he => absurd he List.not_mem_nil)

/-- A quiet move writes at most the greeting. -/
theorem not_refuses_of_quiet (h : Quiet cfg m) : ¬ Refuses m := by
  rintro ⟨e, he, hr⟩
  rw [h.mem_events he] at hr
  revert hr
  decide +kernel

/-- What a refused line leaves: the connection in its loop, the session without
    an AUTH exchange, and the stream behind the line. -/
structure Unchanged (m : Move) (line : Text) (rest : Bytes) : Prop where
  phase : m.before.phase = .plain ∨ m.before.phase = .tls
  read : readLine m.before.input = .ok (line, rest)
  after : m.after
    = ⟨m.before.phase, { m.before.session with authState := .none }, rest⟩
  delivers : ∀ record, .forward record ∉ m.events ∧ .push record ∉ m.events

/-- A refusing move takes a refused turn. -/
theorem unchanged_of_refuses (hI : Entry l c) (h : Step env cfg c m c') (hr : Refuses m) :
    ∃ line rest, Unchanged m line rest := by
  obtain ⟨rfl, rfl, hq | ⟨line, rest, r, hs⟩⟩ := step_cases h
  · exact absurd hr (not_refuses_of_quiet hq)
  · obtain ⟨stamp, hturn⟩ := hs.turn
    rcases turn_refuses hturn with ⟨text, ht, rfl⟩ | hno
    · obtain ⟨hafter, hevents⟩ := hs.continues rfl
      refine ⟨line, rest, hs.phase, hs.read, hafter, fun record => ?_⟩
      rw [hevents]
      simp [say, reply]
    · -- in the TLS loop the session is never asked to upgrade
      obtain ⟨e, he, hre⟩ := hr
      rw [hI.events hs] at he
      rcases List.mem_cons.mp he with rfl | he
      · exact absurd hre Bool.false_ne_true
      · rw [hno e he] at hre
        exact absurd hre Bool.false_ne_true

end

/-- **A refused command changes nothing.**  In every run, a move that writes a
    4xx or 5xx reply takes one line, keeps the session but for an AUTH exchange
    under way, stays in its loop, and hands no record on. -/
theorem refused_changes_nothing {env : Env} {cfg : SmtpConfig} {c c' : Conn} {l : List Move}
    (h0 : Initial cfg c) (hrun : Run (Step env cfg) c l c') :
    ∀ m ∈ l, Refuses m → ∃ line rest, Unchanged m line rest := by
  intro m hm hr
  obtain ⟨pre, post, rfl⟩ := List.append_of_mem hm
  obtain ⟨t, t', hpre, hstep, -⟩ := hrun.step_at
  exact unchanged_of_refuses (Entry.run h0 hpre) hstep hr

/-- A client that names a recipient first. -/
def recipientFirst : Bytes := encode "RCPT TO:<x>\r\n".toList

theorem refused_recipientFirst :
    let run := (sampleRun openConfig none 2 recipientFirst).1
    (∃ m ∈ run, Refuses m) ∧ ∀ m ∈ run, Refuses m → ∃ line rest, Unchanged m line rest := by
  have hrefused : (sampleRun openConfig none 2 recipientFirst).1.any
      (fun m => m.events.any refuses) = true := by
    decide +kernel
  obtain ⟨m, hm, hr⟩ := List.any_eq_true.mp hrefused
  exact ⟨⟨m, hm, List.any_eq_true.mp hr⟩,
    refused_changes_nothing ⟨recipientFirst, Or.inl rfl⟩ (sampleRun_run _ _ _ _)⟩

end SmtpRefusal
