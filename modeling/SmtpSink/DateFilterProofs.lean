import SmtpSink.Rfc3339Proofs
import SmtpSink.SearchProofs

/-! # Date filters — texts compared for instants

    The date of a record is the RFC 3339 text of an instant in UTC with the offset
    `+00:00`; the filters since and until compare it with theirs byte by byte.

    * `follows_time_iff` — both filters follow time just where the record's instant
      lies on one side of the query's and of the one its date and time would name
      in UTC, but for what the spelling decides;
    * `follows_since_iff`, `follows_until_iff` — the same for one of them;
    * `letter_loses` — a record of the very instant that since names with a `Z` is
      left out. -/

namespace DateFilter

open Utf8 SmtpRecord EmailStore SqliteStore Rfc3339 Compare

/-- What `to_rfc3339` writes for an instant of UTC. -/
def recorded (d : Date) (c : Clock) : Written := ⟨d, .upper, c, .utc⟩

/-- The first of January 2024. -/
def newYear : Date := ⟨2024, 1, 1, by decide, by decide, by decide, by decide⟩

def midnight : Clock := ⟨⟨0, by decide⟩, ⟨0, by decide⟩, ⟨0, by decide⟩, []⟩

example : (recorded newYear midnight).text = "2024-01-01T00:00:00+00:00".toList := by
  decide +kernel

/-! ## The dates of records -/

/-- The day from which Unix timestamps count. -/
def epoch : Date := ⟨1970, 1, 1, by decide, by decide, by decide, by decide⟩

/-- A Unix timestamp as an instant. -/
def ofUnix (t : ℤ) : Instant := toLex (epoch.number * 1440 + t / 60, ((t % 60 : ℤ) : ℚ))

/-- The texts of the clock and of timestamps are those of instants of UTC. -/
structure WritesUtc (env : Env) (stamp : Stamp) : Prop where
  now : ∃ d c, stamp.now = (recorded d c).text
  timestamp : ∀ t text, env.rfc3339 t = some text →
    ∃ d c, text = (recorded d c).text ∧ (recorded d c).instant = ofUnix t

/-- The date of a record is that of its message, where it can be written. -/
theorem recordDate_cases (env : Env) (stamp : Stamp) (msg : Message) :
    (∃ t, msg.date = some t ∧ env.rfc3339 t = some (recordDate env stamp msg))
      ∨ ((∀ t, msg.date = some t → env.rfc3339 t = none)
        ∧ recordDate env stamp msg = stamp.now) := by
  rw [recordDate]
  cases ht : msg.date with
  | none => exact Or.inr ⟨fun t h => absurd h (Option.some_ne_none t).symm, rfl⟩
  | some t =>
      dsimp only
      cases htext : env.rfc3339 t with
      | none =>
          refine Or.inr ⟨fun u hu => ?_, rfl⟩
          obtain rfl := Option.some.inj hu
          exact htext
      | some text => exact Or.inl ⟨t, rfl, htext⟩

/-- A record has the text of an instant as its date, of the message's own where there
    is one that can be written. -/
theorem parseEmail_recorded {env : Env} {stamp : Stamp} (h : WritesUtc env stamp)
    (data : Bytes) (e : Envelope) :
    ∃ d c, (parseEmail env stamp data e).date = (recorded d c).text
      ∧ ∀ msg t text, env.parse data = some msg → msg.date = some t →
        env.rfc3339 t = some text → (recorded d c).instant = ofUnix t := by
  obtain ⟨d, c, hnow⟩ := h.now
  cases hparse : env.parse data with
  | none =>
      refine ⟨d, c, ?_, fun msg _ _ hmsg => absurd hmsg (Option.some_ne_none msg).symm⟩
      rw [parseEmail, hparse]
      exact hnow
  | some msg =>
      have hdate : (parseEmail env stamp data e).date = recordDate env stamp msg := by
        rw [parseEmail, hparse]
      rw [hdate]
      rcases recordDate_cases env stamp msg with ⟨t, ht, htext⟩ | ⟨hnone, hclock⟩
      · obtain ⟨d', c', hwritten, hinstant⟩ := h.timestamp t _ htext
        refine ⟨d', c', hwritten, fun msg' t' _ hmsg ht' _ => ?_⟩
        obtain rfl := Option.some.inj hmsg
        obtain rfl := Option.some.inj (ht.symm.trans ht')
        exact hinstant
      · refine ⟨d, c, hclock.trans hnow, fun msg' t' text hmsg ht' htext => ?_⟩
        obtain rfl := Option.some.inj hmsg
        exact absurd (htext.symm.trans (hnone t' ht')) (Option.some_ne_none text)

/-! ## Filters by date -/

/-- The filters of both stores keep a record since an instant just where its own is
    no earlier. -/
structure FollowsSince (r q : Written) : Prop where
  matches_since : ∀ (email : MailRecord) (query : EmailQuery), email.date = r.text →
    (matchesQuery email { query with sinceDate := some q.text } = true
      ↔ matchesQuery email { query with sinceDate := none } = true ∧ q.instant ≤ r.instant)
  selects_since : ∀ likes (row : EmailRow) (query : EmailQuery), row.date = r.text →
    (selects likes { query with sinceDate := some q.text } row = true
      ↔ selects likes { query with sinceDate := none } row = true ∧ q.instant ≤ r.instant)

/-- They keep a record until an instant just where its own is no later. -/
structure FollowsUntil (r q : Written) : Prop where
  matches_until : ∀ (email : MailRecord) (query : EmailQuery), email.date = r.text →
    (matchesQuery email { query with untilDate := some q.text } = true
      ↔ matchesQuery email { query with untilDate := none } = true ∧ r.instant ≤ q.instant)
  selects_until : ∀ likes (row : EmailRow) (query : EmailQuery), row.date = r.text →
    (selects likes { query with untilDate := some q.text } row = true
      ↔ selects likes { query with untilDate := none } row = true ∧ r.instant ≤ q.instant)

/-- The filters of both stores keep a record since an instant and until an instant
    just where its own is no earlier, and no later. -/
structure FollowsTime (r q : Written) : Prop where
  matches_since : ∀ (email : MailRecord) (query : EmailQuery), email.date = r.text →
    (matchesQuery email { query with sinceDate := some q.text } = true
      ↔ matchesQuery email { query with sinceDate := none } = true ∧ q.instant ≤ r.instant)
  matches_until : ∀ (email : MailRecord) (query : EmailQuery), email.date = r.text →
    (matchesQuery email { query with untilDate := some q.text } = true
      ↔ matchesQuery email { query with untilDate := none } = true ∧ r.instant ≤ q.instant)
  selects_since : ∀ likes (row : EmailRow) (query : EmailQuery), row.date = r.text →
    (selects likes { query with sinceDate := some q.text } row = true
      ↔ selects likes { query with sinceDate := none } row = true ∧ q.instant ≤ r.instant)
  selects_until : ∀ likes (row : EmailRow) (query : EmailQuery), row.date = r.text →
    (selects likes { query with untilDate := some q.text } row = true
      ↔ selects likes { query with untilDate := none } row = true ∧ r.instant ≤ q.instant)

/-! ## Where texts are in the order of time -/

/-- The record lies on one side of the instant of the query and of the one that its
    date and time would name in UTC. -/
def Outside (r q : Written) : Prop :=
  (r.instant < q.instant ∧ r.instant < q.named) ∨ (q.instant < r.instant ∧ q.named < r.instant)

/-- At one second the record goes on with a fraction where the query has a letter
    for its offset. -/
def GoesOn (r q : Written) : Prop :=
  q.zone.IsLetter ∧ r.date.number = q.date.number ∧ r.clock.number = q.clock.number
    ∧ q.clock.fraction <+: r.clock.fraction

/-- The record is of the instant that the date and the time of the query would name
    in UTC: both are the same text, or the offset lies on the side on which the
    longer fraction puts the query. -/
def Tie (r q : Written) : Prop :=
  (q.zone = .utc ∧ r.clock.fraction = q.clock.fraction)
    ∨ (q.zone.offset < 0 ∧ r.clock.fraction <+: q.clock.fraction)
    ∨ (0 < q.zone.offset ∧ q.clock.fraction <+: r.clock.fraction
      ∧ q.clock.fraction ≠ r.clock.fraction)

/-- Where the order of the texts of a record and of a query is that of the instants. -/
inductive Agrees (r q : Written) : Prop where
  /-- the year of the record has a sign, with which the text comes first -/
  | signed : ¬ r.date.FourDigits → r.instant < q.instant → Agrees r q
  /-- `t` comes behind `T` -/
  | lower : r.date.FourDigits → r.date.number = q.date.number → q.separator = .lower →
      r.instant < q.instant → Agrees r q
  /-- a space comes before it -/
  | space : r.date.FourDigits → r.date.number = q.date.number → q.separator = .space →
      q.instant < r.instant → Agrees r q
  | outside : r.date.FourDigits → (r.date.number = q.date.number → q.separator = .upper) →
      Outside r q → ¬ GoesOn r q → Agrees r q
  | tie : r.date.FourDigits → q.separator = .upper → r.instant = q.named → Tie r q →
      Agrees r q

/-- Where the text of a record comes before that of a query, or behind it, just
    where its instant does: what one filter goes by. -/
inductive AgreesAt (x : Ordering) (r q : Written) : Prop where
  | signed : ¬ r.date.FourDigits → (.lt = x ↔ cmp r.instant q.instant = x) → AgreesAt x r q
  | separator : r.date.FourDigits → r.date.number = q.date.number → q.separator ≠ .upper →
      (q.separator.order = x ↔ cmp r.instant q.instant = x) → AgreesAt x r q
  | apart : r.date.FourDigits → (r.date.number = q.date.number → q.separator = .upper) →
      r.instant ≠ q.named → ¬ GoesOn r q →
      (cmp r.instant q.named = x ↔ cmp r.instant q.instant = x) → AgreesAt x r q
  | tie : r.date.FourDigits → q.separator = .upper → r.instant = q.named →
      (TailOrder r.clock.fraction q.clock.fraction q.zone x ↔ cmp q.zone.offset 0 = x) →
      AgreesAt x r q

section

variable {r q : Written} {o : Ordering}

/-! ## The filters and the order of the texts -/

theorem encode_lt_iff (h : o.Compares (encode r.text) (encode q.text)) :
    (encode r.text < encode q.text ↔ o = .lt) ∧ (encode q.text < encode r.text ↔ o = .gt) := by
  cases o with
  | lt =>
      have h : encode r.text < encode q.text := h
      exact ⟨iff_of_true h rfl, iff_of_false (List.lt_asymm h) (by decide)⟩
  | eq =>
      have h : encode r.text = encode q.text := h
      rw [h]
      exact ⟨iff_of_false (List.lt_irrefl _) (by decide),
        iff_of_false (List.lt_irrefl _) (by decide)⟩
  | gt =>
      have h : encode q.text < encode r.text := h
      exact ⟨iff_of_false (List.lt_asymm h) (by decide), iff_of_true h rfl⟩

/-- A date filter keeps what the other filters keep and it does itself. -/
theorem matches_since_iff (email : MailRecord) (query : EmailQuery) (t : Text) :
    matchesQuery email { query with sinceDate := some t } = true
      ↔ matchesQuery email { query with sinceDate := none } = true
        ∧ ¬ encode email.date < encode t := by
  simp only [matchesQuery, EmailStore.optional, Bool.and_eq_true, Bool.not_eq_true',
    decide_eq_false_iff_not, and_true]
  tauto

theorem matches_until_iff (email : MailRecord) (query : EmailQuery) (t : Text) :
    matchesQuery email { query with untilDate := some t } = true
      ↔ matchesQuery email { query with untilDate := none } = true
        ∧ ¬ encode t < encode email.date := by
  simp only [matchesQuery, EmailStore.optional, Bool.and_eq_true, Bool.not_eq_true',
    decide_eq_false_iff_not, and_true]

theorem selects_since_iff (likes : Text → Text → Bool) (row : EmailRow) (query : EmailQuery)
    (t : Text) :
    selects likes { query with sinceDate := some t } row = true
      ↔ selects likes { query with sinceDate := none } row = true
        ∧ ¬ encode row.date < encode t := by
  simp only [selects, EmailStore.optional, Bool.and_eq_true, decide_eq_true_eq, and_true,
    List.not_lt]
  tauto

theorem selects_until_iff (likes : Text → Text → Bool) (row : EmailRow) (query : EmailQuery)
    (t : Text) :
    selects likes { query with untilDate := some t } row = true
      ↔ selects likes { query with untilDate := none } row = true
        ∧ ¬ encode t < encode row.date := by
  simp only [selects, EmailStore.optional, Bool.and_eq_true, decide_eq_true_eq, and_true,
    List.not_lt]

/-- **The filter since follows time** just where the text of the record comes before
    that of the query as its instant does. -/
theorem follows_since_iff_order (h : o.Compares (encode r.text) (encode q.text)) :
    FollowsSince r q ↔ (o = .lt ↔ cmp r.instant q.instant = .lt) := by
  obtain ⟨hlt, -⟩ := encode_lt_iff h
  rw [← hlt, cmp_eq_lt_iff]
  constructor
  · rintro ⟨hsince, -⟩
    -- a query without other filters keeps every record
    let email : MailRecord := ⟨[], [], [], none, none, none, r.text, ∅, [], []⟩
    have hs := (hsince email ⟨none, none, none, none, none⟩ rfl).symm.trans
      (matches_since_iff email _ q.text)
    have hkeeps : matchesQuery email ⟨none, none, none, none, none⟩ = true := rfl
    rw [and_congr_right_iff] at hs
    have hs := hs hkeeps
    rw [← not_lt, not_iff_not] at hs
    exact hs.symm
  · intro heq
    have hsince : ¬ encode r.text < encode q.text ↔ q.instant ≤ r.instant := by
      rw [← not_lt, heq]
    refine ⟨?_, ?_⟩
    · intro email query hdate
      rw [matches_since_iff, hdate, hsince]
    · intro likes row query hdate
      rw [selects_since_iff, hdate, hsince]

theorem follows_until_iff_order (h : o.Compares (encode r.text) (encode q.text)) :
    FollowsUntil r q ↔ (o = .gt ↔ cmp r.instant q.instant = .gt) := by
  obtain ⟨-, hgt⟩ := encode_lt_iff h
  rw [← hgt, cmp_eq_gt_iff]
  constructor
  · rintro ⟨huntil, -⟩
    let email : MailRecord := ⟨[], [], [], none, none, none, r.text, ∅, [], []⟩
    have hu := (huntil email ⟨none, none, none, none, none⟩ rfl).symm.trans
      (matches_until_iff email _ q.text)
    have hkeeps : matchesQuery email ⟨none, none, none, none, none⟩ = true := rfl
    rw [and_congr_right_iff] at hu
    have hu := hu hkeeps
    rw [← not_lt, not_iff_not] at hu
    exact hu.symm
  · intro heq
    have huntil : ¬ encode q.text < encode r.text ↔ r.instant ≤ q.instant := by
      rw [← not_lt, heq]
    refine ⟨?_, ?_⟩
    · intro email query hdate
      rw [matches_until_iff, hdate, huntil]
    · intro likes row query hdate
      rw [selects_until_iff, hdate, huntil]

/-- **The filters follow time** just where the texts are in the order of the
    instants. -/
theorem follows_iff_order (h : o.Compares (encode r.text) (encode q.text)) :
    FollowsTime r q ↔ o = cmp r.instant q.instant := by
  have hboth : FollowsTime r q ↔ FollowsSince r q ∧ FollowsUntil r q :=
    ⟨fun h => ⟨⟨h.matches_since, h.selects_since⟩, ⟨h.matches_until, h.selects_until⟩⟩,
      fun h => ⟨h.1.matches_since, h.2.matches_until, h.1.selects_since, h.2.selects_until⟩⟩
  rw [hboth, follows_since_iff_order h, follows_until_iff_order h]
  refine ⟨fun hand => eq_of_strict hand.1 hand.2, fun heq => ?_⟩
  rw [heq]
  exact ⟨Iff.rfl, Iff.rfl⟩

/-! ## The order of the instants -/

theorem cmp_instant_of_tie (h : r.instant = q.named) :
    cmp r.instant q.instant = cmp q.zone.offset 0 := by
  rw [h, Written.named, Written.instant, cmp_toLex, cmp_self_eq_eq, Ordering.then_eq]
  exact cmp_congr (by dsimp only; omega) (by dsimp only; omega)

theorem named_of_letter (h : q.zone.IsLetter) : q.instant = q.named :=
  instant_eq_named (offset_of_letter h)

/-- Off the instant of the date and the time, `Outside` is that the two comparisons
    are the same. -/
theorem outside_iff (hne : r.instant ≠ q.named) :
    Outside r q ↔ cmp r.instant q.named = cmp r.instant q.instant := by
  rcases lt_or_gt_of_ne hne with h | h
  · rw [h.cmp_eq_lt, eq_comm, cmp_eq_lt_iff]
    constructor
    · rintro (⟨hu, -⟩ | ⟨-, hv⟩)
      · exact hu
      · exact absurd hv (lt_asymm h)
    · exact fun hu => Or.inl ⟨hu, h⟩
  · rw [h.cmp_eq_gt, eq_comm, cmp_eq_gt_iff]
    constructor
    · rintro (⟨-, hv⟩ | ⟨hu, -⟩)
      · exact absurd hv (lt_asymm h)
      · exact hu
    · exact fun hu => Or.inr ⟨hu, h⟩

theorem agrees_iff_of_tie (hr : r.date.FourDigits) (hsep : q.separator = .upper)
    (h : r.instant = q.named) : Agrees r q ↔ Tie r q := by
  constructor
  · intro ha
    cases ha with
    | signed hno _ => exact absurd hr hno
    | lower _ _ hlower _ => exact absurd (hsep.symm.trans hlower) (by decide)
    | space _ _ hspace _ => exact absurd (hsep.symm.trans hspace) (by decide)
    | outside _ _ hout _ =>
        rcases hout with ⟨-, hv⟩ | ⟨-, hv⟩
        · exact absurd h hv.ne
        · exact absurd h hv.ne'
    | tie _ _ _ htie => exact htie
  · exact Agrees.tie hr hsep h

theorem agrees_iff_of_ne (hr : r.date.FourDigits)
    (hsep : r.date.number = q.date.number → q.separator = .upper) (h : r.instant ≠ q.named) :
    Agrees r q ↔ Outside r q ∧ ¬ GoesOn r q := by
  constructor
  · intro ha
    cases ha with
    | signed hno _ => exact absurd hr hno
    | lower _ hdate hlower _ => exact absurd ((hsep hdate).symm.trans hlower) (by decide)
    | space _ hdate hspace _ => exact absurd ((hsep hdate).symm.trans hspace) (by decide)
    | outside _ _ hout hno => exact ⟨hout, hno⟩
    | tie _ _ heq _ => exact absurd heq h
  · rintro ⟨hout, hno⟩
    exact Agrees.outside hr hsep hout hno

/-- On one date, a separator other than `T` decides. -/
theorem agrees_iff_of_separator (hr : r.date.FourDigits) (hdate : r.date.number = q.date.number)
    (hsep : q.separator ≠ .upper) :
    Agrees r q ↔ q.separator.order = cmp r.instant q.instant := by
  constructor
  · intro ha
    cases ha with
    | signed hno _ => exact absurd hr hno
    | lower _ _ hlower hlt =>
        rw [hlower, hlt.cmp_eq_lt]
        rfl
    | space _ _ hspace hgt =>
        rw [hspace, hgt.cmp_eq_gt]
        rfl
    | outside _ hupper _ _ => exact absurd (hupper hdate) hsep
    | tie _ hupper _ _ => exact absurd hupper hsep
  · intro horder
    cases hs : q.separator with
    | upper => exact absurd hs hsep
    | lower =>
        rw [hs] at horder
        exact Agrees.lower hr hdate hs ((cmp_eq_lt_iff _ _).mp horder.symm)
    | space =>
        rw [hs] at horder
        exact Agrees.space hr hdate hs ((cmp_eq_gt_iff _ _).mp horder.symm)

theorem agrees_iff_of_signed (hr : ¬ r.date.FourDigits) :
    Agrees r q ↔ r.instant < q.instant := by
  constructor
  · intro ha
    cases ha with
    | signed _ hlt => exact hlt
    | lower hfour | space hfour | outside hfour | tie hfour => exact absurd hfour hr
  · exact Agrees.signed hr

end

/-- The order of a record among the times of day that queries name. -/
theorem recorded_order (d : Date) (c : Clock) (q : Written) :
    cmp (recorded d c).instant q.named = (cmp d.number q.date.number).then
      ((cmp c.number q.clock.number).then (cmp (value c.fraction) (value q.clock.fraction))) := by
  rw [instant_eq_named (w := recorded d c) rfl]
  exact named_order (recorded d c) q

/-- **The parts agree with time** just where the condition holds, for a record and a
    query that no separator parts. -/
theorem agrees_iff_parts {d : Date} {c : Clock} {q : Written} (hd : d.FourDigits)
    (hsep : d.number = q.date.number → q.separator = .upper) {o : Ordering}
    (h : TailOrder c.fraction q.clock.fraction q.zone o) :
    (cmp d.number q.date.number).then ((cmp c.number q.clock.number).then o)
        = cmp (recorded d c).instant q.instant
      ↔ Agrees (recorded d c) q := by
  have hr : (recorded d c).date.FourDigits := hd
  have hsep' : (recorded d c).date.number = q.date.number → q.separator = .upper := hsep
  have hnamed := recorded_order d c q
  by_cases htie : (recorded d c).instant = q.named
  · -- all parts but the tails are the same
    rw [htie.cmp_eq_eq, eq_comm, Ordering.then_eq_eq, Ordering.then_eq_eq] at hnamed
    obtain ⟨hdate, hclock, hval⟩ := hnamed
    have hupper : q.separator = .upper := hsep ((cmp_eq_eq_iff _ _).mp hdate)
    have hvalue : value c.fraction = value q.clock.fraction := (cmp_eq_eq_iff _ _).mp hval
    rw [agrees_iff_of_tie hr hupper htie, cmp_instant_of_tie htie, hdate, hclock]
    exact h.of_value_eq hvalue
  · rw [agrees_iff_of_ne hr hsep' htie, outside_iff htie, hnamed]
    by_cases hsame : d.number = q.date.number ∧ c.number = q.clock.number
    · -- the fractions decide
      obtain ⟨hdate, hclock⟩ := hsame
      have hne : value c.fraction ≠ value q.clock.fraction := by
        intro hval
        rw [hdate.cmp_eq_eq, hclock.cmp_eq_eq, hval.cmp_eq_eq] at hnamed
        exact htie ((cmp_eq_eq_iff _ _).mp hnamed)
      rw [hdate.cmp_eq_eq, hclock.cmp_eq_eq] at hnamed ⊢
      rcases h.of_value_ne hne with ⟨rfl, hno⟩ | ⟨rfl, hlt, hz, hprefix⟩
      · exact (and_iff_left (fun hgoes => hno ⟨hgoes.1, hgoes.2.2.2⟩)).symm
      · refine iff_of_false ?_ (fun hand => hand.2 ⟨hz, hdate, hclock, hprefix⟩)
        rw [named_of_letter hz, hnamed, hlt.cmp_eq_gt]
        decide
    · -- the date or the time of day does, and the tails are not read
      have hno : ¬ GoesOn (recorded d c) q := fun hgoes => hsame ⟨hgoes.2.1, hgoes.2.2.1⟩
      rw [and_iff_left hno, then_of_ne hsame o]

/-- The same for one of the two filters. -/
theorem agreesAt_iff_parts {x : Ordering} (hx : x ≠ .eq) {d : Date} {c : Clock} {q : Written}
    (hd : d.FourDigits) (hsep : d.number = q.date.number → q.separator = .upper) {o : Ordering}
    (h : TailOrder c.fraction q.clock.fraction q.zone o) :
    ((cmp d.number q.date.number).then ((cmp c.number q.clock.number).then o) = x
        ↔ cmp (recorded d c).instant q.instant = x)
      ↔ AgreesAt x (recorded d c) q := by
  have hr : (recorded d c).date.FourDigits := hd
  have hsep' : (recorded d c).date.number = q.date.number → q.separator = .upper := hsep
  have hnamed := recorded_order d c q
  by_cases htie : (recorded d c).instant = q.named
  · have hnamed' := hnamed
    rw [htie.cmp_eq_eq, eq_comm, Ordering.then_eq_eq, Ordering.then_eq_eq] at hnamed'
    obtain ⟨hdate, hclock, -⟩ := hnamed'
    have hupper : q.separator = .upper := hsep ((cmp_eq_eq_iff _ _).mp hdate)
    have htail : TailOrder c.fraction q.clock.fraction q.zone x ↔ o = x := by
      refine ⟨fun hx => (h.compares.inj hx.compares), ?_⟩
      rintro rfl
      exact h
    rw [cmp_instant_of_tie htie, hdate, hclock]
    show (o = x ↔ _) ↔ _
    rw [← htail]
    constructor
    · exact AgreesAt.tie hr hupper htie
    · intro ha
      cases ha with
      | signed hno _ => exact absurd hr hno
      | separator _ _ hno _ => exact absurd hupper hno
      | apart _ _ hno _ _ => exact absurd htie hno
      | tie _ _ _ hiff => exact hiff
  · have hapart : AgreesAt x (recorded d c) q ↔ ¬ GoesOn (recorded d c) q
        ∧ (cmp (recorded d c).instant q.named = x
          ↔ cmp (recorded d c).instant q.instant = x) := by
      constructor
      · intro ha
        cases ha with
        | signed hno _ => exact absurd hr hno
        | separator _ hdate hno _ => exact absurd (hsep hdate) hno
        | apart _ _ _ hgoes hiff => exact ⟨hgoes, hiff⟩
        | tie _ _ heq _ => exact absurd heq htie
      · exact fun ha => AgreesAt.apart hr hsep' htie ha.1 ha.2
    rw [hapart]
    by_cases hsame : d.number = q.date.number ∧ c.number = q.clock.number
    · -- the fractions decide
      obtain ⟨hdate, hclock⟩ := hsame
      rw [hdate.cmp_eq_eq, hclock.cmp_eq_eq] at hnamed ⊢
      have hne : value c.fraction ≠ value q.clock.fraction := by
        intro hval
        rw [hval.cmp_eq_eq] at hnamed
        exact htie ((cmp_eq_eq_iff _ _).mp hnamed)
      rcases h.of_value_ne hne with ⟨rfl, hno⟩ | ⟨rfl, hlt, hz, hprefix⟩
      · rw [hnamed]
        exact (and_iff_right (fun hgoes : GoesOn _ q => hno ⟨hgoes.1, hgoes.2.2.2⟩)).symm
      · -- a letter is met, and the text comes first though the instant does not
        refine iff_of_false ?_ (fun hand => hand.1 ⟨hz, hdate, hclock, hprefix⟩)
        rw [named_of_letter hz, hnamed, hlt.cmp_eq_gt]
        cases x with
        | eq => exact absurd rfl hx
        | lt => decide
        | gt => decide
    · -- the date or the time of day does, and the tails are not read
      have hno : ¬ GoesOn (recorded d c) q := fun hgoes => hsame ⟨hgoes.2.1, hgoes.2.2.1⟩
      rw [and_iff_right hno, hnamed, then_of_ne hsame o]

/-- The separator is read on one date only. -/
theorem separator_read {d : Date} {q : Written}
    (hsep : d.number = q.date.number → q.separator = .upper) (x : Ordering) :
    (cmp d.number q.date.number).then (q.separator.order.then x)
      = (cmp d.number q.date.number).then x := by
  rcases lt_trichotomy d.number q.date.number with h | h | h
  · rw [h.cmp_eq_lt]
    rfl
  · rw [hsep h]
    rfl
  · rw [h.cmp_eq_gt]
    rfl

/-- **Where date filters follow time.**  For a record of any instant and a since or
    until text of any, both stores keep the record just where its instant is no
    earlier, and no later, if and only if it lies on one side of the query's instant
    and of the one that the query's date and time would name in UTC, but for what
    the spelling decides. -/
theorem follows_time_iff (d : Date) (c : Clock) (q : Written) (hq : q.date.FourDigits) :
    FollowsTime (recorded d c) q ↔ Agrees (recorded d c) q := by
  by_cases hd : d.FourDigits
  · -- both years have four digits, so the texts are compared part by part
    obtain ⟨o, horder⟩ := tail_order c.fraction q.clock.fraction q.zone
    have htext := encode_order (text_order (r := recorded d c) hd hq rfl horder.compares)
    rw [follows_iff_order htext]
    by_cases hsep : d.number = q.date.number ∧ q.separator ≠ .upper
    · obtain ⟨hdate, hsep⟩ := hsep
      have hr : (recorded d c).date.FourDigits := hd
      have hdate' : (recorded d c).date.number = q.date.number := hdate
      rw [agrees_iff_of_separator hr hdate' hsep, hdate'.cmp_eq_eq]
      cases hs : q.separator with
      | upper => exact absurd hs hsep
      | lower => exact Iff.rfl
      | space => exact Iff.rfl
    · have hupper : d.number = q.date.number → q.separator = .upper :=
        fun hdate => not_not.mp (fun hne => hsep ⟨hdate, hne⟩)
      rw [← agrees_iff_parts hd hupper horder, ← separator_read hupper]
      exact Iff.rfl
  · -- the sign of the record's year decides
    have hr : ¬ (recorded d c).date.FourDigits := hd
    have htext : Ordering.lt.Compares (recorded d c).text q.text := signed_text_lt hr hq
    rw [follows_iff_order (encode_order htext), agrees_iff_of_signed hr, eq_comm, cmp_eq_lt_iff]

/-- **Where one date filter follows time**, since (`.lt`) or until (`.gt`). -/
theorem order_agreesAt {x : Ordering} (hx : x ≠ .eq) (d : Date) (c : Clock) {q : Written}
    (hq : q.date.FourDigits) :
    ∃ o : Ordering, o.Compares (encode (recorded d c).text) (encode q.text)
      ∧ ((o = x ↔ cmp (recorded d c).instant q.instant = x) ↔ AgreesAt x (recorded d c) q) := by
  by_cases hd : d.FourDigits
  · have hr : (recorded d c).date.FourDigits := hd
    obtain ⟨o, htail⟩ := tail_order c.fraction q.clock.fraction q.zone
    have htext := encode_order (text_order (r := recorded d c) hd hq rfl htail.compares)
    refine ⟨_, htext, ?_⟩
    by_cases hsep : d.number = q.date.number ∧ q.separator ≠ .upper
    · -- the separator decides
      obtain ⟨hdate, hsep⟩ := hsep
      have horder : (cmp (recorded d c).date.number q.date.number).then (q.separator.order.then
          ((cmp (recorded d c).clock.number q.clock.number).then o)) = q.separator.order := by
        show (cmp d.number q.date.number).then _ = _
        rw [hdate.cmp_eq_eq]
        cases hs : q.separator with
        | upper => exact absurd hs hsep
        | lower => rfl
        | space => rfl
      rw [horder]
      constructor
      · exact AgreesAt.separator hr hdate hsep
      · intro ha
        cases ha with
        | signed hno _ => exact absurd hr hno
        | separator _ _ _ hiff => exact hiff
        | apart _ hupper _ _ _ => exact absurd (hupper hdate) hsep
        | tie _ hupper _ _ => exact absurd hupper hsep
    · have hupper : d.number = q.date.number → q.separator = .upper :=
        fun hdate => not_not.mp (fun hne => hsep ⟨hdate, hne⟩)
      have hread : (cmp (recorded d c).date.number q.date.number).then (q.separator.order.then
          ((cmp (recorded d c).clock.number q.clock.number).then o))
          = (cmp d.number q.date.number).then ((cmp c.number q.clock.number).then o) :=
        separator_read hupper _
      rw [hread]
      exact agreesAt_iff_parts hx hd hupper htail
  · -- the sign of the record's year decides
    have hr : ¬ (recorded d c).date.FourDigits := hd
    have htext : Ordering.lt.Compares (recorded d c).text q.text := signed_text_lt hr hq
    refine ⟨.lt, encode_order htext, AgreesAt.signed hr, fun ha => ?_⟩
    cases ha with
    | signed _ hiff => exact hiff
    | separator hfour | apart hfour | tie hfour => exact absurd hfour hr

/-- **Where since follows time.** -/
theorem follows_since_iff (d : Date) (c : Clock) (q : Written) (hq : q.date.FourDigits) :
    FollowsSince (recorded d c) q ↔ AgreesAt .lt (recorded d c) q := by
  obtain ⟨o, htext, hiff⟩ := order_agreesAt (x := .lt) (by decide) d c hq
  exact (follows_since_iff_order htext).trans hiff

/-- **Where until follows time.** -/
theorem follows_until_iff (d : Date) (c : Clock) (q : Written) (hq : q.date.FourDigits) :
    FollowsUntil (recorded d c) q ↔ AgreesAt .gt (recorded d c) q := by
  obtain ⟨o, htext, hiff⟩ := order_agreesAt (x := .gt) (by decide) d c hq
  exact (follows_until_iff_order htext).trans hiff

/-- **The filters and received records**: the record made of a message has the instant
    of its date, or of the clock, and each filter follows time with it just where it
    agrees with that instant. -/
theorem parseEmail_follows {env : Env} {stamp : Stamp} (h : WritesUtc env stamp)
    (data : Bytes) (e : Envelope) :
    ∃ r : Written, (parseEmail env stamp data e).date = r.text
      ∧ (∀ msg t text, env.parse data = some msg → msg.date = some t →
        env.rfc3339 t = some text → r.instant = ofUnix t)
      ∧ ∀ q : Written, q.date.FourDigits →
        (FollowsSince r q ↔ AgreesAt .lt r q) ∧ (FollowsUntil r q ↔ AgreesAt .gt r q) := by
  obtain ⟨d, c, hdate, hinstant⟩ := parseEmail_recorded h data e
  exact ⟨recorded d c, hdate, hinstant, fun q hq =>
    ⟨follows_since_iff d c q hq, follows_until_iff d c q hq⟩⟩

/-- Half a second past eight in the evening before, an hour ahead of UTC. -/
def eve : Written where
  date := ⟨2023, 12, 31, by decide, by decide, by decide, by decide⟩
  separator := .upper
  clock := ⟨⟨20, by decide⟩, ⟨0, by decide⟩, ⟨0, by decide⟩, [⟨5, by decide⟩]⟩
  zone := .numeric false ⟨1, by decide⟩ ⟨0, by decide⟩

example : eve.text = "2023-12-31T20:00:00.5+01:00".toList := by decide +kernel

/-- A record of the new year comes behind its eve. -/
theorem follows_time_newYear : FollowsTime (recorded newYear midnight) eve := by
  have hinstant : eve.instant < (recorded newYear midnight).instant :=
    Prod.Lex.toLex_lt_toLex.mpr (Or.inl (by decide +kernel))
  have hnamed : eve.named < (recorded newYear midnight).instant :=
    Prod.Lex.toLex_lt_toLex.mpr (Or.inl (by decide +kernel))
  have hzone : ¬ eve.zone.IsLetter := by
    rintro ⟨upper, h⟩
    exact nomatch h
  exact (follows_time_iff newYear midnight eve (by decide)).mpr
    (Agrees.outside (by decide) (fun _ => rfl) (Or.inr ⟨hinstant, hnamed⟩) (fun h => hzone h.1))

/-- Since an instant with a `Z`, a record of that very instant is left out. -/
theorem letter_loses :
    ¬ ∀ d c q, q.date.FourDigits → FollowsTime (recorded d c) q := by
  intro hall
  have h := hall newYear midnight ⟨newYear, .upper, midnight, .letter true⟩ (by decide)
  let email : MailRecord :=
    ⟨[], [], [], none, none, none, (recorded newYear midnight).text, ∅, [], []⟩
  have hkept := (h.matches_since email ⟨none, none, none, none, none⟩ rfl).mpr ⟨rfl, le_refl _⟩
  exact absurd hkept (by decide +kernel)

end DateFilter
