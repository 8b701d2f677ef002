import SmtpSink.WebsocketProofs

/-! # Snapshots — what a watcher receives, in order

    A WebSocket client receives the contents of the store again and again, each
    time as they were when its handler read them.  `Watcher` is a handler with
    the messages its client has received so far.

    * `Reads` — moments at which a handler read the store: each comes after the
      one before, and the notifications taken until then tell them apart;
    * `Stage` — what has been read and what has been sent, by where the handler
      stands; every step keeps it;
    * `snapshots_in_order` — in every run, what a client has received are the
      contents of the store at such moments, one after the other.

    So a client never sees the store go back, and never sees a state that the
    store was not in. -/

namespace WebsocketSnapshots

open Runs SmtpRecord EmailStore Websocket

/-! ## Watchers -/

/-- The operation an action carries out. -/
def change? : Action → Option StoreOp
  | .change op _ => some op
  | .notify _ | .fetch | .send _ | .subscribe | .receive | .client _ => none

/-- The contents of a store after some actions. -/
def contents (store : MemoryStore) (l : List Action) : List MailRecord :=
  ((l.filterMap change?).foldl StoreOp.apply store).getAll

/-- The snapshot an action sends. -/
def sends (w : World) : Action → List (List MailRecord)
  | .send true =>
      match w.handler with
      | .greeting emails | .sending emails => [emails]
      | .start | .subscribing | .waiting | .notified | .ponging | .closed => []
  | .send false | .change _ _ | .notify _ | .fetch | .subscribe | .receive | .client _ => []

/-- A handler over its store, and the snapshots its client has received. -/
structure Watcher where
  world : World
  received : List (List MailRecord)

/-- One step of an operation or of the handler, with what its client receives. -/
def watch (v : Watcher) (a : Action) : Option Watcher :=
  (step v.world a).map (fun w => ⟨w, v.received ++ sends v.world a⟩)

/-- `watch` as a relation. -/
def WatchStep (v : Watcher) (a : Action) (v' : Watcher) : Prop := watch v a = some v'

def isReceive : Action → Bool
  | .receive => true
  | .change _ _ | .notify _ | .fetch | .send _ | .subscribe | .client _ => false

/-- How many notifications were taken. -/
def receives (l : List Action) : Nat := l.countP isReceive

/-- Moments of a history at which the store was read: each is later than the one
    before, and the first was before any notification was taken, the second after
    one, and so on. -/
structure Reads (l : List Action) (reads : List (List Action)) : Prop where
  onward : reads.Pairwise (· <+: ·)
  past : ∀ r ∈ reads, r <+: l
  taken : ∀ i r, reads[i]? = some r → receives r = i

/-- What was read and what was sent, where `n` notifications were taken. -/
def Stage (store : MemoryStore) (n : Nat) (reads : List (List Action))
    (received : List (List MailRecord)) : Handler → Prop
  | .start | .notified => received = reads.map (contents store) ∧ reads.length = n
  | .greeting emails | .sending emails =>
      ∃ sent r, reads = sent ++ [r] ∧ received = sent.map (contents store)
        ∧ emails = contents store r ∧ reads.length = n + 1
  | .subscribing | .waiting | .ponging =>
      received = reads.map (contents store) ∧ reads.length = n + 1
  | .closed => received = reads.map (contents store)

/-! ## Reads -/

section

variable {l : List Action} {reads sent : List (List Action)} {a : Action}

theorem receives_snoc (l : List Action) (a : Action) :
    receives (l ++ [a]) = receives l + if isReceive a then 1 else 0 := by
  rw [receives, receives, List.countP_append, List.countP_singleton]

/-- Only a receive takes a notification. -/
theorem receives_keep (l : List Action) (h : isReceive a = false) :
    receives (l ++ [a]) = receives l := by
  rw [receives_snoc, h]
  rfl

theorem Reads.nil (l : List Action) : Reads l [] where
  onward := List.Pairwise.nil
  past := fun _ h => absurd h List.not_mem_nil
  taken := fun _ _ h => nomatch h

/-- What was read stays read. -/
theorem Reads.later (h : Reads l reads) (a : Action) : Reads (l ++ [a]) reads where
  onward := h.onward
  past := fun r hr => (h.past r hr).trans (List.prefix_append l [a])
  taken := h.taken

/-- One more read, now. -/
theorem Reads.read (h : Reads l reads) (hn : reads.length = receives l) :
    Reads l (reads ++ [l]) where
  onward := by
    refine List.pairwise_append.mpr ⟨h.onward, List.pairwise_singleton _ _, ?_⟩
    intro r hr r' hr'
    rw [List.mem_singleton.mp hr']
    exact h.past r hr
  past := by
    intro r hr
    rcases List.mem_append.mp hr with hr | hr
    · exact h.past r hr
    · rw [List.mem_singleton.mp hr]
  taken := by
    intro i r hi
    by_cases hlt : i < reads.length
    · rw [List.getElem?_append_left hlt] at hi
      exact h.taken i r hi
    · rw [List.getElem?_append_right (by omega)] at hi
      obtain ⟨hlast, rfl⟩ : i - reads.length = 0 ∧ l = r := by
        simpa [List.getElem?_singleton] using hi
      omega

/-- Without its last read. -/
theorem Reads.before (h : Reads l (sent ++ reads)) : Reads l sent where
  onward := (List.pairwise_append.mp h.onward).1
  past := fun r hr => h.past r (List.mem_append_left _ hr)
  taken := by
    intro i r hi
    have hlt : i < sent.length := (List.getElem?_eq_some_iff.mp hi).1
    exact h.taken i r (by rwa [List.getElem?_append_left hlt])

/-- One read for the start, and at most one for each notification taken. -/
theorem Reads.length_le (h : Reads l reads) : reads.length ≤ receives l + 1 := by
  by_cases hnil : reads = []
  · rw [hnil]
    exact Nat.zero_le _
  · obtain ⟨before, r, rfl⟩ := (List.eq_nil_or_concat' reads).resolve_left hnil
    have htaken : receives r = before.length :=
      h.taken before.length r List.getElem?_concat_length
    have hpast : receives r ≤ receives l :=
      (h.past r (List.mem_append_right _ List.mem_cons_self)).sublist.countP_le
    rw [List.length_append, List.length_singleton]
    omega

end

/-! ## Steps -/

section

variable {store : MemoryStore} {l : List Action} {reads : List (List Action)}
  {v v' : Watcher} {a : Action}

theorem watch_eq_some (h : WatchStep v a v') :
    Step v.world a v'.world ∧ v'.received = v.received ++ sends v.world a := by
  obtain ⟨w, hw, rfl⟩ := Option.map_eq_some_iff.mp h
  exact ⟨hw, rfl⟩

/-- The store is what the changes made of it. -/
theorem step_store {w w' : World} (h : Step w a w') :
    w'.store = ([a].filterMap change?).foldl StoreOp.apply w.store := by
  cases a with
  | change op i =>
      simp only [Step, step] at h
      split_ifs at h
      cases hop : op.change w.store with
      | none => rw [hop] at h; cases h
      | some store' =>
          rw [hop] at h
          cases h
          show store' = (op.change w.store).getD w.store
          rw [hop]
          rfl
  | notify i =>
      simp only [Step, step] at h
      split_ifs at h
      · cases h
        rfl
      · cases h
        rfl
  | fetch | send | subscribe | receive | client =>
      cases step_happens h <;> rfl

/-- What is sent is what the handler holds. -/
theorem sends_cases (w : World) (a : Action) :
    sends w a = []
      ∨ ∃ emails, (w.handler = .greeting emails ∨ w.handler = .sending emails)
        ∧ sends w a = [emails] := by
  cases a with
  | send ok =>
      cases ok with
      | false => exact Or.inl rfl
      | true =>
          rw [sends]
          cases hw : w.handler with
          | greeting emails => exact Or.inr ⟨emails, Or.inl rfl, rfl⟩
          | sending emails => exact Or.inr ⟨emails, Or.inr rfl, rfl⟩
          | start | subscribing | waiting | notified | ponging | closed => exact Or.inl rfl
  | change | notify | fetch | subscribe | receive | client => exact Or.inl rfl

/-- What is sent is what was read last. -/
theorem Stage.sent {n : Nat} {w : World} {received : List (List MailRecord)}
    (h : Stage store n reads received w.handler) (a : Action) :
    ∃ sent, sent <+: reads ∧ received ++ sends w a = sent.map (contents store) := by
  rcases sends_cases w a with hs | ⟨emails, hw, hs⟩
  · rw [hs, List.append_nil]
    cases hw : w.handler with
    | greeting emails | sending emails =>
        rw [hw] at h
        obtain ⟨sent, r, rfl, hreceived, -, -⟩ := h
        exact ⟨sent, List.prefix_append _ _, hreceived⟩
    | start | notified | subscribing | waiting | ponging =>
        rw [hw] at h
        exact ⟨reads, List.prefix_refl _, h.1⟩
    | closed =>
        rw [hw] at h
        exact ⟨reads, List.prefix_refl _, h⟩
  · rw [hs]
    have hread : ∃ sent r, reads = sent ++ [r] ∧ received = sent.map (contents store)
        ∧ emails = contents store r ∧ reads.length = n + 1 := by
      rcases hw with hw | hw
      · rwa [hw] at h
      · rwa [hw] at h
    obtain ⟨sent, r, rfl, rfl, rfl, -⟩ := hread
    exact ⟨sent ++ [r], List.prefix_refl _, by rw [List.map_append, List.map_singleton]⟩

/-- The store is what the history made of it, and what the client received was
    read at moments of it. -/
structure Watched (store : MemoryStore) (l : List Action) (v : Watcher) : Prop where
  replayed : v.world.store = (l.filterMap change?).foldl StoreOp.apply store
  reads : ∃ reads, Reads l reads ∧ Stage store (receives l) reads v.received v.world.handler

theorem Watched.replay (hI : Watched store l v) (h : WatchStep v a v') :
    v'.world.store = ((l ++ [a]).filterMap change?).foldl StoreOp.apply store := by
  rw [step_store (watch_eq_some h).1, hI.replayed, List.filterMap_append, List.foldl_append]

/-- **A step keeps what was read and what was sent in order.** -/
theorem Watched.step (hI : Watched store l v) (h : WatchStep v a v') :
    Watched store (l ++ [a]) v' := by
  refine ⟨hI.replay h, ?_⟩
  obtain ⟨hstore, reads, hreads, hstage⟩ := hI
  obtain ⟨w, received⟩ := v
  obtain ⟨w', received'⟩ := v'
  obtain ⟨hstep, rfl⟩ := watch_eq_some h
  have hread : w.store.getAll = contents store l := by rw [hstore]; rfl
  dsimp only at hstage hstep ⊢
  cases step_happens hstep with
  | change op store' hop =>
      refine ⟨reads, hreads.later _, ?_⟩
      rw [receives_keep l rfl, sends, List.append_nil]
      exact hstage
  | notify i hi =>
      refine ⟨reads, hreads.later _, ?_⟩
      rw [receives_keep l rfl, sends, List.append_nil]
      exact hstage
  | fetchFirst hw | fetchAgain hw =>
      rw [hw] at hstage
      obtain ⟨hreceived, hlen⟩ := hstage
      refine ⟨reads ++ [l], (hreads.read hlen).later _, ?_⟩
      rw [receives_keep l rfl, sends, List.append_nil]
      exact ⟨reads, l, rfl, hreceived, hread, by rw [List.length_append, hlen]; rfl⟩
  | sendFirst emails hw | sendAgain emails hw =>
      rw [hw] at hstage
      obtain ⟨sent, r, rfl, hreceived, rfl, hlen⟩ := hstage
      refine ⟨sent ++ [r], hreads.later _, ?_⟩
      rw [receives_keep l rfl, sends, hw, hreceived]
      exact ⟨by rw [List.map_append]; rfl, hlen⟩
  | pong hw =>
      rw [hw] at hstage
      refine ⟨reads, hreads.later _, ?_⟩
      rw [receives_keep l rfl, sends, hw, List.append_nil]
      exact hstage
  | subscribe hw =>
      rw [hw] at hstage
      refine ⟨reads, hreads.later _, ?_⟩
      rw [receives_keep l rfl, sends, List.append_nil]
      exact hstage
  | receive hw =>
      rw [hw] at hstage
      refine ⟨reads, hreads.later _, ?_⟩
      rw [receives_snoc, sends, List.append_nil]
      exact hstage
  | ping hw =>
      rw [hw] at hstage
      refine ⟨reads, hreads.later _, ?_⟩
      rw [receives_keep l rfl, sends, List.append_nil]
      exact hstage
  | ignore hw =>
      refine ⟨reads, hreads.later _, ?_⟩
      rw [receives_keep l rfl, sends, List.append_nil]
      exact hstage
  | leave a ha =>
      -- the client has what was sent until then
      obtain ⟨sent, ⟨unsent, rfl⟩, hsent⟩ := hstage.sent a
      exact ⟨sent, hreads.before.later _, hsent⟩

end

/-- **Snapshots come in order.**  In every run of a handler, from its start, over a
    store on which others operate: what its client has received are the contents
    of the store at moments of the run, one after the other, the first before any
    notification was taken, the second after one, and so on; and it has received
    one for the start and at most one for every notification taken. -/
theorem snapshots_in_order {store : MemoryStore} {l : List Action} {v : Watcher}
    (hrun : Run WatchStep ⟨World.start store, []⟩ l v) :
    ∃ reads, Reads l reads ∧ v.received = reads.map (contents store)
      ∧ v.received.length ≤ receives l + 1 := by
  have h0 : Watched store [] ⟨World.start store, []⟩ :=
    ⟨rfl, [], Reads.nil [], rfl, rfl⟩
  obtain ⟨-, reads, hreads, hstage⟩ :=
    hrun.history_rule h0 (fun _ _ _ _ hI hs => Watched.step hI hs)
  obtain ⟨sent, ⟨unsent, rfl⟩, hsent⟩ := hstage.sent .fetch
  have hreceived : v.received = sent.map (contents store) := by
    rwa [sends, List.append_nil] at hsent
  refine ⟨sent, hreads.before, hreceived, ?_⟩
  rw [hreceived, List.length_map]
  exact hreads.before.length_le

/-- A client that is greeted with an empty store and sent one update. -/
theorem snapshots_in_order_push : ∃ (v : Watcher) (reads : List (List Action)),
    v.received = [[], [sampleRecord]]
      ∧ Reads [.fetch, .send true, .subscribe, .change (.push sampleRecord) 0, .notify 0,
        .receive, .fetch, .send true] reads
      ∧ v.received = reads.map (contents ⟨10, []⟩) := by
  have hrun : Run WatchStep ⟨World.start ⟨10, []⟩, []⟩
      [.fetch, .send true, .subscribe, .change (.push sampleRecord) 0, .notify 0, .receive,
        .fetch, .send true]
      ⟨⟨⟨10, [sampleRecord]⟩, 1, [], .waiting, 0, some [sampleRecord]⟩, [[], [sampleRecord]]⟩ :=
    follow_run rfl
  obtain ⟨reads, hreads, hreceived, -⟩ := snapshots_in_order hrun
  exact ⟨_, reads, rfl, hreads, hreceived⟩

end WebsocketSnapshots
