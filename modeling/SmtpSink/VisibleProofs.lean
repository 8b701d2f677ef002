import SmtpSink.ServerProofs

/-! # Visible mail — what an acknowledgement promises to everybody

    Sessions push, other sessions push, and HTTP clients read and delete, in any
    order.  A session answers DATA after its push, so what it has acknowledged is
    in the store that every client sees from then on.

    `acknowledged_visible` — a message that was answered with `250 OK: queued` is
    listed, and found under its id, until it is deleted or as many messages as the
    store holds have come after it. -/

namespace SmtpVisible

open SmtpRecord SmtpSession SmtpConnection SmtpServer EmailStore Runs Retention

section

variable {ι : Type} [DecidableEq ι] {sys : Setup ι} {max : Nat} {l pre mid : List (Label ι)}
  {s : Server ι MemoryStore} {i : ι} {m : Move} {record : MailRecord}

/-- A move that answers so has stored one record. -/
theorem queued_pushed {env : Env} {cfg : SmtpConfig} {c c' : Conn} (h : Step env cfg c m c')
    (hok : m.Says "250 OK: queued") : ∃ record, m.pushed = [record] := by
  obtain ⟨line, rest, bytes, stamp, hd⟩ := h.delivers hok .queued
  exact ⟨_, hd.pushed_eq⟩

/-- A task that answers has pushed what its call had to push. -/
theorem pushes_of_answer (h : Run (ServerStep sys StoreOp.apply)
    (Server.start (MemoryStore.new max)) (pre ++ [.task i (.answer m)]) s) :
    (∃ c c', sys.Own i c m c') ∧ ∀ record ∈ m.pushed, record ∈ pushes (own i pre) := by
  have htask := task_run h i
  have hsplit : own i (pre ++ [.task i (.answer m)]) = own i pre ++ [.answer m] := by
    have hown : own i [.task i (.answer m)] = [.answer m] := own_map i [.answer m]
    rw [← hown]
    exact List.filterMap_append
  rw [hsplit] at htask
  obtain ⟨t, hpre, hstep⟩ := htask.snoc_inv
  generalize (s.tasks i) = t' at hstep
  cases hstep with
  | answer c m =>
      rcases TaskHistory.run_history hpre with ⟨hnone, -⟩ | ⟨t, ht, hI⟩
      · cases hnone
      · cases ht
        obtain ⟨done, hpushes, hdone⟩ := hI.pushed
        have hall : done = m.pushed := by simpa [Task.unpushed, Task.underway] using hdone
        have hmem : m ∈ commands (own i pre) := by
          rw [hI.answered]
          exact List.mem_append_right _ List.mem_cons_self
        refine ⟨hI.run.step_of_mem hmem, fun record hrecord => ?_⟩
        rw [hpushes, hall]
        exact List.mem_append_right _ hrecord

/-- The push of a task in the run of the server. -/
theorem exists_push (h : record ∈ pushes (own i l)) :
    ∃ before behind, l = before ++ .task i (.push record) :: behind := by
  rw [pushes_own] at h
  obtain ⟨⟨j, e⟩, hp, rfl⟩ := List.mem_map.mp h
  obtain ⟨hmem, hj⟩ := List.mem_filter.mp hp
  obtain ⟨a, ha, hpush⟩ := List.mem_filterMap.mp hmem
  obtain rfl : j = i := of_decide_eq_true hj
  have haeq : a = .task j (.push e) := by
    cases a with
    | task i' b =>
        cases b with
        | push r =>
            cases hpush
            rfl
        | accept | command | notify | answer => cases hpush
    | request r => cases hpush
    | control b => cases hpush
  rw [haeq] at ha
  exact List.append_of_mem ha

/-- An eviction takes as many later pushes as the store holds. -/
theorem length_of_evicted {before behind : List StoreOp}
    (hids : ((pushed (before ++ .push record :: behind)).map MailRecord.id).Nodup)
    (h : Evicted max before record behind) : max ≤ (pushed behind).length := by
  obtain ⟨ops, more, rfl, -, hlen, hlater⟩ := h
  have hnodup : (after max (before ++ .push record :: ops)).getAll.Nodup := by
    rw [← List.cons_append, ← List.append_assoc, pushed_append, List.map_append,
      List.nodup_append] at hids
    exact (nodup_pushed hids.1).sublist (after_sublist max _)
  have hle := (List.subperm_of_subset hnodup hlater).length_le
  rw [hlen] at hle
  rw [pushed_append, List.length_append]
  exact hle.trans (Nat.le_add_right _ _)

end

/-- **What is acknowledged is visible to all.**  In every run of a server over a
    memory store, whatever the sessions and HTTP clients do in between: once a
    session has answered `250 OK: queued`, the one record of that message has been
    pushed, and from then on a request is answered without it just where it was
    dropped since its push; in particular it is listed, and found under its id, as
    long as nobody deletes it and fewer messages have been pushed behind it than
    the store holds. -/
theorem acknowledged_visible {ι : Type} [DecidableEq ι] {sys : Setup ι} {max : Nat}
    {pre mid : List (Label ι)} {s : Server ι MemoryStore} {i : ι} {m : Move}
    (hids : ((allPushes (pre ++ .task i (.answer m) :: mid)).map (fun p => p.2.id)).Nodup)
    (hrun : Run (ServerStep sys StoreOp.apply) (Server.start (MemoryStore.new max))
      (pre ++ .task i (.answer m) :: mid) s)
    (hok : m.Says "250 OK: queued") :
    ∃ record before behind, m.pushed = [record]
      ∧ pre = before ++ .task i (.push record) :: behind
      ∧ (record ∉ s.store.getAll ↔ Dropped max (ops before) record (ops (behind ++ mid)))
      ∧ (.clear ∉ ops (behind ++ mid) → .remove record.id ∉ ops (behind ++ mid) →
        (allPushes (behind ++ mid)).length < max →
        record ∈ s.store.getAll ∧ s.store.getById record.id = some record) := by
  have hassoc : pre ++ .task i (.answer m) :: mid = (pre ++ [.task i (.answer m)]) ++ mid := by
    simp
  have hstore := store_replays hrun
  obtain ⟨t, hanswer, -⟩ := (hassoc ▸ hrun).split
  obtain ⟨⟨c, c', hown⟩, hpushed⟩ := pushes_of_answer hanswer
  obtain ⟨record, hrecord⟩ := queued_pushed hown.step hok
  obtain ⟨before, behind, rfl⟩ := exists_push (hpushed record (by
    rw [hrecord]
    exact List.mem_cons_self))
  -- the answer itself does nothing to the store
  have hops : ops ((before ++ .task i (.push record) :: behind) ++ .task i (.answer m) :: mid)
      = ops before ++ .push record :: ops (behind ++ mid) := by
    simp only [ops, List.filterMap_append, List.append_assoc]
    rfl
  have hids' : ((pushed (ops before ++ .push record :: ops (behind ++ mid))).map
      MailRecord.id).Nodup := by
    rw [← hops, pushed_ops, List.map_map]
    exact hids
  have hafter : s.store = after max (ops before ++ .push record :: ops (behind ++ mid)) := by
    rw [hstore, hops]
    rfl
  have hmissing : record ∉ s.store.getAll
      ↔ Dropped max (ops before) record (ops (behind ++ mid)) := by
    rw [hafter]
    exact missing_iff hids'
  refine ⟨record, before, behind, hrecord, rfl, hmissing, fun hclear hremove hfew => ?_⟩
  have hheld : record ∈ s.store.getAll := by
    by_contra hgone
    rcases hmissing.mp hgone with h | h | h
    · exact hclear h
    · exact hremove h
    · have hlen := length_of_evicted hids' h
      rw [pushed_ops, List.length_map] at hlen
      omega
  have hkeys : (s.store.emails.map MailRecord.id).Nodup := by
    rw [hafter]
    exact hids'.sublist ((after_sublist max _).map _)
  exact ⟨hheld, Keyed.lookup_eq_some_iff (t := ⟨s.store.emails, hkeys⟩).mpr ⟨hheld, rfl⟩⟩

/-- One of two clients has sent its message, and it was answered. -/
theorem answered_run : ∃ pre m s record,
    Run (ServerStep twoClients StoreOp.apply) (Server.start (MemoryStore.new 10))
      (pre ++ [.task true (.answer m)]) s
    ∧ m.Says "250 OK: queued" ∧ allPushes (pre ++ [.task true (.answer m)]) = [(true, record)] := by
  have hlen : (sampleRun SmtpEnvelope.openConfig none 4 SmtpEnvelope.oneSender).1.length = 4 := by
    decide +kernel
  have hown : Run (twoClients.Own true) (twoClients.start true)
      (sampleRun SmtpEnvelope.openConfig none 4 SmtpEnvelope.oneSender).1 _ :=
    moves_own _ _ _ _ _ _
  rw [take_append_last hlen] at hown
  obtain ⟨c, hthree, hstep⟩ := hown.snoc_inv
  have hok : ((sampleRun SmtpEnvelope.openConfig none 4 SmtpEnvelope.oneSender).1.get
      ⟨3, by decide +kernel⟩).Says "250 OK: queued" := by decide +kernel
  generalize (sampleRun SmtpEnvelope.openConfig none 4 SmtpEnvelope.oneSender).1.get
    ⟨3, by omega⟩ = m at hstep hok
  obtain ⟨record, hrecord⟩ := queued_pushed hstep.step hok
  obtain ⟨k, hk, hpushes, -⟩ := task_of_own hthree
  have hnone : ((sampleRun SmtpEnvelope.openConfig none 4 SmtpEnvelope.oneSender).1.take 3).flatMap
      Move.pushed = [] := List.isEmpty_iff.mp (by decide +kernel)
  have hcommand := TaskStep.command c _ m hstep
  rw [hrecord] at hcommand
  have htask := (((hk.snoc hcommand).snoc (TaskStep.push c m record [])).snoc
    (TaskStep.notify c m [])).snoc (TaskStep.answer c m)
  obtain ⟨s₀, hfirst, hs₀⟩ : ∃ s₀, Run (ServerStep twoClients StoreOp.apply)
      (Server.start (MemoryStore.new 10)) [.task true .accept] s₀
        ∧ s₀.tasks true = some ⟨twoClients.start true, none⟩ :=
    ⟨_, Run.single (ServerStep.task true .accept _ TaskStep.accept (fun _ => rfl)), rfl⟩
  obtain ⟨s, hs, -, -⟩ := server_of_task hs₀ htask
  have hrun := hfirst.append hs
  rw [List.map_append, ← List.append_assoc] at hrun
  refine ⟨_, m, s, record, hrun, hok, ?_⟩
  rw [allPushes_append, allPushes_append, allPushes_map]
  simp only [pushes_append, hpushes, hnone]
  rfl

theorem acknowledged_visible_two : ∃ pre m s record before behind,
    Run (ServerStep twoClients StoreOp.apply) (Server.start (MemoryStore.new 10))
      (pre ++ [.task true (.answer m)]) s
    ∧ m.pushed = [record] ∧ pre = before ++ .task true (.push record) :: behind := by
  obtain ⟨pre, m, s, pushed, hrun, hok, hpushes⟩ := answered_run
  have hids : ((allPushes (pre ++ .task true (.answer m) :: [])).map (fun p => p.2.id)).Nodup := by
    rw [hpushes]
    exact List.nodup_singleton _
  obtain ⟨record, before, behind, hrecord, hsplit, -⟩ := acknowledged_visible hids hrun hok
  exact ⟨pre, m, s, record, before, behind, hrun, hrecord, hsplit⟩

end SmtpVisible
