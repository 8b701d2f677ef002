import Mathlib.Data.List.Induction
import Mathlib.Data.Set.Basic

/-! # Runs of a labelled transition system

    A run is a finite sequence of labelled steps; runs are read from the left
    and extended on the right, so that an invariant may speak of the whole
    history of a state.

    * `Run.history_rule` — what holds of the empty history and is kept by each
      step holds of every history with the state it leads to;
    * `Run.split` — every cut of the labels is a state of the run;
    * `Run.length_add_le` — a rank that every step lowers bounds a run;
    * `traces_subset` — a simulation that keeps observations carries over all
      traces.

    `iterate` computes a run of a system given by a function. -/

namespace Runs

variable {σ α : Type}

/-- The runs of a step relation, with their labels. -/
inductive Run (step : σ → α → σ → Prop) (s : σ) : List α → σ → Prop where
  | nil : Run step s [] s
  | snoc {l : List α} {t u : σ} {a : α} :
      Run step s l t → step t a u → Run step s (l ++ [a]) u

variable {step : σ → α → σ → Prop} {s t u : σ} {l l' : List α} {a : α}

/-- A single step is a run. -/
theorem Run.single (h : step s a t) : Run step s [a] t := Run.snoc Run.nil h

/-- A run without steps stays where it is. -/
theorem Run.nil_inv (h : Run step s [] t) : t = s := by
  generalize hk : ([] : List α) = k at h
  cases h with
  | nil => rfl
  | snoc _ _ => exact absurd hk (by simp)

theorem Run.append (h : Run step s l t) (h' : Run step t l' u) :
    Run step s (l ++ l') u := by
  induction h' with
  | nil => rwa [List.append_nil]
  | snoc _ hstep ih =>
      rw [← List.append_assoc]
      exact Run.snoc ih hstep

/-- A run whose first step is given. -/
theorem Run.cons (h : step s a t) (h' : Run step t l u) : Run step s (a :: l) u :=
  Run.append (Run.single h) h'

/-- The runs of a system are runs of one that can do more. -/
theorem Run.mono {step' : σ → α → σ → Prop} (hstep : ∀ s a t, step s a t → step' s a t)
    (h : Run step s l t) : Run step' s l t := by
  induction h with
  | nil => exact Run.nil
  | snoc _ hs ih => exact ih.snoc (hstep _ _ _ hs)

/-- The step that ends a run. -/
theorem Run.snoc_inv (h : Run step s (l ++ [a]) u) :
    ∃ t, Run step s l t ∧ step t a u := by
  generalize hl : l ++ [a] = k at h
  cases h with
  | nil => exact absurd hl (by simp)
  | @snoc l' t u b hrun hstep =>
      obtain ⟨rfl, hab⟩ := List.append_inj' hl rfl
      obtain rfl := List.singleton_inj.mp hab
      exact ⟨t, hrun, hstep⟩

/-- A run is cut anywhere. -/
theorem Run.split (h : Run step s (l ++ l') u) :
    ∃ t, Run step s l t ∧ Run step t l' u := by
  induction l' using List.reverseRecOn generalizing u with
  | nil => exact ⟨u, by rwa [List.append_nil] at h, Run.nil⟩
  | append_singleton l' a ih =>
      rw [← List.append_assoc] at h
      obtain ⟨v, hrun, hstep⟩ := h.snoc_inv
      obtain ⟨t, h1, h2⟩ := ih hrun
      exact ⟨t, h1, Run.snoc h2 hstep⟩

/-- The step with a given label inside a run. -/
theorem Run.step_at (h : Run step s (l ++ a :: l') u) :
    ∃ t t', Run step s l t ∧ step t a t' ∧ Run step t' l' u := by
  rw [show l ++ a :: l' = (l ++ [a]) ++ l' by simp] at h
  obtain ⟨t', h1, h2⟩ := h.split
  obtain ⟨t, h3, h4⟩ := h1.snoc_inv
  exact ⟨t, t', h3, h4, h2⟩

/-- Every label of a run is that of a step. -/
theorem Run.step_of_mem (h : Run step s l t) (ha : a ∈ l) : ∃ u v, step u a v := by
  obtain ⟨l₁, l₂, rfl⟩ := List.append_of_mem ha
  obtain ⟨u, v, -, hstep, -⟩ := h.step_at
  exact ⟨u, v, hstep⟩

/-- A run from a first step. -/
theorem Run.cons_inv (h : Run step s (a :: l) u) :
    ∃ t, step s a t ∧ Run step t l u := by
  obtain ⟨t, t', h1, h2, h3⟩ := Run.step_at (l := []) h
  obtain rfl := h1.nil_inv
  exact ⟨t', h2, h3⟩

/-- **Invariants of histories.** -/
theorem Run.history_rule {I : List α → σ → Prop} (h0 : I [] s)
    (hstep : ∀ l t a u, I l t → step t a u → I (l ++ [a]) u)
    (h : Run step s l t) : I l t := by
  induction h with
  | nil => exact h0
  | snoc _ hs ih => exact hstep _ _ _ _ ih hs

/-- **Ranking.**  Where every step of a run lowers a rank, a run is no longer than
    the rank of its start. -/
theorem Run.length_add_le (rank : σ → Nat)
    (hstep : ∀ l t a u, Run step s l t → step t a u → rank u < rank t)
    (h : Run step s l t) : l.length + rank t ≤ rank s := by
  induction h with
  | nil => exact le_of_eq (Nat.zero_add _)
  | snoc hrun hs ih =>
      have hless := hstep _ _ _ _ hrun hs
      rw [List.length_append, List.length_singleton]
      omega

/-- Where every step lowers a rank, every state has a run to one without steps. -/
theorem exists_stuck (rank : σ → Nat) (hstep : ∀ s a t, step s a t → rank t < rank s) (s : σ) :
    ∃ l t, Run step s l t ∧ ∀ a u, ¬ step t a u := by
  induction hn : rank s using Nat.strong_induction_on generalizing s with
  | _ n ih =>
      by_cases hstuck : ∀ a u, ¬ step s a u
      · exact ⟨[], s, Run.nil, hstuck⟩
      · simp only [not_forall, not_not] at hstuck
        obtain ⟨a, u, hs⟩ := hstuck
        have hless := hstep s a u hs
        rw [hn] at hless
        obtain ⟨l, t, hrun, hend⟩ := ih _ hless u rfl
        exact ⟨a :: l, t, Run.cons hs hrun, hend⟩

/-- Where a label leads to one state, labels lead to one state. -/
theorem Run.deterministic (hdet : ∀ s a t u, step s a t → step s a u → t = u)
    (h : Run step s l t) (h' : Run step s l u) : t = u := by
  induction h generalizing u with
  | nil => exact h'.nil_inv.symm
  | snoc _ hstep ih =>
      obtain ⟨v, hrun, hstep'⟩ := h'.snoc_inv
      obtain rfl := ih hrun
      exact hdet _ _ _ _ hstep hstep'

/-- Every run of `n` steps from `s` makes the observations `o` and ends in `t`, and
    there is one. -/
def Leads {β : Type} (step : σ → α → σ → Prop) (obs : α → List β) (s : σ) (n : Nat)
    (o : List β) (t : σ) : Prop :=
  (∃ l u, Run step s l u ∧ l.length = n)
    ∧ ∀ l u, Run step s l u → l.length = n → l.flatMap obs = o ∧ u = t

section

variable {β : Type} {obs : α → List β} {n n' : Nat} {o o' : List β}

theorem Leads.refl (s : σ) : Leads step obs s 0 [] s := by
  refine ⟨⟨[], s, Run.nil, rfl⟩, fun l u h hlen => ?_⟩
  obtain rfl := List.eq_nil_of_length_eq_zero hlen
  exact ⟨rfl, h.nil_inv⟩

theorem Leads.single (hex : ∃ a u, step s a u)
    (hall : ∀ a u, step s a u → obs a = o ∧ u = t) : Leads step obs s 1 o t := by
  obtain ⟨a, u, h⟩ := hex
  refine ⟨⟨[a], u, Run.single h, rfl⟩, fun l v hrun hlen => ?_⟩
  obtain ⟨b, rfl⟩ := List.length_eq_one_iff.mp hlen
  obtain ⟨w, hstep, hend⟩ := hrun.cons_inv
  obtain rfl := hend.nil_inv
  rw [List.flatMap_singleton]
  exact hall b _ hstep

/-- Stretches of a run, one after the other. -/
theorem Leads.trans (h : Leads step obs s n o t) (h' : Leads step obs t n' o' u) :
    Leads step obs s (n + n') (o ++ o') u := by
  obtain ⟨⟨l, v, hrun, hlen⟩, hall⟩ := h
  obtain ⟨⟨l', v', hrun', hlen'⟩, hall'⟩ := h'
  obtain ⟨-, rfl⟩ := hall l v hrun hlen
  refine ⟨⟨l ++ l', v', hrun.append hrun', ?_⟩, fun k w hk hklen => ?_⟩
  · rw [List.length_append, hlen, hlen']
  · rw [← List.take_append_drop n k] at hk
    obtain ⟨x, h1, h2⟩ := hk.split
    obtain ⟨ho, rfl⟩ := hall _ x h1 (by rw [List.length_take]; omega)
    obtain ⟨ho', rfl⟩ := hall' _ w h2 (by rw [List.length_drop]; omega)
    refine ⟨?_, rfl⟩
    rw [← ho, ← ho', ← List.flatMap_append, List.take_append_drop]

end

/-- Where a step and the state it leads to are determined, up to observation, a run
    stands for every run of its length. -/
theorem Run.leads {β : Type} {obs : α → List β}
    (hdet : ∀ s a t b u, step s a t → step s b u → obs a = obs b ∧ t = u)
    (h : Run step s l t) : Leads step obs s l.length (l.flatMap obs) t := by
  induction h with
  | nil => exact Leads.refl s
  | @snoc l t u a _ hstep ih =>
      rw [List.length_append, List.flatMap_append, List.flatMap_singleton]
      refine ih.trans (Leads.single ⟨a, u, hstep⟩ (fun b v hb => ?_))
      obtain ⟨hobs, hend⟩ := hdet t a u b v hstep hb
      exact ⟨hobs.symm, hend.symm⟩

/-- **Projection.**  Where each step is one of a component or leaves it alone, the
    component's own labels are a run of it. -/
theorem Run.project {τ β : Type} {step' : τ → β → τ → Prop} (view : σ → τ)
    {own : α → Option β}
    (hown : ∀ s a t b, step s a t → own a = some b → step' (view s) b (view t))
    (hother : ∀ s a t, step s a t → own a = none → view t = view s)
    (h : Run step s l t) : Run step' (view s) (l.filterMap own) (view t) := by
  induction h with
  | nil => exact Run.nil
  | @snoc l t u a _ hstep ih =>
      rw [List.filterMap_append]
      cases ha : own a with
      | none =>
          rw [List.filterMap_cons_none ha, hother t a u hstep ha]
          exact ih.append Run.nil
      | some b =>
          rw [List.filterMap_cons_some ha]
          exact ih.append (Run.single (hown t a u b hstep ha))

/-- The observations of the runs from a state. -/
def traces {β : Type} (step : σ → α → σ → Prop) (obs : α → β) (s : σ) : Set (List β) :=
  {o | ∃ l t, Run step s l t ∧ l.map obs = o}

/-- `R` is a simulation of a system by itself that keeps observations. -/
def Simulation {β : Type} (step : σ → α → σ → Prop) (obs : α → β) (R : σ → σ → Prop) :
    Prop :=
  ∀ s a t s', R s s' → step s a t → ∃ a' t', step s' a' t' ∧ obs a' = obs a ∧ R t t'

/-- A simulating state has a run with the same observations. -/
theorem Run.simulate {β : Type} {obs : α → β} {R : σ → σ → Prop} {s' : σ}
    (hR : Simulation step obs R) (hs : R s s') (h : Run step s l t) :
    ∃ l' t', Run step s' l' t' ∧ l'.map obs = l.map obs ∧ R t t' := by
  induction h with
  | nil => exact ⟨[], s', Run.nil, rfl, hs⟩
  | snoc _ hstep ih =>
      obtain ⟨l', t', hrun, hobs, ht⟩ := ih
      obtain ⟨a', u', hstep', ha, hu⟩ := hR _ _ _ _ ht hstep
      refine ⟨l' ++ [a'], u', Run.snoc hrun hstep', ?_, hu⟩
      rw [List.map_append, List.map_append, hobs]
      exact congrArg (_ ++ [·]) ha

/-- **Simulations carry traces over.** -/
theorem traces_subset {β : Type} {obs : α → β} {R : σ → σ → Prop} {s' : σ}
    (hR : Simulation step obs R) (hs : R s s') :
    traces step obs s ⊆ traces step obs s' := by
  rintro o ⟨l, t, hrun, rfl⟩
  obtain ⟨l', t', hrun', hobs, -⟩ := hrun.simulate hR hs
  exact ⟨l', t', hrun', hobs⟩

/-- The last label of a sequence of known length. -/
theorem take_append_last {l : List α} {n : Nat} (h : l.length = n + 1) :
    l = l.take n ++ [l.get ⟨n, by omega⟩] := by
  rw [List.get_eq_getElem, List.take_append_getElem, ← h, List.take_length]

/-- The first `n` steps of a system that moves by a function. -/
def iterate (next : σ → Option (α × σ)) : Nat → σ → List α × σ
  | 0, s => ([], s)
  | n + 1, s =>
      match next s with
      | none => ([], s)
      | some (a, t) => (a :: (iterate next n t).1, (iterate next n t).2)

/-- What is computed is a run. -/
theorem iterate_run {next : σ → Option (α × σ)}
    (hnext : ∀ s a t, next s = some (a, t) → step s a t) (n : Nat) :
    ∀ s, Run step s (iterate next n s).1 (iterate next n s).2 := by
  induction n with
  | zero => intro s; exact Run.nil
  | succ n ih =>
      intro s
      rw [iterate]
      cases hn : next s with
      | none => exact Run.nil
      | some p => exact Run.cons (hnext s p.1 p.2 hn) (ih p.2)

/-- The state some labels lead to, in a system where they lead to one state. -/
def follow (next : σ → α → Option σ) : List α → σ → Option σ
  | [], s => some s
  | a :: l, s => (next s a).bind (follow next l)

theorem follow_run {next : σ → α → Option σ} :
    ∀ {l : List α} {s t : σ}, follow next l s = some t →
      Run (fun s a t => next s a = some t) s l t := by
  intro l
  induction l with
  | nil =>
      intro s t h
      cases h
      exact Run.nil
  | cons a l ih =>
      intro s t h
      obtain ⟨u, hu, ht⟩ := Option.bind_eq_some_iff.mp h
      exact Run.cons hu (ih ht)

end Runs
