import Mathlib.Data.List.Infix

/-! Runs of a deterministic machine whose actions say who moves. An interleaving of
threads is a list of actions; an action that is not enabled has no successor. -/

namespace Transition

variable {σ α : Type*} (step : σ → α → Option σ)

def run : σ → List α → Option σ
  | s, [] => some s
  | s, a :: as => (step s a).bind fun t => run t as

@[simp] theorem run_nil (s : σ) : run step s [] = some s := rfl

theorem run_cons (s : σ) (a : α) (as : List α) :
    run step s (a :: as) = (step s a).bind fun t => run step t as := rfl

theorem run_cons_eq_some {s t : σ} {a : α} {as : List α} :
    run step s (a :: as) = some t ↔ ∃ r, step s a = some r ∧ run step r as = some t := by
  simp only [run_cons, Option.bind_eq_some_iff]

theorem run_append (s : σ) (as bs : List α) :
    run step s (as ++ bs) = (run step s as).bind fun t => run step t bs := by
  induction as generalizing s with
  | nil => rfl
  | cons a as ih =>
    simp only [List.cons_append, run_cons, Option.bind_assoc]
    exact congrArg (Option.bind (step s a)) (funext fun t => ih t)

theorem run_append_of_eq {s t : σ} {as : List α} (h : run step s as = some t) (bs : List α) :
    run step s (as ++ bs) = run step t bs := by
  rw [run_append, h]
  rfl

def Reachable (s t : σ) : Prop := ∃ as, run step s as = some t

variable {step}

theorem Reachable.refl (s : σ) : Reachable step s s := ⟨[], rfl⟩

theorem Reachable.tail {s t u : σ} {a : α} (h : Reachable step s t) (hu : step t a = some u) :
    Reachable step s u := by
  obtain ⟨as, hs⟩ := h
  refine ⟨as ++ [a], ?_⟩
  rw [run_append_of_eq step hs, run_cons, hu]
  rfl

theorem Reachable.trans {s t u : σ} (h : Reachable step s t) (h' : Reachable step t u) :
    Reachable step s u := by
  obtain ⟨as, hs⟩ := h
  obtain ⟨bs, ht⟩ := h'
  exact ⟨as ++ bs, (run_append_of_eq step hs bs).trans ht⟩

theorem run_invariant {I : σ → Prop} (hstep : ∀ s a t, I s → step s a = some t → I t)
    {s t : σ} {as : List α} (h₀ : I s) (h : run step s as = some t) : I t := by
  induction as generalizing s with
  | nil => exact Option.some.inj h ▸ h₀
  | cons a as ih =>
    obtain ⟨r, hr, ht⟩ := (run_cons_eq_some step).mp h
    exact ih (hstep s a r h₀ hr) ht

theorem Reachable.invariant {I : σ → Prop} (hstep : ∀ s a t, I s → step s a = some t → I t)
    {s t : σ} (h₀ : I s) (h : Reachable step s t) : I t :=
  let ⟨_, hs⟩ := h
  run_invariant hstep h₀ hs

variable (step)

/-- Every step that the run takes meets the guard `G`, a condition on the state before it. -/
def Guarded (G : σ → α → Prop) : σ → List α → Prop
  | _, [] => True
  | s, a :: as => G s a ∧ ∀ t, step s a = some t → Guarded G t as

variable {step} {G : σ → α → Prop} {β : Type*}

theorem Guarded.cons {s t : σ} {a : α} {as : List α} (hG : G s a) (h : step s a = some t)
    (hs : Guarded step G t as) : Guarded step G s (a :: as) := by
  refine ⟨hG, fun t' ht' => ?_⟩
  rwa [← Option.some.inj (h.symm.trans ht')]

theorem Guarded.mono {G' : σ → α → Prop} (hG : ∀ s a, G s a → G' s a) {s : σ} {as : List α}
    (h : Guarded step G s as) : Guarded step G' s as := by
  induction as generalizing s with
  | nil => trivial
  | cons a as ih => exact ⟨hG s a h.1, fun t ht => ih (h.2 t ht)⟩

theorem Guarded.invariant {I : σ → Prop}
    (hstep : ∀ s a t, I s → G s a → step s a = some t → I t)
    {s t : σ} {as : List α} (hG : Guarded step G s as) (h₀ : I s) (h : run step s as = some t) :
    I t := by
  induction as generalizing s with
  | nil => exact Option.some.inj h ▸ h₀
  | cons a as ih =>
    obtain ⟨r, hr, ht⟩ := (run_cons_eq_some step).mp h
    exact ih (hG.2 r hr) (hstep s a r h₀ hG.1 hr) ht

def allSteps (step : σ → α → Option σ) (test : σ → α → Bool) : σ → List α → Bool
  | _, [] => true
  | s, a :: as => test s a && ((step s a).map fun t => allSteps step test t as).getD true

theorem Guarded.of_allSteps (test : σ → α → Bool) (htest : ∀ s a, test s a = true → G s a)
    {s : σ} {as : List α} (h : allSteps step test s as = true) : Guarded step G s as := by
  induction as generalizing s with
  | nil => trivial
  | cons a as ih =>
    unfold allSteps at h
    obtain ⟨ha, has⟩ := Bool.and_eq_true_iff.mp h
    refine ⟨htest s a ha, fun t ht => ih ?_⟩
    rw [ht] at has
    exact has

def trace (step : σ → α → Option σ) (view : σ → List β) : σ → List α → List β
  | s, [] => view s
  | s, a :: as => view s ++ ((step s a).map fun t => trace step view t as).getD []

theorem view_subset_trace (step : σ → α → Option σ) (view : σ → List β) (s : σ) (as : List α) :
    view s ⊆ trace step view s as := by
  cases as with
  | nil => exact List.Subset.refl _
  | cons a as => exact List.subset_append_left _ _

theorem Guarded.invariant_trace {view : σ → List β} {I : List β → σ → Prop}
    (hmono : ∀ seen seen' s, seen ⊆ seen' → I seen s → I seen' s)
    (hstep : ∀ seen s a t, I seen s → G s a → step s a = some t → I (seen ++ view t) t)
    {seen : List β} {s t : σ} {as : List α} (hG : Guarded step G s as) (h₀ : I seen s)
    (h : run step s as = some t) : I (seen ++ trace step view s as) t := by
  induction as generalizing s seen with
  | nil =>
    obtain rfl := Option.some.inj h
    exact hmono _ _ s (List.subset_append_left _ _) h₀
  | cons a as ih =>
    obtain ⟨r, hr, ht⟩ := (run_cons_eq_some step).mp h
    refine hmono _ _ t ?_ (ih (hG.2 r hr) (hstep seen s a r h₀ hG.1 hr) ht)
    have htail : trace step view r as ⊆ trace step view s (a :: as) := by
      rw [trace, hr]
      exact List.subset_append_right _ _
    intro b hb
    rw [List.append_assoc] at hb
    rcases List.mem_append.mp hb with hseen | hb
    · exact List.mem_append_left _ hseen
    · refine List.mem_append_right _ (htail ?_)
      rcases List.mem_append.mp hb with hview | htrace
      · exact view_subset_trace step view r as hview
      · exact htrace

def log (step : σ → α → Option σ) (record : σ → α → List β) : σ → List α → List β
  | _, [] => []
  | s, a :: as => ((step s a).map fun t => record s a ++ log step record t as).getD []

theorem log_cons {record : σ → α → List β} {s t : σ} {a : α} (h : step s a = some t)
    (as : List α) : log step record s (a :: as) = record s a ++ log step record t as := by
  rw [log, h]
  rfl

theorem Guarded.invariant_log {record : σ → α → List β} {I : List β → σ → Prop}
    (hstep : ∀ seen s a t, I seen s → G s a → step s a = some t → I (seen ++ record s a) t)
    {seen : List β} {s t : σ} {as : List α} (hG : Guarded step G s as) (h₀ : I seen s)
    (h : run step s as = some t) : I (seen ++ log step record s as) t := by
  induction as generalizing s seen with
  | nil =>
    obtain rfl := Option.some.inj h
    rw [log, List.append_nil]
    exact h₀
  | cons a as ih =>
    obtain ⟨r, hr, ht⟩ := (run_cons_eq_some step).mp h
    rw [log_cons hr, ← List.append_assoc]
    exact ih (hG.2 r hr) (hstep seen s a r h₀ hG.1 hr) ht

/-- Every step is guarded in a run whose states keep what gives the guard, as long as a measure
that never goes down stays below a bound. -/
theorem Guarded.of_invariant {I : σ → Prop} {m : σ → ℕ} {n : ℕ}
    (hmono : ∀ s a t, step s a = some t → m s ≤ m t)
    (hstep : ∀ s a t, I s → step s a = some t → m t < n → I t) (hG : ∀ s a, I s → G s a)
    {s u : σ} {as : List α} (h₀ : I s) (h : run step s as = some u) (hlt : m u < n) :
    Guarded step G s as := by
  induction as generalizing s with
  | nil => trivial
  | cons a as ih =>
    obtain ⟨t, ht, htail⟩ := (run_cons_eq_some step).mp h
    have hle : m t ≤ m u :=
      run_invariant (I := fun r => m t ≤ m r) (fun r b r' hle hr => hle.trans (hmono r b r' hr))
        le_rfl htail
    exact Guarded.cons (hG s a h₀) ht (ih (hstep s a t h₀ ht (hle.trans_lt hlt)) htail)

theorem Guarded.of_forall (hG : ∀ s a, G s a) (s : σ) (as : List α) : Guarded step G s as := by
  induction as generalizing s with
  | nil => trivial
  | cons a as ih => exact ⟨hG s a, fun t _ => ih t⟩

theorem run_invariant_log {record : σ → α → List β} {I : List β → σ → Prop}
    (hstep : ∀ seen s a t, I seen s → step s a = some t → I (seen ++ record s a) t)
    {seen : List β} {s t : σ} {as : List α} (h₀ : I seen s) (h : run step s as = some t) :
    I (seen ++ log step record s as) t :=
  (Guarded.of_forall (G := fun _ _ => True) (fun _ _ => trivial) s as).invariant_log
    (fun seen s a t hI _ => hstep seen s a t hI) h₀ h

theorem Guarded.append {s : σ} {as bs : List α} (has : Guarded step G s as)
    (hbs : ∀ t, run step s as = some t → Guarded step G t bs) : Guarded step G s (as ++ bs) := by
  induction as generalizing s with
  | nil => exact hbs s rfl
  | cons a as ih =>
    refine ⟨has.1, fun t ht => ih (has.2 t ht) fun u hu => hbs u ?_⟩
    exact (run_cons_eq_some step).mpr ⟨t, ht, hu⟩

/-- When the guard is exactly what a step needs to keep `P`, the runs that stay in `P` are
the guarded ones. -/
theorem guarded_iff_forall_prefix {I P : σ → Prop}
    (hI : ∀ s a t, I s → step s a = some t → I t)
    (hnone : ∀ s a, step s a = none → G s a)
    (hstep : ∀ s a t, I s → P s → step s a = some t → (P t ↔ G s a))
    {s : σ} (h₀ : I s) (hP : P s) (as : List α) :
    (∀ pre t, pre <+: as → run step s pre = some t → P t) ↔ Guarded step G s as := by
  induction as generalizing s with
  | nil =>
    refine ⟨fun _ => trivial, fun _ pre t hpre ht => ?_⟩
    rw [List.prefix_nil.mp hpre] at ht
    exact Option.some.inj ht ▸ hP
  | cons a as ih =>
    constructor
    · intro h
      rcases hr : step s a with _ | r
      · exact ⟨hnone s a hr, fun t ht => absurd (hr.symm.trans ht) nofun⟩
      · have hPr : P r := h [a] r ⟨as, rfl⟩ (by rw [run_cons, hr]; rfl)
        refine ⟨(hstep s a r h₀ hP hr).mp hPr, fun t ht => ?_⟩
        obtain rfl : r = t := Option.some.inj (hr ▸ ht)
        refine (ih (hI s a r h₀ hr) hPr).mp fun pre t hpre ht => ?_
        exact h (a :: pre) t (List.cons_prefix_cons.mpr ⟨rfl, hpre⟩)
          ((run_cons_eq_some step).mpr ⟨r, hr, ht⟩)
    · intro h pre t hpre ht
      cases pre with
      | nil => exact Option.some.inj ht ▸ hP
      | cons b pre =>
        obtain ⟨rfl, htail⟩ := List.cons_prefix_cons.mp hpre
        obtain ⟨r, hr, ht'⟩ := (run_cons_eq_some step).mp ht
        have hPr : P r := (hstep s b r h₀ hP hr).mpr h.1
        exact (ih (hI s b r h₀ hr) hPr).mpr (h.2 r hr) pre t htail ht'

/-- When the guard is exactly what makes a step meet `Q`, the runs all of whose steps meet `Q`
are the guarded ones. -/
theorem guarded_iff_forall_step {I : σ → Prop} {Q : σ → σ → Prop}
    (hI : ∀ s a t, I s → step s a = some t → I t)
    (hnone : ∀ s a, step s a = none → G s a)
    (hstep : ∀ s a t, I s → step s a = some t → (Q s t ↔ G s a))
    {s : σ} (h₀ : I s) (as : List α) :
    (∀ pre a t u, pre ++ [a] <+: as → run step s pre = some t → step t a = some u → Q t u) ↔
      Guarded step G s as := by
  induction as generalizing s with
  | nil =>
    refine ⟨fun _ => trivial, fun _ pre a t u hpre => ?_⟩
    exact absurd (List.prefix_nil.mp hpre) (List.append_ne_nil_of_right_ne_nil _ nofun)
  | cons b as ih =>
    constructor
    · intro h
      rcases hr : step s b with _ | r
      · exact ⟨hnone s b hr, fun t ht => absurd (hr.symm.trans ht) nofun⟩
      · refine ⟨(hstep s b r h₀ hr).mp (h [] b s r ⟨as, rfl⟩ rfl hr), fun t ht => ?_⟩
        obtain rfl : r = t := Option.some.inj (hr ▸ ht)
        refine (ih (hI s b r h₀ hr)).mp fun pre a t u hpre ht hu => ?_
        exact h (b :: pre) a t u (List.cons_prefix_cons.mpr ⟨rfl, hpre⟩)
          ((run_cons_eq_some step).mpr ⟨r, hr, ht⟩) hu
    · intro h pre a t u hpre ht hu
      cases pre with
      | nil =>
        obtain rfl := Option.some.inj ht
        obtain ⟨rfl, -⟩ := List.cons_prefix_cons.mp hpre
        exact (hstep s a u h₀ hu).mpr h.1
      | cons b' pre =>
        obtain ⟨rfl, htail⟩ := List.cons_prefix_cons.mp hpre
        obtain ⟨r, hr, ht'⟩ := (run_cons_eq_some step).mp ht
        exact (ih (hI s b' r h₀ hr)).mpr (h.2 r hr) pre a t u htail ht' hu

end Transition
