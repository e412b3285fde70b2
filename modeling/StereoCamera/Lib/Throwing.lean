import Mathlib.Logic.Basic

/-! Programs that can throw, and whose state outlives the exception. -/

namespace Throwing

variable {ε σ α β γ : Type}

def Returns (x : ExceptT ε (StateM σ) α) (s : σ) (a : α) (s' : σ) : Prop :=
  x.run.run s = (.ok a, s')

def Keeps (g : σ → γ) (x : ExceptT ε (StateM σ) α) : Prop := ∀ s, g (x.run.run s).2 = g s

def KeepsIfThrows (g : σ → γ) (x : ExceptT ε (StateM σ) α) : Prop :=
  ∀ s e s', x.run.run s = (.error e, s') → g s' = g s

def Total (x : ExceptT ε (StateM σ) α) : Prop := ∀ s, ∃ a s', Returns x s a s'

section
variable {x : ExceptT ε (StateM σ) α} {f : α → ExceptT ε (StateM σ) β} {s s' : σ}

theorem returns_pure_iff {a b : α} :
    Returns (pure a : ExceptT ε (StateM σ) α) s b s' ↔ a = b ∧ s = s' := by
  have hrun : (pure a : ExceptT ε (StateM σ) α).run.run s = (.ok a, s) := rfl
  rw [Returns, hrun, Prod.mk.injEq, Except.ok.injEq]

theorem returns_modify_iff {h : σ → σ} {b : PUnit} :
    Returns (modify h : ExceptT ε (StateM σ) PUnit) s b s' ↔ h s = s' := by
  have hrun : (modify h : ExceptT ε (StateM σ) PUnit).run.run s = (.ok ⟨⟩, h s) := rfl
  rw [Returns, hrun, Prod.mk.injEq, Except.ok.injEq]
  exact and_iff_right rfl

theorem returns_liftM_iff {r : Except ε α} {b : α} :
    Returns (liftM r : ExceptT ε (StateM σ) α) s b s' ↔ r = .ok b ∧ s = s' := by
  have hrun : (liftM r : ExceptT ε (StateM σ) α).run.run s = (r, s) := rfl
  rw [Returns, hrun, Prod.mk.injEq]

theorem run_bind (x : ExceptT ε (StateM σ) α) (f : α → ExceptT ε (StateM σ) β) (s : σ) :
    (x >>= f).run.run s = match x.run.run s with
      | (.ok a, s') => (f a).run.run s'
      | (.error e, s') => (.error e, s') := by
  rw [ExceptT.run_bind, StateT.run_bind]
  rcases x.run.run s with ⟨e | a, s'⟩ <;> rfl

theorem returns_bind_iff {b : β} :
    Returns (x >>= f) s b s' ↔ ∃ a s₁, Returns x s a s₁ ∧ Returns (f a) s₁ b s' := by
  unfold Returns
  rw [run_bind]
  rcases x.run.run s with ⟨e | a, s₁⟩
  · refine iff_of_false nofun ?_
    rintro ⟨a, s₂, h, -⟩
    cases h
  · constructor
    · intro h
      exact ⟨a, s₁, rfl, h⟩
    · rintro ⟨a', s₂, h, hf⟩
      cases h
      exact hf

end

section
variable {g : σ → γ} {x : ExceptT ε (StateM σ) α} {f : α → ExceptT ε (StateM σ) β}

theorem keeps_pure (a : α) : Keeps g (pure a : ExceptT ε (StateM σ) α) := fun _ => rfl

theorem keeps_modify {h : σ → σ} (hg : ∀ s, g (h s) = g s) :
    Keeps g (modify h : ExceptT ε (StateM σ) PUnit) := hg

theorem keeps_liftM (r : Except ε α) : Keeps g (liftM r : ExceptT ε (StateM σ) α) := fun _ => rfl

theorem Keeps.bind (hx : Keeps g x) (hf : ∀ a, Keeps g (f a)) : Keeps g (x >>= f) := by
  intro s
  have hfirst := hx s
  rw [run_bind]
  rcases hrun : x.run.run s with ⟨e | a, s'⟩ <;> rw [hrun] at hfirst
  · exact hfirst
  · exact (hf a s').trans hfirst

theorem KeepsIfThrows.bind_of_keeps (hx : Keeps g x) (hf : ∀ a, KeepsIfThrows g (f a)) :
    KeepsIfThrows g (x >>= f) := by
  intro s e s' h
  have hfirst := hx s
  rw [run_bind] at h
  rcases hrun : x.run.run s with ⟨e₁ | a, s₁⟩ <;> rw [hrun] at h hfirst
  · cases h
    exact hfirst
  · exact (hf a s₁ e s' h).trans hfirst

theorem keeps_forM {ι : Type} {l : List ι} {f : ι → ExceptT ε (StateM σ) PUnit}
    (h : ∀ i ∈ l, Keeps g (f i)) : Keeps g (l.forM f) := by
  induction l with
  | nil => exact keeps_pure PUnit.unit
  | cons i l ih =>
    obtain ⟨hi, hl⟩ := List.forall_mem_cons.mp h
    exact hi.bind fun _ => ih hl

theorem total_pure (a : α) : Total (pure a : ExceptT ε (StateM σ) α) := fun s => ⟨a, s, rfl⟩

theorem Total.bind (hx : Total x) (hf : ∀ a, Total (f a)) : Total (x >>= f) := by
  intro s
  obtain ⟨a, s₁, ha⟩ := hx s
  obtain ⟨b, s₂, hb⟩ := hf a s₁
  exact ⟨b, s₂, returns_bind_iff.mpr ⟨a, s₁, ha, hb⟩⟩

theorem total_forM {ι : Type} {l : List ι} {f : ι → ExceptT ε (StateM σ) PUnit}
    (h : ∀ i ∈ l, Total (f i)) : Total (l.forM f) := by
  induction l with
  | nil => exact total_pure PUnit.unit
  | cons i l ih =>
    obtain ⟨hi, hl⟩ := List.forall_mem_cons.mp h
    exact hi.bind fun _ => ih hl

end

end Throwing
