import StereoCamera.Api.CommandSections

/-! What two commands that run at the same time can leave: the first sections in some order,
the camera recorded before or after the other's first section, and the calls on the slot in
some order. -/

namespace StereoCamera.ClientHandler
open Transition

/-! ## What is left at the end -/

namespace Views
variable {v : Views} {camera : String} {p q : Plan} {cmd : Command} {c c' : String}

theorem setCamera_comm :
    (v.setCamera c camera).setCamera c' camera = (v.setCamera c' camera).setCamera c camera := by
  by_cases hc : c = c'
  · rw [hc]
  · unfold setCamera
    dsimp only
    rw [Function.update_of_ne (Ne.symm hc), Function.update_of_ne hc, Function.update_comm hc]

theorem record_comm :
    (v.record camera p).record camera q = (v.record camera q).record camera p := by
  unfold record
  cases p.records with
  | none => rfl
  | some c =>
    cases q.records with
    | none => rfl
    | some c' => exact setCamera_comm

theorem record_perform :
    (v.perform camera p).record camera q = (v.record camera q).perform camera p := by
  unfold record
  cases q.records with
  | none => rfl
  | some c => rfl

theorem record_of_none (hp : p.records = none) : v.record camera p = v := by
  unfold record
  rw [hp]

@[simp] theorem record_nothing (call : ViewCall) : v.record camera ⟨none, call⟩ = v := rfl

@[simp] theorem perform_nothing (o : Option String) : v.perform camera ⟨o, .nothing⟩ = v := by
  show { v with slots := Function.update v.slots camera ((v.slots camera).map id) } = v
  rw [Option.map_id_fun, id, Function.update_eq_self]

theorem first_perform : (v.perform camera p).first cmd = (v.first cmd).perform camera p := rfl

theorem plan_perform : (v.perform camera p).plan cmd = v.plan cmd := rfl

end Views

section
variable (camera : String)

def Drained (v : Views) (p q : Plan) (w : Views) : Prop :=
  w = (((v.record camera p).record camera q).perform camera p).perform camera q ∨
    w = (((v.record camera p).record camera q).perform camera q).perform camera p

/-- One command is past its first section: it may record the camera before the first section
of the other one. -/
def Halved (v : Views) (p : Plan) (cmd : Command) (w : Views) : Prop :=
  Drained camera (v.first cmd) p (v.plan cmd) w ∨
    Drained camera ((v.record camera p).first cmd) ⟨none, p.call⟩ ((v.record camera p).plan cmd) w

def Outcome (v : Views) (a b : Command) (w : Views) : Prop :=
  Halved camera (v.first a) (v.plan a) b w ∨ Halved camera (v.first b) (v.plan b) a w

end

section
variable {camera : String} {v v' w : Views} {p p' q : Plan} {cmd : Command}

theorem Drained.symm (h : Drained camera v p q w) : Drained camera v q p w := by
  unfold Drained at h ⊢
  rw [Views.record_comm, or_comm]
  exact h

theorem Drained.of_progress (hp : Progress camera v p v' p') (h : Drained camera v' p' q w) :
    Drained camera v p q w := by
  cases hp with
  | same => exact h
  | record => exact h
  | perform hnone =>
    -- Of the first command only the call was left; nothing commutes with everything.
    have hw : w = ((v.perform camera p).record camera q).perform camera q := by
      simpa only [Drained, Views.record_nothing, Views.perform_nothing, or_self] using h
    refine .inl ?_
    rw [hw, Views.record_of_none hnone, Views.record_perform]

theorem Halved.of_progress (hp : Progress camera v p v' p') (h : Halved camera v' p' cmd w) :
    Halved camera v p cmd w := by
  cases hp with
  | same => exact h
  | record =>
    unfold Halved at h
    rw [Views.record_nothing, or_self] at h
    exact .inr h
  | perform hnone =>
    unfold Halved at h
    rw [Views.record_nothing, or_self, Views.plan_perform, Views.first_perform] at h
    exact .inl (.of_progress (.perform hnone) h)

theorem halved_nothing : Halved camera v ⟨none, .nothing⟩ cmd w ↔
    w = ((v.first cmd).record camera (v.plan cmd)).perform camera (v.plan cmd) := by
  simp only [Halved, Drained, Views.record_nothing, Views.perform_nothing, or_self]

theorem drained_nothing : Drained camera v ⟨none, .nothing⟩ ⟨none, .nothing⟩ w ↔ w = v := by
  simp only [Drained, Views.record_nothing, Views.perform_nothing, or_self]

end

/-! ## Every run ends in an outcome -/

def Pair.swap (p : Pair) : Pair := ⟨p.handler, p.second, p.first⟩

theorem pairStep_swap (p : Pair) (b : Bool) :
    pairStep p.swap (!b) = (pairStep p b).map Pair.swap := by
  cases b with
  | true =>
    show (p.handler.advance p.first).map _ = ((p.handler.advance p.first).map _).map _
    rw [Option.map_map]
    rfl
  | false =>
    show (p.handler.advance p.second).map _ = ((p.handler.advance p.second).map _).map _
    rw [Option.map_map]
    rfl

theorem run_swap (p : Pair) (sched : List Bool) :
    run pairStep p.swap (sched.map (!·)) = (run pairStep p sched).map Pair.swap := by
  induction sched generalizing p with
  | nil => rfl
  | cons b sched ih =>
    rw [List.map_cons, run_cons, pairStep_swap, run_cons]
    cases hstep : pairStep p b with
    | none => rfl
    | some p' => exact ih p'

section
variable {h h' : ClientHandler} {t t' u : Task} {cmd : Command} {sched : List Bool}

theorem run_true_eq_some {p : Pair} (hrun : run pairStep ⟨h, t, u⟩ (true :: sched) = some p) :
    ∃ h' t', h.advance t = some (h', t') ∧ run pairStep ⟨h', t', u⟩ sched = some p := by
  obtain ⟨r, hr, hrun⟩ := (run_cons_eq_some pairStep).mp hrun
  obtain ⟨⟨h', t'⟩, hadv, rfl⟩ := Option.map_eq_some_iff.mp hr
  exact ⟨h', t', hadv, hrun⟩

theorem run_false_eq_some {p : Pair} (hrun : run pairStep ⟨h, t, u⟩ (false :: sched) = some p) :
    ∃ h' u', h.advance u = some (h', u') ∧ run pairStep ⟨h', t, u'⟩ sched = some p := by
  obtain ⟨r, hr, hrun⟩ := (run_cons_eq_some pairStep).mp hrun
  obtain ⟨⟨h', u'⟩, hadv, rfl⟩ := Option.map_eq_some_iff.mp hr
  exact ⟨h', u', hadv, hrun⟩

structure Ends (h : ClientHandler) (P : Views → Prop) (h' : ClientHandler) : Prop where
  consistent : Consistent h'
  camera : h'.captureCamera = h.captureCamera
  views : P h'.views

theorem drained_of_run (hh : Consistent h) (ht : t.Underway h.captureCamera)
    (hu : u.Underway h.captureCamera)
    (hrun : run pairStep ⟨h, t, u⟩ sched = some ⟨h', .done, .done⟩) :
    Ends h (Drained h.captureCamera h.views t.rest u.rest) h' := by
  induction sched generalizing h t u with
  | nil =>
    cases Option.some.inj hrun
    exact ⟨hh, rfl, drained_nothing.mpr rfl⟩
  | cons b sched ih =>
    cases b with
    | true =>
      obtain ⟨h₁, t₁, hadv, hrun⟩ := run_true_eq_some hrun
      obtain ⟨hh₁, hcam, ht₁, hprog⟩ := advance_spec hh ht hadv
      have hend := ih hh₁ (hcam ▸ ht₁) (hcam ▸ hu) hrun
      refine ⟨hend.consistent, hend.camera.trans hcam, ?_⟩
      exact .of_progress hprog (hcam ▸ hend.views)
    | false =>
      obtain ⟨h₁, u₁, hadv, hrun⟩ := run_false_eq_some hrun
      obtain ⟨hh₁, hcam, hu₁, hprog⟩ := advance_spec hh hu hadv
      have hend := ih hh₁ (hcam ▸ ht) (hcam ▸ hu₁) hrun
      refine ⟨hend.consistent, hend.camera.trans hcam, ?_⟩
      exact (Drained.of_progress hprog (hcam ▸ hend.views).symm).symm

theorem halved_of_run (hh : Consistent h) (ht : t.Underway h.captureCamera)
    (hrun : run pairStep ⟨h, t, .command cmd⟩ sched = some ⟨h', .done, .done⟩) :
    Ends h (Halved h.captureCamera h.views t.rest cmd) h' := by
  induction sched generalizing h t with
  | nil => exact absurd (Option.some.inj hrun) nofun
  | cons b sched ih =>
    cases b with
    | true =>
      obtain ⟨h₁, t₁, hadv, hrun⟩ := run_true_eq_some hrun
      obtain ⟨hh₁, hcam, ht₁, hprog⟩ := advance_spec hh ht hadv
      have hend := ih hh₁ (hcam ▸ ht₁) hrun
      refine ⟨hend.consistent, hend.camera.trans hcam, ?_⟩
      exact .of_progress hprog (hcam ▸ hend.views)
    | false =>
      obtain ⟨h₁, u₁, hadv, hrun⟩ := run_false_eq_some hrun
      have hspec := firstSection_spec hh cmd
      rw [Option.some.inj hadv] at hspec
      obtain ⟨hh₁, hcam, hu₁, hviews, hrest⟩ := hspec
      have hend := drained_of_run hh₁ (hcam ▸ ht) (hcam ▸ hu₁) hrun
      refine ⟨hend.consistent, hend.camera.trans hcam, .inl ?_⟩
      rw [← hviews, ← hrest, ← hcam]
      exact hend.views

theorem outcome_of_run (hh : Consistent h) {a b : Command}
    (hrun : run pairStep ⟨h, .command a, .command b⟩ sched = some ⟨h', .done, .done⟩) :
    Ends h (Outcome h.captureCamera h.views a b) h' := by
  cases sched with
  | nil => exact absurd (Option.some.inj hrun) nofun
  | cons first sched =>
    cases first with
    | true =>
      obtain ⟨h₁, t₁, hadv, hrun⟩ := run_true_eq_some hrun
      have hspec := firstSection_spec hh a
      rw [Option.some.inj hadv] at hspec
      obtain ⟨hh₁, hcam, ht₁, hviews, hrest⟩ := hspec
      have hend := halved_of_run hh₁ (hcam ▸ ht₁) hrun
      refine ⟨hend.consistent, hend.camera.trans hcam, .inl ?_⟩
      rw [← hviews, ← hrest, ← hcam]
      exact hend.views
    | false =>
      obtain ⟨h₁, u₁, hadv, hrun⟩ := run_false_eq_some hrun
      have hspec := firstSection_spec hh b
      rw [Option.some.inj hadv] at hspec
      obtain ⟨hh₁, hcam, hu₁, hviews, hrest⟩ := hspec
      have hswap := run_swap ⟨h₁, .command a, u₁⟩ sched
      rw [hrun] at hswap
      have hend := halved_of_run hh₁ (hcam ▸ hu₁) hswap
      refine ⟨hend.consistent, hend.camera.trans hcam, .inr ?_⟩
      rw [← hviews, ← hrest, ← hcam]
      exact hend.views

/-! ## Every outcome has a run -/

theorem reachable_swap {p q : Pair} (hpq : Reachable pairStep p q) :
    Reachable pairStep p.swap q.swap := by
  obtain ⟨sched, hrun⟩ := hpq
  refine ⟨sched.map (!·), ?_⟩
  rw [run_swap, hrun]
  rfl

theorem reachable_advance (u : Task) (hadv : h.advance t = some (h', t')) :
    Reachable pairStep ⟨h, t, u⟩ ⟨h', t', u⟩ := by
  refine ⟨[true], ?_⟩
  rw [run_cons, pairStep, hadv]
  rfl

theorem reachable_first (h : ClientHandler) (cmd : Command) (u : Task) :
    Reachable pairStep ⟨h, .command cmd, u⟩ ⟨(h.firstSection cmd).1, (h.firstSection cmd).2, u⟩ :=
  reachable_advance u rfl

structure Proceeds (h : ClientHandler) (t : Task) (v : Views) (p : Plan) (h' : ClientHandler)
    (t' : Task) : Prop where
  reachable : ∀ u, Reachable pairStep ⟨h, t, u⟩ ⟨h', t', u⟩
  consistent : Consistent h'
  camera : h'.captureCamera = h.captureCamera
  underway : t'.Underway h.captureCamera
  views : h'.views = v
  rest : t'.rest = p

theorem Proceeds.cons {v : Views} {p : Plan} {h₁ : ClientHandler} {t₁ : Task}
    (hadv : h.advance t = some (h₁, t₁)) (hcam : h₁.captureCamera = h.captureCamera)
    (hp : Proceeds h₁ t₁ v p h' t') : Proceeds h t v p h' t' where
  reachable u := (reachable_advance u hadv).trans (hp.reachable u)
  consistent := hp.consistent
  camera := hp.camera.trans hcam
  underway := hcam ▸ hp.underway
  views := hp.views
  rest := hp.rest

theorem exists_records (hh : Consistent h) (ht : t.Underway h.captureCamera) :
    ∃ h' t', Proceeds h t (h.views.record h.captureCamera t.rest) ⟨none, t.rest.call⟩ h' t' := by
  have hrecord : ∀ c types, Proceeds h (.startCamera c h.captureCamera types)
      (h.views.setCamera c h.captureCamera) ⟨none, .start types.toFinset⟩
      (h.setCamera c h.captureCamera) (.startSlot h.captureCamera types) := fun c types =>
    ⟨fun u => reachable_advance u rfl, hh.setCamera c, rfl, rfl, views_setCamera c _, rfl⟩
  have hnothing : t.rest.records = none →
      Proceeds h t (h.views.record h.captureCamera t.rest) ⟨none, t.rest.call⟩ h t := by
    intro hnone
    refine ⟨fun u => .refl _, hh, rfl, ht, ?_, ?_⟩
    · rw [Views.record_of_none hnone]
    · rw [← hnone]
  cases t with
  | command cmd => exact ht.elim
  | startIds c types =>
    obtain ⟨m, hm, -⟩ := hh.manager
    refine ⟨_, _, (hrecord c types).cons ?_ rfl⟩
    rw [advance, hm, Option.map_some, captureCamera_of_manager hm]
  | startCamera c cam types =>
    obtain rfl : cam = h.captureCamera := ht
    exact ⟨_, _, hrecord c types⟩
  | startSlot cam types => exact ⟨h, _, hnothing rfl⟩
  | stopIds types => exact ⟨h, _, hnothing rfl⟩
  | stopSlot cam types => exact ⟨h, _, hnothing rfl⟩
  | done => exact ⟨h, _, hnothing rfl⟩

theorem exists_performs (hh : Consistent h) (ht : t.Underway h.captureCamera)
    (hnone : t.rest.records = none) :
    ∃ h', Proceeds h t (h.views.perform h.captureCamera t.rest) ⟨none, .nothing⟩ h' .done := by
  obtain ⟨m, hm, -⟩ := hh.manager
  have hcall : ∀ {m' : SDKSlotManager} {call : ViewCall} {t : Task}, Call h call m' →
      h.advance t = some (h.setSdkManager m', .done) →
      Proceeds h t (h.views.perform h.captureCamera ⟨none, call⟩) ⟨none, .nothing⟩
        (h.setSdkManager m') .done := by
    intro m' call t hm' hadv
    obtain ⟨hcons, hcam, hviews⟩ := hm'.consistent hh
    exact ⟨fun u => reachable_advance u hadv, hcons, hcam, trivial, hviews, rfl⟩
  have hstop : ∀ types, h.advance (.stopSlot h.captureCamera types) =
      some (h.setSdkManager (m.stopCapture h.captureCamera types).1, .done) := by
    intro types
    rw [advance, stopCamera, hm, Option.map_some]
    rfl
  cases t with
  | command cmd => exact ht.elim
  | startIds c types => exact absurd hnone (Option.some_ne_none c)
  | startCamera c cam types => exact absurd hnone (Option.some_ne_none c)
  | startSlot cam types =>
    obtain rfl : cam = h.captureCamera := ht
    refine ⟨_, hcall (call_startCapture hh hm types) ?_⟩
    rw [advance, startSlotManager, hm, Option.map_some]
    rfl
  | stopIds types =>
    refine ⟨_, (hcall (call_stopCapture hh hm types) (hstop types)).cons ?_ rfl⟩
    rw [advance, hm, Option.map_some, captureCamera_of_manager hm]
  | stopSlot cam types =>
    obtain rfl : cam = h.captureCamera := ht
    exact ⟨_, hcall (call_stopCapture hh hm types) (hstop types)⟩
  | done =>
    refine ⟨h, fun u => .refl _, hh, rfl, trivial, ?_, rfl⟩
    exact (Views.perform_nothing _).symm

def CanEnd (p : Pair) (w : Views) : Prop :=
  ∃ h', Reachable pairStep p ⟨h', .done, .done⟩ ∧ h'.views = w

theorem canEnd_of_reachable {p q : Pair} {w : Views} (hpq : Reachable pairStep p q)
    (hq : CanEnd q w) : CanEnd p w := by
  obtain ⟨h', hreach, hw⟩ := hq
  exact ⟨h', hpq.trans hreach, hw⟩

theorem canEnd_swap {p : Pair} {w : Views} (hp : CanEnd p w) : CanEnd p.swap w := by
  obtain ⟨h', hreach, hw⟩ := hp
  exact ⟨h', reachable_swap hreach, hw⟩

theorem canEnd_drained (hh : Consistent h) (ht : t.Underway h.captureCamera)
    (hu : u.Underway h.captureCamera) {w : Views}
    (hw : Drained h.captureCamera h.views t.rest u.rest w) : CanEnd ⟨h, t, u⟩ w := by
  obtain ⟨h₁, t₁, hp₁⟩ := exists_records hh ht
  obtain ⟨h₂, u₂, hp₂⟩ := exists_records hp₁.consistent (hp₁.camera ▸ hu)
  have hcam₂ : h₂.captureCamera = h.captureCamera := hp₂.camera.trans hp₁.camera
  have ht₂ : t₁.Underway h₂.captureCamera := hcam₂ ▸ hp₁.underway
  have hu₂ : u₂.Underway h₂.captureCamera := hp₂.camera ▸ hp₂.underway
  have hviews₂ : h₂.views =
      (h.views.record h.captureCamera t.rest).record h.captureCamera u.rest := by
    rw [hp₂.views, hp₁.views, hp₁.camera]
  have hrecorded : Reachable pairStep ⟨h, t, u⟩ ⟨h₂, t₁, u₂⟩ :=
    (hp₁.reachable u).trans (reachable_swap (hp₂.reachable t₁))
  refine canEnd_of_reachable hrecorded ?_
  rcases hw with hw | hw
  · obtain ⟨h₃, hp₃⟩ := exists_performs hp₂.consistent ht₂ (by rw [hp₁.rest])
    obtain ⟨h₄, hp₄⟩ := exists_performs hp₃.consistent (hp₃.camera ▸ hu₂) (by rw [hp₂.rest])
    refine ⟨h₄, (hp₃.reachable u₂).trans (reachable_swap (hp₄.reachable .done)), ?_⟩
    rw [hp₄.views, hp₃.views, hviews₂, hp₃.camera, hcam₂, hp₁.rest, hp₂.rest, hw]
    rfl
  · obtain ⟨h₃, hp₃⟩ := exists_performs hp₂.consistent hu₂ (by rw [hp₂.rest])
    obtain ⟨h₄, hp₄⟩ := exists_performs hp₃.consistent (hp₃.camera ▸ ht₂) (by rw [hp₁.rest])
    refine ⟨h₄, (reachable_swap (hp₃.reachable t₁)).trans (hp₄.reachable .done), ?_⟩
    rw [hp₄.views, hp₃.views, hviews₂, hp₃.camera, hcam₂, hp₁.rest, hp₂.rest, hw]
    rfl

theorem canEnd_halved (hh : Consistent h) (ht : t.Underway h.captureCamera) {w : Views}
    (hw : Halved h.captureCamera h.views t.rest cmd w) : CanEnd ⟨h, t, .command cmd⟩ w := by
  have hfirst : ∀ {h : ClientHandler} {t : Task}, Consistent h → t.Underway h.captureCamera →
      Drained h.captureCamera (h.views.first cmd) t.rest (h.views.plan cmd) w →
      CanEnd ⟨h, t, .command cmd⟩ w := by
    intro h t hh ht hw
    obtain ⟨hh₁, hcam, hu₁, hviews, hrest⟩ := firstSection_spec hh cmd
    have hreach : Reachable pairStep ⟨h, t, .command cmd⟩
        ⟨(h.firstSection cmd).1, t, (h.firstSection cmd).2⟩ :=
      reachable_swap (reachable_first h cmd t)
    refine canEnd_of_reachable hreach ?_
    refine canEnd_drained hh₁ (hcam.symm ▸ ht) (hcam.symm ▸ hu₁) ?_
    rw [hcam, hviews, hrest]
    exact hw
  rcases hw with hw | hw
  · exact hfirst hh ht hw
  · obtain ⟨h₁, t₁, hp₁⟩ := exists_records hh ht
    refine canEnd_of_reachable (hp₁.reachable _) ?_
    refine hfirst hp₁.consistent (hp₁.camera.symm ▸ hp₁.underway) ?_
    rw [hp₁.camera, hp₁.views, hp₁.rest]
    exact hw

theorem canEnd_outcome (hh : Consistent h) {a b : Command} {w : Views}
    (hw : Outcome h.captureCamera h.views a b w) : CanEnd ⟨h, .command a, .command b⟩ w := by
  have hfirst : ∀ a b : Command, Halved h.captureCamera (h.views.first a) (h.views.plan a) b w →
      CanEnd ⟨h, .command a, .command b⟩ w := by
    intro a b hw
    obtain ⟨hh₁, hcam, ht₁, hviews, hrest⟩ := firstSection_spec hh a
    refine canEnd_of_reachable (reachable_first h a _) ?_
    refine canEnd_halved hh₁ (hcam.symm ▸ ht₁) ?_
    rw [hcam, hviews, hrest]
    exact hw
  rcases hw with hw | hw
  · exact hfirst a b hw
  · exact canEnd_swap (hfirst b a hw)

/-! ## A command alone -/

def Views.alone (v : Views) (camera : String) (cmd : Command) : Views :=
  ((v.first cmd).record camera (v.plan cmd)).perform camera (v.plan cmd)

theorem ends_handle (hh : Consistent h) (cmd : Command) :
    Ends h (· = h.views.alone h.captureCamera cmd) (h.handle cmd).1 := by
  obtain ⟨sched, hrun⟩ := run_alone h cmd
  obtain ⟨hcons, hcam, hviews⟩ := halved_of_run (t := .done) hh trivial hrun
  exact ⟨hcons, hcam, halved_nothing.mp hviews⟩

end

end StereoCamera.ClientHandler
