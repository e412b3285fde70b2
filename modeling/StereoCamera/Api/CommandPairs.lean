import StereoCamera.Api.Outcomes

/-! Which pairs of commands can only leave what one of their serial orders leaves. -/

namespace StereoCamera

namespace SlotView
variable {k : SlotView} {T U S R : Finset DataType}

structure Sound (k : SlotView) : Prop where
  nonneg : 0 ≤ k.count
  covered : channelsOf k.types ⊆ k.channels

theorem mem_leftover {ch : String} : ch ∈ k.leftover T ↔
    ch ∈ k.channels ∧ (ch ∈ channelsOf T → ch ∈ channelsOf (k.types \ T)) := by
  unfold leftover
  rw [Finset.mem_sdiff, Finset.mem_sdiff, not_and, not_not]

theorem mem_channelsOf {ch : String} :
    ch ∈ channelsOf T ↔ ∃ t ∈ T, zmqChannel (dataTypeToGroup t) = ch :=
  Finset.mem_image

theorem stop_stop_channels (hk : 1 < k.count) : ((k.stop T).stop U).channels =
    (k.channels \ (channelsOf T \ channelsOf (k.types \ T))) \
      (channelsOf U \ channelsOf ((k.types \ T) \ U)) := by
  have hcount : 0 < (k.stop T).count := by
    show 0 < max (k.count - 1) 0
    omega
  show (if 0 < (k.stop T).count then (k.stop T).leftover U else _) = _
  rw [if_pos hcount]
  show (if 0 < k.count then k.leftover T else k.channels) \ _ = _
  rw [if_pos (by omega)]
  rfl

theorem stop_comm (hk : k.Sound) (hcount : k.count ≠ 1) :
    (k.stop T).stop U = (k.stop U).stop T := by
  -- As long as a subscriber remains, the order of two stops does not matter.
  have htypes : (k.types \ T) \ U = (k.types \ U) \ T := sdiff_right_comm _ _ _
  have hchannels : ((k.stop T).stop U).channels = ((k.stop U).stop T).channels := by
    rcases lt_or_gt_of_ne hcount with hlt | hgt
    · have hzero : k.count = 0 := by
        have := hk.nonneg
        omega
      have hkeep : ∀ T U : Finset DataType, ((k.stop T).stop U).channels = k.channels := by
        intro T U
        show (if 0 < max (k.count - 1) 0 then _ else (if 0 < k.count then _ else _)) = _
        rw [hzero, if_neg (by decide), if_neg (by decide)]
      rw [hkeep, hkeep]
    · -- A channel goes with the last of its types, whichever stop that is in.
      have hsub : ∀ {T U : Finset DataType} {ch : String},
          ch ∈ ((k.stop T).stop U).channels → ch ∈ ((k.stop U).stop T).channels := by
        intro T U ch hch
        rw [stop_stop_channels hgt, Finset.mem_sdiff, Finset.mem_sdiff, Finset.mem_sdiff,
          Finset.mem_sdiff, not_and, not_not, not_and, not_not] at hch ⊢
        obtain ⟨⟨hk, hT⟩, hU⟩ := hch
        refine ⟨⟨hk, fun hchU => ?_⟩, fun hchT => ?_⟩
        · exact channelsOf_mono (Finset.sdiff_subset_sdiff Finset.sdiff_subset le_rfl)
            (hU hchU)
        · by_cases hchU : ch ∈ channelsOf U
          · rw [sdiff_right_comm]
            exact hU hchU
          · obtain ⟨t, ht, rfl⟩ := mem_channelsOf.mp (hT hchT)
            refine mem_channelsOf.mpr ⟨t, ?_, rfl⟩
            rw [sdiff_right_comm, Finset.mem_sdiff]
            exact ⟨ht, fun htU => hchU (mem_channelsOf.mpr ⟨t, htU, rfl⟩)⟩
      exact Finset.Subset.antisymm (fun _ => hsub) (fun _ => hsub)
  have hsame : ∀ {a b : SlotView}, a.config = b.config → a.count = b.count →
      a.types = b.types → a.channels = b.channels → a = b := by
    rintro ⟨⟩ ⟨⟩ rfl rfl rfl rfl
    rfl
  exact hsame rfl rfl htypes hchannels

end SlotView

namespace ClientHandler

section
variable (camera : String)

/-- When the first section of `a` comes first, the outcome is that of a serial order. -/
def SettledFirst (v : Views) (a b : Command) : Prop :=
  ∀ w, Halved camera (v.first a) (v.plan a) b w →
    w = (v.alone camera a).alone camera b ∨ w = (v.alone camera b).alone camera a

def Settled (v : Views) (a b : Command) : Prop :=
  ∀ w, Outcome camera v a b w →
    w = (v.alone camera a).alone camera b ∨ w = (v.alone camera b).alone camera a

end

section
variable {camera c : String} {v w : Views} {a b cmd : Command} {s s' : SessionView}
  {p : Plan} {f g : SlotView → SlotView}

theorem settled_iff : Settled camera v a b ↔
    SettledFirst camera v a b ∧ SettledFirst camera v b a := by
  unfold Settled SettledFirst Outcome
  constructor
  · intro h
    exact ⟨fun w hw => h w (.inl hw), fun w hw => (h w (.inr hw)).symm⟩
  · rintro ⟨hab, hba⟩ w (hw | hw)
    · exact hab w hw
    · exact (hba w hw).symm

theorem Settled.symm (h : Settled camera v a b) : Settled camera v b a :=
  settled_iff.mpr (settled_iff.mp h).symm

/-! ## Commands of different clients -/

theorem plan_records (s : SessionView) (cmd : Command) :
    (plan s cmd).records = none ∨ (plan s cmd).records = some cmd.client := by
  cases cmd with
  | connect c => exact .inl rfl
  | disconnect c => exact .inl rfl
  | stopCapture c types => exact .inl rfl
  | startCapture c types =>
    rw [plan]
    split_ifs
    · exact .inr rfl
    · exact .inl rfl

namespace Views

theorem first_comm (hab : a.client ≠ b.client) : (v.first a).first b = (v.first b).first a := by
  unfold first
  dsimp only
  rw [Function.update_of_ne hab.symm, Function.update_of_ne hab, Function.update_comm hab]

theorem plan_first_of_ne (hab : a.client ≠ b.client) : (v.first a).plan b = v.plan b := by
  unfold plan first
  dsimp only
  rw [Function.update_of_ne hab.symm]

theorem setCamera_first_of_ne (hc : c ≠ cmd.client) :
    (v.setCamera c camera).first cmd = (v.first cmd).setCamera c camera := by
  unfold first setCamera
  dsimp only
  rw [Function.update_of_ne hc.symm, Function.update_of_ne hc, Function.update_comm hc]

theorem plan_setCamera_of_ne (hc : c ≠ cmd.client) :
    (v.setCamera c camera).plan cmd = v.plan cmd := by
  unfold plan setCamera
  dsimp only
  rw [Function.update_of_ne hc.symm]

theorem record_of_ne (hab : a.client ≠ b.client) :
    (v.record camera (ClientHandler.plan s a)).first b =
        (v.first b).record camera (ClientHandler.plan s a) ∧
      (v.record camera (ClientHandler.plan s a)).plan b = v.plan b := by
  unfold record
  rcases plan_records s a with hr | hr
  · rw [hr]
    exact ⟨rfl, rfl⟩
  · rw [hr]
    exact ⟨setCamera_first_of_ne hab, plan_setCamera_of_ne hab⟩

theorem alone_alone_of_ne (hab : a.client ≠ b.client) :
    (v.alone camera a).alone camera b =
      (((((v.first a).first b).record camera (v.plan a)).record camera (v.plan b)).perform
        camera (v.plan a)).perform camera (v.plan b) := by
  have hfirst : (v.alone camera a).first b =
      (((v.first a).first b).record camera (v.plan a)).perform camera (v.plan a) := by
    unfold alone
    rw [first_perform]
    exact congrArg (perform · camera (v.plan a)) (record_of_ne hab).1
  have hplan : (v.alone camera a).plan b = v.plan b := by
    unfold alone
    rw [plan_perform]
    exact (record_of_ne hab).2.trans (plan_first_of_ne hab)
  show (((v.alone camera a).first b).record camera ((v.alone camera a).plan b)).perform camera
    ((v.alone camera a).plan b) = _
  rw [hplan, hfirst, record_perform]

end Views

theorem settledFirst_of_ne (hab : a.client ≠ b.client) : SettledFirst camera v a b := by
  intro w hw
  rw [Views.alone_alone_of_ne hab, Views.alone_alone_of_ne hab.symm, Views.first_comm hab.symm,
    Views.record_comm (p := v.plan b)]
  rcases hw with hw | hw
  · rw [Views.plan_first_of_ne hab] at hw
    exact hw
  · have hrecord : ((v.first a).record camera (v.plan a)).first b =
          ((v.first a).first b).record camera (v.plan a) ∧
        ((v.first a).record camera (v.plan a)).plan b = (v.first a).plan b :=
      Views.record_of_ne hab
    have hw' : Drained camera (((v.first a).first b).record camera (v.plan a))
        ⟨none, (v.plan a).call⟩ (v.plan b) w := by
      rw [← Views.plan_first_of_ne (v := v) hab]
      exact hrecord.1 ▸ hrecord.2 ▸ hw
    exact hw'

theorem settled_of_ne (hab : a.client ≠ b.client) : Settled camera v a b :=
  settled_iff.mpr ⟨settledFirst_of_ne hab, settledFirst_of_ne hab.symm⟩

/-! ## Commands of one client -/

theorem alone_of_nothing (hp : v.plan a = ⟨none, .nothing⟩) : v.alone camera a = v.first a := by
  unfold Views.alone
  rw [hp, Views.record_nothing, Views.perform_nothing]

theorem settledFirst_of_nothing (hp : v.plan a = ⟨none, .nothing⟩) :
    SettledFirst camera v a b := by
  intro w hw
  rw [hp, halved_nothing] at hw
  rw [alone_of_nothing hp]
  exact .inl hw

theorem settledFirst_of_second_nothing (hrec : (v.plan a).records = none)
    (hp : (v.first a).plan b = ⟨none, .nothing⟩) : SettledFirst camera v a b := by
  intro w hw
  have halone : (v.alone camera a).alone camera b =
      ((v.first a).first b).perform camera (v.plan a) := by
    have hplan : (v.alone camera a).plan b = ⟨none, .nothing⟩ := by
      unfold Views.alone
      rw [Views.record_of_none hrec, Views.plan_perform, hp]
    rw [alone_of_nothing hplan, Views.alone, Views.record_of_none hrec, Views.first_perform]
  unfold Halved at hw
  rw [Views.record_of_none hrec, hp] at hw
  rw [halone]
  have hcall : ∀ v' : Views, v'.perform camera ⟨none, (v.plan a).call⟩ =
      v'.perform camera (v.plan a) := fun _ => rfl
  simp only [Drained, Views.record_of_none hrec, Views.record_nothing, Views.perform_nothing,
    hcall, or_self] at hw
  exact .inl hw

theorem settledFirst_of_not_connected (ha : a.client = c)
    (hs : ((v.sessions c).getD {}).connected = false) : SettledFirst camera v a b := by
  refine settledFirst_of_nothing ?_
  unfold Views.plan
  rw [ha]
  cases a with
  | connect c => rfl
  | disconnect c => exact (act_of_not_connected hs (fun _ => Command.noConfusion)).2
  | startCapture c types => exact (act_of_not_connected hs (fun _ => Command.noConfusion)).2
  | stopCapture c types => exact (act_of_not_connected hs (fun _ => Command.noConfusion)).2

variable (v camera c) in
def Views.patch (s : SessionView) (f : SlotView → SlotView) : Views :=
  ⟨Function.update v.sessions c (some s),
    Function.update v.slots camera ((v.slots camera).map f)⟩

variable (camera) in
def recordIn (p : Plan) (s : SessionView) : SessionView :=
  match p.records with
  | none => s
  | some _ => { s with camera := camera }

namespace Views

theorem patch_self (hv : v.sessions c = some s) : v.patch camera c s id = v := by
  unfold patch
  rw [Option.map_id, id, Function.update_eq_self, ← hv, Function.update_eq_self]

theorem first_patch (hc : cmd.client = c) :
    (v.patch camera c s f).first cmd = v.patch camera c (act s cmd) f := by
  subst hc
  unfold first patch
  dsimp only
  rw [Function.update_self, Function.update_idem]
  rfl

theorem plan_patch (hc : cmd.client = c) :
    (v.patch camera c s f).plan cmd = ClientHandler.plan s cmd := by
  subst hc
  unfold plan patch
  dsimp only
  rw [Function.update_self]
  rfl

theorem record_patch (hp : p.records = none ∨ p.records = some c) :
    (v.patch camera c s f).record camera p = v.patch camera c (recordIn camera p s) f := by
  unfold record recordIn
  rcases hp with hp | hp
  · rw [hp]
  · rw [hp]
    unfold setCamera patch
    dsimp only
    rw [Function.update_self, Function.update_idem]
    rfl

theorem perform_patch :
    (v.patch camera c s f).perform camera p = v.patch camera c s (p.call.apply ∘ f) := by
  unfold perform patch
  dsimp only
  rw [Function.update_self, Function.update_idem, Option.map_map]

theorem patch_eq_patch_iff : v.patch camera c s f = v.patch camera c s' g ↔
    s = s' ∧ ∀ k, v.slots camera = some k → f k = g k := by
  unfold patch
  rw [mk.injEq]
  refine and_congr ?_ ?_
  · rw [(Function.update_injective v.sessions c).eq_iff, Option.some.injEq]
  · rw [(Function.update_injective v.slots camera).eq_iff]
    cases v.slots camera with
    | none => exact iff_of_true rfl nofun
    | some k =>
      simp only [Option.map_some, Option.some.injEq, forall_eq']

end Views

variable (v camera c) in
def EitherOrder (s : SessionView) (k l : ViewCall) (w : Views) : Prop :=
  w = v.patch camera c s (l.apply ∘ k.apply) ∨ w = v.patch camera c s (k.apply ∘ l.apply)

theorem drained_patch {q : Plan} (hp : p.records = none ∨ p.records = some c)
    (hq : q.records = none ∨ q.records = some c) :
    Drained camera (v.patch camera c s id) p q w ↔
      EitherOrder camera c v (recordIn camera q (recordIn camera p s)) p.call q.call w := by
  unfold Drained EitherOrder
  rw [Views.record_patch hp, Views.record_patch hq, Views.perform_patch, Views.perform_patch,
    Views.perform_patch, Views.perform_patch]
  rfl

theorem plan_records_of_client (hc : cmd.client = c) (s : SessionView) :
    (plan s cmd).records = none ∨ (plan s cmd).records = some c :=
  hc ▸ plan_records s cmd

theorem halved_patch (hv : v.sessions c = some s) (ha : a.client = c) (hb : b.client = c) :
    Halved camera (v.first a) (v.plan a) b w ↔
      EitherOrder camera c v
          (recordIn camera (plan (act s a) b) (recordIn camera (plan s a) (act (act s a) b)))
          (plan s a).call (plan (act s a) b).call w ∨
        EitherOrder camera c v
          (recordIn camera (plan (recordIn camera (plan s a) (act s a)) b)
            (act (recordIn camera (plan s a) (act s a)) b))
          (plan s a).call (plan (recordIn camera (plan s a) (act s a)) b).call w := by
  have hpa := plan_records_of_client ha s
  have hself : v.patch camera c s id = v := Views.patch_self hv
  have hfirst : v.first a = v.patch camera c (act s a) id := by
    rw [← Views.first_patch ha, hself]
  have hplan : v.plan a = plan s a := by
    calc v.plan a = (v.patch camera c s id).plan a := by rw [hself]
      _ = plan s a := Views.plan_patch ha
  unfold Halved
  rw [hplan, hfirst, Views.first_patch hb, Views.plan_patch hb, Views.record_patch hpa,
    Views.first_patch hb, Views.plan_patch hb, drained_patch hpa (plan_records_of_client hb _),
    drained_patch (.inl rfl) (plan_records_of_client hb _)]
  rfl

theorem alone_alone_patch (hv : v.sessions c = some s) (ha : a.client = c) (hb : b.client = c) :
    (v.alone camera a).alone camera b = v.patch camera c
      (recordIn camera (plan (recordIn camera (plan s a) (act s a)) b)
        (act (recordIn camera (plan s a) (act s a)) b))
      ((plan (recordIn camera (plan s a) (act s a)) b).call.apply ∘ (plan s a).call.apply) := by
  have halone : ∀ {cmd : Command} {s : SessionView} {f : SlotView → SlotView}, cmd.client = c →
      (v.patch camera c s f).alone camera cmd = v.patch camera c
        (recordIn camera (plan s cmd) (act s cmd)) ((plan s cmd).call.apply ∘ f) := by
    intro cmd s f hc
    unfold Views.alone
    rw [Views.plan_patch hc, Views.first_patch hc,
      Views.record_patch (plan_records_of_client hc s), Views.perform_patch]
  have hself : v.patch camera c s id = v := Views.patch_self hv
  calc (v.alone camera a).alone camera b
      = ((v.patch camera c s id).alone camera a).alone camera b := by rw [hself]
    _ = _ := by
      rw [halone ha, halone hb]
      rfl

end

end ClientHandler

end StereoCamera
