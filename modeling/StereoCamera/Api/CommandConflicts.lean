import StereoCamera.Api.CommandPairs

/-! Pairs of commands of one connected client. -/

namespace StereoCamera

theorem union_sdiff_eq_iff_disjoint {α : Type} [DecidableEq α] {S T U : Finset α} :
    (S ∪ T) \ U = (S \ U) ∪ T ↔ Disjoint T U := by
  constructor
  · intro h
    refine Finset.disjoint_left.mpr fun t ht hu => ?_
    have hmem : t ∈ (S ∪ T) \ U := by
      rw [h]
      exact Finset.mem_union_right _ ht
    exact (Finset.mem_sdiff.mp hmem).2 hu
  · intro h
    rw [Finset.union_sdiff_distrib, Finset.sdiff_eq_self_of_disjoint h]

theorem sdiff_sdiff_eq_sdiff_iff {α : Type} [DecidableEq α] {K S U : Finset α} :
    (K \ (S \ U)) \ U = K \ S ↔ K ∩ U ⊆ S := by
  rw [sdiff_sdiff_left, sdiff_sup_self, Finset.sup_eq_union]
  constructor
  · intro h x hx
    obtain ⟨hK, hU⟩ := Finset.mem_inter.mp hx
    by_contra hS
    have hmem : x ∈ K \ (S ∪ U) := by
      rw [h]
      exact Finset.mem_sdiff.mpr ⟨hK, hS⟩
    exact (Finset.mem_sdiff.mp hmem).2 (Finset.mem_union_right _ hU)
  · intro h
    refine Finset.Subset.antisymm
      (Finset.sdiff_subset_sdiff le_rfl Finset.subset_union_left) fun x hx => ?_
    obtain ⟨hK, hS⟩ := Finset.mem_sdiff.mp hx
    refine Finset.mem_sdiff.mpr ⟨hK, fun hSU => ?_⟩
    rcases Finset.mem_union.mp hSU with hS' | hU
    · exact hS hS'
    · exact hS (h (Finset.mem_inter.mpr ⟨hK, hU⟩))

namespace SlotView
variable {k : SlotView} {T U : Finset DataType}

theorem stop_of_last (hk : k.count = 1) : k.stop T =
    { k with count := 0, types := k.types \ T, channels := k.leftover T } := by
  unfold stop
  rw [hk, if_pos (by decide)]
  rfl

theorem stop_stop_of_last (hk : k.count = 1) : (k.stop T).stop U =
    { k with count := 0, types := (k.types \ T) \ U, channels := k.leftover T } := by
  rw [stop_of_last hk]
  rfl

theorem start_stop_eq_self_iff (hk : k.Sound) :
    (k.stop T).start T = k ↔ 0 < k.count ∧ T ⊆ k.types := by
  constructor
  · intro h
    have hcount : max (k.count - 1) 0 + 1 = k.count := congrArg SlotView.count h
    have htypes : (k.types \ T) ∪ T = k.types := congrArg SlotView.types h
    refine ⟨by omega, ?_⟩
    rw [← htypes]
    exact Finset.subset_union_right
  · rintro ⟨hpos, hT⟩
    have hchannels : k.leftover T ∪ channelsOf T = k.channels := by
      have hTk : channelsOf T ⊆ k.channels := (channelsOf_mono hT).trans hk.covered
      refine Finset.Subset.antisymm (Finset.union_subset Finset.sdiff_subset hTk) ?_
      intro ch hch
      by_cases hchT : ch ∈ channelsOf T
      · exact Finset.mem_union_right _ hchT
      · exact Finset.mem_union_left _ (mem_leftover.mpr ⟨hch, fun h => absurd h hchT⟩)
    unfold start stop
    dsimp only
    rw [if_pos hpos, hchannels, Finset.sdiff_union_of_subset hT, max_eq_left (by omega),
      Int.sub_add_cancel]

end SlotView

namespace ClientHandler

section
variable {camera c : String} {v : Views} {a b : Command} {s : SessionView}

variable (camera) in
/-- When the first section of `a` precedes that of `b`, the session ends as `A` and the calls
are `k` and `l`, whenever the camera is recorded. -/
structure InOrder (s : SessionView) (a b : Command) (A : SessionView) (k l : ViewCall) : Prop where
  late : recordIn camera (plan (act s a) b) (recordIn camera (plan s a) (act (act s a) b)) = A
  early : recordIn camera (plan (recordIn camera (plan s a) (act s a)) b)
    (act (recordIn camera (plan s a) (act s a)) b) = A
  first : (plan s a).call = k
  lateCall : (plan (act s a) b).call = l
  earlyCall : (plan (recordIn camera (plan s a) (act s a)) b).call = l

section
variable {A B : SessionView} {k l : ViewCall} (hv : v.sessions c = some s) (ha : a.client = c)
  (hb : b.client = c)
include hv ha hb

theorem InOrder.halved_iff (h : InOrder camera s a b A k l) {w : Views} :
    Halved camera (v.first a) (v.plan a) b w ↔ EitherOrder camera c v A k l w := by
  rw [halved_patch hv ha hb, h.late, h.early, h.first, h.lateCall, h.earlyCall, or_self]

theorem InOrder.alone_alone (h : InOrder camera s a b A k l) :
    (v.alone camera a).alone camera b = v.patch camera c A (l.apply ∘ k.apply) := by
  rw [alone_alone_patch hv ha hb, h.early, h.first, h.earlyCall]

theorem settled_iff_of_inOrder (hab : InOrder camera s a b A k l)
    (hba : InOrder camera s b a B l k) :
    Settled camera v a b ↔
      A = B ∨ ∀ slot, v.slots camera = some slot →
        l.apply (k.apply slot) = k.apply (l.apply slot) := by
  unfold Settled Outcome
  rw [hab.alone_alone hv ha hb, hba.alone_alone hv hb ha]
  constructor
  · intro h
    have hmixed := h _ (.inl ((hab.halved_iff hv ha hb).mpr (.inr rfl)))
    rw [Views.patch_eq_patch_iff, Views.patch_eq_patch_iff] at hmixed
    rcases hmixed with ⟨-, hslots⟩ | ⟨hsessions, -⟩
    · exact .inr fun slot hslot => (hslots slot hslot).symm
    · exact .inl hsessions
  · intro h w hw
    rw [hab.halved_iff hv ha hb, hba.halved_iff hv hb ha] at hw
    by_cases hAB : A = B
    · subst hAB
      rcases hw with (hw | hw) | (hw | hw)
      exacts [.inl hw, .inr hw, .inr hw, .inl hw]
    · have hsame : ∀ s : SessionView, v.patch camera c s (l.apply ∘ k.apply) =
          v.patch camera c s (k.apply ∘ l.apply) := fun s =>
        Views.patch_eq_patch_iff.mpr ⟨rfl, h.resolve_left hAB⟩
      rcases hw with (hw | hw) | (hw | hw)
      · exact .inl hw
      · exact .inl (hw.trans (hsame A).symm)
      · exact .inr hw
      · exact .inr (hw.trans (hsame B))

theorem settled_iff_of_second_nothing {k' : ViewCall} (hab : InOrder camera s a b A k l)
    (hba : InOrder camera s b a B k' .nothing) :
    Settled camera v a b ↔ ∀ slot, v.slots camera = some slot →
      k.apply (l.apply slot) = l.apply (k.apply slot) ∨
        A = B ∧ k.apply (l.apply slot) = k'.apply slot := by
  unfold Settled Outcome
  rw [hab.alone_alone hv ha hb, hba.alone_alone hv hb ha]
  constructor
  · intro h slot hslot
    have hmixed := h _ (.inl ((hab.halved_iff hv ha hb).mpr (.inr rfl)))
    rw [Views.patch_eq_patch_iff, Views.patch_eq_patch_iff] at hmixed
    rcases hmixed with ⟨-, hslots⟩ | ⟨hsessions, hslots⟩
    · exact .inl (hslots slot hslot)
    · exact .inr ⟨hsessions, hslots slot hslot⟩
  · intro h w hw
    rw [hab.halved_iff hv ha hb, hba.halved_iff hv hb ha] at hw
    rcases hw with (hw | hw) | (hw | hw)
    · exact .inl hw
    · rw [hw, Views.patch_eq_patch_iff, Views.patch_eq_patch_iff]
      rcases hk : v.slots camera with _ | slot
      · exact .inl ⟨rfl, nofun⟩
      · rcases h slot hk with heq | ⟨hAB, heq⟩
        · exact .inl ⟨rfl, fun _ hslot => Option.some.inj hslot ▸ heq⟩
        · exact .inr ⟨hAB, fun _ hslot => Option.some.inj hslot ▸ heq⟩
    · exact .inr hw
    · exact .inr hw

end

variable (hs : s.connected = true) (types types' : List DataType)
include hs

theorem inOrder_start_start : InOrder camera s (.startCapture c types) (.startCapture c types')
    { s with
      types := (s.types ∪ (captureTypes types).toFinset) ∪ (captureTypes types').toFinset
      camera := camera }
    (.start (captureTypes types).toFinset) (.start (captureTypes types').toFinset) := by
  constructor <;> simp only [act, plan, recordIn, hs, if_true]

theorem inOrder_stop_stop : InOrder camera s (.stopCapture c types) (.stopCapture c types')
    { s with
      types := (s.types \ (captureTypes types).toFinset) \ (captureTypes types').toFinset }
    (.stop (captureTypes types).toFinset) (.stop (captureTypes types').toFinset) := by
  constructor <;> simp only [act, plan, recordIn, hs, if_true]

theorem inOrder_start_stop : InOrder camera s (.startCapture c types) (.stopCapture c types')
    { s with
      types := (s.types ∪ (captureTypes types).toFinset) \ (captureTypes types').toFinset
      camera := camera }
    (.start (captureTypes types).toFinset) (.stop (captureTypes types').toFinset) := by
  constructor <;> simp only [act, plan, recordIn, hs, if_true]

theorem inOrder_stop_start : InOrder camera s (.stopCapture c types') (.startCapture c types)
    { s with
      types := (s.types \ (captureTypes types').toFinset) ∪ (captureTypes types).toFinset
      camera := camera }
    (.stop (captureTypes types').toFinset) (.start (captureTypes types).toFinset) := by
  constructor <;> simp only [act, plan, recordIn, hs, if_true]

def release (camera : String) (types : Finset DataType) : ViewCall :=
  if types ≠ ∅ ∧ camera ≠ "" then .stop types else .nothing

theorem inOrder_stop_disconnect : InOrder camera s (.stopCapture c types) (.disconnect c)
    { s with connected := false, types := ∅ }
    (.stop (captureTypes types).toFinset)
    (release s.camera (s.types \ (captureTypes types).toFinset)) := by
  constructor <;> simp only [act, plan, recordIn, hs, if_true, true_and, release]

theorem inOrder_disconnect_stop : InOrder camera s (.disconnect c) (.stopCapture c types)
    { s with connected := false, types := ∅ } (release s.camera s.types) .nothing := by
  constructor <;> simp only [act, plan, recordIn, hs, if_true, true_and, release,
    Bool.false_eq_true, if_false]

theorem inOrder_disconnect_start : InOrder camera s (.disconnect c) (.startCapture c types)
    { s with connected := false, types := ∅ } (release s.camera s.types) .nothing := by
  constructor <;> simp only [act, plan, recordIn, hs, if_true, true_and, release,
    Bool.false_eq_true, if_false]

theorem inOrder_start_disconnect (hcam : s.camera = camera) :
    InOrder camera s (.startCapture c types) (.disconnect c)
      { s with connected := false, types := ∅ } (.start (captureTypes types).toFinset)
      (release camera (s.types ∪ (captureTypes types).toFinset)) := by
  subst hcam
  constructor <;> simp only [act, plan, recordIn, hs, if_true, true_and, release]

theorem inOrder_start_connect : InOrder camera s (.startCapture c types) (.connect c)
    { s with types := s.types ∪ (captureTypes types).toFinset, camera := camera }
    (.start (captureTypes types).toFinset) .nothing := by
  constructor <;> simp only [act, plan, recordIn, hs, if_true]

theorem inOrder_disconnect_disconnect : InOrder camera s (.disconnect c) (.disconnect c)
    { s with connected := false, types := ∅ } (release s.camera s.types) .nothing := by
  constructor <;> simp only [act, plan, recordIn, hs, if_true, true_and, release,
    Bool.false_eq_true, if_false, false_and]

variable (hv : v.sessions c = some s)
include hv

omit hv types types' in
theorem settled_disconnect_disconnect (hv : v.sessions c = some s) :
    Settled camera v (.disconnect c) (.disconnect c) := by
  refine (settled_iff_of_second_nothing hv rfl rfl (inOrder_disconnect_disconnect hs)
    (inOrder_disconnect_disconnect hs)).mpr fun k hk => .inl rfl

theorem settled_start_start :
    Settled camera v (.startCapture c types) (.startCapture c types') := by
  refine (settled_iff_of_inOrder hv rfl rfl (inOrder_start_start hs types types')
    (inOrder_start_start hs types' types)).mpr (.inl ?_)
  rw [Finset.union_right_comm]

theorem settled_stop_stop :
    Settled camera v (.stopCapture c types) (.stopCapture c types') := by
  refine (settled_iff_of_inOrder hv rfl rfl (inOrder_stop_stop hs types types')
    (inOrder_stop_stop hs types' types)).mpr (.inl ?_)
  rw [sdiff_right_comm]

theorem settled_start_stop_iff :
    Settled camera v (.startCapture c types) (.stopCapture c types') ↔
      ∀ k, v.slots camera = some k →
        Disjoint (captureTypes types).toFinset (captureTypes types').toFinset := by
  rw [settled_iff_of_inOrder hv rfl rfl (inOrder_start_stop hs types types')
    (inOrder_stop_start hs types types')]
  constructor
  · rintro (h | h) k hk
    · exact union_sdiff_eq_iff_disjoint.mp (congrArg SessionView.types h)
    · exact union_sdiff_eq_iff_disjoint.mp (congrArg SlotView.types (h k hk))
  · intro h
    rcases hk : v.slots camera with _ | k
    · exact .inr nofun
    · rw [union_sdiff_eq_iff_disjoint.mpr (h k hk)]
      exact .inl rfl

omit hs hv in
theorem captureTypes_toFinset_nonempty : (captureTypes types).toFinset.Nonempty :=
  List.toFinset_nonempty_iff _ |>.mpr (captureTypes_ne_nil types)

variable (hsound : ∀ k, v.slots camera = some k → k.Sound)
include hsound

theorem settled_start_disconnect_iff_of_camera (hcam : s.camera = camera) :
    Settled camera v (.startCapture c types) (.disconnect c) ↔
      ∀ k, v.slots camera = some k → camera ≠ "" →
        s.types = ∅ ∧ 0 < k.count ∧ (captureTypes types).toFinset ⊆ k.types := by
  rw [settled_iff_of_second_nothing hv rfl rfl (inOrder_start_disconnect hs types hcam)
    (inOrder_disconnect_start hs types), hcam]
  refine forall₂_congr fun k hk => ?_
  obtain ⟨t, ht⟩ := captureTypes_toFinset_nonempty types
  by_cases hne : camera = ""
  · have hrelease : ∀ types, release camera types = .nothing := fun types =>
      if_neg fun h => h.2 hne
    rw [hrelease]
    exact iff_of_true (.inl rfl) fun h => absurd hne h
  · have hrelease : ∀ types : Finset DataType, types ≠ ∅ →
        release camera types = .stop types := fun types htypes => if_pos ⟨htypes, hne⟩
    rw [hrelease _ (Finset.ne_empty_of_mem (Finset.mem_union_right _ ht))]
    have hdiffer : ¬(k.stop (s.types ∪ (captureTypes types).toFinset)).start
          (captureTypes types).toFinset =
        (k.start (captureTypes types).toFinset).stop
          (s.types ∪ (captureTypes types).toFinset) := by
      -- The type `t` is active on the left side only.
      intro h
      have htypes : (k.types \ (s.types ∪ (captureTypes types).toFinset)) ∪
            (captureTypes types).toFinset =
          (k.types ∪ (captureTypes types).toFinset) \
            (s.types ∪ (captureTypes types).toFinset) := congrArg SlotView.types h
      have hmem := htypes ▸ Finset.mem_union_right (k.types \ _) ht
      exact (Finset.mem_sdiff.mp hmem).2 (Finset.mem_union_right _ ht)
    dsimp only [ViewCall.apply]
    rw [or_iff_right hdiffer, and_iff_right rfl, forall_prop_of_true hne]
    by_cases hempty : s.types = ∅
    · have hnothing : release camera s.types = .nothing := if_neg fun h => h.1 hempty
      rw [hnothing, hempty, Finset.empty_union, and_iff_right rfl]
      exact SlotView.start_stop_eq_self_iff (hsound k hk)
    · rw [hrelease _ hempty]
      refine iff_of_false ?_ fun h => hempty h.1
      intro h
      have hcount : max (k.count - 1) 0 + 1 = max (k.count - 1) 0 := congrArg SlotView.count h
      omega

theorem not_settled_start_disconnect (hcam : s.camera = "") (hne : camera ≠ "") {k : SlotView}
    (hk : v.slots camera = some k) :
    ¬Settled camera v (.startCapture c types) (.disconnect c) := by
  -- The camera of the session is still empty when a disconnect looks at it.
  intro h
  obtain ⟨t, ht⟩ := captureTypes_toFinset_nonempty types
  have hT : s.types ∪ (captureTypes types).toFinset ≠ ∅ :=
    Finset.ne_empty_of_mem (Finset.mem_union_right _ ht)
  have hlate := h (v.patch camera c { s with connected := false, types := ∅, camera := camera }
    (ViewCall.nothing.apply ∘ (ViewCall.start (captureTypes types).toFinset).apply)) ?_
  · rw [alone_alone_patch hv rfl rfl, (inOrder_disconnect_start hs types).alone_alone hv rfl rfl,
      Views.patch_eq_patch_iff, Views.patch_eq_patch_iff] at hlate
    rcases hlate with ⟨-, hslots⟩ | ⟨hsessions, -⟩
    · have hcount := congrArg SlotView.count (hslots k hk)
      simp only [act, plan, recordIn, hs, if_true, Function.comp_apply, hT, hne, ne_eq,
        not_false_eq_true, and_self, ViewCall.apply, SlotView.start, SlotView.stop] at hcount
      have := (hsound k hk).nonneg
      omega
    · exact hne ((congrArg SessionView.camera hsessions).trans hcam)
  · refine .inl ((halved_patch hv rfl rfl).mpr (.inl (.inl ?_)))
    simp only [act, plan, recordIn, hs, hcam, if_true, ne_eq, not_true_eq_false, and_false,
      if_false]

theorem settled_start_disconnect_iff (hcam : s.camera = "" ∨ s.camera = camera) :
    Settled camera v (.startCapture c types) (.disconnect c) ↔
      ∀ k, v.slots camera = some k → camera ≠ "" →
        s.camera = camera ∧ s.types = ∅ ∧ 0 < k.count ∧
          (captureTypes types).toFinset ⊆ k.types := by
  by_cases hsame : s.camera = camera
  · rw [settled_start_disconnect_iff_of_camera hs types hv hsound hsame]
    simp only [hsame, true_and]
  · have hempty : s.camera = "" := hcam.resolve_right hsame
    have hne : camera ≠ "" := fun h => hsame (hempty.trans h.symm)
    rcases hk : v.slots camera with _ | k
    · refine iff_of_true ?_ nofun
      intro w hw
      -- Without a slot only the session counts.
      have hslots : ∀ (s : SessionView) (f g : SlotView → SlotView),
          v.patch camera c s f = v.patch camera c s g := fun s f g =>
        Views.patch_eq_patch_iff.mpr ⟨rfl, fun k hk' => absurd (hk.symm.trans hk') nofun⟩
      rw [alone_alone_patch hv rfl rfl, (inOrder_disconnect_start hs types).alone_alone hv rfl rfl]
      rcases hw with hw | hw
      · refine .inl ?_
        rw [halved_patch hv rfl rfl] at hw
        simp only [act, plan, recordIn, hs, if_true] at hw ⊢
        rcases hw with (hw | hw) | (hw | hw)
        all_goals exact hw.trans (hslots _ _ _)
      · refine .inr ?_
        rcases ((inOrder_disconnect_start hs types).halved_iff hv rfl rfl).mp hw with hw | hw
        all_goals exact hw.trans (hslots _ _ _)
    · refine iff_of_false (not_settled_start_disconnect hs types hv hsound hempty hne hk) ?_
      intro h
      exact hsame (h k rfl hne).1

theorem settled_stop_disconnect_iff :
    Settled camera v (.stopCapture c types) (.disconnect c) ↔
      ∀ k, v.slots camera = some k → s.camera ≠ "" →
        s.types \ (captureTypes types).toFinset ≠ ∅ → k.count = 1 →
        k.leftover (s.types \ (captureTypes types).toFinset) =
            k.leftover (captureTypes types).toFinset ∨
          k.types ∩ (captureTypes types).toFinset ⊆ s.types ∧
            k.leftover (s.types \ (captureTypes types).toFinset) = k.leftover s.types := by
  -- Two stops of the last subscriber clear the channels that the first of them finds.
  rw [settled_iff_of_second_nothing hv rfl rfl (inOrder_stop_disconnect hs types)
    (inOrder_disconnect_stop hs types)]
  refine forall₂_congr fun k hk => ?_
  rw [and_iff_right rfl]
  by_cases hrel : s.types \ (captureTypes types).toFinset ≠ ∅ ∧ s.camera ≠ ""
  · have hS : s.types ≠ ∅ := by
      rintro hS
      rw [hS, Finset.empty_sdiff] at hrel
      exact hrel.1 rfl
    rw [release, if_pos hrel, release, if_pos ⟨hS, hrel.2⟩, forall_prop_of_true hrel.2,
      forall_prop_of_true hrel.1]
    by_cases hcount : k.count = 1
    · rw [forall_prop_of_true hcount]
      dsimp only [ViewCall.apply]
      rw [SlotView.stop_stop_of_last hcount, SlotView.stop_stop_of_last hcount,
        SlotView.stop_of_last hcount, SlotView.mk.injEq, SlotView.mk.injEq,
        sdiff_sdiff_eq_sdiff_iff, sdiff_right_comm]
      simp only [true_and]
    · refine iff_of_true (.inl ?_) fun h => absurd h hcount
      exact SlotView.stop_comm (hsound k hk) hcount
  · have hnothing : release s.camera (s.types \ (captureTypes types).toFinset) = .nothing :=
      if_neg hrel
    rw [hnothing]
    exact iff_of_true (.inl rfl) fun hcam hne => absurd ⟨hne, hcam⟩ hrel

end

theorem settledFirst_connect {camera c : String} {v : Views} {cmd : Command}
    (hc : cmd.client = c) : SettledFirst camera v cmd (.connect c) := by
  cases cmd with
  | connect c' => exact settledFirst_of_nothing rfl
  | disconnect c' => exact settledFirst_of_second_nothing rfl rfl
  | stopCapture c' types => exact settledFirst_of_second_nothing rfl rfl
  | startCapture c' types =>
    obtain rfl : c' = c := hc
    by_cases hs : ((v.sessions c').getD {}).connected = true
    · obtain ⟨s, hv⟩ : ∃ s, v.sessions c' = some s := by
        cases hv : v.sessions c' with
        | some s => exact ⟨s, rfl⟩
        | none =>
          rw [hv] at hs
          exact absurd hs Bool.false_ne_true
      rw [hv] at hs
      rw [Option.getD_some] at hs
      have horder : InOrder camera s (.startCapture c' types) (.connect c') _ _ _ :=
        inOrder_start_connect hs types
      intro w hw
      rw [horder.alone_alone hv rfl rfl]
      rcases (horder.halved_iff hv rfl rfl).mp hw with hw | hw
      · exact .inl hw
      · exact .inl hw
    · rw [Bool.not_eq_true] at hs
      exact settledFirst_of_not_connected rfl hs

theorem settled_connect {camera : String} {v : Views} (c : String) (cmd : Command) :
    Settled camera v (.connect c) cmd := by
  by_cases hc : c = cmd.client
  · exact settled_iff.mpr ⟨settledFirst_of_nothing rfl, settledFirst_connect hc.symm⟩
  · exact settled_of_ne hc

end ClientHandler

end StereoCamera
