import StereoCamera.Api.CommandConflicts

/-! Which commands that run at the same time only leave what they also leave one after the
other. -/

namespace StereoCamera

/-! ## The same state, up to the order inside the lists -/

structure ClientSession.Same (s s' : ClientSession) : Prop where
  id : s.id = s'.id
  connected : s.connected = s'.connected
  camera : s.cameraId = s'.cameraId
  types : s.activeTypes.Perm s'.activeTypes

/-- The number of a dealer thread only names it. -/
structure SDKSlot.Same (slot slot' : SDKSlot) : Prop where
  cameraId : slot.cameraId = slot'.cameraId
  zmqEndpoint : slot.zmqEndpoint = slot'.zmqEndpoint
  configured : slot.channels = slot'.channels
  baseUrl : slot.client.baseUrl = slot'.client.baseUrl
  capturing : slot.capturing = slot'.capturing
  dealer : slot.dealerThread.isSome = slot'.dealerThread.isSome
  count : slot.subscriberCount = slot'.subscriberCount
  types : slot.activeTypes.Perm slot'.activeTypes
  channels : slot.activeChannels.Perm slot'.activeChannels

theorem optionRel_iff_map_eq {α β : Type} {R : α → α → Prop} {f : α → β} {o o' : Option α}
    (h : ∀ x y, o = some x → o' = some y → (R x y ↔ f x = f y)) :
    Option.Rel R o o' ↔ o.map f = o'.map f := by
  cases o with
  | none =>
    cases o' with
    | none => exact iff_of_true .none rfl
    | some y => exact iff_of_false nofun nofun
  | some x =>
    cases o' with
    | none => exact iff_of_false nofun nofun
    | some y =>
      rw [Option.map_some, Option.map_some, Option.some.injEq, ← h x y rfl rfl]
      exact ⟨fun hrel => by cases hrel; assumption, .some⟩

theorem perm_iff_toFinset_eq {α : Type} [DecidableEq α] {xs ys : List α} (hxs : xs.Nodup)
    (hys : ys.Nodup) : xs.Perm ys ↔ xs.toFinset = ys.toFinset :=
  ⟨List.toFinset_eq_of_perm xs ys, List.perm_of_nodup_nodup_toFinset_eq hxs hys⟩

theorem ClientSession.same_iff_view_eq {s s' : ClientSession} (hs : s.activeTypes.Nodup)
    (hs' : s'.activeTypes.Nodup) : s.Same s' ↔ s.view = s'.view := by
  unfold ClientSession.view
  rw [SessionView.mk.injEq, ← perm_iff_toFinset_eq hs hs']
  constructor
  · rintro ⟨hid, hconn, hcam, htypes⟩
    exact ⟨hid, hconn, htypes, hcam⟩
  · rintro ⟨hid, hconn, htypes, hcam⟩
    exact ⟨hid, hconn, hcam, htypes⟩

theorem SDKSlot.same_iff_view_eq {slot slot' : SDKSlot} (hslot : slot.Coherent)
    (hslot' : slot'.Coherent) (ht : slot.Tidy) (ht' : slot'.Tidy) :
    slot.Same slot' ↔ slot.view = slot'.view := by
  unfold SDKSlot.view
  rw [SlotView.mk.injEq, Prod.mk.injEq, Prod.mk.injEq, Prod.mk.injEq,
    ← perm_iff_toFinset_eq ht.types ht'.types, ← perm_iff_toFinset_eq ht.channels ht'.channels]
  constructor
  · rintro ⟨hid, hep, hcfg, hurl, -, -, hcount, htypes, hchannels⟩
    exact ⟨⟨hid, hep, hcfg, hurl⟩, hcount, htypes, hchannels⟩
  · rintro ⟨⟨hid, hep, hcfg, hurl⟩, hcount, htypes, hchannels⟩
    have hcap : slot.capturing = slot'.capturing := by
      rw [Bool.eq_iff_iff, hslot.capturing_iff, hslot'.capturing_iff, hcount]
    refine ⟨hid, hep, hcfg, hurl, hcap, ?_, hcount, htypes, hchannels⟩
    rw [hslot.owns_dealer, hslot'.owns_dealer, hcap]

namespace ClientHandler
open Transition

structure Same (h h' : ClientHandler) : Prop where
  sessions : ∀ c, Option.Rel ClientSession.Same (h.sessions.lookup c) (h'.sessions.lookup c)
  slots : ∀ id, Option.Rel SDKSlot.Same (h.slotAt id) (h'.slotAt id)

theorem Consistent.coherent {h : ClientHandler} (hh : Consistent h) {id : String}
    {slot : SDKSlot} (hslot : h.slotAt id = some slot) : slot.Coherent := by
  obtain ⟨m, hm, hcoh⟩ := hh.manager
  exact hcoh id slot ((slotAt_of_manager hm id).symm.trans hslot)

theorem same_iff_views_eq {h h' : ClientHandler} (hh : Consistent h) (hh' : Consistent h') :
    Same h h' ↔ h.views = h'.views := by
  have hsessions : ∀ c,
      Option.Rel ClientSession.Same (h.sessions.lookup c) (h'.sessions.lookup c) ↔
        h.sessionView c = h'.sessionView c := fun c =>
    optionRel_iff_map_eq fun s s' hs hs' =>
      ClientSession.same_iff_view_eq (hh.types c s hs) (hh'.types c s' hs')
  have hslots : ∀ id, Option.Rel SDKSlot.Same (h.slotAt id) (h'.slotAt id) ↔
      h.slotView id = h'.slotView id := fun id =>
    optionRel_iff_map_eq fun slot slot' hs hs' =>
      SDKSlot.same_iff_view_eq (hh.coherent hs) (hh'.coherent hs') (hh.slots id slot hs)
        (hh'.slots id slot' hs')
  unfold ClientHandler.views
  rw [Views.mk.injEq]
  constructor
  · intro hsame
    exact ⟨funext fun c => (hsessions c).mp (hsame.sessions c),
      funext fun id => (hslots id).mp (hsame.slots id)⟩
  · rintro ⟨hs, hk⟩
    exact ⟨fun c => (hsessions c).mpr (congrFun hs c), fun id => (hslots id).mpr (congrFun hk id)⟩

/-! ## Serial orders -/

/-- Whatever the interleaving, the two commands leave what a serial order leaves. -/
def Serializable (h : ClientHandler) (a b : Command) : Prop :=
  ∀ sched h', run pairStep ⟨h, .command a, .command b⟩ sched = some ⟨h', .done, .done⟩ →
    Same h' ((h.handle a).1.handle b).1 ∨ Same h' ((h.handle b).1.handle a).1

theorem ends_handle_handle {h : ClientHandler} (hh : Consistent h) (a b : Command) :
    Ends h (· = (h.views.alone h.captureCamera a).alone h.captureCamera b)
      ((h.handle a).1.handle b).1 := by
  obtain ⟨hh₁, hcam₁, hviews₁⟩ := ends_handle hh a
  obtain ⟨hh₂, hcam₂, hviews₂⟩ := ends_handle hh₁ b
  refine ⟨hh₂, hcam₂.trans hcam₁, ?_⟩
  rw [hviews₂, hviews₁, hcam₁]

theorem serializable_iff_settled {h : ClientHandler} (hh : Consistent h) (a b : Command) :
    Serializable h a b ↔ Settled h.captureCamera h.views a b := by
  obtain ⟨hab, -, hviews⟩ := ends_handle_handle hh a b
  obtain ⟨hba, -, hviews'⟩ := ends_handle_handle hh b a
  constructor
  · intro hserial w hw
    obtain ⟨h', ⟨sched, hrun⟩, rfl⟩ := canEnd_outcome hh hw
    have hh' := (outcome_of_run hh hrun).consistent
    rw [← hviews, ← hviews', ← same_iff_views_eq hh' hab, ← same_iff_views_eq hh' hba]
    exact hserial sched h' hrun
  · intro hsettled sched h' hrun
    obtain ⟨hh', -, hw⟩ := outcome_of_run hh hrun
    rw [same_iff_views_eq hh' hab, same_iff_views_eq hh' hba, hviews, hviews']
    exact hsettled _ hw

/-! ## The pairs that only have serial outcomes -/

def Keeps (slot : SDKSlot) (types : List DataType) (ch : String) : Prop :=
  ch ∈ slot.activeChannels ∧
    (ch ∈ typesToChannels types → ch ∈ typesToChannels (eraseAll slot.activeTypes types))

/-- What two commands of a connected client need for a serial outcome. -/
def Orderable (camera : String) (s : ClientSession) (slot : SDKSlot) : Command → Command → Prop
  | .startCapture _ types, .stopCapture _ types' =>
    (captureTypes types).Disjoint (captureTypes types')
  | .startCapture _ types, .disconnect _ =>
    camera ≠ "" → s.cameraId = camera ∧ s.activeTypes = [] ∧ 0 < slot.subscriberCount ∧
      captureTypes types ⊆ slot.activeTypes
  | .stopCapture _ types, .disconnect _ =>
    let kept := eraseAll s.activeTypes (captureTypes types)
    s.cameraId ≠ "" → kept ≠ [] → slot.subscriberCount = 1 →
      (∀ ch, Keeps slot kept ch ↔ Keeps slot (captureTypes types) ch) ∨
        (∀ t ∈ slot.activeTypes, t ∈ captureTypes types → t ∈ s.activeTypes) ∧
          ∀ ch, Keeps slot kept ch ↔ Keeps slot s.activeTypes ch
  | _, _ => True

/-- Different clients, or a client that is not connected, or no slot for the camera, or
commands that agree on what they do to them. -/
def Compatible (h : ClientHandler) (a b : Command) : Prop :=
  ∀ s slot, a.client = b.client → h.connectedSession a.client = some s →
    h.captureSlot = some slot →
    Orderable h.captureCamera s slot a b ∧ Orderable h.captureCamera s slot b a

theorem mem_leftover_view {slot : SDKSlot} {types : List DataType} {ch : String} :
    ch ∈ slot.view.leftover types.toFinset ↔ Keeps slot types ch := by
  rw [SlotView.mem_leftover, ← toFinset_typesToChannels, List.mem_toFinset]
  show ch ∈ slot.activeChannels.toFinset ∧
    (_ → ch ∈ channelsOf (slot.activeTypes.toFinset \ types.toFinset)) ↔ _
  rw [← toFinset_eraseAll, ← toFinset_typesToChannels, List.mem_toFinset, List.mem_toFinset]
  exact Iff.rfl

theorem leftover_view_eq_iff {slot : SDKSlot} {types types' : List DataType} :
    slot.view.leftover types.toFinset = slot.view.leftover types'.toFinset ↔
      ∀ ch, Keeps slot types ch ↔ Keeps slot types' ch := by
  simp only [Finset.ext_iff, mem_leftover_view]

section
variable {h : ClientHandler} {a b : Command} {c : String} {s : ClientSession}

theorem sound_of_consistent (hh : Consistent h) :
    ∀ id k, h.views.slots id = some k → k.Sound := by
  intro id k hk
  obtain ⟨slot, hslot, rfl⟩ := Option.map_eq_some_iff.mp hk
  exact ⟨(hh.coherent hslot).nonneg, (hh.slots id slot hslot).covered⟩

theorem forall_slotView_iff {P : SlotView → Prop} {Q : SDKSlot → Prop}
    (hPQ : ∀ slot, P slot.view ↔ Q slot) :
    (∀ k, h.views.slots h.captureCamera = some k → P k) ↔
      ∀ slot, h.captureSlot = some slot → Q slot := by
  show (∀ k, h.captureSlot.map SDKSlot.view = some k → P k) ↔ _
  cases h.captureSlot with
  | none => exact iff_of_true nofun nofun
  | some slot =>
    simp only [Option.map_some, Option.some.injEq, forall_eq']
    exact hPQ slot

theorem subset_toFinset_iff {α : Type} [DecidableEq α] {xs ys : List α} :
    xs.toFinset ⊆ ys.toFinset ↔ xs ⊆ ys := by
  simp only [Finset.subset_iff, List.mem_toFinset, List.subset_def]

theorem settled_start_stop_iff_orderable (hs : h.connectedSession c = some s)
    (types types' : List DataType) :
    Settled h.captureCamera h.views (.startCapture c types) (.stopCapture c types') ↔
      ∀ slot, h.captureSlot = some slot → Orderable h.captureCamera s slot
        (.startCapture c types) (.stopCapture c types') := by
  obtain ⟨hview, hconn⟩ := sessionView_of_connectedSession hs
  rw [settled_start_stop_iff hconn types types' hview]
  refine forall_slotView_iff fun slot => ?_
  rw [List.disjoint_toFinset_iff_disjoint]
  exact Iff.rfl

theorem settled_start_disconnect_iff_orderable (hh : Consistent h)
    (hs : h.connectedSession c = some s) (types : List DataType) :
    Settled h.captureCamera h.views (.startCapture c types) (.disconnect c) ↔
      ∀ slot, h.captureSlot = some slot → Orderable h.captureCamera s slot
        (.startCapture c types) (.disconnect c) := by
  obtain ⟨hview, hconn⟩ := sessionView_of_connectedSession hs
  have hcam := hh.camera c s (connectedSession_eq_some.mp hs).1
  rw [settled_start_disconnect_iff hconn types hview (sound_of_consistent hh _) hcam]
  refine forall_slotView_iff fun slot => ?_
  show (_ → _ ∧ s.activeTypes.toFinset = ∅ ∧ _ ∧ _ ⊆ slot.activeTypes.toFinset) ↔ _
  rw [List.toFinset_eq_empty_iff, subset_toFinset_iff]
  exact Iff.rfl

theorem settled_stop_disconnect_iff_orderable (hh : Consistent h)
    (hs : h.connectedSession c = some s) (types : List DataType) :
    Settled h.captureCamera h.views (.stopCapture c types) (.disconnect c) ↔
      ∀ slot, h.captureSlot = some slot → Orderable h.captureCamera s slot
        (.stopCapture c types) (.disconnect c) := by
  obtain ⟨hview, hconn⟩ := sessionView_of_connectedSession hs
  rw [settled_stop_disconnect_iff hconn types hview (sound_of_consistent hh _)]
  refine forall_slotView_iff fun slot => ?_
  have hkept : s.view.types \ (captureTypes types).toFinset =
      (eraseAll s.activeTypes (captureTypes types)).toFinset := (toFinset_eraseAll _ _).symm
  have hsub : slot.view.types ∩ (captureTypes types).toFinset ⊆ s.view.types ↔
      ∀ t ∈ slot.activeTypes, t ∈ captureTypes types → t ∈ s.activeTypes := by
    show slot.activeTypes.toFinset ∩ _ ⊆ s.activeTypes.toFinset ↔ _
    simp only [Finset.subset_iff, Finset.mem_inter, List.mem_toFinset, and_imp]
  rw [hkept, hsub, leftover_view_eq_iff, ne_eq (List.toFinset _), List.toFinset_eq_empty_iff]
  show (_ → _ → _ → (_ ∨ _ ∧ slot.view.leftover _ = slot.view.leftover s.activeTypes.toFinset)) ↔ _
  rw [leftover_view_eq_iff]
  exact Iff.rfl

theorem settled_iff_orderable_symm
    (h' : Settled h.captureCamera h.views a b ↔ ∀ slot, h.captureSlot = some slot →
      Orderable h.captureCamera s slot a b ∧ Orderable h.captureCamera s slot b a) :
    Settled h.captureCamera h.views b a ↔ ∀ slot, h.captureSlot = some slot →
      Orderable h.captureCamera s slot b a ∧ Orderable h.captureCamera s slot a b := by
  have hsymm : Settled h.captureCamera h.views b a ↔ Settled h.captureCamera h.views a b :=
    ⟨Settled.symm, Settled.symm⟩
  rw [hsymm, h']
  exact forall₂_congr fun slot _ => and_comm

theorem settled_iff_orderable_connect (c₁ : String) (b : Command) :
    Settled h.captureCamera h.views (.connect c₁) b ↔ ∀ slot, h.captureSlot = some slot →
      Orderable h.captureCamera s slot (.connect c₁) b ∧
        Orderable h.captureCamera s slot b (.connect c₁) := by
  refine iff_of_true (settled_connect c₁ b) fun slot _ => ⟨trivial, ?_⟩
  cases b <;> trivial

theorem settled_iff_orderable (hh : Consistent h) (ha : a.client = c) (hb : b.client = c)
    (hs : h.connectedSession c = some s) :
    Settled h.captureCamera h.views a b ↔ ∀ slot, h.captureSlot = some slot →
      Orderable h.captureCamera s slot a b ∧ Orderable h.captureCamera s slot b a := by
  obtain ⟨hview, hconn⟩ := sessionView_of_connectedSession hs
  have hstartStop := fun types types' => (settled_start_stop_iff_orderable hs types types').trans
    (forall₂_congr fun slot _ => (and_iff_left trivial).symm)
  have hstartDisconnect := fun types => (settled_start_disconnect_iff_orderable hh hs types).trans
    (forall₂_congr fun slot _ => (and_iff_left trivial).symm)
  have hstopDisconnect := fun types => (settled_stop_disconnect_iff_orderable hh hs types).trans
    (forall₂_congr fun slot _ => (and_iff_left trivial).symm)
  cases a with
  | connect c₁ => exact settled_iff_orderable_connect c₁ b
  | disconnect c₁ =>
    obtain rfl : c₁ = c := ha
    cases b with
    | connect c₂ => exact settled_iff_orderable_symm (settled_iff_orderable_connect c₂ _)
    | disconnect c₂ =>
      obtain rfl : c₂ = c₁ := hb
      exact iff_of_true (settled_disconnect_disconnect hconn hview)
        fun _ _ => ⟨trivial, trivial⟩
    | startCapture c₂ types =>
      obtain rfl : c₂ = c₁ := hb
      exact settled_iff_orderable_symm (hstartDisconnect types)
    | stopCapture c₂ types =>
      obtain rfl : c₂ = c₁ := hb
      exact settled_iff_orderable_symm (hstopDisconnect types)
  | startCapture c₁ types =>
    obtain rfl : c₁ = c := ha
    cases b with
    | connect c₂ => exact settled_iff_orderable_symm (settled_iff_orderable_connect c₂ _)
    | disconnect c₂ =>
      obtain rfl : c₂ = c₁ := hb
      exact hstartDisconnect types
    | startCapture c₂ types' =>
      obtain rfl : c₂ = c₁ := hb
      exact iff_of_true (settled_start_start hconn types types' hview)
        fun _ _ => ⟨trivial, trivial⟩
    | stopCapture c₂ types' =>
      obtain rfl : c₂ = c₁ := hb
      exact hstartStop types types'
  | stopCapture c₁ types =>
    obtain rfl : c₁ = c := ha
    cases b with
    | connect c₂ => exact settled_iff_orderable_symm (settled_iff_orderable_connect c₂ _)
    | disconnect c₂ =>
      obtain rfl : c₂ = c₁ := hb
      exact hstopDisconnect types
    | startCapture c₂ types' =>
      obtain rfl : c₂ = c₁ := hb
      exact settled_iff_orderable_symm (hstartStop types' types)
    | stopCapture c₂ types' =>
      obtain rfl : c₂ = c₁ := hb
      exact iff_of_true (settled_stop_stop hconn types types' hview)
        fun _ _ => ⟨trivial, trivial⟩

theorem serializable_iff (hh : Consistent h) : Serializable h a b ↔ Compatible h a b := by
  rw [serializable_iff_settled hh]
  by_cases hab : a.client = b.client
  · cases hs : h.connectedSession a.client with
    | some s =>
      rw [settled_iff_orderable hh rfl hab.symm hs]
      constructor
      · rintro horder s' slot - hs' hslot
        obtain rfl : s = s' := Option.some.inj (hs.symm.trans hs')
        exact horder slot hslot
      · intro hcomp slot hslot
        exact hcomp s slot hab hs hslot
    | none =>
      have hconn : ((h.views.sessions a.client).getD {}).connected = false :=
        connectedSession_eq_none_iff.mp hs
      refine iff_of_true (settled_iff.mpr ⟨?_, ?_⟩) ?_
      · exact settledFirst_of_not_connected rfl hconn
      · exact settledFirst_of_not_connected rfl (hab ▸ hconn)
      · intro s slot _ hs'
        exact absurd (hs.symm.trans hs') nofun
  · exact iff_of_true (settled_of_ne hab) fun s slot hab' => absurd hab' hab

end

/-! ## Every reachable state -/

structure PoolInv (p : Pool) : Prop where
  consistent : Consistent p.handler
  tasks : ∀ i, (∃ cmd, p.task i = .command cmd) ∨ (p.task i).Underway p.handler.captureCamera

theorem consistent_init {m : SDKSlotManager} (hm : m.Configured) :
    Consistent (mk'.setSdkManager m) where
  initialized := rfl
  manager := ⟨m, rfl, hm.coherent⟩
  camera := fun c _ h => by cases (AList.lookup_empty c).symm.trans h
  idle := fun c _ h => by cases (AList.lookup_empty c).symm.trans h
  types := fun c _ h => by cases (AList.lookup_empty c).symm.trans h
  slots := by
    intro id slot hslot
    obtain ⟨cfg, rfl⟩ := hm.slots id slot hslot
    exact SDKSlot.tidy_configured cfg

theorem poolInv_init {m : SDKSlotManager} (hm : m.Configured) : PoolInv (Pool.init m) where
  consistent := consistent_init hm
  tasks := fun _ => .inr trivial

theorem PoolInv.step {p p' : Pool} {act : PoolAction} (hp : PoolInv p)
    (hstep : poolStep p act = some p') : PoolInv p' := by
  cases act with
  | take i cmd =>
    obtain ⟨-, heq⟩ := Option.ite_none_right_eq_some.mp hstep
    obtain rfl := Option.some.inj heq
    refine ⟨hp.consistent, fun j => ?_⟩
    by_cases hj : j = i
    · subst hj
      exact .inl ⟨cmd, Function.update_self _ _ _⟩
    · show (∃ cmd', Function.update p.task i (.command cmd) j = .command cmd') ∨
        (Function.update p.task i (.command cmd) j).Underway p.handler.captureCamera
      rw [Function.update_of_ne hj]
      exact hp.tasks j
  | go i =>
    obtain ⟨⟨h', t'⟩, hadv, rfl⟩ := Option.map_eq_some_iff.mp hstep
    -- Whichever section it was, the camera stays and the task is under way.
    have hsection : Consistent h' ∧ h'.captureCamera = p.handler.captureCamera ∧
        t'.Underway p.handler.captureCamera := by
      rcases hp.tasks i with ⟨cmd, hcmd⟩ | hunder
      · rw [hcmd, advance, Option.some.injEq] at hadv
        have hspec := firstSection_spec hp.consistent cmd
        rw [hadv] at hspec
        exact ⟨hspec.consistent, hspec.camera, hspec.underway⟩
      · have hspec := advance_spec hp.consistent hunder hadv
        exact ⟨hspec.consistent, hspec.camera, hspec.underway⟩
    obtain ⟨hh', hcam, ht'⟩ := hsection
    refine ⟨hh', fun j => ?_⟩
    show (∃ cmd, Function.update p.task i t' j = .command cmd) ∨
      (Function.update p.task i t' j).Underway h'.captureCamera
    rw [hcam]
    by_cases hj : j = i
    · subst hj
      rw [Function.update_self]
      exact .inr ht'
    · rw [Function.update_of_ne hj]
      exact hp.tasks j

theorem consistent_of_reachable {m : SDKSlotManager} (hm : m.Configured) {p : Pool}
    (hp : Reachable poolStep (Pool.init m) p) : Consistent p.handler :=
  (hp.invariant (fun _ _ _ hp hstep => PoolInv.step hp hstep) (poolInv_init hm)).consistent

/-- In every reachable state, exactly the compatible pairs of commands are serializable. -/
theorem serializable_iff_compatible {m : SDKSlotManager} (hm : m.Configured) {p : Pool}
    (hp : Reachable poolStep (Pool.init m) p) (a b : Command) :
    Serializable p.handler a b ↔ Compatible p.handler a b :=
  serializable_iff (consistent_of_reachable hm hp)

theorem serializable_disjoint_types : ∃ p, Reachable poolStep (Pool.init oneCamera) p ∧
    Serializable p.handler (.startCapture "a" [.imu]) (.stopCapture "a" [.stereoImage]) := by
  have hreach : ∃ p, run poolStep (Pool.init oneCamera) [.take 0 (.connect "a"), .go 0] = some p :=
    ⟨_, rfl⟩
  obtain ⟨p, hp⟩ := hreach
  refine ⟨p, ⟨_, hp⟩, (serializable_iff_compatible configured_oneCamera ⟨_, hp⟩ _ _).mpr ?_⟩
  intro s slot _ _ _
  exact ⟨fun t ht ht' => absurd ht' (by cases List.mem_singleton.mp ht; decide), trivial⟩

theorem Same.subscriberCount {h h' : ClientHandler} (hsame : Same h h') (id : String) :
    (h.slotAt id).map (·.subscriberCount) = (h'.slotAt id).map (·.subscriberCount) := by
  cases hslot : h.slotAt id with
  | none =>
    have hrel := hslot ▸ hsame.slots id
    cases hslot' : h'.slotAt id with
    | none => rfl
    | some slot' => exact absurd (hslot' ▸ hrel) nofun
  | some slot =>
    have hrel := hslot ▸ hsame.slots id
    cases hslot' : h'.slotAt id with
    | none => exact absurd (hslot' ▸ hrel) nofun
    | some slot' =>
      cases hslot' ▸ hrel with
      | some hslots => exact congrArg some hslots.count

/-- The client disconnects before its camera is recorded, so nothing is stopped for it, and the
capture starts after that. -/
theorem start_outlives_disconnect : ∃ p, Reachable poolStep (Pool.init oneCamera) p ∧
    (∃ sched h', run pairStep
        ⟨p.handler, .command (.startCapture "a" [.imu]), .command (.disconnect "a")⟩ sched =
          some ⟨h', .done, .done⟩ ∧
      (h'.sessions.lookup "a").map (·.connected) = some false ∧
      (h'.slotAt "cam1").map (fun slot => (slot.capturing, slot.subscriberCount)) =
        some (true, 1)) ∧
    ¬Serializable p.handler (.startCapture "a" [.imu]) (.disconnect "a") := by
  refine ⟨_, ⟨[.take 0 (.connect "a"), .go 0], rfl⟩,
    ⟨[true, false, true, true, true], _, rfl, rfl, rfl⟩, fun hserial => ?_⟩
  rcases hserial [true, false, true, true, true] _ rfl with hsame | hsame
  · exact absurd (hsame.subscriberCount "cam1") (by decide)
  · exact absurd (hsame.subscriberCount "cam1") (by decide)

end ClientHandler

end StereoCamera
