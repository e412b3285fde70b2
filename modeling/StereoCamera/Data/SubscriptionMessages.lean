import Mathlib.Data.Finset.Dedup
import Mathlib.Data.Finset.Disjoint
import Mathlib.Data.Finset.Lattice.Lemmas
import Mathlib.Data.Finset.SDiff
import StereoCamera.Data.WSClientLoop

/-! What the messages of a client do to its subscriptions. The topics take effect one by one
while they are read, and whatever throws subscribes to everything. -/

namespace StereoCamera

namespace Json

def IsString (j : Json) : Prop := ∃ s, j = .string s

def leadingStrings : List Json → List Bytes
  | .string s :: js => s :: leadingStrings js
  | _ => []

def strings : Json → Option (List Bytes)
  | .array js => if (leadingStrings js).length = js.length then some (leadingStrings js) else none
  | _ => none

theorem length_leadingStrings_iff {js : List Json} :
    (leadingStrings js).length = js.length ↔ ∀ j ∈ js, j.IsString := by
  induction js with
  | nil => simp [leadingStrings]
  | cons j js ih =>
    cases j with
    | string s => simp [leadingStrings, ih, IsString]
    | _ => simp [leadingStrings, IsString]

end Json

namespace WSServer
open Json

def takeEffect (j : Json) (subs : Finset Bytes) : Finset Bytes :=
  match j.item "action", (j.item "topics").strings with
  | .string action, some topics =>
    if action = bytes "subscribe" then subs ∪ topics.toFinset
    else if action = bytes "unsubscribe" then subs \ topics.toFinset
    else subs
  | _, _ => subs

section
variable {e : JsonException}

theorem run_topicsLoop (f : Bytes → Finset Bytes → Finset Bytes) (js : List Json)
    (subs : Finset Bytes) :
    ∃ r, (forIn js PUnit.unit fun t _ => (do
        let topic ← t.getString
        modify (f topic)
        return ForInStep.yield PUnit.unit : Handler (ForInStep PUnit))).run.run subs =
      (r, (leadingStrings js).foldl (fun subs topic => f topic subs) subs) ∧
        ((∃ u, r = .ok u) ↔ ∀ j ∈ js, j.IsString) := by
  induction js generalizing subs with
  | nil => exact ⟨.ok .unit, rfl, by simp⟩
  | cons j js ih =>
    rw [List.forIn_cons]
    cases j with
    | string topic =>
      obtain ⟨r, hr, hok⟩ := ih (f topic subs)
      refine ⟨r, ?_, ?_⟩
      · exact (run_bind_of_ok rfl _).trans hr
      · rw [hok, List.forall_mem_cons, and_iff_right ⟨topic, rfl⟩]
    | _ =>
      refine ⟨.error _, rfl, iff_of_false nofun fun h => ?_⟩
      obtain ⟨s, hs⟩ := h _ List.mem_cons_self
      cases hs

theorem foldl_insert (ts : List Bytes) (subs : Finset Bytes) :
    ts.foldl (fun subs topic => insert topic subs) subs = subs ∪ ts.toFinset := by
  induction ts generalizing subs with
  | nil => exact (Finset.union_empty subs).symm
  | cons t ts ih =>
    rw [List.foldl_cons, ih, List.toFinset_cons, Finset.insert_union, Finset.union_insert]

theorem foldl_erase (ts : List Bytes) (subs : Finset Bytes) :
    ts.foldl (fun subs topic => subs.erase topic) subs = subs \ ts.toFinset := by
  induction ts generalizing subs with
  | nil => exact Finset.sdiff_empty.symm
  | cons t ts ih =>
    rw [List.foldl_cons, ih, List.toFinset_cons]
    ext topic
    simp only [Finset.mem_sdiff, Finset.mem_erase, Finset.mem_insert]
    tauto

/-! When nothing changes. -/

theorem union_eq_self_iff {ts : List Bytes} {subs : Finset Bytes} :
    subs ∪ ts.toFinset = subs ↔ ∀ t ∈ ts, t ∈ subs := by
  rw [Finset.union_eq_left]
  simp only [Finset.subset_iff, List.mem_toFinset]

theorem insert_union_eq_self_iff {all : Bytes} {ts : List Bytes} {subs : Finset Bytes} :
    insert all (subs ∪ ts.toFinset) = subs ↔ all ∈ subs ∧ ∀ t ∈ ts, t ∈ subs := by
  constructor
  · intro h
    have hsub : ∀ t, t = all ∨ t ∈ ts → t ∈ subs := by
      intro t ht
      rw [← h, Finset.mem_insert, Finset.mem_union, List.mem_toFinset]
      tauto
    exact ⟨hsub all (.inl rfl), fun t ht => hsub t (.inr ht)⟩
  · rintro ⟨hall, hts⟩
    rw [union_eq_self_iff.mpr hts, Finset.insert_eq_self]
    exact hall

theorem sdiff_eq_self_iff_forall {ts : List Bytes} {subs : Finset Bytes} :
    subs \ ts.toFinset = subs ↔ ∀ t ∈ ts, t ∉ subs := by
  rw [Finset.sdiff_eq_self_iff_disjoint, Finset.disjoint_right]
  simp only [List.mem_toFinset]

theorem insert_sdiff_eq_self_iff {all : Bytes} {ts : List Bytes} {subs : Finset Bytes} :
    insert all (subs \ ts.toFinset) = subs ↔
      all ∈ subs ∧ ∀ t ∈ ts, t ∈ subs → t = all := by
  constructor
  · intro h
    refine ⟨h ▸ Finset.mem_insert_self _ _, fun t ht hin => ?_⟩
    rw [← h, Finset.mem_insert, Finset.mem_sdiff, List.mem_toFinset] at hin
    exact hin.resolve_right fun hout => hout.2 ht
  · rintro ⟨hall, hts⟩
    ext t
    rw [Finset.mem_insert, Finset.mem_sdiff, List.mem_toFinset]
    constructor
    · rintro (rfl | h)
      · exact hall
      · exact h.1
    · intro hin
      by_cases ht : t ∈ ts
      · exact .inl (hts t ht hin)
      · exact .inr ⟨hin, ht⟩

variable {parse : Bytes → Except JsonException Json} {msg : Bytes} {j : Json}
  {subs subs' : Finset Bytes}

theorem handleText_of_ok (h : (updateSubscriptions parse msg).run.run subs = (.ok (), subs')) :
    ((handleText parse msg).run.run subs).2 = subs' := by
  unfold handleText
  rw [ExceptT.run_tryCatch, StateT.run_bind, h]
  rfl

theorem handleText_of_error {e : JsonException}
    (h : (updateSubscriptions parse msg).run.run subs = (.error e, subs')) :
    ((handleText parse msg).run.run subs).2 = insert (bytes "all") subs' := by
  unfold handleText
  rw [ExceptT.run_tryCatch, StateT.run_bind, h]
  rfl

def topicsOf (j : Json) : List Bytes := leadingStrings (j.item "topics").elements

def Unread (j : Json) : Prop := ∃ t ∈ (j.item "topics").elements, ¬t.IsString

theorem handleText_topics {f : Bytes → Finset Bytes → Finset Bytes}
    (h : (updateSubscriptions parse msg).run.run subs =
      ((do
        forIn (j.item "topics").elements PUnit.unit fun t _ => do
          let topic ← t.getString
          modify (f topic)
          return ForInStep.yield PUnit.unit
        pure () : Handler Unit)).run.run subs) :
    (¬Unread j → ((handleText parse msg).run.run subs).2 =
      (topicsOf j).foldl (fun subs topic => f topic subs) subs) ∧
    (Unread j → ((handleText parse msg).run.run subs).2 =
      insert (bytes "all") ((topicsOf j).foldl (fun subs topic => f topic subs) subs)) := by
  obtain ⟨r, hr, hok⟩ := run_topicsLoop f (j.item "topics").elements subs
  have hread : Unread j ↔ ¬∃ u, r = .ok u := by
    rw [hok]
    unfold Unread
    simp only [not_forall, exists_prop]
  rcases r with e | u
  · have hthrown : Unread j := hread.mpr nofun
    refine ⟨fun hno => absurd hthrown hno, fun _ => handleText_of_error (e := e) ?_⟩
    exact h.trans (run_bind_of_error hr _)
  · refine ⟨fun _ => handleText_of_ok ?_, fun hun => absurd ⟨u, rfl⟩ (hread.mp hun)⟩
    exact h.trans (run_bind_of_ok hr _)

theorem elements_of_not_contains {key : String} (h : ¬j.contains key = true) :
    (j.item key).elements = [] := by
  cases j with
  | object members =>
    have hnone : members.lookup key = none := by
      rwa [Json.contains, Option.not_isSome_iff_eq_none] at h
    rw [Json.item, hnone]
    rfl
  | _ => rfl

theorem run_subscribe (subs : Finset Bytes) (hparse : parse msg = .ok j)
    (haction : j.value "action" [] = .ok (bytes "subscribe")) :
    (updateSubscriptions parse msg).run.run subs =
      ((do
        forIn (j.item "topics").elements PUnit.unit fun t _ => do
          let topic ← t.getString
          modify (insert topic)
          return ForInStep.yield PUnit.unit
        pure () : Handler Unit)).run.run subs := by
  unfold updateSubscriptions
  rw [hparse, run_liftM_ok_bind, haction, run_liftM_ok_bind]
  by_cases htopics : j.contains "topics" = true
  · rw [if_pos ⟨rfl, htopics⟩]
  · rw [if_neg fun h => htopics h.2, if_neg fun h => htopics h.2,
      elements_of_not_contains htopics]
    rfl

theorem run_unsubscribe (subs : Finset Bytes) (hparse : parse msg = .ok j)
    (haction : j.value "action" [] = .ok (bytes "unsubscribe")) :
    (updateSubscriptions parse msg).run.run subs =
      ((do
        forIn (j.item "topics").elements PUnit.unit fun t _ => do
          let topic ← t.getString
          modify (·.erase topic)
          return ForInStep.yield PUnit.unit
        pure () : Handler Unit)).run.run subs := by
  have hne : bytes "unsubscribe" ≠ bytes "subscribe" := by decide
  unfold updateSubscriptions
  rw [hparse, run_liftM_ok_bind, haction, run_liftM_ok_bind, if_neg fun h => hne h.1]
  by_cases htopics : j.contains "topics" = true
  · rw [if_pos ⟨rfl, htopics⟩]
  · rw [if_neg fun h => htopics h.2, elements_of_not_contains htopics]
    rfl

theorem run_other {action : Bytes} (hparse : parse msg = .ok j)
    (haction : j.value "action" [] = .ok action) (hsub : action ≠ bytes "subscribe")
    (hunsub : action ≠ bytes "unsubscribe") :
    (updateSubscriptions parse msg).run.run subs = (.ok (), subs) := by
  unfold updateSubscriptions
  rw [hparse, run_liftM_ok_bind, haction, run_liftM_ok_bind, if_neg fun h => hsub h.1,
    if_neg fun h => hunsub h.1]
  rfl

theorem run_illTyped {e : JsonException} (hparse : parse msg = .ok j)
    (haction : j.value "action" [] = .error e) :
    (updateSubscriptions parse msg).run.run subs = (.error e, subs) := by
  unfold updateSubscriptions
  rw [hparse, run_liftM_ok_bind, haction]
  rfl

/-- A message that is not what it should be changes nothing all the same. -/
structure AsMeant (j : Json) (subs : Finset Bytes) : Prop where
  action : j.contains "action" → ¬(j.item "action").IsString → bytes "all" ∈ subs
  unread : (j.item "action" = .string (bytes "subscribe") ∨
    j.item "action" = .string (bytes "unsubscribe")) → Unread j → bytes "all" ∈ subs
  subscribe : j.item "action" = .string (bytes "subscribe") → (j.item "topics").strings = none →
    ∀ t ∈ topicsOf j, t ∈ subs
  unsubscribe : j.item "action" = .string (bytes "unsubscribe") →
    (j.item "topics").strings = none → ∀ t ∈ topicsOf j, t ∈ subs → t = bytes "all" ∧ Unread j

theorem topicsOf_of_strings {topics : List Bytes} (h : (j.item "topics").strings = some topics) :
    topicsOf j = topics ∧ ¬Unread j := by
  unfold topicsOf Unread
  generalize j.item "topics" = v at h
  cases v with
  | array js =>
    rw [Json.strings] at h
    split_ifs at h with hall
    refine ⟨Option.some.inj h, ?_⟩
    rintro ⟨t, ht, hno⟩
    exact hno (length_leadingStrings_iff.mp hall t ht)
  | _ => cases h

theorem takeEffect_subscribe (haction : j.item "action" = .string (bytes "subscribe")) :
    takeEffect j subs = subs ∪ (((j.item "topics").strings).getD []).toFinset := by
  unfold takeEffect
  rw [haction]
  cases (j.item "topics").strings with
  | none => exact (Finset.union_empty subs).symm
  | some topics => exact if_pos rfl

theorem takeEffect_unsubscribe (haction : j.item "action" = .string (bytes "unsubscribe")) :
    takeEffect j subs = subs \ (((j.item "topics").strings).getD []).toFinset := by
  have hne : bytes "unsubscribe" ≠ bytes "subscribe" := by decide
  unfold takeEffect
  rw [haction]
  cases (j.item "topics").strings with
  | none => exact Finset.sdiff_empty.symm
  | some topics => exact (if_neg hne).trans (if_pos rfl)

theorem takeEffect_other (hsub : j.item "action" ≠ .string (bytes "subscribe"))
    (hunsub : j.item "action" ≠ .string (bytes "unsubscribe")) : takeEffect j subs = subs := by
  unfold takeEffect
  split
  · rename_i action topics haction htopics
    rw [if_neg fun h => hsub (haction.trans (congrArg Json.string h)),
      if_neg fun h => hunsub (haction.trans (congrArg Json.string h))]
  · rfl

theorem subscribe_iff (hparse : parse msg = .ok j)
    (hvalue : j.value "action" [] = .ok (bytes "subscribe"))
    (haction : j.item "action" = .string (bytes "subscribe")) :
    ((handleText parse msg).run.run subs).2 = takeEffect j subs ↔ AsMeant j subs := by
  have hne : j.item "action" ≠ .string (bytes "unsubscribe") := by
    rw [haction]
    exact fun h => absurd (Json.string.inj h) (by decide)
  obtain ⟨hread, hunread⟩ := handleText_topics (run_subscribe subs hparse hvalue)
  rw [foldl_insert] at hread hunread
  rw [takeEffect_subscribe haction]
  have hmeant : AsMeant j subs ↔ (Unread j → bytes "all" ∈ subs) ∧
      ((j.item "topics").strings = none → ∀ t ∈ topicsOf j, t ∈ subs) := by
    constructor
    · exact fun h => ⟨h.unread (.inl haction), h.subscribe haction⟩
    · exact fun h => ⟨fun _ hno => absurd ⟨_, haction⟩ hno, fun _ => h.1, fun _ => h.2,
        fun hun => absurd hun hne⟩
  rw [hmeant]
  -- Where the topics are not all strings, those in front of the first other one are added.
  rcases htopics : (j.item "topics").strings with _ | topics
  · rw [Option.getD_none, List.toFinset_nil, Finset.union_empty]
    by_cases hun : Unread j
    · rw [hunread hun, insert_union_eq_self_iff]
      simp only [hun, forall_const]
    · rw [hread hun, union_eq_self_iff]
      simp only [hun, forall_const, IsEmpty.forall_iff, true_and]
  · obtain ⟨rfl, hun⟩ := topicsOf_of_strings htopics
    rw [hread hun]
    exact iff_of_true rfl ⟨fun h => absurd h hun, nofun⟩

theorem unsubscribe_iff (hparse : parse msg = .ok j)
    (hvalue : j.value "action" [] = .ok (bytes "unsubscribe"))
    (haction : j.item "action" = .string (bytes "unsubscribe")) :
    ((handleText parse msg).run.run subs).2 = takeEffect j subs ↔ AsMeant j subs := by
  have hne : j.item "action" ≠ .string (bytes "subscribe") := by
    rw [haction]
    exact fun h => absurd (Json.string.inj h) (by decide)
  obtain ⟨hread, hunread⟩ := handleText_topics (run_unsubscribe subs hparse hvalue)
  rw [foldl_erase] at hread hunread
  rw [takeEffect_unsubscribe haction]
  have hmeant : AsMeant j subs ↔ (Unread j → bytes "all" ∈ subs) ∧
      ((j.item "topics").strings = none →
        ∀ t ∈ topicsOf j, t ∈ subs → t = bytes "all" ∧ Unread j) := by
    constructor
    · exact fun h => ⟨h.unread (.inr haction), h.unsubscribe haction⟩
    · exact fun h => ⟨fun _ hno => absurd ⟨_, haction⟩ hno, fun _ => h.1,
        fun hsub => absurd hsub hne, fun _ => h.2⟩
  rw [hmeant]
  rcases htopics : (j.item "topics").strings with _ | topics
  · rw [Option.getD_none, List.toFinset_nil, Finset.sdiff_empty]
    by_cases hun : Unread j
    · rw [hunread hun, insert_sdiff_eq_self_iff]
      simp only [hun, forall_const, and_true]
    · rw [hread hun, sdiff_eq_self_iff_forall]
      simp only [hun, forall_const, IsEmpty.forall_iff, true_and, and_false, imp_false]
  · obtain ⟨rfl, hun⟩ := topicsOf_of_strings htopics
    rw [hread hun]
    exact iff_of_true rfl ⟨fun h => absurd h hun, nofun⟩

theorem other_iff (hparse : parse msg = .ok j) {action : Bytes}
    (hvalue : j.value "action" [] = .ok action)
    (haction : j.contains "action" → (j.item "action").IsString)
    (hsub : action ≠ bytes "subscribe") (hunsub : action ≠ bytes "unsubscribe")
    (hsub' : j.item "action" ≠ .string (bytes "subscribe"))
    (hunsub' : j.item "action" ≠ .string (bytes "unsubscribe")) :
    ((handleText parse msg).run.run subs).2 = takeEffect j subs ↔ AsMeant j subs := by
  rw [takeEffect_other hsub' hunsub', handleText_of_ok (run_other hparse hvalue hsub hunsub)]
  refine iff_of_true rfl ⟨fun h hno => absurd (haction h) hno, ?_, ?_, ?_⟩
  · rintro (h | h)
    · exact absurd h hsub'
    · exact absurd h hunsub'
  · exact fun h => absurd h hsub'
  · exact fun h => absurd h hunsub'

theorem illTyped_iff (hparse : parse msg = .ok j) {e : JsonException}
    (hvalue : j.value "action" [] = .error e) (hthere : j.contains "action")
    (haction : ¬(j.item "action").IsString) :
    ((handleText parse msg).run.run subs).2 = takeEffect j subs ↔ AsMeant j subs := by
  have hno : ∀ action, j.item "action" ≠ .string action := fun action h => haction ⟨action, h⟩
  rw [takeEffect_other (hno _) (hno _), handleText_of_error (run_illTyped hparse hvalue),
    Finset.insert_eq_self]
  constructor
  · refine fun hall => ⟨fun _ _ => hall, fun _ _ => hall, ?_, ?_⟩
    · exact fun h => absurd h (hno _)
    · exact fun h => absurd h (hno _)
  · exact fun h => h.action hthere haction

/-- The message takes effect as a whole if and only if it is well formed or what it does wrong
is so already. -/
theorem handleText_eq_takeEffect_iff (parse : Bytes → Except JsonException Json) (msg : Bytes)
    (subs : Finset Bytes) (members : List (String × Json))
    (hparse : parse msg = .ok (.object members)) :
    ((handleText parse msg).run.run subs).2 = takeEffect (.object members) subs ↔
      AsMeant (.object members) subs := by
  rcases hv : members.lookup "action" with _ | v
  · have hitem : (Json.object members).item "action" = .null := by
      rw [Json.item, hv]
      rfl
    have hvalue : (Json.object members).value "action" [] = .ok [] := by
      rw [Json.value, Json.valueWith, hv]
    refine other_iff hparse hvalue (fun h => ?_) (by decide) (by decide) ?_ ?_
    · rw [Json.contains, hv] at h
      cases h
    · exact hitem ▸ nofun
    · exact hitem ▸ nofun
  · have hitem : (Json.object members).item "action" = v := by
      rw [Json.item, hv]
      rfl
    have hthere : (Json.object members).contains "action" := by
      rw [Json.contains, hv]
      rfl
    have hvalue : (Json.object members).value "action" [] = v.getString := by
      rw [Json.value, Json.valueWith, hv]
    by_cases hstring : v.IsString
    · obtain ⟨action, rfl⟩ := hstring
      by_cases hsub : action = bytes "subscribe"
      · subst hsub
        exact subscribe_iff hparse hvalue hitem
      by_cases hunsub : action = bytes "unsubscribe"
      · subst hunsub
        exact unsubscribe_iff hparse hvalue hitem
      refine other_iff hparse hvalue (fun _ => ⟨action, hitem⟩) hsub hunsub ?_ ?_
      · exact fun h => hsub (Json.string.inj (hitem.symm.trans h))
      · exact fun h => hunsub (Json.string.inj (hitem.symm.trans h))
    · have herror : ∃ e, v.getString = .error e := by
        cases v with
        | string s => exact absurd ⟨s, rfl⟩ hstring
        | _ => exact ⟨_, rfl⟩
      obtain ⟨e, he⟩ := herror
      exact illTyped_iff hparse (hvalue.trans he) hthere (hitem ▸ hstring)

end

/-- An unsubscribe message whose second topic is a number. -/
def mixedMembers : List (String × Json) :=
  [("action", .string (bytes "unsubscribe")),
    ("topics", .array [.string (bytes "cam1/imu"), .integer 5])]

def mixedText : Bytes :=
  bytes "\x7b\"action\": \"unsubscribe\", \"topics\": [\"cam1/imu\", 5]\x7d"

def parseMixed (text : Bytes) : Except JsonException Json :=
  if text = mixedText then .ok (.object mixedMembers) else .error (.parseError text)

theorem handleText_eq_takeEffect_mixed :
    ((handleText parseMixed mixedText).run.run ∅).2 = takeEffect (.object mixedMembers) ∅ ↔
      AsMeant (.object mixedMembers) ∅ :=
  handleText_eq_takeEffect_iff parseMixed mixedText ∅ mixedMembers (if_pos rfl)

/-- Unsubscribing half takes effect, and then subscribes to everything. -/
theorem unsubscribe_enlarges :
    let after := ((handleText parseMixed mixedText).run.run {bytes "cam1/imu"}).2
    after = {bytes "all"} ∧
      after ≠ takeEffect (.object mixedMembers) {bytes "cam1/imu"} ∧
      ¬after ⊆ {bytes "cam1/imu"} := by
  intro after
  have hparse : parseMixed mixedText = .ok (.object mixedMembers) := if_pos rfl
  have hafter : after = {bytes "all"} := by
    have hun : Unread (.object mixedMembers) := by
      refine ⟨.integer 5, List.mem_cons_of_mem _ List.mem_cons_self, ?_⟩
      rintro ⟨s, hs⟩
      cases hs
    have hvalue : (Json.object mixedMembers).value "action" [] = .ok (bytes "unsubscribe") := rfl
    have herased := (handleText_topics
      (run_unsubscribe {bytes "cam1/imu"} hparse hvalue)).2 hun
    exact herased.trans (by decide)
  have htake : takeEffect (.object mixedMembers) {bytes "cam1/imu"} = {bytes "cam1/imu"} := rfl
  refine ⟨hafter, ?_, ?_⟩
  · rw [hafter, htake]
    decide
  · rw [hafter]
    decide

end WSServer

end StereoCamera
