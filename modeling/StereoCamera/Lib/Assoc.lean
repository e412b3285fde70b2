import Mathlib.Data.List.AList

/-! Lookups after `replace`, which keeps the order of the keys, after some keys are left out,
and after all values are changed. -/

namespace AList

universe u v
variable {α : Type u} {β : α → Type v} [DecidableEq α]

theorem lookup_replace_self {a : α} (b : β a) {s : AList β} (h : a ∈ s) :
    (s.replace a b).lookup a = some b := by
  obtain ⟨entries, nodup⟩ := s
  replace h : a ∈ entries.keys := h
  change (List.kreplace a b entries).dlookup a = some b
  induction entries with
  | nil => exact absurd h List.not_mem_nil
  | cons e es ih =>
    by_cases he : a = e.1
    · rw [List.kreplace, List.lookmap_cons_some _ _ (by rw [if_pos he]), List.dlookup_cons_eq]
    · rw [List.kreplace, List.lookmap_cons_none _ _ (by rw [if_neg he]),
        List.dlookup_cons_ne _ _ he]
      refine ih nodup.of_cons ?_
      simpa only [List.keys_cons, List.mem_cons, he, false_or] using h

theorem lookup_replace_ne {a a' : α} (b : β a) {s : AList β} (h : a' ≠ a) :
    (s.replace a b).lookup a' = s.lookup a' := by
  obtain ⟨entries, nodup⟩ := s
  change (List.kreplace a b entries).dlookup a' = entries.dlookup a'
  induction entries with
  | nil => rfl
  | cons e es ih =>
    by_cases he : a = e.1
    · subst he
      rw [List.kreplace, List.lookmap_cons_some _ _ (by rw [if_pos rfl]),
        List.dlookup_cons_ne _ _ h]
      exact List.dlookup_cons_ne _ ⟨e.1, b⟩ h
    · rw [List.kreplace, List.lookmap_cons_none _ _ (by rw [if_neg he])]
      by_cases he' : a' = e.1
      · subst he'
        rw [List.dlookup_cons_eq, List.dlookup_cons_eq]
      · rw [List.dlookup_cons_ne _ _ he', List.dlookup_cons_ne _ _ he']
        exact ih nodup.of_cons

theorem perm_filterMap_replace {γ : Type*} (f : Sigma β → Option γ) {a : α} {b : β a} (b' : β a)
    {s : AList β} (h : s.lookup a = some b) :
    ((f ⟨a, b'⟩).toList ++ s.entries.filterMap f).Perm
      ((f ⟨a, b⟩).toList ++ (s.replace a b').entries.filterMap f) := by
  have hcons : ∀ (e : Sigma β) es, (e :: es).filterMap f = (f e).toList ++ es.filterMap f := by
    intro e es
    rw [List.filterMap_cons]
    cases f e <;> rfl
  obtain ⟨entries, nodup⟩ := s
  replace h : entries.dlookup a = some b := h
  change List.Perm _ ((f ⟨a, b⟩).toList ++ (List.kreplace a b' entries).filterMap f)
  change List.Perm ((f ⟨a, b'⟩).toList ++ entries.filterMap f) _
  clear nodup
  induction entries with
  | nil => cases h
  | cons e es ih =>
    by_cases he : a = e.1
    · obtain ⟨a, old⟩ := e
      obtain rfl := he
      obtain rfl := Option.some.inj ((List.dlookup_cons_eq es _ old).symm.trans h)
      rw [List.kreplace, List.lookmap_cons_some _ _ (by rw [if_pos rfl]), hcons, hcons]
      exact List.perm_append_comm_assoc _ _ _
    · rw [List.dlookup_cons_ne _ _ he] at h
      rw [List.kreplace, List.lookmap_cons_none _ _ (by rw [if_neg he]), hcons, hcons]
      apply (List.perm_append_comm_assoc _ _ _).trans
      exact ((ih h).append_left _).trans (List.perm_append_comm_assoc _ _ _)

def filterKeys (p : α → Bool) (s : AList β) : AList β :=
  ⟨s.entries.filter fun e => p e.1, s.nodupKeys.sublist List.filter_sublist⟩

theorem lookup_filterKeys (p : α → Bool) (s : AList β) (a : α) :
    (s.filterKeys p).lookup a = if p a then s.lookup a else none := by
  obtain ⟨entries, nodup⟩ := s
  change (entries.filter fun e => p e.1).dlookup a = if p a then entries.dlookup a else none
  induction entries with
  | nil => simp
  | cons e es ih =>
    have htail := ih nodup.of_cons
    rw [List.filter_cons]
    by_cases he : a = e.1
    · subst he
      by_cases hp : p e.1 = true
      · rw [if_pos hp, if_pos hp, List.dlookup_cons_eq, List.dlookup_cons_eq]
      · rw [if_neg hp, if_neg hp, htail, if_neg hp]
    · rw [List.dlookup_cons_ne _ _ he, ← htail]
      split_ifs
      · exact List.dlookup_cons_ne _ _ he
      · rfl

def mapValues {γ : α → Type v} (f : ∀ a, β a → γ a) (s : AList β) : AList γ where
  entries := s.entries.map (.map id f)
  nodupKeys := by
    have hkeys : (s.entries.map (.map id f) : List (Sigma γ)).keys = s.entries.keys := by
      unfold List.keys
      rw [List.map_map]
      rfl
    unfold List.NodupKeys
    rw [hkeys]
    exact s.nodupKeys

theorem lookup_mapValues {γ : α → Type v} (f : ∀ a, β a → γ a) (s : AList β) (a : α) :
    (s.mapValues f).lookup a = (s.lookup a).map (f a) := List.dlookup_map₂ a

end AList
