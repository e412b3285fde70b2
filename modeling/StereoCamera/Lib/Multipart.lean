import Mathlib.Data.List.Basic
import Mathlib.Logic.Function.Basic

/-! Messages of several parts on a stream on which each part says whether more of its message
follow, and messages that are taken from several such streams. -/

namespace Multipart

variable {α β κ : Type*}

structure MessagePart (β : Type*) where
  data : β
  more : Bool

def parts : List β → List (MessagePart β)
  | [] => []
  | [b] => [⟨b, false⟩]
  | b :: b' :: bs => ⟨b, true⟩ :: parts (b' :: bs)

/-- The messages that end in the stream, with what has been read of the first one. -/
def collect (read : List β) : List (MessagePart β) → List (List β)
  | [] => []
  | p :: ps =>
    if p.more then collect (read ++ [p.data]) ps else (read ++ [p.data]) :: collect [] ps

def messages (stream : List (MessagePart β)) : List (List β) := collect [] stream

@[simp] theorem collect_nil (read : List β) : collect read [] = [] := rfl

@[simp] theorem collect_more (read : List β) (b : β) (ps : List (MessagePart β)) :
    collect read (⟨b, true⟩ :: ps) = collect (read ++ [b]) ps := rfl

@[simp] theorem collect_last (read : List β) (b : β) (ps : List (MessagePart β)) :
    collect read (⟨b, false⟩ :: ps) = (read ++ [b]) :: collect [] ps := rfl

theorem collect_parts (read : List β) {m : List β} (hm : m ≠ []) (ps : List (MessagePart β)) :
    collect read (parts m ++ ps) = (read ++ m) :: collect [] ps := by
  induction m generalizing read with
  | nil => exact absurd rfl hm
  | cons b m ih =>
    cases m with
    | nil => simp [parts]
    | cons b' m =>
      simp only [parts, List.cons_append, collect_more]
      rw [ih _ (List.cons_ne_nil b' m), List.append_assoc, List.singleton_append]

theorem collect_of_more (read : List β) {front : List (MessagePart β)}
    (hmore : ∀ p ∈ front, p.more) :
    collect read front = [] := by
  induction front generalizing read with
  | nil => rfl
  | cons p front ih =>
    simp only [collect, hmore p (List.mem_cons_self ..), if_true]
    exact ih _ fun q hq => hmore q (List.mem_cons_of_mem p hq)

theorem messages_flatMap_parts {ms : List (List β)} (hms : ∀ m ∈ ms, m ≠ [])
    {front : List (MessagePart β)} (hmore : ∀ p ∈ front, p.more) :
    messages (ms.flatMap parts ++ front) = ms := by
  unfold messages
  induction ms with
  | nil => exact collect_of_more [] hmore
  | cons m ms ih =>
    rw [List.flatMap_cons, List.append_assoc, collect_parts [] (hms m (List.mem_cons_self ..)),
      List.nil_append, ih fun m' hm' => hms m' (List.mem_cons_of_mem m hm')]

theorem more_of_parts {m : List β} {front rest : List (MessagePart β)} {p : MessagePart β}
    (h : front ++ p :: rest = parts m) : (∀ q ∈ front, q.more) ∧ (p.more = true ↔ rest ≠ []) := by
  induction m generalizing front with
  | nil =>
    have hlength := congrArg List.length h
    simp [parts] at hlength
  | cons b m ih =>
    cases m with
    | nil =>
      cases front with
      | nil =>
        obtain ⟨rfl, rfl⟩ := List.cons.inj h
        simp
      | cons q front =>
        have hlength := congrArg List.length h
        simp [parts] at hlength
    | cons b' m =>
      cases front with
      | nil =>
        obtain ⟨rfl, rfl⟩ := List.cons.inj h
        cases m <;> simp [parts]
      | cons q front =>
        obtain ⟨rfl, htail⟩ := List.cons.inj h
        obtain ⟨hfront, hp⟩ := ih htail
        refine ⟨?_, hp⟩
        intro q' hq'
        rcases List.mem_cons.mp hq' with rfl | hq'
        · rfl
        · exact hfront q' hq'

/-! ## A stream that grows part by part -/

/-- The stream has the messages in whole, and of one more message all but the rest. -/
def Sent (stream : List (MessagePart β)) (ms : List (List β)) (m : List β)
    (rest : List (MessagePart β)) : Prop :=
  ∃ front, stream = ms.flatMap parts ++ front ∧ front ++ rest = parts m

theorem Sent.start {stream : List (MessagePart β)} {ms : List (List β)}
    (h : stream = ms.flatMap parts) (m : List β) : Sent stream ms m (parts m) :=
  ⟨[], by rw [h, List.append_nil], rfl⟩

theorem Sent.finish {stream : List (MessagePart β)} {ms : List (List β)} {m : List β}
    (h : Sent stream ms m []) : stream = (ms ++ [m]).flatMap parts := by
  obtain ⟨front, rfl, hfront⟩ := h
  rw [List.append_nil] at hfront
  rw [hfront, List.flatMap_append, List.flatMap_singleton]

theorem Sent.send {stream rest : List (MessagePart β)} {ms : List (List β)} {m : List β}
    {p : MessagePart β}
    (h : Sent stream ms m (p :: rest)) : Sent (stream ++ [p]) ms m rest := by
  obtain ⟨front, rfl, hfront⟩ := h
  exact ⟨front ++ [p], by rw [List.append_assoc], by rw [List.append_assoc, ← hfront]; rfl⟩

theorem Sent.messages {stream rest : List (MessagePart β)} {ms : List (List β)} {m : List β}
    (hms : ∀ m ∈ ms, m ≠ []) (h : Sent stream ms m rest) (hrest : rest ≠ []) :
    messages stream = ms := by
  obtain ⟨front, rfl, hfront⟩ := h
  obtain ⟨p, rest, rfl⟩ := List.exists_cons_of_ne_nil hrest
  exact messages_flatMap_parts hms (more_of_parts hfront).1

/-! ## What comes over several streams -/

variable [DecidableEq κ]

def ofKey (k : κ) (xs : List (κ × α)) : List α := (xs.filter (·.1 = k)).map Prod.snd

theorem ofKey_cons_self (k : κ) (a : α) (xs : List (κ × α)) :
    ofKey k ((k, a) :: xs) = a :: ofKey k xs := by
  simp [ofKey]

theorem ofKey_cons_of_ne {k k' : κ} (h : k' ≠ k) (a : α) (xs : List (κ × α)) :
    ofKey k ((k', a) :: xs) = ofKey k xs := by
  simp [ofKey, h]

theorem mem_ofKey {k : κ} {a : α} {xs : List (κ × α)} : a ∈ ofKey k xs ↔ (k, a) ∈ xs := by
  simp [ofKey]

/-- Where each stream has the images of some items, all together have the images of these items,
taken in one order. -/
theorem exists_of_ofKey (f : α → β) {received : List (κ × β)} {items : κ → List α}
    (h : ∀ k, ofKey k received = (items k).map f) :
    ∃ xs : List (κ × α), received = xs.map (fun x => (x.1, f x.2)) ∧ ∀ k, ofKey k xs = items k := by
  induction received generalizing items with
  | nil =>
    refine ⟨[], rfl, fun k => ?_⟩
    exact (List.map_eq_nil_iff.mp (h k).symm).symm
  | cons r received ih =>
    obtain ⟨k, b⟩ := r
    have hk := h k
    rw [ofKey_cons_self] at hk
    obtain ⟨a, as, hitems, rfl, has⟩ := List.map_eq_cons_iff.mp hk.symm
    have hrest : ∀ k', ofKey k' received = (Function.update items k as k').map f := by
      intro k'
      by_cases hk' : k' = k
      · subst hk'
        rw [Function.update_self, has]
      · rw [Function.update_of_ne hk', ← h k', ofKey_cons_of_ne (Ne.symm hk')]
    obtain ⟨xs, rfl, hxs⟩ := ih hrest
    refine ⟨(k, a) :: xs, rfl, fun k' => ?_⟩
    by_cases hk' : k' = k
    · subst hk'
      rw [ofKey_cons_self, hxs, Function.update_self, hitems]
    · rw [ofKey_cons_of_ne (Ne.symm hk'), hxs, Function.update_of_ne hk']

end Multipart
