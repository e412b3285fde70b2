import Mathlib.Data.Finset.Erase
import Mathlib.Data.Finset.Insert
import StereoCamera.Data.WSFrameRoundTrip

/-! What `client_loop` does with the bytes of a client, and which byte sequences end its
thread with an exception. The half of the loop that queues data frames throws nothing. -/

namespace StereoCamera.WSServer
open PartialIO

abbrev Handler := ExceptT JsonException (StateM (Finset Bytes))

/-- The `try` block of the message handler; the state is `subscriptions`. -/
def updateSubscriptions (parse : Bytes → Except JsonException Json) (msg : Bytes) :
    Handler Unit := do
  let j ← parse msg
  let action ← j.value "action" []
  if action = bytes "subscribe" ∧ j.contains "topics" then
    for t in (j.item "topics").elements do
      let topic ← t.getString
      modify (insert topic)
  else if action = bytes "unsubscribe" ∧ j.contains "topics" then
    for t in (j.item "topics").elements do
      let topic ← t.getString
      modify (·.erase topic)

def handleText (parse : Bytes → Except JsonException Json) (msg : Bytes) : Handler Unit :=
  tryCatch (updateSubscriptions parse msg) fun _ => modify (insert (bytes "all"))

/-- One turn of the loop: whether `running_ && active` holds, and whether `select` reports
the socket. -/
structure Turn where
  alive : Bool
  readable : Bool

/-- The frames that `client_loop` takes from the client in the given turns; the result is
`subscriptions`. -/
def clientLoop (parse : Bytes → Except JsonException Json) :
    List Turn → Source UInt8 → Finset Bytes → Except StdException (Finset Bytes)
  | [], _, subs => .ok subs
  | turn :: turns, ssl, subs =>
    if !turn.alive then .ok subs
    else if !turn.readable then clientLoop parse turns ssl subs
    else
      -- The read stands outside the `try` block.
      match wsReadFrame ssl [] with
      | .error e => .error e
      | .ok none => .ok subs
      | .ok (some (frame, ssl)) =>
        if frame.opcode = 0x8 then .ok subs
        else if frame.opcode = 0x1 ∧ frame.payload ≠ [] then
          match (handleText parse frame.payload).run.run subs with
          | (.error e, _) => .error (.json e)
          | (.ok _, subs) => clientLoop parse turns ssl subs
        else clientLoop parse turns ssl subs

/-- After frames that are complete, not too long and not a close frame, the bytes announce a
payload longer than a vector can hold. -/
inductive Oversized : Bytes → Prop
  | here {bs body : Bytes} {hdr : FrameHeader} (hparse : parseHeader.run bs = some (hdr, body))
    (hbig : maxSize < hdr.payloadLen.toNat) : Oversized bs
  | later {bs body : Bytes} {hdr : FrameHeader} (hparse : parseHeader.run bs = some (hdr, body))
    (hmax : hdr.payloadLen.toNat ≤ maxSize) (hbody : hdr.payloadLen.toNat ≤ body.length)
    (hopen : hdr.opcode ≠ 0x8) (hrest : Oversized (body.drop hdr.payloadLen.toNat)) :
    Oversized bs

section
variable (parse : Bytes → Except JsonException Json)

theorem handleText_ok (msg : Bytes) (subs : Finset Bytes) :
    ∃ subs', (handleText parse msg).run.run subs = (.ok (), subs') := by
  -- Whatever the payload, the handler catches.
  unfold handleText
  rcases hbody : (updateSubscriptions parse msg).run.run subs with ⟨_ | _, subs'⟩
  · refine ⟨insert (bytes "all") subs', ?_⟩
    rw [ExceptT.run_tryCatch, StateT.run_bind, hbody]
    rfl
  · refine ⟨subs', ?_⟩
    rw [ExceptT.run_tryCatch, StateT.run_bind, hbody]
    rfl

theorem parseHeader_of_wsReadFrame {ssl t : Source UInt8} {frame : Frame}
    (h : wsReadFrame ssl [] = .ok (some (frame, t))) :
    ∃ hdr body, parseHeader.run ssl.data = some (hdr, body) ∧ frame.opcode = hdr.opcode ∧
      hdr.payloadLen.toNat ≤ maxSize ∧ hdr.payloadLen.toNat ≤ body.length ∧
      t.data = body.drop hdr.payloadLen.toNat := by
  unfold wsReadFrame at h
  rcases hs : readHeader.run ssl with _ | ⟨hdr, s⟩
  · rw [hs] at h
    cases h
  · rw [hs] at h
    dsimp only at h
    refine ⟨hdr, s.data, computes_readHeader.sound ssl hdr s hs, ?_⟩
    split_ifs at h with hpos hbig
    · split at h
      · cases h
      · rename_i hread
        cases h
        obtain ⟨hlen, -, hdata⟩ := Source.readLoop_eq_some hread
        exact ⟨rfl, Nat.le_of_not_gt hbig, hlen, hdata⟩
    · cases h
      rw [toNat_eq_zero_of_not_pos hpos]
      exact ⟨rfl, Nat.zero_le _, Nat.zero_le _, rfl⟩

theorem parseHeader_of_wsReadFrame_error {ssl : Source UInt8} {e : StdException}
    (h : wsReadFrame ssl [] = .error e) :
    ∃ hdr body, parseHeader.run ssl.data = some (hdr, body) ∧
      maxSize < hdr.payloadLen.toNat := by
  unfold wsReadFrame at h
  rcases hs : readHeader.run ssl with _ | ⟨hdr, s⟩
  · rw [hs] at h
    cases h
  · rw [hs] at h
    dsimp only at h
    split_ifs at h with hpos hbig
    · exact ⟨hdr, s.data, computes_readHeader.sound ssl hdr s hs, hbig⟩
    · split at h <;> cases h

theorem wsReadFrame_oversized {ssl : Source UInt8} (hssl : ssl.Positive) {hdr : FrameHeader}
    {body : Bytes} (hparse : parseHeader.run ssl.data = some (hdr, body))
    (hbig : maxSize < hdr.payloadLen.toNat) : wsReadFrame ssl [] = .error .lengthError := by
  obtain ⟨s, hs, -, -⟩ := computes_readHeader.complete ssl _ _ hssl hparse
  have hpos : hdr.payloadLen > 0 := by
    rw [gt_iff_lt, UInt64.lt_iff_toNat_lt]
    exact (Nat.zero_le _).trans_lt hbig
  unfold wsReadFrame
  rw [hs]
  dsimp only
  rw [if_pos hpos, if_pos hbig]

theorem clientLoop_ok (turns : List Turn) {ssl : Source UInt8} (subs : Finset Bytes)
    (h : ¬Oversized ssl.data) : ∃ subs', clientLoop parse turns ssl subs = .ok subs' := by
  induction turns generalizing ssl subs with
  | nil => exact ⟨subs, rfl⟩
  | cons turn turns ih =>
    unfold clientLoop
    split_ifs
    · exact ⟨subs, rfl⟩
    · exact ih subs h
    · rcases hread : wsReadFrame ssl [] with e | _ | ⟨frame, t⟩
      · -- Only the vector of an oversized payload throws.
        obtain ⟨hdr, body, hparse, hbig⟩ := parseHeader_of_wsReadFrame_error hread
        exact absurd (.here hparse hbig) h
      · exact ⟨subs, rfl⟩
      · obtain ⟨hdr, body, hparse, hop, hmax, hbody, hdata⟩ := parseHeader_of_wsReadFrame hread
        dsimp only
        by_cases hclose : frame.opcode = 0x8
        · exact ⟨subs, if_pos hclose⟩
        · have ht : ¬Oversized t.data := fun hrest =>
            h (.later hparse hmax hbody (hop ▸ hclose) (hdata ▸ hrest))
          rw [if_neg hclose]
          split_ifs
          · obtain ⟨subs', hsubs⟩ := handleText_ok parse frame.payload subs
            rw [hsubs]
            exact ih subs' ht
          · exact ih subs ht

theorem clientLoop_throws {ssl : Source UInt8} (hssl : ssl.Positive) (h : Oversized ssl.data)
    (subs : Finset Bytes) :
    ∃ turns, clientLoop parse turns ssl subs = .error .lengthError := by
  generalize hdata : ssl.data = bs at h
  induction h generalizing ssl subs with
  | here hparse hbig =>
    subst hdata
    refine ⟨[⟨true, true⟩], ?_⟩
    simp only [clientLoop, wsReadFrame_oversized hssl hparse hbig]
    rfl
  | @later bs body hdr hparse hmax hbody hopen hrest ih =>
    subst hdata
    obtain ⟨t, ht, htdata, htpos⟩ := wsReadFrame_of_parseHeader hssl hparse hmax hbody
    by_cases htext : hdr.opcode = 0x1 ∧ hdr.unmask (body.take hdr.payloadLen.toNat) ≠ []
    · obtain ⟨subs', hsubs⟩ :=
        handleText_ok parse (hdr.unmask (body.take hdr.payloadLen.toNat)) subs
      obtain ⟨turns, hturns⟩ := ih htpos subs' htdata
      refine ⟨⟨true, true⟩ :: turns, ?_⟩
      simp only [clientLoop, ht, if_neg hopen, if_pos htext, hsubs, hturns]
      rfl
    · obtain ⟨turns, hturns⟩ := ih htpos subs htdata
      refine ⟨⟨true, true⟩ :: turns, ?_⟩
      simp only [clientLoop, ht, if_neg hopen, if_neg htext, hturns]
      rfl

end

/-- No delivery of the bytes makes `client_loop` throw, exactly when they hold no oversized
frame. -/
theorem clientLoop_safe_iff (parse : Bytes → Except JsonException Json) (bs : Bytes) :
    (∀ delivers turns subs, ∃ subs', clientLoop parse turns ⟨bs, delivers⟩ subs = .ok subs') ↔
      ¬Oversized bs := by
  constructor
  · intro hsafe hbig
    have hpos : (⟨bs, fun _ => 1⟩ : Source UInt8).Positive := fun _ => Nat.one_pos
    obtain ⟨turns, hturns⟩ := clientLoop_throws parse hpos hbig ∅
    obtain ⟨subs', hsubs⟩ := hsafe (fun _ => 1) turns ∅
    cases hturns.symm.trans hsubs
  · exact fun h delivers turns subs => clientLoop_ok parse turns subs h

def oversizedHeader : Bytes := [0x82, 127, 0x80, 0, 0, 0, 0, 0, 0, 0]

theorem oversizedHeader_ends_thread :
    ∃ turns, clientLoop (fun _ => .error (.parseError [])) turns ⟨oversizedHeader, fun _ => 1⟩ ∅ =
      .error .lengthError :=
  clientLoop_throws _ (fun _ => Nat.one_pos) (.here rfl (by decide)) ∅

end StereoCamera.WSServer
