import StereoCamera.Data.WSFragments
import StereoCamera.Lib.Transition

/-! `client_loop` over TLS records. `select` sees the records that wait in the socket, and not
what `SSL_read` has decrypted beyond the frame that was asked for. -/

namespace StereoCamera.WSServer
open PartialIO Transition

def nextFrame (bs : Bytes) : Option (Frame × Bytes) :=
  match parseHeader.run bs with
  | none => none
  | some (hdr, body) =>
    let len := hdr.payloadLen.toNat
    if len ≤ maxSize ∧ len ≤ body.length then
      some (⟨hdr.opcode, hdr.unmask (body.take len)⟩, body.drop len)
    else none

theorem prefixed_parseHeader : Parser.Prefixed parseHeader := by
  refine .bind (.split 2) fun hdr => .bind ?_ fun payloadLen => .bind ?_ fun mask => .pure _
  · unfold parsePayloadLen
    split_ifs
    · exact .bind (.split 2) fun ext => .pure _
    · exact .bind (.split 8) fun ext => .pure _
    · exact .pure _
  · unfold parseMask
    split_ifs
    · exact .split 4
    · exact .pure _

theorem exists_used {bs rest : Bytes} {frame : Frame} (h : nextFrame bs = some (frame, rest)) :
    ∃ used, used ≠ [] ∧ bs = used ++ rest ∧
      ∀ more, nextFrame (used ++ more) = some (frame, more) := by
  unfold nextFrame at h
  rcases hparse : parseHeader.run bs with _ | ⟨hdr, body⟩
  · rw [hparse] at h
    cases h
  rw [hparse] at h
  dsimp only at h
  split_ifs at h with hlen
  cases h
  obtain ⟨used, rfl, hused⟩ := prefixed_parseHeader bs hdr body hparse
  have htake := List.length_take_of_le hlen.2
  refine ⟨used ++ body.take hdr.payloadLen.toNat, ?_, ?_, fun more => ?_⟩
  · intro hnil
    obtain ⟨rfl, -⟩ := List.append_eq_nil_iff.mp hnil
    cases hused []
  · rw [List.append_assoc, List.take_append_drop]
  · have hmore : hdr.payloadLen.toNat ≤ (body.take hdr.payloadLen.toNat ++ more).length := by
      rw [List.length_append, htake]
      exact Nat.le_add_right _ _
    unfold nextFrame
    rw [List.append_assoc, hused]
    dsimp only
    rw [if_pos ⟨hlen.1, hmore⟩, List.take_left' htake, List.drop_left' htake]

theorem length_of_nextFrame {bs rest : Bytes} {frame : Frame}
    (h : nextFrame bs = some (frame, rest)) : rest.length < bs.length := by
  obtain ⟨used, hne, rfl, -⟩ := exists_used h
  rw [List.length_append]
  exact Nat.lt_add_of_pos_left (List.length_pos_iff.mpr hne)

theorem wsReadFrame_of_nextFrame {ssl : Source UInt8} (hssl : ssl.Positive) {frame : Frame}
    {rest : Bytes} (h : nextFrame ssl.data = some (frame, rest)) :
    ∃ t, wsReadFrame ssl [] = .ok (some (frame, t)) ∧ t.data = rest := by
  unfold nextFrame at h
  rcases hparse : parseHeader.run ssl.data with _ | ⟨hdr, body⟩
  · rw [hparse] at h
    cases h
  · rw [hparse] at h
    dsimp only at h
    split_ifs at h with hlen
    cases h
    obtain ⟨t, ht, hdata, -⟩ := wsReadFrame_of_parseHeader hssl hparse hlen.1 hlen.2
    exact ⟨t, ht, hdata⟩

theorem nextFrame_of_wsReadFrame {ssl t : Source UInt8} (hssl : ssl.Positive) {frame : Frame}
    (h : wsReadFrame ssl [] = .ok (some (frame, t))) :
    nextFrame ssl.data = some (frame, t.data) := by
  obtain ⟨hdr, body, hparse, -, hmax, hbody, hdata⟩ := parseHeader_of_wsReadFrame h
  obtain ⟨t', ht', -, -⟩ := wsReadFrame_of_parseHeader hssl hparse hmax hbody
  cases h.symm.trans ht'
  unfold nextFrame
  rw [hparse]
  dsimp only
  rw [if_pos ⟨hmax, hbody⟩, hdata]

def frames (bs : Bytes) : List Frame :=
  match _h : nextFrame bs with
  | none => []
  | some (frame, rest) => frame :: frames rest
termination_by bs.length
decreasing_by exact length_of_nextFrame _h

theorem frames_of_none {bs : Bytes} (h : nextFrame bs = none) : frames bs = [] := by
  rw [frames]
  split
  · rfl
  · rename_i hsome
    cases h.symm.trans hsome

theorem frames_of_some {bs rest : Bytes} {frame : Frame} (h : nextFrame bs = some (frame, rest)) :
    frames bs = frame :: frames rest := by
  rw [frames]
  split
  · rename_i hnone
    cases h.symm.trans hnone
  · rename_i hsome
    cases h.symm.trans hsome
    rfl

theorem frames_eq_nil_iff {bs : Bytes} : frames bs = [] ↔ nextFrame bs = none := by
  rcases h : nextFrame bs with _ | ⟨frame, rest⟩
  · exact iff_of_true (frames_of_none h) rfl
  · rw [frames_of_some h]
    exact iff_of_false (List.cons_ne_nil _ _) nofun

/-! The connection. -/

/-- What `SSL_read` still holds, and which records are untouched, when that many bytes more have
been read. A record is decrypted when all before it is read. -/
def decrypt : ℕ → Bytes → List Bytes → Bytes × List Bytes
  | k, pending, [] => (pending.drop k, [])
  | k, pending, record :: records =>
    if k ≤ pending.length then (pending.drop k, record :: records)
    else decrypt (k - pending.length) record records

/-- `received` and `processed` keep what was and is lost sight of: all bytes that have come, and
all frames that `client_loop` has taken. -/
structure Connection where
  pending : Bytes
  records : List Bytes
  subs : Finset Bytes
  ended : Bool
  received : Bytes
  processed : List Frame

namespace Connection

def init : Connection := ⟨[], [], ∅, false, [], []⟩

def buffered (c : Connection) : Bytes := c.pending ++ c.records.flatten

def take (c : Connection) (k : ℕ) : Connection :=
  let (pending, records) := decrypt k c.pending c.records
  { c with pending, records }

/-- `delivers` says how much the calls of `SSL_read` return. -/
inductive Action
  | arrive (record : Bytes)
  | turn (delivers : ℕ → ℕ)

def step (parse : Bytes → Except JsonException Json) (c : Connection) :
    Action → Option Connection
  | .arrive record =>
    if record = [] then none
    else some { c with records := c.records ++ [record], received := c.received ++ record }
  | .turn delivers =>
    if c.ended then none
    else if c.records = [] then some c
    else
      match wsReadFrame ⟨c.buffered, fun k => delivers k + 1⟩ [] with
      | .error _ => some { c with ended := true }
      -- `SSL_read` waits for the rest of the frame.
      | .ok none => none
      | .ok (some (frame, ssl)) =>
        let c := c.take (c.buffered.length - ssl.data.length)
        some { c with
          subs := frameEffect parse frame c.subs
          ended := frame.opcode = 0x8
          processed := c.processed ++ [frame] }

/-- Nothing is left in the socket, and every frame that has come is processed. -/
def CaughtUp (parse : Bytes → Except JsonException Json) (c : Connection) : Prop :=
  c.ended = false → c.records = [] → c.processed = frames c.received ∧
    c.subs = (frames c.received).foldl (fun subs frame => frameEffect parse frame subs) ∅

/-- If the frame that is read next ends in the last record in the socket, no other frame ends
there behind it. -/
def LeavesNoFrame (c : Connection) : Action → Prop
  | .arrive _ => True
  | .turn _ => ∀ frame rest last, c.ended = false → nextFrame c.buffered = some (frame, rest) →
    frame.opcode ≠ 0x8 → c.records.getLast? = some last → rest.length < last.length →
      nextFrame rest = none

structure Inv (parse : Bytes → Except JsonException Json) (c : Connection) : Prop where
  records : [] ∉ c.records
  frames : c.ended = false → ∀ more,
    frames (c.received ++ more) = c.processed ++ frames (c.buffered ++ more)
  subs : c.subs = c.processed.foldl (fun subs frame => frameEffect parse frame subs) ∅

end Connection

theorem decrypt_flatten {k : ℕ} {pending : Bytes} {records : List Bytes}
    (hk : k ≤ (pending ++ records.flatten).length) :
    (decrypt k pending records).1 ++ (decrypt k pending records).2.flatten =
      (pending ++ records.flatten).drop k := by
  induction records generalizing k pending with
  | nil => simp [decrypt]
  | cons record records ih =>
    unfold decrypt
    split_ifs with hle
    · rw [List.drop_append_of_le_length hle]
    · have hlt := Nat.lt_of_not_le hle
      rw [List.length_append] at hk
      obtain ⟨j, rfl⟩ := Nat.exists_eq_add_of_lt hlt
      rw [List.flatten_cons] at hk ⊢
      rw [Nat.add_assoc, List.drop_length_add_append, Nat.add_sub_cancel_left]
      exact ih (by omega)

theorem decrypt_suffix (k : ℕ) (pending : Bytes) (records : List Bytes) :
    (decrypt k pending records).2 <:+ records := by
  induction records generalizing k pending with
  | nil => exact List.suffix_refl []
  | cons record records ih =>
    unfold decrypt
    split_ifs
    · exact List.suffix_refl _
    · exact (ih _ _).trans (List.suffix_cons _ _)

theorem decrypt_eq_nil_iff {k : ℕ} {pending last : Bytes} {records : List Bytes}
    (hk : k ≤ (pending ++ records.flatten).length) (hlast : records.getLast? = some last) :
    (decrypt k pending records).2 = [] ↔ (pending ++ records.flatten).length - k < last.length := by
  -- The last record is decrypted when less than it is left.
  induction records generalizing k pending with
  | nil => cases hlast
  | cons record records ih =>
    unfold decrypt
    rw [List.flatten_cons, List.length_append, List.length_append] at hk ⊢
    split_ifs with hle
    · refine iff_of_false nofun ?_
      have hmem := List.mem_of_getLast? hlast
      have hlen := List.Sublist.length_le (List.sublist_flatten_of_mem hmem)
      rw [List.flatten_cons, List.length_append] at hlen
      omega
    · rcases records with _ | ⟨next, records⟩
      · obtain rfl : record = last := Option.some.inj hlast
        refine iff_of_true rfl ?_
        simp only [List.flatten_nil, List.length_nil] at hk ⊢
        omega
      · rw [List.getLast?_cons_cons] at hlast
        rw [ih (by rw [List.length_append]; omega) hlast, List.length_append]
        constructor <;> intro h <;> omega

namespace Connection
variable {parse : Bytes → Except JsonException Json} {c c' : Connection}

theorem inv_init : Inv parse init := ⟨List.not_mem_nil, fun _ _ => rfl, rfl⟩

theorem step_turn_of_nextFrame (parse : Bytes → Except JsonException Json) {frame : Frame}
    {rest : Bytes} (hopen : c.ended = false)
    (hrecords : c.records ≠ []) (hnext : nextFrame c.buffered = some (frame, rest))
    (delivers : ℕ → ℕ) :
    c.step parse (.turn delivers) = some { c.take (c.buffered.length - rest.length) with
      subs := frameEffect parse frame c.subs
      ended := frame.opcode = 0x8
      processed := c.processed ++ [frame] } := by
  have hssl : Source.Positive ⟨c.buffered, fun k => delivers k + 1⟩ := fun k => Nat.succ_pos _
  obtain ⟨t, ht, rfl⟩ := wsReadFrame_of_nextFrame hssl hnext
  unfold step
  dsimp only
  rw [if_neg (by rw [hopen]; exact Bool.false_ne_true), if_neg hrecords, ht]
  rfl

theorem step_turn_cases {delivers : ℕ → ℕ} (h : c.step parse (.turn delivers) = some c') :
    c.ended = false ∧
      (c.records = [] ∧ c' = c ∨
        c.records ≠ [] ∧ (nextFrame c.buffered = none ∧ c' = { c with ended := true } ∨
          ∃ frame rest, nextFrame c.buffered = some (frame, rest) ∧
            c' = { c.take (c.buffered.length - rest.length) with
              subs := frameEffect parse frame c.subs
              ended := frame.opcode = 0x8
              processed := c.processed ++ [frame] })) := by
  unfold step at h
  dsimp only at h
  split_ifs at h with hended hrecords
  · cases h
    exact ⟨Bool.eq_false_iff.mpr hended, .inl ⟨hrecords, rfl⟩⟩
  · refine ⟨Bool.eq_false_iff.mpr hended, .inr ⟨hrecords, ?_⟩⟩
    rcases hread : wsReadFrame ⟨c.buffered, fun k => delivers k + 1⟩ [] with e | _ | ⟨frame, ssl⟩
    · rw [hread] at h
      cases h
      obtain ⟨hdr, body, hparse, hbig⟩ := parseHeader_of_wsReadFrame_error hread
      have hparse : parseHeader.run c.buffered = some (hdr, body) := hparse
      refine .inl ⟨?_, rfl⟩
      unfold nextFrame
      rw [hparse]
      exact if_neg fun hlen => absurd hlen.1 (Nat.not_le.mpr hbig)
    · rw [hread] at h
      cases h
    · rw [hread] at h
      cases h
      exact .inr ⟨frame, ssl.data, nextFrame_of_wsReadFrame (fun k => Nat.succ_pos _) hread, rfl⟩

theorem buffered_take {rest : Bytes} {frame : Frame}
    (h : nextFrame c.buffered = some (frame, rest)) :
    (c.take (c.buffered.length - rest.length)).buffered = rest := by
  obtain ⟨used, -, hused, -⟩ := exists_used h
  have hlen : c.buffered.length - rest.length = used.length := by
    rw [hused, List.length_append, Nat.add_sub_cancel]
  have hdrop : c.buffered.drop used.length = rest := by
    rw [hused]
    exact List.drop_left
  rw [hlen]
  refine Eq.trans (decrypt_flatten ?_) hdrop
  show used.length ≤ c.buffered.length
  rw [hused, List.length_append]
  exact Nat.le_add_right _ _

theorem inv_step {a : Action} (hinv : Inv parse c) (h : c.step parse a = some c') :
    Inv parse c' := by
  cases a with
  | arrive record =>
    unfold step at h
    dsimp only at h
    split_ifs at h with hne
    cases h
    refine ⟨?_, ?_, hinv.subs⟩
    · rw [List.mem_append, List.mem_singleton]
      rintro (hmem | hmem)
      · exact hinv.records hmem
      · exact hne hmem.symm
    · intro hended more
      have hframes := hinv.frames hended (record ++ more)
      simp only [buffered, List.flatten_append, List.flatten_singleton, List.append_assoc]
        at hframes ⊢
      exact hframes
  | turn delivers =>
    obtain ⟨hopen, ⟨-, rfl⟩ | ⟨-, ⟨-, rfl⟩ | ⟨frame, rest, hnext, rfl⟩⟩⟩ := step_turn_cases h
    · exact hinv
    · exact ⟨hinv.records, nofun, hinv.subs⟩
    · refine ⟨fun hmem => hinv.records ((decrypt_suffix _ _ _).subset hmem), ?_, ?_⟩
      · intro _ more
        have hbuffered : (c.take (c.buffered.length - rest.length)).buffered = rest :=
          buffered_take hnext
        show frames (c.received ++ more) = (c.processed ++ [frame]) ++
          frames ((c.take (c.buffered.length - rest.length)).buffered ++ more)
        obtain ⟨used, -, hused, hlocal⟩ := exists_used hnext
        rw [hinv.frames hopen more, hbuffered, hused, List.append_assoc,
          frames_of_some (hlocal (rest ++ more)), List.append_assoc]
        rfl
      · show frameEffect parse frame c.subs = (c.processed ++ [frame]).foldl _ ∅
        rw [List.foldl_append, ← hinv.subs]
        rfl

theorem caughtUp_step_iff {a : Action} (hinv : Inv parse c) (hP : CaughtUp parse c)
    (h : c.step parse a = some c') : CaughtUp parse c' ↔ LeavesNoFrame c a := by
  -- What one step needs to keep up.
  have hinv' := inv_step hinv h
  cases a with
  | arrive record =>
    refine iff_of_true ?_ trivial
    unfold step at h
    dsimp only at h
    split_ifs at h with hne
    cases h
    intro _ hrecords
    exact absurd hrecords (List.append_ne_nil_of_right_ne_nil _ (List.cons_ne_nil _ _))
  | turn delivers =>
    obtain ⟨hopen, ⟨hrecords, rfl⟩ | ⟨hrecords, ⟨hnone, rfl⟩ | ⟨frame, rest, hnext, rfl⟩⟩⟩ :=
      step_turn_cases h
    · refine iff_of_true hP ?_
      intro frame rest last _ _ _ hlast
      rw [hrecords] at hlast
      cases hlast
    · refine iff_of_true nofun ?_
      intro frame rest last _ hnext
      cases hnone.symm.trans hnext
    · -- The last record is decrypted if less than it is left behind the frame.
      obtain ⟨last, hlast⟩ := Option.isSome_iff_exists.mp (List.getLast?_isSome.mpr hrecords)
      have hlt := length_of_nextFrame hnext
      have hempty := decrypt_eq_nil_iff (k := c.buffered.length - rest.length)
        (Nat.sub_le _ _) hlast
      rw [show (c.pending ++ c.records.flatten).length = c.buffered.length from rfl,
        Nat.sub_sub_self hlt.le] at hempty
      have hprocessed : ¬frame.opcode = 0x8 →
          frames c.received = (c.processed ++ [frame]) ++ frames rest := by
        intro hclose
        have hframes := hinv'.frames (decide_eq_false hclose) []
        rw [List.append_nil, List.append_nil] at hframes
        refine hframes.trans (congrArg (fun bs => (c.processed ++ [frame]) ++ frames bs) ?_)
        exact buffered_take hnext
      constructor
      · intro hP' frame' rest' last' _ hnext' hclose hlast' hless
        cases hnext.symm.trans hnext'
        cases hlast.symm.trans hlast'
        obtain ⟨hall, -⟩ := hP' (decide_eq_false hclose) (hempty.mpr hless)
        exact frames_eq_nil_iff.mp
          (List.append_right_eq_self.mp ((hprocessed hclose).symm.trans hall.symm))
      · intro hleaves hended hrecords'
        have hclose : ¬frame.opcode = 0x8 := of_decide_eq_false hended
        have hnil : frames rest = [] := frames_eq_nil_iff.mpr
          (hleaves frame rest last hopen hnext hclose hlast (hempty.mp hrecords'))
        have hall : c.processed ++ [frame] = frames c.received := by
          rw [hprocessed hclose, hnil, List.append_nil]
        exact ⟨hall, hall ▸ hinv'.subs⟩

theorem leavesNoFrame_of_none {a : Action} (h : c.step parse a = none) : LeavesNoFrame c a := by
  cases a with
  | arrive record => trivial
  | turn delivers =>
    intro frame rest last hopen hnext _ hlast _
    have hrecords : c.records ≠ [] := by
      intro hnil
      rw [hnil] at hlast
      cases hlast
    rw [step_turn_of_nextFrame parse hopen hrecords hnext] at h
    cases h

end Connection

/-- In every state of a run the connection has caught up exactly if no turn decrypts a record
and leaves a whole frame behind. -/
theorem caughtUp_iff_leavesNoFrame (parse : Bytes → Except JsonException Json)
    (as : List Connection.Action) :
    (∀ pre c, pre <+: as → run (Connection.step parse) .init pre = some c →
      c.CaughtUp parse) ↔
      Guarded (Connection.step parse) Connection.LeavesNoFrame .init as := by
  refine guarded_iff_forall_prefix (I := Connection.Inv parse) ?_ ?_ ?_ Connection.inv_init ?_ as
  · exact fun c a c' hinv h => Connection.inv_step hinv h
  · exact fun c a h => Connection.leavesNoFrame_of_none h
  · exact fun c a c' hinv hP h => Connection.caughtUp_step_iff hinv hP h
  · intro _ _
    have hnil : frames [] = [] := frames_of_none rfl
    exact ⟨hnil.symm, by rw [show Connection.init.received = [] from rfl, hnil]; rfl⟩

def pingFrame : Bytes := frameBytes 0x89 none []

def imuFrame : Bytes := frameBytes 0x81 none imuMessage

/-- A subscription that comes in one record with a ping stays in `SSL_read`; in a record of its
own it is taken. -/
theorem coalesced_frame_waits :
    (∃ c, run (Connection.step parseImu) .init
          [.arrive (pingFrame ++ imuFrame), .turn fun _ => 0] = some c ∧
        c.records = [] ∧ c.subs = ∅ ∧ ¬c.CaughtUp parseImu) ∧
      ∃ c, run (Connection.step parseImu) .init
          [.arrive pingFrame, .arrive imuFrame, .turn fun _ => 0, .turn fun _ => 0] = some c ∧
        c.records = [] ∧ c.subs = {bytes "cam1/imu"} := by
  have hping : nextFrame (pingFrame ++ imuFrame) = some (⟨0x9, []⟩, imuFrame) := rfl
  have himu : nextFrame imuFrame = some (⟨0x1, imuMessage⟩, []) := rfl
  refine ⟨⟨⟨imuFrame, [], ∅, false, pingFrame ++ imuFrame, [⟨0x9, []⟩]⟩, ?_, rfl, rfl, ?_⟩,
    ⟨⟨[], [], {bytes "cam1/imu"}, false, pingFrame ++ imuFrame, [⟨0x9, []⟩, ⟨0x1, imuMessage⟩]⟩,
      ?_, rfl, rfl⟩⟩
  · have hturn := Connection.step_turn_of_nextFrame parseImu
      (c := ⟨[], [pingFrame ++ imuFrame], ∅, false, pingFrame ++ imuFrame, []⟩) rfl
      (List.cons_ne_nil _ _) hping fun _ => 0
    exact (run_cons_eq_some _).mpr ⟨_, rfl, (run_cons_eq_some _).mpr ⟨_, hturn, rfl⟩⟩
  · intro hcaught
    have hall := (hcaught rfl rfl).1
    rw [frames_of_some hping, frames_of_some himu] at hall
    cases hall
  · have hturn := Connection.step_turn_of_nextFrame parseImu
      (c := ⟨[], [pingFrame, imuFrame], ∅, false, pingFrame ++ imuFrame, []⟩) rfl
      (List.cons_ne_nil _ _) hping fun _ => 0
    have hturn' := Connection.step_turn_of_nextFrame parseImu
      (c := ⟨[], [imuFrame], ∅, false, pingFrame ++ imuFrame, [⟨0x9, []⟩]⟩) rfl
      (List.cons_ne_nil _ _) himu fun _ => 0
    refine (run_cons_eq_some _).mpr ⟨_, rfl, (run_cons_eq_some _).mpr ⟨_, rfl, ?_⟩⟩
    exact (run_cons_eq_some _).mpr ⟨_, hturn, (run_cons_eq_some _).mpr ⟨_, hturn', rfl⟩⟩

end StereoCamera.WSServer
