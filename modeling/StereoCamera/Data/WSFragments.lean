import StereoCamera.Data.WSClientLoop

/-! Text messages in fragments. `client_loop` takes every frame for itself: the bit that says
whether a frame is the last of its message is masked out, and continuation frames are read over. -/

namespace StereoCamera.WSServer
open PartialIO

inductive Piece
  | continuation (fin : Bool) (mask : Option (Vector UInt8 4)) (payload : Bytes)
  | control (opcode : UInt8) (mask : Option (Vector UInt8 4)) (payload : Bytes)

namespace Piece

def first : Piece → UInt8
  | continuation fin .. => if fin then 0x80 else 0x00
  | control opcode .. => 0x80 ||| opcode

def mask : Piece → Option (Vector UInt8 4)
  | continuation _ mask _ | control _ mask _ => mask

def payload : Piece → Bytes
  | continuation _ _ payload | control _ _ payload => payload

def frame (p : Piece) : Bytes := frameBytes p.first p.mask p.payload

def data : Piece → Bytes
  | continuation _ _ payload => payload
  | control .. => []

/-- A control frame has an opcode of its own and a payload that fits into seven bits. -/
def Valid : Piece → Prop
  | continuation _ _ payload => payload.length < 2 ^ 63
  | control opcode _ payload => 0x8 ≤ opcode ∧ opcode ≤ 0xF ∧ payload.length ≤ 125

def isLast : Piece → Bool
  | continuation fin .. => fin
  | control .. => false

theorem Valid.payload_lt {p : Piece} (h : p.Valid) : p.payload.length < 2 ^ 63 := by
  cases p with
  | continuation fin mask payload => exact h
  | control opcode mask payload => exact h.2.2.trans_lt (by decide)

theorem Valid.opcode_ne {p : Piece} (h : p.Valid) : p.first &&& 0x0F ≠ 0x1 := by
  cases p with
  | continuation fin mask payload =>
    show (if fin then (0x80 : UInt8) else 0x00) &&& 0x0F ≠ 0x1
    cases fin <;> decide
  | control opcode mask payload =>
    have hall : ∀ n : Fin 256, 0x8 ≤ UInt8.ofNat n → UInt8.ofNat n ≤ 0xF →
        (0x80 ||| UInt8.ofNat n) &&& 0x0F ≠ (0x1 : UInt8) := by decide +kernel
    have hop := hall ⟨opcode.toNat, opcode.toNat_lt⟩
    rw [UInt8.ofNat_toNat] at hop
    exact hop h.1 h.2.1

end Piece

/-- A fragmentation of the message: the first fragment, and what follows up to the last. -/
structure Fragments (message : Bytes) where
  mask : Option (Vector UInt8 4)
  first : Bytes
  pieces : List Piece
  valid : first.length < 2 ^ 63 ∧ ∀ p ∈ pieces, p.Valid
  whole : first ++ pieces.flatMap Piece.data = message
  ends : ∃ between last, pieces = between ++ [last] ∧ last.isLast ∧ ∀ p ∈ between, ¬p.isLast

def Fragments.frames {message : Bytes} (m : Fragments message) : Bytes :=
  frameBytes 0x01 m.mask m.first ++ m.pieces.flatMap Piece.frame

/-- The client stays, and that many of its frames are read. -/
def Taken (turns : List Turn) (n : ℕ) : Prop :=
  (∀ turn ∈ turns, turn.alive) ∧ turns.countP Turn.readable = n

def textEffect (parse : Bytes → Except JsonException Json) (payload : Bytes)
    (subs : Finset Bytes) : Finset Bytes :=
  if payload = [] then subs else ((handleText parse payload).run.run subs).2

def frameEffect (parse : Bytes → Except JsonException Json) (frame : Frame)
    (subs : Finset Bytes) : Finset Bytes :=
  if frame.opcode = 0x1 then textEffect parse frame.payload subs else subs

theorem clientLoop_frame {parse : Bytes → Except JsonException Json} {ssl t : Source UInt8}
    {frame : Frame} (hread : wsReadFrame ssl [] = .ok (some (frame, t)))
    (hopen : frame.opcode ≠ 0x8) (turns : List Turn) (subs : Finset Bytes) :
    clientLoop parse (⟨true, true⟩ :: turns) ssl subs =
      clientLoop parse turns t (frameEffect parse frame subs) := by
  obtain ⟨subs', hsubs⟩ := handleText_ok parse frame.payload subs
  unfold frameEffect textEffect
  by_cases htext : frame.opcode = 0x1
  · by_cases hpayload : frame.payload = []
    · simp [clientLoop, hread, htext, hpayload]
    · simp [clientLoop, hread, htext, hpayload, hsubs]
  · simp [clientLoop, hread, hopen, htext]

section
variable {parse : Bytes → Except JsonException Json} {ssl : Source UInt8} {turns : List Turn}
  {n : ℕ} {subs : Finset Bytes}

theorem exists_turns_of_taken (parse : Bytes → Except JsonException Json)
    (h : Taken turns (n + 1)) :
    ∃ later, Taken later n ∧ ∀ ssl subs,
      clientLoop parse turns ssl subs = clientLoop parse (⟨true, true⟩ :: later) ssl subs := by
  obtain ⟨halive, hcount⟩ := h
  induction turns with
  | nil => cases hcount
  | cons turn turns ih =>
    obtain ⟨alive, readable⟩ := turn
    obtain ⟨rfl, hrest⟩ := List.forall_mem_cons.mp halive
    cases readable with
    | true =>
      refine ⟨turns, ⟨hrest, ?_⟩, fun _ _ => rfl⟩
      rw [List.countP_cons_of_pos rfl] at hcount
      exact Nat.succ.inj hcount
    | false =>
      rw [List.countP_cons_of_neg Bool.false_ne_true] at hcount
      obtain ⟨later, htaken, hrun⟩ := ih hrest hcount
      exact ⟨later, htaken, hrun⟩

theorem clientLoop_of_taken_zero (h : Taken turns 0) :
    clientLoop parse turns ssl subs = .ok subs := by
  obtain ⟨halive, hcount⟩ := h
  induction turns with
  | nil => rfl
  | cons turn turns ih =>
    obtain ⟨alive, readable⟩ := turn
    obtain ⟨rfl, hrest⟩ := List.forall_mem_cons.mp halive
    cases readable with
    | true =>
      rw [List.countP_cons_of_pos rfl] at hcount
      cases hcount
    | false => exact ih hrest (by rwa [List.countP_cons_of_neg Bool.false_ne_true] at hcount)

theorem clientLoop_text (hssl : ssl.Positive) {first : UInt8} (hfirst : first &&& 0x0F = 0x1)
    {mask : Option (Vector UInt8 4)} {payload rest : Bytes} (hlen : payload.length < 2 ^ 63)
    (hdata : ssl.data = frameBytes first mask payload ++ rest) (htaken : Taken turns (n + 1)) :
    ∃ later ssl', Taken later n ∧ ssl'.data = rest ∧ ssl'.Positive ∧
      clientLoop parse turns ssl subs =
        clientLoop parse later ssl' (textEffect parse payload subs) := by
  -- A text frame changes the subscriptions whether or not it is the last of its message.
  obtain ⟨later, hlater, hrun⟩ := exists_turns_of_taken parse htaken
  obtain ⟨ssl', hread, hdata', hpos⟩ := wsReadFrame_frameBytes hssl first mask hlen hdata
  refine ⟨later, ssl', hlater, hdata', hpos, (hrun ssl subs).trans ?_⟩
  rw [hfirst] at hread
  rw [clientLoop_frame hread (show (0x1 : UInt8) ≠ 0x8 by decide), frameEffect, if_pos rfl]

theorem clientLoop_pieces (hssl : ssl.Positive) {pieces : List Piece}
    (hpieces : ∀ p ∈ pieces, p.Valid) {rest : Bytes}
    (hdata : ssl.data = pieces.flatMap Piece.frame ++ rest) (htaken : Taken turns pieces.length) :
    clientLoop parse turns ssl subs = .ok subs := by
  induction pieces generalizing ssl turns with
  | nil => exact clientLoop_of_taken_zero htaken
  | cons p pieces ih =>
    obtain ⟨hp, hrest⟩ := List.forall_mem_cons.mp hpieces
    rw [List.flatMap_cons, List.append_assoc] at hdata
    obtain ⟨later, hlater, hrun⟩ := exists_turns_of_taken parse htaken
    obtain ⟨ssl', hread, hdata', hpos⟩ :=
      wsReadFrame_frameBytes hssl p.first p.mask hp.payload_lt hdata
    rw [hrun ssl subs]
    -- A close frame ends the loop, and every other one is read and dropped.
    by_cases hclose : p.first &&& 0x0F = 0x8
    · simp [clientLoop, hread, hclose]
    · rw [clientLoop_frame hread hclose, frameEffect, if_neg hp.opcode_ne]
      exact ih hpos hrest hdata' hlater

theorem clientLoop_one_text (hssl : ssl.Positive) {mask : Option (Vector UInt8 4)}
    {payload rest : Bytes} (hlen : payload.length < 2 ^ 63)
    (hdata : ssl.data = frameBytes 0x81 mask payload ++ rest) (htaken : Taken turns 1) :
    clientLoop parse turns ssl subs = .ok (textEffect parse payload subs) := by
  obtain ⟨later, ssl', hlater, -, -, hrun⟩ := clientLoop_text hssl (by decide) hlen hdata htaken
  rw [hrun]
  exact clientLoop_of_taken_zero hlater

theorem clientLoop_frames (hssl : ssl.Positive) {message : Bytes} (m : Fragments message)
    {rest : Bytes} (hdata : ssl.data = m.frames ++ rest)
    (htaken : Taken turns (m.pieces.length + 1)) :
    clientLoop parse turns ssl subs = .ok (textEffect parse m.first subs) := by
  rw [Fragments.frames, List.append_assoc] at hdata
  obtain ⟨later, ssl', hlater, hdata', hpos, hrun⟩ :=
    clientLoop_text hssl (by decide) m.valid.1 hdata htaken
  rw [hrun]
  exact clientLoop_pieces hpos m.valid.2 hdata' hlater

end

/-- The fragments of a message do to the subscriptions what the first of them does as a message
of its own. -/
theorem fragments_eq_first (parse : Bytes → Except JsonException Json) {message : Bytes}
    (m : Fragments message) (subs : Finset Bytes) {ssl : Source UInt8} (hssl : ssl.Positive)
    {rest : Bytes} (hdata : ssl.data = m.frames ++ rest) {turns : List Turn}
    (htaken : Taken turns (m.pieces.length + 1)) {alone : Source UInt8} (halone : alone.Positive)
    {mask : Option (Vector UInt8 4)} {rest' : Bytes}
    (hdata' : alone.data = frameBytes 0x81 mask m.first ++ rest') {turns' : List Turn}
    (htaken' : Taken turns' 1) :
    clientLoop parse turns ssl subs = clientLoop parse turns' alone subs := by
  rw [clientLoop_frames hssl m hdata htaken, clientLoop_one_text halone m.valid.1 hdata' htaken']

def imuMessage : Bytes := bytes "\x7b\"action\":\"subscribe\",\"topics\":[\"cam1/imu\"]\x7d"

def imuRequest : Json :=
  .object [("action", .string (bytes "subscribe")),
    ("topics", .array [.string (bytes "cam1/imu")])]

/-- As the library parses the message; nothing else that is asked for is JSON. -/
def parseImu (text : Bytes) : Except JsonException Json :=
  if text = imuMessage then .ok imuRequest
  else .error (.parseError (bytes "[json.exception.parse_error.101] syntax error"))

/-- The message in two fragments, with a ping between them. -/
def imuFragments : Fragments imuMessage where
  mask := none
  first := imuMessage.take 20
  pieces := [.control 0x9 none [], .continuation true none (imuMessage.drop 20)]
  valid := by
    refine ⟨by decide, List.forall_mem_cons.mpr ⟨⟨by decide, by decide, by decide⟩, ?_⟩⟩
    exact List.forall_mem_singleton.mpr (show (imuMessage.drop 20).length < 2 ^ 63 by decide)
  whole := by decide
  ends := ⟨[.control 0x9 none []], _, rfl, rfl, by decide⟩

theorem fragments_eq_first_imu :
    clientLoop parseImu [⟨true, true⟩, ⟨true, false⟩, ⟨true, true⟩, ⟨true, true⟩]
        ⟨imuFragments.frames, fun _ => 1⟩ ∅ =
      clientLoop parseImu [⟨true, true⟩]
        ⟨frameBytes 0x81 none (imuMessage.take 20), fun _ => 1⟩ ∅ :=
  fragments_eq_first parseImu imuFragments ∅ (fun _ => Nat.one_pos) (List.append_nil _).symm
    ⟨by decide, rfl⟩ (fun _ => Nat.one_pos) (List.append_nil _).symm ⟨by decide, rfl⟩

/-- In one frame the message asks for one topic, in fragments for all of them. -/
theorem fragments_subscribe_all :
    clientLoop parseImu [⟨true, true⟩] ⟨frameBytes 0x81 none imuMessage, fun _ => 1⟩ ∅ =
        .ok {bytes "cam1/imu"} ∧
      clientLoop parseImu [⟨true, true⟩, ⟨true, true⟩, ⟨true, true⟩]
        ⟨imuFragments.frames, fun _ => 1⟩ ∅ = .ok {bytes "all"} := by
  refine ⟨?_, ?_⟩
  · rw [clientLoop_one_text (fun _ => Nat.one_pos) (by decide) (List.append_nil _).symm
      ⟨by decide, rfl⟩]
    rfl
  · rw [clientLoop_frames (fun _ => Nat.one_pos) imuFragments (List.append_nil _).symm
      ⟨by decide, rfl⟩]
    rfl

end StereoCamera.WSServer
