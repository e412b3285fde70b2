import StereoCamera.Data.WSFrame

/-! What the two encoders write, and what RFC 6455 clients send, is read back frame by
frame, however the bytes are cut on the way. -/

namespace StereoCamera.WSServer
open PartialIO

/-! The reader, as a parser of the bytes. -/

def parsePayloadLen (len7 : UInt8) : Parser UInt8 UInt64 :=
  if len7 = 126 then do
    let ext ← splitAt? 2
    return (ext.getD 0 0).toUInt64 <<< 8 ||| (ext.getD 1 0).toUInt64
  else if len7 = 127 then do
    let ext ← splitAt? 8
    return BigEndian.shiftIn 0 ext
  else return len7.toUInt64

def parseMask (masked : Bool) : Parser UInt8 Bytes :=
  if masked then splitAt? 4 else return [0, 0, 0, 0]

def parseHeader : Parser UInt8 FrameHeader := do
  let hdr ← splitAt? 2
  let payloadLen ← parsePayloadLen (hdr.getD 1 0 &&& 0x7F)
  let mask ← parseMask (hdr.getD 1 0 &&& 0x80 ≠ 0)
  return ⟨hdr.getD 0 0 &&& 0x0F, hdr.getD 1 0 &&& 0x80 ≠ 0, payloadLen, mask⟩

theorem computes_sslReadFull (len : ℕ) (h : 0 < len) :
    Computes (sslReadFull len) (splitAt? len) := .readLoop h len

theorem computes_readPayloadLen (len7 : UInt8) :
    Computes (readPayloadLen len7) (parsePayloadLen len7) := by
  unfold readPayloadLen parsePayloadLen
  split_ifs
  · exact .bind (computes_sslReadFull 2 (by decide)) fun ext => .pure _
  · exact .bind (computes_sslReadFull 8 (by decide)) fun ext => .pure _
  · exact .pure _

theorem computes_readMask (masked : Bool) : Computes (readMask masked) (parseMask masked) := by
  unfold readMask parseMask
  split_ifs
  · exact computes_sslReadFull 4 (by decide)
  · exact .pure _

theorem computes_readHeader : Computes readHeader parseHeader :=
  .bind (computes_sslReadFull 2 (by decide)) fun hdr =>
    .bind (computes_readPayloadLen _) fun payloadLen =>
      .bind (computes_readMask _) fun mask => .pure _

/-! Frames as bytes. The mask is there in what clients send. -/

def maskBit : Option (Vector UInt8 4) → UInt8
  | none => 0
  | some _ => 0x80

def maskBytes : Option (Vector UInt8 4) → Bytes
  | none => []
  | some mask => mask.toList

def lengthBytes (bit : UInt8) (n : ℕ) : Bytes :=
  if n < 126 then [bit ||| UInt8.ofNat n]
  else if n < 65536 then (bit ||| 126) :: BigEndian.toBytes 2 n
  else (bit ||| 127) :: BigEndian.toBytes 8 n

def maskedPayload : Option (Vector UInt8 4) → Bytes → Bytes
  | none, payload => payload
  | some mask, payload => applyMask mask.toList payload

def frameBytes (first : UInt8) (mask : Option (Vector UInt8 4)) (payload : Bytes) : Bytes :=
  first :: (lengthBytes (maskBit mask) payload.length ++
    (maskBytes mask ++ maskedPayload mask payload))

theorem length_applyMask (mask payload : Bytes) :
    (applyMask mask payload).length = payload.length := List.length_mapIdx

theorem applyMask_applyMask (mask payload : Bytes) :
    applyMask mask (applyMask mask payload) = payload := by
  refine List.ext_getElem (by rw [length_applyMask, length_applyMask]) fun i h₁ h₂ => ?_
  simp only [applyMask, List.getElem_mapIdx]
  rw [UInt8.xor_assoc, UInt8.xor_self, UInt8.xor_zero]

theorem length_maskedPayload (mask : Option (Vector UInt8 4)) (payload : Bytes) :
    (maskedPayload mask payload).length = payload.length := by
  cases mask with
  | none => rfl
  | some mask => exact length_applyMask _ _

theorem and_seven_bits (mask : Option (Vector UInt8 4)) {n : ℕ} (h : n < 128) :
    (maskBit mask ||| UInt8.ofNat n) &&& 0x7F = UInt8.ofNat n := by
  have hall : ∀ n : Fin 128, ((0 : UInt8) ||| UInt8.ofNat n) &&& 0x7F = UInt8.ofNat n ∧
      ((0x80 : UInt8) ||| UInt8.ofNat n) &&& 0x7F = UInt8.ofNat n := by decide
  cases mask with
  | none => exact (hall ⟨n, h⟩).1
  | some mask => exact (hall ⟨n, h⟩).2

theorem and_mask_bit (mask : Option (Vector UInt8 4)) {n : ℕ} (h : n < 128) :
    (maskBit mask ||| UInt8.ofNat n) &&& 0x80 = maskBit mask := by
  have hall : ∀ n : Fin 128, ((0 : UInt8) ||| UInt8.ofNat n) &&& 0x80 = 0 ∧
      ((0x80 : UInt8) ||| UInt8.ofNat n) &&& 0x80 = 0x80 := by decide
  cases mask with
  | none => exact (hall ⟨n, h⟩).1
  | some mask => exact (hall ⟨n, h⟩).2

theorem exists_lengthBytes (mask : Option (Vector UInt8 4)) {n : ℕ} (hn : n < 2 ^ 63) :
    ∃ m ext, m < 128 ∧ lengthBytes (maskBit mask) n = (maskBit mask ||| UInt8.ofNat m) :: ext ∧
      ∀ tail, (parsePayloadLen (UInt8.ofNat m)).run (ext ++ tail) =
        some (UInt64.ofNat n, tail) := by
  unfold lengthBytes
  split_ifs with h₁ h₂
  · refine ⟨n, [], h₁.trans (by decide), rfl, fun tail => ?_⟩
    have hne : ∀ b : UInt8, 126 ≤ b.toNat → UInt8.ofNat n ≠ b := by
      rintro b hb rfl
      rw [UInt8.toNat_ofNat_of_lt' (h₁.trans (by decide))] at hb
      omega
    rw [parsePayloadLen, if_neg (hne 126 (by decide)), if_neg (hne 127 (by decide)),
      List.nil_append]
    refine congrArg (fun w => some (w, tail)) (UInt64.toNat_inj.mp ?_)
    rw [UInt8.toNat_toUInt64, UInt8.toNat_ofNat_of_lt' (h₁.trans (by decide)),
      UInt64.toNat_ofNat_of_lt' (h₁.trans (by decide))]
  · refine ⟨126, BigEndian.toBytes 2 n, by decide, rfl, fun tail => ?_⟩
    have hext := run_splitAt?_append tail (BigEndian.length_toBytes 2 n)
    have hvalue : (BigEndian.shiftIn 0 (BigEndian.toBytes 2 n)).toNat = n := by
      rw [BigEndian.toNat_shiftIn_zero _ (by rw [BigEndian.length_toBytes]; decide),
        BigEndian.ofBytes_toBytes]
      exact Nat.mod_eq_of_lt h₂
    rw [parsePayloadLen, if_pos (by decide), Parser.run_bind_of_eq hext]
    refine congrArg (fun w => some (w, tail)) (UInt64.toNat_inj.mp ?_)
    rw [UInt64.toNat_ofNat_of_lt' (h₂.trans (by decide))]
    refine Eq.trans (congrArg UInt64.toNat ?_) hvalue
    simp [BigEndian.shiftIn, BigEndian.toBytes]
  · refine ⟨127, BigEndian.toBytes 8 n, by decide, rfl, fun tail => ?_⟩
    have hext := run_splitAt?_append tail (BigEndian.length_toBytes 8 n)
    rw [parsePayloadLen, if_neg (by decide), if_pos (by decide), Parser.run_bind_of_eq hext]
    refine congrArg (fun w => some (w, tail)) (UInt64.toNat_inj.mp ?_)
    rw [BigEndian.toNat_shiftIn_zero _ (by rw [BigEndian.length_toBytes]),
      BigEndian.ofBytes_toBytes, UInt64.toNat_ofNat_of_lt' (hn.trans (by decide))]
    exact Nat.mod_eq_of_lt (hn.trans (by decide))

theorem parseHeader_frameBytes (first : UInt8) (mask : Option (Vector UInt8 4))
    {payload : Bytes} (hlen : payload.length < 2 ^ 63) (rest : Bytes) :
    parseHeader.run (frameBytes first mask payload ++ rest) =
      some (⟨first &&& 0x0F, mask.isSome, UInt64.ofNat payload.length,
        (mask.map Vector.toList).getD [0, 0, 0, 0]⟩, maskedPayload mask payload ++ rest) := by
  obtain ⟨m, ext, hm, hbytes, hparse⟩ := exists_lengthBytes mask hlen
  have hsplit : (splitAt? 2).run (frameBytes first mask payload ++ rest) =
      some ([first, maskBit mask ||| UInt8.ofNat m],
        ext ++ (maskBytes mask ++ (maskedPayload mask payload ++ rest))) := by
    rw [frameBytes, hbytes]
    simp only [List.cons_append, List.append_assoc]
    exact @run_splitAt?_append _ [first, maskBit mask ||| UInt8.ofNat m] _ _ rfl
  have hmask : (parseMask (decide (maskBit mask ≠ 0))).run
      (maskBytes mask ++ (maskedPayload mask payload ++ rest)) =
        some ((mask.map Vector.toList).getD [0, 0, 0, 0], maskedPayload mask payload ++ rest) := by
    cases mask with
    | none => rfl
    | some mask => exact run_splitAt?_append _ mask.length_toList
  have hmasked : decide (maskBit mask ≠ 0) = mask.isSome := by cases mask <;> rfl
  rw [parseHeader, Parser.run_bind_of_eq hsplit]
  simp only [List.getD_cons_zero, List.getD_cons_succ, and_seven_bits mask hm,
    and_mask_bit mask hm]
  rw [Parser.run_bind_of_eq (hparse _), Parser.run_bind_of_eq hmask, hmasked]
  rfl

theorem toNat_eq_zero_of_not_pos {w : UInt64} (h : ¬w > 0) : w.toNat = 0 := by
  rw [gt_iff_lt, UInt64.lt_iff_toNat_lt] at h
  exact Nat.eq_zero_of_not_pos h

theorem wsReadFrame_of_parseHeader {ssl : Source UInt8} (hssl : ssl.Positive) {hdr : FrameHeader}
    {body : Bytes} (hparse : parseHeader.run ssl.data = some (hdr, body))
    (hmax : hdr.payloadLen.toNat ≤ maxSize) (hbody : hdr.payloadLen.toNat ≤ body.length) :
    ∃ t, wsReadFrame ssl [] =
        .ok (some (⟨hdr.opcode, hdr.unmask (body.take hdr.payloadLen.toNat)⟩, t)) ∧
      t.data = body.drop hdr.payloadLen.toNat ∧ t.Positive := by
  obtain ⟨s, hs, rfl, hspos⟩ := computes_readHeader.complete ssl _ _ hssl hparse
  unfold wsReadFrame
  rw [hs]
  dsimp only
  split_ifs with hpos hbig
  · exact absurd hmax (Nat.not_le_of_gt hbig)
  · obtain ⟨t, ht, htpos⟩ := Source.exists_readLoop (by decide : 0 < 4096) hspos hbody
    refine ⟨t, ?_, (Source.readLoop_eq_some ht).2.2, htpos⟩
    rw [ht]
  · have hnil : hdr.unmask [] = [] := by
      unfold FrameHeader.unmask
      split_ifs <;> rfl
    rw [toNat_eq_zero_of_not_pos hpos, List.take_zero, hnil]
    exact ⟨s, rfl, rfl, hspos⟩

theorem wsReadFrame_frameBytes {ssl : Source UInt8} (hssl : ssl.Positive) (first : UInt8)
    (mask : Option (Vector UInt8 4)) {payload : Bytes} (hlen : payload.length < 2 ^ 63)
    {rest : Bytes} (hdata : ssl.data = frameBytes first mask payload ++ rest) :
    ∃ t, wsReadFrame ssl [] = .ok (some (⟨first &&& 0x0F, payload⟩, t)) ∧ t.data = rest ∧
      t.Positive := by
  have hparse := parseHeader_frameBytes first mask hlen rest
  rw [← hdata] at hparse
  have hlen64 : (UInt64.ofNat payload.length).toNat = payload.length :=
    UInt64.toNat_ofNat_of_lt' (hlen.trans (by decide))
  obtain ⟨t, ht, htdata, htpos⟩ := wsReadFrame_of_parseHeader hssl hparse
    (by dsimp only; rw [hlen64]; exact Nat.le_pred_of_lt hlen)
    (by
      dsimp only
      rw [hlen64, List.length_append, length_maskedPayload]
      exact Nat.le_add_right _ _)
  dsimp only at ht htdata
  rw [hlen64, List.take_left' (length_maskedPayload mask payload)] at ht
  rw [hlen64, List.drop_left' (length_maskedPayload mask payload)] at htdata
  refine ⟨t, ht.trans ?_, htdata, htpos⟩
  cases mask with
  | none => rfl
  | some mask =>
    -- The reader unmasks what was masked: the mask is its own inverse.
    refine congrArg (fun p => Except.ok (some (Frame.mk (first &&& 0x0F) p, t))) ?_
    exact applyMask_applyMask mask.toList payload

/-! The encoders. -/

theorem buildHeader_eq (first : UInt8) {n : ℕ} (hn : n < 2 ^ 63) :
    buildHeader first (UInt64.ofNat n) = first :: lengthBytes 0 n := by
  have hnat : (UInt64.ofNat n).toNat = n := UInt64.toNat_ofNat_of_lt' (hn.trans (by decide))
  have h₁ : UInt64.ofNat n < 126 ↔ n < 126 := by
    rw [UInt64.lt_iff_toNat_lt, hnat]
    rfl
  have h₂ : UInt64.ofNat n < 65536 ↔ n < 65536 := by
    rw [UInt64.lt_iff_toNat_lt, hnat]
    rfl
  have hbyte : ∀ i, i < 8 → (UInt64.ofNat n >>> UInt64.ofNat (i * 8) &&& 0xFF).toUInt8 =
      UInt8.ofNat (n / 256 ^ i) := by
    intro i hi
    rw [BigEndian.toUInt8_shiftRight_and _ hi, hnat]
  unfold buildHeader lengthBytes
  rw [if_congr h₁ rfl rfl, if_congr h₂ rfl rfl]
  -- One, two and eight bytes of length.
  split_ifs
  · rw [UInt8.zero_or]
    refine congrArg (fun b => [first, b]) (UInt8.toNat_inj.mp ?_)
    rw [UInt64.toNat_toUInt8, hnat, UInt8.toNat_ofNat']
  · have hlo := hbyte 0 (by decide)
    have hzero : UInt64.ofNat n >>> UInt64.ofNat (0 * 8) = UInt64.ofNat n :=
      UInt64.shiftRight_zero
    rw [hzero] at hlo
    rw [hlo]
    exact congrArg (fun b => [first, 126, b, UInt8.ofNat (n / 256 ^ 0)]) (hbyte 1 (by decide))
  · have hmap : (List.range 8).map (fun k =>
        (UInt64.ofNat n >>> UInt64.ofNat ((7 - k) * 8) &&& 0xFF).toUInt8) =
          (List.range 8).map fun k => UInt8.ofNat (n / 256 ^ (7 - k)) :=
      List.map_congr_left fun k _ => hbyte (7 - k) (by omega)
    rw [hmap]
    rfl

theorem wsSendBinary_eq {ssl : Sink UInt8} (hssl : ssl.Positive) {data : Bytes}
    (hlen : data.length < 2 ^ 63) :
    ∃ t, wsSendBinary ssl data = (true, t) ∧
      t.written = ssl.written ++ frameBytes 0x82 none data ∧ t.Positive := by
  unfold wsSendBinary
  rw [buildHeader_eq _ hlen]
  have hpos : 0 < (0x82 :: lengthBytes 0 data.length).length := Nat.succ_pos _
  obtain ⟨s, hs, hswritten, hspos⟩ :=
    Sink.writeLoop_eq hpos hssl (0x82 :: lengthBytes 0 data.length)
  obtain ⟨t, ht, htwritten, htpos⟩ := Sink.writeLoop_eq (by decide : 0 < 16384) hspos data
  refine ⟨t, ?_, ?_, htpos⟩
  · dsimp only
    rw [hs]
    exact ht
  · rw [htwritten, hswritten, List.append_assoc]
    rfl

theorem sslWriteWhole_eq (ssl : Sink UInt8) {data : Bytes} (hlen : data.length < 2 ^ 31) :
    sslWriteWhole ssl data = { ssl with written := ssl.written ++ data } := by
  have hnum : Int.bmod data.length (2 ^ 32) = data.length :=
    Int.bmod_eq_of_le_mul_two (by omega) (by push_cast; omega)
  unfold sslWriteWhole
  rw [hnum]
  dsimp only
  split_ifs with h
  · have hnil : data = [] := List.length_eq_zero_iff.mp (by omega)
    rw [hnil, List.append_nil]
  · rw [Int.toNat_natCast, List.take_length]

theorem broadcastTo_eq (ssl : Sink UInt8) {message : Bytes} (hlen : message.length < 2 ^ 31) :
    broadcastTo ssl message =
      { ssl with written := ssl.written ++ frameBytes 0x81 none message } := by
  have hhdr : (0x81 :: lengthBytes 0 message.length).length < 2 ^ 31 := by
    have hle : (lengthBytes 0 message.length).length ≤ 9 := by
      unfold lengthBytes
      split_ifs <;> simp
    rw [List.length_cons]
    omega
  unfold broadcastTo
  rw [buildHeader_eq _ (hlen.trans (by decide)), sslWriteWhole_eq _ hhdr, sslWriteWhole_eq _ hlen,
    List.append_assoc]
  rfl

/-! What travels over one connection. -/

/-- `client` is a frame as RFC 6455 clients send it. -/
inductive Message
  | binary (payload : Bytes)
  | text (payload : Bytes)
  | client (fin : Bool) (opcode : Fin 16) (mask : Vector UInt8 4) (payload : Bytes)

namespace Message

def send (ssl : Sink UInt8) : Message → Sink UInt8
  | .binary payload => (wsSendBinary ssl payload).2
  | .text payload => broadcastTo ssl payload
  | .client fin opcode mask payload =>
    { ssl with written := ssl.written ++
        frameBytes ((if fin then 0x80 else 0) ||| UInt8.ofNat opcode) (some mask) payload }

def frame : Message → Frame
  | .binary payload => ⟨2, payload⟩
  | .text payload => ⟨1, payload⟩
  | .client _ opcode _ payload => ⟨UInt8.ofNat opcode, payload⟩

/-- The payload fits its frame; `broadcast` passes its size through an `int`. -/
def Fits : Message → Prop
  | .binary payload | .client _ _ _ payload => payload.length < 2 ^ 63
  | .text payload => payload.length < 2 ^ 31

theorem exists_frameBytes (m : Message) (hm : m.Fits) :
    ∃ first mask payload, payload.length < 2 ^ 63 ∧ m.frame = ⟨first &&& 0x0F, payload⟩ ∧
      ∀ ssl : Sink UInt8, ssl.Positive →
        (m.send ssl).written = ssl.written ++ frameBytes first mask payload ∧
          (m.send ssl).Positive := by
  cases m with
  | binary payload =>
    refine ⟨0x82, none, payload, hm, rfl, fun ssl hssl => ?_⟩
    obtain ⟨t, ht, hwritten, hpos⟩ := wsSendBinary_eq hssl hm
    rw [send, ht]
    exact ⟨hwritten, hpos⟩
  | text payload =>
    refine ⟨0x81, none, payload, lt_trans hm (by decide), rfl, fun ssl hssl => ?_⟩
    rw [send, broadcastTo_eq ssl hm]
    exact ⟨rfl, hssl⟩
  | client fin opcode mask payload =>
    refine ⟨_, some mask, payload, hm, ?_, fun ssl hssl => ⟨rfl, hssl⟩⟩
    have hall : ∀ (fin : Bool) (opcode : Fin 16),
        ((if fin then 0x80 else 0) ||| UInt8.ofNat opcode) &&& 0x0F = UInt8.ofNat opcode := by
      decide
    rw [frame, hall]

end Message

def sendAll (ssl : Sink UInt8) (ms : List Message) : Sink UInt8 := ms.foldl Message.send ssl

/-- Reads `n` frames, each into a new vector, as `client_loop` does. -/
def readFrames : ℕ → Source UInt8 → Except StdException (Option (List Frame × Source UInt8))
  | 0, ssl => .ok (some ([], ssl))
  | n + 1, ssl =>
    match wsReadFrame ssl [] with
    | .error e => .error e
    | .ok none => .ok none
    | .ok (some (frame, ssl)) =>
      match readFrames n ssl with
      | .ok (some (frames, ssl)) => .ok (some (frame :: frames, ssl))
      | other => other

theorem exists_sendAll (ms : List Message) (hfit : ∀ m ∈ ms, m.Fits) :
    ∃ bs, (∀ ssl : Sink UInt8, ssl.Positive → (sendAll ssl ms).written = ssl.written ++ bs) ∧
      ∀ (ssl : Source UInt8) (rest : Bytes), ssl.Positive → ssl.data = bs ++ rest →
        ∃ t, readFrames ms.length ssl = .ok (some (ms.map Message.frame, t)) ∧ t.data = rest := by
  induction ms with
  | nil =>
    refine ⟨[], fun ssl _ => (List.append_nil _).symm, fun ssl rest _ hdata => ?_⟩
    exact ⟨ssl, rfl, hdata⟩
  | cons m ms ih =>
    obtain ⟨first, mask, payload, hlen, hframe, hsend⟩ :=
      m.exists_frameBytes (hfit m List.mem_cons_self)
    obtain ⟨bs, hbs, hread⟩ := ih fun m' hm' => hfit m' (List.mem_cons_of_mem m hm')
    refine ⟨frameBytes first mask payload ++ bs, fun ssl hssl => ?_, fun ssl rest hssl hdata => ?_⟩
    · obtain ⟨hwritten, hpos⟩ := hsend ssl hssl
      rw [sendAll, List.foldl_cons, ← sendAll, hbs _ hpos, hwritten, List.append_assoc]
    · rw [List.append_assoc] at hdata
      obtain ⟨t, ht, htdata, htpos⟩ := wsReadFrame_frameBytes hssl first mask hlen hdata
      obtain ⟨u, hu, hudata⟩ := hread t rest htpos htdata
      refine ⟨u, ?_, hudata⟩
      rw [List.length_cons, readFrames, ht]
      dsimp only
      rw [hu, List.map_cons, hframe]

/-- Frames written back to back are read back as the same list, each read taking exactly the
bytes of its frame, however the connection accepts and delivers them. -/
theorem frames_roundTrip (ms : List Message) (hfit : ∀ m ∈ ms, m.Fits) (rest : Bytes)
    {accepts delivers : ℕ → ℕ} (haccepts : ∀ k, 0 < accepts k) (hdelivers : ∀ k, 0 < delivers k) :
    ∃ t, readFrames ms.length ⟨(sendAll ⟨[], accepts⟩ ms).written ++ rest, delivers⟩ =
      .ok (some (ms.map Message.frame, t)) ∧ t.data = rest := by
  obtain ⟨bs, hbs, hread⟩ := exists_sendAll ms hfit
  refine hread _ rest hdelivers ?_
  show (sendAll ⟨[], accepts⟩ ms).written ++ rest = bs ++ rest
  rw [hbs ⟨[], accepts⟩ haccepts, List.nil_append]

/-- One frame of each kind, moved byte by byte. -/
theorem frames_roundTrip_bytewise :
    ∃ t, readFrames 3 ⟨(sendAll ⟨[], fun _ => 1⟩ [.binary [1, 2, 3], .text [65],
        .client true 8 #v[7, 0, 255, 1] [3, 232]]).written ++ [0x81], fun _ => 1⟩ =
      .ok (some ([⟨2, [1, 2, 3]⟩, ⟨1, [65]⟩, ⟨8, [3, 232]⟩], t)) ∧ t.data = [0x81] := by
  refine frames_roundTrip [.binary [1, 2, 3], .text [65],
    .client true 8 #v[7, 0, 255, 1] [3, 232]] ?_ [0x81] (fun _ => Nat.one_pos) fun _ => Nat.one_pos
  simp [Message.Fits]

end StereoCamera.WSServer
