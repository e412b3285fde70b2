import StereoCamera.Common.HttpRequest
import StereoCamera.Data.WSFrame

/-! `ws_handshake` of `WSServer.cpp`. The key is looked for in what one call of `SSL_read`
delivers, under one spelling of its name. -/

namespace StereoCamera.WSServer
open StdString Http PartialIO

def base64Char (n : ℕ) : UInt8 :=
  (bytes "ABCDEFGHIJKLMNOPQRSTUVWXYZabcdefghijklmnopqrstuvwxyz0123456789+/").getD n 0

def base64Encode : Bytes → Bytes
  | a :: b :: c :: data =>
    let n := (a.toNat * 256 + b.toNat) * 256 + c.toNat
    [base64Char (n / 64 ^ 3), base64Char (n / 64 ^ 2 % 64), base64Char (n / 64 % 64),
      base64Char (n % 64)] ++ base64Encode data
  | [a, b] =>
    let n := (a.toNat * 256 + b.toNat) * 4
    [base64Char (n / 64 ^ 2), base64Char (n / 64 % 64), base64Char (n % 64), 0x3D]
  | [a] =>
    let n := a.toNat * 16
    [base64Char (n / 64), base64Char (n % 64), 0x3D, 0x3D]
  | [] => []

def keyName : Bytes := bytes "Sec-WebSocket-Key: "

/-- What `ws_handshake` takes for the key. -/
def handshakeKey (request : Bytes) : Except StdException (Option Bytes) :=
  match find keyName request with
  | none => .ok none
  | some keyPos =>
    let keyStart := keyPos + 19
    (substr request keyStart ((findFrom (bytes "\r\n") request keyStart).map (· - keyStart))).map
      some

def handshakeResponse (sha1 : Bytes → Vector UInt8 20) (wsKey : Bytes) : Bytes :=
  let magic := wsKey ++ bytes "258EAFA5-E914-47DA-95CA-C5AB0DC85B11"
  bytes "HTTP/1.1 101 Switching Protocols\r\nUpgrade: websocket\r\n" ++
    (bytes "Connection: Upgrade\r\nSec-WebSocket-Accept: " ++
      (base64Encode (sha1 magic).toList ++ bytes "\r\n\r\n"))

def wsHandshake (sha1 : Bytes → Vector UInt8 20) (ssl : Source UInt8) :
    Except StdException (Option Bytes × Source UInt8) :=
  match ssl.read 4095 with
  | none => .ok (none, ssl)
  | some (request, ssl) => do
    return ((← handshakeKey request).map (handshakeResponse sha1), ssl)

/-- What a client has to send to open a connection. The key is sixteen bytes in base64. -/
structure Opening (head : Head) (key : Bytes) : Prop where
  wellFormed : head.WellFormed
  method : head.method = bytes "GET"
  host : ∃ f ∈ head.fields, f.Named "host"
  upgrade : ∃ f ∈ head.fields, f.Named "upgrade" ∧
    (find (bytes "websocket") (f.value.map toLower)).isSome
  connection : ∃ f ∈ head.fields, f.Named "connection" ∧
    (find (bytes "upgrade") (f.value.map toLower)).isSome
  version : ∃ f ∈ head.fields, f.Named "sec-websocket-version" ∧ f.value = bytes "13"
  field : ∃ f, head.fields.filter (fun f => f.Named "sec-websocket-key") = [f] ∧ f.value = key
  nonce : ∃ nonce : Bytes, nonce.length = 16 ∧ key = base64Encode nonce

/-- What has come has the name in the spelling that is looked for, and its first occurrence is
followed by the key and the end of the line, or by nothing else than the key. -/
def KeyInSight (key request : Bytes) : Prop :=
  ∃ before after, request = before ++ (keyName ++ (key ++ after)) ∧
    find keyName request = some before.length ∧ (after = [] ∨ crlf <+: after)

theorem handshakeKey_of_find {request : Bytes} {i : ℕ} (h : find keyName request = some i) :
    handshakeKey request = .ok (some (upToCrlf (request.drop (i + 19)))) := by
  have hle : i + 19 ≤ request.length := find_le h
  have hcount : (findFrom (bytes "\r\n") request (i + 19)).map (· - (i + 19)) =
      find crlf (request.drop (i + 19)) := by
    unfold findFrom
    rw [Option.map_map]
    refine (congrArg (Option.map · _) (funext fun k => ?_)).trans Option.map_id'
    exact Nat.add_sub_cancel k (i + 19)
  unfold handshakeKey substr upToCrlf
  rw [h]
  dsimp only
  rw [if_neg (Nat.not_lt.mpr hle), hcount]
  cases find crlf (request.drop (i + 19)) <;> rfl

theorem handshakeKey_ok_iff {key request : Bytes} (hkey : 0x0D ∉ key) :
    handshakeKey request = .ok (some key) ↔ KeyInSight key request := by
  rcases hfind : find keyName request with _ | i
  · have hnone : handshakeKey request = .ok none := by
      unfold handshakeKey
      rw [hfind]
    rw [hnone]
    refine iff_of_false nofun ?_
    rintro ⟨before, after, -, hfound, -⟩
    cases hfind.symm.trans hfound
  · have hlen : (request.take i).length = i := by
      have := find_le hfind
      exact List.length_take_of_le (by omega)
    have hsplit : request = request.take i ++ (keyName ++ request.drop (i + 19)) := by
      have h := List.prefix_iff_eq_append.mp (isPrefix_of_find hfind)
      rw [List.drop_drop] at h
      exact (List.take_append_drop i request).symm.trans (congrArg _ h.symm)
    rw [handshakeKey_of_find hfind, Except.ok.injEq, Option.some.injEq, upToCrlf_eq_iff hkey]
    constructor
    · rintro ⟨after, hrest, hafter⟩
      rw [hrest] at hsplit
      exact ⟨request.take i, after, hsplit, by rw [hlen]; exact hfind, hafter⟩
    · rintro ⟨before, after, hrequest, hfound, hafter⟩
      cases hfind.symm.trans hfound
      refine ⟨after, ?_, hafter⟩
      rw [hrequest, ← List.append_assoc, ← List.drop_drop, List.append_assoc, List.drop_left]
      exact @List.drop_left _ keyName _

theorem keyInSight_render_iff {head : Head} (hhead : head.WellFormed) {key : Bytes}
    (hkey : 0x0D ∉ key) :
    KeyInSight key head.render ↔ behindFirst keyName head.lines = some key := by
  -- In an opening that comes in one piece, the key has to be all that stands behind the first
  -- occurrence of the name in any line.
  have hrender : head.render =
      joinLines head.requestLine (head.fields.map Field.line ++ [[], []]) := by
    simp only [Head.render, Head.block, joinLines, List.flatMap_append, List.append_assoc]
    rfl
  have hlines : ∀ l ∈ head.requestLine :: (head.fields.map Field.line ++ [[], []]),
      0x0D ∉ l := by
    rw [← List.cons_append, List.forall_mem_append]
    exact ⟨hhead.lines_cr, by decide⟩
  have hbehind := @find_joinLines keyName (by decide) (by decide) (by decide) _ _ hlines
  rw [← hrender] at hbehind
  -- The two empty lines that end the head cannot have the name.
  have hempty : behindFirst keyName (head.requestLine :: (head.fields.map Field.line ++ [[], []])) =
      behindFirst keyName head.lines := by
    have hnone : List.findSome? (fun line => (find keyName line).map fun i =>
        line.drop (i + keyName.length)) [[], []] = none := rfl
    unfold behindFirst
    rw [← List.cons_append, List.findSome?_append, hnone, Option.or_none]
    rfl
  rw [← handshakeKey_ok_iff hkey, ← hempty, ← hbehind]
  rcases hfind : find keyName head.render with _ | i
  · refine iff_of_false ?_ (Option.some_ne_none key).symm
    unfold handshakeKey
    rw [hfind]
    exact fun h => Option.some_ne_none key (Except.ok.inj h).symm
  · rw [handshakeKey_of_find hfind, Except.ok.injEq]
    rfl

theorem handshakeResponse_inj {key key' : Bytes}
    (h : ∀ sha1, handshakeResponse sha1 key = handshakeResponse sha1 key') : key = key' := by
  by_contra hne
  -- The digest is a parameter, so one that tells the two apart may be taken.
  let guid := bytes "258EAFA5-E914-47DA-95CA-C5AB0DC85B11"
  have hmagic : key' ++ guid ≠ key ++ guid := fun heq => hne (List.append_cancel_right heq).symm
  have hresponse := h fun magic =>
    if magic = key ++ guid then Vector.replicate 20 0 else Vector.replicate 20 1
  unfold handshakeResponse at hresponse
  dsimp only at hresponse
  rw [if_pos rfl, if_neg hmagic, List.append_cancel_left_eq, List.append_cancel_left_eq,
    List.append_cancel_right_eq] at hresponse
  exact absurd hresponse (by decide)

theorem exists_wsHandshake_eq {head : Head} (hshort : head.render.length ≤ 4095)
    {ssl : Source UInt8} (hssl : ssl.Positive) (hdata : ssl.data = head.render) :
    ∃ rest, ∀ sha1, wsHandshake sha1 ssl =
      (handshakeKey (head.render.take (ssl.sizes 0))).map fun key =>
        (key.map (handshakeResponse sha1), rest) := by
  -- One call of `SSL_read` decides.
  obtain ⟨rest, hread⟩ : ∃ rest, ssl.read 4095 = some (head.render.take (ssl.sizes 0), rest) := by
    have hpos : 0 < ssl.data.length := by
      rw [hdata, head.length_render]
      exact Nat.succ_pos _
    have hk : min 4095 (min (ssl.sizes 0) ssl.data.length) ≠ 0 :=
      (lt_min (by decide) (lt_min (hssl 0) hpos)).ne'
    have htake : ssl.data.take (min 4095 (min (ssl.sizes 0) ssl.data.length)) =
        head.render.take (ssl.sizes 0) := by
      rw [hdata, List.take_eq_take_iff]
      omega
    rw [← htake]
    exact ⟨_, if_neg hk⟩
  refine ⟨rest, fun sha1 => ?_⟩
  unfold wsHandshake
  rw [hread]
  dsimp only
  cases handshakeKey (head.render.take (ssl.sizes 0)) <;> rfl

/-- The opening is answered for its key exactly where the first delivery shows the key under
the spelling that is looked for. -/
theorem wsHandshake_answers_iff {head : Head} {key : Bytes} (hopening : Opening head key)
    (hshort : head.render.length ≤ 4095) {ssl : Source UInt8} (hssl : ssl.Positive)
    (hdata : ssl.data = head.render) :
    (∀ sha1, ∃ rest, wsHandshake sha1 ssl = .ok (some (handshakeResponse sha1 key), rest)) ↔
      KeyInSight key (head.render.take (ssl.sizes 0)) := by
  have hkey : 0x0D ∉ key := by
    obtain ⟨f, hf, rfl⟩ := hopening.field
    have hmem : f ∈ head.fields.filter fun f => f.Named "sec-websocket-key" := by
      rw [hf]
      exact List.mem_singleton_self f
    exact (hopening.wellFormed.fields f (List.mem_of_mem_filter hmem)).cr_not_mem_value
  obtain ⟨rest, hanswer⟩ := exists_wsHandshake_eq hshort hssl hdata
  rw [← handshakeKey_ok_iff hkey]
  constructor
  · intro h
    simp only [hanswer] at h
    rcases hfound : handshakeKey (head.render.take (ssl.sizes 0)) with e | _ | key'
    · rw [hfound] at h
      obtain ⟨_, ⟨⟩⟩ := h fun _ => Vector.replicate 20 0
    · rw [hfound] at h
      obtain ⟨_, h⟩ := h fun _ => Vector.replicate 20 0
      cases (Prod.mk.inj (Except.ok.inj h)).1
    · rw [hfound] at h
      have hsame : key' = key := by
        refine handshakeResponse_inj fun sha1 => ?_
        obtain ⟨_, h⟩ := h sha1
        exact Option.some.inj (Prod.mk.inj (Except.ok.inj h)).1
      rw [hsame]
  · intro hfound sha1
    exact ⟨rest, by rw [hanswer, hfound]; rfl⟩

def sampleKey : Bytes := bytes "dGhlIHNhbXBsZSBub25jZQ=="

/-- The opening that every client sends, with the name of the key as it is spelled there. -/
def sampleOpening (name : String) : Head where
  method := bytes "GET"
  target := bytes "/"
  fields := [⟨bytes "Host", bytes " localhost:8081"⟩, ⟨bytes "Upgrade", bytes " websocket"⟩,
    ⟨bytes "Connection", bytes " Upgrade"⟩, ⟨bytes name, bytes " dGhlIHNhbXBsZSBub25jZQ=="⟩,
    ⟨bytes "Sec-WebSocket-Version", bytes " 13"⟩]

theorem sampleKey_eq : sampleKey = base64Encode (bytes "the sample nonce") := by decide

theorem opening_sampleOpening : Opening (sampleOpening "Sec-WebSocket-Key") sampleKey where
  wellFormed := by decide +kernel
  method := rfl
  host := by decide
  upgrade := by decide
  connection := by decide
  version := by decide
  field := ⟨⟨bytes "Sec-WebSocket-Key", bytes " dGhlIHNhbXBsZSBub25jZQ=="⟩, by decide, by decide⟩
  nonce := ⟨bytes "the sample nonce", by decide, sampleKey_eq⟩

theorem length_sampleOpening : (sampleOpening "Sec-WebSocket-Key").render.length ≤ 4095 := by
  decide +kernel

/-- As SHA-1 digests the sample. -/
def sampleSha1 (_ : Bytes) : Vector UInt8 20 :=
  #v[0xB3, 0x7A, 0x4F, 0x2C, 0xC0, 0x62, 0x4F, 0x16, 0x90, 0xF6, 0x46, 0x06, 0xCF, 0x38, 0x59, 0x45,
    0xB2, 0xBE, 0xC4, 0xEA]

theorem wsHandshake_sampleOpening :
    base64Encode (sampleSha1 (sampleKey ++ bytes "258EAFA5-E914-47DA-95CA-C5AB0DC85B11")).toList =
        bytes "s3pPLMBiTxaQ9kYGzzhZRbK+xOo=" ∧
      ∃ rest, wsHandshake sampleSha1 ⟨(sampleOpening "Sec-WebSocket-Key").render, fun _ => 4095⟩ =
        .ok (some (handshakeResponse sampleSha1 sampleKey), rest) := by
  refine ⟨by decide +kernel, (wsHandshake_answers_iff opening_sampleOpening length_sampleOpening
    (fun _ => Nat.succ_pos 4094) rfl).mpr ?_ sampleSha1⟩
  show KeyInSight sampleKey ((sampleOpening "Sec-WebSocket-Key").render.take 4095)
  rw [List.take_of_length_le length_sampleOpening]
  exact (keyInSight_render_iff (by decide +kernel) (by decide)).mpr (by decide)

/-- In lower case the key is not found, and the client is turned away. -/
theorem lower_case_key_refused :
    Opening (sampleOpening "sec-websocket-key") sampleKey ∧ ∀ sha1,
      (wsHandshake sha1 ⟨(sampleOpening "sec-websocket-key").render, fun _ => 4095⟩).map Prod.fst =
        .ok none := by
  refine ⟨⟨by decide +kernel, rfl, by decide, by decide, by decide, by decide,
    ⟨⟨bytes "sec-websocket-key", bytes " dGhlIHNhbXBsZSBub25jZQ=="⟩, by decide, by decide⟩,
    ⟨bytes "the sample nonce", by decide, sampleKey_eq⟩⟩, ?_⟩
  have hread : (Source.read ⟨(sampleOpening "sec-websocket-key").render, fun _ => 4095⟩ 4095).map
      Prod.fst = some (sampleOpening "sec-websocket-key").render := by decide +kernel
  have hkey : handshakeKey (sampleOpening "sec-websocket-key").render = .ok none := by
    decide +kernel
  intro sha1
  obtain ⟨⟨request, rest⟩, hread, rfl⟩ := Option.map_eq_some_iff.mp hread
  unfold wsHandshake
  rw [hread]
  dsimp only
  rw [hkey]
  rfl

end StereoCamera.WSServer
