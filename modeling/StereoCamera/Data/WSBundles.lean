import StereoCamera.Data.WSServerWriters
import StereoCamera.Data.WSServerEncode

/-! What a client finds in the payload of a data frame: the type, both times and the payload of a
bundle, and in an encoded stereo image its two halves. -/

namespace StereoCamera.WSServer

open Writers (bundleFrame readyMessage)
open Delivery (encodeStereoImage imageSizes)

def uint32OfBytes (bs : Bytes) : UInt32 := UInt32.ofNat (BigEndian.ofBytes bs.reverse)

theorem uint32Bytes_eq (n : UInt32) : uint32Bytes n = (BigEndian.toBytes 4 n.toNat).reverse := by
  have hbyte : ∀ k : UInt32, k.toUInt8 = UInt8.ofNat k.toNat := fun k => by
    rw [← UInt8.toNat_inj, UInt32.toNat_toUInt8, UInt8.toNat_ofNat']
  have hshift : ∀ k : UInt32, k.toNat < 32 →
      (n >>> k).toUInt8 = UInt8.ofNat (n.toNat / 2 ^ k.toNat) := fun k hk => by
    rw [hbyte, UInt32.toNat_shiftRight, Nat.mod_eq_of_lt hk, Nat.shiftRight_eq_div_pow]
  rw [uint32Bytes, hbyte, hshift 8 (by decide), hshift 16 (by decide), hshift 24 (by decide)]
  simp [BigEndian.toBytes]

theorem length_uint32Bytes (n : UInt32) : (uint32Bytes n).length = 4 := rfl

theorem uint32OfBytes_uint32Bytes (n : UInt32) : uint32OfBytes (uint32Bytes n) = n := by
  have hlt : n.toNat < 256 ^ 4 := n.toNat_lt
  rw [uint32OfBytes, uint32Bytes_eq, List.reverse_reverse, BigEndian.ofBytes_toBytes,
    Nat.mod_eq_of_lt hlt, UInt32.ofNat_toNat]

def readUInt32 (bs : Bytes) : Option (UInt32 × Bytes) :=
  if 4 ≤ bs.length then some (uint32OfBytes (bs.take 4), bs.drop 4) else none

theorem readUInt32_append (n : UInt32) (rest : Bytes) :
    readUInt32 (uint32Bytes n ++ rest) = some (n, rest) := by
  have hlen := length_uint32Bytes n
  unfold readUInt32
  rw [if_pos (by rw [List.length_append, hlen]; exact Nat.le_add_right 4 _),
    List.take_left' hlen, List.drop_left' hlen, uint32OfBytes_uint32Bytes]

/-! ## Bundles -/

def dataTypes : List DataType :=
  [.stereoImage, .depthMap, .pointCloud, .imu, .disparityMap, .confidenceMap, .temperature,
    .magnetometer, .barometer]

def dataTypeOfNat (n : ℕ) : Option DataType := dataTypes.find? fun type => type.toNat = n

theorem dataTypeOfNat_toNat (type : DataType) : dataTypeOfNat type.toNat = some type := by
  cases type <;> rfl

structure Reading where
  type : DataType
  sec : UInt32
  nsec : UInt32
  payload : Bytes
  deriving DecidableEq

/-- Of both times the lower 32 bits arrive. -/
def Reading.of (type : DataType) (bundle : DataBundle) : Reading :=
  ⟨type, .ofInt bundle.timestamp.sec.toInt, .ofInt bundle.timestamp.nsec.toInt, bundle.payload⟩

def readBundle (bs : Bytes) : Option Reading := do
  let (type, bs) ← readUInt32 bs
  let (sec, bs) ← readUInt32 bs
  let (nsec, payload) ← readUInt32 bs
  let type ← dataTypeOfNat type.toNat
  return ⟨type, sec, nsec, payload⟩

theorem readBundle_bundleFrame (type : DataType) (bundle : DataBundle) :
    readBundle (bundleFrame type bundle) = some (.of type bundle) := by
  have htype : (UInt32.ofNat type.toNat).toNat = type.toNat := by cases type <;> rfl
  unfold readBundle bundleFrame
  rw [List.append_assoc, List.append_assoc, readUInt32_append]
  dsimp only [bind, Option.bind]
  rw [readUInt32_append]
  dsimp only
  rw [readUInt32_append]
  dsimp only
  rw [htype, dataTypeOfNat_toNat]
  rfl

/-- The ready message is not taken for a bundle: its first four bytes are no type. -/
theorem readBundle_readyMessage : readBundle readyMessage = none := by decide

/-! ## Stereo images -/

def readStereoImage (payload : Bytes) : Option (Bytes × Bytes) := do
  let (size, rest) ← readUInt32 payload
  if size.toNat ≤ rest.length then some (rest.take size.toNat, rest.drop size.toNat) else none

theorem readStereoImage_append {left : Bytes} (hleft : left.length < 2 ^ 32) (right : Bytes) :
    readStereoImage (uint32Bytes (UInt32.ofNat left.length) ++ left ++ right) =
      some (left, right) := by
  have hsize : (UInt32.ofNat left.length).toNat = left.length := UInt32.toNat_ofNat_of_lt' hleft
  unfold readStereoImage
  rw [List.append_assoc, readUInt32_append]
  dsimp only [bind, Option.bind]
  rw [hsize, if_pos (by rw [List.length_append]; exact Nat.le_add_right _ _), List.take_left,
    List.drop_left]

theorem eq_of_encodeStereoImage {compress : Bytes → ℕ → ℕ → Option Bytes} {raw encoded : Bytes}
    (h : encodeStereoImage compress raw = some encoded) :
    ∃ w h left right, (w * h, w, h) ∈ imageSizes ∧
      raw.length / 2 % 2 ^ 34 = 4 * (w * h) ∧
      compress (raw.take (raw.length / 2)) w h = some left ∧
      compress (raw.drop (raw.length / 2)) w h = some right ∧
      encoded = uint32Bytes (UInt32.ofNat left.length) ++ left ++ right := by
  -- What an encoded image is made of. The number of pixels is only known as an `int`.
  unfold encodeStereoImage at h
  dsimp only at h
  split_ifs at h with hmin hhalf
  obtain ⟨⟨pixels, w, ht⟩, hsize, h⟩ := Option.bind_eq_some_iff.mp h
  obtain ⟨left, hleft, h⟩ := Option.bind_eq_some_iff.mp h
  obtain ⟨right, hright, h⟩ := Option.bind_eq_some_iff.mp h
  have hall : ∀ r ∈ imageSizes, r.1 = r.2.1 * r.2.2 := by decide
  have hmem := List.mem_of_find?_eq_some hsize
  have hpixels : pixels = w * ht := hall _ hmem
  have hcast : raw.length / 2 / 4 % 2 ^ 32 = pixels := by
    simpa using List.find?_some hsize
  have hbytes : raw.length / 2 % 2 ^ 34 = 4 * (w * ht) := by
    rw [← hpixels]
    omega
  exact ⟨w, ht, left, right, hpixels ▸ hmem, hbytes, hleft, hright, (Option.some.inj h).symm⟩

/-- Of the frame of an encoded stereo image, a client makes the two JPEG images that the halves of
the raw one were compressed to, with a size that has as many pixels as a half (modulo `2 ^ 32`),
provided that the sizes of the images fit their field. -/
theorem readStereoImage_of_frame {compress : Bytes → ℕ → ℕ → Option Bytes}
    (hjpeg : ∀ image w h jpg, compress image w h = some jpg → jpg.length < 2 ^ 32) {raw : Bytes}
    {bundle : DataBundle} (h : encodeStereoImage compress raw = some bundle.payload)
    (type : DataType) :
    ∃ w h left right, (w * h, w, h) ∈ imageSizes ∧ raw.length / 2 % 2 ^ 34 = 4 * (w * h) ∧
      compress (raw.take (raw.length / 2)) w h = some left ∧
      compress (raw.drop (raw.length / 2)) w h = some right ∧
      ∃ reading, readBundle (bundleFrame type bundle) = some reading ∧ reading.type = type ∧
        readStereoImage reading.payload = some (left, right) := by
  obtain ⟨w, ht, left, right, hsize, hbytes, hleft, hright, hpayload⟩ :=
    eq_of_encodeStereoImage h
  refine ⟨w, ht, left, right, hsize, hbytes, hleft, hright, _, readBundle_bundleFrame type bundle,
    rfl, ?_⟩
  change readStereoImage bundle.payload = _
  rw [hpayload, readStereoImage_append (hjpeg _ _ _ _ hleft)]

theorem readStereoImage_of_frame_black : ∃ w h left right, (w * h, w, h) ∈ imageSizes ∧
    Delivery.blackImage.length / 2 % 2 ^ 34 = 4 * (w * h) ∧
    Delivery.markedJpeg (Delivery.blackImage.take (Delivery.blackImage.length / 2)) w h =
      some left ∧
    Delivery.markedJpeg (Delivery.blackImage.drop (Delivery.blackImage.length / 2)) w h =
      some right ∧
    ∃ reading, readBundle (bundleFrame .stereoImage
        ⟨⟨1, 5⟩, .stereoImage, Delivery.encodedBlack⟩) = some reading ∧
      reading.type = .stereoImage ∧ readStereoImage reading.payload = some (left, right) := by
  have hencoded : encodeStereoImage Delivery.markedJpeg Delivery.blackImage =
      some (⟨⟨1, 5⟩, .stereoImage, Delivery.encodedBlack⟩ : DataBundle).payload :=
    Delivery.encodeStereoImage_blackImage
  refine readStereoImage_of_frame (fun image w h jpg hjpg => ?_) hencoded .stereoImage
  obtain rfl := Option.some.inj hjpg
  decide

end StereoCamera.WSServer
