import StereoCamera.Data.DataStorage

/-! Which files `FileStorage::load` can be given. What it reads is not checked: a header of
another shape ends in an exception, and a file that is too short in a payload that was not read. -/

namespace StereoCamera.FileStorage

open PartialIO

section
variable {parse : Bytes → Except JsonException Json} {garbage : Vector UInt8 4}
  {storage : FileStorage} {fs : FileSystem} {path : String} {bundle : DataBundle}

/-- The bundle has as many bytes as the header says, and all of them are in the file behind
the header. -/
def Delivered (parse : Bytes → Except JsonException Json) (garbage : Vector UInt8 4)
    (content : Bytes) (payload : Bytes) : Prop :=
  ∃ j, parse (jsonStr garbage content) = .ok j ∧
    (j.item "payload_size").Denotes payload.length ∧
      payload <+: content.drop (4 + jsonSize garbage content)

/-- The load gives a bundle that was read from the file, or it says that it does not and leaves
the bundle alone. -/
def AllOrNothing (parse : Bytes → Except JsonException Json) (garbage : Vector UInt8 4)
    (storage : FileStorage) (fs : FileSystem) (path : String) (bundle : DataBundle) : Prop :=
  match storage.load parse garbage fs path bundle with
  | (.ok true, bundle') => ∃ content, fs.contents (storage.fullPath path) = some content ∧
      Delivered parse garbage content bundle'.payload
  | (.ok false, bundle') => bundle' = bundle
  | (.error _, _) => False

/-- The header gives a time and the length of a payload that is in `rest`. -/
def Complete (j : Json) (rest : Bytes) : Prop :=
  ∃ sec nsec n, Gives j sec nsec n ∧ (j.item "payload_size").Denotes n.toNat ∧
    n.toNat ≤ rest.length

theorem overwrite_take_of_le {old rest : Bytes} {n : ℕ} (h : n ≤ rest.length) :
    overwrite (old.take n ++ List.replicate (n - old.length) 0) (rest.take n) = rest.take n := by
  refine overwrite_of_length_le ?_
  rw [List.length_append, List.length_take, List.length_replicate, List.length_take]
  omega

theorem length_overwrite_take (old rest : Bytes) (n : ℕ) :
    (overwrite (old.take n ++ List.replicate (n - old.length) 0) (rest.take n)).length = n := by
  have hlength : (old.take n ++ List.replicate (n - old.length) (0 : UInt8)).length = n := by
    rw [List.length_append, List.length_take, List.length_replicate]
    omega
  rw [length_overwrite, hlength]
  rw [hlength]
  exact List.length_take_le n rest

theorem allOrNothing_iff_of_parsed {content : Bytes} {j : Json}
    (hfile : fs.contents (storage.fullPath path) = some content)
    (hparse : parse (jsonStr garbage content) = .ok j) :
    AllOrNothing parse garbage storage fs path bundle ↔
      Complete j (content.drop (4 + jsonSize garbage content)) := by
  obtain ⟨file, hleft, hload⟩ := load_eq hfile hparse bundle
  unfold AllOrNothing
  rw [hload]
  by_cases hgives : ∃ sec nsec n, Gives j sec nsec n
  · obtain ⟨sec, nsec, n, hgives⟩ := hgives
    rw [run_readBundle_of_gives hgives, hleft]
    dsimp only
    constructor
    · rintro ⟨content', hfile', j', hparse', hsize, hprefix⟩
      cases hfile.symm.trans hfile'
      cases hparse.symm.trans hparse'
      rw [length_overwrite_take] at hsize
      have hle := hprefix.length_le
      rw [length_overwrite_take] at hle
      exact ⟨sec, nsec, n, hgives, hsize, hle⟩
    · rintro ⟨sec', nsec', n', hgives', hsize, hle⟩
      cases hgives.size.symm.trans hgives'.size
      refine ⟨content, hfile, j, hparse, ?_, ?_⟩
      · rw [length_overwrite_take]
        exact hsize
      · rw [overwrite_take_of_le hle]
        exact List.take_prefix _ _
  · obtain ⟨e, bundle', hrun⟩ :=
      run_readBundle_of_not (fun sec nsec n h => hgives ⟨sec, nsec, n, h⟩) bundle
    rw [hrun]
    refine iff_of_false id ?_
    rintro ⟨sec, nsec, n, h, -⟩
    exact hgives ⟨sec, nsec, n, h⟩

end

/-- A load is all or nothing exactly if the file cannot be opened, or what stands for its
header is no JSON, or the header gives two numbers for the time, and for the size of the payload
a number of bytes that the file has behind it. -/
theorem allOrNothing_iff (parse : Bytes → Except JsonException Json) (garbage : Vector UInt8 4)
    (storage : FileStorage) (fs : FileSystem) (path : String) (bundle : DataBundle) :
    AllOrNothing parse garbage storage fs path bundle ↔
      ∀ content j, fs.contents (storage.fullPath path) = some content →
        parse (jsonStr garbage content) = .ok j →
          Complete j (content.drop (4 + jsonSize garbage content)) := by
  rcases hfile : fs.contents (storage.fullPath path) with _ | content
  · have hload : storage.load parse garbage fs path bundle = (.ok false, bundle) := by
      rw [load, hfile]
    refine iff_of_true ?_ nofun
    rw [AllOrNothing, hload]
  rcases hparse : parse (jsonStr garbage content) with e | j
  · have hload : storage.load parse garbage fs path bundle = (.ok false, bundle) := by
      rw [load, hfile]
      dsimp only
      rw [hparse]
    refine iff_of_true ?_ ?_
    · rw [AllOrNothing, hload]
    · rintro _ j ⟨⟩ hj
      cases hparse.symm.trans hj
  · rw [allOrNothing_iff_of_parsed hfile hparse]
    constructor
    · rintro h _ j' ⟨⟩ hj
      cases hparse.symm.trans hj
      exact h
    · intro h
      exact h content j rfl hparse

/-- The file of a bundle whose last byte is missing. -/
def truncatedFile : Bytes := sizeBytes (UInt32.ofNat imuHeader.length) ++ imuHeader ++ [1, 2]

def truncated : FileSystem := ⟨fun _ => some truncatedFile, fun _ => true⟩

/-- Another payload is still in the bundle that the file is loaded into. -/
def usedBundle : DataBundle := ⟨⟨0, 0⟩, .stereoImage, [4, 4, 4]⟩

/-- The byte that is missing in the file is one that the caller's bundle held before. -/
theorem truncated_file_loaded :
    (⟨"data"⟩ : FileStorage).load parseImuHeader #v[0, 0, 0, 0] truncated "imu.bin" usedBundle =
        (.ok true, ⟨⟨5, 7⟩, .imu, [1, 2, 4]⟩) ∧
      ¬AllOrNothing parseImuHeader #v[0, 0, 0, 0] ⟨"data"⟩ truncated "imu.bin" usedBundle := by
  have hshort : imuHeader.length < 2 ^ 32 := by decide
  have hparse : parseImuHeader (jsonStr #v[0, 0, 0, 0] truncatedFile) = .ok (header imuBundle) := by
    rw [truncatedFile, jsonStr_append hshort]
    exact if_pos rfl
  have hrest : truncatedFile.drop (4 + jsonSize #v[0, 0, 0, 0] truncatedFile) = [1, 2] := by
    rw [truncatedFile, jsonSize_append hshort, ← List.drop_drop, drop_sizeBytes, List.drop_left]
  have hgives : Gives (header imuBundle) 5 7 3 := gives_header (by decide)
  have hfile : truncated.contents ((⟨"data"⟩ : FileStorage).fullPath "imu.bin") =
      some truncatedFile := rfl
  constructor
  · obtain ⟨file, hleft, hload⟩ := load_eq hfile hparse usedBundle
    rw [hload, run_readBundle_of_gives hgives, hleft, hrest]
    rfl
  · rw [allOrNothing_iff_of_parsed hfile hparse, hrest]
    rintro ⟨sec, nsec, n, h, -, hle⟩
    cases hgives.size.symm.trans h.size
    exact absurd hle (by decide)

end StereoCamera.FileStorage
