import Mathlib.Data.List.GetD
import StereoCamera.Vision.DisparityMap

/-! Where `compute` reads and writes, and for which images it stays inside its buffers. -/

namespace StereoCamera.DisparityMap

open CheckedList CheckedLoop

/-! ### Casts and indexes -/

theorem castInt_eq (n : UInt32) :
    castInt n = if 2 * n.toNat < 2 ^ 32 then (n.toNat : ℤ) else n.toNat - (2 ^ 32 : ℕ) := by
  unfold castInt
  rw [← Int32.toInt_toBitVec, UInt32.toBitVec_toInt32, BitVec.toInt_eq_toNat_cond]
  rfl

theorem castInt_of_lt {n : UInt32} (h : n.toNat < 2 ^ 31) : castInt n = n.toNat := by
  rw [castInt_eq, if_pos (by omega)]

theorem castInt_le (n : UInt32) : castInt n ≤ n.toNat := by
  rw [castInt_eq]
  split_ifs <;> omega

theorem toNat_ofInt {z : ℤ} (hpos : 0 ≤ z) (hlt : z < 2 ^ 32) :
    (UInt32.ofInt z).toNat = z.toNat := by
  change (UInt32.ofNat (z % 2 ^ 32).toNat).toNat = z.toNat
  rw [Int.emod_eq_of_lt hpos hlt, UInt32.toNat_ofNat_of_lt']
  change z.toNat < 2 ^ 32
  omega

theorem index_lt {w h x y : ℕ} (hx : x < w) (hy : y < h) : y * w + x < w * h := by
  calc y * w + x < y * w + w := Nat.add_lt_add_left hx _
    _ = (y + 1) * w := (Nat.succ_mul y w).symm
    _ ≤ h * w := Nat.mul_le_mul_right w hy
    _ = w * h := Nat.mul_comm h w

theorem toNat_index {w h x y : UInt32} (hsize : w.toNat * h.toNat < 2 ^ 32)
    (hx : x.toNat < w.toNat) (hy : y.toNat < h.toNat) :
    (y * w + x).toNat = y.toNat * w.toNat + x.toNat := by
  -- The index of a pixel does not wrap where the image has fewer than 2^32 pixels.
  have hindex := (index_lt hx hy).trans hsize
  rw [UInt32.toNat_add, UInt32.toNat_mul, Nat.mod_add_mod]
  exact Nat.mod_eq_of_lt hindex

theorem toNat_area {w h : UInt32} (hsize : w.toNat * h.toNat < 2 ^ 32) :
    (w * h).toNat = w.toNat * h.toNat := by
  rw [UInt32.toNat_mul]
  exact Nat.mod_eq_of_lt hsize

theorem toNat_intIndex {w h : UInt32} (hsize : w.toNat * h.toNat < 2 ^ 32) {row col : ℤ}
    (hrow : 0 ≤ row) (hrow' : row < castInt h) (hcol : 0 ≤ col) (hcol' : col < castInt w) :
    (UInt32.ofInt row * w + UInt32.ofInt col).toNat = row.toNat * w.toNat + col.toNat ∧
      row.toNat * w.toNat + col.toNat < w.toNat * h.toNat := by
  have hh := hrow'.trans_le (castInt_le h)
  have hw := hcol'.trans_le (castInt_le w)
  have hh32 := h.toNat_lt
  have hw32 := w.toNat_lt
  have hrowNat : (UInt32.ofInt row).toNat = row.toNat := toNat_ofInt hrow (by omega)
  have hcolNat : (UInt32.ofInt col).toNat = col.toNat := toNat_ofInt hcol (by omega)
  have hx : (UInt32.ofInt col).toNat < w.toNat := by omega
  have hy : (UInt32.ofInt row).toNat < h.toNat := by omega
  have hindex := toNat_index hsize hx hy
  have hlt := index_lt hx hy
  rw [hrowNat, hcolNat] at hindex hlt
  exact ⟨hindex, hlt⟩

/-! ### Gray images -/

def grayByte (luma : UInt8 → UInt8 → UInt8 → UInt8) (bgra : List UInt8) (n : ℕ) : UInt8 :=
  let p := (UInt32.ofNat n * 4).toNat
  luma (bgra.getD (p + 2) 0) (bgra.getD (p + 1) 0) (bgra.getD p 0)

theorem read_getD {bgra : List UInt8} {i : ℕ} (h : i < bgra.length) :
    read bgra i = .ok (bgra.getD i 0) := by
  rw [read_of_lt h, List.getD_eq_getElem _ _ h]

def ReadsInside (bgra : List UInt8) (pixels : ℕ) : Prop :=
  ∀ n < pixels, (UInt32.ofNat n * 4).toNat + 2 < bgra.length

theorem grayPixel_ok (luma : UInt8 → UInt8 → UInt8 → UInt8) {bgra gray : List UInt8} {n : ℕ}
    (hinside : (UInt32.ofNat n * 4).toNat + 2 < bgra.length) (hn : n < 2 ^ 32)
    (hwrite : n < gray.length) :
    grayPixel luma bgra gray (UInt32.ofNat n) = .ok (gray.set n (grayByte luma bgra n)) := by
  have hn32 : (UInt32.ofNat n).toNat = n := UInt32.toNat_ofNat_of_lt' hn
  unfold grayPixel
  dsimp only
  rw [read_getD hinside, read_getD (by omega), read_getD (by omega), hn32]
  exact write_of_lt hwrite _

theorem toGray_ok (luma : UInt8 → UInt8 → UInt8 → UInt8) {bgra : List UInt8} {w h : UInt32}
    (hreads : ReadsInside bgra (w * h).toNat) :
    ∃ gray, toGray luma bgra w h = .ok gray ∧ gray.length = (w * h).toNat ∧
      ∀ n < (w * h).toNat, gray[n]? = some (grayByte luma bgra n) := by
  refine foldlM_range_ok (fun k (gray : List UInt8) => gray.length = (w * h).toNat ∧
    ∀ n < k, gray[n]? = some (grayByte luma bgra n))
    ⟨List.length_replicate, fun n hn => absurd hn n.not_lt_zero⟩ ?_
  rintro k hk gray ⟨hlength, hdone⟩
  have hwrite : k < gray.length := hk.trans_eq hlength.symm
  refine ⟨_, grayPixel_ok luma (hreads k hk) (hk.trans (w * h).toNat_lt) hwrite, ?_, ?_⟩
  · rw [List.length_set, hlength]
  · intro n hn
    rcases Nat.lt_succ_iff_lt_or_eq.mp hn with hn | rfl
    · rw [List.getElem?_set_ne hn.ne', hdone n hn]
    · rw [List.getElem?_set_self hwrite]

theorem readsInside_of_toGray {luma : UInt8 → UInt8 → UInt8 → UInt8} {bgra gray : List UInt8}
    {w h : UInt32} (hrun : toGray luma bgra w h = .ok gray) :
    ReadsInside bgra (w * h).toNat := by
  intro n hn
  by_contra hshort
  obtain ⟨-, hturns⟩ := turn_of_foldlM_range (fun _ _ => True) trivial
    (fun _ _ _ _ _ _ => trivial) hrun
  obtain ⟨s, t, -, hturn⟩ := hturns n hn
  unfold grayPixel at hturn
  dsimp only at hturn
  rw [read_of_le (by omega)] at hturn
  cases hturn

theorem readsInside_iff {bgra : List UInt8} {pixels : ℕ} (hpixels : pixels < 2 ^ 32) :
    ReadsInside bgra pixels ↔ min (4 * pixels) (2 ^ 32) ≤ bgra.length + 1 := by
  -- The reads stop growing at 2^32 bytes, where `i * 4` wraps.
  have hfirst : ∀ n, (UInt32.ofNat n * 4).toNat = 4 * (n % 2 ^ 30) := by
    intro n
    rw [UInt32.toNat_mul, UInt32.toNat_ofNat']
    change n % 2 ^ 32 * 4 % 2 ^ 32 = _
    omega
  unfold ReadsInside
  constructor
  · intro hreads
    rcases Nat.eq_zero_or_pos pixels with rfl | hpos
    · omega
    · have hlast := hreads (min (pixels - 1) (2 ^ 30 - 1)) (by omega)
      rw [hfirst] at hlast
      omega
  · intro hlength n hn
    rw [hfirst]
    omega

/-! ### The costs of a pixel -/

section
variable {leftGray rightGray : List UInt8} {w h : UInt32}

/-- Both gray images have a byte for each pixel of an image with fewer than 2^32 pixels. -/
structure GrayImages (leftGray rightGray : List UInt8) (w h : UInt32) : Prop where
  size : w.toNat * h.toNat < 2 ^ 32
  left : leftGray.length = w.toNat * h.toNat
  right : rightGray.length = w.toNat * h.toNat

theorem offsets_ok {f : UInt32 × UInt32 → ℤ → Except OutOfBounds (UInt32 × UInt32)}
    (hf : ∀ acc z, ∃ acc', f acc z = .ok acc') (half : ℤ) (acc : UInt32 × UInt32) :
    ∃ acc', (offsets half).foldlM f acc = .ok acc' := by
  induction offsets half generalizing acc with
  | nil => exact ⟨acc, rfl⟩
  | cons z zs ih =>
    obtain ⟨acc', hacc'⟩ := hf acc z
    obtain ⟨last, hlast⟩ := ih acc'
    refine ⟨last, ?_⟩
    rw [List.foldlM_cons, hacc']
    exact hlast

theorem GrayImages.sadTerm_ok (hgray : GrayImages leftGray rightGray w h) {ry rx rxr : ℤ}
    (hry : ¬(ry < 0 ∨ castInt h ≤ ry))
    (hrx : ¬(rx < 0 ∨ castInt w ≤ rx ∨ rxr < 0 ∨ castInt w ≤ rxr)) (acc : UInt32 × UInt32) :
    ∃ acc', sadTerm leftGray rightGray w ry rx rxr acc = .ok acc' := by
  push Not at hry hrx
  obtain ⟨hleft, hleftLt⟩ := toNat_intIndex hgray.size hry.1 hry.2 hrx.1 hrx.2.1
  obtain ⟨hright, hrightLt⟩ := toNat_intIndex hgray.size hry.1 hry.2 hrx.2.2.1 hrx.2.2.2
  rw [← hleft, ← hgray.left] at hleftLt
  rw [← hright, ← hgray.right] at hrightLt
  unfold sadTerm
  rw [read_of_lt hleftLt, read_of_lt hrightLt]
  exact ⟨_, rfl⟩

theorem GrayImages.sadSum_ok (hgray : GrayImages leftGray rightGray w h) (half x y d : ℤ) :
    ∃ acc, sadSum leftGray rightGray w h half x y d = .ok acc := by
  refine offsets_ok (fun acc dy => ?_) half (0, 0)
  dsimp only
  split_ifs with hry
  · exact ⟨acc, rfl⟩
  · refine offsets_ok (fun acc dx => ?_) half acc
    dsimp only
    split_ifs with hrx
    · exact ⟨acc, rfl⟩
    · exact hgray.sadTerm_ok hry hrx acc

theorem GrayImages.computeSad_ok (hgray : GrayImages leftGray rightGray w h) (x y d : ℤ)
    (block : UInt32) : ∃ cost, computeSad leftGray rightGray w h x y d block = .ok cost := by
  obtain ⟨acc, hacc⟩ := hgray.sadSum_ok (castInt (block / 2)) x y d
  unfold computeSad
  dsimp only
  rw [hacc]
  exact ⟨_, rfl⟩

theorem candidate_ok {sad : UInt32 → Except OutOfBounds ℚ} (hsad : ∀ d, ∃ cost, sad d = .ok cost)
    (maxDisp : UInt32) (best : Best) (d : UInt32) :
    ∃ best', best.candidate sad maxDisp d = .ok best' := by
  obtain ⟨cost, hcost⟩ := hsad d
  obtain ⟨prev, hprev⟩ := hsad (d - 1)
  obtain ⟨next, hnext⟩ := hsad (d + 1)
  unfold Best.candidate
  rw [hcost, hprev, hnext]
  change ∃ best', (if cost < best.bestCost then _ else _) = Except.ok best'
  split_ifs <;> exact ⟨_, rfl⟩

theorem search_ok {sad : UInt32 → Except OutOfBounds ℚ} (hsad : ∀ d, ∃ cost, sad d = .ok cost)
    (maxDisp : UInt32) : ∃ best, search sad maxDisp = .ok best := by
  obtain ⟨best, hrun, -⟩ := foldlM_range_ok (n := maxDisp.toNat) (s := ({} : Best))
    (fun _ _ => True) trivial fun d _ best _ =>
      (candidate_ok hsad maxDisp best (UInt32.ofNat d)).imp fun _ h => ⟨h, trivial⟩
  exact ⟨best, hrun⟩

/-! ### The stored disparities -/

def storedAt (config : DisparityConfig) (leftGray rightGray : List UInt8)
    (width height x y : UInt32) : ℚ :=
  if isBorder config width height x y then 0
  else
    match search (pixelSad config leftGray rightGray width height x y) (config.maxDisp width) with
    | .error _ => 0
    | .ok best => best.refined config.subpixel (config.maxDisp width)

theorem storedAt_of_search {config : DisparityConfig} {x y : UInt32} {best : Best}
    (hborder : ¬isBorder config w h x y = true)
    (hsearch : search (pixelSad config leftGray rightGray w h x y) (config.maxDisp w) = .ok best) :
    storedAt config leftGray rightGray w h x y =
      best.refined config.subpixel (config.maxDisp w) := by
  unfold storedAt
  rw [if_neg hborder, hsearch]

def Filled (config : DisparityConfig) (leftGray rightGray : List UInt8) (w h : UInt32) (k : ℕ)
    (data : List ℚ) : Prop :=
  data.length = w.toNat * h.toNat ∧ ∀ x y, x < w.toNat → y < h.toNat →
    data[y * w.toNat + x]? = some (if y * w.toNat + x < k then
      storedAt config leftGray rightGray w h (UInt32.ofNat x) (UInt32.ofNat y) else 0)

theorem index_inj {w x x' y y' : ℕ} (hx : x < w) (hx' : x' < w)
    (h : y * w + x = y' * w + x') : x = x' ∧ y = y' := by
  have hw : 0 < w := (Nat.zero_le x).trans_lt hx
  have hcol := congrArg (· % w) h
  have hrow := congrArg (· / w) h
  simp only [Nat.mul_add_mod_self_right, Nat.mod_eq_of_lt hx, Nat.mod_eq_of_lt hx'] at hcol
  simp only [Nat.add_comm _ x, Nat.add_comm _ x', Nat.add_mul_div_right _ _ hw,
    Nat.div_eq_of_lt hx, Nat.div_eq_of_lt hx', Nat.zero_add] at hrow
  exact ⟨hcol, hrow⟩

variable {config : DisparityConfig} {data data' : List ℚ}

theorem Filled.succ {x y : ℕ} (hdata : Filled config leftGray rightGray w h (y * w.toNat + x) data)
    (hx : x < w.toNat) (hlength : data'.length = data.length)
    (hother : ∀ i, i ≠ y * w.toNat + x → data'[i]? = data[i]?)
    (hpixel : data'[y * w.toNat + x]? =
      some (storedAt config leftGray rightGray w h (UInt32.ofNat x) (UInt32.ofNat y))) :
    Filled config leftGray rightGray w h (y * w.toNat + x + 1) data' := by
  refine ⟨hlength.trans hdata.1, fun x' y' hx' hy' => ?_⟩
  by_cases hsame : y' * w.toNat + x' = y * w.toNat + x
  · obtain ⟨rfl, rfl⟩ := index_inj hx' hx hsame
    rw [hpixel, if_pos (Nat.lt_succ_self _)]
  · have hlt : y' * w.toNat + x' < y * w.toNat + x + 1 ↔ y' * w.toNat + x' < y * w.toNat + x := by
      omega
    rw [hother _ hsame, hdata.2 x' y' hx' hy']
    simp only [hlt]

theorem GrayImages.computePixel_ok (hgray : GrayImages leftGray rightGray w h) {x y : ℕ}
    (hx : x < w.toNat) (hy : y < h.toNat)
    (hdata : Filled config leftGray rightGray w h (y * w.toNat + x) data) :
    ∃ data', computePixel config leftGray rightGray w h (UInt32.ofNat x) (UInt32.ofNat y) data =
        .ok data' ∧ Filled config leftGray rightGray w h (y * w.toNat + x + 1) data' := by
  have hx32 : (UInt32.ofNat x).toNat = x := UInt32.toNat_ofNat_of_lt' (hx.trans w.toNat_lt)
  have hy32 : (UInt32.ofNat y).toNat = y := UInt32.toNat_ofNat_of_lt' (hy.trans h.toNat_lt)
  have hindex : (UInt32.ofNat y * w + UInt32.ofNat x).toNat = y * w.toNat + x := by
    rw [toNat_index hgray.size (hx32.symm ▸ hx) (hy32.symm ▸ hy), hx32, hy32]
  have hinside : y * w.toNat + x < data.length := hdata.1.symm ▸ index_lt hx hy
  unfold computePixel
  by_cases hborder : isBorder config w h (UInt32.ofNat x) (UInt32.ofNat y) = true
  · refine ⟨data, if_pos hborder, hdata.succ hx rfl (fun _ _ => rfl) ?_⟩
    rw [hdata.2 x y hx hy, if_neg (Nat.lt_irrefl _), storedAt, if_pos hborder]
  · obtain ⟨best, hbest⟩ : ∃ best, search (pixelSad config leftGray rightGray w h
        (UInt32.ofNat x) (UInt32.ofNat y)) (config.maxDisp w) = .ok best :=
      search_ok (fun d => hgray.computeSad_ok _ _ (castInt d) config.block) (config.maxDisp w)
    rw [if_neg hborder]
    refine ⟨data.set (y * w.toNat + x) (best.refined config.subpixel (config.maxDisp w)), ?_,
      hdata.succ hx List.length_set (fun i hi => List.getElem?_set_ne hi.symm) ?_⟩
    · rw [hbest, hindex.symm]
      exact write_of_lt (hindex.symm ▸ hinside) _
    · rw [List.getElem?_set_self hinside, storedAt_of_search hborder hbest]

theorem GrayImages.fill_ok (hgray : GrayImages leftGray rightGray w h) (config : DisparityConfig) :
    ∃ data, (List.range h.toNat).foldlM (fun data y =>
        (List.range w.toNat).foldlM (fun data x => computePixel config leftGray rightGray w h
          (UInt32.ofNat x) (UInt32.ofNat y) data) data)
        (List.replicate (w * h).toNat 0) = .ok data ∧
      Filled config leftGray rightGray w h (h.toNat * w.toNat) data := by
  refine foldlM_range_ok (fun y data => Filled config leftGray rightGray w h (y * w.toNat) data)
    ⟨?_, fun x y hx hy => ?_⟩ fun y hy data hdata => ?_
  · rw [List.length_replicate, toNat_area hgray.size]
  · rw [Nat.zero_mul, if_neg (Nat.not_lt_zero _), toNat_area hgray.size]
    exact List.getElem?_replicate_of_lt (index_lt hx hy)
  · obtain ⟨data', hrun, hfilled⟩ := foldlM_range_ok (n := w.toNat) (s := data)
      (fun x data => Filled config leftGray rightGray w h (y * w.toNat + x) data) hdata
      fun x hx data hdata => hgray.computePixel_ok hx hy hdata
    refine ⟨data', hrun, ?_⟩
    rw [Nat.succ_mul]
    exact hfilled

end

/-! ### The size guard -/

section
variable {luma : UInt8 → UInt8 → UInt8 → UInt8} {pair : StereoImagePair} {config : DisparityConfig}

def Rejected (pair : StereoImagePair) : Prop :=
  pair.left.length < (pair.width * pair.height * 4).toNat ∨
    pair.right.length < (pair.width * pair.height * 4).toNat

theorem compute_of_rejected (luma : UInt8 → UInt8 → UInt8 → UInt8) (config : DisparityConfig)
    (h : Rejected pair) :
    compute luma pair config =
      .ok ⟨List.replicate (pair.width * pair.height).toNat 0, pair.width, pair.height⟩ := by
  unfold compute
  exact if_pos h

structure GrayOf (luma : UInt8 → UInt8 → UInt8 → UInt8) (pair : StereoImagePair)
    (leftGray rightGray : List UInt8) : Prop where
  leftRun : toGray luma pair.left pair.width pair.height = .ok leftGray
  rightRun : toGray luma pair.right pair.width pair.height = .ok rightGray
  left : ∀ n < pair.width.toNat * pair.height.toNat,
    leftGray[n]? = some (grayByte luma pair.left n)
  right : ∀ n < pair.width.toNat * pair.height.toNat,
    rightGray[n]? = some (grayByte luma pair.right n)

theorem compute_of_readsInside (luma : UInt8 → UInt8 → UInt8 → UInt8) (config : DisparityConfig)
    (hsize : pair.width.toNat * pair.height.toNat < 2 ^ 32) (h : ¬Rejected pair)
    (hleft : ReadsInside pair.left (pair.width * pair.height).toNat)
    (hright : ReadsInside pair.right (pair.width * pair.height).toNat) :
    ∃ leftGray rightGray data, GrayOf luma pair leftGray rightGray ∧
      compute luma pair config = .ok ⟨data, pair.width, pair.height⟩ ∧
      Filled config leftGray rightGray pair.width pair.height
        (pair.height.toNat * pair.width.toNat) data := by
  obtain ⟨leftGray, hleftRun, hleftLength, hleftBytes⟩ := toGray_ok luma hleft
  obtain ⟨rightGray, hrightRun, hrightLength, hrightBytes⟩ := toGray_ok luma hright
  rw [toNat_area hsize] at hleftLength hleftBytes hrightLength hrightBytes
  have hgray : GrayImages leftGray rightGray pair.width pair.height :=
    ⟨hsize, hleftLength, hrightLength⟩
  obtain ⟨data, hrun, hfilled⟩ := hgray.fill_ok config
  refine ⟨leftGray, rightGray, data, ⟨hleftRun, hrightRun, hleftBytes, hrightBytes⟩, ?_, hfilled⟩
  unfold compute
  refine (if_neg h).trans ?_
  rw [hleftRun, hrightRun]
  dsimp only [bind, Except.bind]
  rw [hrun]
  rfl

theorem length_of_computePixel {leftGray rightGray : List UInt8} {w h x y : UInt32}
    {data data' : List ℚ}
    (hrun : computePixel config leftGray rightGray w h x y data = .ok data') :
    data'.length = data.length := by
  unfold computePixel at hrun
  split_ifs at hrun
  · cases hrun
    rfl
  · rcases hsearch : search (pixelSad config leftGray rightGray w h x y) (config.maxDisp w) with
      e | best
    · rw [hsearch] at hrun
      cases hrun
    · rw [hsearch] at hrun
      change write _ _ _ = _ at hrun
      unfold write at hrun
      split_ifs at hrun
      cases hrun
      exact List.length_set

theorem of_compute {m : DisparityMap} (hrun : compute luma pair config = .ok m) :
    m.data.length = (pair.width * pair.height).toNat ∧ (¬Rejected pair →
      ReadsInside pair.left (pair.width * pair.height).toNat ∧
      ReadsInside pair.right (pair.width * pair.height).toNat) := by
  by_cases hreject : Rejected pair
  · rw [compute_of_rejected luma config hreject] at hrun
    cases hrun
    exact ⟨List.length_replicate, fun h => absurd hreject h⟩
  · unfold compute at hrun
    replace hrun := (if_neg hreject).symm.trans hrun
    rcases hleft : toGray luma pair.left pair.width pair.height with e | leftGray
    · rw [hleft] at hrun
      cases hrun
    rcases hright : toGray luma pair.right pair.width pair.height with e | rightGray
    · rw [hleft, hright] at hrun
      cases hrun
    rw [hleft, hright] at hrun
    dsimp only [bind, Except.bind] at hrun
    split at hrun
    · cases hrun
    rename_i data hfill
    cases hrun
    refine ⟨?_, fun _ => ⟨readsInside_of_toGray hleft, readsInside_of_toGray hright⟩⟩
    refine (turn_of_foldlM_range (fun _ (data : List ℚ) =>
      data.length = (pair.width * pair.height).toNat) List.length_replicate ?_ hfill).1
    intro y _ row row' hrow hturn
    refine (turn_of_foldlM_range (fun _ (data : List ℚ) =>
      data.length = (pair.width * pair.height).toNat) hrow ?_ hturn).1
    intro x _ data data' hdata hpixel
    exact (length_of_computePixel hpixel).trans hdata

/-- Nothing is read or written outside a buffer, the map gets an element for each pixel, and no
pair with a buffer that is too short passes the guard. -/
structure InBounds (luma : UInt8 → UInt8 → UInt8 → UInt8) (pair : StereoImagePair)
    (config : DisparityConfig) : Prop where
  completes : ∃ m, compute luma pair config = .ok m ∧
    m.data.length = pair.width.toNat * pair.height.toNat
  rejects : pair.left.length < 4 * (pair.width.toNat * pair.height.toNat) ∨
    pair.right.length < 4 * (pair.width.toNat * pair.height.toNat) → Rejected pair

/-- The number of pixels keeps inside 32 bits, and so does the number of bytes, or else the
buffers are too short for what is left of it, or have all bytes. -/
structure SizesKept (pair : StereoImagePair) : Prop where
  pixels : pair.width.toNat * pair.height.toNat < 2 ^ 32
  bytes : 4 * (pair.width.toNat * pair.height.toNat) < 2 ^ 32 ∨
    pair.left.length < 4 * (pair.width.toNat * pair.height.toNat) % 2 ^ 32 ∨
    pair.right.length < 4 * (pair.width.toNat * pair.height.toNat) % 2 ^ 32 ∨
    4 * (pair.width.toNat * pair.height.toNat) ≤ pair.left.length ∧
      4 * (pair.width.toNat * pair.height.toNat) ≤ pair.right.length

theorem rejected_iff :
    Rejected pair ↔
      pair.left.length < 4 * (pair.width.toNat * pair.height.toNat) % 2 ^ 32 ∨
      pair.right.length < 4 * (pair.width.toNat * pair.height.toNat) % 2 ^ 32 := by
  have hbytes : (pair.width * pair.height * 4).toNat =
      4 * (pair.width.toNat * pair.height.toNat) % 2 ^ 32 := by
    rw [UInt32.toNat_mul, UInt32.toNat_mul]
    change pair.width.toNat * pair.height.toNat % 2 ^ 32 * 4 % 2 ^ 32 = _
    omega
  unfold Rejected
  rw [hbytes]

theorem readsInside_of_le {bgra : List UInt8} {w h : UInt32}
    (hsize : w.toNat * h.toNat < 2 ^ 32) (hlength : 4 * (w.toNat * h.toNat) ≤ bgra.length) :
    ReadsInside bgra (w * h).toNat := by
  rw [toNat_area hsize, readsInside_iff hsize]
  omega

/-- `compute` stays inside its buffers exactly when the sizes of the pair are kept. -/
theorem inBounds_iff_sizesKept (luma : UInt8 → UInt8 → UInt8 → UInt8) (pair : StereoImagePair)
    (config : DisparityConfig) : InBounds luma pair config ↔ SizesKept pair := by
  constructor
  · rintro ⟨⟨m, hrun, hlength⟩, hrejects⟩
    have hpixels : pair.width.toNat * pair.height.toNat < 2 ^ 32 := by
      rw [← hlength, (of_compute hrun).1]
      exact (pair.width * pair.height).toNat_lt
    refine ⟨hpixels, ?_⟩
    rw [rejected_iff] at hrejects
    omega
  · rintro ⟨hpixels, hbytes⟩
    have hrejects : pair.left.length < 4 * (pair.width.toNat * pair.height.toNat) ∨
        pair.right.length < 4 * (pair.width.toNat * pair.height.toNat) → Rejected pair := by
      rw [rejected_iff]
      omega
    refine ⟨?_, hrejects⟩
    by_cases hreject : Rejected pair
    · refine ⟨_, compute_of_rejected luma config hreject, ?_⟩
      rw [List.length_replicate, toNat_area hpixels]
    · have hlong := mt hrejects hreject
      rw [not_or, Nat.not_lt, Nat.not_lt] at hlong
      obtain ⟨_, _, data, -, hrun, hfilled⟩ := compute_of_readsInside luma config hpixels
        hreject (readsInside_of_le hpixels hlong.1) (readsInside_of_le hpixels hlong.2)
      exact ⟨_, hrun, hfilled.1⟩

/-- An image of 2^15 by 2^15 pixels has 2^32 bytes, which the guard takes for none. -/
theorem emptyBuffers_pass_guard : ¬InBounds weights ⟨[], [], 32768, 32768⟩ {} := by
  rintro ⟨⟨m, hrun, -⟩, -⟩
  have hreject : ¬Rejected ⟨[], [], 32768, 32768⟩ := by
    rw [rejected_iff]
    decide
  have hread := ((of_compute hrun).2 hreject).1 0 (by decide)
  exact absurd hread (by decide)

end

end StereoCamera.DisparityMap
