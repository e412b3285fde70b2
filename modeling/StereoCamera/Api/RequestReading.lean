import StereoCamera.Api.AdminServer

/-! Which bytes of a connection make the request, however they come, and when reading and
cutting them throws. -/

namespace StereoCamera.AdminServer
open StdString

def complete (raw : Bytes) : Bool :=
  match scanHeaders raw with
  | .ok (some (pos, len)) => len.toNat ≤ raw.length - pos - 4
  | _ => false

/-- The bytes up to the end of the first delivery that completes the request, or all. -/
def received : List Bytes → Bytes → Bytes
  | [], raw => raw
  | chunk :: chunks, raw =>
    if chunk = [] then raw
    else if complete (raw ++ chunk) then raw ++ chunk
    else received chunks (raw ++ chunk)

def ended : List Bytes → Bytes → Bool
  | [], _ => false
  | chunk :: chunks, raw =>
    if chunk = [] then true
    else if complete (raw ++ chunk) then true
    else ended chunks (raw ++ chunk)

def LengthReadable (raw : Bytes) : Prop :=
  ∀ pos text, headerEnd raw = some pos →
    contentLengthText (raw.take pos) = .ok (some text) → Number text

theorem headerEnd_le {raw : Bytes} {pos : ℕ} (h : headerEnd raw = some pos) :
    pos + 4 ≤ raw.length := find_le h

theorem headerEnd_append {raw : Bytes} {pos : ℕ} (h : headerEnd raw = some pos) (more : Bytes) :
    headerEnd (raw ++ more) = some pos := find_append h

theorem scanHeaders_of_headerEnd {raw : Bytes} {pos : ℕ} (h : headerEnd raw = some pos) :
    scanHeaders raw = (contentLength (raw.take pos)).map fun len => some (pos, len) := by
  have hsub : substr raw 0 (some pos) = .ok (raw.take pos) := rfl
  unfold scanHeaders
  simp only [h, hsub, ok_bind]
  cases contentLength (raw.take pos) with
  | error e => rfl
  | ok len => rfl

theorem scanHeaders_append {raw : Bytes} (h : (headerEnd raw).isSome) (more : Bytes) :
    scanHeaders (raw ++ more) = scanHeaders raw := by
  -- Once the headers are there, what follows does not change them.
  obtain ⟨pos, hpos⟩ := Option.isSome_iff_exists.mp h
  have hle := headerEnd_le hpos
  rw [scanHeaders_of_headerEnd hpos, scanHeaders_of_headerEnd (headerEnd_append hpos more),
    List.take_append_of_le_length (by omega)]

theorem headerEnd_of_scanHeaders {raw : Bytes} (h : scanHeaders raw ≠ .ok none) :
    (headerEnd raw).isSome := by
  rcases hpos : headerEnd raw with _ | pos
  · refine absurd ?_ h
    unfold scanHeaders
    rw [hpos]
  · rfl

theorem scan_eq {r : Reading} (hr : scanHeaders r.raw = .ok r.headers) (chunk : Bytes) :
    r.scan (r.raw ++ chunk) = scanHeaders (r.raw ++ chunk) := by
  -- Either way, the loop has the headers of all that has come so far.
  unfold Reading.scan
  split_ifs with hsome
  · rw [scanHeaders_append (headerEnd_of_scanHeaders ?_), hr]
    rw [hr]
    intro hnone
    rw [Except.ok.inj hnone] at hsome
    cases hsome
  · rfl

theorem exists_received (reads : List Bytes) (raw : Bytes) :
    ∃ more, received reads raw = raw ++ more := by
  induction reads generalizing raw with
  | nil => exact ⟨[], (List.append_nil raw).symm⟩
  | cons chunk chunks ih =>
    unfold received
    split_ifs
    · exact ⟨[], (List.append_nil raw).symm⟩
    · exact ⟨chunk, rfl⟩
    · obtain ⟨more, hmore⟩ := ih (raw ++ chunk)
      exact ⟨chunk ++ more, by rw [hmore, List.append_assoc]⟩

theorem received_append_nil (reads : List Bytes) (raw : Bytes) :
    received (reads ++ [[]]) raw = received reads raw := by
  induction reads generalizing raw with
  | nil => rfl
  | cons chunk chunks ih => rw [List.cons_append, received, received, ih]

theorem ended_append_nil (reads : List Bytes) (raw : Bytes) : ended (reads ++ [[]]) raw = true := by
  induction reads generalizing raw with
  | nil => rfl
  | cons chunk chunks ih => rw [List.cons_append, ended, ih, ite_self, ite_self]

theorem ended_eq_complete {reads : List Bytes} (hne : [] ∉ reads) {raw : Bytes}
    (hraw : complete raw = false) : ended reads raw = complete (received reads raw) := by
  induction reads generalizing raw with
  | nil => exact hraw.symm
  | cons chunk chunks ih =>
    obtain ⟨hchunk, hchunks⟩ := not_or.mp (mt List.mem_cons.mpr hne)
    rw [ended, received, if_neg (Ne.symm hchunk), if_neg (Ne.symm hchunk)]
    cases hcomplete : complete (raw ++ chunk) with
    | true => exact hcomplete.symm
    | false => exact ih hchunks hcomplete

theorem readLoop_eq (reads : List Bytes) {r : Reading} (hr : scanHeaders r.raw = .ok r.headers) :
    readLoop reads r = (scanHeaders (received reads r.raw)).map fun headers =>
      if ended reads r.raw then some ⟨received reads r.raw, headers⟩ else none := by
  induction reads generalizing r with
  | nil =>
    show Except.ok none = (scanHeaders r.raw).map _
    rw [hr]
    rfl
  | cons chunk chunks ih =>
    unfold readLoop received ended
    by_cases hchunk : chunk = []
    · rw [if_pos hchunk, if_pos hchunk, if_pos hchunk, hr]
      rfl
    · rw [if_neg hchunk, if_neg hchunk, if_neg hchunk]
      dsimp only
      rw [scan_eq hr]
      rcases hscan : scanHeaders (r.raw ++ chunk) with e | _ | ⟨pos, len⟩
      · -- What throws here throws for all that is received.
        have hcomplete : complete (r.raw ++ chunk) = false := by
          unfold complete
          rw [hscan]
        obtain ⟨more, hmore⟩ := exists_received chunks (r.raw ++ chunk)
        simp only [hcomplete, Bool.false_eq_true, if_false]
        rw [hmore, scanHeaders_append
          (headerEnd_of_scanHeaders (by rw [hscan]; exact nofun)), hscan]
        rfl
      · -- The headers have not ended: the loop reads on.
        have hcomplete : complete (r.raw ++ chunk) = false := by
          unfold complete
          rw [hscan]
        simp only [hcomplete, Bool.false_eq_true, if_false]
        exact ih (r := ⟨r.raw ++ chunk, none⟩) hscan
      · -- The headers have ended: the loop stops once the announced length has come.
        have hcomplete : complete (r.raw ++ chunk) =
            decide (len.toNat ≤ (r.raw ++ chunk).length - pos - 4) := by
          unfold complete
          rw [hscan]
        rw [hcomplete]
        show (if len.toNat ≤ (r.raw ++ chunk).length - pos - 4 then
          (pure (some ⟨r.raw ++ chunk, some (pos, len)⟩) :
            Except StdException (Option Reading)) else _) = _
        by_cases hlen : len.toNat ≤ (r.raw ++ chunk).length - pos - 4
        · rw [if_pos hlen, if_pos (decide_eq_true hlen), if_pos (decide_eq_true hlen), hscan]
          rfl
        · have hlen' : ¬decide (len.toNat ≤ (r.raw ++ chunk).length - pos - 4) = true := by
            rw [decide_eq_true_eq]
            exact hlen
          rw [if_neg hlen, if_neg hlen', if_neg hlen']
          exact ih (r := ⟨r.raw ++ chunk, some (pos, len)⟩) hscan

theorem receive_eq (reads : List Bytes) {r : Reading} (hr : scanHeaders r.raw = .ok r.headers) :
    receive reads r =
      (scanHeaders (received reads r.raw)).map fun headers => ⟨received reads r.raw, headers⟩ := by
  unfold receive
  rw [readLoop_eq _ hr, received_append_nil, ended_append_nil]
  cases scanHeaders (received reads r.raw) <;> rfl

theorem contentLengthText_ok (headerBlock : Bytes) :
    ∃ o, contentLengthText headerBlock = .ok o := by
  unfold contentLengthText
  split
  · exact ⟨none, rfl⟩
  · rename_i clPos hfind
    have hle : clPos + 15 ≤ headerBlock.length := by
      rcases h : find (bytes "Content-Length:") headerBlock with _ | i
      · rw [h] at hfind
        exact (find_le hfind : clPos + (bytes "content-length:").length ≤ _)
      · rw [h] at hfind
        cases hfind
        exact (find_le h : clPos + (bytes "Content-Length:").length ≤ _)
    obtain ⟨t, ht⟩ := substr_of_le hle
      ((findFrom (bytes "\r\n") headerBlock clPos).map (· - clPos - 15))
    rw [ht]
    exact ⟨some t, rfl⟩

theorem contentLength_ok_iff {headerBlock : Bytes} :
    (∃ len, contentLength headerBlock = .ok len) ↔
      ∀ text, contentLengthText headerBlock = .ok (some text) → Number text := by
  obtain ⟨o, ho⟩ := contentLengthText_ok headerBlock
  unfold contentLength
  rw [ho]
  cases o with
  | none =>
    refine iff_of_true ⟨0, rfl⟩ ?_
    intro text htext
    cases htext
  | some text =>
    show (∃ len, stoul text = .ok len) ↔ _
    rw [stoul_ok_iff]
    constructor
    · rintro h _ ⟨⟩
      exact h
    · exact fun h => h text rfl

theorem scanHeaders_ok_iff {raw : Bytes} :
    (∃ headers, scanHeaders raw = .ok headers) ↔ LengthReadable raw := by
  unfold LengthReadable
  rcases hpos : headerEnd raw with _ | pos
  · refine iff_of_true ⟨none, ?_⟩ ?_
    · unfold scanHeaders
      rw [hpos]
    · intro pos text h
      cases h
  · rw [scanHeaders_of_headerEnd hpos]
    constructor
    · rintro ⟨headers, h⟩ _ text ⟨⟩
      refine contentLength_ok_iff.mp ?_ text
      cases hlen : contentLength (raw.take pos) with
      | error e =>
        rw [hlen] at h
        cases h
      | ok len => exact ⟨len, rfl⟩
    · intro h
      obtain ⟨len, hlen⟩ := contentLength_ok_iff.mpr fun text => h pos text rfl
      exact ⟨some (pos, len), by rw [hlen]; rfl⟩

theorem requestLine_ok (header : Bytes) : ∃ line, requestLine header = .ok line := by
  unfold requestLine
  rcases hfirst : findFrom (bytes " ") header 0 with _ | first
  · exact ⟨_, rfl⟩
  · have hle : first + 1 ≤ header.length := (findFrom_le hfirst (by decide)).2
    obtain ⟨method, hmethod⟩ := substr_of_le (Nat.zero_le header.length) (some first)
    rcases hsecond : findFrom (bytes " ") header (first + 1) with _ | second
    · simp only [hmethod, ok_bind, hsecond]
      exact ⟨_, rfl⟩
    · obtain ⟨path, hpath⟩ := substr_of_le hle (some (second - first - 1))
      simp only [hmethod, ok_bind, hsecond, hpath]
      exact ⟨_, rfl⟩

theorem splitRequest_ok (raw : Bytes) : ∃ path body, splitRequest raw = .ok (path, body) := by
  unfold splitRequest
  rcases hpos : headerEnd raw with _ | pos
  · exact ⟨_, _, rfl⟩
  · obtain ⟨⟨method, path⟩, hline⟩ := requestLine_ok (raw.take pos)
    obtain ⟨body, hbody⟩ := substr_of_le (headerEnd_le hpos) none
    have hheader : substr raw 0 (some pos) = .ok (raw.take pos) := rfl
    refine ⟨path, body, ?_⟩
    simp only [hheader, hbody, hline, ok_bind]
    rfl

end StereoCamera.AdminServer
