import StereoCamera.Api.RequestReading
import StereoCamera.Common.HttpRequest

/-! Requests with a body, in whatever pieces they come. The length is looked for in two
spellings anywhere in the head, and all that has come by then is taken for the body. -/

namespace StereoCamera.AdminServer
open StdString Http

/-- The path and the body that a connection hands on, if it gets that far. -/
def request (reads : List Bytes) : Except StdException (Option (Bytes × Bytes)) := do
  match ← readLoop reads ⟨[], none⟩ with
  | none => return none
  | some r =>
    if r.raw = [] then return none
    else return some (← splitRequest r.raw)

/-- What the calls of `SSL_read` deliver of a stream that comes in these pieces, and that may
end behind them; or the other end waits for its reply. -/
def calls (chunks : List Bytes) (ends : Bool) : List Bytes :=
  if ends then chunks ++ [[]] else chunks

/-- A request that says how long its body is, unless there is none. -/
structure WellFormed (head : Head) (body : Bytes) : Prop where
  wellFormed : head.WellFormed
  absent : (∀ f ∈ head.fields, ¬f.Named "content-length") → body = []
  present : ∀ f ∈ head.fields, f.Named "content-length" →
    f.value ≠ [] ∧ (∀ b ∈ f.value, isDigit b) ∧ decimal f.value = body.length
  once : (head.fields.filter fun f => f.Named "content-length").length ≤ 1

instance (head : Head) (body : Bytes) : Decidable (WellFormed head body) :=
  decidable_of_iff (head.WellFormed ∧
      ((∀ f ∈ head.fields, ¬f.Named "content-length") → body = []) ∧
      (∀ f ∈ head.fields, f.Named "content-length" →
        f.value ≠ [] ∧ f.value.all isDigit ∧ decimal f.value = body.length) ∧
      (head.fields.filter fun f => f.Named "content-length").length ≤ 1) (by
    simp only [List.all_eq_true]
    exact ⟨fun h => ⟨h.1, h.2.1, h.2.2.1, h.2.2.2⟩,
      fun h => ⟨h.wellFormed, h.absent, h.present, h.once⟩⟩)

/-- The text behind the first `Content-Length:` in any line, or else behind the first
`content-length:`. -/
def announcedText (head : Head) : Option Bytes :=
  (behindFirst (bytes "Content-Length:") head.lines).or
    (behindFirst (bytes "content-length:") head.lines)

def announced (head : Head) : Except StdException UInt64 :=
  match announcedText head with
  | none => .ok 0
  | some text => stoul text

/-- The announced length is a number. A delivery ends with the body, no earlier one gets as far
as is announced, and this one does, or the stream ends with it. -/
def EndsInTime (head : Head) (body more : Bytes) (chunks : List Bytes) (ends : Bool) : Prop :=
  ∃ len, announced head = .ok len ∧ ∃ taken, taken <+: chunks ∧
    taken.flatten = head.render ++ body ∧
    (∀ early, early <+: taken → early ≠ taken →
      early.flatten.length < head.render.length + len.toNat) ∧
    (len.toNat ≤ body.length ∨ more = [] ∧ ends = true)

section
variable {head : Head} {body more : Bytes}

theorem headerEnd_render (hhead : head.WellFormed) (rest : Bytes) :
    headerEnd (head.render ++ rest) = some head.block.length := hhead.find_end rest

theorem substr_line {pat block : Bytes} (hcr : 0x0D ∉ pat) {i : ℕ} (h : find pat block = some i) :
    substr block (i + pat.length)
        ((findFrom (bytes "\r\n") block i).map (· - i - pat.length)) =
      .ok (upToCrlf (block.drop (i + pat.length))) := by
  have hdrop : block.drop i = pat ++ block.drop (i + pat.length) := by
    rw [← List.drop_drop]
    exact (List.prefix_iff_eq_append.mp (isPrefix_of_find h)).symm
  have hcount : (findFrom (bytes "\r\n") block i).map (· - i - pat.length) =
      find crlf (block.drop (i + pat.length)) := by
    have hfind : find crlf (block.drop i) =
        (find crlf (block.drop (i + pat.length))).map (· + pat.length) := by
      rw [hdrop]
      exact find_append_of_not_mem hcr
    unfold findFrom
    refine (congrArg (Option.map _ <| Option.map _ ·) hfind).trans ?_
    rw [Option.map_map, Option.map_map]
    refine (congrArg (Option.map · _) (funext fun k => ?_)).trans Option.map_id'
    show k + pat.length + i - i - pat.length = k
    omega
  unfold substr upToCrlf
  rewrite [if_neg (Nat.not_lt.mpr (find_le h)), hcount]
  cases find crlf (block.drop (i + pat.length)) <;> rfl

theorem contentLengthText_block (hhead : head.WellFormed) :
    contentLengthText head.block = .ok (announcedText head) := by
  have hbehind : ∀ pat : Bytes, pat ≠ [] → 0x0D ∉ pat → 0x0A ∉ pat →
      (find pat head.block).map (fun i => upToCrlf (head.block.drop (i + pat.length))) =
        behindFirst pat head.lines :=
    fun pat hne hcr hlf => find_joinLines hne hcr hlf hhead.lines_cr
  have hupper := hbehind (bytes "Content-Length:") (by decide) (by decide) (by decide)
  have hlower := hbehind (bytes "content-length:") (by decide) (by decide) (by decide)
  unfold contentLengthText announcedText
  rw [← hupper, ← hlower]
  cases hfind : find (bytes "Content-Length:") head.block with
  | some i => exact congrArg (Except.map some) (substr_line (by decide) hfind)
  | none =>
    cases hfind' : find (bytes "content-length:") head.block with
    | some i => exact congrArg (Except.map some) (substr_line (by decide) hfind')
    | none => rfl

theorem requestLine_block (hhead : head.WellFormed) :
    requestLine head.block = .ok (head.method, head.target) := by
  have hspace : ∀ rest : Bytes, find (bytes " ") (0x20 :: rest) = some 0 :=
    fun rest => find_of_isPrefixOf (List.isPrefixOf_iff_prefix.mpr ⟨rest, rfl⟩)
  have hmethod : (0x20 : UInt8) ∉ head.method := fun h => absurd (hhead.method _ h) (by decide)
  have htarget : (0x20 : UInt8) ∉ head.target := fun h => absurd (hhead.target _ h) (by decide)
  obtain ⟨rest, hblock⟩ : ∃ rest, head.block =
      head.method ++ 0x20 :: (head.target ++ 0x20 :: rest) := by
    refine ⟨bytes "HTTP/1.1" ++ (head.fields.map Field.line).flatMap (crlf ++ ·), ?_⟩
    simp only [Head.block, joinLines, Head.requestLine, List.append_assoc, List.cons_append]
  have hfirst : findFrom (bytes " ") head.block 0 = some head.method.length := by
    unfold findFrom
    rw [List.drop_zero, hblock]
    refine (congrArg _ ((find_append_of_not_mem hmethod).trans (congrArg _ (hspace _)))).trans ?_
    exact congrArg some (Nat.zero_add _)
  have hrest : head.block.drop (head.method.length + 1) = head.target ++ 0x20 :: rest := by
    rw [hblock, List.drop_length_add_append]
    rfl
  have hsecond : findFrom (bytes " ") head.block (head.method.length + 1) =
      some (head.target.length + (head.method.length + 1)) := by
    unfold findFrom
    rw [hrest]
    refine (congrArg _ ((find_append_of_not_mem htarget).trans (congrArg _ (hspace _)))).trans ?_
    exact congrArg some (congrArg (· + _) (Nat.zero_add _))
  have hpath : substr head.block (head.method.length + 1)
      (some (head.target.length + (head.method.length + 1) - head.method.length - 1)) =
        .ok head.target := by
    have hle : head.method.length + 1 ≤ head.block.length := by
      have := findFrom_le hsecond (by decide)
      omega
    have hcount : head.target.length + (head.method.length + 1) - head.method.length - 1 =
        head.target.length := by omega
    unfold substr
    rw [if_neg (Nat.not_lt.mpr hle), hrest, hcount]
    exact congrArg Except.ok List.take_left
  have hname : substr head.block 0 (some head.method.length) = .ok head.method := by
    refine congrArg Except.ok ?_
    rw [List.drop_zero, hblock]
    exact List.take_left
  unfold requestLine
  simp only [hfirst, hname, ok_bind, hsecond, hpath]
  rfl

theorem splitRequest_render (hhead : head.WellFormed) (rest : Bytes) :
    splitRequest (head.render ++ rest) = .ok (head.target, rest) := by
  have hpos := headerEnd_render hhead rest
  have hblock : substr (head.render ++ rest) 0 (some head.block.length) = .ok head.block :=
    congrArg Except.ok (head.take_render rest)
  have hbody : substr (head.render ++ rest) (head.block.length + 4) none = .ok rest := by
    have hle := headerEnd_le hpos
    rw [substr, if_neg (Nat.not_lt.mpr hle)]
    exact congrArg Except.ok (head.drop_render rest)
  unfold splitRequest
  simp only [hpos, hblock, hbody, requestLine_block hhead, ok_bind]
  rfl

theorem scanHeaders_render (hhead : head.WellFormed) (rest : Bytes) :
    scanHeaders (head.render ++ rest) =
      (announced head).map fun len => some (head.block.length, len) := by
  have hlen : contentLength head.block = announced head := by
    unfold contentLength announced
    rw [contentLengthText_block hhead, ok_bind]
    cases announcedText head <;> rfl
  rw [scanHeaders_of_headerEnd (headerEnd_render hhead rest), head.take_render, hlen]

theorem complete_iff (hhead : head.WellFormed) {raw rest : Bytes}
    (hraw : raw <+: head.render ++ rest) :
    complete raw = true ↔
      ∃ len, announced head = .ok len ∧ head.render.length + len.toNat ≤ raw.length := by
  have hlength := head.length_render
  rcases Nat.lt_or_ge raw.length head.render.length with hlt | hge
  · -- Without the end of the head there is nothing to stop for.
    have hnone : headerEnd raw = none := by
      rcases hpos : headerEnd raw with _ | pos
      · rfl
      · obtain ⟨tail, htail⟩ := hraw
        have hend := headerEnd_render hhead rest
        rw [← htail, headerEnd_append hpos tail] at hend
        cases hend
        have := headerEnd_le hpos
        omega
    refine iff_of_false ?_ ?_
    · unfold complete scanHeaders
      rw [hnone]
      exact Bool.false_ne_true
    · rintro ⟨len, -, hle⟩
      omega
  · -- The head is there, and what the loop makes of it does not depend on what follows.
    obtain ⟨tail, rfl⟩ := List.prefix_of_prefix_length_le (List.prefix_append _ _) hraw hge
    unfold complete
    rw [scanHeaders_render hhead]
    cases announced head with
    | error e => exact iff_of_false Bool.false_ne_true (by rintro ⟨len, ⟨⟩, -⟩)
    | ok len =>
      show decide _ = true ↔ _
      rw [decide_eq_true_iff, List.length_append]
      constructor
      · exact fun h => ⟨len, rfl, by omega⟩
      · rintro ⟨_, ⟨⟩, h⟩
        omega

end

section
variable {taken rest : List Bytes}

theorem received_append (hne : [] ∉ taken) {raw : Bytes}
    (hearly : ∀ early, early <+: taken → early ≠ taken → early ≠ [] →
      complete (raw ++ early.flatten) = false)
    (hend : taken ≠ [] ∧ complete (raw ++ taken.flatten) = true ∨ rest = []) :
    received (taken ++ rest) raw = raw ++ taken.flatten := by
  induction taken generalizing raw with
  | nil =>
    obtain rfl : rest = [] := hend.resolve_left fun h => h.1 rfl
    exact (List.append_nil raw).symm
  | cons chunk taken ih =>
    obtain ⟨hchunk, htaken⟩ := not_or.mp (mt List.mem_cons.mpr hne)
    rw [List.cons_append, received, if_neg (Ne.symm hchunk), List.flatten_cons,
      ← List.append_assoc]
    rw [List.flatten_cons, ← List.append_assoc] at hend
    by_cases hcomplete : complete (raw ++ chunk) = true
    · -- The loop stops here, so this is the last delivery that is taken.
      rcases eq_or_ne taken [] with rfl | hmore
      · rw [if_pos hcomplete, List.flatten_nil, List.append_nil]
      · have hfalse := hearly [chunk] (List.prefix_append [chunk] taken)
          (fun h => hmore (List.cons.inj h).2.symm) (List.cons_ne_nil _ _)
        rw [List.flatten_singleton, hcomplete] at hfalse
        cases hfalse
    · rw [if_neg hcomplete]
      refine ih htaken ?_ ?_
      · intro early hpre hproper _
        have h := hearly (chunk :: early) (List.cons_prefix_cons.mpr ⟨rfl, hpre⟩)
          (fun h => hproper (List.cons.inj h).2) (List.cons_ne_nil _ _)
        rwa [List.flatten_cons, ← List.append_assoc] at h
      · refine hend.imp_left fun h => ⟨?_, h.2⟩
        rintro rfl
        rw [List.flatten_nil, List.append_nil] at h
        exact hcomplete h.2

theorem exists_received_append {chunks : List Bytes} (hne : [] ∉ chunks) (raw : Bytes) :
    ∃ taken rest, chunks = taken ++ rest ∧ received chunks raw = raw ++ taken.flatten ∧
      (∀ early, early <+: taken → early ≠ taken → early ≠ [] →
        complete (raw ++ early.flatten) = false) ∧
      (complete (raw ++ taken.flatten) = true ∨ rest = []) := by
  induction chunks generalizing raw with
  | nil =>
    refine ⟨[], [], rfl, (List.append_nil raw).symm, ?_, .inr rfl⟩
    intro early hpre hproper
    exact absurd (List.prefix_nil.mp hpre) hproper
  | cons chunk chunks ih =>
    obtain ⟨hchunk, hchunks⟩ := not_or.mp (mt List.mem_cons.mpr hne)
    rw [received, if_neg (Ne.symm hchunk)]
    by_cases hcomplete : complete (raw ++ chunk) = true
    · refine ⟨[chunk], chunks, rfl, ?_, ?_, ?_⟩
      · rw [if_pos hcomplete, List.flatten_singleton]
      · intro early hpre hproper hnil
        rcases List.prefix_cons_iff.mp hpre with h | ⟨early, rfl, h⟩
        · exact absurd h hnil
        · rw [List.prefix_nil.mp h] at hproper
          exact absurd rfl hproper
      · rw [List.flatten_singleton]
        exact .inl hcomplete
    · obtain ⟨taken, rest, rfl, hreceived, hearly, hend⟩ := ih hchunks (raw ++ chunk)
      refine ⟨chunk :: taken, rest, rfl, ?_, ?_, ?_⟩
      · rw [if_neg hcomplete, hreceived, List.flatten_cons, List.append_assoc]
      · intro early hpre hproper hnil
        rcases List.prefix_cons_iff.mp hpre with h | ⟨early, rfl, hpre'⟩
        · exact absurd h hnil
        · rw [List.flatten_cons, ← List.append_assoc]
          rcases eq_or_ne early [] with rfl | hmore
          · rw [List.flatten_nil, List.append_nil]
            exact Bool.eq_false_iff.mpr hcomplete
          · exact hearly early hpre' (fun h => hproper (congrArg _ h)) hmore
      · rw [List.flatten_cons, ← List.append_assoc]
        exact hend

end

section
variable {head : Head} {body more : Bytes} {chunks : List Bytes}

theorem received_calls (chunks : List Bytes) (ends : Bool) :
    received (calls chunks ends) [] = received chunks [] := by
  cases ends with
  | true => exact received_append_nil chunks []
  | false => rfl

theorem ended_calls (hne : [] ∉ chunks) (ends : Bool) :
    ended (calls chunks ends) [] = (ends || complete (received chunks [])) := by
  cases ends with
  | true => exact ended_append_nil chunks []
  | false => exact ended_eq_complete hne rfl

theorem request_calls (hhead : head.WellFormed) (hne : [] ∉ chunks) (ends : Bool) {rest : Bytes}
    (h : received chunks [] = head.render ++ rest) :
    request (calls chunks ends) = (announced head).map fun _ =>
      if ends || complete (head.render ++ rest) then some (head.target, rest) else none := by
  have hempty : scanHeaders [] = .ok none := rfl
  have hloop := readLoop_eq (calls chunks ends) (r := ⟨[], none⟩) hempty
  dsimp only at hloop
  rw [received_calls, ended_calls hne, h] at hloop
  have hraw : head.render ++ rest ≠ [] := by
    intro hnil
    have hlength := congrArg List.length hnil
    rw [List.length_append, head.length_render, List.length_nil] at hlength
    omega
  unfold request
  rw [hloop, scanHeaders_render hhead]
  cases announced head with
  | error e => rfl
  | ok len =>
    dsimp only [Except.map]
    rw [ok_bind]
    split_ifs
    · dsimp only
      rw [if_neg hraw, splitRequest_render hhead]
      rfl
    · rfl

theorem endsInTime_of_request {ends : Bool} (hhead : head.WellFormed) (hne : [] ∉ chunks)
    (hchunks : chunks.flatten = head.render ++ (body ++ more))
    (hrequest : request (calls chunks ends) = .ok (some (head.target, body))) :
    EndsInTime head body more chunks ends := by
  obtain ⟨taken, rest, hsplit, hreceived, hearly, hend⟩ := exists_received_append hne []
  rw [List.nil_append] at hreceived hend
  have hwhole : rest = [] → taken.flatten = head.render ++ (body ++ more) := by
    rintro rfl
    rw [← hchunks, hsplit, List.append_nil]
  have hfirst : taken <+: chunks := ⟨rest, hsplit.symm⟩
  have htaken := hchunks ▸ hfirst.flatten
  -- Both ways for the loop to end need the head.
  have hge : head.render.length ≤ taken.flatten.length := by
    rcases hend with hcomplete | hrest
    · obtain ⟨len, -, hle⟩ := (complete_iff hhead htaken).mp hcomplete
      omega
    · rw [hwhole hrest, List.length_append]
      exact Nat.le_add_right _ _
  obtain ⟨tail, htail⟩ := List.prefix_of_prefix_length_le (List.prefix_append _ _) htaken hge
  rw [request_calls hhead hne ends (hreceived.trans htail.symm)] at hrequest
  rcases hlen : announced head with e | len
  · rw [hlen] at hrequest
    cases hrequest
  rw [hlen] at hrequest
  have hsome := Except.ok.inj hrequest
  dsimp only at hsome
  split_ifs at hsome with hreturns
  obtain ⟨-, rfl⟩ := Prod.mk.inj (Option.some.inj hsome)
  refine ⟨len, hlen, taken, hfirst, htail.symm, ?_, ?_⟩
  · intro early hpre hproper
    rcases eq_or_ne early [] with rfl | hnil
    · have := head.length_render
      show 0 < _
      omega
    · by_contra hle
      have hfalse := hearly early hpre hproper hnil
      have hreach := hchunks ▸ (hpre.trans hfirst).flatten
      rw [List.nil_append, (complete_iff hhead hreach).mpr ⟨len, hlen, Nat.le_of_not_lt hle⟩]
        at hfalse
      cases hfalse
  · rw [htail] at hreturns
    by_cases hcomplete : complete taken.flatten = true
    · obtain ⟨_, hlen', hle⟩ := (complete_iff hhead htaken).mp hcomplete
      cases hlen.symm.trans hlen'
      rw [← htail, List.length_append] at hle
      exact .inl (by omega)
    · have hrest := hend.resolve_left hcomplete
      rw [Bool.not_eq_true] at hcomplete
      rw [hcomplete, Bool.or_false] at hreturns
      have h := htail.trans (hwhole hrest)
      rw [List.append_cancel_left_eq, List.self_eq_append_right] at h
      exact .inr ⟨h, hreturns⟩

theorem received_of_complete {taken rest : List Bytes} {len : UInt64} (hhead : head.WellFormed)
    (hne : [] ∉ taken) (hlen : announced head = .ok len)
    (htaken : taken.flatten = head.render ++ body)
    (hearly : ∀ early, early <+: taken → early ≠ taken →
      early.flatten.length < head.render.length + len.toNat)
    (hend : len.toNat ≤ body.length ∨ rest = []) :
    received (taken ++ rest) [] = head.render ++ body := by
  -- The loop stops behind the deliveries that complete the request, whatever comes then.
  rw [← htaken]
  refine received_append hne ?_ ?_
  · intro early hpre hproper _
    rw [List.nil_append, Bool.eq_false_iff]
    intro hcomplete
    obtain ⟨_, hlen', hle⟩ := (complete_iff hhead (htaken ▸ hpre.flatten)).mp hcomplete
    cases hlen.symm.trans hlen'
    exact absurd (hearly early hpre hproper) (Nat.not_lt.mpr hle)
  · refine hend.imp_left fun hle => ⟨?_, ?_⟩
    · rintro rfl
      have hlength := congrArg List.length htaken
      rw [List.length_append, head.length_render, List.flatten_nil, List.length_nil] at hlength
      omega
    · rw [List.nil_append, htaken, complete_iff hhead (List.prefix_refl _), List.length_append]
      exact ⟨len, hlen, by omega⟩

theorem request_of_endsInTime {ends : Bool} (hhead : head.WellFormed) (hne : [] ∉ chunks)
    (hchunks : chunks.flatten = head.render ++ (body ++ more))
    (h : EndsInTime head body more chunks ends) :
    request (calls chunks ends) = .ok (some (head.target, body)) := by
  obtain ⟨len, hlen, taken, ⟨rest, rfl⟩, htaken, hearly, hend⟩ := h
  have hrest : more = [] → rest = [] := by
    rintro rfl
    rw [List.flatten_append, htaken, List.append_nil, List.append_right_eq_self] at hchunks
    refine List.eq_nil_iff_forall_not_mem.mpr fun chunk hchunk => ?_
    rw [List.flatten_eq_nil_iff.mp hchunks chunk hchunk] at hchunk
    exact hne (List.mem_append_right _ hchunk)
  have hreceived := received_of_complete hhead (fun h => hne (List.mem_append_left _ h)) hlen
    htaken hearly (hend.imp_right fun h => hrest h.1)
  have hreturns : (ends || complete (head.render ++ body)) = true := by
    rw [Bool.or_eq_true]
    refine hend.symm.imp And.right fun hle => ?_
    rw [complete_iff hhead (List.prefix_refl _), List.length_append]
    exact ⟨len, hlen, by omega⟩
  rw [request_calls hhead hne ends hreceived, hlen]
  show Except.ok (if _ then _ else _) = _
  rw [if_pos hreturns]

end

/-- The target and the body of a request are handed on exactly where a delivery ends with the
body and what the loop takes for the announced length makes it stop there. -/
theorem request_eq_iff {head : Head} {body more : Bytes} {chunks : List Bytes}
    (hreq : WellFormed head body) (hne : [] ∉ chunks)
    (hchunks : chunks.flatten = head.render ++ body ++ more) (ends : Bool) :
    request (calls chunks ends) = .ok (some (head.target, body)) ↔
      EndsInTime head body more chunks ends := by
  rw [List.append_assoc] at hchunks
  exact ⟨endsInTime_of_request hreq.wellFormed hne hchunks,
    request_of_endsInTime hreq.wellFormed hne hchunks⟩

/-- A command whose length is announced under any spelling of the name. -/
def commandHead (name : String) : Head where
  method := bytes "POST"
  target := bytes "/CheckStatus"
  fields := [⟨bytes "Host", bytes " localhost"⟩, ⟨bytes name, bytes " 2"⟩]

theorem request_commandHead :
    request (calls [(commandHead "Content-Length").render, bytes "\x7b", bytes "\x7d"] false) =
      .ok (some (bytes "/CheckStatus", bytes "\x7b\x7d")) := by
  have hiff := @request_eq_iff (commandHead "Content-Length") (bytes "\x7b\x7d") []
    [(commandHead "Content-Length").render, bytes "\x7b", bytes "\x7d"] (by decide +kernel)
    (by decide) (by decide) false
  refine hiff.mpr ⟨2, by decide, _, List.prefix_refl _, by decide, ?_, .inl (by decide)⟩
  intro early hpre hproper
  rcases List.prefix_cons_iff.mp hpre with rfl | ⟨early, rfl, hpre₁⟩
  · decide
  rcases List.prefix_cons_iff.mp hpre₁ with rfl | ⟨early, rfl, hpre₂⟩
  · decide
  rcases List.prefix_cons_iff.mp hpre₂ with rfl | ⟨early, rfl, hpre₃⟩
  · decide
  · rw [List.prefix_nil.mp hpre₃] at hproper
    exact absurd rfl hproper

/-- In other letters the length is not seen, and the loop stops before the body. -/
theorem capitals_lose_body :
    WellFormed (commandHead "CONTENT-LENGTH") (bytes "\x7b\x7d") ∧
      request (calls [(commandHead "CONTENT-LENGTH").render, bytes "\x7b\x7d"] false) =
        .ok (some (bytes "/CheckStatus", [])) := ⟨by decide +kernel, by decide⟩

end StereoCamera.AdminServer
