import ModBuild.Artifact.Download

/-!
# What a download gives

A download gives the octets of the body in their order, up to its end or to the piece at which
it breaks off (`Holds`).  A request takes as many of them as it asks for, whatever the pieces are
that they come in (`read_cases`, `readAll_cases`).  If there are fewer, it gives all of them at
the end of the body, and fails where the body does.  This holds as long as no piece is empty,
since an empty piece is taken for the end.
-/

namespace ModBuild

/-- The octets of a piece. -/
def Http.Piece.bytes : Piece → List UInt8
  | .octets bs => bs
  | .broken _ => []
  | .foreign _ => []

/-- The octets of a body. -/
def Http.bytes (body : List Piece) : List UInt8 :=
  body.flatMap Piece.bytes

namespace Download

/-- The octets that are still to come. -/
def rest (d : Download) : List UInt8 :=
  d.buffer ++ Http.bytes d.body

/-- No piece still to come is empty. -/
def Gapless (d : Download) : Prop :=
  .octets [] ∉ d.body

/-- Nothing is still to come, and no failure either. -/
def AtEnd (d : Download) : Prop :=
  d.body = [] ∧ d.buffer = []

theorem AtEnd.rest_eq {d : Download} (h : d.AtEnd) : d.rest = [] := by
  rw [rest, h.1, h.2]
  rfl

theorem foldl_length {f : Nat → Http.Piece → Nat}
    (hf : ∀ n piece, f n piece = n + piece.bytes.length) (body : List Http.Piece) (n : Nat) :
    body.foldl f n = n + (Http.bytes body).length := by
  induction body generalizing n with
  | nil => rfl
  | cons piece pieces ih => simp [ih, hf, Http.bytes, Nat.add_assoc]

theorem length_rest (d : Download) : d.rest.length = d.buffer.length + d.size := by
  have hsize : d.size = 0 + (Http.bytes d.body).length :=
    foldl_length (fun n piece => by cases piece <;> rfl) d.body 0
  rw [rest, List.length_append, hsize, Nat.zero_add]

/-- Some octets were taken from a download, and no failure was passed over. -/
structure Gave (d d' : Download) (bs : List UInt8) : Prop where
  octets : bs ++ d'.rest = d.rest
  gapless : d'.Gapless
  kept : ∀ piece ∈ d.body, (∃ bs, piece = .octets bs) ∨ piece ∈ d'.body

/-- How a body ends: it has no more pieces, or there is a piece at which reading fails. -/
inductive EndsWith (url : String) : List Http.Piece → Option Failure → Prop
  | done : EndsWith url [] none
  | broken (message : String) (later : List Http.Piece) :
      EndsWith url (.broken message :: later) (some (.downloadInterrupted url message))
  | foreign (message : String) (later : List Http.Piece) :
      EndsWith url (.foreign message :: later) (some (.foreign message))

/-- A download gives some octets before its body comes to an end. -/
structure Holds (d : Download) (octets : List UInt8) (tail : List Http.Piece)
    (fault : Option Failure) : Prop where
  /-- The octets come from the buffer and from pieces that are not empty. -/
  pieces : ∃ chunks : List (List UInt8), [] ∉ chunks ∧ d.body = chunks.map .octets ++ tail ∧
    octets = d.buffer ++ chunks.flatten
  ending : EndsWith d.url tail fault

variable {d d' : Download} {octets bs rest : List UInt8} {tail : List Http.Piece}
variable {fault : Option Failure}

/-- A body is cut where it ends for a reader. -/
theorem exists_endsWith (url : String) (body : List Http.Piece) (h : .octets [] ∉ body) :
    ∃ (chunks : List (List UInt8)) (tail : List Http.Piece) (fault : Option Failure),
      [] ∉ chunks ∧ body = chunks.map .octets ++ tail ∧ EndsWith url tail fault := by
  induction body with
  | nil => exact ⟨[], [], none, List.not_mem_nil, rfl, .done⟩
  | cons piece pieces ih =>
    cases piece with
    | octets bs =>
      obtain ⟨hbs, hpieces⟩ := not_or.1 (mt List.mem_cons.2 h)
      obtain ⟨chunks, tail, fault, hchunks, rfl, hend⟩ := ih hpieces
      have hne : [] ≠ bs := fun he => hbs (congrArg Http.Piece.octets he)
      exact ⟨bs :: chunks, tail, fault, mt List.mem_cons.1 (not_or.2 ⟨hne, hchunks⟩), rfl, hend⟩
    | broken message => exact ⟨[], _, _, List.not_mem_nil, rfl, .broken message pieces⟩
    | foreign message => exact ⟨[], _, _, List.not_mem_nil, rfl, .foreign message pieces⟩

namespace Holds

theorem body_eq (h : d.Holds [] tail fault) : d.body = tail := by
  obtain ⟨chunks, hchunks, hbody, hoctets⟩ := h.pieces
  cases chunks with
  | nil => simpa using hbody
  | cons c cs =>
    have hflatten : c ++ cs.flatten = [] := (List.append_eq_nil_iff.1 hoctets.symm).2
    have hc : c = [] := (List.append_eq_nil_iff.1 hflatten).1
    exact absurd (hc ▸ List.mem_cons_self) hchunks

theorem buffer_eq (h : d.Holds [] tail fault) : d.buffer = [] := by
  obtain ⟨chunks, -, -, hoctets⟩ := h.pieces
  exact (List.append_eq_nil_iff.1 hoctets.symm).1

/-- Octets may wait in the buffer. -/
theorem buffered (h : d.Holds octets tail fault) (hbuffer : d.buffer = []) (bs : List UInt8) :
    Holds { d with buffer := bs } (bs ++ octets) tail fault := by
  obtain ⟨chunks, hchunks, hbody, hoctets⟩ := h.pieces
  refine ⟨⟨chunks, hchunks, hbody, ?_⟩, h.ending⟩
  rw [hoctets, hbuffer]
  rfl

/-- What is asked for may be taken from the buffer. -/
theorem dropped (h : d.Holds octets tail fault) {n : Nat} (hn : n ≤ d.buffer.length) :
    Holds { d with buffer := d.buffer.drop n } (octets.drop n) tail fault := by
  obtain ⟨chunks, hchunks, hbody, hoctets⟩ := h.pieces
  refine ⟨⟨chunks, hchunks, hbody, ?_⟩, h.ending⟩
  rw [hoctets, List.drop_append_of_le_length hn]

/-- Without the buffer, the octets of the pieces are left. -/
theorem emptied (h : d.Holds octets tail fault) :
    ∃ more, Holds { d with buffer := [] } more tail fault ∧ octets = d.buffer ++ more := by
  obtain ⟨chunks, hchunks, hbody, hoctets⟩ := h.pieces
  exact ⟨chunks.flatten, ⟨⟨chunks, hchunks, hbody, rfl⟩, h.ending⟩, hoctets⟩

theorem rest_eq (h : d.Holds octets tail fault) : d.rest = octets ++ Http.bytes tail := by
  obtain ⟨chunks, -, hbody, hoctets⟩ := h.pieces
  have hbytes : Http.bytes (chunks.map .octets) = chunks.flatten := by
    rw [Http.bytes, List.flatMap_map, List.flatten_eq_flatMap]
    rfl
  rw [Download.rest, hbody, Http.bytes, List.flatMap_append, ← Http.bytes, hbytes, hoctets,
    List.append_assoc]
  rfl

theorem length_le_size (h : d.Holds octets tail fault) (hbuffer : d.buffer = []) :
    octets.length ≤ d.size := by
  have hsize := d.length_rest
  rw [h.rest_eq, hbuffer, List.length_append, List.length_nil] at hsize
  omega

theorem gapless (h : d.Holds octets tail fault) (htail : .octets [] ∉ tail) : d.Gapless := by
  obtain ⟨chunks, hchunks, hbody, -⟩ := h.pieces
  simpa [Gapless, hbody, htail] using hchunks

/-- Octets that the one download gives before the other were taken from it. -/
theorem gave (h : d.Holds octets tail fault) (h' : d'.Holds rest tail fault)
    (hsplit : octets = bs ++ rest) (htail : .octets [] ∉ tail) : Gave d d' bs where
  octets := by rw [h.rest_eq, h'.rest_eq, hsplit, List.append_assoc]
  gapless := h'.gapless htail
  kept piece hpiece := by
    obtain ⟨chunks, -, hbody, -⟩ := h.pieces
    obtain ⟨chunks', -, hbody', -⟩ := h'.pieces
    rw [hbody] at hpiece
    rw [hbody']
    rcases List.mem_append.1 hpiece with hpiece | hpiece
    · obtain ⟨bs, -, rfl⟩ := List.mem_map.1 hpiece
      exact Or.inl ⟨bs, rfl⟩
    · exact Or.inr (List.mem_append_right _ hpiece)

end Holds

theorem Gapless.exists_holds (hd : d.Gapless) :
    ∃ octets tail fault, d.Holds octets tail fault ∧ .octets [] ∉ tail := by
  obtain ⟨chunks, tail, fault, hchunks, hbody, hend⟩ := exists_endsWith d.url d.body hd
  refine ⟨_, tail, fault, ⟨⟨chunks, hchunks, hbody, rfl⟩, hend⟩, fun hmem => hd ?_⟩
  rw [hbody]
  exact List.mem_append_right _ hmem

/-! ## Fetching -/

/-- A fetch gives octets as long as there are any. -/
theorem fetch_some {limit : Nat} (h : d.Holds octets tail fault) (hbuffer : d.buffer = [])
    (hlimit : 0 < limit) (hne : octets ≠ []) :
    ∃ bs rest d', d.fetch limit = .ok (bs, d') ∧ octets = bs ++ rest ∧ bs ≠ [] ∧
      bs.length ≤ limit ∧ d'.buffer = [] ∧ d'.Holds rest tail fault := by
  obtain ⟨⟨chunks, hchunks, hbody, hoctets⟩, hending⟩ := h
  obtain ⟨url, body, buffer⟩ := d
  subst hbuffer hbody hoctets
  cases chunks with
  | nil => exact absurd rfl hne
  | cons c cs =>
    obtain ⟨hc, hcs⟩ := not_or.1 (mt List.mem_cons.2 hchunks)
    by_cases hle : c.length ≤ limit
    · exact ⟨c, cs.flatten, _, if_pos hle, rfl, Ne.symm hc, hle, rfl, ⟨cs, hcs, rfl, rfl⟩, hending⟩
    · have hdrop : c.drop limit ≠ [] := fun he => hle (List.drop_eq_nil_iff.1 he)
      refine ⟨c.take limit, c.drop limit ++ cs.flatten, _, if_neg hle, ?_, ?_,
        List.length_take_le _ _, rfl, ⟨c.drop limit :: cs, ?_, rfl, rfl⟩, hending⟩
      · simp [← List.append_assoc]
      · simp [Nat.ne_of_gt hlimit, Ne.symm hc]
      · exact mt List.mem_cons.1 (not_or.2 ⟨hdrop.symm, hcs⟩)

/-- A fetch behind the last octet gives none, or fails if the body does. -/
theorem fetch_none (h : d.Holds [] tail fault) (limit : Nat) :
    d.fetch limit = match fault with
      | none => .ok ([], d)
      | some f => .error f := by
  have hbody := h.body_eq
  have hending := h.ending
  rw [fetch, hbody]
  cases hending <;> rfl

/-! ## Requests -/

/-- What comes of a part of a request that is made of the octets of a download.  It takes some
of those that are missing, and then it may go on.  Or the octets are fewer than those that are
missing, and the body ends or fails. -/
inductive Requested (octets : List UInt8) (tail : List Http.Piece) (fault : Option Failure)
    (p : Progress) (Next : Progress → Download → Prop) :
    Except Failure (Progress × Download) → Prop
  | took {bs rest : List UInt8} {p' : Progress} {d' : Download} (split : octets = bs ++ rest)
      (given : p'.octets = p.octets ++ bs) (missing : p'.missing + bs.length = p.missing)
      (going : p'.ended = false) (holds : d'.Holds rest tail fault) (next : Next p' d') :
      Requested octets tail fault p Next (.ok (p', d'))
  | ended {p' : Progress} {d' : Download} (short : octets.length < p.missing)
      (unbroken : fault = none) (given : p'.octets = p.octets ++ octets) (ended : p'.ended = true)
      (holds : d'.Holds [] tail fault) : Requested octets tail fault p Next (.ok (p', d'))
  | failed {f : Failure} (short : octets.length < p.missing) (broken : fault = some f) :
      Requested octets tail fault p Next (.error f)

namespace Requested

variable {p : Progress} {Next : Progress → Download → Prop}
variable {result : Except Failure (Progress × Download)}

/-- A request that has nothing to do. -/
theorem nothing (h : d.Holds octets tail fault) (hgoing : p.ended = false) (hnext : Next p d) :
    Requested octets tail fault p Next (.ok (p, d)) :=
  .took (List.nil_append octets).symm (List.append_nil _).symm (Nat.add_zero _) hgoing h hnext

/-- A request that goes on where octets were taken. -/
theorem after {p' : Progress} (hsplit : octets = bs ++ rest) (hgiven : p'.octets = p.octets ++ bs)
    (hmissing : p'.missing + bs.length = p.missing)
    (h : Requested rest tail fault p' Next result) : Requested octets tail fault p Next result := by
  have hlength : octets.length = bs.length + rest.length := by rw [hsplit, List.length_append]
  cases h with
  | @took bs' rest' p'' d' hsplit' hgiven' hmissing' hgoing hholds hnext =>
    have hsplit'' : octets = (bs ++ bs') ++ rest' := by rw [hsplit, hsplit', List.append_assoc]
    refine .took hsplit'' ?_ ?_ hgoing hholds hnext
    · rw [hgiven', hgiven, List.append_assoc]
    · rw [List.length_append]
      omega
  | ended hshort hunbroken hgiven' hover hholds =>
    refine .ended (by omega) hunbroken ?_ hover hholds
    rw [hgiven', hgiven, hsplit, List.append_assoc]
  | failed hshort hbroken => exact .failed (by omega) hbroken

/-- A request goes on with what a fetch gives, or ends if that is nothing. -/
theorem of_fetch {limit : Nat}
    {next : List UInt8 × Download → Except Failure (Progress × Download)}
    (h : d.Holds octets tail fault) (hbuffer : d.buffer = []) (hlimit : 0 < limit)
    (hmissing : 0 < p.missing) (hnothing : ∀ d', next ([], d') = .ok ({ p with ended := true }, d'))
    (hnext : ∀ bs rest d', octets = bs ++ rest → bs ≠ [] → bs.length ≤ limit → d'.buffer = [] →
      d'.Holds rest tail fault → Requested octets tail fault p Next (next (bs, d'))) :
    Requested octets tail fault p Next (d.fetch limit >>= next) := by
  by_cases hne : octets = []
  · subst hne
    rw [fetch_none h]
    cases fault with
    | none =>
      change Requested _ _ _ _ _ (next ([], d))
      rw [hnothing]
      exact .ended hmissing rfl (List.append_nil _).symm rfl h
    | some f => exact .failed hmissing rfl
  · obtain ⟨bs, rest, d', hfetch, hsplit, hbs, hlength, hbuffer', hholds⟩ :=
      fetch_some h hbuffer hlimit hne
    rw [hfetch]
    exact hnext bs rest d' hsplit hbs hlength hbuffer' hholds

end Requested

/-- Whole blocks are fetched until less than a block is missing. -/
theorem fetchBlocks_requested {p : Progress} {fuel : Nat} (h : d.Holds octets tail fault)
    (hbuffer : d.buffer = []) (hended : p.ended = false) (hfuel : p.missing ≤ fuel) :
    Requested octets tail fault p (fun p' d' => d'.buffer = [] ∧ p'.missing < blockSize)
      (d.fetchBlocks p fuel) := by
  have hblock : 0 < blockSize := by decide
  induction fuel generalizing d octets p with
  | zero => exact .nothing h hended ⟨hbuffer, by omega⟩
  | succ fuel ih =>
    rw [fetchBlocks]
    dsimp only
    split
    · next hlimit =>
      have hmissing : p.missing < blockSize := by
        rcases Nat.mul_eq_zero.1 hlimit with hdiv | hzero
        · exact (Nat.div_eq_zero_iff_lt hblock).1 hdiv
        · omega
      exact .nothing h hended ⟨hbuffer, hmissing⟩
    · next hlimit =>
      have hle : p.missing / blockSize * blockSize ≤ p.missing := Nat.div_mul_le_self _ _
      refine .of_fetch h hbuffer (Nat.pos_of_ne_zero hlimit) (by omega) (fun _ => rfl)
        fun bs rest d' hsplit hbs hlength hbuffer' hholds => ?_
      have hpos : 0 < bs.length := List.length_pos_iff.2 hbs
      dsimp only
      rw [if_neg hbs]
      have hmissing : p.missing - bs.length + bs.length = p.missing := by omega
      exact .after hsplit rfl hmissing (ih hholds hbuffer' rfl (by dsimp only; omega))

/-- The buffer is filled until nothing is missing.  As long as something is missing, nothing is
left in the buffer and there is room for more than what is missing. -/
theorem fill_requested {p : Progress} {room fuel : Nat} (h : d.Holds octets tail fault)
    (hbuffer : 0 < p.missing → d.buffer = [] ∧ p.missing < room) (hended : p.ended = false)
    (hfuel : p.missing ≤ fuel) :
    Requested octets tail fault p (fun p' _ => p'.missing = 0) (d.fill room p fuel) := by
  induction fuel generalizing d octets p room with
  | zero => exact .nothing h hended (Nat.le_zero.1 hfuel)
  | succ fuel ih =>
    rw [fill]
    split
    · next hmissing => exact .nothing h hended hmissing
    · next hmissing =>
      obtain ⟨hnil, hroom⟩ := hbuffer (Nat.pos_of_ne_zero hmissing)
      refine .of_fetch h hnil (by omega) (by omega) (fun _ => rfl)
        fun bs rest d' hsplit hbs hlength hbuffer' hholds => ?_
      have hpos : 0 < bs.length := List.length_pos_iff.2 hbs
      -- What is not missing any more waits in the buffer.
      have hwaits := hholds.buffered hbuffer' (bs.drop p.missing)
      have hmissing' : p.missing - bs.length + (bs.take p.missing).length = p.missing := by
        rw [List.length_take]
        omega
      have hsplit' : octets = bs.take p.missing ++ (bs.drop p.missing ++ rest) := by
        rw [hsplit, ← List.append_assoc, List.take_append_drop]
      dsimp only
      rw [if_neg hbs]
      refine .after hsplit' rfl hmissing' (ih hwaits (fun hmore => ?_) rfl ?_)
      · dsimp only at hmore ⊢
        exact ⟨List.drop_eq_nil_iff.2 (by omega), by omega⟩
      · dsimp only
        omega

/-- A request that the buffer cannot answer takes what is in it and asks for the rest. -/
theorem read_requested (h : d.Holds octets tail fault) {count : Nat}
    (hcount : ¬ count ≤ d.buffer.length) :
    ∃ result, d.read count = result.map (fun r => (r.1.octets, r.2)) ∧
      Requested octets tail fault ⟨[], count, false⟩ (fun p' _ => p'.missing = 0) result := by
  obtain ⟨more, hmore, hsplit⟩ := h.emptied
  have hmissing : count - d.buffer.length + d.buffer.length = count := by omega
  rw [read, if_neg hcount]
  dsimp only
  let start : Progress := ⟨d.buffer, count - d.buffer.length, false⟩
  have hblocks := fetchBlocks_requested hmore rfl (rfl : start.ended = false) (Nat.sub_le count _)
  generalize fetchBlocks _ _ _ = result at hblocks ⊢
  cases hblocks with
  | @took bs' rest' p' d' hsplit' hgiven hmissing' hgoing hholds hnext =>
    have hfuel : p'.missing ≤ count :=
      Nat.le_trans (Nat.le_of_add_right_le (Nat.le_of_eq hmissing')) (Nat.sub_le count _)
    have hfill := fill_requested hholds (fun _ => hnext) hgoing hfuel
    refine ⟨_, ?_, .after hsplit rfl hmissing (.after hsplit' hgiven hmissing' hfill)⟩
    change (if p'.ended = true then _ else fill _ _ _ _ >>= _) = _
    rw [hgoing]
    generalize fill _ _ _ _ = filled
    cases filled <;> rfl
  | @ended p' d' hshort hunbroken hgiven hover hholds =>
    refine ⟨.ok (p', d'), ?_,
      .after hsplit rfl hmissing (.ended hshort hunbroken hgiven hover hholds)⟩
    change (if p'.ended = true then _ else _) = _
    rw [if_pos hover]
    rfl
  | failed hshort hbroken =>
    exact ⟨.error _, rfl, .after hsplit rfl hmissing (.failed hshort hbroken)⟩

/-- What comes of a request for a number of octets.  There are as many.  Or there are fewer, and
then it gives all of them if the body ends, and fails if the body does. -/
theorem Holds.read_cases (h : d.Holds octets tail fault) (count : Nat) :
    (∃ bs rest d', d.read count = .ok (bs, d') ∧ octets = bs ++ rest ∧ bs.length = count ∧
        d'.Holds rest tail fault) ∨
      octets.length < count ∧
        ((fault = none ∧ ∃ d', d.read count = .ok (octets, d') ∧ d'.Holds [] tail fault) ∨
          ∃ f, fault = some f ∧ d.read count = .error f) := by
  by_cases hcount : count ≤ d.buffer.length
  · obtain ⟨more, -, hsplit⟩ := h.emptied
    have hread : d.read count =
        .ok (d.buffer.take count, { d with buffer := d.buffer.drop count }) := if_pos hcount
    refine Or.inl ⟨_, _, _, hread, ?_, List.length_take_of_le hcount, h.dropped hcount⟩
    rw [hsplit, List.drop_append_of_le_length hcount, ← List.append_assoc, List.take_append_drop]
  · obtain ⟨result, hread, hresult⟩ := read_requested h hcount
    rw [hread]
    cases hresult with
    | @took bs rest p' d' hsplit hgiven hmissing hgoing hholds hnext =>
      dsimp only at hmissing
      refine Or.inl ⟨bs, rest, d', ?_, hsplit, by omega, hholds⟩
      rw [Except.map, hgiven, List.nil_append]
    | @ended p' d' hshort hunbroken hgiven hover hholds =>
      refine Or.inr ⟨hshort, Or.inl ⟨hunbroken, d', ?_, hholds⟩⟩
      rw [Except.map, hgiven, List.nil_append]
    | failed hshort hbroken => exact Or.inr ⟨hshort, Or.inr ⟨_, hbroken, rfl⟩⟩

/-- A request gives as many octets as were asked for, or all that are still to come. -/
theorem read_ok (hd : d.Gapless) {count : Nat} (h : d.read count = .ok (bs, d')) :
    Gave d d' bs ∧ bs.length ≤ count ∧ (bs.length < count → d'.AtEnd) := by
  obtain ⟨octets, tail, fault, hholds, htail⟩ := hd.exists_holds
  rcases hholds.read_cases count with ⟨bs', rest, d₁, hread, hsplit, hlength, hholds'⟩ |
    ⟨hshort, ⟨rfl, d₁, hread, hholds'⟩ | ⟨f, -, hread⟩⟩
  · cases hread.symm.trans h
    exact ⟨hholds.gave hholds' hsplit htail, by omega, fun hlt => by omega⟩
  · cases hread.symm.trans h
    refine ⟨hholds.gave hholds' (List.append_nil _).symm htail, by omega, fun _ => ⟨?_, ?_⟩⟩
    · rw [hholds'.body_eq]
      cases hholds'.ending
      rfl
    · exact hholds'.buffer_eq
  · rw [hread] at h
    cases h

/-! ## Reading to the end -/

theorem fetchAll_eq {before : List UInt8} {fuel : Nat} (h : d.Holds octets tail fault)
    (hbuffer : d.buffer = []) (hfuel : octets.length < fuel) :
    (fault = none ∧ ∃ d', d.fetchAll before fuel = .ok (before ++ octets, d') ∧
        d'.Holds [] tail fault) ∨
      ∃ f, fault = some f ∧ d.fetchAll before fuel = .error f := by
  induction fuel generalizing d octets before with
  | zero => omega
  | succ fuel ih =>
    rw [fetchAll]
    by_cases hne : octets = []
    · subst hne
      rw [fetch_none h]
      cases fault with
      | none => exact Or.inl ⟨rfl, d, by rw [List.append_nil]; rfl, h⟩
      | some f => exact Or.inr ⟨f, rfl, rfl⟩
    · obtain ⟨bs, rest, d', hfetch, hsplit, hbs, -, hbuffer', hholds⟩ :=
        fetch_some h hbuffer (by decide : 0 < blockSize) hne
      have hpos : 0 < bs.length := List.length_pos_iff.2 hbs
      rw [hsplit, List.length_append] at hfuel
      rw [hfetch, hsplit, ← List.append_assoc]
      change (_ ∧ ∃ d'', (if bs = [] then _ else _) = _ ∧ _) ∨
        ∃ f, _ ∧ (if bs = [] then _ else _) = _
      simp only [if_neg hbs]
      exact ih hholds hbuffer' (by omega)

/-- What comes of a request for everything.  It gives all octets if the body ends, and fails if
the body does. -/
theorem Holds.readAll_cases (h : d.Holds octets tail fault) :
    (fault = none ∧ ∃ d', d.readAll = .ok (octets, d') ∧ d'.Holds [] tail fault) ∨
      ∃ f, fault = some f ∧ d.readAll = .error f := by
  obtain ⟨more, hmore, hsplit⟩ := h.emptied
  have hsize : more.length ≤ size { d with buffer := [] } := hmore.length_le_size rfl
  have hfuel : more.length < d.size + 1 := Nat.lt_succ_of_le hsize
  rw [hsplit]
  exact fetchAll_eq hmore rfl hfuel

end Download

end ModBuild
