import Blaize.Upload.Loop

/-!
The parts of an input.

Any bytes, cut into any chunks, have parts for the parser: a part begins behind a delimiter, its
header block goes up to the first blank line and its content up to the next marker.  A cut shows
near a delimiter only.  The two bytes behind it are not seen if they come with a later chunk than
its last byte, and in front of it one byte more is content if a chunk ends right before its last
byte.

* `HasPart`: the parts of an input, by offsets;
* `Stands`: where the parser stands, and which parts are ahead of it;
* `ahead_step`: **one turn of the loop leaves the parts that are ahead, or completes the first of
  them**;
* `collected_iff`: so **what holds of a result holds of the parts of the input**.
-/

namespace Blaize.Upload

open Js Search

/-! ### Parts -/

/-- Some chunks end at the offset. -/
def CutAt (chunks : List Bytes) (c : ℕ) : Prop :=
  ∃ front, front <+: chunks ∧ front.flatten.length = c

section

variable (marker : Bytes) (chunks : List Bytes)

/-- The two bytes stand behind the marker at `i`, and come with its last byte. -/
def Behind (pat : Bytes) (i : ℕ) : Prop :=
  pat <+: chunks.flatten.drop (i + marker.length) ∧ ¬ CutAt chunks (i + marker.length) ∧
    ¬ CutAt chunks (i + marker.length + 1)

/-- The header block behind the marker at `i` begins at `n`. -/
def HeadersFrom (i n : ℕ) : Prop :=
  (Behind marker chunks crlf i ∧ n = i + marker.length + 2) ∨
    (¬ Behind marker chunks crlf i ∧ n = i + marker.length)

/-- The content in front of the marker at `j` ends at `e`, before the line break. -/
def ContentTo (j e : ℕ) : Prop :=
  (CutAt chunks (j + marker.length - 1) ∧ e = j - 1) ∨
    (¬ CutAt chunks (j + marker.length - 1) ∧ e = j - 2)

/-- The part between the delimiters at `i` and at `j`. -/
structure PartAt (i j : ℕ) (headers content : Bytes) : Prop where
  opened : ¬ Behind marker chunks dashes i
  block : ∃ n h, HeadersFrom marker chunks i n ∧ FirstFrom blankLine chunks.flatten n h ∧
    headers = piece chunks.flatten n h ∧ FirstFrom marker chunks.flatten (h + 4) j ∧
    ∃ e, ContentTo marker chunks j e ∧ content = piece chunks.flatten (h + 4) e

/-- From the offset on, the input has a part with the header block and the content. -/
inductive HasPart : ℕ → Bytes → Bytes → Prop
  | here {p i j : ℕ} {headers content : Bytes} (hi : FirstFrom marker chunks.flatten p i)
      (hpart : PartAt marker chunks i j headers content) : HasPart p headers content
  | later {p i j : ℕ} {headers content headers' content' : Bytes}
      (hi : FirstFrom marker chunks.flatten p i)
      (hpart : PartAt marker chunks i j headers content) (h : HasPart j headers' content') :
      HasPart p headers' content'

end

/-! ### What is ahead -/

variable {marker : Bytes} {chunks : List Bytes}

/-- In content that began at `a`: the part, and those behind it. -/
def AheadOfContent (marker : Bytes) (chunks : List Bytes) (a : ℕ) (block : Bytes)
    (headers content : Bytes) : Prop :=
  ∃ j, FirstFrom marker chunks.flatten a j ∧
    ((headers = block ∧ ∃ e, ContentTo marker chunks j e ∧ content = piece chunks.flatten a e) ∨
      HasPart marker chunks j headers content)

/-- In front of a header block that begins at `n`. -/
def AheadOfHeaders (marker : Bytes) (chunks : List Bytes) (n : ℕ) (headers content : Bytes) :
    Prop :=
  ∃ h, FirstFrom blankLine chunks.flatten n h ∧
    AheadOfContent marker chunks (h + 4) (piece chunks.flatten n h) headers content

/-- Content has one end. -/
lemma exists_contentTo (marker : Bytes) (chunks : List Bytes) (j : ℕ) :
    ∃ e, ∀ e', ContentTo marker chunks j e' ↔ e' = e := by
  unfold ContentTo
  by_cases hcut : CutAt chunks (j + marker.length - 1)
  · exact ⟨j - 1, fun e' => by simp [hcut]⟩
  · exact ⟨j - 2, fun e' => by simp [hcut]⟩

lemma hasPart_iff {p : ℕ} {headers content : Bytes} :
    HasPart marker chunks p headers content ↔ ∃ i, FirstFrom marker chunks.flatten p i ∧
      ¬ Behind marker chunks dashes i ∧ ∃ n, HeadersFrom marker chunks i n ∧
        AheadOfHeaders marker chunks n headers content := by
  constructor
  · intro h
    cases h with
    | here hi hpart =>
        obtain ⟨hopen, n, h, hn, hh, hheaders, hj, hcontent⟩ := hpart
        exact ⟨_, hi, hopen, n, hn, h, hh, _, hj, .inl ⟨hheaders, hcontent⟩⟩
    | later hi hpart hrest =>
        obtain ⟨hopen, n, h, hn, hh, -, hj, -⟩ := hpart
        exact ⟨_, hi, hopen, n, hn, h, hh, _, hj, .inr hrest⟩
  · rintro ⟨i, hi, hopen, n, hn, h, hh, j, hj, ⟨hheaders, hcontent⟩ | hrest⟩
    · exact .here hi ⟨hopen, n, h, hn, hh, hheaders, hj, hcontent⟩
    · obtain ⟨e, he⟩ := exists_contentTo marker chunks j
      exact .later hi ⟨hopen, n, h, hn, hh, rfl, hj, e, (he e).mpr rfl, rfl⟩ hrest

/-- What is ahead at the first marker behind an offset. -/
lemma hasPart_of_firstFrom {p i : ℕ} (hi : FirstFrom marker chunks.flatten p i)
    {headers content : Bytes} :
    HasPart marker chunks p headers content ↔ ¬ Behind marker chunks dashes i ∧
      ∃ n, HeadersFrom marker chunks i n ∧ AheadOfHeaders marker chunks n headers content := by
  rw [hasPart_iff]
  constructor
  · rintro ⟨i', hi', h⟩
    exact hi.unique hi' ▸ h
  · exact fun h => ⟨i, hi, h⟩

lemma HeadersFrom.unique {i n m : ℕ} (h : HeadersFrom marker chunks i n)
    (h' : HeadersFrom marker chunks i m) : n = m := by
  rcases h with ⟨hb, rfl⟩ | ⟨hb, rfl⟩ <;> rcases h' with ⟨hb', rfl⟩ | ⟨hb', rfl⟩
  · rfl
  · exact absurd hb hb'
  · exact absurd hb' hb
  · rfl

/-- The part behind the first marker, and those behind it. -/
lemma hasPart_of_part {p i j : ℕ} {block text : Bytes} (hi : FirstFrom marker chunks.flatten p i)
    (hpart : PartAt marker chunks i j block text) {headers content : Bytes} :
    HasPart marker chunks p headers content ↔
      (headers = block ∧ content = text) ∨ HasPart marker chunks j headers content := by
  constructor
  · intro h
    obtain ⟨-, n, m, hn, hm, hblock, hj, e, he, htext⟩ := hpart
    obtain ⟨-, n', hn', m', hm', j', hj', h⟩ := (hasPart_of_firstFrom hi).mp h
    obtain rfl := hn.unique hn'
    obtain rfl := hm.unique hm'
    obtain rfl := hj.unique hj'
    refine h.imp ?_ id
    rintro ⟨rfl, e', he', rfl⟩
    obtain ⟨e'', hunique⟩ := exists_contentTo marker chunks j
    rw [htext, hblock, (hunique e).mp he, (hunique e').mp he']
    exact ⟨rfl, rfl⟩
  · rintro (⟨rfl, rfl⟩ | h)
    · exact .here hi hpart
    · exact .later hi hpart h

/-! ### Where the parser stands -/

namespace ParserState

variable {s s' t : ParserState} {q : ℕ}

/-- The buffer of an unfinished parser is the input from `p` to `q`. -/
structure Holds (chunks : List Bytes) (p q : ℕ) (s : ParserState) : Prop where
  unfinished : s.isFinished = false
  buffer_eq : s.buffer = piece chunks.flatten p q
  le : p ≤ q

/-- The parser stands in an input of which it has read `q` bytes, with parts ahead.  What it looks
for was not there when earlier chunks had arrived. -/
inductive Stands (marker : Bytes) (chunks : List Bytes) (q : ℕ) (s : ParserState) :
    (Bytes → Bytes → Prop) → Prop
  | boundary {p : ℕ} (hholds : s.Holds chunks p q) (hstage : s.stage = .boundary)
      (hnew : ∀ c, CutAt chunks c → c < q → ∀ i, FirstFrom marker chunks.flatten p i →
        c < i + marker.length) :
      Stands marker chunks q s (HasPart marker chunks p)
  | headers {n : ℕ} (hholds : s.Holds chunks n q) (hstage : s.stage = .headers)
      (hnew : ∀ c, CutAt chunks c → c < q → ∀ h, FirstFrom blankLine chunks.flatten n h →
        c < h + 4) :
      Stands marker chunks q s (AheadOfHeaders marker chunks n)
  | content {a p : ℕ} {block : Bytes} {d : Disposition} (hholds : s.Holds chunks p q)
      (hstage : s.stage = .content) (hle : a ≤ p)
      (hnone : ∀ k, a ≤ k → k < p → ¬ Occurs marker chunks.flatten k)
      (hnew : ∀ c, CutAt chunks c → c < q → ∀ j, FirstFrom marker chunks.flatten a j →
        c < j + marker.length)
      (hkept : ∀ c, CutAt chunks c → c < q → c ≤ p + marker.length)
      (hstart : p = a ∨ CutAt chunks (p + marker.length) ∧
        ∀ j, FirstFrom marker chunks.flatten a j → p < j)
      (hblock : parseContentDisposition (utf8Decode block) = some d)
      (hfield : s.currentField = some d.name) (hfilename : s.currentFilename = d.filename)
      (hcontent : s.currentFilename = none →
        s.currentBufferChunks.flatten = piece chunks.flatten a p) :
      Stands marker chunks q s (AheadOfContent marker chunks a block)
  | finished (hfinished : s.isFinished = true) : Stands marker chunks q s fun _ _ => False

/-- Behind a marker that was completed last, the two bytes are seen that have come with it. -/
lemma behind_iff {i : ℕ} {pat : Bytes} (hpat : pat.length = 2)
    (hq : CutAt chunks q) (hqle : q ≤ chunks.flatten.length)
    (hnew : ∀ c, CutAt chunks c → c < q → c < i + marker.length) (hi : i + marker.length ≤ q) :
    Behind marker chunks pat i ↔ pat <+: piece chunks.flatten (i + marker.length) q := by
  have hne : pat ≠ [] := fun hnil => by rw [hnil] at hpat; cases hpat
  have hpiece : Occurs pat (piece chunks.flatten (i + marker.length) q) 0 ↔ _ :=
    occurs_piece_iff hne hqle
  rw [Occurs, Occurs, List.drop_zero, Nat.add_zero, hpat] at hpiece
  rw [hpiece, Behind]
  refine and_congr_right fun _ => ⟨?_, fun hle => ⟨fun hcut => ?_, fun hcut => ?_⟩⟩
  · rintro ⟨hend, hnext⟩
    have hne : q ≠ i + marker.length := fun heq => hend (heq ▸ hq)
    have hne' : q ≠ i + marker.length + 1 := fun heq => hnext (heq ▸ hq)
    omega
  · have hlt := hnew _ hcut (by omega)
    omega
  · have hlt := hnew _ hcut (by omega)
    omega

/-! ### What was returned so far -/

/-- All files have one property, and the values of all fields another. -/
def Collected (P : UploadedFile → Prop) (Q : String → Prop) (s : ParserState) : Prop :=
  (∀ p ∈ s.files.entries, ∀ f ∈ p.2, P f) ∧ ∀ p ∈ s.fields.entries, ∀ value ∈ p.2, Q value

/-- What is returned for a part has the property: of its file name if it has one, else of its
text. -/
def ReturnsFor (R Q : String → Prop) (headers content : Bytes) : Prop :=
  ∀ d, parseContentDisposition (utf8Decode headers) = some d →
    match d.filename with
    | some filename => R filename
    | none => Q (utf8Decode content)

/-- What was returned so far has the properties, and so has what is ahead. -/
def Accounts (R Q : String → Prop) (s : ParserState) (ahead : Bytes → Bytes → Prop) : Prop :=
  Collected (fun f => R f.originalname) Q s ∧
    ∀ headers content, ahead headers content → ReturnsFor R Q headers content

variable {P : UploadedFile → Prop} {R Q : String → Prop}

lemma forall_addToCollection {τ : Type} {P : τ → Prop} (m : OrdMap String (List τ)) (k : String)
    (v : τ) :
    (∀ p ∈ (addToCollection m k v).entries, ∀ x ∈ p.2, P x) ↔
      (∀ p ∈ m.entries, ∀ x ∈ p.2, P x) ∧ P v := by
  have hentries (m : OrdMap String (List τ)) : (∀ p ∈ m.entries, ∀ x ∈ p.2, P x) ↔
      ∀ k xs, m.get k = some xs → ∀ x ∈ xs, P x :=
    ⟨fun h k xs hget => h (k, xs) ((OrdMap.mem_entries_iff _).mpr hget),
      fun h p hp => h p.1 p.2 ((OrdMap.mem_entries_iff _).mp hp)⟩
  rw [hentries, hentries]
  constructor
  · intro h
    have hnew := h k _ (OrdMap.get_set_self m k _)
    refine ⟨fun k' xs hget x hx => ?_, hnew v (by simp)⟩
    by_cases hk : k = k'
    · subst hk
      exact hnew x (by rw [hget]; simp [hx])
    · exact h k' xs (by rw [addToCollection, OrdMap.get_set_ne _ _ hk]; exact hget) x hx
  · rintro ⟨h, hv⟩ k' xs hget x hx
    rw [addToCollection, OrdMap.get_set] at hget
    split at hget
    next =>
      rw [← Option.some.inj hget, List.mem_append, List.mem_singleton] at hx
      rcases hx with hx | rfl
      · cases hold : m.get k with
        | none => simp [hold] at hx
        | some ys => exact h k ys hold x (by simpa [hold] using hx)
      · exact hv
    next => exact h k' xs hget x hx

/-- The end of a part with a name adds the part. -/
lemma collected_completePart_iff {field : String} (hfield : s.currentField = some field)
    (hne : field ≠ "") :
    Collected P Q s.completePart ↔ Collected P Q s ∧
      match s.currentFilename with
      | some filename => P (s.currentFile field filename)
      | none => Q (utf8Decode s.currentBufferChunks.flatten) := by
  unfold ParserState.completePart finalizeCurrentPart Collected
  rw [hfield]
  dsimp only
  rw [if_neg hne]
  cases s.currentFilename with
  | none =>
      dsimp only
      rw [forall_addToCollection, and_assoc]
      rfl
  | some filename =>
      dsimp only
      rw [forall_addToCollection, and_right_comm]
      rfl

/-! ### One turn -/

/-- Behind a marker. -/
lemma ahead_behindMarker {p k : ℕ} (hm : s.boundary = marker) (hq : CutAt chunks q)
    (hqle : q ≤ chunks.flatten.length) (hholds : s.Holds chunks p q)
    (hnew : ∀ c, CutAt chunks c → c < q → ∀ i, FirstFrom marker chunks.flatten p i →
      c < i + marker.length) (hk : indexOf s.boundary s.buffer = some k) :
    ∃ ahead, Stands marker chunks q (s.behindMarker (s.buffer.drop (k + s.boundary.length)))
        ahead ∧
      ∀ headers content, ahead headers content ↔ HasPart marker chunks p headers content := by
  have hmarker : marker ≠ [] := hm ▸ s.boundary_ne
  obtain ⟨hfin, hbuffer, -⟩ := hholds
  rw [hm, hbuffer, indexOf_piece_iff hmarker hqle] at hk
  obtain ⟨hi, hle⟩ := hk
  have hbehind {pat : Bytes} (hpat : pat.length = 2) :=
    behind_iff hpat hq hqle (fun c hc hlt => hnew c hc hlt _ hi) hle
  rw [hm, hbuffer, drop_piece, ← Nat.add_assoc]
  have hcut (c : ℕ) (hc : CutAt chunks c) (hlt : c < q) : c < p + k + marker.length :=
    hnew c hc hlt _ hi
  unfold behindMarker
  split
  next hdashes =>
    refine ⟨_, .finished rfl, fun headers content => (iff_false_intro ?_).symm⟩
    rw [hasPart_of_firstFrom hi, hbehind rfl]
    exact fun h => h.1 hdashes
  next hdashes =>
    have hahead {n : ℕ} (hn : HeadersFrom marker chunks (p + k) n) (headers content : Bytes) :
        AheadOfHeaders marker chunks n headers content ↔
          HasPart marker chunks p headers content := by
      rw [hasPart_of_firstFrom hi, hbehind rfl, and_iff_right hdashes]
      constructor
      · exact fun h => ⟨n, hn, h⟩
      · rintro ⟨m, hn', h⟩
        exact hn.unique hn' ▸ h
    split
    next hcrlf =>
      have hend : p + k + marker.length + 2 ≤ q := by
        have hlength := hcrlf.length_le
        rw [length_piece _ hqle] at hlength
        have htwo : crlf.length = 2 := rfl
        omega
      refine ⟨_, .headers (n := p + k + marker.length + 2) ⟨hfin, ?_, hend⟩ rfl ?_,
        hahead (.inl ⟨(hbehind rfl).mpr hcrlf, rfl⟩)⟩
      · exact drop_piece _ _ _ _
      · intro c hc hlt h hh
        have hlt' := hcut c hc hlt
        have hle' := hh.le
        omega
    next hcrlf =>
      refine ⟨_, .headers (n := p + k + marker.length) ⟨hfin, rfl, hle⟩ rfl ?_,
        hahead (.inr ⟨fun h => hcrlf ((hbehind rfl).mp h), rfl⟩)⟩
      intro c hc hlt h hh
      have hlt' := hcut c hc hlt
      have hle' := hh.le
      omega

/-- Behind a header block. -/
lemma ahead_beginPart {n k : ℕ} {d : Disposition} (hqle : q ≤ chunks.flatten.length)
    (hholds : s.Holds chunks n q)
    (hnew : ∀ c, CutAt chunks c → c < q → ∀ h, FirstFrom blankLine chunks.flatten n h →
      c < h + 4) (hk : indexOf blankLine s.buffer = some k)
    (hd : parseContentDisposition (utf8Decode (s.buffer.take k)) = some d)
    (hs : s.beginPart (utf8Decode (s.buffer.take k)) (s.buffer.drop (k + 4)) d = .ok s') :
    ∃ ahead, Stands marker chunks q s' ahead ∧
      ∀ headers content, ahead headers content ↔
        AheadOfHeaders marker chunks n headers content := by
  obtain ⟨hfin, hbuffer, -⟩ := hholds
  rw [hbuffer] at hk hd hs
  obtain ⟨hh, hle⟩ := (indexOf_piece_iff blankLine_ne hqle).mp hk
  have hle' : n + k + 4 ≤ q := hle
  rw [take_piece _ (by omega)] at hd hs
  rw [drop_piece, ← Nat.add_assoc] at hs
  rw [beginPart_ok hs]
  refine ⟨AheadOfContent marker chunks (n + k + 4) (piece chunks.flatten n (n + k)),
    .content (p := n + k + 4) ⟨hfin, rfl, hle'⟩ rfl le_rfl ?_ ?_ ?_ (.inl rfl) hd rfl rfl ?_,
    fun headers content => ⟨fun h => ⟨_, hh, h⟩, ?_⟩⟩
  · exact fun i hi hlt => absurd hlt (not_lt.mpr hi)
  · intro c hc hlt j hj
    have hlt' := hnew c hc hlt _ hh
    have hlej := hj.le
    omega
  · intro c hc hlt
    have hlt' := hnew c hc hlt _ hh
    omega
  · exact fun _ => (piece_eq_nil _ le_rfl).symm
  · rintro ⟨h, hh', hahead⟩
    exact hh.unique hh' ▸ hahead

lemma takeContent_flatten {chunk : Bytes} (h : s.takeContent chunk = .ok s')
    (hname : s.currentFilename = none) :
    s'.currentBufferChunks.flatten = s.currentBufferChunks.flatten ++ chunk := by
  rw [takeContent_eq] at h
  split at h
  next hnil => rw [← Except.ok.inj h, hnil, List.append_nil]
  split at h
  next => cases h
  next =>
    rw [← Except.ok.inj h, appendContent, if_neg (by simp [hname])]
    simp

/-- Content that is not at its end. -/
lemma ahead_takeContent {a p : ℕ} {block : Bytes} {d : Disposition} (hm : s.boundary = marker)
    (hq : CutAt chunks q) (hqle : q ≤ chunks.flatten.length) (hholds : s.Holds chunks p q)
    (hstage : s.stage = .content) (hle : a ≤ p)
    (hnone : ∀ k, a ≤ k → k < p → ¬ Occurs marker chunks.flatten k)
    (hnew : ∀ c, CutAt chunks c → c < q → ∀ j, FirstFrom marker chunks.flatten a j →
      c < j + marker.length)
    (hblock : parseContentDisposition (utf8Decode block) = some d)
    (hfield : s.currentField = some d.name) (hfilename : s.currentFilename = d.filename)
    (hcontent : s.currentFilename = none →
      s.currentBufferChunks.flatten = piece chunks.flatten a p)
    (hk : indexOf s.boundary s.buffer = none) (hlt : s.boundary.length < s.buffer.length)
    (hs : { s with buffer := s.buffer.drop (s.buffer.length - s.boundary.length) }.takeContent
      (s.buffer.take (s.buffer.length - s.boundary.length)) = .ok s') :
    Stands marker chunks q s' (AheadOfContent marker chunks a block) := by
  subst hm
  have hmarker := s.boundary_ne
  obtain ⟨hfin, hbuffer, hpq⟩ := hholds
  have htake := takeContent_flatten hs
  rw [hbuffer] at hk
  rw [hbuffer, length_piece _ hqle] at hlt hs htake
  have hkept : p + (q - p - s.boundary.length) = q - s.boundary.length := by omega
  rw [take_piece _ (by omega), drop_piece, hkept] at hs htake
  have hfirst {j : ℕ} (hj : FirstFrom s.boundary chunks.flatten a j) :
      q < j + s.boundary.length := by
    have hpj : p ≤ j := not_lt.mp fun hjp => hnone j hj.le hjp hj.occurs
    exact lt_of_indexOf_piece hmarker hqle hk (hj.of_le hle hpj)
  obtain ⟨n, cs, st, rfl⟩ := takeContent_frame hs
  refine .content (p := q - s.boundary.length) (d := d) ⟨hfin, rfl, Nat.sub_le _ _⟩ hstage
    (by omega) ?_ hnew ?_ (.inr ⟨?_, ?_⟩) hblock hfield hfilename ?_
  · intro i hi hiq hocc
    rcases Nat.lt_or_ge i p with hip | hpi
    · exact hnone i hi hip hocc
    · refine (indexOf_eq_none_iff hmarker).mp hk (i - p) ((occurs_piece_iff hmarker hqle).mpr ?_)
      rw [Nat.add_sub_cancel' hpi]
      exact ⟨hocc, by omega⟩
  · intro c _ hcq
    omega
  · rwa [Nat.sub_add_cancel (by omega)]
  · intro j hj
    have hjq := hfirst hj
    omega
  · intro hname
    exact (htake hname).trans (by
      dsimp only
      rw [hcontent hname, piece_append _ hle (by omega)])

/-- The content that is taken when a part is completed. -/
lemma piece_contentTo {a p j e : ℕ} (hmarker : marker ≠ []) (hle : a ≤ p) (hpj : p ≤ j)
    (hjq : j + marker.length ≤ q) (hj : FirstFrom marker chunks.flatten a j)
    (hkept : ∀ c, CutAt chunks c → c < q → c ≤ p + marker.length)
    (hstart : p = a ∨ CutAt chunks (p + marker.length) ∧
      ∀ j, FirstFrom marker chunks.flatten a j → p < j) (he : ContentTo marker chunks j e) :
    piece chunks.flatten a e =
      piece chunks.flatten a p ++ piece chunks.flatten p (p + (j - p - 2)) := by
  have hpos := List.length_pos_iff.mpr hmarker
  rcases he with ⟨hcut, rfl⟩ | ⟨hcut, rfl⟩
  · -- the marker was all but complete, so that at most its first byte was not kept back
    have hlast := hkept _ hcut (by omega)
    have hnil : piece chunks.flatten p (p + (j - p - 2)) = [] := piece_eq_nil _ (by omega)
    rw [hnil, List.append_nil]
    rcases hstart with rfl | ⟨-, hbefore⟩
    · rw [piece_eq_nil _ le_rfl, piece_eq_nil _ (by omega)]
    · have hlt := hbefore j hj
      obtain rfl : p = j - 1 := by omega
      rfl
  · rcases Nat.lt_or_ge (j - 2) p with hlt | hge
    · have hnil : piece chunks.flatten p (p + (j - p - 2)) = [] := piece_eq_nil _ (by omega)
      rw [hnil, List.append_nil]
      rcases hstart with rfl | ⟨hat, hbefore⟩
      · rw [piece_eq_nil _ le_rfl, piece_eq_nil _ (by omega)]
      · have hlt' := hbefore j hj
        refine absurd hat ?_
        rwa [show p + marker.length = j + marker.length - 1 by omega]
    · rw [show p + (j - p - 2) = j - 2 by omega, piece_append _ hle hge]

/-- A name is needed. -/
lemma returnsFor_iff {block content : Bytes} {d : Disposition}
    (hblock : parseContentDisposition (utf8Decode block) = some d) :
    ReturnsFor R Q block content ↔
      match d.filename with
      | some filename => R filename
      | none => Q (utf8Decode content) := by
  rw [ReturnsFor, hblock]
  exact ⟨fun h => h d rfl, fun h _ heq => Option.some.inj heq ▸ h⟩

/-- The first part ahead is the one whose content goes on, up to the next marker. -/
lemma forall_aheadOfContent_iff {P : Bytes → Bytes → Prop} {a j e : ℕ} {block : Bytes}
    (hj : FirstFrom marker chunks.flatten a j) (he : ∀ e', ContentTo marker chunks j e' ↔ e' = e) :
    (∀ headers content, AheadOfContent marker chunks a block headers content →
        P headers content) ↔
      P block (piece chunks.flatten a e) ∧
        ∀ headers content, HasPart marker chunks j headers content → P headers content := by
  constructor
  · intro h
    exact ⟨h _ _ ⟨j, hj, .inl ⟨rfl, e, (he e).mpr rfl, rfl⟩⟩,
      fun headers content hlater => h _ _ ⟨j, hj, .inr hlater⟩⟩
  · rintro ⟨hfirst, hlater⟩ headers content ⟨j', hj', h⟩
    obtain rfl := hj.unique hj'
    rcases h with ⟨rfl, e', he', rfl⟩ | h
    · rwa [(he e').mp he']
    · exact hlater _ _ h

/-- The end of a part. -/
lemma ahead_completePart {a p k : ℕ} {block : Bytes} {d : Disposition} (hm : s.boundary = marker)
    (hqle : q ≤ chunks.flatten.length) (hholds : s.Holds chunks p q) (hle : a ≤ p)
    (hnone : ∀ k, a ≤ k → k < p → ¬ Occurs marker chunks.flatten k)
    (hnew : ∀ c, CutAt chunks c → c < q → ∀ j, FirstFrom marker chunks.flatten a j →
      c < j + marker.length)
    (hkept : ∀ c, CutAt chunks c → c < q → c ≤ p + marker.length)
    (hstart : p = a ∨ CutAt chunks (p + marker.length) ∧
      ∀ j, FirstFrom marker chunks.flatten a j → p < j)
    (hblock : parseContentDisposition (utf8Decode block) = some d)
    (hfield : s.currentField = some d.name) (hfilename : s.currentFilename = d.filename)
    (hcontent : s.currentFilename = none →
      s.currentBufferChunks.flatten = piece chunks.flatten a p)
    (hk : indexOf s.boundary s.buffer = some k)
    (ht : { s with buffer := s.buffer.drop k }.takeContent (s.buffer.take (k - 2)) = .ok t) :
    ∃ ahead, Stands marker chunks q t.completePart ahead ∧
      (Accounts R Q t.completePart ahead ↔
        Accounts R Q s (AheadOfContent marker chunks a block)) := by
  subst hm
  have hmarker := s.boundary_ne
  obtain ⟨hfin, hbuffer, hpq⟩ := hholds
  rw [hbuffer] at hk
  obtain ⟨hfirst, hjq⟩ := (indexOf_piece_iff hmarker hqle).mp hk
  have hj : FirstFrom s.boundary chunks.flatten a (p + k) := hfirst.extend hle hnone
  have htake := takeContent_flatten ht
  rw [hbuffer, drop_piece, take_piece _ (by omega)] at ht
  rw [hbuffer, take_piece _ (by omega)] at htake
  refine ⟨HasPart s.boundary chunks (p + k), ?_, ?_⟩
  · obtain ⟨n, cs, st, rfl⟩ := takeContent_frame ht
    refine .boundary ⟨(completePart_frame _).2.2.trans hfin, ?_, by omega⟩ rfl ?_
    · rw [completePart_buffer]
    · intro c hc hcq i hi
      exact (firstFrom_of_occurs hj.occurs).unique hi ▸ hnew c hc hcq _ hj
  · -- the part that ends is the first one ahead
    obtain ⟨e, he⟩ := exists_contentTo s.boundary chunks (p + k)
    have hpiece : piece chunks.flatten a e =
        piece chunks.flatten a p ++ piece chunks.flatten p (p + (k - 2)) := by
      rw [piece_contentTo hmarker hle (Nat.le_add_right p k) hjq hj hkept hstart ((he e).mpr rfl),
        Nat.add_sub_cancel_left]
    obtain ⟨hfield', hname', hfiles, hfields⟩ : t.currentField = s.currentField ∧
        t.currentFilename = s.currentFilename ∧ t.files = s.files ∧ t.fields = s.fields := by
      obtain ⟨n, cs, st, rfl⟩ := takeContent_frame ht
      exact ⟨rfl, rfl, rfl, rfl⟩
    have hcollected : Collected (fun f => R f.originalname) Q t.completePart ↔
        Collected (fun f => R f.originalname) Q s ∧
          ReturnsFor R Q block (piece chunks.flatten a e) := by
      rw [collected_completePart_iff (hfield'.trans hfield) (name_ne_of_parse hblock),
        returnsFor_iff hblock, hpiece, hname', ← hfilename, Collected, hfiles, hfields]
      cases hname : s.currentFilename with
      | none =>
          rw [← hcontent hname, ← htake hname]
          exact Iff.rfl
      | some filename => exact Iff.rfl
    rw [Accounts, Accounts, hcollected, forall_aheadOfContent_iff hj he, and_assoc]

/-- **One turn of the loop leaves the parts that are ahead, or completes the first of them.** -/
theorem ahead_step {ahead : Bytes → Bytes → Prop} (hm : s.boundary = marker)
    (hq : CutAt chunks q) (hqle : q ≤ chunks.flatten.length)
    (h : Stands marker chunks q s ahead) (hfin : s.isFinished = false)
    (hs : s.processCurrentStage = .ok (some s')) :
    ∃ ahead', Stands marker chunks q s' ahead' ∧
      (Accounts R Q s' ahead' ↔ Accounts R Q s ahead) := by
  have hsame {ahead ahead' : Bytes → Bytes → Prop} (hfiles : s'.files = s.files)
      (hfields : s'.fields = s.fields)
      (hahead : ∀ headers content, ahead' headers content ↔ ahead headers content) :
      Accounts R Q s' ahead' ↔ Accounts R Q s ahead := by
    rw [Accounts, Accounts, Collected, Collected, hfiles, hfields]
    exact and_congr_right fun _ => forall₂_congr fun headers content => by rw [hahead]
  cases h with
  | finished hfinished =>
      rw [hfin] at hfinished
      cases hfinished
  | boundary hholds hstage hnew =>
      obtain ⟨-, k, hk, rfl⟩ | ⟨h, -⟩ | ⟨h, -⟩ | ⟨h, -⟩ := step_cases hs
      · obtain ⟨ahead', hstands, hahead⟩ := ahead_behindMarker hm hq hqle hholds hnew hk
        refine ⟨ahead', hstands, hsame ?_ ?_ hahead⟩
        · unfold behindMarker
          split <;> rfl
        · unfold behindMarker
          split <;> rfl
      all_goals simp [hstage] at h
  | headers hholds hstage hnew =>
      obtain ⟨h, -⟩ | ⟨-, k, d, hk, hd, ht⟩ | ⟨h, -⟩ | ⟨h, -⟩ := step_cases hs
      · simp [hstage] at h
      · obtain ⟨ahead', hstands, hahead⟩ := ahead_beginPart hqle hholds hnew hk hd ht
        refine ⟨ahead', hstands, hsame ?_ ?_ hahead⟩
        · rw [beginPart_ok ht]
        · rw [beginPart_ok ht]
      all_goals simp [hstage] at h
  | content hholds hstage hle hnone hnew hkept hstart hblock hfield hfilename hcontent =>
      obtain ⟨h, -⟩ | ⟨h, -⟩ | ⟨-, hk, hlt, ht⟩ | ⟨-, k, t, hk, ht, rfl⟩ := step_cases hs
      · simp [hstage] at h
      · simp [hstage] at h
      · refine ⟨_, ahead_takeContent hm hq hqle hholds hstage hle hnone hnew hblock hfield
          hfilename hcontent hk hlt ht, hsame ?_ ?_ fun _ _ => Iff.rfl⟩
        · obtain ⟨n, cs, st, rfl⟩ := takeContent_frame ht
          rfl
        · obtain ⟨n, cs, st, rfl⟩ := takeContent_frame ht
          rfl
      · exact ahead_completePart hm hqle hholds hle hnone hnew hkept hstart hblock hfield
          hfilename hcontent hk ht

/-! ### A whole input -/

/-- The loop leaves the parts that are ahead, but for those it completes. -/
lemma ahead_run {ahead : Bytes → Bytes → Prop} (hm : s.boundary = marker)
    (hq : CutAt chunks q) (hqle : q ≤ chunks.flatten.length)
    (h : Stands marker chunks q s ahead) (hs : s.run = .ok t) :
    t.boundary = marker ∧ ∃ ahead', Stands marker chunks q t ahead' ∧
      (Accounts R Q t ahead' ↔ Accounts R Q s ahead) := by
  refine run_invariant (I := fun t => t.boundary = marker ∧ ∃ ahead',
    Stands marker chunks q t ahead' ∧ (Accounts R Q t ahead' ↔ Accounts R Q s ahead)) ?_
    ⟨hm, ahead, h, Iff.rfl⟩ hs
  rintro t t' hfin ⟨hm, ahead', hstands, haccounts⟩ hstep
  obtain ⟨ahead'', hstands', haccounts'⟩ := ahead_step hm hq hqle hstands hfin hstep
  exact ⟨(step_frame hstep).1.trans hm, ahead'', hstands', haccounts'.trans haccounts⟩

lemma cutAt_flatten {front : List Bytes} (h : front <+: chunks) :
    CutAt chunks front.flatten.length :=
  ⟨front, h, rfl⟩

/-- No chunk ends inside another. -/
lemma le_or_le_of_cutAt {front : List Bytes} {chunk : Bytes} (h : front ++ [chunk] <+: chunks)
    {c : ℕ} (hc : CutAt chunks c) :
    c ≤ front.flatten.length ∨ front.flatten.length + chunk.length ≤ c := by
  obtain ⟨other, hother, rfl⟩ := hc
  have hlength : (front ++ [chunk]).flatten.length = front.flatten.length + chunk.length := by
    simp
  rcases List.prefix_or_prefix_of_prefix hother h with hle | hle
  · rcases List.prefix_concat_iff.mp hle with rfl | hle
    · exact .inr hlength.ge
    · exact .inl (hle.flatten.length_le)
  · exact .inr (hlength ▸ hle.flatten.length_le)

/-- **The next chunk.**  What the parser looks for was not in the buffer. -/
lemma ahead_read {ahead : Bytes → Bytes → Prop} {front : List Bytes} {chunk : Bytes}
    (hm : s.boundary = marker) (hfront : front ++ [chunk] <+: chunks)
    (h : Stands marker chunks front.flatten.length s ahead) (hrun : s.run = .ok s) :
    Stands marker chunks (front.flatten.length + chunk.length)
      { s with buffer := s.buffer ++ chunk } ahead := by
  subst hm
  have hle : front.flatten.length ≤ chunks.flatten.length :=
    ((List.prefix_append front [chunk]).trans hfront).flatten.length_le
  have hholds {p : ℕ} (h : s.Holds chunks p front.flatten.length) :
      { s with buffer := s.buffer ++ chunk }.Holds chunks p
        (front.flatten.length + chunk.length) := by
    refine ⟨h.unfinished, ?_, h.le.trans (Nat.le_add_right _ _)⟩
    dsimp only
    obtain ⟨rest, rfl⟩ := hfront
    have hchunk : piece (front ++ [chunk] ++ rest).flatten front.flatten.length
        (front.flatten.length + chunk.length) = chunk := by
      have hsplit : (front ++ [chunk] ++ rest).flatten =
          front.flatten ++ chunk ++ rest.flatten := by
        simp
      rw [piece, hsplit, List.take_left' (List.length_append), List.drop_left]
    rw [h.buffer_eq, ← piece_append _ h.le (Nat.le_add_right _ chunk.length), hchunk]
  have hearlier {c : ℕ} (hc : CutAt chunks c)
      (hlt : c < front.flatten.length + chunk.length) : c ≤ front.flatten.length :=
    (le_or_le_of_cutAt hfront hc).resolve_right (not_le.mpr hlt)
  have hmissing {p : ℕ} (h : s.Holds chunks p front.flatten.length) (hstage : s.stage ≠ .headers)
      {i : ℕ} (hi : FirstFrom s.boundary chunks.flatten p i) :
      front.flatten.length < i + s.boundary.length := by
    refine lt_of_indexOf_piece s.boundary_ne hle ?_ hi
    rw [← h.buffer_eq]
    exact indexOf_of_stopped hrun h.unfinished hstage
  cases h with
  | finished hfinished => exact .finished hfinished
  | boundary h hstage hnew =>
      refine .boundary (hholds h) hstage fun c hc hlt i hi => ?_
      exact (hearlier hc hlt).trans_lt (hmissing h (by simp [hstage]) hi)
  | headers h hstage hnew =>
      refine .headers (hholds h) hstage fun c hc hlt i hi => (hearlier hc hlt).trans_lt ?_
      refine lt_of_indexOf_piece blankLine_ne hle ?_ hi
      rw [← h.buffer_eq]
      exact indexOf_blankLine_of_stopped hrun h.unfinished hstage
  | @content a p block d h hstage hap hnone hnew hkept hstart hblock hfield hfilename hcontent =>
      refine .content (hholds h) hstage hap hnone ?_ ?_ hstart hblock hfield hfilename hcontent
      · intro c hc hlt j hj
        refine (hearlier hc hlt).trans_lt (hmissing h (by simp [hstage]) (hj.of_le hap ?_))
        exact not_lt.mp fun hjp => hnone j hj.le hjp hj.occurs
      · intro c hc hlt
        refine (hearlier hc hlt).trans ?_
        have hlength := length_le_of_stopped hrun h.unfinished hstage
        rw [h.buffer_eq, length_piece _ hle] at hlength
        omega

/-- Nothing is ahead where all has been read. -/
lemma not_ahead {ahead : Bytes → Bytes → Prop} (hm : s.boundary = marker)
    (h : Stands marker chunks chunks.flatten.length s ahead) (hrun : s.run = .ok s)
    (headers content : Bytes) : ¬ ahead headers content := by
  subst hm
  have hmissing {p i : ℕ} {pat : Bytes} (hpat : pat ≠ [])
      (h : s.Holds chunks p chunks.flatten.length) (hnone : indexOf pat s.buffer = none) :
      ¬ FirstFrom pat chunks.flatten p i := by
    intro hi
    rw [h.buffer_eq] at hnone
    have hlt := lt_of_indexOf_piece hpat le_rfl hnone hi
    have hle := hi.occurs.length_le hpat
    omega
  cases h with
  | finished => exact id
  | boundary h hstage =>
      rw [hasPart_iff]
      rintro ⟨i, hi, -⟩
      exact hmissing s.boundary_ne h (indexOf_of_stopped hrun h.unfinished (by simp [hstage])) hi
  | headers h hstage =>
      rintro ⟨i, hi, -⟩
      exact hmissing blankLine_ne h (indexOf_blankLine_of_stopped hrun h.unfinished hstage) hi
  | content h hstage hap hnone =>
      rintro ⟨j, hj, -⟩
      refine hmissing s.boundary_ne h
        (indexOf_of_stopped hrun h.unfinished (by simp [hstage])) (hj.of_le hap ?_)
      exact not_lt.mp fun hjp => hnone j hj.le hjp hj.occurs

/-- The chunks that are left. -/
lemma accounts_chunks {ahead : Bytes → Bytes → Prop} {front rest : List Bytes}
    (hm : s.boundary = marker) (hchunks : chunks = front ++ rest)
    (h : Stands marker chunks front.flatten.length s ahead) (hrun : s.run = .ok s)
    (hs : s.processChunks rest = .ok t) :
    Collected (fun f => R f.originalname) Q t ↔ Accounts R Q s ahead := by
  induction rest generalizing s ahead front with
  | nil =>
      obtain rfl : s = t := Except.ok.inj hs
      rw [List.append_nil] at hchunks
      subst hchunks
      exact (and_iff_left fun headers content hahead =>
        absurd hahead (not_ahead hm h hrun headers content)).symm
  | cons chunk rest ih =>
      have hprefix : front ++ [chunk] <+: chunks := ⟨rest, by simp [hchunks]⟩
      have hlength : (front ++ [chunk]).flatten.length = front.flatten.length + chunk.length := by
        simp
      have hread := ahead_read hm hprefix h hrun
      rw [← hlength] at hread
      unfold processChunks at hs ih
      rw [List.foldlM_cons] at hs
      cases hnext : s.processChunk chunk with
      | error e =>
          rw [hnext] at hs
          cases hs
      | ok s' =>
          rw [hnext] at hs
          have hrun' : { s with buffer := s.buffer ++ chunk }.run = .ok s' := hnext
          obtain ⟨hm', ahead', hstands, haccounts⟩ := ahead_run (R := R) (Q := Q) (by exact hm)
            (cutAt_flatten hprefix) hprefix.flatten.length_le hread hrun'
          rw [ih hm' (by simp [hchunks]) hstands (run_idem hrun') hs, haccounts]
          exact Iff.rfl

/-- **What holds of a result holds of the parts of the input.** -/
theorem collected_iff {boundary : String} {options : ParseOptions}
    (ht : (createParserState boundary options).processChunks chunks = .ok t) :
    Collected (fun f => R f.originalname) Q t ↔
      ∀ headers content, HasPart (markerOf boundary) chunks 0 headers content →
        ReturnsFor R Q headers content := by
  have hstands : Stands (markerOf boundary) chunks ([] : List Bytes).flatten.length
      (createParserState boundary options) (HasPart (markerOf boundary) chunks 0) :=
    .boundary ⟨rfl, (piece_eq_nil _ le_rfl).symm, le_rfl⟩ rfl
      fun c _ hc => absurd hc (Nat.not_lt_zero c)
  have hempty : Collected (fun f => R f.originalname) Q (createParserState boundary options) := by
    constructor
    · intro p hp
      cases hp
    · intro p hp
      cases hp
  rw [accounts_chunks rfl (List.nil_append chunks).symm hstands (run_of_end (.inl rfl)) ht]
  exact and_iff_right hempty

end ParserState

end Blaize.Upload
