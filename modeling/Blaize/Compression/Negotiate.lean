import Mathlib.Tactic.Linarith
import Blaize.Lib.OrdMap
import Blaize.Lib.ParseFloat

/-!
The negotiation of the encoding (`middleware/compression/src/negotiate.ts`).

* `parseAcceptEncoding`, `negotiateEncoding`: the code;
* `QualityOf`: the quality that a header gives to a name, by the grammar of decimal literals;
* `qualityOf_iff`: it is the one that is read;
* `qualityMap_get`: the map of the code has the last entries;
* `Best`, `best_foldl`: the candidates so far have a first best one, or none at all;
* `follows_negotiateEncoding`: **the negotiation follows the header**, with the qualities as
  doubles.
-/

namespace Blaize.Compression

open Js

/-! ### The code -/

/-- The algorithms of the middleware. -/
inductive CompressionAlgorithm where
  | gzip
  | deflate
  | br
  | zstd
  | identity
  deriving DecidableEq, Repr

/-- The name of an algorithm. -/
def CompressionAlgorithm.name : CompressionAlgorithm → String
  | .gzip => "gzip"
  | .deflate => "deflate"
  | .br => "br"
  | .zstd => "zstd"
  | .identity => "identity"

/-- An encoding with its quality. -/
structure EncodingEntry where
  encoding : List Char
  quality : ℚ
  deriving DecidableEq

/-- `text.trim().toLowerCase()` -/
def trimLower (text : List Char) : List Char := (trim text).map Char.toLower

/-- The quality in a parameter: a `q` in `[0, 1]`. -/
def qParameter (segment : List Char) : Option ℚ :=
  match trimLower segment with
  | 'q' :: '=' :: value =>
      match parseFloat value with
      | .finite parsed => if 0 ≤ parsed ∧ parsed ≤ 1 then some parsed else none
      | _ => none
  | _ => none

/-- The loop over the parameters of an entry. -/
def entryQuality (parameters : List (List Char)) : ℚ :=
  parameters.foldl (fun quality segment => (qParameter segment).getD quality) 1

/-- One part of the header; it is left out without a name. -/
def parseEntry (part : List Char) : Option EncodingEntry :=
  let segments := (trim part).splitOn ';'
  let encoding := trimLower (segments.headD [])
  if encoding = [] then none else some ⟨encoding, entryQuality segments.tail⟩

/-- The entries of a header. -/
def parseAcceptEncoding (header : String) : List EncodingEntry :=
  (header.toList.splitOn ',').filterMap parseEntry

/-- A map with the qualities of the entries. -/
def qualityMap (entries : List EncodingEntry) : OrdMap (List Char) ℚ :=
  entries.foldl (fun map entry => map.set entry.encoding entry.quality) ∅

/-- The quality of a candidate, the wildcard's if it is not listed. -/
def candidateQuality (map : OrdMap (List Char) ℚ) (algorithm : CompressionAlgorithm) : Option ℚ :=
  match map.get (algorithm.name.toList.map Char.toLower) with
  | some quality => some quality
  | none => map.get ['*']

/-- One turn of the loop over the candidates. -/
def consider (quality : CompressionAlgorithm → Option ℚ)
    (best : Option CompressionAlgorithm × ℚ) (algorithm : CompressionAlgorithm) :
    Option CompressionAlgorithm × ℚ :=
  match quality algorithm with
  | none => best
  | some q =>
      if q = 0 then best
      else if best.2 < q then (some algorithm, q)
      else best

/-- `negotiateEncoding`; the header may be missing. -/
def negotiateEncoding (acceptEncoding : Option String) (available : List CompressionAlgorithm) :
    Option CompressionAlgorithm :=
  match acceptEncoding with
  | none =>
      match available.head? with
      | some .identity => none
      | first => first
  | some acceptEncoding =>
      if trim acceptEncoding.toList = [] then none
      else
        let entries := parseAcceptEncoding acceptEncoding
        if entries = [] then none
        else
          let candidates :=
            if .identity ∈ available then available else available ++ [.identity]
          match (candidates.foldl (consider (candidateQuality (qualityMap entries)))
              (none, -1)).1 with
          | some .identity => none
          | best => best

/-! ### The qualities of a header -/

/-- The name in a part of a header, in lower case. -/
def nameIn (part : List Char) : List Char := trimLower (((trim part).splitOn ';').headD [])

/-- The parameters in a part of a header. -/
def parametersIn (part : List Char) : List (List Char) := ((trim part).splitOn ';').tail

/-- The parameter is a `q` with the quality in `[0, 1]`: the longest decimal literal that its value
starts with, rounded. -/
def QParameter (round : ℚ → ℚ) (parameter : List Char) (q : ℚ) : Prop :=
  ∃ value decimal, trimLower parameter = 'q' :: '=' :: value ∧
    StartsWith (value.dropWhile isWhiteSpace) decimal ∧ q = round decimal ∧ 0 ≤ q ∧ q ≤ 1

/-- The quality in a part of a header: the one of its last `q` parameter in `[0, 1]`, or 1 if it has
none. -/
def Quality (round : ℚ → ℚ) (part : List Char) (q : ℚ) : Prop :=
  (∃ before parameter after, parametersIn part = before ++ parameter :: after ∧
    QParameter round parameter q ∧ ∀ other ∈ after, ∀ q', ¬ QParameter round other q') ∨
  (∀ parameter ∈ parametersIn part, ∀ q', ¬ QParameter round parameter q') ∧ q = 1

/-- The last part of a header that names an encoding. -/
def lastPart (header : String) (encoding : List Char) : Option (List Char) :=
  ((header.toList.splitOn ',').filter fun part => nameIn part = encoding).getLast?

/-- The quality that a header gives to an encoding: the one in the last part that names it, else the
one in the last wildcard. -/
def QualityOf (round : ℚ → ℚ) (header : String) (algorithm : CompressionAlgorithm) (q : ℚ) :
    Prop :=
  ∃ part, (lastPart header (algorithm.name.toList.map Char.toLower)).or (lastPart header ['*']) =
    some part ∧ Quality round part q

/-! ### Reading them -/

variable {round : ℚ → ℚ}

/-- The quality that a parameter is read as. -/
def readQuality (round : ℚ → ℚ) (parameter : List Char) : Option ℚ :=
  match trimLower parameter with
  | 'q' :: '=' :: value =>
      ((readDecimal (value.dropWhile isWhiteSpace)).map round).filter fun q => 0 ≤ q ∧ q ≤ 1
  | _ => none

lemma readQuality_eq_some_iff {parameter : List Char} {q : ℚ} :
    readQuality round parameter = some q ↔ QParameter round parameter q := by
  unfold readQuality
  constructor
  · intro h
    split at h
    next value hvalue =>
      obtain ⟨hmap, hrange⟩ := Option.filter_eq_some_iff.mp h
      obtain ⟨decimal, hdecimal, rfl⟩ := Option.map_eq_some_iff.mp hmap
      have hbounds := of_decide_eq_true hrange
      exact ⟨value, decimal, hvalue, startsWith_iff.mpr hdecimal, rfl, hbounds⟩
    next => cases h
  · rintro ⟨value, decimal, hvalue, hdecimal, rfl, hbounds⟩
    rw [hvalue]
    change ((readDecimal (value.dropWhile isWhiteSpace)).map round).filter _ = _
    rw [startsWith_iff.mp hdecimal]
    exact Option.filter_eq_some_iff.mpr ⟨rfl, decide_eq_true hbounds⟩

/-- **The code reads the quality as a double**: what is too large for one is not in `[0, 1]`. -/
lemma qParameter_eq (parameter : List Char) :
    qParameter parameter = readQuality nearest parameter := by
  unfold qParameter readQuality
  split
  next value hvalue =>
    rw [parseFloat, parseFloatWith]
    dsimp only
    split_ifs with hinfinity
    · rw [readDecimal_infinity hinfinity]
      rfl
    · cases hread : readDecimal (value.dropWhile isWhiteSpace) with
      | none => rfl
      | some decimal =>
          rw [Option.elim_some, Option.map_some]
          by_cases hlarge : overflow ≤ |decimal|
          · rw [ofRat_of_le hlarge]
            have houtside : ¬ (0 ≤ nearest decimal ∧ nearest decimal ≤ 1) := by
              have hone : (1 : ℚ) < overflow := by decide +kernel
              rintro ⟨hnonneg, hle⟩
              rcases abs_cases decimal with ⟨heq, hsign⟩ | ⟨heq, hsign⟩
              · have hround := (overflow_le_nearest_iff hsign).mpr (heq ▸ hlarge)
                linarith
              · have hround := (overflow_le_nearest_iff (neg_nonneg.mpr hsign.le)).mpr
                  (heq ▸ hlarge)
                rw [nearest_neg] at hround
                linarith
            rw [Option.filter_some_neg (by simpa using houtside)]
          · rw [ofRat_of_lt (not_le.mp hlarge)]
            dsimp only
            split_ifs with hrange
            · exact (Option.filter_some_pos (by simpa using hrange)).symm
            · rw [Option.filter_some_neg (by simpa using hrange)]
  next => rfl

/-- The last quality of the parameters, or 1. -/
def qualityIn (round : ℚ → ℚ) (part : List Char) : ℚ :=
  (((parametersIn part).filterMap (readQuality round)).getLast?).getD 1

/-- The quality that a header gives to an encoding. -/
def qualityOf (round : ℚ → ℚ) (header : String) (algorithm : CompressionAlgorithm) : Option ℚ :=
  ((lastPart header (algorithm.name.toList.map Char.toLower)).or (lastPart header ['*'])).map
    (qualityIn round)

lemma quality_iff {part : List Char} {q : ℚ} : Quality round part q ↔ qualityIn round part = q := by
  have hnone {parameters : List (List Char)} :
      (∀ parameter ∈ parameters, ∀ q', ¬ QParameter round parameter q') ↔
        parameters.filterMap (readQuality round) = [] := by
    rw [List.filterMap_eq_nil_iff]
    refine forall₂_congr fun parameter _ => ?_
    rw [Option.eq_none_iff_forall_ne_some]
    exact forall_congr' fun q' => not_congr readQuality_eq_some_iff.symm
  rw [Quality, qualityIn]
  generalize parametersIn part = parameters
  constructor
  · rintro (⟨before, parameter, after, rfl, hq, hafter⟩ | ⟨hall, rfl⟩)
    · rw [List.filterMap_append, List.filterMap_cons, readQuality_eq_some_iff.mpr hq,
        hnone.mp hafter]
      simp
    · rw [hnone.mp hall]
      rfl
  · rintro rfl
    induction parameters using List.reverseRecOn with
    | nil => exact .inr ⟨nofun, rfl⟩
    | append_singleton parameters last ih =>
        rw [List.filterMap_append]
        cases hlast : readQuality round last with
        | some q =>
            refine .inl ⟨parameters, last, [], rfl, ?_, nofun⟩
            simpa [hlast] using readQuality_eq_some_iff.mp hlast
        | none =>
            have hnot : ∀ q', ¬ QParameter round last q' := by
              intro q' hq'
              rw [readQuality_eq_some_iff.mpr hq'] at hlast
              cases hlast
            have hvalue : [last].filterMap (readQuality round) = [] := by simp [hlast]
            rw [hvalue, List.append_nil]
            refine ih.imp ?_ ?_
            · rintro ⟨before, parameter, after, rfl, hq, hafter⟩
              refine ⟨before, parameter, after ++ [last], by simp, hq, ?_⟩
              simpa [or_imp, forall_and] using ⟨hafter, hnot⟩
            · rintro ⟨hall, hone⟩
              refine ⟨?_, hone⟩
              simpa [or_imp, forall_and] using ⟨hall, hnot⟩

lemma qualityOf_iff {header : String} {algorithm : CompressionAlgorithm} {q : ℚ} :
    QualityOf round header algorithm q ↔ qualityOf round header algorithm = some q := by
  rw [QualityOf, qualityOf, Option.map_eq_some_iff]
  exact exists_congr fun part => and_congr_right fun _ => quality_iff

lemma entryQuality_eq (parameters : List (List Char)) :
    entryQuality parameters = ((parameters.filterMap (readQuality nearest)).getLast?).getD 1 := by
  rw [entryQuality, funext qParameter_eq]
  induction parameters using List.reverseRecOn with
  | nil => rfl
  | append_singleton parameters segment ih =>
      rw [List.foldl_append, List.foldl_cons, List.foldl_nil, ih, List.filterMap_append]
      cases hsegment : readQuality nearest segment with
      | none => simp [hsegment]
      | some q => simp [hsegment]

/-- An entry is its name and its quality. -/
lemma parseEntry_eq (part : List Char) : parseEntry part =
    if nameIn part = [] then none else some ⟨nameIn part, qualityIn nearest part⟩ := by
  rw [parseEntry, qualityIn, ← entryQuality_eq]
  rfl

/-- **The map has the qualities of the last parts.** -/
lemma qualityMap_get (header : String) {encoding : List Char} (h : encoding ≠ []) :
    (qualityMap (parseAcceptEncoding header)).get encoding =
      (lastPart header encoding).map (qualityIn nearest) := by
  rw [parseAcceptEncoding, lastPart]
  generalize header.toList.splitOn ',' = parts
  induction parts using List.reverseRecOn with
  | nil => rfl
  | append_singleton parts part ih =>
      rw [List.filterMap_append, qualityMap, List.foldl_append, ← qualityMap, List.filter_append]
      by_cases hname : nameIn part = encoding
      · -- the last part names the encoding
        have hentry : parseEntry part = some ⟨encoding, qualityIn nearest part⟩ := by
          rw [parseEntry_eq, hname, if_neg h]
        simp [hentry, hname]
      · have hfilter : [part].filter (fun part => nameIn part = encoding) = [] := by
          simp [hname]
        rw [hfilter, List.append_nil, ← ih]
        by_cases hempty : nameIn part = []
        · simp [parseEntry_eq, hempty]
        · simp [parseEntry_eq, hempty, OrdMap.get_set, hname]

lemma qualityIn_nonneg (part : List Char) : 0 ≤ qualityIn round part := by
  rw [qualityIn]
  cases hlast : ((parametersIn part).filterMap (readQuality round)).getLast? with
  | none => exact zero_le_one
  | some q =>
      obtain ⟨parameter, _, hparameter⟩ := List.mem_filterMap.mp (List.mem_of_getLast? hlast)
      obtain ⟨-, -, -, -, -, hnonneg, -⟩ := readQuality_eq_some_iff.mp hparameter
      exact hnonneg

lemma qualityOf_nonneg {header : String} {algorithm : CompressionAlgorithm} {q : ℚ}
    (h : qualityOf round header algorithm = some q) : 0 ≤ q := by
  obtain ⟨part, _, rfl⟩ := Option.map_eq_some_iff.mp h
  exact qualityIn_nonneg part

/-- The code looks the quality up. -/
lemma candidateQuality_eq (header : String) (algorithm : CompressionAlgorithm) :
    candidateQuality (qualityMap (parseAcceptEncoding header)) algorithm =
      qualityOf nearest header algorithm := by
  have hname : algorithm.name.toList.map Char.toLower ≠ [] := by
    cases algorithm <;> decide
  rw [candidateQuality, qualityMap_get header hname, qualityMap_get header (by simp), qualityOf]
  cases lastPart header (algorithm.name.toList.map Char.toLower) with
  | none => rfl
  | some part => rfl

/-! ### The first best candidate -/

variable {quality : CompressionAlgorithm → Option ℚ}

/-- Of the candidates so far, either none has a positive quality, or the best one is the first with
the greatest quality. -/
def Best (quality : CompressionAlgorithm → Option ℚ) (seen : List CompressionAlgorithm) :
    Option CompressionAlgorithm × ℚ → Prop
  | (none, bestQuality) => bestQuality = -1 ∧ ∀ b ∈ seen, ∀ q, quality b = some q → q = 0
  | (some a, bestQuality) =>
      quality a = some bestQuality ∧ 0 < bestQuality ∧
        (∀ b ∈ seen, ∀ q, quality b = some q → q ≤ bestQuality) ∧
          ∃ before after, seen = before ++ a :: after ∧
            ∀ b ∈ before, ∀ q, quality b = some q → q < bestQuality

/-- A candidate that is not better leaves the best one. -/
lemma Best.skip {seen : List CompressionAlgorithm} {best : Option CompressionAlgorithm × ℚ}
    (h : Best quality seen best) {b : CompressionAlgorithm}
    (hb : ∀ q, quality b = some q → q = 0 ∨ q ≤ best.2 ∧ 0 < q) :
    Best quality (seen ++ [b]) best := by
  obtain ⟨_ | a, bestQuality⟩ := best
  · obtain ⟨hstart, hzero⟩ := h
    refine ⟨hstart, fun c hc q hq => ?_⟩
    rcases List.mem_append.mp hc with hc | hc
    · exact hzero c hc q hq
    · obtain rfl := List.mem_singleton.mp hc
      rcases hb q hq with hq | ⟨hle, hpos⟩
      · exact hq
      · dsimp only at hle
        linarith
  · obtain ⟨ha, hpos, hle, before, after, rfl, hbefore⟩ := h
    refine ⟨ha, hpos, fun c hc q hq => ?_, before, after ++ [b], by simp, hbefore⟩
    rcases List.mem_append.mp hc with hc | hc
    · exact hle c hc q hq
    · obtain rfl := List.mem_singleton.mp hc
      rcases hb q hq with rfl | hb
      · exact hpos.le
      · exact hb.1

/-- **One turn of the loop.** -/
lemma Best.consider (hnonneg : ∀ b q, quality b = some q → 0 ≤ q)
    {seen : List CompressionAlgorithm} {best : Option CompressionAlgorithm × ℚ}
    (h : Best quality seen best) (b : CompressionAlgorithm) :
    Best quality (seen ++ [b]) (consider quality best b) := by
  unfold Compression.consider
  cases hquality : quality b with
  | none => exact h.skip fun q hq => by rw [hquality] at hq; cases hq
  | some q =>
      have hskip (hq : q = 0 ∨ q ≤ best.2 ∧ 0 < q) : Best quality (seen ++ [b]) best := by
        refine h.skip fun q' hq' => ?_
        rw [hquality] at hq'
        rwa [← Option.some.inj hq']
      dsimp only
      split
      next hzero => exact hskip (.inl hzero)
      next hzero =>
        have hpos : 0 < q := lt_of_le_of_ne (hnonneg b q hquality) (Ne.symm hzero)
        split
        next hbetter =>
          -- the new one is strictly better than all before
          have hall : ∀ c ∈ seen, ∀ q', quality c = some q' → q' < q := by
            intro c hc q' hq'
            obtain ⟨_ | a, bestQuality⟩ := best
            · rw [h.2 c hc q' hq']
              exact hpos
            · exact lt_of_le_of_lt (h.2.2.1 c hc q' hq') hbetter
          refine ⟨hquality, hpos, fun c hc q' hq' => ?_, seen, [], rfl, hall⟩
          rcases List.mem_append.mp hc with hc | hc
          · exact (hall c hc q' hq').le
          · obtain rfl := List.mem_singleton.mp hc
            rw [hquality] at hq'
            exact (Option.some.inj hq').ge
        next hworse => exact hskip (.inr ⟨not_lt.mp hworse, hpos⟩)

lemma best_foldl (hnonneg : ∀ b q, quality b = some q → 0 ≤ q)
    (candidates : List CompressionAlgorithm) :
    Best quality candidates (candidates.foldl (consider quality) (none, -1)) := by
  induction candidates using List.reverseRecOn with
  | nil => exact ⟨rfl, nofun⟩
  | append_singleton candidates b ih =>
      rw [List.foldl_append]
      exact ih.consider hnonneg b

/-! ### The negotiation -/

/-- The result follows the header, with the qualities rounded. -/
structure Follows (round : ℚ → ℚ) (header : String) (available : List CompressionAlgorithm)
    (result : Option CompressionAlgorithm) : Prop where
  chosen : ∀ a, result = some a → a ∈ available ∧ a ≠ .identity ∧
    ∃ q, QualityOf round header a q ∧ 0 < q ∧
      (∀ b, b ∈ available ∨ b = .identity → ∀ q', QualityOf round header b q' → q' ≤ q) ∧
        ∀ before after, available = before ++ a :: after →
          ∀ b ∈ before, ∀ q', QualityOf round header b q' → q' < q
  refused : result = none → trim header.toList ≠ [] →
    (∀ a ∈ available, ∀ q, QualityOf round header a q → ¬ 0 < q) ∨
      ∃ q, QualityOf round header .identity q ∧
        ∀ a ∈ available, ∀ q', QualityOf round header a q' → q' < q

/-- Without entries the header gives no qualities. -/
lemma qualityOf_of_no_entries {header : String} (h : parseAcceptEncoding header = [])
    (algorithm : CompressionAlgorithm) : qualityOf nearest header algorithm = none := by
  rw [← candidateQuality_eq, h]
  rfl

/-- **The negotiation follows the header.** -/
theorem follows_negotiateEncoding (header : String) {available : List CompressionAlgorithm}
    (hnodup : available.Nodup) (hidentity : .identity ∉ available) :
    Follows nearest header available (negotiateEncoding (some header) available) := by
  have hnothing (hnone : ∀ a, qualityOf nearest header a = none) :
      Follows nearest header available none := by
    refine ⟨nofun, fun _ _ => .inl fun a _ q hq => ?_⟩
    rw [qualityOf_iff, hnone a] at hq
    cases hq
  rw [negotiateEncoding]
  dsimp only
  split
  next hblank => exact ⟨nofun, fun _ hne => absurd hblank hne⟩
  split
  next hempty => exact hnothing (qualityOf_of_no_entries hempty)
  next =>
    rw [funext (candidateQuality_eq header)]
    have hbest : Best (qualityOf nearest header) (available ++ [.identity]) _ :=
      best_foldl (fun b q => qualityOf_nonneg) _
    generalize (available ++ [CompressionAlgorithm.identity]).foldl
      (consider (qualityOf nearest header)) (none, -1) = best at hbest ⊢
    have hmem {b : CompressionAlgorithm} (hb : b ∈ available ∨ b = .identity) :
        b ∈ available ++ [.identity] :=
      List.mem_append.mpr (hb.imp_right List.mem_singleton.mpr)
    have hall : (available ++ [CompressionAlgorithm.identity]).Nodup :=
      List.nodup_append.mpr ⟨hnodup, List.nodup_singleton _, by
        rintro b hb c hc rfl
        rw [List.mem_singleton.mp hc] at hb
        exact hidentity hb⟩
    obtain ⟨_ | a, bestQuality⟩ := best
    · -- nothing has a positive quality
      refine ⟨nofun, fun _ _ => .inl fun a ha q hq => ?_⟩
      rw [hbest.2 a (hmem (.inl ha)) q (qualityOf_iff.mp hq)]
      exact lt_irrefl 0
    · obtain ⟨hquality, hpos, hle, before, after, hsplit, hbefore⟩ := hbest
      -- without duplicates the best candidate has one place only
      have hplace (xs ys : List CompressionAlgorithm)
          (h : available ++ [.identity] = xs ++ a :: ys) : xs = before := by
        rw [h] at hall hsplit
        have hnotMem := List.nodup_middle.mp hall
        rw [List.nodup_cons, List.mem_append, not_or] at hnotMem
        exact ((List.append_cons_inj_of_notMem hnotMem.1.1 hnotMem.1.2).mp hsplit).1
      by_cases ha : a = .identity
      · -- identity is the last candidate, so all others are worse
        subst ha
        have hlast := hplace available [] rfl
        refine ⟨nofun, fun _ _ => .inr ⟨bestQuality, qualityOf_iff.mpr hquality, ?_⟩⟩
        exact fun b hb q' hq' => hbefore b (hlast ▸ hb) q' (qualityOf_iff.mp hq')
      · have havailable : a ∈ available := by
          have hin : a ∈ available ++ [.identity] := by rw [hsplit]; simp
          simpa [ha] using hin
        have hchosen : Follows nearest header available (some a) := by
          refine ⟨fun a' ha' => ?_, nofun⟩
          obtain rfl := Option.some.inj ha'
          refine ⟨havailable, ha, bestQuality, qualityOf_iff.mpr hquality, hpos, ?_, ?_⟩
          · exact fun b hb q' hq' => hle b (hmem hb) q' (qualityOf_iff.mp hq')
          · intro xs ys hxs b hb q' hq'
            have hfront := hplace xs (ys ++ [.identity]) (by simp [hxs])
            exact hbefore b (hfront ▸ hb) q' (qualityOf_iff.mp hq')
        cases a with
        | identity => exact absurd rfl ha
        | gzip | deflate | br | zstd => exact hchosen

/-- The server prefers `gzip`, the client `br`. -/
theorem follows_negotiateEncoding_br :
    Follows nearest "gzip;q=0.8, BR;q=0.9, identity;q=0.5" [.gzip, .br]
      (negotiateEncoding (some "gzip;q=0.8, BR;q=0.9, identity;q=0.5") [.gzip, .br]) :=
  follows_negotiateEncoding _ (by decide) (by decide)

example : negotiateEncoding (some "gzip;q=0.8, BR;q=0.9, identity;q=0.5") [.gzip, .br] =
    some .br := by decide +kernel

/-- **The exact decimals are not followed**: the greater one of two with the same nearest double is
not chosen. -/
theorem not_follows_exact :
    ¬ ∀ (header : String) (available : List CompressionAlgorithm), available.Nodup →
      .identity ∉ available →
        Follows id header available (negotiateEncoding (some header) available) := by
  intro h
  have hbr : negotiateEncoding (some "gzip;q=0.30000000000000001, br;q=0.3") [.br, .gzip] =
      some .br := by decide +kernel
  obtain ⟨-, -, q, hq, -, hbest, -⟩ := (h "gzip;q=0.30000000000000001, br;q=0.3" [.br, .gzip]
    (by decide) (by decide)).chosen .br hbr
  have hgzip := hbest .gzip (.inl (by decide)) (30000000000000001 / 10 ^ 17)
    (qualityOf_iff.mpr (by decide +kernel))
  have hthree : qualityOf id "gzip;q=0.30000000000000001, br;q=0.3" .br = some (3 / 10) := by
    decide +kernel
  rw [qualityOf_iff, hthree] at hq
  rw [← Option.some.inj hq] at hgzip
  exact absurd hgzip (by decide +kernel)

end Blaize.Compression
