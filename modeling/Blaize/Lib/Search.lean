import Mathlib.Data.List.Basic
import Mathlib.Data.List.Infix
import Mathlib.Tactic.Common

/-!
The first occurrence of a pattern in a list, and what happens to it when the list arrives
in pieces.

* `Occurs`: the pattern stands at an offset;
* `indexOf`: the first offset where it stands, with `indexOf_eq_some_iff` and
  `indexOf_eq_none_iff`;
* `indexOf_append_of_some`: more input does not move an occurrence that was found;
* `lt_of_indexOf_append`: an occurrence that more input completes ends behind the cut;
* `indexOf_drop_of_some`: dropping what lies before the occurrence only shifts it;
* `indexOf_append_separator`: behind a text without the pattern and a separator of other
  elements, the pattern is found where it stands;
* `FirstFrom`: the first occurrence from an offset on, with `firstFrom_of_indexOf` to read
  it off a search in a piece of the text;
* `piece`: the text between two offsets, with `indexOf_piece_iff` for the search in it.
-/

namespace Search

variable {α : Type*} [DecidableEq α] {pat text more : List α} {i j n : ℕ}

/-- The pattern stands at offset `i` of the text. -/
def Occurs (pat text : List α) (i : ℕ) : Prop := pat <+: text.drop i

instance (pat text : List α) (i : ℕ) : Decidable (Occurs pat text i) :=
  decidable_of_iff (pat.isPrefixOf (text.drop i)) List.isPrefixOf_iff_prefix

/-- The first offset at which the pattern stands. -/
def indexOf (pat : List α) : List α → Option ℕ
  | [] => if pat.isPrefixOf [] then some 0 else none
  | x :: text => if pat.isPrefixOf (x :: text) then some 0 else (indexOf pat text).map (· + 1)

/-! ### Occurrences -/

omit [DecidableEq α] in
@[simp] lemma occurs_drop : Occurs pat (text.drop n) i ↔ Occurs pat text (n + i) := by
  rw [Occurs, Occurs, List.drop_drop]

omit [DecidableEq α] in
/-- A nonempty pattern stands inside the text. -/
lemma Occurs.length_le (hpat : pat ≠ []) (h : Occurs pat text i) :
    i + pat.length ≤ text.length := by
  have hlen := List.IsPrefix.length_le h
  have hpos := List.length_pos_iff.mpr hpat
  rw [List.length_drop] at hlen
  omega

omit [DecidableEq α] in
lemma Occurs.append (hpat : pat ≠ []) (h : Occurs pat text i) : Occurs pat (text ++ more) i := by
  have hlen := h.length_le hpat
  rw [Occurs, List.drop_append_of_le_length (by omega)]
  exact List.IsPrefix.trans h (List.prefix_append _ _)

omit [DecidableEq α] in
/-- An occurrence that ends before the cut was there before. -/
lemma Occurs.of_append (h : Occurs pat (text ++ more) i) (hi : i + pat.length ≤ text.length) :
    Occurs pat text i := by
  rw [Occurs, List.drop_append_of_le_length (by omega)] at h
  exact List.prefix_of_prefix_length_le h (List.prefix_append _ _)
    (by rw [List.length_drop]; omega)

/-! ### The search -/

lemma indexOf_eq_some_iff :
    indexOf pat text = some i ↔
      i ≤ text.length ∧ Occurs pat text i ∧ ∀ k < i, ¬ Occurs pat text k := by
  induction text generalizing i with
  | nil =>
      simp only [indexOf, Occurs, List.drop_nil, List.length_nil, List.isPrefixOf_iff_prefix]
      split
      · next h =>
        simp only [Option.some.injEq, h, not_true_eq_false, true_and]
        constructor
        · rintro rfl
          exact ⟨Nat.le_refl _, fun k hk => absurd hk (Nat.not_lt_zero k)⟩
        · rintro ⟨hi, -⟩
          omega
      · next h => simp [h]
  | cons x text ih =>
      simp only [indexOf, List.isPrefixOf_iff_prefix]
      split
      · next h =>
        constructor
        · rintro ⟨⟩
          exact ⟨Nat.zero_le _, h, fun k hk => absurd hk (Nat.not_lt_zero k)⟩
        · rintro ⟨-, -, hmin⟩
          rcases Nat.eq_zero_or_pos i with rfl | hi
          · rfl
          · exact absurd h (hmin 0 hi)
      · next h =>
        rw [Option.map_eq_some_iff]
        constructor
        · rintro ⟨j, hj, rfl⟩
          obtain ⟨hlen, hocc, hmin⟩ := ih.mp hj
          refine ⟨Nat.succ_le_succ hlen, hocc, fun k hk => ?_⟩
          cases k with
          | zero => exact h
          | succ k => exact hmin k (by omega)
        · rintro ⟨hlen, hocc, hmin⟩
          cases i with
          | zero => exact absurd hocc h
          | succ i =>
              exact ⟨i, ih.mpr ⟨Nat.le_of_succ_le_succ hlen, hocc,
                fun k hk => hmin (k + 1) (by omega)⟩, rfl⟩

lemma indexOf_eq_none_iff (hpat : pat ≠ []) :
    indexOf pat text = none ↔ ∀ k, ¬ Occurs pat text k := by
  constructor
  · -- the least occurrence would be found
    intro h k
    induction k using Nat.strongRecOn with
    | _ k ih =>
        intro hk
        have hlen := hk.length_le hpat
        have : indexOf pat text = some k := indexOf_eq_some_iff.2 ⟨by omega, hk, ih⟩
        rw [h] at this
        cases this
  · intro h
    cases hi : indexOf pat text with
    | none => rfl
    | some i => exact absurd (indexOf_eq_some_iff.1 hi).2.1 (h i)

lemma indexOf_eq_none_iff_absent (hpat : pat ≠ []) :
    indexOf pat text = none ↔ ¬ pat <:+: text := by
  rw [indexOf_eq_none_iff hpat]
  constructor
  · rintro h ⟨before, after, rfl⟩
    refine h before.length ?_
    rw [Occurs, List.append_assoc, List.drop_left]
    exact List.prefix_append pat after
  · intro h k hk
    exact h (hk.isInfix.trans (List.drop_suffix k text).isInfix)

lemma indexOf_eq_some (hpat : pat ≠ []) (h : Occurs pat text i)
    (hmin : ∀ k < i, ¬ Occurs pat text k) : indexOf pat text = some i := by
  have hlen := h.length_le hpat
  exact indexOf_eq_some_iff.2 ⟨by omega, h, hmin⟩

lemma indexOf_prefix (hpat : pat ≠ []) (more : List α) : indexOf pat (pat ++ more) = some 0 :=
  indexOf_eq_some hpat (List.prefix_append pat more) fun k hk => absurd hk (Nat.not_lt_zero k)

lemma length_le_of_indexOf (hpat : pat ≠ []) (h : indexOf pat text = some i) :
    i + pat.length ≤ text.length :=
  (indexOf_eq_some_iff.1 h).2.1.length_le hpat

/-! ### Input in pieces -/

/-- More input does not move an occurrence that was found. -/
lemma indexOf_append_of_some (more : List α) (hpat : pat ≠ []) (h : indexOf pat text = some i) :
    indexOf pat (text ++ more) = some i := by
  obtain ⟨-, hocc, hmin⟩ := indexOf_eq_some_iff.1 h
  have hlen := hocc.length_le hpat
  refine indexOf_eq_some hpat (hocc.append hpat) fun k hk hk' => ?_
  exact hmin k hk (hk'.of_append (by omega))

/-- An occurrence that more input completes ends behind the cut. -/
lemma lt_of_indexOf_append (hpat : pat ≠ []) (h : indexOf pat text = none)
    (h' : indexOf pat (text ++ more) = some j) : text.length < j + pat.length := by
  by_contra hlt
  exact (indexOf_eq_none_iff hpat).mp h j
    ((indexOf_eq_some_iff.1 h').2.1.of_append (by omega))

/-- What lies before the first occurrence can be dropped. -/
lemma indexOf_drop_of_some (hpat : pat ≠ []) (h : indexOf pat text = some i) (hn : n ≤ i) :
    indexOf pat (text.drop n) = some (i - n) := by
  obtain ⟨-, hocc, hmin⟩ := indexOf_eq_some_iff.1 h
  refine indexOf_eq_some hpat ?_ fun k hk => ?_
  · rw [occurs_drop, Nat.add_sub_cancel' hn]
    exact hocc
  · rw [occurs_drop]
    exact hmin (n + k) (by omega)

lemma indexOf_drop_of_none (hpat : pat ≠ []) (h : indexOf pat text = none) :
    indexOf pat (text.drop n) = none := by
  rw [indexOf_eq_none_iff hpat] at h ⊢
  intro k
  rw [occurs_drop]
  exact h (n + k)

/-! ### Texts without an occurrence -/

/-- The search passes over a text without the first element of the pattern. -/
lemma indexOf_append_of_notMem {x : α} {line : List α} (h : x ∉ line) (text : List α) :
    indexOf (x :: pat) (line ++ text) = (indexOf (x :: pat) text).map (· + line.length) := by
  induction line with
  | nil => exact Option.map_id'.symm
  | cons y line ih =>
      have hxy : x ≠ y := fun he => h (he ▸ List.mem_cons_self)
      rw [List.cons_append, indexOf, if_neg (by simp [hxy]),
        ih fun hm => h (List.mem_cons_of_mem y hm), Option.map_map]
      rfl

omit [DecidableEq α] in
/-- The elements under an occurrence are elements of the pattern. -/
lemma Occurs.mem {x : α} (h : Occurs pat text i) (hi : i ≤ j) (hj : j < i + pat.length)
    (hx : text[j]? = some x) : x ∈ pat := by
  obtain ⟨after, hafter⟩ := h
  have hget : (text.drop i)[j - i]? = some x := by
    rw [List.getElem?_drop, Nat.add_sub_cancel' hi, hx]
  rw [← hafter, List.getElem?_append_left (by omega)] at hget
  exact List.mem_of_getElem? hget

/-- Behind a text without the pattern, and a separator of other elements, the pattern is
first found where it stands. -/
lemma indexOf_append_separator {separator : List α} (hpat : pat ≠ [])
    (htext : indexOf pat text = none) (hsep : ∀ x ∈ separator, x ∉ pat)
    (hne : separator ≠ []) :
    indexOf pat (text ++ (separator ++ pat)) = some (text.length + separator.length) := by
  have hpos := List.length_pos_iff.mpr hne
  have hpatpos := List.length_pos_iff.mpr hpat
  refine indexOf_eq_some hpat ?_ fun k hk hocc => ?_
  · rw [Occurs, ← List.append_assoc, ← List.length_append, List.drop_left]
  · rcases Nat.lt_or_ge text.length (k + pat.length) with hlt | hge
    · -- the occurrence lies over an element of the separator
      have hindex : max k text.length - text.length < separator.length := by omega
      have hget : (text ++ (separator ++ pat))[max k text.length]? =
          some (separator.get ⟨max k text.length - text.length, hindex⟩) := by
        rw [List.getElem?_append_right (by omega), List.getElem?_append_left hindex,
          List.getElem?_eq_getElem hindex, List.get_eq_getElem]
      exact hsep _ (List.get_mem _ _) (hocc.mem (Nat.le_max_left _ _) (by omega) hget)
    · exact (indexOf_eq_none_iff hpat).mp htext k (hocc.of_append hge)

/-! ### The first occurrence from an offset on -/

/-- The first occurrence of the pattern that does not start before `n` is at `i`. -/
structure FirstFrom (pat text : List α) (n i : ℕ) : Prop where
  le : n ≤ i
  occurs : Occurs pat text i
  first : ∀ k, n ≤ k → k < i → ¬ Occurs pat text k

omit [DecidableEq α] in
/-- A later start finds the same occurrence, if it does not jump over it. -/
lemma FirstFrom.of_le {n' : ℕ} (h : FirstFrom pat text n i) (hn : n ≤ n') (hi : n' ≤ i) :
    FirstFrom pat text n' i :=
  ⟨hi, h.occurs, fun k hk => h.first k (Nat.le_trans hn hk)⟩

omit [DecidableEq α] in
/-- An earlier start finds the same occurrence, if there is none in between. -/
lemma FirstFrom.extend {n' : ℕ} (h : FirstFrom pat text n i) (hn : n' ≤ n)
    (hnone : ∀ k, n' ≤ k → k < n → ¬ Occurs pat text k) : FirstFrom pat text n' i := by
  refine ⟨Nat.le_trans hn h.le, h.occurs, fun k hk hki => ?_⟩
  rcases Nat.lt_or_ge k n with hlt | hge
  · exact hnone k hk hlt
  · exact h.first k hge hki

lemma firstFrom_of_indexOf (h : indexOf pat (text.drop n) = some i) :
    FirstFrom pat text n (n + i) := by
  obtain ⟨-, hocc, hmin⟩ := indexOf_eq_some_iff.1 h
  refine ⟨Nat.le_add_right n i, occurs_drop.1 hocc, fun k hk hki => ?_⟩
  have := hmin (k - n) (by omega)
  rwa [occurs_drop, Nat.add_sub_cancel' hk] at this

lemma indexOf_of_firstFrom (hpat : pat ≠ []) (h : FirstFrom pat text n i) :
    indexOf pat (text.drop n) = some (i - n) := by
  have hle := h.le
  refine indexOf_eq_some hpat ?_ fun k hk => ?_
  · rw [occurs_drop, Nat.add_sub_cancel' hle]
    exact h.occurs
  · rw [occurs_drop]
    exact h.first (n + k) (Nat.le_add_right n k) (by omega)

omit [DecidableEq α] in
lemma FirstFrom.unique (h : FirstFrom pat text n i) (h' : FirstFrom pat text n j) : i = j :=
  le_antisymm (not_lt.mp fun hlt => h.first j h'.le hlt h'.occurs)
    (not_lt.mp fun hlt => h'.first i h.le hlt h.occurs)

omit [DecidableEq α] in
/-- An occurrence is the first one from its offset on. -/
lemma firstFrom_of_occurs (h : Occurs pat text i) : FirstFrom pat text i i :=
  ⟨le_rfl, h, fun _ hk hki => absurd hki (not_lt.mpr hk)⟩

/-! ### A piece of a text -/

/-- The elements from offset `n` to offset `m`. -/
def piece (text : List α) (n m : ℕ) : List α := (text.take m).drop n

omit [DecidableEq α] in
lemma length_piece (text : List α) {n m : ℕ} (hm : m ≤ text.length) :
    (piece text n m).length = m - n := by
  rw [piece, List.length_drop, List.length_take_of_le hm]

omit [DecidableEq α] in
lemma piece_eq_nil (text : List α) {n m : ℕ} (h : m ≤ n) : piece text n m = [] :=
  List.drop_eq_nil_of_le ((List.length_take_le m text).trans h)

omit [DecidableEq α] in
lemma drop_piece (text : List α) (n m k : ℕ) : (piece text n m).drop k = piece text (n + k) m :=
  List.drop_drop

omit [DecidableEq α] in
lemma take_piece (text : List α) {n m k : ℕ} (h : n + k ≤ m) :
    (piece text n m).take k = piece text n (n + k) := by
  rw [piece, piece, List.take_drop, List.take_take, min_eq_left h]

omit [DecidableEq α] in
lemma piece_append (text : List α) {n m k : ℕ} (hn : n ≤ m) (hm : m ≤ k) :
    piece text n m ++ piece text m k = piece text n k := by
  have htake : (piece text n k).take (m - n) = piece text n m := by
    rw [take_piece text (by omega), Nat.add_sub_cancel' hn]
  have hdrop : (piece text n k).drop (m - n) = piece text m k := by
    rw [drop_piece, Nat.add_sub_cancel' hn]
  rw [← htake, ← hdrop, List.take_append_drop]

omit [DecidableEq α] in
/-- A pattern stands in a piece if it stands in the text, and ends with the piece at most. -/
lemma occurs_piece_iff {m : ℕ} (hpat : pat ≠ []) (hm : m ≤ text.length) :
    Occurs pat (piece text n m) i ↔ Occurs pat text (n + i) ∧ n + i + pat.length ≤ m := by
  have hpos := List.length_pos_iff.mpr hpat
  have hsplit : text = text.take m ++ text.drop m := (List.take_append_drop m text).symm
  rw [piece, occurs_drop]
  constructor
  · intro h
    have hle := h.length_le hpat
    rw [List.length_take_of_le hm] at hle
    refine ⟨?_, hle⟩
    rw [hsplit]
    exact h.append hpat
  · rintro ⟨h, hle⟩
    rw [hsplit] at h
    exact h.of_append (by rwa [List.length_take_of_le hm])

/-- The search in a piece finds the first occurrence in the text that ends with the piece at
most. -/
lemma indexOf_piece_iff {m : ℕ} (hpat : pat ≠ []) (hm : m ≤ text.length) :
    indexOf pat (piece text n m) = some i ↔
      FirstFrom pat text n (n + i) ∧ n + i + pat.length ≤ m := by
  constructor
  · intro h
    obtain ⟨-, hocc, hmin⟩ := indexOf_eq_some_iff.mp h
    obtain ⟨hocc, hle⟩ := (occurs_piece_iff hpat hm).mp hocc
    refine ⟨⟨Nat.le_add_right n i, hocc, fun k hk hki hk' => ?_⟩, hle⟩
    refine hmin (k - n) (by omega) ((occurs_piece_iff hpat hm).mpr ?_)
    rw [Nat.add_sub_cancel' hk]
    exact ⟨hk', by omega⟩
  · rintro ⟨hfirst, hle⟩
    refine indexOf_eq_some hpat ((occurs_piece_iff hpat hm).mpr ⟨hfirst.occurs, hle⟩) ?_
    exact fun k hk hocc =>
      hfirst.first (n + k) (Nat.le_add_right n k) (by omega) ((occurs_piece_iff hpat hm).mp hocc).1

/-- Where the search in a piece finds nothing, the first occurrence in the text ends behind it. -/
lemma lt_of_indexOf_piece {m : ℕ} (hpat : pat ≠ []) (hm : m ≤ text.length)
    (h : indexOf pat (piece text n m) = none) (hi : FirstFrom pat text n i) :
    m < i + pat.length := by
  by_contra hle
  have hle' := hi.le
  refine (indexOf_eq_none_iff hpat).mp h (i - n) ((occurs_piece_iff hpat hm).mpr ?_)
  rw [Nat.add_sub_cancel' hle']
  exact ⟨hi.occurs, not_lt.mp hle⟩

end Search
