import Mathlib.Data.Int.Notation
import Blaize.Lib.Glob
import Blaize.Lib.Prefixes
import Blaize.Lib.Region

/-!
The strings of an ideal Redis, with the commands that read, write, list and delete them.

Time passes in whole seconds, and only where a second is taken.  `KEYS` lists the names in the
order in which they were created, where a server has none.

* `Strings`: the values with their times to live;
* `get`, `set`, `setex`, `del`, `keys`: the commands;
* `pieces`: a pattern of `KEYS` as one of `Glob`, with `*`, `?`, `[…]` and `\`;
* `mem_keys_literal_star`: **a literal and a star find the names that start with the literal**;
* `get_del`, `del_fst`: what is there after `DEL`, and how many names it counts;
* `behind`: the strings behind a prefix, as a server of their own;
* `behind_writes`, `del_behind`, `keys_behind`, `behind_second`: **each command on names with the
  prefix is the same command on these**, and one on other names leaves them as they are.
-/

namespace Redis

/-! ### Patterns -/

/-- The pieces of a pattern.  Inside brackets the state is whether the class is negated, and
the characters it has so far; brackets that are not closed end with the pattern. -/
def pieces : Option (Bool × (Char → Bool)) → List Char → List (Glob.Piece Char)
  | none, [] => []
  | none, '*' :: p => .run (fun _ => true) :: pieces none p
  | none, '?' :: p => .one (fun _ => true) :: pieces none p
  | none, '[' :: '^' :: p => pieces (some (true, fun _ => false)) p
  | none, '[' :: p => pieces (some (false, fun _ => false)) p
  | none, '\\' :: c :: p => .one (· = c) :: pieces none p
  | none, c :: p => .one (· = c) :: pieces none p
  | some (negated, takes), [] => [.one fun x => takes x != negated]
  | some (negated, takes), '\\' :: c :: p =>
      pieces (some (negated, fun x => takes x || x = c)) p
  | some (negated, takes), ']' :: p => .one (fun x => takes x != negated) :: pieces none p
  | some (negated, takes), a :: '-' :: b :: p =>
      pieces (some (negated, fun x => takes x || a ≤ x && x ≤ b || b ≤ x && x ≤ a)) p
  | some (negated, takes), c :: p => pieces (some (negated, fun x => takes x || x = c)) p

/-- The characters with a meaning of their own in a pattern. -/
def metacharacters : List Char := ['*', '?', '[', ']', '\\']

/-- A text without them stands for itself. -/
lemma pieces_literal {text : List Char} (h : ∀ c ∈ text, c ∉ metacharacters) (p : List Char) :
    pieces none (text ++ p) = Glob.literal text ++ pieces none p := by
  induction text with
  | nil => rfl
  | cons c text ih =>
      obtain ⟨hc, htext⟩ := List.forall_mem_cons.mp h
      simp only [metacharacters, List.mem_cons, List.not_mem_nil, or_false, not_or] at hc
      obtain ⟨hstar, hone, hopen, -, hquote⟩ := hc
      rw [List.cons_append, pieces, ih htext]
      · rfl
      all_goals simp_all

/-- A star takes everything. -/
lemma matches_star (text : List Char) : Glob.Matches (pieces none ['*']) text := by
  have h : Glob.Matches [.run fun _ => true] (text ++ []) := .run (fun _ _ => rfl) .nil
  rwa [List.append_nil] at h

/-! ### Commands -/

/-- A value and its time to live, if it has one. -/
structure StringEntry where
  value : String
  ttl : Option ℤ := none
  deriving DecidableEq, Repr

/-- The entry a second later, unless that was its last one. -/
def StringEntry.second (entry : StringEntry) : Option StringEntry :=
  match entry.ttl with
  | none => some entry
  | some ttl => if 1 < ttl then some { entry with ttl := some (ttl - 1) } else none

/-- The strings of a database. -/
@[ext]
structure Strings where
  entries : OrdMap String StringEntry := ∅

namespace Strings

variable (db : Strings)

/-- `GET key` -/
def get (key : String) : Option String := (db.entries.get key).map StringEntry.value

/-- `SET key value` -/
def set (key value : String) : Strings := { entries := db.entries.set key { value } }

/-- `SETEX key ttl value` -/
def setex (key : String) (ttl : ℤ) (value : String) : Strings :=
  { entries := db.entries.set key { value, ttl := some ttl } }

/-- `DEL`, with the number of the names that were there. -/
def del : Strings → List String → ℕ × Strings
  | db, [] => (0, db)
  | db, key :: keys =>
      let rest := del { entries := db.entries.delete key } keys
      (rest.1 + if db.entries.has key then 1 else 0, rest.2)

/-- `KEYS`. -/
def keys (pattern : String) : List String :=
  db.entries.keys.filter fun key => Glob.test (pieces none pattern.toList) key.toList

/-- `TTL` -/
def ttl (key : String) : ℤ :=
  match db.entries.get key with
  | none => -2
  | some entry => entry.ttl.getD (-1)

/-- A second goes by. -/
def second : Strings := { entries := db.entries.filterMapValues StringEntry.second }

variable {db}

lemma mem_entries_keys_iff {key : String} : key ∈ db.entries.keys ↔ (db.get key).isSome := by
  rw [OrdMap.mem_keys_iff, get, Option.isSome_map, Option.isSome_iff_exists]

/-- **A literal and a star find the names that start with the literal.** -/
lemma mem_keys_literal_star {literal key : String}
    (h : ∀ c ∈ literal.toList, c ∉ metacharacters) :
    key ∈ db.keys (literal ++ "*") ↔ literal.toList <+: key.toList ∧ (db.get key).isSome := by
  have hpattern : (literal ++ "*").toList = literal.toList ++ ['*'] := by simp
  rw [keys, List.mem_filter, mem_entries_keys_iff, and_comm, Glob.test_iff_matches, hpattern,
    pieces_literal h, Glob.matches_literal_append_iff]
  refine and_congr_left fun _ => ⟨?_, ?_⟩
  · rintro ⟨rest, hrest, -⟩
    exact ⟨rest, hrest.symm⟩
  · rintro ⟨rest, hrest⟩
    exact ⟨rest, hrest.symm, matches_star rest⟩

lemma nodup_keys (pattern : String) : (db.keys pattern).Nodup := db.entries.nodup.filter _

/-- A star finds all names. -/
lemma mem_keys_star {key : String} : key ∈ db.keys "*" ↔ (db.get key).isSome := by
  have h : key ∈ db.keys ("" ++ "*") ↔ _ := mem_keys_literal_star (by simp)
  simpa using h

lemma get_set (key key' value : String) :
    (db.set key value).get key' = if key = key' then some value else db.get key' := by
  rw [get, set, OrdMap.get_set]
  split <;> rfl

lemma isSome_get_set {key value key' : String} :
    ((db.set key value).get key').isSome ↔ key = key' ∨ (db.get key').isSome := by
  rw [get_set]
  split <;> simp [*]

lemma get_setex (key key' value : String) (ttl : ℤ) :
    (db.setex key ttl value).get key' = if key = key' then some value else db.get key' := by
  rw [get, setex, OrdMap.get_set]
  split <;> rfl

lemma get_delete (key key' : String) :
    get { entries := db.entries.delete key } key' = if key = key' then none else db.get key' := by
  rw [get, OrdMap.get_delete]
  split <;> rfl

lemma get_del (keys : List String) (key : String) :
    (db.del keys).2.get key = if key ∈ keys then none else db.get key := by
  induction keys generalizing db with
  | nil => rfl
  | cons key' keys ih =>
      rw [del, ih, get_delete]
      by_cases hmem : key ∈ keys
      · rw [if_pos hmem, if_pos (List.mem_cons_of_mem _ hmem)]
      · rw [if_neg hmem]
        by_cases heq : key' = key
        · rw [if_pos heq, if_pos (by simp [heq])]
        · rw [if_neg heq, if_neg (by simp [hmem, Ne.symm heq])]

/-- **`DEL` of names that are there, each given once, counts them all.** -/
lemma del_fst {keys : List String} (hnodup : keys.Nodup)
    (h : ∀ key ∈ keys, (db.get key).isSome) : (db.del keys).1 = keys.length := by
  induction keys generalizing db with
  | nil => rfl
  | cons key keys ih =>
      obtain ⟨hkey, hkeys⟩ := List.nodup_cons.mp hnodup
      obtain ⟨hhas, hrest⟩ := List.forall_mem_cons.mp h
      have hrest' : ∀ key' ∈ keys, (get { entries := db.entries.delete key } key').isSome := by
        intro key' hmem
        rw [get_delete, if_neg (fun e : key = key' => hkey (e ▸ hmem))]
        exact hrest key' hmem
      rw [get, Option.isSome_map] at hhas
      rw [del, ih hkeys hrest', OrdMap.has, if_pos hhas, List.length_cons]

/-- `DEL` counts something exactly if one of the names is there. -/
lemma del_fst_pos_iff {keys : List String} :
    0 < (db.del keys).1 ↔ ∃ key ∈ keys, (db.get key).isSome := by
  induction keys generalizing db with
  | nil => simp [del]
  | cons key keys ih =>
      have hhas : db.entries.has key = (db.get key).isSome := Option.isSome_map.symm
      rw [del, hhas]
      by_cases hkey : (db.get key).isSome
      · simp [hkey]
      · have hget (key' : String) :
            get { entries := db.entries.delete key } key' = db.get key' := by
          rw [get_delete]
          split
          next heq => rw [← heq, Option.not_isSome_iff_eq_none.mp hkey]
          next => rfl
        simp [hkey, ih, hget]

/-! ### Behind a prefix -/

/-- A name with its new entry, or with none if it is deleted. -/
abbrev Write := String × Option StringEntry

/-- A key is written or deleted. -/
def write (db : Strings) : Write → Strings
  | (key, some entry) => { entries := db.entries.set key entry }
  | (key, none) => { entries := db.entries.delete key }

/-- One write after the other. -/
def writes (db : Strings) (all : List Write) : Strings := all.foldl write db

lemma del_snd (keys : List String) : (db.del keys).2 = db.writes (keys.map (·, none)) := by
  induction keys generalizing db with
  | nil => rfl
  | cons key keys ih => exact ih

variable (start : String)

/-- The strings whose names start with a prefix, under the rest of their names. -/
def behind (db : Strings) : Strings where
  entries := db.entries.region (Js.isPartialInv_behind start)

@[simp] lemma entries_get_behind (key : String) :
    (db.behind start).entries.get key = db.entries.get (start ++ key) :=
  OrdMap.get_region (Js.isPartialInv_behind start) _ _

@[simp] lemma get_behind (key : String) : (db.behind start).get key = db.get (start ++ key) := by
  rw [get, entries_get_behind]
  rfl

@[simp] lemma ttl_behind (key : String) : (db.behind start).ttl key = db.ttl (start ++ key) := by
  rw [ttl, entries_get_behind]
  rfl

lemma behind_second : db.second.behind start = (db.behind start).second :=
  Strings.ext (OrdMap.region_filterMapValues (Js.isPartialInv_behind start) _ _)

/-- A write as the strings behind the prefix see it. -/
def Write.behind (w : Write) : Option Write := (Js.behind start w.1).map (·, w.2)

lemma behind_write (w : Write) :
    (db.write w).behind start =
      (w.behind start).elim (db.behind start) (db.behind start).write := by
  have hinv := Js.isPartialInv_behind start
  obtain ⟨key, entry⟩ := w
  cases hkey : Js.behind start key with
  | none =>
      rw [Write.behind, hkey]
      cases entry with
      | none => exact Strings.ext (OrdMap.region_delete_of_none hinv _ hkey)
      | some entry => exact Strings.ext (OrdMap.region_set_of_none hinv _ hkey entry)
  | some rest =>
      obtain rfl := Js.behind_eq_some_iff.mp hkey
      rw [Write.behind, hkey]
      cases entry with
      | none => exact Strings.ext (OrdMap.region_delete hinv _ rest)
      | some entry => exact Strings.ext (OrdMap.region_set hinv _ rest entry)

/-- **Writes change the strings behind a prefix by those among them that start with it.** -/
lemma behind_writes (all : List Write) :
    (db.writes all).behind start =
      (db.behind start).writes (all.filterMap (Write.behind start)) := by
  induction all generalizing db with
  | nil => rfl
  | cons w all ih =>
      rw [writes, List.foldl_cons]
      refine ih.trans ?_
      rw [behind_write]
      cases hw : w.behind start with
      | none => rw [List.filterMap_cons_none hw, Option.elim_none]
      | some w' =>
          rw [List.filterMap_cons_some hw, Option.elim_some]
          rfl

lemma behind_writes_of_none {all : List Write} (h : ∀ w ∈ all, Js.behind start w.1 = none) :
    (db.writes all).behind start = db.behind start := by
  have hnil : all.filterMap (Write.behind start) = [] := by
    rw [List.filterMap_eq_nil_iff]
    intro w hw
    rw [Write.behind, h w hw]
    rfl
  rw [behind_writes, hnil]
  rfl

/-- `DEL` of names with the prefix. -/
lemma del_behind (keys : List String) :
    ((db.behind start).del keys).1 = (db.del (keys.map (start ++ ·))).1 := by
  induction keys generalizing db with
  | nil => rfl
  | cons key keys ih =>
      have hdelete : ({ entries := (db.behind start).entries.delete key } : Strings) =
          behind start { entries := db.entries.delete (start ++ key) } :=
        Strings.ext (OrdMap.region_delete (Js.isPartialInv_behind start) _ key).symm
      have hhas : (db.behind start).entries.has key = db.entries.has (start ++ key) := by
        rw [OrdMap.has, entries_get_behind]
        rfl
      rw [List.map_cons, del, del, hdelete, hhas]
      exact congrArg (· + _) ih

/-- `KEYS` of a literal prefix and a pattern. -/
lemma keys_behind (h : ∀ c ∈ start.toList, c ∉ metacharacters) (pattern : String) :
    db.keys (start ++ pattern) = ((db.behind start).keys pattern).map (start ++ ·) := by
  have htest (name : String) : Glob.test (pieces none (start ++ pattern).toList) name.toList =
      (Js.behind start name).elim false
        fun rest => Glob.test (pieces none pattern.toList) rest.toList := by
    rw [String.toList_append, pieces_literal h, Bool.eq_iff_iff, Glob.test_iff_matches,
      Glob.matches_literal_append_iff]
    cases hname : Js.behind start name with
    | none =>
        simp only [Option.elim_none, Bool.false_eq_true, iff_false]
        rintro ⟨rest, hrest, -⟩
        have hsome : Js.behind start name = some (String.ofList rest) := by
          rw [Js.behind_eq_some_iff, ← String.toList_inj, String.toList_append, hrest,
            String.toList_ofList]
        rw [hsome] at hname
        cases hname
    | some rest =>
        rw [Option.elim_some, Glob.test_iff_matches, ← Js.behind_eq_some_iff.mp hname]
        simp
  rw [keys, keys, behind, OrdMap.keys_region]
  exact Function.IsPartialInv.filter_eq (Js.isPartialInv_behind start) htest _

end Strings

end Redis
