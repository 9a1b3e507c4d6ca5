import Mathlib.Logic.Function.Basic
import OS01.Lib.Run

/-!
# The environment

`libc/stdlib/environ.c`. `environ` points to the vector the program was started with, to nothing, or
to the table of `putenv`; `setenv` fills a buffer that `environ` never points to, and `unsetenv` does
nothing. The calls behave as one map from names to values in the runs in which a `setenv` or an
`unsetenv` has nothing to change and the table shows what was visible before `environ` is moved to it.
-/

namespace OS01.Libc.Environ

open Function Lib List

/-- A C string without its NUL. -/
abbrev Str := List UInt8

/-- The equals sign. -/
def equals : UInt8 := 61

/-- What `environ` points to. -/
inductive Vector
  | null
  | inherited
  | table

/-- The static variables of the file. -/
structure Env where
  environ : Vector
  inherited : List Str
  /-- `env_buf`, up to the `env_count` of `setenv` -/
  buf : List Str
  /-- `env_table`, up to the `env_count` of `putenv` -/
  table : List Str
  capacity : Nat

/-- The strings `environ` leads to, up to the null pointer. -/
def Env.strings (s : Env) : List Str :=
  match s.environ with
  | .null => []
  | .inherited => s.inherited
  | .table => s.table

/-- The test of `getenv` and `putenv`: the entry starts with the name and an equals sign. -/
def named (name entry : Str) : Bool := (name ++ [equals]).isPrefixOf entry

/-- The value of the first entry of a name. -/
def lookup (strings : List Str) (name : Str) : Option Str :=
  (strings.find? (named name)).map (drop (name.length + 1))

/-- `getenv`. -/
def getenv (s : Env) (name : Str) : Option Str := lookup s.strings name

/-- `MAX_ENV`. -/
def maxEnv : Nat := 32

/-- `setenv`. -/
def setenv (s : Env) (name value : Str) (overwrite : Bool) : Env × Int :=
  if (getenv s name).isSome ∧ !overwrite then (s, 0)
  else if maxEnv ≤ s.buf.length then (s, -1)
  else if 255 ≤ name.length + 1 + value.length then (s, -1)
  else ({ s with buf := s.buf ++ [name ++ equals :: value] }, 0)

/-- `clearenv`. -/
def clearenv (s : Env) : Env := { s with environ := .null }

/-- `unsetenv`. -/
def unsetenv (s : Env) (_name : Str) : Env := s

/-- The part of a string in front of its first equals sign. -/
def key (string : Str) : Str := string.takeWhile (· != equals)

/-- The loop of `putenv` over the table: the first entry of the name makes way for the string. -/
def replaceEntry (name string : Str) : List Str → Option (List Str)
  | [] => none
  | entry :: table =>
    if named name entry then some (string :: table)
    else (replaceEntry name string table).map (entry :: ·)

/-- `putenv`; `memory` is whether `realloc` succeeds. -/
def putenv (s : Env) (string : Str) (memory : Bool) : Env × Int :=
  if equals ∉ string then (s, -1)
  else
    match replaceEntry (key string) string s.table with
    | some table => ({ s with table }, 0)
    | none =>
      let full := s.capacity < s.table.length + 2
      if full ∧ !memory then (s, -1)
      else
        ({ s with
            environ := .table
            table := s.table ++ [string]
            capacity :=
              if full then if s.capacity = 0 then 16 else s.capacity * 2 else s.capacity }, 0)

/-! ## Lookups -/

variable {n k v e : Str} {t t' : List Str} {s : Env}

/-- An entry of a name is the name, an equals sign and a value. -/
lemma named_iff : named n e ↔ ∃ v, e = n ++ equals :: v := by
  rw [named, isPrefixOf_iff_prefix, IsPrefix]
  simp [eq_comm]

/-- The first entry of a name hides later ones. -/
lemma lookup_cons : lookup (e :: t) n = if named n e then some (e.drop (n.length + 1)) else lookup t n := by
  split <;> simp_all [lookup]

/-- The loop finds nothing exactly if the name has no entry. -/
lemma replaceEntry_eq_none : replaceEntry k v t = none ↔ lookup t k = none := by
  induction t with
  | nil => simp [replaceEntry, lookup]
  | cons e t ih =>
    rw [replaceEntry, lookup_cons]
    split_ifs <;> simp [ih]

section

variable (hn : equals ∉ n)
include hn

/-- The key of an entry. -/
lemma key_append : key (n ++ equals :: v) = n := by
  have h : ∀ a ∈ n, (a != equals) = true := by
    intro a ha
    simpa using fun h : a = equals => hn (h ▸ ha)
  simp [key, takeWhile_append_of_pos h]

section

variable (hk : equals ∉ k)
include hk

/-- A string is an entry of its key and of no other name. -/
lemma named_append : named n (k ++ equals :: v) ↔ n = k := by
  rw [named_iff]
  constructor
  · rintro ⟨w, h⟩
    rw [← key_append hn, ← h, key_append hk]
  · rintro rfl
    exact ⟨v, rfl⟩

/-- A new first entry changes its own name only. -/
lemma lookup_append :
    lookup ((k ++ equals :: v) :: t) n = if n = k then some v else lookup t n := by
  rw [lookup_cons]
  simp only [named_append hn hk]
  split_ifs with h
  · simp [h]
  · rfl

/-- So does a new last entry, for a name that has none. -/
lemma lookup_concat (h : lookup t k = none) :
    lookup (t ++ [k ++ equals :: v]) n = if n = k then some v else lookup t n := by
  induction t with
  | nil => exact lookup_append hn hk
  | cons e t ih =>
    rw [lookup_cons] at h
    rw [cons_append, lookup_cons, lookup_cons]
    grind

/-- A replaced entry changes its own name only. -/
lemma lookup_replaceEntry
    (h : replaceEntry k (k ++ equals :: v) t = some t') :
    lookup t' n = if n = k then some v else lookup t n := by
  induction t generalizing t' with
  | nil => cases h
  | cons e t ih =>
    rw [replaceEntry] at h
    split_ifs at h with he
    · obtain ⟨w, rfl⟩ := named_iff.1 he
      cases h
      rw [lookup_append hn hk, lookup_append hn hk]
      split_ifs <;> rfl
    · obtain ⟨u, hu, rfl⟩ := Option.map_eq_some_iff.1 h
      rw [lookup_cons, lookup_cons]
      grind

end

end

/-- What `putenv` does with `k=v`: nothing, or the table has `v` for `k`, and `environ` points to it
unless `k` was in it before. -/
lemma putenv_cases (memory : Bool) (hk : equals ∉ k) :
    (∃ r, putenv s (k ++ equals :: v) memory = (s, r) ∧ r ≠ 0) ∨
    ∃ p t c, putenv s (k ++ equals :: v) memory = ({ s with environ := p, table := t, capacity := c }, 0) ∧
      (∀ n, equals ∉ n → lookup t n = if n = k then some v else lookup s.table n) ∧
      (p = .table ∨ p = s.environ ∧ lookup s.table k ≠ none) := by
  rw [putenv, if_neg (by simp), key_append hk]
  cases hr : replaceEntry k (k ++ equals :: v) s.table with
  | none =>
    have hl := replaceEntry_eq_none.1 hr
    dsimp only
    split_ifs
    · exact .inl ⟨-1, rfl, by decide⟩
    all_goals exact .inr ⟨_, _, _, rfl, fun n hn => lookup_concat hn hk hl, .inl rfl⟩
  | some t =>
    have hl := mt replaceEntry_eq_none.2 (hr ▸ Option.some_ne_none t)
    exact .inr ⟨_, t, _, rfl, fun n hn => lookup_replaceEntry hn hk hr, .inr ⟨rfl, hl⟩⟩

/-! ## Calls as operations on one map -/

/-- The calls that change the environment. -/
inductive Call
  | setenv (name value : Str) (overwrite : Bool)
  | putenv (string : Str) (memory : Bool)
  | unsetenv (name : Str)
  | clearenv

/-- The environment, and the map from names to values the calls are to keep. -/
abbrev State := Env × (Str → Option Str)

/-- A call on the environment, and what it is to do to the map. -/
def next (x : State) : Call → State
  | .setenv name value overwrite =>
    let r := setenv x.1 name value overwrite
    (r.1, if r.2 = 0 ∧ (overwrite ∨ x.2 name = none) then update x.2 name (some value) else x.2)
  | .putenv string memory =>
    let r := putenv x.1 string memory
    let k := key string
    (r.1, if r.2 = 0 then update x.2 k (some (string.drop (k.length + 1))) else x.2)
  | .unsetenv name => (unsetenv x.1 name, update x.2 name none)
  | .clearenv => (clearenv x.1, fun _ => none)

/-- The calls that leave the environment as the map has it: a `setenv` that fails or has nothing to
change, an `unsetenv` of an absent name, and a `putenv` that fails, or finds `environ` at its table,
or moves it there when the two agree on all other names. -/
def Kept (x : State) : Call → Prop
  | .setenv name value overwrite =>
    (setenv x.1 name value overwrite).2 ≠ 0 ∨ getenv x.1 name = some value ∨
      getenv x.1 name ≠ none ∧ overwrite = false
  | .putenv string memory =>
    (putenv x.1 string memory).2 ≠ 0 ∨ x.1.environ = .table ∨
      lookup x.1.table (key string) = none ∧
        ∀ n, equals ∉ n → n ≠ key string → lookup x.1.table n = getenv x.1 n
  | .unsetenv name => getenv x.1 name = none
  | .clearenv => True

/-- `getenv` finds what the map has. -/
def Agrees (x : State) : Prop :=
  ∀ n, equals ∉ n → getenv x.1 n = x.2 n

variable {x : State}

/-- **`setenv`.** -/
lemma setenv_agrees {name value : Str} {overwrite : Bool} (h : Agrees x)
    (hk : Kept x (.setenv name value overwrite)) : Agrees (next x (.setenv name value overwrite)) := by
  intro n hn
  have hs : getenv (setenv x.1 name value overwrite).1 n = getenv x.1 n := by
    unfold setenv
    split_ifs <;> rfl
  have := h n hn
  simp only [next, Kept] at hk ⊢
  split_ifs <;> grind [update_apply]

/-- **`putenv`.** -/
lemma putenv_agrees {string : Str} {memory : Bool} (h : Agrees x)
    (hk : Kept x (.putenv string memory)) : Agrees (next x (.putenv string memory)) := by
  intro n hn
  simp only [next, Kept] at *
  by_cases hs : equals ∈ string
  swap
  · rw [putenv, if_pos hs]
    simpa using h n hn
  obtain ⟨k, v, rfl, hv⟩ := eq_append_cons_of_mem hs
  have hm := h n hn
  rw [key_append hv] at hk ⊢
  obtain ⟨r, hr, hr'⟩ | ⟨p, t, c, hr, ht, hp⟩ := putenv_cases (s := x.1) (v := v) memory hv
  · simpa [hr, hr'] using hm
  simp only [hr, ne_eq, not_true, false_or, if_true] at hk ⊢
  have hp : p = .table := by grind
  have hg : n ≠ k → lookup x.1.table n = getenv x.1 n := by
    obtain hk | ⟨-, hk⟩ := hk
    · simp [getenv, Env.strings, hk]
    · exact hk n hn
  rw [getenv, Env.strings, hp]
  simp only [ht n hn, update_apply]
  split_ifs with hne
  · simp
  · rw [hg hne, hm]

/-- The environment a program is started with. -/
def start (environ : Option (List Str)) : Env where
  environ := if environ.isSome then .inherited else .null
  inherited := environ.getD []
  buf := []
  table := []
  capacity := 0

/-- **The environment is a map** from names to values in every run whose calls leave it as the map has it. -/
theorem environ_is_map {environ : Option (List Str)} {calls : List Call}
    (h : Run (guarded (ofFun next) Kept) (start environ, getenv (start environ)) calls x)
    (n : Str) (hn : equals ∉ n) : getenv x.1 n = x.2 n := by
  refine h.invariant (I := Agrees) (fun x call y hx => ?_) (fun _ _ => rfl) n hn
  rintro ⟨hk, rfl⟩
  cases call with
  | setenv => exact setenv_agrees hx hk
  | putenv => exact putenv_agrees hx hk
  | unsetenv name =>
    intro n hn
    have := hx n hn
    simp only [next, Kept, unsetenv] at hk ⊢
    grind
  | clearenv => exact fun _ _ => rfl

/-- Two names put, the first one again, a `setenv` that is not to overwrite it and an `unsetenv` of an absent name. -/
def exampleCalls : List Call :=
  [.putenv [65, equals, 49] true, .putenv [66, equals, 50] true, .putenv [65, equals, 51] true,
    .setenv [65] [52] false, .unsetenv [67]]

/-- The theorem for these calls. -/
theorem environ_is_map_calls :
    getenv (exampleCalls.foldl next (start none, getenv (start none))).1 [65] = some [51] ∧
      getenv (exampleCalls.foldl next (start none, getenv (start none))).1 [66] = some [50] := by
  have hrun : Run (guarded (ofFun next) Kept) (start none, getenv (start none)) exampleCalls _ :=
    .cons ⟨.inr (.inr ⟨rfl, fun _ _ _ => rfl⟩), rfl⟩ (.cons ⟨.inr (.inl rfl), rfl⟩ (.cons ⟨.inr (.inl rfl), rfl⟩
      (.cons ⟨.inr (.inr ⟨by decide, rfl⟩), rfl⟩ (.single ⟨rfl, rfl⟩))))
  exact ⟨environ_is_map hrun [65] (by decide), environ_is_map hrun [66] (by decide)⟩

/-- After `setenv("A", "1", 1)`, which returns 0, `getenv("A")` finds nothing. -/
theorem setenv_lost : ¬ Agrees (next (start none, getenv (start none)) (.setenv [65] [49] true)) := fun h =>
  absurd (h [65] (by decide)) (by decide)

end OS01.Libc.Environ
