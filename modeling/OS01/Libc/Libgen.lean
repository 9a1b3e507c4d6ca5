import Mathlib.Data.List.DropRight
import OS01.Fs.Resolution

/-!
# `dirname` and `basename`

`libc/libgen/libgen.c`. Both strip the trailing slashes and look for the last slash that is left (`cut`). `basename` is
what POSIX says. `dirname` returns the path itself when that slash is its first character, and keeps the slashes in front
of it when there are several: `libgen_posix_iff` says for which paths it is right.
-/

namespace OS01.Libc

open List Fs Fs.VfsTree

/-- The loop that strips trailing slashes down to one character, on the characters from the last one on. -/
def stripSlashes : Path → Path
  | a :: b :: s => if a = slash then stripSlashes (b :: s) else a :: b :: s
  | s => s

/-- The loop of `strrchr`, for a character other than NUL. -/
def strrchr (c : UInt8) : Path → Nat → Option Nat → Option Nat
  | [], _, last => last
  | a :: s, i, last => strrchr c s (i + 1) (if a = c then some i else last)

/-- What `dirname` and `basename` share: they differ in what they make of a path without a slash and of one with a slash
at a place. -/
def cut (path : Path) (alone : Path → Path) (split : Path → Nat → Path) : Path :=
  if path = [] then [dot]
  else
    let path := (stripSlashes path.reverse).reverse
    if path = [slash] then path
    else
      match strrchr slash path 0 none with
      | none => alone path
      | some i => split path i

/-- `dirname`. -/
def dirname (path : Path) : Path := cut path (fun _ => [dot]) fun path i => if i = 0 then path else path.take i

/-- `basename`. -/
def basename (path : Path) : Path := cut path id fun path i => path.drop (i + 1)

/-- The path without its trailing slashes. -/
def trimmed (p : Path) : Path := p.rdropWhile (· == slash)

/-- The path up to its last component. -/
def upToLast (p : Path) : Path := (trimmed p).rdropWhile (· != slash)

/-- The directory part: `.` without a slash, `/` if only slashes are left. -/
def directory (p : Path) : Path :=
  if p ≠ [] ∧ trimmed p = [] then [slash]
  else if upToLast p = [] then [dot]
  else if trimmed (upToLast p) = [] then [slash]
  else trimmed (upToLast p)

/-- `dirname` and `basename` are as POSIX has them, and make up the path again. -/
structure Posix (p : Path) : Prop where
  base : basename p = (components p).getLast?.getD (if p = [] then [dot] else [slash])
  dir : dirname p = directory p
  recompose : components p ≠ [] → names (dirname p ++ slash :: basename p) = names p

variable {p a c : Path} {alone : Path → Path} {split : Path → Nat → Path}

lemma stripSlashes_eq (s : Path) : stripSlashes s =
    if s.dropWhile (· == slash) = [] then s.take 1 else s.dropWhile (· == slash) := by
  induction s using stripSlashes.induct with
  | case1 b s ih =>
    rw [stripSlashes, ih]
    by_cases hb : b = slash <;> simp [hb]
  | case2 a b s ha => rw [stripSlashes, if_neg ha, dropWhile_cons_of_neg (by simpa using ha), if_neg (cons_ne_nil _ _)]
  | case3 s hs =>
    obtain _ | ⟨a, _ | ⟨b, s⟩⟩ := s
    · rfl
    · by_cases ha : a = slash <;> simp [stripSlashes, ha]
    · exact absurd rfl (hs a b s)

lemma strrchr_concat (b : UInt8) (s : Path) (i : Nat) (last : Option Nat) :
    strrchr slash (s ++ [b]) i last = if b = slash then some (i + s.length) else strrchr slash s i last := by
  induction s generalizing i last with
  | nil => rfl
  | cons a s ih =>
    rw [cons_append, strrchr, ih, strrchr, length_cons, Nat.add_right_comm, Nat.add_assoc]

/-- A string is cut at its last slash. -/
lemma strrchr_cases (t : Path) : ∃ c, slash ∉ c ∧
    (t = c ∧ strrchr slash t 0 none = none ∧ t.rdropWhile (· != slash) = [] ∨
      ∃ a, t = a ++ slash :: c ∧ strrchr slash t 0 none = some a.length ∧
        t.rdropWhile (· != slash) = a ++ [slash]) := by
  induction t using reverseRecOn with
  | nil => exact ⟨[], not_mem_nil, .inl ⟨rfl, rfl, rfl⟩⟩
  | append_singleton t b ih =>
    rw [strrchr_concat, rdropWhile_concat]
    by_cases hb : b = slash
    · subst hb
      exact ⟨[], not_mem_nil, .inr ⟨t, rfl, by simp, by simp⟩⟩
    · rw [if_neg hb, if_pos (by simpa using hb)]
      obtain ⟨c, hc, ⟨rfl, hcut⟩ | ⟨a, rfl, hcut⟩⟩ := ih
      · exact ⟨_, by simp [hc, Ne.symm hb], .inl ⟨rfl, hcut⟩⟩
      · exact ⟨c ++ [b], by simp [hc, Ne.symm hb], .inr ⟨a, by simp, hcut⟩⟩

/-- What is cut: only slashes, or a last component, alone or behind a slash. -/
lemma cut_cases (p : Path) : (trimmed p = [] ∧ ∀ alone split, cut p alone split = if p = [] then [dot] else [slash]) ∨
    ∃ c, c ≠ [] ∧ slash ∉ c ∧ (trimmed p = c ∧ upToLast p = [] ∧ (∀ alone split, cut p alone split = alone c) ∨
      ∃ a, trimmed p = a ++ slash :: c ∧ upToLast p = a ++ [slash] ∧
        ∀ alone split, cut p alone split = split (a ++ slash :: c) a.length) := by
  have hstrip : (stripSlashes p.reverse).reverse = if trimmed p = [] then (p.reverse.take 1).reverse else trimmed p := by
    rw [stripSlashes_eq, apply_ite reverse]
    simp [trimmed, rdropWhile]
  by_cases ht : trimmed p = []
  · refine .inl ⟨ht, fun alone split => ?_⟩
    rw [cut, hstrip, if_pos ht]
    obtain rfl | ⟨q, b, rfl⟩ := eq_nil_or_concat' p
    · rfl
    · have hb : b = slash := by simpa using rdropWhile_eq_nil_iff.1 ht b (by simp)
      simp [hb]
  rw [if_neg ht] at hstrip
  have hp : p ≠ [] := by
    rintro rfl
    exact ht rfl
  obtain ⟨c, hc, hcut⟩ := strrchr_cases (trimmed p)
  have hne : c ≠ [] := by
    rintro rfl
    obtain ⟨hnil, -⟩ | ⟨a, ha, -⟩ := hcut
    · exact ht hnil
    · refine rdropWhile_last_not (· == slash) p ht ?_
      simp [← trimmed.eq_1, ha]
  refine .inr ⟨c, hne, hc, ?_⟩
  obtain ⟨hnil, hf, hup⟩ | ⟨a, ha, hf, hup⟩ := hcut
  · refine .inl ⟨hnil, hup, fun alone split => ?_⟩
    have hslash : c ≠ [slash] := by
      rintro rfl
      exact hc mem_cons_self
    rw [hnil] at hstrip hf
    simp [cut, hp, hstrip, hslash, hf]
  · refine .inr ⟨a, ha, hup, fun alone split => ?_⟩
    have hslash : a ++ slash :: c ≠ [slash] := by cases a <;> simp [hne]
    rw [ha] at hstrip hf
    simp [cut, hp, hstrip, hslash, hf]

lemma components_trimmed (p : Path) : components p = components (trimmed p) := by
  induction p using reverseRecOn with
  | nil => rfl
  | append_singleton p b ih =>
    by_cases hb : b = slash
    · subst hb
      rw [components_append, trimmed, rdropWhile_concat_pos _ _ _ (by simp), ← trimmed, ← ih]
      exact append_nil _
    · rw [trimmed, rdropWhile_concat_neg _ _ _ (by simpa using hb)]

lemma components_last (hne : c ≠ []) (hc : slash ∉ c) : components c = [c] := by
  rw [components, splitSlash_of_not_mem hc]
  simp [hne]

/-- The part in front of the last slash is trimmed already, or it is one slash. -/
lemma cut_right_iff (hne : c ≠ []) : (if a = [] then slash :: c else a) = (if trimmed a = [] then [slash] else trimmed a) ↔
    a = [slash] ∨ ∃ b ∈ a.getLast?, b ≠ slash := by
  obtain rfl | ⟨q, b, rfl⟩ := eq_nil_or_concat' a
  · simpa [trimmed] using hne
  rw [if_neg (by simp), trimmed, rdropWhile_concat]
  by_cases hb : b = slash
  · subst hb
    have hle := IsPrefix.length_le <| rdropWhile_prefix (· == slash) q
    have hlonger : q ++ [slash] ≠ q.rdropWhile (· == slash) := fun h => by
      rw [← h, length_append] at hle
      exact Nat.not_succ_le_self _ hle
    have hg : (q ++ [slash] = [slash] ∨ ∃ b ∈ (q ++ [slash]).getLast?, b ≠ slash) ↔ q = [] := by simp
    simp only [hg, beq_self_eq_true, if_true]
    split_ifs with hq
    · simp
    · exact iff_of_false hlonger fun hnil => hq (by rw [hnil]; rfl)
  · simp [hb]

/-- **The paths `dirname` is right for**: the last component stands alone, or behind one slash and another character, or
behind two slashes at the start. -/
theorem libgen_posix_iff (p : Path) : Posix p ↔ upToLast p = [] ∨
      ∃ a, upToLast p = a ++ [slash] ∧ (a = [slash] ∨ ∃ b ∈ a.getLast?, b ≠ slash) := by
  obtain ⟨ht, hcut⟩ | ⟨c, hne, hc, ⟨ht, hup, hcut⟩ | ⟨a, ht, hup, hcut⟩⟩ := cut_cases p
  · have hcomponents : components p = [] := by rw [components_trimmed, ht]; rfl
    refine iff_of_true ⟨?_, ?_, fun hs => absurd hcomponents hs⟩ (.inl (by rw [upToLast, ht]; rfl))
    · rw [basename, hcut, hcomponents]
      rfl
    · rw [dirname, hcut]
      by_cases hp : p = [] <;> simp [directory, ht, hp, show upToLast [] = [] from rfl]
  · have hcomponents : components p = [c] := by rw [components_trimmed, ht, components_last hne hc]
    refine iff_of_true ⟨?_, ?_, fun _ => ?_⟩ (.inl hup)
    · rw [basename, hcut, hcomponents]
      rfl
    · rw [dirname, hcut, directory, ht, if_neg fun h => hne h.2, if_pos hup]
    · rw [dirname, basename, hcut, hcut, names_append, names, names, names, hcomponents, id, components_last hne hc]
      rfl
  · have hcomponents : components p = components a ++ [c] := by
      rw [components_trimmed, ht, components_append, components_last hne hc]
    have hb : basename p = c := by
      rw [basename, hcut]
      simp
    have hdir : dirname p = if a = [] then slash :: c else a := by
      rw [dirname, hcut]
      cases a <;> simp
    have hdirectory : directory p = if trimmed a = [] then [slash] else trimmed a := by
      have htr : trimmed (a ++ [slash]) = trimmed a := rdropWhile_concat_pos _ _ _ (by simp)
      simp [directory, ht, hup, htr]
    have hright := cut_right_iff (a := a) hne
    rw [← hdir, ← hdirectory] at hright
    simp only [hup, append_eq_nil_iff, cons_ne_self, and_false, false_or, append_left_inj, exists_eq_left']
    rw [← hright]
    refine ⟨Posix.dir, fun h => ⟨by simp [hb, hcomponents], h, fun _ => ?_⟩⟩
    have ha : a ≠ [] := by
      rintro rfl
      simpa using hright.1 h
    rw [hdir, if_neg ha, hb, names, names, components_append, components_last hne hc, hcomponents]

/-- `/a`, whose directory is given as `/a`. -/
theorem dirname_of_absolute : ¬ Posix [slash, 97] := fun h => absurd h.dir (by decide)

end OS01.Libc
