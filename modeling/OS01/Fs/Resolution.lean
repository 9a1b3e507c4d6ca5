import Mathlib.Algebra.GroupWithZero.Nat
import OS01.Fs.Lookup

/-!
# Path resolution through text

The walk keeps its position twice, as a node and as text. `VfsTree.Trail` says that the two agree:
the text, read as names from the root, leads to the node without a link on the way. Each component
keeps this, also `..`, which cuts the text where it steps to the parent; so splicing the text with the
target of a link and starting over gives what resolving the target in the directory of the link
gives. The lookup differs from the resolution in one case: under `LOOKUP_NOFOLLOW` a link at the end
of the path is refused if `MAXSYMLINKS` links were expanded before it.
-/

namespace OS01.Fs

open List

/-! ## Splitting text -/

/-- There is a piece before the first slash. -/
lemma splitSlash_ne_nil (p : Path) : splitSlash p ≠ [] := by
  cases p with
  | nil => exact cons_ne_nil _ _
  | cons c p =>
    unfold splitSlash
    split
    · exact cons_ne_nil _ _
    · split <;> exact cons_ne_nil _ _

/-- A slash separates the pieces before it from those after it. -/
lemma splitSlash_append (p q : Path) : splitSlash (p ++ slash :: q) = splitSlash p ++ splitSlash q := by
  induction p with
  | nil => simp [splitSlash]
  | cons c p ih =>
    rw [cons_append, splitSlash, splitSlash]
    split
    · rw [ih, cons_append]
    · rw [ih]
      cases hspl : splitSlash p with
      | nil => exact absurd hspl (splitSlash_ne_nil p)
      | cons a as => rfl

variable {c : Path}

/-- A text without a slash is one piece. -/
lemma splitSlash_of_not_mem (hc : slash ∉ c) : splitSlash c = [c] := by
  induction c with
  | nil => rfl
  | cons a c ih =>
    rw [mem_cons, not_or] at hc
    rw [splitSlash, if_neg (Ne.symm hc.1), ih hc.2]

/-- The components on both sides of a slash. -/
lemma components_append (p q : Path) : components (p ++ slash :: q) = components p ++ components q := by
  rw [components, splitSlash_append, filter_append]
  rfl

/-- What a component looks like. -/
structure IsName (c : Path) : Prop where
  ne_nil : c ≠ []
  noSlash : slash ∉ c
  ne_dot : c ≠ [dot]

/-- A name is one component. -/
lemma components_name (hc : IsName c) : components c = [c] := by
  rw [components, splitSlash_of_not_mem hc.noSlash]
  simp [hc.ne_nil]

/-- No character of a name is a slash. -/
lemma IsName.all (hc : IsName c) : ∀ a ∈ c, decide (a ≠ slash) = true :=
  fun _ ha => decide_eq_true fun heq => hc.noSlash (heq ▸ ha)

namespace VfsTree

/-- The names on both sides of a slash. -/
lemma names_append (p q : Path) : names (p ++ slash :: q) = names p ++ names q := by
  rw [names, components_append, filter_append]
  rfl

/-- A name is one name. -/
lemma names_name (hc : IsName c) : names c = [c] := by
  rw [names, components_name hc]
  simp [hc.ne_dot]

/-- The empty path has no names. -/
lemma names_nil : names [] = [] := by decide

/-- The root has no names. -/
lemma names_slash : names [slash] = [] := by decide

variable {p path : Path} {cur k : Nat} {rest cs : List Path}

/-- No piece has a slash. -/
lemma slash_not_mem_splitSlash (hc : c ∈ splitSlash p) : slash ∉ c := by
  induction p generalizing c with
  | nil =>
    rw [splitSlash, mem_singleton] at hc
    rw [hc]
    exact not_mem_nil
  | cons a p ih =>
    rw [splitSlash] at hc
    split at hc
    · obtain rfl | hc := mem_cons.1 hc
      · exact not_mem_nil
      · exact ih hc
    next ha =>
    split at hc
    · next hnil => exact absurd hnil (splitSlash_ne_nil p)
    · next q qs hq =>
      obtain rfl | hc := mem_cons.1 hc
      · rw [mem_cons, not_or]
        exact ⟨Ne.symm ha, ih (hq ▸ mem_cons_self ..)⟩
      · exact ih (hq ▸ mem_cons_of_mem _ hc)

/-- The names of a path are names. -/
lemma isName_of_mem (hc : c ∈ names p) : IsName c := by
  rw [names, mem_filter, components, mem_filter] at hc
  obtain ⟨⟨hspl, hne⟩, hdot⟩ := hc
  exact ⟨of_decide_eq_true hne, slash_not_mem_splitSlash hspl, of_decide_eq_true hdot⟩

/-- The names joined by slashes. -/
def joined (cs : List Path) : Path := List.intercalate [slash] cs

/-- A name in front of others, joined. -/
lemma joined_cons (c : Path) (hcs : cs ≠ []) : joined (c :: cs) = c ++ slash :: joined cs := by
  unfold joined
  rw [intercalate_cons_of_ne_nil hcs, append_assoc, singleton_append]

/-- One name, joined. -/
lemma joined_singleton (c : Path) : joined [c] = c := by
  unfold joined
  rw [intercalate_singleton]

/-- Joining names and taking the components gives the names back. -/
lemma components_joined (hcs : ∀ c ∈ cs, IsName c) : components (joined cs) = cs := by
  induction cs with
  | nil => decide
  | cons c cs ih =>
    have hc := hcs c (mem_cons_self ..)
    by_cases hnil : cs = []
    · rw [hnil, joined_singleton, components_name hc]
    · rw [joined_cons c hnil, components_append, components_name hc,
        ih fun c hc => hcs c (mem_cons_of_mem _ hc), singleton_append]

/-- Joining names and taking the names gives them back. -/
lemma names_joined (hcs : ∀ c ∈ cs, IsName c) : names (joined cs) = cs := by
  rw [names, components_joined hcs, filter_eq_self]
  exact fun c hc => decide_eq_true (hcs c hc).ne_dot

/-- The normal form of an absolute path. -/
lemma normalize_absolute (hp : p.head? = some slash) : normalizeVfsPath p = slash :: joined (names p) := by
  have hnms : ∀ c ∈ names p, IsName c := fun c hc => isName_of_mem hc
  unfold normalizeVfsPath
  simp only [hp]
  refine if_neg fun ⟨_, r, hr⟩ => ?_
  -- a last component `.` would be one of the names
  change r ++ slash :: [dot] = slash :: joined (names p) at hr
  have hcm : names p = components r ++ [[dot]] :=
    calc names p = components ([] ++ slash :: joined (names p)) := by
          rw [components_append, components_joined hnms]
          rfl
      _ = components (r ++ slash :: [dot]) := by rw [hr, nil_append]
      _ = components r ++ [[dot]] := components_append r [dot]
  have hmem : [dot] ∈ names p := by
    rw [hcm]
    exact mem_append_right _ (mem_singleton_self _)
  exact (hnms _ hmem).ne_dot rfl

/-! ## Taking text apart -/

/-- A slash in front is skipped. -/
lemma nextComponent_slash (p : Path) : nextComponent (slash :: p) = nextComponent p := by
  unfold nextComponent
  rw [dropWhile_cons_of_pos rfl]

section

variable (hc : IsName c)
include hc

/-- A text that starts with a name has no slash to skip. -/
lemma nextComponent_name (p : Path) :
    nextComponent (c ++ p) = some ((c ++ p).takeWhile fun a => decide (a ≠ slash),
      ((c ++ p).dropWhile fun a => decide (a ≠ slash)).drop 1) := by
  obtain ⟨a, as, rfl⟩ := exists_cons_of_ne_nil hc.ne_nil
  have ha : decide (a = slash) = false := by
    have := hc.all a (mem_cons_self ..)
    simpa using this
  unfold nextComponent
  rw [cons_append, dropWhile_cons_of_neg (by simp [ha])]

/-- The last component of a path. -/
lemma nextComponent_last : nextComponent c = some (c, []) := by
  have hn := nextComponent_name hc []
  rw [takeWhile_append_of_pos hc.all, dropWhile_append_of_pos hc.all] at hn
  simpa using hn

/-- A component with more behind it. -/
lemma nextComponent_more (p : Path) : nextComponent (c ++ slash :: p) = some (c, p) := by
  rw [nextComponent_name hc, takeWhile_append_of_pos hc.all,
    dropWhile_append_of_pos hc.all, takeWhile_cons_of_neg (by simp),
    dropWhile_cons_of_neg (by simp), append_nil, drop_one, tail_cons]

/-- The last slash of a text that ends in a name. -/
lemma lastSlash_name (q : Path) : lastSlash (q ++ slash :: c) = q.length := by
  have hall : ∀ a ∈ c.reverse, decide (a ≠ slash) = true := fun a ha => hc.all a (mem_reverse.1 ha)
  unfold lastSlash
  rw [reverse_append, reverse_cons, append_assoc, takeWhile_append_of_pos hall,
    singleton_append, takeWhile_cons_of_neg (by simp), append_nil, length_reverse, length_append, length_cons]
  omega

/-- The last name of a path is dropped. -/
lemma dropComponent_name (q : Path) :
    dropComponent (q ++ slash :: c) = if q = [] then [slash] else q := by
  have hlen : 1 < (q ++ slash :: c).length := by
    have := length_pos_iff.2 hc.ne_nil
    rw [length_append, length_cons]
    omega
  unfold dropComponent
  rw [if_pos hlen, lastSlash_name hc]
  by_cases hq : q = []
  · rw [hq]
    rfl
  · rw [if_neg (by simpa using hq), if_neg hq, take_left]

/-- The directory of a path is what is before its last name. -/
lemma dirname_name (q : Path) :
    dirname (q ++ slash :: c) = if q = [] then [slash] else q := by
  unfold dirname
  rw [if_pos (by simp), lastSlash_name hc]
  by_cases hq : q = []
  · rw [hq]
    rfl
  · rw [if_neg (by simpa using hq), if_neg hq, take_left]

end

/-! ## The walk -/

variable {t : VfsTree} {nofollow : Bool} {q consumed suffix : Path} {st cs : List Path} {d n : Nat}

/-- A text, the names in it, and the node they lead to from the root without a link on the way. -/
inductive Trail (t : VfsTree) : Path → List Path → Nat → Prop
  | top : Trail t [] [] t.root
  | topSlash : Trail t [slash] [] t.root
  | step {q : Path} {st : List Path} {d n : Nat} {c : Path} :
      Trail t q st d → t.kind d = .dir → IsName c → c ≠ dotdot → t.child d c = .ok n →
      t.kind n ≠ .symlink → Trail t (q ++ slash :: c) (st ++ [c]) n

section

variable (h : Trail t q st n)
include h

/-- A place that the walk has come to is no link. -/
lemma Trail.not_symlink : t.kind n ≠ .symlink := by
  cases h with
  | top | topSlash => simp [t.root_dir]
  | step _ _ _ _ _ hn => exact hn

/-- The text of a place has its names. -/
lemma Trail.names_eq : names q = st := by
  induction h with
  | top => exact names_nil
  | topSlash => exact names_slash
  | step _ _ hc _ _ _ ih => rw [names_append, names_name hc, ih]

/-- The text of a place is absolute, if there is one. -/
lemma Trail.absolute (hq : q ≠ []) : q.head? = some slash := by
  induction h with
  | top => exact absurd rfl hq
  | topSlash => rfl
  | @step q _ _ _ c _ _ _ _ _ _ ih =>
    by_cases hnil : q = []
    · rw [hnil]
      rfl
    · obtain ⟨a, as, rfl⟩ := exists_cons_of_ne_nil hnil
      exact ih hnil

/-- The empty text is at the root. -/
lemma Trail.at_root (hq : q = []) : n = t.root := by
  cases h with
  | top | topSlash => rfl
  | step => simp at hq

/-- Walking the names of a trail leads to its node. -/
lemma Trail.walk_eq (onLink : Nat → Nat → List Path → Except Int Nat) (cs : List Path) :
    t.walk nofollow onLink t.root (st ++ cs) = t.walk nofollow onLink n cs := by
  induction h generalizing cs with
  | top | topSlash => rfl
  | step _ hd _ hup hch hn ih =>
    rw [append_assoc, ih, singleton_append, walk]
    simp [hd, hup, hch, hn]

end

/-- The parent of a child is its directory, also across a mount. -/
lemma up_child (h : t.child d c = .ok n) : t.up n = d := by
  unfold child at h
  unfold up
  cases hsub : t.submount d c with
  | none =>
    rw [hsub] at h
    obtain ⟨hpar, hmnt⟩ := t.lookup_parent d c n h
    simp [hmnt, hpar]
  | some r =>
    rw [hsub] at h
    obtain rfl : r = n := by simpa using h
    obtain ⟨-, p, hmnt, hpar, -⟩ := t.submount_root d c r hsub
    simp [hmnt, hpar]

/-- Above the root is the root. -/
lemma up_root : t.up t.root = t.root := by simp [up, t.root_mountpoint, t.root_parent]

/-- `..` keeps text and node together. -/
lemma Trail.up (h : Trail t q st n) : ∃ st', Trail t (dropComponent q) st' (t.up n) := by
  cases h with
  | top =>
    rw [up_root]
    exact ⟨[], .top⟩
  | topSlash =>
    rw [up_root]
    exact ⟨[], .topSlash⟩
  | @step q st d _ c htr _ hc _ hch _ =>
    rw [up_child hch, dropComponent_name hc]
    split
    · next hq =>
      rw [htr.at_root hq]
      exact ⟨[], .topSlash⟩
    · exact ⟨st, htr⟩

/-- Dropping a component makes a path no longer. -/
lemma length_dropComponent (q : Path) : (dropComponent q).length ≤ q.length := by
  unfold dropComponent
  split
  · split
    all_goals exact length_take_le' ..
  · exact Nat.le_refl _

/-- What the walk of the code has to do with the resolution of the names from where it starts. -/
def RawOk (t : VfsTree) (nofollow : Bool) (cur : Nat) (cs : List Path) : RawResult → Prop
  | .done n => t.kind n ≠ .symlink ∧ ∀ onLink, t.walk nofollow onLink cur cs = .ok n
  | .fail e => ∀ onLink, t.walk nofollow onLink cur cs = .error e
  | .link n consumed suffix => t.kind n = .symlink ∧ ∃ q st d c rest,
      Trail t q st d ∧ IsName c ∧ consumed = q ++ slash :: c ∧ (∀ c ∈ rest, IsName c) ∧
      suffix = (if rest = [] then [] else slash :: joined rest) ∧
      ∀ onLink, t.walk nofollow onLink cur cs =
        if nofollow && decide (rest = []) then .ok n else onLink n d rest

/-- Only the resolution counts. -/
lemma RawOk.congr {cur' : Nat} {cs' : List Path} {r : RawResult} (h : RawOk t nofollow cur' cs' r)
    (hw : ∀ onLink, t.walk nofollow onLink cur cs = t.walk nofollow onLink cur' cs') :
    RawOk t nofollow cur cs r := by
  cases r with
  | done n => exact ⟨h.1, fun onLink => (hw onLink).trans (h.2 onLink)⟩
  | fail e => exact fun onLink => (hw onLink).trans (h onLink)
  | link n consumed suffix =>
    obtain ⟨hk, q, st, d, c, rest, htr, hc, hcn, hr, hsuf, hl⟩ := h
    exact ⟨hk, q, st, d, c, rest, htr, hc, hcn, hr, hsuf, fun onLink => (hw onLink).trans (hl onLink)⟩

/-- Names, joined, are not empty. -/
lemma joined_ne_nil (hcs : ∀ c ∈ cs, IsName c) (hne : cs ≠ []) : joined cs ≠ [] := by
  intro hnil
  have := names_joined hcs
  rw [hnil] at this
  exact hne this.symm

/-- The first component of names that are joined. -/
lemma nextComponent_joined (hc : IsName c) (cs : List Path) :
    nextComponent (joined (c :: cs)) = some (c, joined cs) := by
  by_cases hnil : cs = []
  · rw [hnil, joined_singleton, nextComponent_last hc]
    rfl
  · rw [joined_cons c hnil, nextComponent_more hc]

/-- The length of a name in front of others, joined. -/
lemma length_joined_cons (c : Path) (cs : List Path) (hne : cs ≠ []) :
    (joined (c :: cs)).length = c.length + 1 + (joined cs).length := by
  rw [joined_cons c hne, length_append, length_cons]
  omega

/-- **The walk over the text is the walk over the names.** -/
lemma rawWalk_ok (nofollow : Bool) (hcs : ∀ c ∈ cs, IsName c) {fuel : Nat}
    (hf : cs.length < fuel) (htr : Trail t q st cur)
    (hlen : cs ≠ [] → q.length + 1 + (joined cs).length < VFS_NAME_MAX) :
    RawOk t nofollow cur cs (rawWalk t fuel cur q (joined cs)) := by
  induction cs generalizing fuel cur q st with
  | nil =>
    obtain ⟨fuel, rfl⟩ := Nat.exists_eq_succ_of_ne_zero (Nat.ne_of_gt hf)
    exact ⟨htr.not_symlink, fun _ => rfl⟩
  | cons c cs ih =>
    obtain ⟨fuel, rfl⟩ : ∃ k, fuel = k + 1 := ⟨fuel - 1, by omega⟩
    have hc := hcs c (mem_cons_self ..)
    have hcs' : ∀ c ∈ cs, IsName c := fun x hx => hcs x (mem_cons_of_mem _ hx)
    have hf' : cs.length < fuel := by simpa using hf
    have hlen' := hlen (cons_ne_nil _ _)
    -- the length that is left, in terms of the next component
    have hcn : q.length + 1 + c.length < VFS_NAME_MAX ∧
        (cs ≠ [] → q.length + 1 + c.length + 1 + (joined cs).length < VFS_NAME_MAX) := by
      by_cases hnil : cs = []
      · rw [hnil, joined_singleton] at hlen'
        exact ⟨by omega, fun h => absurd hnil h⟩
      · rw [length_joined_cons c cs hnil] at hlen'
        exact ⟨by omega, fun _ => by omega⟩
    rw [rawWalk, nextComponent_joined hc]
    simp only [hc.ne_dot, if_false]
    by_cases hdir : t.kind cur = .dir
    · rw [if_neg (by simp [hdir])]
      by_cases hup : c = dotdot
      · rw [if_pos hup]
        obtain ⟨st', htr'⟩ := htr.up
        have hsht := length_dropComponent q
        have hok := ih hcs' hf' htr' fun hne => by
          have := hcn.2 hne
          omega
        have hw : ∀ onLink, t.walk nofollow onLink cur (c :: cs) =
            t.walk nofollow onLink (t.up cur) cs := fun onLink => by
          rw [walk]
          simp [hdir, hup]
        exact hok.congr hw
      · rw [if_neg hup]
        cases hch : t.child cur c with
        | error e =>
          intro onLink
          rw [walk]
          simp [hdir, hup, hch]
        | ok n =>
          have hw : ∀ onLink, t.walk nofollow onLink cur (c :: cs) = if t.kind n = .symlink then
                if nofollow && decide (cs = []) then .ok n else onLink n cur cs
              else t.walk nofollow onLink n cs := fun onLink => by
            rw [walk]
            simp [hdir, hup, hch]
          dsimp only
          rw [if_neg (by omega)]
          by_cases hl : t.kind n = .symlink
          · have hr : RawOk t nofollow cur (c :: cs) (.link n (q ++ slash :: c)
                (if cs = [] then [] else slash :: joined cs)) :=
              ⟨hl, q, st, cur, c, cs, htr, hc, rfl, hcs', rfl, fun onLink => (hw onLink).trans (if_pos hl)⟩
            rw [if_pos hl]
            by_cases hnil : cs = []
            · rw [if_pos hnil] at hr
              rw [if_pos (by rw [hnil]; rfl)]
              exact hr
            · have := hcn.2 hnil
              rw [if_neg hnil] at hr
              rw [if_neg (joined_ne_nil hcs' hnil), if_neg (by omega)]
              exact hr
          · rw [if_neg hl]
            have hok := ih hcs' hf' (.step htr hdir hc hup hch hl) fun hne => by
              have := hcn.2 hne
              rw [length_append, length_cons]
              omega
            exact hok.congr fun onLink => (hw onLink).trans (if_neg hl)
    · rw [if_pos hdir]
      intro onLink
      rw [walk, if_pos hdir]

/-! ## Normal forms do not get longer -/

/-- The length of strings with a slash before each. -/
def textLength (cs : List Path) : Nat := (cs.map fun c => c.length + 1).sum

/-- The length with one name more. -/
lemma textLength_cons (c : Path) (cs : List Path) : textLength (c :: cs) = c.length + 1 + textLength cs := by
  simp [textLength]

/-- The pieces of a path are as long as the path. -/
lemma textLength_splitSlash (p : Path) : textLength (splitSlash p) = p.length + 1 := by
  induction p with
  | nil => rfl
  | cons a p ih =>
    rw [splitSlash]
    split
    · rw [textLength_cons, length_nil, length_cons]
      omega
    cases hspl : splitSlash p with
    | nil => exact absurd hspl (splitSlash_ne_nil p)
    | cons c cs =>
      rw [hspl, textLength_cons] at ih
      rw [textLength_cons, length_cons, length_cons]
      omega

/-- Leaving pieces out makes a text no longer. -/
lemma textLength_filter (f : Path → Bool) (cs : List Path) : textLength (cs.filter f) ≤ textLength cs := by
  induction cs with
  | nil => exact Nat.le_refl _
  | cons c cs ih =>
    rw [filter_cons]
    split
    · rw [textLength_cons, textLength_cons]
      omega
    · rw [textLength_cons]
      omega

/-- The length of names, joined. -/
lemma length_joined (c : Path) (cs : List Path) : (joined (c :: cs)).length + 1 = textLength (c :: cs) := by
  induction cs generalizing c with
  | nil => rw [joined_singleton, textLength_cons, textLength, map_nil, sum_nil, Nat.add_zero]
  | cons a cs ih =>
    rw [length_joined_cons c _ (cons_ne_nil _ _), textLength_cons, ← ih a]
    omega

/-- A text is at least as long as its pieces are many. -/
lemma length_le_textLength (cs : List Path) : cs.length ≤ textLength cs := by
  induction cs with
  | nil => exact Nat.zero_le _
  | cons c cs ih =>
    rw [textLength_cons, length_cons]
    omega

/-- An absolute path is at least as long as its normal form. -/
lemma length_joined_names (habs : path.head? = some slash) :
    (names path).length ≤ path.length ∧ (joined (names path)).length + 1 ≤ path.length := by
  obtain ⟨p, rfl⟩ : ∃ p, path = slash :: p := by
    cases path with
    | nil => cases habs
    | cons a p => exact ⟨p, by rw [Option.some.inj habs]⟩
  have hnms : names (slash :: p) = names p := names_append [] p
  have htot : textLength (names p) ≤ p.length + 1 := by
    rw [← textLength_splitSlash p]
    exact Nat.le_trans (textLength_filter _ _) (textLength_filter _ _)
  rw [hnms, length_cons]
  cases hcs : names p with
  | nil => exact ⟨Nat.zero_le _, Nat.succ_le_succ (Nat.zero_le _)⟩
  | cons c cs =>
    rw [hcs] at htot
    have hle := length_le_textLength (c :: cs)
    have hjoined := length_joined c cs
    exact ⟨by omega, by omega⟩

/-- **`__vfs_lookup_raw`** on an absolute path that fits. -/
lemma lookupRaw_ok (nofollow : Bool) (habs : path.head? = some slash) (hlen : path.length < VFS_NAME_MAX) :
    RawOk t nofollow t.root (names path) (t.lookupRaw path) := by
  obtain ⟨hcnt, hjoined⟩ := length_joined_names habs
  have hnms : ∀ c ∈ names path, IsName c := fun c hc => isName_of_mem hc
  unfold lookupRaw
  rw [normalize_absolute habs]
  rw [if_neg (by rw [length_cons]; omega)]
  by_cases hnil : names path = []
  · have hr : slash :: joined (names path) = [slash] := by
      rw [hnil]
      rfl
    rw [hnil]
    exact ⟨by simp [t.root_dir], fun _ => rfl⟩
  rw [if_neg ?_]
  · have hs : ∀ k, rawWalk t (k + 1) t.root [] (slash :: joined (names path)) =
        rawWalk t (k + 1) t.root [] (joined (names path)) := fun k => by
      rw [rawWalk, rawWalk, nextComponent_slash]
    rw [hs]
    refine rawWalk_ok nofollow hnms ?_ .top fun _ => ?_
    · obtain ⟨c, cs, hcs⟩ := exists_cons_of_ne_nil hnil
      have hle := length_le_textLength (c :: cs)
      have hlength := length_joined c cs
      rw [hcs, length_cons (a := slash)]
      omega
    · rw [length_nil]
      omega
  · intro heq
    exact joined_ne_nil hnms hnil (cons.inj heq).2

/-! ## Splicing -/

/-- The names of the text around a link, with its target in between. -/
lemma names_spliceText (htr : Trail t q st d) (hc : IsName c) (hr : ∀ c ∈ rest, IsName c) (target : Path) :
    names (spliceText (q ++ slash :: c) target (if rest = [] then [] else slash :: joined rest)) =
      (if target.head? = some slash then [] else st) ++ (names target ++ rest) := by
  -- the end of the text is the target and the names that are left
  have hend : names (target ++ (if rest = [] then [] else slash :: joined rest)) = names target ++ rest := by
    by_cases hnil : rest = []
    · rw [if_pos hnil, hnil, append_nil, append_nil]
    · rw [if_neg hnil, names_append, names_joined hr]
  unfold spliceText
  split
  · rw [nil_append, hend]
  have hb : names (dirname (q ++ slash :: c)) = st := by
    rw [dirname_name hc, ← htr.names_eq]
    split
    · next hq => rw [hq, names_slash, names_nil]
    · rfl
  rw [append_assoc, cons_append, names_append, hb, hend]

/-- The text with the target of a link put in is absolute. -/
lemma spliceText_absolute (htr : Trail t q st d) (hc : IsName c) (target suffix : Path) :
    (spliceText (q ++ slash :: c) target suffix).head? = some slash := by
  unfold spliceText
  split
  · next habs =>
    cases target with
    | nil => cases habs
    | cons a p => exact habs
  rw [dirname_name hc]
  split_ifs with hq
  · rfl
  · obtain ⟨a, as, rfl⟩ := exists_cons_of_ne_nil hq
    exact htr.absolute hq

/-- Splicing a target in is resolving it where the link is. -/
lemma resolve_spliceText (htr : Trail t q st d) (hc : IsName c)
    (hr : ∀ c ∈ rest, IsName c) (target : Path) : t.resolve nofollow k
      (spliceText (q ++ slash :: c) target (if rest = [] then [] else slash :: joined rest)) =
    t.walk nofollow (t.expand nofollow k) (if target.head? = some slash then t.root else d)
      (names target ++ rest) := by
  unfold resolve
  rw [names_spliceText htr hc hr]
  split
  · rfl
  · exact htr.walk_eq _ _

/-! ## The loop over links -/

/-- A link at the end of the path, not to be followed, comes after the last expansion there may
be. -/
def Late (t : VfsTree) (nofollow : Bool) (k : Nat) (path : Path) : Prop :=
  nofollow = true ∧ (∃ n, t.kind n = .symlink ∧ t.resolve nofollow k path = .ok n) ∧
    (k ≠ 0 → t.resolve nofollow (k - 1) path = .error (-ELOOP))

/-- The result is what it should be. -/
def Right (t : VfsTree) (nofollow : Bool) (k : Nat) (path : Path) : Prop :=
  t.resolveLoop nofollow k path = t.resolve nofollow k path ∨
    t.resolveLoop nofollow k path = .error (-ENAMETOOLONG) ∧ t.Overlong nofollow k path

/-- A link is replaced by its target: the loop goes on with the spliced path, as the resolution goes
on in the directory of the link. -/
lemma right_splice (hlp : t.resolveLoop nofollow (k + 1) path = t.resolveLoop nofollow k p)
    (hrsv : t.resolve nofollow (k + 1) path = t.resolve nofollow k p)
    (hl : k ≠ 0 → t.resolve nofollow k path = t.resolve nofollow (k - 1) p)
    (hfst : k = 0 → t.resolve nofollow k path = .error (-ELOOP))
    (ho : t.Overlong nofollow (k + 1) path ↔ t.Overlong nofollow k p)
    (ih : t.Right nofollow k p ↔ ¬(t.Late nofollow k p ∧ ¬t.Overlong nofollow k p)) :
    t.Right nofollow (k + 1) path ↔ ¬(t.Late nofollow (k + 1) path ∧ ¬t.Overlong nofollow (k + 1) path) := by
  have hlt : t.Late nofollow (k + 1) path ↔ t.Late nofollow k p := by
    unfold Late
    rw [hrsv, Nat.add_sub_cancel]
    by_cases hk : k = 0
    · rw [hfst hk]
      simp [hk]
    · simp [hl hk, hk]
  unfold Right at ih ⊢
  rw [hlp, hrsv, ho, hlt]
  exact ih

/-- The walk ends without a link, so nothing depends on expansions. -/
lemma right_of_const {r : Except Int Nat}
    (hlp : t.resolveLoop nofollow k path = r) (hrsv : ∀ j, t.resolve nofollow j path = r)
    (hlt : k ≠ 0 ∧ r ≠ .error (-ELOOP) ∨ ∀ n, r = .ok n → t.kind n ≠ .symlink) :
    t.Right nofollow k path ↔ ¬(t.Late nofollow k path ∧ ¬t.Overlong nofollow k path) := by
  have hnot : ¬t.Late nofollow k path := by
    rintro ⟨-, ⟨n, hn, hr⟩, hl⟩
    obtain ⟨hk, hne⟩ | hkn := hlt
    · exact hne ((hrsv _).symm.trans (hl hk))
    · exact hkn n ((hrsv k).symm.trans hr) hn
  refine ⟨fun _ h => hnot h.1, fun _ => .inl (hlp.trans (hrsv k).symm)⟩

/-- **The loop of `vfs_lookup_resolved`**: the result is right unless a link that is not to be followed
comes too late. -/
lemma resolveLoop_right (t : VfsTree) (nofollow : Bool) (k : Nat) (habs : path.head? = some slash)
    (hlen : path.length < VFS_NAME_MAX) : t.Right nofollow k path ↔
      ¬(t.Late nofollow k path ∧ ¬t.Overlong nofollow k path) := by
  induction k using Nat.strongRecOn generalizing path with | _ k ih =>
  have hraw := lookupRaw_ok (t := t) nofollow habs hlen
  cases hr : t.lookupRaw path with
  | done n =>
    rw [hr] at hraw
    refine right_of_const (by cases k <;> simp [resolveLoop, hr]) (fun j => hraw.2 _) (.inr ?_)
    rintro m ⟨⟩
    exact hraw.1
  | fail e =>
    rw [hr] at hraw
    exact right_of_const (by cases k <;> simp [resolveLoop, hr]) (fun j => hraw _) (.inr (by simp))
  | link n consumed suffix =>
    rw [hr] at hraw
    obtain ⟨hkn, q, st, d, c, rest, htr, hc, hcn, hrs, hsuf, hw⟩ := hraw
    obtain _ | k := k
    · have hlp : t.resolveLoop nofollow 0 path = .error (-ELOOP) := by
        simp [resolveLoop, hr]
      have hrsv : t.resolve nofollow 0 path = _ := hw _
      unfold Right Late
      rw [hlp, hrsv]
      by_cases hend : (nofollow && decide (rest = [])) = true
      · have hno : nofollow = true := by
          simp only [Bool.and_eq_true] at hend
          exact hend.1
        rw [if_pos hend]
        simp [Overlong, hno, hkn]
      · rw [if_neg hend]
        simp [expand]
    have hrsv : ∀ j, t.resolve nofollow j path = _ := fun j => hw _
    have hend : decide (suffix = []) = decide (rest = []) := by
      rw [hsuf]
      split <;> simp [*]
    by_cases hfin : (nofollow && decide (rest = [])) = true
    · refine right_of_const (r := .ok n) ?_ (fun j => (hrsv j).trans (if_pos hfin))
        (.inl ⟨Nat.succ_ne_zero k, by simp⟩)
      simp only [resolveLoop, hr, hend, if_pos hfin]
    have hop : ¬(nofollow = true ∧ suffix = []) := by
      rintro ⟨hno, hnil⟩
      rw [← hend, hno, decide_eq_true hnil] at hfin
      exact hfin rfl
    replace hrsv := fun j => (hrsv j).trans (if_neg hfin)
    cases hrd : t.readlink n with
    | error e =>
      have hlp : t.resolveLoop nofollow (k + 1) path = .error e := by
        simp only [resolveLoop, hr, hend, if_neg hfin, hrd]
      have hres : t.resolve nofollow (k + 1) path = .error e := by
        rw [hrsv, expand, hrd]
      unfold Right Late
      rw [hlp, hres]
      simp
    | ok target =>
      have hov : t.Overlong nofollow (k + 1) path ↔ VFS_NAME_MAX - 1 ≤ target.length ∨
            VFS_NAME_MAX ≤ (spliceText consumed target suffix).length ∨
              t.Overlong nofollow k (spliceText consumed target suffix) := by
        simp [Overlong, hr, hrd, hop]
      have hln : t.Overlong nofollow (k + 1) path →
          t.resolveLoop nofollow (k + 1) path = .error (-ENAMETOOLONG) → (t.Right nofollow (k + 1) path ↔
            ¬(t.Late nofollow (k + 1) path ∧ ¬t.Overlong nofollow (k + 1) path)) :=
        fun ho hl => ⟨fun _ h => h.2 ho, fun _ => .inr ⟨hl, ho⟩⟩
      by_cases htgt : VFS_NAME_MAX - 1 ≤ target.length
      · refine hln (hov.2 (.inl htgt)) ?_
        simp only [resolveLoop, hr, hend, if_neg hfin, hrd, if_pos htgt]
      by_cases hf : VFS_NAME_MAX < (spliceText consumed target suffix).length + 1
      · refine hln (hov.2 (.inr (.inl (by omega)))) ?_
        simp only [resolveLoop, hr, hend, if_neg hfin, hrd, if_neg htgt, spliceSymlinkPath, if_pos hf]
      have hp : spliceText consumed target suffix = spliceText (q ++ slash :: c) target
          (if rest = [] then [] else slash :: joined rest) := by
        rw [hcn, hsuf]
      have hspliced : ∀ j, t.resolve nofollow (j + 1) path =
          t.resolve nofollow j (spliceText consumed target suffix) := fun j => by
        rw [hp, resolve_spliceText htr hc hrs, hrsv, expand, hrd]
      refine right_splice ?_ (hspliced k) (fun hk => ?_) (fun hk => ?_) ?_ (ih k k.lt_succ_self ?_ ?_)
      · simp only [resolveLoop, hr, hend, if_neg hfin, hrd, if_neg htgt, spliceSymlinkPath, if_neg hf]
      · obtain ⟨j, rfl⟩ := Nat.exists_eq_succ_of_ne_zero hk
        exact hspliced j
      · rw [hk, hrsv, expand]
      · rw [hov]
        constructor
        · rintro (h | h | h)
          · exact absurd h htgt
          · omega
          · exact h
        · exact fun h => .inr (.inr h)
      · rw [hp]
        exact spliceText_absolute htr hc _ _
      · omega

/-- **Path resolution.** For every mounted tree and every absolute path that fits, the lookup returns
what resolving component by component with at most `MAXSYMLINKS` expansions gives, or
`-ENAMETOOLONG` when a path on the way does not fit, if and only if it is not the case that
`LOOKUP_NOFOLLOW` is set, the path ends in a link, and `MAXSYMLINKS` links come before it. -/
theorem lookup_resolved_iff (t : VfsTree) (nofollow : Bool) (path : Path)
    (habs : path.head? = some slash) (hlen : path.length < VFS_NAME_MAX) :
    (t.vfsLookupResolved nofollow path = t.resolve nofollow MAXSYMLINKS path ∨
      t.vfsLookupResolved nofollow path = .error (-ENAMETOOLONG) ∧
        t.Overlong nofollow MAXSYMLINKS path) ↔ ¬(nofollow = true ∧
      (∃ n, t.kind n = .symlink ∧ t.resolve nofollow MAXSYMLINKS path = .ok n) ∧
      t.resolve nofollow (MAXSYMLINKS - 1) path = .error (-ELOOP) ∧
      ¬t.Overlong nofollow MAXSYMLINKS path) := by
  have hc : t.vfsLookupResolved nofollow path = t.resolveLoop nofollow MAXSYMLINKS path := if_neg (by omega)
  have hrt := resolveLoop_right t nofollow MAXSYMLINKS habs hlen
  unfold Right at hrt
  rw [hc, hrt]
  have hne : MAXSYMLINKS ≠ 0 := by decide
  simp [Late, hne]

/-- A root directory with one entry `l`, a link to `/`. -/
def selfLink : VfsTree where
  root := 0
  kind n := if n = 0 then .dir else .symlink
  submount _ _ := none
  lookup d name := if d = 0 ∧ name = [108] then .ok 1 else .error (-ENOENT)
  parent n := if n = 1 then some 0 else none
  mountpoint _ := none
  readlink _ := .ok [slash]
  root_dir := rfl
  root_parent := rfl
  root_mountpoint := rfl
  lookup_parent d name n h := by
    split at h
    · next hd =>
      obtain rfl : 1 = n := by simpa using h
      exact ⟨by rw [if_pos rfl, hd.1], rfl⟩
    · cases h
  submount_root _ _ _ h := by cases h

/-- The path `/l/l/…` with a number of links. -/
def linkPath (k : Nat) : Path := (List.replicate k [slash, 108]).flatten

/-- The theorem for a path of three links. -/
theorem lookup_resolved_iff_linkPath : (linkPath 3).head? = some slash ∧ (linkPath 3).length < VFS_NAME_MAX ∧
      (selfLink.vfsLookupResolved true (linkPath 3) = selfLink.resolve true MAXSYMLINKS (linkPath 3) ∨
        selfLink.vfsLookupResolved true (linkPath 3) = .error (-ENAMETOOLONG) ∧
          selfLink.Overlong true MAXSYMLINKS (linkPath 3)) := by
  refine ⟨by decide, by decide,
    (lookup_resolved_iff selfLink true (linkPath 3) rfl (by decide)).2 fun hl => ?_⟩
  exact absurd hl.2.2.1 (by decide)

/-- Nine links, the last of them not to be followed: eight expansions are enough, but the lookup
fails. -/
theorem lookup_resolved_late : selfLink.resolve true MAXSYMLINKS (linkPath 9) = .ok 1 ∧
      selfLink.vfsLookupResolved true (linkPath 9) = .error (-ELOOP) := by
  decide

end VfsTree

end OS01.Fs
