import Mathlib.Data.List.Nodup
import OS01.Fs.TmpfsCalls
import OS01.Lib.Run

/-!
# Runs of the memory file system

The calls that read and write files, list and look up directories and give up nodes; and the
refinement: every sequence of calls with their results that meets the condition of `Tmpfs.Safe` is
one of the abstract file system, and no call reaches outside a children array.
-/

namespace OS01.Fs.Tmpfs

open Function Option Lib Block Content TmpfsNode

variable {s s' : Tmpfs} {a : AbsFs} {id d c off : Nat} {n m : TmpfsNode} {name : Path}

/-! ## Contents -/

lemma toInt32_of_lt {k : Nat} (hk : k < 2 ^ 31) : toInt32 k = k := by
  refine Int.bmod_eq_of_le ?_ ?_ <;> omega

/-- A file whose pages and size change. -/
lemma samePlace_data (hdir : n.dir = false) (bs : List Block) (size : Nat) :
    SamePlace n { n with blocks := bs, size := size } :=
  ⟨rfl, rfl, rfl, rfl, rfl, le_rfl, rfl, fun h => absurd h (by simp [hdir])⟩

section

variable (h : Ok s noRefs)
include h

section

variable (href : Refines s a)
include href

/-- A file gets new contents. -/
lemma store_good (hn : s.node id = some n) (hdir : n.dir = false) (bs : List Block) (size : Nat) :
    Ok (s.set id { n with blocks := bs, size := size }) noRefs ∧
      Refines (s.set id { n with blocks := bs, size := size })
        (update a id (some (.file (.ofBytes size (stored bs))))) := by
  have hs := samePlace_data hdir bs size
  refine ⟨h.touch hn hs s.handles (h.refs id n hn) fun _ _ => rfl,
    href.touch hn hs s.handles ?_ (h.known id n hn)⟩
  unfold Shows
  rw [if_neg (by simp [hdir])]

/-- **`tmpfs_vfs_write`.** -/
lemma write_good {data : List UInt8} {alloc : Nat → Bool}
    (hhl : s.Held id) (hs : s.Safe (.write id off data alloc)) : Good s a (.write id off data alloc) := by
  obtain ⟨n, hn⟩ := h.get hhl
  obtain ⟨hlen, hclean⟩ := hs
  obtain ⟨hdir, hz⟩ := hclean n hn
  have hf := (href.node id n hn).file hdir
  by_cases hd : data = []
  · subst hd
    refine ⟨s, .code 0, a, by simp [call, write], h, href, .inl ?_⟩
    have hop : AbsFs.Op a (.write id off [] alloc) _ _ := .write hf
    rwa [show Content.write _ off [] = _ from if_pos rfl, ← hf, update_eq_self] at hop
  have hpos := List.length_pos_of_ne_nil hd
  obtain ⟨hst, -, hall, hfl⟩ := growTo_spec alloc (List.range ((off + data.length - 1) / 4096 + 1)) n.blocks
  cases hg : growTo alloc n.blocks (List.range ((off + data.length - 1) / 4096 + 1)) with
  | mk bs ok =>
    rw [hg] at hst hall hfl
    have hend : 0 < off + data.length := by omega
    cases ok with
    | false =>
      obtain ⟨hok', href'⟩ := store_good h href hn hdir bs n.size
      refine ⟨_, .code (-1), a, ?_, hok', ?_, .inr ⟨rfl, rfl, .inl (hfl rfl)⟩⟩
      · simp only [call, write, if_neg hd, hn, bind_eq_bind, bind_some, pure_def, if_pos hend, hg]
      · rwa [hst, ← hf, update_eq_self] at href'
    | true =>
      obtain ⟨bs', hl, hstored⟩ := writeLoop_eq data.length bs off data le_rfl
        fun i h1 h2 => hall rfl _ (List.mem_range.2 (Nat.lt_succ_of_le (Nat.div_le_div_right (by omega))))
      have hsz : (if n.size < off + data.length then off + data.length else n.size) =
          max n.size (off + data.length) := by
        split <;> omega
      obtain ⟨hok', href'⟩ := store_good h href hn hdir bs' (max n.size (off + data.length))
      refine ⟨_, .code data.length, _, ?_, hok', href', .inl ?_⟩
      · simp only [call, write, if_neg hd, hn, bind_eq_bind, bind_some,
          pure_def, if_pos hend, hg, hl, hsz, toInt32_of_lt hlen]
      · have hop : AbsFs.Op a (.write id off data alloc) _ _ := .write hf
        rwa [Content.write_ofBytes hd fun i h1 h2 => hz i h2 h1, ← hst, ← hstored] at hop

/-- **`tmpfs_vfs_truncate`.** -/
lemma truncate_good {size : Nat} (hhl : s.Held id)
    (hs : s.Safe (.truncate id size)) : Good s a (.truncate id size) := by
  obtain ⟨n, hn⟩ := h.get hhl
  obtain ⟨hdir, hz⟩ := hs n hn
  have hf := (href.node id n hn).file hdir
  obtain ⟨hok', href'⟩ := store_good h href hn hdir (Block.truncate n.blocks size) size
  refine ⟨_, .code 0, _, by simp [call, truncate, hn], hok', href', .inl ?_⟩
  have hop : AbsFs.Op a (.truncate id size) _ _ := .truncate hf
  rwa [truncate_ofBytes fun i h1 h2 => hz i h2 h1,
    ← ofBytes_congr fun i hi => Block.stored_truncate hi] at hop

/-- **`tmpfs_vfs_read`.** -/
lemma read_good {len : Nat} (hhl : s.Held id)
    (hsf : s.Safe (.read id off len)) : Good s a (.read id off len) := by
  obtain ⟨n, hn⟩ := h.get hhl
  obtain ⟨hdir, hint, hhas⟩ := hsf n hn
  have hf := (href.node id n hn).file hdir
  have hop : AbsFs.Op a (.read id off len) _ _ := .read hf
  rw [read_ofBytes, List.length_map, List.length_range] at hop
  refine ⟨s, _, a, ?_, h, href, .inl hop⟩
  unfold call read
  dsimp only
  by_cases hlen : len = 0
  · simp [hlen]
  rw [if_neg hlen, hn]
  simp only [bind_eq_bind, bind_some, pure_def]
  by_cases hs : n.size ≤ off
  · have hmin : min len (n.size - off) = 0 := by omega
    rw [if_pos hs, hmin]
    rfl
  have hmin : (if n.size < off + len then n.size - off else len) = min len (n.size - off) := by
    split <;> omega
  rw [if_neg hs, hmin, readLoop_eq n.blocks _ off _ le_rfl ?_, toInt32_of_lt hint]
  intro i h1 h2
  have := hhas (i - off) (by omega)
  rwa [show off + (i - off) = i by omega] at this

/-! ## Directories and references -/

end

/-- The names of the children, in their order. -/
def names (s : Tmpfs) (n : TmpfsNode) : List Path :=
  n.children.map fun c => (s.node c).elim [] fun m => m.name

lemma listing_names (hn : s.node d = some n) {entry : Path → Option Nat}
    (hent : ∀ name c, entry name = some c ↔ c ∈ n.children ∧ s.named name c) :
    AbsFs.Listing entry (s.names n) := by
  refine ⟨?_, fun nm => ?_⟩
  · refine List.Nodup.map_on (fun c hc c' hc' heq => ?_) (h.nodup d n hn)
    obtain ⟨m, hm, hnm⟩ := h.named_of_mem hn hc
    obtain ⟨m', hm', hnm'⟩ := h.named_of_mem hn hc'
    simp only [hm, hm', elim_some] at heq
    exact h.names d n hn c hc c' hc' m.name hnm (heq ▸ hnm')
  rw [names, List.mem_map]
  constructor
  · rintro ⟨c, hc, rfl⟩
    obtain ⟨m, hm, hnm⟩ := h.named_of_mem hn hc
    rw [hm, elim_some, (hent m.name c).2 ⟨hc, hnm⟩]
    exact some_ne_none c
  intro hne
  obtain ⟨c, hc⟩ := ne_none_iff_exists'.1 hne
  obtain ⟨hmem, hnm⟩ := (hent nm c).1 hc
  obtain ⟨m, hm, -⟩ := h.child d n c hn hmem
  refine ⟨c, hmem, ?_⟩
  rw [hm]
  exact (named_iff hm).1 hnm

/-- What is shown of a node. -/
lemma shown (href : Refines s a) (hm : s.node c = some m) :
    ∃ obj, a c = some obj ∧ obj.isDir = m.dir ∧ obj.size = m.size := by
  have hshw := href.node c m hm
  cases hdir : m.dir with
  | false => exact ⟨_, hshw.file hdir, rfl, rfl⟩
  | true =>
    obtain ⟨entry, ha, -⟩ := hshw.dir hdir
    exact ⟨_, ha, rfl, (h.size c m hm hdir).symm⟩

end

/-- A directory is listed in one order: the entries of `names`, and then the end. -/
def Lists (s : Tmpfs) (a : AbsFs) (d : Nat) : Prop :=
  ∃ g entry names, a d = some (.dir g entry) ∧ AbsFs.Listing entry names ∧ ∀ k,
    (∃ name c obj, names[k]? = some name ∧ entry name = some c ∧ a c = some obj ∧
      s.readdir d (k + 2) = some (s, .dirent name obj.isDir (some obj.size) c)) ∨
    names.length ≤ k ∧ s.readdir d (k + 2) = some (s, .done)

section

variable (h : Ok s noRefs)
include h

variable (href : Refines s a)
include href

lemma lists (hn : s.node d = some n) (hdir : n.dir = true) : s.Lists a d := by
  obtain ⟨entry, ha, hent⟩ := (href.node d n hn).dir hdir
  refine ⟨_, entry, s.names n, ha, listing_names h hn hent, fun k => ?_⟩
  cases hk : n.children[k]? with
  | none =>
    refine .inr ⟨?_, by simp [readdir, hn, hdir, hk]⟩
    rw [names, List.length_map]
    exact List.getElem?_eq_none_iff.1 hk
  | some c =>
    have hmem : c ∈ n.children := List.mem_of_getElem? hk
    obtain ⟨m, hm, hnm⟩ := h.named_of_mem hn hmem
    obtain ⟨obj, hobj, hisdir, hs⟩ := shown h href hm
    refine .inl ⟨m.name, c, obj, ?_, (hent m.name c).2 ⟨hmem, hnm⟩, hobj, ?_⟩
    · rw [names, List.getElem?_map, hk]
      simp [hm]
    · simp [readdir, hn, hdir, hk, hm, hisdir, hs]

/-- **`tmpfs_vfs_readdir`.** -/
lemma readdir_good {index : Nat} (hhl : s.Held d) : Good s a (.readdir d index) := by
  obtain ⟨n, hn⟩ := h.get hhl
  cases hdir : n.dir with
  | false =>
    have hf := (href.node d n hn).file hdir
    refine .fail h href (by simp [call, readdir, hn, hdir]) rfl (.inr fun r b hop => ?_)
    cases hop with
    | readdirSelf ha | readdirParent ha | readdirTop ha | readdir ha | readdirEnd ha => cases hf.symm.trans ha
  | true =>
    obtain ⟨entry, ha, hent⟩ := (href.node d n hn).dir hdir
    rcases index with _ | _ | k
    · exact ⟨s, _, a, by simp [call, readdir, hn, hdir], h, href, .inl (.readdirSelf ha)⟩
    · cases hp : n.parent with
      | none =>
        have htop : d = 0 ∨ (n.nlink == 0) = true := by
          by_cases hd : d = 0
          · exact .inl hd
          · exact .inr (beq_iff_eq.2 ((h.linked d n hn).2 ⟨hd, hp⟩))
        exact ⟨s, _, a, by simp [call, readdir, hn, hdir, hp], h, href, .inl (.readdirTop ha htop)⟩
      | some p =>
        obtain ⟨-, k, hk, hmem⟩ := h.parent d n p hn hp
        obtain ⟨entry', ha', hd⟩ := entry_of_find href hk (h.dir_of_child hk hmem) hmem ((named_iff hn).2 rfl)
        exact ⟨s, _, a, by simp [call, readdir, hn, hdir, hp], h, href, .inl (.readdirParent ha ha' hd)⟩
    · obtain ⟨g, e, names, hae, hlisting, hall⟩ := lists h href hn hdir
      obtain ⟨nm, c, obj, hk, hc, hobj, hcl⟩ | ⟨hk, hcl⟩ := hall k
      · exact ⟨s, _, a, hcl, h, href, .inl (.readdir hae hlisting hk hc hobj)⟩
      · exact ⟨s, _, a, hcl, h, href, .inl (.readdirEnd hae hlisting hk)⟩

/-- **`tmpfs_iop_lookup`.** -/
lemma lookup_good {mem : Bool} (hhl : s.Held d) : Good s a (.lookup d name mem) := by
  obtain ⟨n, hn⟩ := h.get hhl
  cases mem with
  | false => exact .fail h href rfl (.inl rfl) (.inl rfl)
  | true =>
    cases hdir : n.dir with
    | false =>
      refine .fail (r := .code (-ENOTDIR)) h href (by simp [call, lookup, hn, hdir])
        (.inr (.inl rfl)) (.inr fun r b hop => ?_)
      cases hop with
      | lookup ha hc => exact no_entry href hn (.inl hdir) ha hc
    | true =>
      cases hf : s.findChild n name with
      | none =>
        refine .fail (r := .code (-ENOENT)) h href (by simp [call, lookup, hn, hdir, hf])
          (.inr (.inr rfl)) (.inr fun r b hop => ?_)
        cases hop with
        | lookup ha hc => exact no_entry href hn (.inr hf) ha hc
      | some i =>
        obtain ⟨c, hi, hmem, hnm⟩ := findChild_some hf
        obtain ⟨m, hm, -⟩ := h.child d n c hn hmem
        obtain ⟨entry, ha, hc⟩ := entry_of_find href hn hdir hmem hnm
        have hs : SamePlace m { m with refcount := m.refcount + 1 } :=
          ⟨rfl, rfl, rfl, rfl, rfl, le_rfl, rfl, fun _ => rfl⟩
        refine ⟨(s.touch c { m with refcount := m.refcount + 1 }
          (update s.handles c (s.handles c + 1))), .node c, a, ?_, ?_, ?_, .inl (.lookup ha hc)⟩
        · simp [call, lookup, hn, hdir, hf, hi, hm, touch, addHandle, set]
        · refine h.touch hm hs _ ?_ fun y hy => ?_
          · have := h.refs c m hm
            rw [update_self]
            dsimp only
            omega
          · rw [update_of_ne hy]
        · exact href.touch_hidden hm hs (h.known c m hm) fun _ => ⟨rfl, rfl⟩

/-- **`tmpfs_iop_evict_node`.** -/
lemma evict_good (hhl : 0 < s.handles id) : Good s a (.evict id) := by
  let s0 : Tmpfs := { s with handles := update s.handles id (s.handles id - 1) }
  have hsum : ∀ y, s0.handles y + update noRefs id 1 y = s.handles y + noRefs y := by
    intro y
    by_cases hy : y = id
    · subst hy
      simp only [s0, update_self, noRefs]
      omega
    · simp [s0, update_of_ne hy]
  have hok0 : Ok s0 (update noRefs id 1) :=
    ⟨h.root, h.known, h.child, h.nodup, h.names, h.parent, h.linked, h.empty, fun y k hy => by
        have := h.refs y k hy
        have := hsum y
        omega,
      fun y hy => h.held y (hsum y ▸ hy), h.cap, h.orphaned, h.size⟩
  obtain ⟨s', hput, hok', hrfn⟩ := hok0.put_last
  refine ⟨s', .code 0, a, ?_, hok', hrfn a ⟨href.node, href.fresh⟩, .inl .evict⟩
  simp only [call, evict]
  rw [hput]
  rfl

/-- **Every call**, in the order of the events. -/
lemma call_good (e : TmpfsEvent) (hval : s.Valid e) (hs : s.Safe e) : Good s a e := by
  cases e with
  | lookup d name mem => exact lookup_good h href hval.1
  | create d name mem grow => exact create_good h href hval.1
  | mkdir d name mem grow => exact mkdir_good h href hval.1
  | unlink d name => exact unlink_good h href hval.1 hs
  | rmdir d name => exact rmdir_good h href hval.1 hs
  | rename od oldname nd newname grow =>
    exact rename_good h href hval.1 hval.2.1 hval.2.2.2 hs
  | write id off data alloc => exact write_good h href hval.1 hs
  | truncate id newSize => exact truncate_good h href hval.1 hs
  | read id off len => exact read_good h href hval.1 hs
  | readdir d index => exact readdir_good h href hval
  | evict id => exact evict_good h href hval

end

/-! ## Runs -/

/-- A call and its result as a step. -/
def Step (s : Tmpfs) (x : TmpfsEvent × TmpfsResult) (s' : Tmpfs) : Prop :=
  s.call x.1 = some (s', x.2)

/-- The calls of a run: with live nodes and fitting arguments, and treated rightly. -/
def Allowed (s : Tmpfs) (x : TmpfsEvent × TmpfsResult) : Prop := s.Valid x.1 ∧ s.Safe x.1

/-- There is only the root at first. -/
lemma init_node {y : Nat} {k : TmpfsNode} (hy : init.node y = some k) : y = 0 ∧ k = .root := by
  change update (fun _ => none) 0 (some root) y = some k at hy
  by_cases hy0 : y = 0
  · rw [hy0] at hy
    exact ⟨hy0, (some.inj hy).symm⟩
  · rw [update_of_ne hy0] at hy
    cases hy

lemma init_ok : Ok init noRefs := by
  refine ⟨⟨.root, rfl, rfl, rfl⟩, fun y k hy => ?_, fun y k z hy hz => ?_, fun y k hy => ?_,
    fun y k hy z hz => ?_, fun y k z hy hp => ?_, fun y k hy => ?_, fun y k hy _ => ?_,
    fun y k hy => ?_, fun y hy => absurd hy (Nat.lt_irrefl 0), fun y k hy => ?_, fun y k hy ho => ?_,
    fun y k hy _ => ?_⟩ <;> obtain ⟨rfl, rfl⟩ := init_node hy
  · exact Nat.zero_lt_one
  · cases hz
  · exact List.nodup_nil
  · cases hz
  · cases hp
  · simp [root]
  · rfl
  · rfl
  · exact Nat.zero_le _
  · cases ho
  · rfl

lemma init_refines : Refines init .init := by
  refine ⟨fun y k hy => ?_, fun y hy => ?_⟩
  · obtain ⟨rfl, rfl⟩ := init_node hy
    exact ⟨fun _ => none, rfl, fun _ _ => by simp [root]⟩
  · change 1 ≤ y at hy
    exact update_of_ne (by omega) ..

/-- **Refinement.** In every run whose calls meet the condition, the calls and their results are
those of the abstract file system, every directory is listed in full and in one order, and no call
that meets the condition reaches outside a children array or a released node. -/
theorem tmpfs_refines {s : Tmpfs} {es : List (TmpfsEvent × TmpfsResult)}
    (hrun : Run (guarded Step Allowed) init es s) : (∃ a, Run AbsFs.Accepts .init es a ∧ Refines s a ∧
      ∀ d n, s.node d = some n → n.dir = true → s.Lists a d) ∧
    ∀ e, s.Valid e → s.Safe e → ∃ s' r, s.call e = some (s', r) := by
  obtain ⟨a, hsp, hok, href⟩ := hrun.simulates (R := fun s a => Ok s noRefs ∧ Refines s a)
    (fun s x s' a hR hst => by
      obtain ⟨⟨hval, hs⟩, hc⟩ := hst
      obtain ⟨s1, r, a', hc', hok', href', haccepts⟩ := call_good hR.1 hR.2 x.1 hval hs
      obtain ⟨rfl, rfl⟩ : s1 = s' ∧ r = x.2 := by
        have := hc'.symm.trans hc
        simpa using this
      exact ⟨a', haccepts, hok', href'⟩) ⟨init_ok, init_refines⟩
  refine ⟨⟨a, hsp, href, fun d n hn hdir => lists hok href hn hdir⟩, fun e hval hs => ?_⟩
  obtain ⟨s', r, -, hc, -⟩ := call_good hok href e hval hs
  exact ⟨s', r, hc⟩

/-- The state after a call. -/
def after (s : Tmpfs) (e : TmpfsEvent) : Tmpfs := (s.call e).elim s Prod.fst

/-- A call whose result is known is a step. -/
lemma step_after {e : TmpfsEvent} {r : TmpfsResult} (h : (s.call e).map Prod.snd = some r) :
    Step s (e, r) (s.after e) := by
  unfold Step after
  cases hc : s.call e with
  | none =>
    rw [hc] at h
    cases h
  | some t =>
    rw [hc] at h
    exact congrArg some (Prod.ext rfl (some.inj h))

/-- A file is made, written, read back from an offset and removed. -/
def fileLife : List (TmpfsEvent × TmpfsResult) :=
  [(.create 0 [97] true true, .node 1), (.write 1 0 [65, 66] fun _ => true, .code 2),
    (.read 1 1 9, .data 1 [66]), (.unlink 0 [97], .code 0)]

/-- The theorem for the life of a file. -/
theorem tmpfs_refines_fileLife : ∃ s, Run (guarded Step Allowed) init fileLife s ∧
      ∃ a, Run AbsFs.Accepts .init fileLife a ∧ Refines s a := by
  let s1 := init.after (.create 0 [97] true true)
  let s2 := s1.after (.write 1 0 [65, 66] fun _ => true)
  have hwrite : ∀ n ∈ s1.node 1, n.dir = false ∧ Clean n 0 := by decide
  have hr : ∀ n ∈ s2.node 1, n.dir = false ∧ min 9 (n.size - 1) < 2 ^ 31 ∧
      ∀ i < min 9 (n.size - 1), Block.Has n.blocks ((1 + i) / 4096) := by
    decide
  have hunlink : ∀ c ∈ (s2.after (.read 1 1 9)).childNamed 0 [97],
      (s2.after (.read 1 1 9)).isDir c = false := by
    decide
  have hrun : Run (guarded Step Allowed) init fileLife _ := .cons ⟨⟨by decide, trivial⟩, step_after rfl⟩
      (.cons ⟨⟨by decide, by decide, hwrite⟩, step_after rfl⟩ (.cons ⟨⟨by decide, hr⟩, step_after (by decide)⟩
          (.cons ⟨⟨by decide, hunlink⟩, step_after rfl⟩ (.nil _))))
  obtain ⟨⟨a, hs, href, -⟩, -⟩ := tmpfs_refines hrun
  exact ⟨_, hrun, a, hs, href⟩

/-- The results of calls in turn. -/
def results : Tmpfs → List TmpfsEvent → Option (List TmpfsResult)
  | _, [] => some []
  | s, e :: es => do
      let (s, r) ← s.call e
      return r :: (← s.results es)

/-- Valid calls that are treated wrongly: a file that is renamed to itself makes the code read index
-1 of an array, a byte comes back after a file is cut and grown, a hole cannot be read, `unlink`
removes a directory, and `rmdir` removes a file. -/
theorem tmpfs_refines_slips :
    (∃ s, Run (guarded Step fun s x => s.Valid x.1) init [(.create 0 [97] true true, .node 1)] s ∧
      s.Valid (.rename 0 [97] 0 [97] true) ∧ s.call (.rename 0 [97] 0 [97] true) = none) ∧
    init.results [.create 0 [97] true true, .write 1 0 [65, 66] fun _ => true, .truncate 1 1,
      .truncate 1 2, .read 1 0 2] = some [.node 1, .code 2, .code 0, .code 0, .data 2 [65, 66]] ∧
    init.results [.create 0 [97] true true, .truncate 1 1, .read 1 0 1] =
      some [.node 1, .code 0, .code (-1)] ∧
    init.results [.mkdir 0 [97] true true, .create 1 [98] true true, .unlink 0 [97]] =
      some [.node 1, .node 2, .code 0] ∧
    init.results [.create 0 [97] true true, .rmdir 0 [97]] = some [.node 1, .code 0] := by
  refine ⟨⟨init.after (.create 0 [97] true true),
    .single ⟨by decide, step_after rfl⟩, by decide, ?_⟩, by decide⟩
  exact not_isSome_iff_eq_none.1 (by decide)

end OS01.Fs.Tmpfs
