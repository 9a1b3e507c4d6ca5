import OS01.Fs.Tmpfs

/-!
# What a memory file system is for

The abstract file system: objects are files, which have contents, and directories, which give numbers
of objects for names. `AbsFs.Op` says what each call does when it succeeds. A call may fail, and then
changes nothing, if there is no way for it to succeed or if memory runs out (`AbsFs.Accepts`).

An object keeps its number when its last name is removed, since it may still be open.
-/

namespace OS01.Fs

open Function Lib

/-- A file or a directory. -/
inductive FsObj
  | file (c : Content)
  | dir (removed : Bool) (entry : Path → Option Nat)

namespace FsObj

/-- Whether an object is a directory. -/
def isDir : FsObj → Bool
  | file _ => false
  | dir _ _ => true

/-- The size shown for an object. -/
def size : FsObj → Nat
  | file c => c.size
  | dir _ _ => 0

end FsObj

/-- The objects, by number. -/
abbrev AbsFs : Type := Nat → Option FsObj

namespace AbsFs

variable (a : AbsFs)

/-- Take a name out of a directory. -/
def cut (d : Nat) (name : Path) : AbsFs :=
  match a d with
  | some (.dir g entry) => update a d (some (.dir g (update entry name none)))
  | _ => a

/-- Give an object a name in a directory. -/
def place (d : Nat) (name : Path) (c : Nat) : AbsFs :=
  match a d with
  | some (.dir g entry) => update a d (some (.dir g (update entry name (some c))))
  | _ => a

/-- Mark a directory as removed. -/
def remove (c : Nat) : AbsFs :=
  match a c with
  | some (.dir _ entry) => update a c (some (.dir true entry))
  | _ => a

/-- One directory is the other, or is on the way to it. -/
def Below : Nat → Nat → Prop :=
  Relation.ReflTransGen fun p q => ∃ g entry name, a p = some (.dir g entry) ∧ entry name = some q

/-- An object may take the place of another: files replace files, and directories replace empty
directories. -/
def Replaces (c t : Nat) : Prop :=
  (∃ x y, a c = some (.file x) ∧ a t = some (.file y)) ∨
    ∃ g entry g' entry', a c = some (.dir g entry) ∧ a t = some (.dir g' entry') ∧
      ∀ name, entry' name = none

/-- The names of a directory in some order. -/
def Listing (entry : Path → Option Nat) (names : List Path) : Prop :=
  names.Nodup ∧ ∀ name, name ∈ names ↔ entry name ≠ none

/-- What a call does when it succeeds. -/
inductive Op : AbsFs → TmpfsEvent → TmpfsResult → AbsFs → Prop
  | lookup {a : AbsFs} {d c : Nat} {name : Path} {mem g : Bool} {entry : Path → Option Nat} :
      a d = some (.dir g entry) → entry name = some c → Op a (.lookup d name mem) (.node c) a
  | create {a : AbsFs} {d new : Nat} {name : Path} {mem grow : Bool} {entry : Path → Option Nat} :
      a d = some (.dir false entry) → entry name = none → a new = none →
      Op a (.create d name mem grow) (.node new)
        (update (a.place d name new) new (some (.file .empty)))
  | mkdir {a : AbsFs} {d new : Nat} {name : Path} {mem grow : Bool} {entry : Path → Option Nat} :
      a d = some (.dir false entry) → entry name = none → a new = none →
      Op a (.mkdir d name mem grow) (.node new)
        (update (a.place d name new) new (some (.dir false fun _ => none)))
  | unlink {a : AbsFs} {d c : Nat} {name : Path} {g : Bool} {entry : Path → Option Nat}
      {k : Content} :
      a d = some (.dir g entry) → entry name = some c → a c = some (.file k) →
      Op a (.unlink d name) (.code 0) (a.cut d name)
  | rmdir {a : AbsFs} {d c : Nat} {name : Path} {g g' : Bool} {entry entry' : Path → Option Nat} :
      a d = some (.dir g entry) → entry name = some c → a c = some (.dir g' entry') →
      (∀ x, entry' x = none) → Op a (.rmdir d name) (.code 0) ((a.cut d name).remove c)
  | renameSelf {a : AbsFs} {d c : Nat} {name : Path} {grow g : Bool} {entry : Path → Option Nat} :
      a d = some (.dir g entry) → entry name = some c →
      Op a (.rename d name d name grow) (.code 0) a
  | rename {a : AbsFs} {od nd c : Nat} {old new : Path} {grow g : Bool}
      {entry entry' : Path → Option Nat} :
      a od = some (.dir g entry) → entry old = some c → a nd = some (.dir false entry') →
      (od, old) ≠ (nd, new) → ¬a.Below c nd → entry' new = none →
      Op a (.rename od old nd new grow) (.code 0) ((a.cut od old).place nd new c)
  | renameOver {a : AbsFs} {od nd c t : Nat} {old new : Path} {grow g : Bool}
      {entry entry' : Path → Option Nat} :
      a od = some (.dir g entry) → entry old = some c → a nd = some (.dir false entry') →
      (od, old) ≠ (nd, new) → ¬a.Below c nd → entry' new = some t → a.Replaces c t →
      Op a (.rename od old nd new grow) (.code 0)
        ((((a.cut nd new).remove t).cut od old).place nd new c)
  | write {a : AbsFs} {id off : Nat} {data : List UInt8} {alloc : Nat → Bool} {k : Content} :
      a id = some (.file k) → Op a (.write id off data alloc) (.code data.length)
        (update a id (some (.file (k.write off data))))
  | truncate {a : AbsFs} {id n : Nat} {k : Content} :
      a id = some (.file k) → Op a (.truncate id n) (.code 0)
        (update a id (some (.file (k.truncate n))))
  | read {a : AbsFs} {id off len : Nat} {k : Content} :
      a id = some (.file k) →
      Op a (.read id off len) (.data (k.read off len).length (k.read off len)) a
  | readdirSelf {a : AbsFs} {d : Nat} {g : Bool} {entry : Path → Option Nat} :
      a d = some (.dir g entry) → Op a (.readdir d 0) (.dirent [dot] true none d) a
  | readdirParent {a : AbsFs} {d p : Nat} {g g' : Bool} {name : Path}
      {entry entry' : Path → Option Nat} :
      a d = some (.dir g entry) → a p = some (.dir g' entry') → entry' name = some d →
      Op a (.readdir d 1) (.dirent [dot, dot] true none p) a
  | readdirTop {a : AbsFs} {d : Nat} {g : Bool} {entry : Path → Option Nat} :
      a d = some (.dir g entry) → d = 0 ∨ g = true →
      Op a (.readdir d 1) (.dirent [dot, dot] true none d) a
  | readdir {a : AbsFs} {d k c : Nat} {g : Bool} {entry : Path → Option Nat} {names : List Path}
      {name : Path} {obj : FsObj} :
      a d = some (.dir g entry) → Listing entry names → names[k]? = some name →
      entry name = some c → a c = some obj →
      Op a (.readdir d (k + 2)) (.dirent name obj.isDir (some obj.size) c) a
  | readdirEnd {a : AbsFs} {d k : Nat} {g : Bool} {entry : Path → Option Nat} {names : List Path} :
      a d = some (.dir g entry) → Listing entry names → names.length ≤ k →
      Op a (.readdir d (k + 2)) .done a
  | evict {a : AbsFs} {id : Nat} : Op a (.evict id) (.code 0) a

/-- The results that say a call has failed. -/
def Failure : TmpfsEvent → TmpfsResult → Prop
  | .lookup .., r => r = .code (-ENOMEM) ∨ r = .code (-ENOTDIR) ∨ r = .code (-ENOENT)
  | .create .., r => r = .null
  | .mkdir .., r => r = .null
  | _, r => r = .code (-1)

/-- Memory runs out during a call. -/
def NoMemory : TmpfsEvent → Prop
  | .lookup _ _ mem => mem = false
  | .create _ _ mem grow => mem = false ∨ grow = false
  | .mkdir _ _ mem grow => mem = false ∨ grow = false
  | .rename _ _ _ _ grow => grow = false
  | .write _ _ _ alloc => ∃ i, alloc i = false
  | _ => False

/-- The calls with their results that are right: a call succeeds, or it fails and nothing changes,
which it may do only if it cannot succeed or there is no memory. -/
def Accepts (x : TmpfsEvent × TmpfsResult) (a' : AbsFs) : Prop :=
  Op a x.1 x.2 a' ∨
    Failure x.1 x.2 ∧ a' = a ∧ (NoMemory x.1 ∨ ∀ r b, ¬Op a x.1 r b)

/-- The file system with an empty root only. -/
def init : AbsFs := update (fun _ => none) 0 (some (.dir false fun _ => none))

/-! ## The effect on a directory -/

variable {a : AbsFs} {d c id : Nat} {g : Bool} {entry : Path → Option Nat} {name : Path}

lemma cut_dir (h : a d = some (.dir g entry)) :
    a.cut d name = update a d (some (.dir g (update entry name none))) := by
  unfold cut
  rw [h]

lemma place_dir (h : a d = some (.dir g entry)) :
    a.place d name c = update a d (some (.dir g (update entry name (some c)))) := by
  unfold place
  rw [h]

lemma remove_dir (h : a c = some (.dir g entry)) : a.remove c = update a c (some (.dir true entry)) := by
  unfold remove
  rw [h]

lemma cut_of_ne (h : id ≠ d) : a.cut d name id = a id := by
  unfold cut
  obtain _ | ⟨k | ⟨g, entry⟩⟩ := a d
  · rfl
  · rfl
  · exact update_of_ne h ..

lemma place_of_ne (h : id ≠ d) : a.place d name c id = a id := by
  unfold place
  obtain _ | ⟨k | ⟨g, entry⟩⟩ := a d
  · rfl
  · rfl
  · exact update_of_ne h ..

lemma remove_of_ne (h : id ≠ c) : a.remove c id = a id := by
  unfold remove
  obtain _ | ⟨k | ⟨g, entry⟩⟩ := a c
  · rfl
  · rfl
  · exact update_of_ne h ..

lemma remove_file {k : Content} (h : a c = some (.file k)) : a.remove c = a := by
  unfold remove
  rw [h]

end AbsFs

end OS01.Fs
