import OS01.Aarch64.EarlyArena

/-!
# The bound of the slab metadata

`aarch64_early_arena_prepare` publishes the planned arena, and from it
`PMMngr_end_of_struct_upper_bound` derives the address up to which `slab_init` may have written metadata.
On the way `aarch64_early_arena_slab_meta_start_va` reads the result of `checked_add` the wrong way round: it
gives up where the sum is good. So after every successful preparation there is no bound, which is the value
that makes the assertion pass whatever was written (`slabBound_agrees_iff`).
-/

namespace OS01.Aarch64

def EALREADY : Int := 114

/-- `PMMngr.start_brk`, and the published arena if there is one. -/
structure ArenaState where
  startBrk : Nat
  published : Option EarlyArena

/-- `aarch64_early_arena_prepare`. -/
def earlyArenaPrepare (s : ArenaState) (ram : List MemoryRange) : Int × ArenaState :=
  if s.published.isSome then (-EALREADY, s)
  else
    match earlyArenaPlan ram with
    | .error e => (e, s)
    | .ok arena =>
      if M1_ARENA_HI < arena.slabPageEndPa ∨ M1_ARENA_HI < arena.endPa then (-EINVAL, s)
      else (0, ⟨ARCH_PAGE_OFFSET + arena.basePa, some arena⟩)

/-- `checked_add` with its result, 1 on success, and `*out`, which an overflow leaves as it was. -/
def checkedAddInto (a b out : Nat) : Nat × Nat := if UINT64_MAX - b < a then (0, out) else (1, a + b)

variable (garbage : Nat)

/-- `aarch64_early_arena_slab_meta_start_va`, where `garbage` is in `base_va` before it is written. -/
def slabMetaStartVa (s : ArenaState) : Nat :=
  match s.published with
  | none => UINT64_MAX
  | some arena =>
    let (rc, baseVa) := checkedAddInto ARCH_PAGE_OFFSET arena.basePa garbage
    if rc ≠ 0 then UINT64_MAX
    else
      let (rc, baseVa) := checkedAddInto baseVa arena.layout.endOfStructOff baseVa
      if rc ≠ 0 then UINT64_MAX else baseVa

/-- `PMMngr_end_of_struct_upper_bound`. -/
def endOfStructUpperBound (s : ArenaState) : Nat :=
  let base := slabMetaStartVa garbage s
  if base = UINT64_MAX then UINT64_MAX
  else
    let (rc, upper) := checkedAddInto base slabLayoutCompute.metaBytes garbage
    if rc = 0 then UINT64_MAX else upper

/-- The bound is the end of the slab metadata that the plan has set aside. -/
def BoundAgrees (s : ArenaState) : Prop :=
  ∃ arena ∈ s.published,
    endOfStructUpperBound garbage s =
        ARCH_PAGE_OFFSET + (arena.basePa + arena.layout.endOfStructOff + arena.slabMetaBytes) ∧
      endOfStructUpperBound garbage s ≤ ARCH_PAGE_OFFSET + arena.slabPageStartPa

variable {ram : List MemoryRange} {s s' : ArenaState}

lemma published_of_prepare {arena : EarlyArena}
    (h : earlyArenaPrepare s ram = (0, s')) (hs : s.published = none) (ha : arena ∈ s'.published) :
    earlyArenaPlan ram = .ok arena := by
  rw [earlyArenaPrepare, hs, if_neg (by simp)] at h
  split at h
  · cases h
    cases hs.symm.trans ha
  · split_ifs at h
    · cases h
    · cases h
      cases ha
      assumption

/-- A successful preparation leaves no bound, and so none that agrees: the slab pages lie below 2 GiB. -/
lemma not_boundAgrees
    (h : earlyArenaPrepare s ram = (0, s')) (hs : s.published = none) : ¬ BoundAgrees garbage s' := by
  rintro ⟨arena, ha, -, hle⟩
  obtain ⟨hp, hb, hst⟩ := plan_spec (published_of_prepare h hs ha)
  have hhg := hp.high
  have hmax : M1_ARENA_HI + ARCH_PAGE_OFFSET < UINT64_MAX := by decide
  have hn : slabMetaStartVa garbage s' = UINT64_MAX := by
    rw [slabMetaStartVa, ha]
    simp [checkedAddInto, show ¬ UINT64_MAX - arena.basePa < ARCH_PAGE_OFFSET by omega]
  rw [endOfStructUpperBound, if_pos hn] at hle
  omega

/-- **The bound agrees with the plan** only if there is no plan. -/
theorem slabBound_agrees_iff (brk garbage : Nat) (ram : List MemoryRange) :
    (∀ s, earlyArenaPrepare ⟨brk, none⟩ ram = (0, s) → BoundAgrees garbage s) ↔
      (earlyArenaPrepare ⟨brk, none⟩ ram).1 ≠ 0 := by
  constructor
  · intro h hrc
    have hp : earlyArenaPrepare ⟨brk, none⟩ ram = (0, (earlyArenaPrepare ⟨brk, none⟩ ram).2) := Prod.ext hrc rfl
    exact not_boundAgrees garbage hp rfl (h _ hp)
  · intro hrc s h
    rw [h] at hrc
    exact absurd rfl hrc

/-- One range of RAM: the preparation succeeds, and the bound is lost. -/
theorem slabBound_lost_one_range :
    ∃ s, earlyArenaPrepare ⟨0, none⟩ [⟨0x40200000, 0x48000000, .ram⟩] = (0, s) ∧ ¬ BoundAgrees 0 s := by
  have hrc : (earlyArenaPrepare ⟨0, none⟩ [⟨0x40200000, 0x48000000, .ram⟩]).1 = 0 := by decide +kernel
  cases hp : earlyArenaPrepare ⟨0, none⟩ [⟨0x40200000, 0x48000000, .ram⟩] with
  | mk rc s =>
    rw [hp] at hrc
    obtain rfl : rc = 0 := hrc
    exact ⟨s, rfl, not_boundAgrees 0 hp rfl⟩

end OS01.Aarch64
