/-
  `FilterTypes`: names for the 32 bits of a mask, given out and taken back.

  `taken` says which types are allocated; `taken_registerType` and `taken_unregisterType` are what
  the two operations do to them. The search loops go up to `m_maxType`, which a release only counts
  down by one. `typeRegistry_runs`: every state of a run is right if and only if no release of it
  leaves a gap under the highest type, or a name that a free type shows in its place.
-/
import Mathlib.Data.Nat.Bitwise
import ShoweqDaemon.Filter.Filters
import ShoweqDaemon.Lib.CounterLoop
import ShoweqDaemon.Lib.Run

namespace ShoweqDaemon.Rules

open CounterLoop
open Spawns (QString)

namespace FilterTypes

/-! ## Registration and release -/

/-- What `registerType` gives out, nothing when it returns false. It tries a 33rd type as well, and
    the shift of x86 takes 32 for 0. -/
def registered (types : FilterTypes) : Option (UInt8 × UInt32) :=
  ((List.range 33).find? fun i => types.m_allocated &&& mask i.toUInt8 = 0).map fun i =>
    (i.toUInt8, mask i.toUInt8)

/-- A type of 32 or more goes with the bit that x86 shifts to. -/
def unregisterType (types : FilterTypes) (type : UInt8) : FilterTypes :=
  if types.validMask (mask type) then
    { m_allocated := types.m_allocated &&& ~~~ mask type
      m_filters := Function.update types.m_filters (mask type) none
      m_maxType := if type = types.m_maxType then types.m_maxType - 1 else types.m_maxType }
  else types

/-- `type(query)`, nothing while the loop is running. -/
def typeLoop (types : FilterTypes) (query : QString) (fuel : ℕ) : Option UInt8 :=
  (findLoop types.m_maxType (fun i => types.name i = query) fuel 0).map fun r => r.getD 255

/-- `mask(query)` -/
def maskLoop (types : FilterTypes) (query : QString) (fuel : ℕ) : Option UInt32 :=
  (findLoop types.m_maxType (fun i => types.name i = query) fuel 0).map fun r =>
    (r.map mask).getD 0

/-- The operations of the registry. -/
inductive Op
  | registerType (name : QString)
  | unregisterType (type : UInt8)

/-- The registry after an operation. -/
def step (types : FilterTypes) : Op → FilterTypes
  | .registerType name => types.registerType name
  | .unregisterType type => types.unregisterType type

/-! ## Bits -/

/-- Type `i` is allocated. -/
def taken (types : FilterTypes) (i : ℕ) : Bool := types.validMask (mask (UInt8.ofNat i))

theorem mask_toNat (type : UInt8) : (mask type).toNat = 2 ^ (type.toNat % 32) := by
  have hlt : 2 ^ (type.toNat % 32) < 2 ^ 32 :=
    Nat.pow_lt_pow_right (by decide) (Nat.mod_lt _ (by decide))
  rw [mask, UInt32.toNat_shiftLeft, UInt8.toNat_toUInt32, UInt32.toNat_one, Nat.one_shiftLeft,
    Nat.mod_eq_of_lt hlt]

theorem mask_eq_iff (type type' : UInt8) :
    mask type = mask type' ↔ type.toNat % 32 = type'.toNat % 32 := by
  rw [← UInt32.toNat_inj, mask_toNat, mask_toNat]
  exact Nat.pow_right_inj (by decide)

theorem ofNat_mod {i : ℕ} (hi : i < 32) : (UInt8.ofNat i).toNat % 32 = i := by
  rw [UInt8.toNat_ofNat']
  omega

theorem validMask_iff (types : FilterTypes) (type : UInt8) :
    types.validMask (mask type) = types.m_allocated.toNat.testBit (type.toNat % 32) := by
  have hzero : types.m_allocated &&& mask type = 0 ↔
      types.m_allocated.toNat.testBit (type.toNat % 32) = false := by
    rw [← UInt32.toNat_inj, UInt32.toNat_and, mask_toNat, Nat.and_two_pow, UInt32.toNat_zero]
    cases types.m_allocated.toNat.testBit (type.toNat % 32) <;> simp
  unfold validMask
  cases hbit : types.m_allocated.toNat.testBit (type.toNat % 32) with
  | false => simpa using hzero.mpr hbit
  | true => simpa [hbit] using hzero

theorem taken_eq (types : FilterTypes) {i : ℕ} (hi : i < 32) :
    types.taken i = types.m_allocated.toNat.testBit i := by
  rw [taken, validMask_iff, ofNat_mod hi]

theorem validMask_eq_taken (types : FilterTypes) (type : UInt8) :
    types.validMask (mask type) = types.taken (type.toNat % 32) := by
  rw [validMask_iff, taken_eq _ (Nat.mod_lt _ (by decide))]

/-! ## What the operations do to the types -/

/-- The first free type gets the name, or nothing happens. -/
theorem registerType_cases (types : FilterTypes) (name : QString) :
    (∃ n < 32, types.taken n = false ∧ (∀ i < n, types.taken i = true) ∧
      types.registered = some (UInt8.ofNat n, mask (UInt8.ofNat n)) ∧
      types.registerType name =
        { m_allocated := types.m_allocated ||| mask (UInt8.ofNat n)
          m_filters := Function.update types.m_filters (mask (UInt8.ofNat n)) (some name)
          m_maxType := if UInt8.ofNat n > types.m_maxType then UInt8.ofNat n
            else types.m_maxType }) ∨
    ((∀ i < 32, types.taken i = true) ∧ types.registered = none ∧
      types.registerType name = types) := by
  have hfree (i : ℕ) : decide (types.m_allocated &&& mask i.toUInt8 = 0) = !types.taken i := by
    unfold taken validMask
    simp
  unfold registered registerType
  simp only [hfree]
  cases hfind : (List.range 32).find? fun i => !types.taken i with
  | some n =>
      obtain ⟨hn, hmem, hbefore⟩ := List.find?_range_eq_some.mp hfind
      have hlt := List.mem_range.mp hmem
      have hfind' : (List.range 33).find? (fun i => !types.taken i) = some n :=
        List.find?_range_eq_some.mpr ⟨hn, List.mem_range.mpr (by omega), hbefore⟩
      refine Or.inl ⟨n, hlt, by simpa using hn, fun i hi => by simpa using hbefore i hi, ?_, rfl⟩
      rw [hfind']
      rfl
  | none =>
      have hall : ∀ i < 32, types.taken i = true := by
        intro i hi
        simpa using List.find?_range_eq_none.mp hfind i hi
      have hwrap : types.taken 32 = types.taken 0 := rfl
      have hfind' : (List.range 33).find? (fun i => !types.taken i) = none := by
        refine List.find?_range_eq_none.mpr fun i hi => ?_
        by_cases h32 : i = 32
        · rw [h32, hwrap, hall 0 (by decide)]
          rfl
        · rw [hall i (by omega)]
          rfl
      refine Or.inr ⟨hall, ?_, rfl⟩
      rw [hfind']
      rfl

theorem taken_of_or {types types' : FilterTypes} {n : ℕ} (hn : n < 32)
    (h : types'.m_allocated = types.m_allocated ||| mask (UInt8.ofNat n)) {i : ℕ} (hi : i < 32) :
    types'.taken i = (types.taken i || decide (i = n)) := by
  rw [taken_eq _ hi, taken_eq _ hi, h, UInt32.toNat_or, mask_toNat, ofNat_mod hn, Nat.testBit_or,
    Nat.testBit_two_pow]
  congr 1
  exact decide_eq_decide.mpr eq_comm

theorem taken_unregisterType (types : FilterTypes) (type : UInt8) {i : ℕ} (hi : i < 32) :
    (types.unregisterType type).taken i = (types.taken i && decide (i ≠ type.toNat % 32)) := by
  unfold unregisterType
  by_cases htaken : types.validMask (mask type) = true
  · have hmask : (mask type).toNat + 1 ≤ 2 ^ 32 := (mask type).toNat_lt
    have hnot : (~~~ mask type).toNat = 2 ^ 32 - ((mask type).toNat + 1) := by
      rw [UInt32.toNat_not]
      show 4294967296 - 1 - (mask type).toNat = 4294967296 - ((mask type).toNat + 1)
      omega
    rw [if_pos htaken, taken_eq _ hi, taken_eq _ hi]
    dsimp only
    rw [UInt32.toNat_and, hnot, Nat.testBit_and, Nat.testBit_two_pow_sub_succ hmask, mask_toNat,
      Nat.testBit_two_pow]
    simp [hi, eq_comm]
  · rw [if_neg htaken]
    by_cases heq : i = type.toNat % 32
    · rw [validMask_eq_taken, ← heq] at htaken
      rw [Bool.eq_false_iff.mpr htaken]
      rfl
    · simp [heq]

/-! ## The registry -/

/-- The map has an entry for each allocated bit, and no other. -/
def Entries (types : FilterTypes) : Prop :=
  ∀ key, (types.m_filters key).isSome = true ↔
    ∃ i < 32, key = mask (UInt8.ofNat i) ∧ types.taken i = true

/-- The highest of those that are taken, and 0 when there is none. -/
def IsTop (taken : ℕ → Bool) (top : ℕ) : Prop :=
  (∀ i < 32, taken i = true → i ≤ top) ∧
    (top < 32 ∧ taken top = true ∨ (∀ i < 32, taken i = false) ∧ top = 0)

/-- `m_maxType` is the highest allocated type. -/
def Highest (types : FilterTypes) : Prop := IsTop types.taken types.m_maxType.toNat

/-- What a free type shows as its name. -/
def placeholder (i : ℕ) : QString :=
  "Unknown:".toList ++ (toString (mask (UInt8.ofNat i)).toNat).toList

/-- The name under the bit of an index. -/
def entry (types : FilterTypes) (i : ℕ) : Option QString := types.m_filters (mask (UInt8.ofNat i))

/-- A registered name that a free type below shows as well has a type further down. -/
def Unhidden (types : FilterTypes) : Prop :=
  ∀ u < 32, ∀ i < u, types.taken i = false → types.entry u = some (placeholder i) →
    ∃ v < i, types.entry v = some (placeholder i)

/-- Both loops come to an end, with the type and the mask of the name if it is registered. -/
structure Finds (types : FilterTypes) (query : QString) : Prop where
  ends : ∃ type mask, ∀ fuel, 256 ≤ fuel →
    types.typeLoop query fuel = some type ∧ types.maskLoop query fuel = some mask
  finds : (∃ key, types.m_filters key = some query) →
    ∃ i < 32, types.entry i = some query ∧ ∀ fuel, 256 ≤ fuel →
      types.typeLoop query fuel = some (UInt8.ofNat i) ∧
        types.maskLoop query fuel = some (mask (UInt8.ofNat i))

/-- What every run keeps: the table fits the mask of allocated types, the greatest type is right,
    registering fails on a full table only, and searches find what is there. -/
structure Correct (types : FilterTypes) : Prop where
  entries : types.Entries
  highest : types.Highest
  full : types.registered = none ↔ ∀ i < 32, types.taken i = true
  search : ∀ query, types.Finds query

theorem entry_isSome {types : FilterTypes} (h : types.Entries) {i : ℕ} (hi : i < 32) :
    (types.entry i).isSome = types.taken i := by
  apply Bool.eq_iff_iff.mpr
  refine (h _).trans ⟨?_, fun htaken => ⟨i, hi, rfl, htaken⟩⟩
  rintro ⟨j, hj, hmask, htaken⟩
  rw [mask_eq_iff, ofNat_mod hi, ofNat_mod hj] at hmask
  rwa [hmask]

theorem registered_eq_none_iff (types : FilterTypes) :
    types.registered = none ↔ ∀ i < 32, types.taken i = true := by
  obtain ⟨n, hn, hfree, -, hreg, -⟩ | ⟨hall, hreg, -⟩ := types.registerType_cases []
  · rw [hreg]
    refine iff_of_false (fun h => nomatch h) fun hall => ?_
    rw [hall n hn] at hfree
    cases hfree
  · exact iff_of_true hreg hall

theorem name_ofNat (types : FilterTypes) (i : ℕ) :
    types.name (UInt8.ofNat i) = (types.entry i).getD (placeholder i) := rfl

/-! ## The search -/

theorem Highest.lt {types : FilterTypes} (h : types.Highest) : types.m_maxType.toNat < 32 := by
  obtain ⟨-, ⟨hlt, -⟩ | ⟨-, hzero⟩⟩ := h
  · exact hlt
  · omega

/-- What the loops return is the first type that shows the name. -/
theorem loops_end {types : FilterTypes} (h : types.Highest) (query : QString) :
    ∃ r, (∀ fuel, 256 ≤ fuel → types.typeLoop query fuel = some (r.getD 255) ∧
        types.maskLoop query fuel = some ((r.map mask).getD 0)) ∧
      (r = none ∧ (∀ i ≤ types.m_maxType.toNat, types.name (UInt8.ofNat i) ≠ query) ∨
        ∃ i ≤ types.m_maxType.toNat, r = some (UInt8.ofNat i) ∧
          types.name (UInt8.ofNat i) = query ∧ ∀ j < i, types.name (UInt8.ofNat j) ≠ query) := by
  have hlt := h.lt
  have hcut {i : ℕ} (hi : i ≤ types.m_maxType.toNat) : (UInt8.ofNat i).toNat = i := by
    rw [UInt8.toNat_ofNat']
    omega
  obtain ⟨r, hr, hcases⟩ := findLoop_ends (fun i => decide (types.name i = query))
    (by omega : types.m_maxType.toNat < 255)
  refine ⟨r, fun fuel hfuel => ?_, ?_⟩
  · unfold typeLoop maskLoop
    rw [hr fuel hfuel]
    exact ⟨rfl, rfl⟩
  · rcases hcases with ⟨hnone, hall⟩ | ⟨c, hc, hfirst⟩
    · refine Or.inl ⟨hnone, fun i hi => ?_⟩
      have hle : UInt8.ofNat i ≤ types.m_maxType := by
        rw [UInt8.le_iff_toNat_le, hcut hi]
        exact hi
      simpa using hall _ hle
    · have hle := UInt8.le_iff_toNat_le.mp hfirst.within
      refine Or.inr ⟨c.toNat, hle, ?_, ?_, fun j hj => ?_⟩
      · rw [hc, UInt8.ofNat_toNat]
      · rw [UInt8.ofNat_toNat]
        simpa using hfirst.hit
      · have hlt' : UInt8.ofNat j < c := by
          rw [UInt8.lt_iff_toNat_lt, hcut (by omega)]
          exact hj
        simpa using hfirst.first _ hlt'

theorem name_of_entry {types : FilterTypes} {i : ℕ} {q : QString} (h : types.entry i = some q) :
    types.name (UInt8.ofNat i) = q := by
  rw [name_ofNat, h]
  rfl

/-- The loops get as far as any name. -/
theorem Highest.reaches {types : FilterTypes} (h : types.Highest) (hentries : types.Entries)
    {i : ℕ} {q : QString} (hi : i < 32) (hq : types.entry i = some q) :
    i ≤ types.m_maxType.toNat := by
  refine h.1 i hi ?_
  rw [← entry_isSome hentries hi, hq]
  rfl

/-- The type that the loops find in place of a hidden name is further down than the free one. -/
theorem unhidden_of_finds {types : FilterTypes} (hentries : types.Entries)
    (hhighest : types.Highest) (hfinds : ∀ query, types.Finds query) : types.Unhidden := by
  intro u hu i hi hfree hentry
  have hlt := hhighest.lt
  obtain ⟨j, hj, hentryj, hloop⟩ := (hfinds (placeholder i)).finds ⟨_, hentry⟩
  obtain ⟨r, hr, ⟨-, hnone⟩ | ⟨k, hk, rfl, -, hfirst⟩⟩ := loops_end hhighest (placeholder i)
  · exact absurd (name_of_entry hentry) (hnone u (hhighest.reaches hentries hu hentry))
  · have hjk : UInt8.ofNat k = UInt8.ofNat j :=
      Option.some.inj ((hr 256 le_rfl).1.symm.trans (hloop 256 le_rfl).1)
    obtain rfl : k = j := by
      have hmod := congrArg (fun type : UInt8 => type.toNat % 32) hjk
      rwa [ofNat_mod (by omega), ofNat_mod hj] at hmod
    have hnot : types.entry i = none := by
      rw [← Option.not_isSome_iff_eq_none, entry_isSome hentries (by omega), hfree]
      exact Bool.false_ne_true
    have hle : k ≤ i := by
      by_contra hlt'
      refine hfirst i (by omega) ?_
      rw [name_ofNat, hnot]
      rfl
    have hne : k ≠ i := by
      rintro rfl
      rw [hnot] at hentryj
      cases hentryj
    exact ⟨k, by omega, hentryj⟩

theorem finds_of_unhidden {types : FilterTypes} (hentries : types.Entries)
    (hhighest : types.Highest) (hunhidden : types.Unhidden) (query : QString) :
    types.Finds query := by
  have hlt := hhighest.lt
  obtain ⟨r, hr, hcases⟩ := loops_end hhighest query
  refine ⟨⟨_, _, hr⟩, ?_⟩
  rintro ⟨key, hkey⟩
  obtain ⟨u, hu, rfl, -⟩ := (hentries key).mp (by rw [hkey]; rfl)
  have hentry : types.entry u = some query := hkey
  obtain ⟨-, hnone⟩ | ⟨k, hk, rfl, hname, hfirst⟩ := hcases
  · exact absurd (name_of_entry hentry) (hnone u (hhighest.reaches hentries hu hentry))
  · have hku : k ≤ u := by
      by_contra hlt'
      exact hfirst u (by omega) (name_of_entry hentry)
    refine ⟨k, by omega, ?_, hr⟩
    rw [name_ofNat] at hname
    cases hk' : types.entry k with
    | some q =>
        rw [hk'] at hname
        exact congrArg some hname
    | none =>
        -- a free type: what it hides has a type further down
        rw [hk'] at hname
        have hfree : types.taken k = false := by
          rw [← entry_isSome hentries (by omega), hk']
          rfl
        have hne : k ≠ u := by
          rintro rfl
          rw [hk'] at hentry
          cases hentry
        rw [← hname] at hentry
        obtain ⟨v, hv, hentryv⟩ := hunhidden u hu k (by omega) hfree hentry
        exact absurd ((name_of_entry hentryv).trans hname) (hfirst v hv)

/-- The loops find what is registered exactly when no free type hides it. -/
theorem finds_iff_unhidden {types : FilterTypes} (hentries : types.Entries)
    (hhighest : types.Highest) : (∀ query, types.Finds query) ↔ types.Unhidden :=
  ⟨unhidden_of_finds hentries hhighest, finds_of_unhidden hentries hhighest⟩

theorem correct_iff {types : FilterTypes} (hentries : types.Entries) :
    types.Correct ↔ types.Highest ∧ types.Unhidden := by
  constructor
  · intro h
    exact ⟨h.highest, (finds_iff_unhidden hentries h.highest).mp h.search⟩
  · rintro ⟨hhighest, hunhidden⟩
    exact ⟨hentries, hhighest, types.registered_eq_none_iff,
      (finds_iff_unhidden hentries hhighest).mpr hunhidden⟩

/-! ## One step -/

/-- Counting down by one leads to the highest type that is left. A type of 32 or more does not count
    down at all. -/
def KeepsHighest (types : FilterTypes) (type : UInt8) : Prop :=
  if type = types.m_maxType then
    type ≠ 0 ∧ (type = 1 ∨ types.taken (type.toNat - 1) = true)
  else type.toNat % 32 = types.m_maxType.toNat → types.m_maxType = 0

/-- None of the other names is hidden by a free type. -/
def KeepsUnhidden (types : FilterTypes) (type : UInt8) : Prop :=
  ∀ u < 32, ∀ i < u, u ≠ type.toNat % 32 → (types.taken i = false ∨ i = type.toNat % 32) →
    types.entry u = some (placeholder i) →
    ∃ v < i, v ≠ type.toNat % 32 ∧ types.entry v = some (placeholder i)

/-- What the code is right for. -/
def Harmless (types : FilterTypes) : Op → Prop
  | .registerType _ => True
  | .unregisterType type =>
      types.validMask (mask type) = true → types.KeepsHighest type ∧ types.KeepsUnhidden type

theorem registerType_entries {types : FilterTypes} (h : types.Entries) (name : QString) :
    (types.registerType name).Entries := by
  obtain ⟨n, hn, -, -, -, hreg⟩ | ⟨-, -, hreg⟩ := types.registerType_cases name
  · intro key
    have htaken {i : ℕ} (hi : i < 32) := taken_of_or hn (congrArg m_allocated hreg) hi
    by_cases hkey : key = mask (UInt8.ofNat n)
    · rw [hreg]
      dsimp only
      rw [hkey, Function.update_self, ← hreg]
      exact iff_of_true rfl ⟨n, hn, rfl, by rw [htaken hn]; simp⟩
    · rw [hreg]
      dsimp only
      rw [Function.update_of_ne hkey, h key, ← hreg]
      constructor
      · rintro ⟨i, hi, hmask, hi'⟩
        exact ⟨i, hi, hmask, by rw [htaken hi, hi']; rfl⟩
      · rintro ⟨i, hi, hmask, hi'⟩
        have hne : i ≠ n := by
          rintro rfl
          exact hkey hmask
        rw [htaken hi] at hi'
        exact ⟨i, hi, hmask, by simpa [hne] using hi'⟩
  · rw [hreg]
    exact h

theorem unregisterType_entries {types : FilterTypes} (h : types.Entries) (type : UInt8) :
    (types.unregisterType type).Entries := by
  intro key
  by_cases htaken : types.validMask (mask type) = true
  · have hmap : (types.unregisterType type).m_filters =
        Function.update types.m_filters (mask type) none := by
      rw [unregisterType, if_pos htaken]
    have hmask {i : ℕ} (hi : i < 32) : mask (UInt8.ofNat i) = mask type ↔ i = type.toNat % 32 := by
      rw [mask_eq_iff, ofNat_mod hi]
    rw [hmap]
    by_cases hkey : key = mask type
    · rw [hkey, Function.update_self]
      refine iff_of_false Bool.false_ne_true ?_
      rintro ⟨i, hi, hkey', hi'⟩
      rw [taken_unregisterType _ _ hi, (hmask hi).mp hkey'.symm] at hi'
      simp at hi'
    · rw [Function.update_of_ne hkey, h key]
      constructor
      · rintro ⟨i, hi, rfl, hi'⟩
        refine ⟨i, hi, rfl, ?_⟩
        rw [taken_unregisterType _ _ hi, hi', decide_eq_true (mt (hmask hi).mpr hkey)]
        rfl
      · rintro ⟨i, hi, hkey', hi'⟩
        rw [taken_unregisterType _ _ hi, Bool.and_eq_true] at hi'
        exact ⟨i, hi, hkey', hi'.1⟩
  · rw [unregisterType, if_neg htaken]
    exact h key

theorem step_entries {types : FilterTypes} (h : types.Entries) (op : Op) :
    (types.step op).Entries := by
  cases op with
  | registerType name => exact registerType_entries h name
  | unregisterType type => exact unregisterType_entries h type

section
variable {taken taken' : ℕ → Bool} {top k : ℕ}

/-- The lowest free one is added. -/
theorem isTop_insert (h : IsTop taken top) (hk : k < 32) (hbelow : ∀ i < k, taken i = true)
    (hinsert : ∀ i < 32, taken' i = (taken i || decide (i = k))) : IsTop taken' (max k top) := by
  obtain ⟨hbound, hlast⟩ := h
  have hleft {i : ℕ} (hi : i < 32) : taken' i = true ↔ taken i = true ∨ i = k := by
    rw [hinsert i hi, Bool.or_eq_true, decide_eq_true_iff]
  refine ⟨fun i hi hi' => ?_, Or.inl ?_⟩
  · rcases (hleft hi).mp hi' with hi' | rfl
    · exact le_max_of_le_right (hbound i hi hi')
    · exact le_max_left _ _
  · obtain ⟨hlt, htop⟩ | ⟨hnone, hzero⟩ := hlast
    · have hlt' : max k top < 32 := max_lt hk hlt
      refine ⟨hlt', (hleft hlt').mpr ?_⟩
      rcases max_choice k top with heq | heq
      · exact Or.inr heq
      · rw [heq]
        exact Or.inl htop
    · have hk0 : k = 0 := by
        by_contra hne
        have hfirst := hbelow 0 (Nat.pos_of_ne_zero hne)
        rw [hnone 0 (by decide)] at hfirst
        cases hfirst
      have hmax : max k top = k := by omega
      rw [hmax]
      exact ⟨hk, (hleft hk).mpr (Or.inr rfl)⟩

theorem isTop_erase_of_ne (h : IsTop taken top) (hk : taken k = true) (hlt : k < 32)
    (herase : ∀ i < 32, taken' i = (taken i && decide (i ≠ k))) (hne : k ≠ top) :
    IsTop taken' top := by
  obtain ⟨hbound, ⟨htop, hlast⟩ | ⟨hnone, -⟩⟩ := h
  · refine ⟨fun i hi hi' => hbound i hi ?_, Or.inl ⟨htop, ?_⟩⟩
    · rw [herase i hi, Bool.and_eq_true] at hi'
      exact hi'.1
    · rw [herase top htop, hlast, decide_eq_true hne.symm]
      rfl
  · rw [hnone k hlt] at hk
    cases hk

/-- What is left when the highest one goes. -/
theorem isTop_erase_self
    (herase : ∀ i < 32, taken' i = (taken i && decide (i ≠ top))) (top' : ℕ) :
    IsTop taken' top' ↔
      (∀ i < 32, i ≠ top → taken i = true → i ≤ top') ∧
        (top' < 32 ∧ top' ≠ top ∧ taken top' = true ∨
          (∀ i < 32, i ≠ top → taken i = false) ∧ top' = 0) := by
  have hleft {i : ℕ} (hi : i < 32) : taken' i = true ↔ i ≠ top ∧ taken i = true := by
    rw [herase i hi, Bool.and_eq_true, decide_eq_true_iff, and_comm]
  have hnone : (∀ i < 32, taken' i = false) ↔ ∀ i < 32, i ≠ top → taken i = false := by
    refine forall_congr' fun i => forall_congr' fun hi => ?_
    rw [herase i hi, Bool.and_eq_false_iff, decide_eq_false_iff_not, not_not]
    tauto
  unfold IsTop
  rw [hnone]
  refine and_congr ?_ (or_congr ?_ Iff.rfl)
  · refine forall_congr' fun i => forall_congr' fun hi => ?_
    rw [hleft hi, and_imp]
  · exact and_congr_right fun hi => hleft hi

theorem isTop_down_iff (h : IsTop taken top) (htop : top < 32) (h0 : top ≠ 0)
    (herase : ∀ i < 32, taken' i = (taken i && decide (i ≠ top))) :
    IsTop taken' (top - 1) ↔ top = 1 ∨ taken (top - 1) = true := by
  rw [isTop_erase_self herase]
  constructor
  · rintro ⟨-, ⟨-, -, hprev⟩ | ⟨-, hone⟩⟩
    · exact Or.inr hprev
    · exact Or.inl (by omega)
  · intro hkeeps
    refine ⟨fun i hi hne hi' => ?_, ?_⟩
    · have hle := h.1 i hi hi'
      omega
    · by_cases hprev : taken (top - 1) = true
      · exact Or.inl ⟨by omega, by omega, hprev⟩
      · have hone := hkeeps.resolve_right hprev
        refine Or.inr ⟨fun i hi hne => Bool.eq_false_iff.mpr fun hi' => ?_, by omega⟩
        have hle := h.1 i hi hi'
        obtain rfl : i = top - 1 := by omega
        exact hprev hi'

/-- The mark stays where nothing is any more. -/
theorem isTop_stay_iff (h : IsTop taken top) (htop : top < 32)
    (herase : ∀ i < 32, taken' i = (taken i && decide (i ≠ top))) :
    IsTop taken' top ↔ top = 0 := by
  rw [isTop_erase_self herase]
  constructor
  · rintro ⟨-, ⟨-, hne, -⟩ | ⟨-, hzero⟩⟩
    · exact absurd rfl hne
    · exact hzero
  · rintro rfl
    have hnone : ∀ i < 32, i ≠ 0 → taken i = false := fun i hi hne =>
      Bool.eq_false_iff.mpr fun hi' => hne (Nat.le_zero.mp (h.1 i hi hi'))
    exact ⟨fun i hi hne hi' => h.1 i hi hi', Or.inr ⟨hnone, rfl⟩⟩

end

theorem entry_registerType {types : FilterTypes} {name : QString} {n : ℕ} (hn : n < 32)
    (hmap : (types.registerType name).m_filters =
      Function.update types.m_filters (mask (UInt8.ofNat n)) (some name)) {i : ℕ} (hi : i < 32) :
    (types.registerType name).entry i = if i = n then some name else types.entry i := by
  unfold entry
  rw [hmap, Function.update_apply]
  simp only [mask_eq_iff, ofNat_mod hi, ofNat_mod hn]

theorem registerType_highest {types : FilterTypes} (h : types.Highest) (name : QString) :
    (types.registerType name).Highest := by
  obtain ⟨n, hn, -, hbelow, -, hreg⟩ | ⟨-, -, hreg⟩ := types.registerType_cases name
  · have hgt : UInt8.ofNat n > types.m_maxType ↔ types.m_maxType.toNat < n := by
      rw [gt_iff_lt, UInt8.lt_iff_toNat_lt, UInt8.toNat_ofNat', Nat.mod_eq_of_lt (by omega)]
    have hmax : (types.registerType name).m_maxType.toNat = max n types.m_maxType.toNat := by
      rw [hreg]
      dsimp only
      by_cases hlt : types.m_maxType.toNat < n
      · rw [if_pos (hgt.mpr hlt), UInt8.toNat_ofNat', Nat.mod_eq_of_lt (by omega)]
        omega
      · rw [if_neg (mt hgt.mp hlt)]
        omega
    unfold Highest
    rw [hmax]
    exact isTop_insert h hn hbelow fun i hi => taken_of_or hn (congrArg m_allocated hreg) hi
  · rw [hreg]
    exact h

/-- No free type is left below the one that gets the name. -/
theorem registerType_unhidden {types : FilterTypes} (hentries : types.Entries)
    (h : types.Unhidden) (name : QString) : (types.registerType name).Unhidden := by
  obtain ⟨n, hn, hfree, hbelow, -, hreg⟩ | ⟨-, -, hreg⟩ := types.registerType_cases name
  · intro u hu i hi hi' hname
    rw [taken_of_or hn (congrArg m_allocated hreg) (by omega), Bool.or_eq_false_iff,
      decide_eq_false_iff_not] at hi'
    rw [entry_registerType hn (congrArg m_filters hreg) hu] at hname
    by_cases hun : u = n
    · have hall := hbelow i (by omega)
      rw [hi'.1] at hall
      cases hall
    · rw [if_neg hun] at hname
      obtain ⟨v, hv, hentryv⟩ := h u hu i hi hi'.1 hname
      have hvn : v ≠ n := by
        rintro rfl
        have hsome := entry_isSome hentries hn
        rw [hentryv, hfree] at hsome
        cases hsome
      refine ⟨v, hv, ?_⟩
      rw [entry_registerType hn (congrArg m_filters hreg) (by omega), if_neg hvn, hentryv]
  · rw [hreg]
    exact h

theorem registerType_correct {types : FilterTypes} (h : types.Correct) (name : QString) :
    (types.registerType name).Correct := by
  obtain ⟨hhighest, hunhidden⟩ := (correct_iff h.entries).mp h
  exact (correct_iff (registerType_entries h.entries name)).mpr
    ⟨registerType_highest hhighest name, registerType_unhidden h.entries hunhidden name⟩

/-- The highest type after a release. -/
theorem unregisterType_highest {types : FilterTypes} (h : types.Highest) {type : UInt8}
    (htype : types.validMask (mask type) = true) :
    (types.unregisterType type).Highest ↔ types.KeepsHighest type := by
  have herase : ∀ i < 32, (types.unregisterType type).taken i =
      (types.taken i && decide (i ≠ type.toNat % 32)) :=
    fun i hi => taken_unregisterType types type hi
  have hmod : type.toNat % 32 < 32 := Nat.mod_lt _ (by decide)
  have hlt := h.lt
  have hmax : (types.unregisterType type).m_maxType =
      if type = types.m_maxType then types.m_maxType - 1 else types.m_maxType := by
    rw [unregisterType, if_pos htype]
  rw [validMask_eq_taken] at htype
  unfold Highest KeepsHighest
  rw [hmax]
  by_cases heq : type = types.m_maxType
  · have hsame : type.toNat % 32 = types.m_maxType.toNat := by rw [heq, Nat.mod_eq_of_lt hlt]
    rw [if_pos heq, if_pos heq]
    rw [hsame] at herase
    have hdown : (types.m_maxType - 1).toNat = (types.m_maxType.toNat + 255) % 256 := by
      rw [UInt8.toNat_sub, Nat.add_comm]
      rfl
    rw [heq]
    by_cases h0 : types.m_maxType.toNat = 0
    · -- from 0 to 255
      have hzero : types.m_maxType = 0 := UInt8.toNat_inj.mp h0
      refine iff_of_false ?_ fun hkeeps => hkeeps.1 hzero
      rintro ⟨-, ⟨hlt', -⟩ | ⟨-, hdown'⟩⟩
      · omega
      · omega
    · have hprev : (types.m_maxType - 1).toNat = types.m_maxType.toNat - 1 := by omega
      have hzero : types.m_maxType ≠ 0 := fun hzero => h0 (congrArg UInt8.toNat hzero)
      have hone : types.m_maxType = 1 ↔ types.m_maxType.toNat = 1 := UInt8.toNat_inj.symm
      rw [heq] at herase
      rw [hprev, isTop_down_iff h hlt h0 herase, hone]
      exact (and_iff_right hzero).symm
  · rw [if_neg heq, if_neg heq]
    have hzero : types.m_maxType = 0 ↔ types.m_maxType.toNat = 0 := UInt8.toNat_inj.symm
    rw [hzero]
    by_cases hsame : type.toNat % 32 = types.m_maxType.toNat
    · rw [hsame] at herase
      rw [isTop_stay_iff h hlt herase]
      exact ⟨fun h0 _ => h0, fun hstay => hstay hsame⟩
    · exact iff_of_true (isTop_erase_of_ne h htype hmod herase hsame) fun hsame' =>
        absurd hsame' hsame

/-- The names after a release. -/
theorem unregisterType_unhidden {types : FilterTypes} {type : UInt8}
    (htype : types.validMask (mask type) = true) :
    (types.unregisterType type).Unhidden ↔ types.KeepsUnhidden type := by
  have hentry {i : ℕ} (hi : i < 32) (q : QString) :
      (types.unregisterType type).entry i = some q ↔
        i ≠ type.toNat % 32 ∧ types.entry i = some q := by
    have hmap : (types.unregisterType type).m_filters =
        Function.update types.m_filters (mask type) none := by
      rw [unregisterType, if_pos htype]
    have hmask : mask (UInt8.ofNat i) = mask type ↔ i = type.toNat % 32 := by
      rw [mask_eq_iff, ofNat_mod hi]
    unfold entry
    rw [hmap]
    by_cases heq : i = type.toNat % 32
    · rw [hmask.mpr heq, Function.update_self]
      exact iff_of_false (fun h => nomatch h) fun h => h.1 heq
    · rw [Function.update_of_ne (mt hmask.mp heq)]
      exact (and_iff_right heq).symm
  have hfree {i : ℕ} (hi : i < 32) : (types.unregisterType type).taken i = false ↔
      types.taken i = false ∨ i = type.toNat % 32 := by
    rw [taken_unregisterType _ _ hi, Bool.and_eq_false_iff, decide_eq_false_iff_not, not_not]
  unfold Unhidden KeepsUnhidden
  constructor
  · intro h u hu i hi hne hi' hname
    obtain ⟨v, hv, hv'⟩ := h u hu i hi ((hfree (by omega)).mpr hi') ((hentry hu _).mpr ⟨hne, hname⟩)
    exact ⟨v, hv, (hentry (by omega) _).mp hv'⟩
  · intro h u hu i hi hi' hname
    obtain ⟨hne, hname⟩ := (hentry hu _).mp hname
    obtain ⟨v, hv, hv'⟩ := h u hu i hi hne ((hfree (by omega)).mp hi') hname
    exact ⟨v, hv, (hentry (by omega) _).mpr hv'⟩

/-- One step keeps the registry right exactly when it is harmless. -/
theorem step_correct_iff {types : FilterTypes} (h : types.Correct) (op : Op) :
    (types.step op).Correct ↔ types.Harmless op := by
  cases op with
  | registerType name => exact iff_of_true (registerType_correct h name) trivial
  | unregisterType type =>
      by_cases htype : types.validMask (mask type) = true
      · show (types.unregisterType type).Correct ↔ (_ → _)
        rw [correct_iff (unregisterType_entries h.entries type),
          unregisterType_highest h.highest htype, unregisterType_unhidden htype]
        exact ⟨fun hkeeps _ => hkeeps, fun hkeeps => hkeeps htype⟩
      · have hsame : types.step (.unregisterType type) = types := if_neg htype
        rw [hsame]
        exact iff_of_true h fun htype' => absurd htype' htype

/-! ## Runs -/

theorem empty_correct : ({} : FilterTypes).Correct := by
  have hfree : ∀ i < 32, ({} : FilterTypes).taken i = false := by
    intro i hi
    rw [taken_eq _ hi]
    exact Nat.zero_testBit i
  have hentries : ({} : FilterTypes).Entries := by
    intro key
    refine iff_of_false Bool.false_ne_true ?_
    rintro ⟨i, hi, -, htaken⟩
    rw [hfree i hi] at htaken
    cases htaken
  refine (correct_iff hentries).mpr ⟨⟨fun i hi htaken => ?_, Or.inr ⟨hfree, rfl⟩⟩, ?_⟩
  · rw [hfree i hi] at htaken
    cases htaken
  · intro u hu i hi hi' hname
    cases hname

/-- Every sequence of registrations and releases: the registry is right in all states of the run if
    and only if every release leaves no gap under the highest type and hides no name. -/
theorem typeRegistry_runs (ops : List Op) :
    (∀ types ∈ Machine.trace step {} ops, types.Correct) ↔
      Machine.StepsMeet step Harmless {} ops := by
  have hentries : ∀ (types : FilterTypes) (op : Op), types.Entries → (types.step op).Entries :=
    fun _ op h => step_entries h op
  have hexact : ∀ (types : FilterTypes) (op : Op), types.Entries → types.Correct →
      ((types.step op).Correct ↔ types.Harmless op) := fun _ op _ h => step_correct_iff h op
  exact Machine.trace_forall_iff_stepsMeet step hentries hexact empty_correct.entries empty_correct ops

/-- One name is registered and released. -/
def comeAndGone : List Op := [.registerType "Tracked".toList, .unregisterType 0]

/-- The mark is 255 then, and the search for another name goes round and round. -/
theorem comeAndGone_never :
    (comeAndGone.foldl step {}).m_maxType = 255 ∧
      (∀ fuel, (comeAndGone.foldl step {}).typeLoop "Hidden".toList fuel = none) ∧
      ¬ ∀ ops, ∀ types ∈ Machine.trace step {} ops, types.Correct := by
  have hmax : (comeAndGone.foldl step {}).m_maxType = 255 := by decide
  have hnone : ∀ key, (comeAndGone.foldl step {}).m_filters key = none := by
    intro key
    show Function.update (Function.update (fun _ => none) (mask 0) (some "Tracked".toList)) (mask 0)
      none key = none
    rw [Function.update_idem, Function.update_apply]
    split <;> rfl
  have hnever : ∀ fuel, (comeAndGone.foldl step {}).typeLoop "Hidden".toList fuel = none := by
    intro fuel
    have hname : ∀ type, decide ((comeAndGone.foldl step {}).name type = "Hidden".toList) = false := by
      intro type
      have hunknown : (comeAndGone.foldl step {}).name type =
          'U' :: "nknown:".toList ++ (toString (mask type).toNat).toList := by
        rw [name, hnone]
        rfl
      rw [hunknown]
      exact decide_eq_false fun h => absurd (List.cons.inj h).1 (by decide)
    rw [typeLoop, findLoop_never (by rw [hmax]; rfl) hname]
    rfl
  refine ⟨hmax, hnever, fun h => ?_⟩
  obtain ⟨type, mask, hends⟩ := ((h comeAndGone _
    ((Machine.mem_trace_iff step _ _ _).mpr ⟨comeAndGone, [], rfl, rfl⟩)).search
      "Hidden".toList).ends
  have hloop := (hends 256 le_rfl).1
  rw [hnever 256] at hloop
  cases hloop

end FilterTypes

/-! ## The runtime filters -/

theorem taken_registerType {types : FilterTypes} (name : QString) {i : ℕ} (hi : i < 32)
    (h : types.taken i = true) : (types.registerType name).taken i = true := by
  obtain ⟨n, hn, -, -, -, hreg⟩ | ⟨-, -, hreg⟩ := types.registerType_cases name
  · rw [FilterTypes.taken_of_or hn (congrArg FilterTypes.m_allocated hreg) hi, h]
    rfl
  · rwa [hreg]

theorem typed_nothing (types : FilterTypes) (key : UInt32) (h : (none : Option Filter) ≠ none) :
    ∃ i < 32, key = FilterTypes.mask (UInt8.ofNat i) ∧ types.taken i = true :=
  absurd rfl h

/-- `m_runtimeTypes` and the rules in `m_runtimeFilters`, which are rules of these types. -/
structure RuntimeFilters where
  types : FilterTypes := {}
  m_filters : UInt32 → Option Filter := fun _ => none
  typed : ∀ key, m_filters key ≠ none →
      ∃ i < 32, key = FilterTypes.mask (UInt8.ofNat i) ∧ types.taken i = true := by
    exact typed_nothing _

namespace RuntimeFilters

/-- `FilterMgr::registerRuntimeFilter`: a new type has no rules yet. -/
def registerRuntimeFilter (rf : RuntimeFilters) (name : QString) : RuntimeFilters where
  types := rf.types.registerType name
  m_filters := rf.m_filters
  typed key hkey := by
    obtain ⟨i, hi, hmask, htaken⟩ := rf.typed key hkey
    exact ⟨i, hi, hmask, taken_registerType name hi htaken⟩

/-- First the rules of the type go, then the type. -/
def unregisterRuntimeFilter (rf : RuntimeFilters) (type : UInt8) : RuntimeFilters where
  types := rf.types.unregisterType type
  m_filters := Function.update rf.m_filters (FilterTypes.mask type) none
  typed key hkey := by
    have hne : key ≠ FilterTypes.mask type := by
      rintro rfl
      rw [Function.update_self] at hkey
      exact hkey rfl
    rw [Function.update_of_ne hne] at hkey
    obtain ⟨i, hi, rfl, htaken⟩ := rf.typed key hkey
    refine ⟨i, hi, rfl, ?_⟩
    rw [FilterTypes.taken_unregisterType _ _ hi, htaken, Bool.true_and, decide_eq_true_iff]
    rintro rfl
    exact hne ((FilterTypes.mask_eq_iff _ _).mpr (FilterTypes.ofNat_mod hi))

/-- The runtime filters after an operation. -/
def step (rf : RuntimeFilters) : FilterTypes.Op → RuntimeFilters
  | .registerType name => rf.registerRuntimeFilter name
  | .unregisterType type => rf.unregisterRuntimeFilter type

/-- The manager's types go through the run of the registry. -/
theorem step_types (ops : List FilterTypes.Op) (rf : RuntimeFilters) :
    (ops.foldl step rf).types = ops.foldl FilterTypes.step rf.types := by
  induction ops generalizing rf with
  | nil => rfl
  | cons op ops ih =>
      rw [List.foldl_cons, List.foldl_cons, ih]
      cases op <;> rfl

end RuntimeFilters

end ShoweqDaemon.Rules
