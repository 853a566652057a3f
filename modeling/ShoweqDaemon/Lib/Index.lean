/-
  Tables of pointers that index objects by one of their fields.

  `Indexes key t` says that what `t` has under a key is an object with that key; the entries of
  such a table are its objects, each once. `SameObjects` compares two indexes. Putting a new object
  under its keys keeps two indexes over the same objects exactly when what it displaces is the same
  in both (`sameObjects_insert_iff`).

  An object whose key changes is taken out and put back under the new one (`Indexes.move`); what
  was there is displaced.

  Proved:
  * `Indexes.insert`, `Indexes.erase`, `Indexes.move`: what keeps a table an index.
  * `holds_insert`, `holds_erase`, `holds_move`: whose objects it has after that.
  * `sameObjects_insert_iff`, `sameObjects_move_iff`: when two indexes still have the same
    objects.
-/
import ShoweqDaemon.Lib.Table

namespace Index

universe u v w

variable {α : Type u} {κ : Type v} {ι : Type w}

/-- What the table has under a key is an object with that key. -/
def Indexes [DecidableEq κ] (key : α → κ) (t : Table κ α) : Prop :=
  ∀ k a, t.lookup k = some a → key a = k

/-- The object is in the table. -/
def Holds [DecidableEq κ] (t : Table κ α) (a : α) : Prop := ∃ k, t.lookup k = some a

/-- Two tables have the same objects. -/
def SameObjects [DecidableEq κ] [DecidableEq ι] (t : Table κ α) (t' : Table ι α) : Prop :=
  ∀ a, Holds t a ↔ Holds t' a

section

variable [DecidableEq κ] {key : α → κ} {t : Table κ α}

theorem Indexes.holds_iff (h : Indexes key t) (a : α) : Holds t a ↔ t.lookup (key a) = some a := by
  constructor
  · rintro ⟨k, hk⟩
    rwa [h k a hk]
  · exact fun ha => ⟨key a, ha⟩

/-- What the table has under the key is the object that has the key. -/
theorem Indexes.lookup_iff (h : Indexes key t) (k : κ) (a : α) :
    t.lookup k = some a ↔ Holds t a ∧ key a = k := by
  constructor
  · exact fun hk => ⟨⟨k, hk⟩, h k a hk⟩
  · rintro ⟨ha, rfl⟩
    exact (h.holds_iff a).mp ha

theorem holds_erase (h : Indexes key t) (k : κ) (a : α) :
    Holds (t.erase k) a ↔ Holds t a ∧ key a ≠ k := by
  constructor
  · rintro ⟨k', hk'⟩
    rw [Table.lookup_erase] at hk'
    split at hk'
    · cases hk'
    · rename_i hne
      exact ⟨⟨k', hk'⟩, by rwa [h k' a hk']⟩
  · rintro ⟨ha, hne⟩
    exact ⟨key a, by rw [Table.lookup_erase, if_neg hne]; exact (h.holds_iff a).mp ha⟩

theorem Indexes.erase (h : Indexes key t) (k : κ) : Indexes key (t.erase k) := by
  intro k' a ha
  rw [Table.lookup_erase] at ha
  split at ha
  · cases ha
  · exact h k' a ha

/-- The keys of the objects are the keys of the table. -/
theorem Indexes.map_values (h : Indexes key t) : t.values.map key = t.keys := by
  unfold Table.values AList.keys List.keys
  rw [List.map_map]
  refine List.map_congr_left fun e he => ?_
  exact h e.1 e.2 (AList.mem_lookup_iff.mpr he)

/-- An object outside the table may change its key. -/
theorem Indexes.congr {key' : α → κ} (h : Indexes key t) (hkey : ∀ a, Holds t a → key' a = key a) :
    Indexes key' t := by
  intro k a ha
  rw [hkey a ⟨k, ha⟩]
  exact h k a ha

theorem Indexes.insert (h : Indexes key t) {k : κ} {a : α} (ha : key a = k) :
    Indexes key (t.insert k a) := by
  intro k' b hb
  rw [Table.lookup_insert] at hb
  split at hb
  · rename_i heq
    obtain rfl := Option.some.inj hb
    rw [heq, ha]
  · exact h k' b hb

/-- Without the object the table indexes the others, also when that object gets another key. -/
theorem Indexes.erase_moved (h : Indexes key t) {a : α} {old : κ} (hold : t.lookup old = some a)
    {moved : α → κ} (hmoved : ∀ b, b ≠ a → moved b = key b) : Indexes moved (t.erase old) := by
  refine (h.erase old).congr fun b hb => hmoved b fun heq => ?_
  rw [holds_erase h, heq] at hb
  exact hb.2 (h old a hold)

theorem holds_insert (h : Indexes key t) (k : κ) (a b : α) :
    Holds (t.insert k a) b ↔ b = a ∨ (Holds t b ∧ key b ≠ k) := by
  constructor
  · rintro ⟨k', hk'⟩
    rw [Table.lookup_insert] at hk'
    split at hk'
    · exact Or.inl (Option.some.inj hk').symm
    · rename_i hne
      exact Or.inr ⟨⟨k', hk'⟩, by rwa [h k' b hk']⟩
  · rintro (rfl | ⟨hb, hne⟩)
    · exact ⟨k, by rw [Table.lookup_insert, if_pos rfl]⟩
    · exact ⟨key b, by rw [Table.lookup_insert, if_neg hne]; exact (h.holds_iff b).mp hb⟩

/-- An object that moves to another key. -/
theorem Indexes.move (h : Indexes key t) {a : α} {old : κ} (hold : t.lookup old = some a)
    {moved : α → κ} (hmoved : ∀ b, b ≠ a → moved b = key b) :
    Indexes moved ((t.erase old).insert (moved a) a) :=
  (h.erase_moved hold hmoved).insert rfl

theorem holds_move (h : Indexes key t) {a : α} {old : κ} (hold : t.lookup old = some a)
    {moved : α → κ} (hmoved : ∀ b, b ≠ a → moved b = key b) (new : κ) (b : α) :
    Holds ((t.erase old).insert new a) b ↔ b = a ∨ (Holds t b ∧ key b ≠ old ∧ key b ≠ new) := by
  rw [holds_insert (h.erase_moved hold hmoved), holds_erase h, and_assoc]
  refine or_congr_right' fun hb => and_congr_right fun _ => and_congr_right fun _ => ?_
  rw [hmoved b hb]

end

section

variable [DecidableEq κ] [DecidableEq ι] {key : α → κ} {key' : α → ι} {t : Table κ α}
  {t' : Table ι α}

theorem SameObjects.symm (h : SameObjects t t') : SameObjects t' t := fun a => (h a).symm

theorem SameObjects.comm : SameObjects t t' ↔ SameObjects t' t := ⟨symm, symm⟩

/-- A new object put under `k` and `k'` displaces the same object, or none, in both indexes. -/
theorem sameObjects_insert_iff (h : Indexes key t) (h' : Indexes key' t') (hsame : SameObjects t t')
    {a : α} (ha : ¬ Holds t a) (k : κ) (k' : ι) :
    SameObjects (t.insert k a) (t'.insert k' a) ↔ t.lookup k = t'.lookup k' := by
  constructor
  · intro hafter
    ext b
    rw [h.lookup_iff, h'.lookup_iff, ← hsame b]
    refine and_congr_right fun hb => ?_
    have hne : b ≠ a := fun heq => ha (heq ▸ hb)
    have hb' := hafter b
    rw [holds_insert h, holds_insert h', or_iff_right hne, or_iff_right hne,
      and_iff_right hb, and_iff_right ((hsame b).mp hb)] at hb'
    exact not_iff_not.mp hb'
  · intro hdisplaced b
    rw [holds_insert h, holds_insert h', ← hsame b]
    refine or_congr_right (and_congr_right fun hb => not_congr ?_)
    have hk := h.lookup_iff k b
    have hk' := h'.lookup_iff k' b
    rw [← hdisplaced] at hk'
    exact ((and_iff_right hb).symm.trans hk.symm).trans
      (hk'.trans (and_iff_right ((hsame b).mp hb)))

/-- The entry of one object dropped from both. -/
theorem sameObjects_erase (h : Indexes key t) (h' : Indexes key' t') (hsame : SameObjects t t')
    {a : α} (ha : Holds t a) : SameObjects (t.erase (key a)) (t'.erase (key' a)) := by
  intro b
  rw [holds_erase h, holds_erase h', ← hsame b]
  refine and_congr_right fun hb => not_congr ?_
  have hk := (h.lookup_iff (key a) b).symm.trans (by rw [(h.holds_iff a).mp ha])
  have hk' := (h'.lookup_iff (key' a) b).symm.trans (by rw [(h'.holds_iff a).mp ((hsame a).mp ha)])
  exact ((and_iff_right hb).symm.trans hk).trans
    (hk'.symm.trans (and_iff_right ((hsame b).mp hb)))

/-- An object that moves to another key keeps the two indexes over the same objects exactly when
    it displaces no other object. -/
theorem sameObjects_move_iff (h : Indexes key t) (hsame : SameObjects t t') {a : α} {old new : κ}
    (hold : t.lookup old = some a) {moved : α → κ} (hmoved : ∀ b, b ≠ a → moved b = key b) :
    SameObjects ((t.erase old).insert new a) t' ↔ new = old ∨ t.lookup new = none := by
  have hkey : key a = old := h old a hold
  have hholds := holds_move h hold hmoved new
  constructor
  · intro hafter
    by_contra hcon
    obtain ⟨hne, hsome⟩ := not_or.mp hcon
    obtain ⟨b, hb⟩ := Option.ne_none_iff_exists'.mp hsome
    have hb' : Holds t b ∧ key b = new := (h.lookup_iff new b).mp hb
    have hgone := ((hholds b).mp ((hafter b).mpr ((hsame b).mp hb'.1))).resolve_left fun heq => by
      rw [heq, hkey] at hb'
      exact hne hb'.2.symm
    exact hgone.2.2 hb'.2
  · intro hfree b
    rw [hholds, ← hsame b]
    constructor
    · rintro (rfl | ⟨hb, -⟩)
      · exact ⟨old, hold⟩
      · exact hb
    · intro hb
      by_cases heq : b = a
      · exact Or.inl heq
      · have hbold : key b ≠ old := fun hk => heq
          (Option.some.inj (((h.lookup_iff old b).mpr ⟨hb, hk⟩).symm.trans hold))
        refine Or.inr ⟨hb, hbold, fun hk => ?_⟩
        obtain rfl | hnone := hfree
        · exact hbold hk
        · rw [(h.lookup_iff new b).mpr ⟨hb, hk⟩] at hnone
          cases hnone

end

end Index
