/-
  Copies of a keyed set, kept by updates.

  A source holds entities, each under a key; `held k a` says that it holds `a` under `k`. A copy has
  at most one entity for a key and follows the source by resets, puts and removals. It
  mirrors the source only as long as no two held entities share a key.

  Proved:
  * `mirrors_reset`: a copy that starts anew from all that is held mirrors it just when no key is
    shared.
  * `Mirrors.put_held`, `Mirrors.put_new`, `Mirrors.remove`: one update for one change.
  * `putAll_spec`, `putOn_eq`: the last entry of a key counts, over what the copy had before.
-/
import Mathlib.Data.List.Induction
import Mathlib.Logic.Function.Basic

namespace Replica

universe u v

variable {κ : Type u} {α : Type v}

/-- What the owner of the entities tells a copy. -/
inductive Update (κ : Type u) (α : Type v) where
  /-- Start anew from a list, later entries over earlier ones. -/
  | reset (entries : List (κ × α))
  | put (key : κ) (entity : α)
  | remove (key : κ)
  /-- Nothing about who is there. -/
  | keep

section
variable [DecidableEq κ]

/-- A copy made of a list, where later entries go over earlier ones. -/
def putAll (entries : List (κ × α)) : κ → Option α :=
  entries.foldl (fun copy e => Function.update copy e.1 (some e.2)) fun _ => none

/-- What an update does to a copy: the last entry of a key counts, and a removal takes what is under
    the key, whatever it is. -/
def apply (copy : κ → Option α) : Update κ α → κ → Option α
  | .reset entries => putAll entries
  | .put key entity => Function.update copy key (some entity)
  | .remove key => Function.update copy key none
  | .keep => copy

end

/-- The copy has exactly what the source holds. -/
def Mirrors (copy : κ → Option α) (held : κ → α → Prop) : Prop :=
  ∀ k a, copy k = some a ↔ held k a

/-- No two entities are held under one key. -/
def Unambiguous (held : κ → α → Prop) : Prop := ∀ k a b, held k a → held k b → a = b

theorem Mirrors.unambiguous {copy : κ → Option α} {held : κ → α → Prop} (h : Mirrors copy held) :
    Unambiguous held := by
  intro k a b ha hb
  exact Option.some.inj (((h k a).mpr ha).symm.trans ((h k b).mpr hb))

section
variable [DecidableEq κ]

theorem putAll_append (entries : List (κ × α)) (e : κ × α) :
    putAll (entries ++ [e]) = Function.update (putAll entries) e.1 (some e.2) := by
  simp [putAll]

/-- What a reset copy has comes from the list, and every key of the list has something. -/
theorem putAll_spec (entries : List (κ × α)) (k : κ) :
    (∀ a, putAll entries k = some a → (k, a) ∈ entries) ∧
      (∀ a, (k, a) ∈ entries → ∃ b, putAll entries k = some b) := by
  induction entries using List.reverseRecOn with
  | nil => simp [putAll]
  | append_singleton entries e ih =>
      obtain ⟨hfrom, hsome⟩ := ih
      rw [putAll_append]
      by_cases hk : k = e.1
      · subst hk
        rw [Function.update_self]
        refine ⟨fun a ha => ?_, fun a _ => ⟨e.2, rfl⟩⟩
        obtain rfl := Option.some.inj ha
        simp
      · rw [Function.update_of_ne hk]
        refine ⟨fun a ha => List.mem_append_left _ (hfrom a ha), fun a ha => ?_⟩
        rcases List.mem_append.mp ha with hmem | hmem
        · exact hsome a hmem
        · exact absurd (congrArg Prod.fst (List.mem_singleton.mp hmem)) hk

/-- A copy that starts anew from everything the source holds mirrors it, unless keys are shared. -/
theorem mirrors_reset {entries : List (κ × α)} {held : κ → α → Prop}
    (hmem : ∀ k a, (k, a) ∈ entries ↔ held k a) (copy : κ → Option α) :
    Mirrors (apply copy (.reset entries)) held ↔ Unambiguous held := by
  refine ⟨Mirrors.unambiguous, fun hun k a => ?_⟩
  obtain ⟨hfrom, hsome⟩ := putAll_spec entries k
  constructor
  · intro ha
    exact (hmem k a).mp (hfrom a ha)
  · intro ha
    obtain ⟨b, hb⟩ := hsome a ((hmem k a).mpr ha)
    have hheld : held k b := (hmem k b).mp (hfrom b hb)
    show putAll entries k = some a
    rw [hb, hun k b a hheld ha]

/-- To announce again what is held changes nothing. -/
theorem Mirrors.put_held {copy : κ → Option α} {held : κ → α → Prop} (h : Mirrors copy held)
    {k : κ} {a : α} (ha : held k a) : Mirrors (apply copy (.put k a)) held := by
  have hself : Function.update copy k (some a) = copy := by
    rw [← (h k a).mpr ha, Function.update_eq_self]
  show Mirrors (Function.update copy k (some a)) held
  rw [hself]
  exact h

/-- A new entity under a free key. -/
theorem Mirrors.put_new {copy : κ → Option α} {held held' : κ → α → Prop} (h : Mirrors copy held)
    {k : κ} {a : α} (hfree : ∀ b, ¬ held k b)
    (hheld' : ∀ k' a', held' k' a' ↔ held k' a' ∨ (k' = k ∧ a' = a)) :
    Mirrors (apply copy (.put k a)) held' := by
  intro k' a'
  show Function.update copy k (some a) k' = some a' ↔ held' k' a'
  rw [hheld']
  by_cases hk : k' = k
  · subst hk
    rw [Function.update_self]
    constructor
    · intro heq
      exact Or.inr ⟨rfl, (Option.some.inj heq).symm⟩
    · rintro (hb | ⟨-, rfl⟩)
      · exact absurd hb (hfree a')
      · rfl
  · rw [Function.update_of_ne hk, h k' a']
    exact ⟨Or.inl, fun h' => h'.resolve_right fun h' => hk h'.1⟩

/-- One entity is gone. -/
theorem Mirrors.remove {copy : κ → Option α} {held held' : κ → α → Prop} (h : Mirrors copy held)
    {k : κ} {a : α} (ha : held k a)
    (hheld' : ∀ k' a', held' k' a' ↔ held k' a' ∧ ¬ (k' = k ∧ a' = a)) :
    Mirrors (apply copy (.remove k)) held' := by
  intro k' a'
  show Function.update copy k none k' = some a' ↔ held' k' a'
  rw [hheld']
  by_cases hk : k' = k
  · subst hk
    rw [Function.update_self]
    refine ⟨fun h' => (nomatch h'), fun ⟨hb, hne⟩ => ?_⟩
    exact absurd ⟨rfl, h.unambiguous k' a' a hb ha⟩ hne
  · rw [Function.update_of_ne hk, h k' a']
    exact ⟨fun h' => ⟨h', fun h' => hk h'.1⟩, fun h' => h'.1⟩

/-- Entries put on top of a copy. -/
def putOn (copy : κ → Option α) (entries : List (κ × α)) : κ → Option α :=
  entries.foldl (fun copy e => Function.update copy e.1 (some e.2)) copy

/-- The last put under a key counts. -/
theorem putOn_eq (copy : κ → Option α) (entries : List (κ × α)) (k : κ) :
    putOn copy entries k = (putAll entries k).or (copy k) := by
  induction entries using List.reverseRecOn with
  | nil => rfl
  | append_singleton entries e ih =>
      rw [putAll_append, putOn, List.foldl_append]
      show Function.update (putOn copy entries) e.1 (some e.2) k =
        (Function.update (putAll entries) e.1 (some e.2) k).or (copy k)
      by_cases hk : k = e.1
      · subst hk
        rw [Function.update_self, Function.update_self]
        rfl
      · rw [Function.update_of_ne hk, Function.update_of_ne hk, ih]

end

end Replica
