/-
  Computations that note what they do on the way.

  `Noted ε α` is a value and the list of notes taken. `Allowed ok x` says that everything
  `x` notes is fine: every read in bounds, every subtraction without underflow, whatever the
  notes stand for. The simp lemmas carry `Allowed` through a do block, and through `and` and
  `or`, which leave out their second operand as the operators of C do. `Agree` compares two
  computations as far as the first is fine.
-/
import Mathlib.Logic.Basic

namespace Audit

universe u v

/-- A value, and the notes that its computation made on the way, in order. -/
structure Noted (ε : Type u) (α : Type v) where
  val : α
  notes : List ε

variable {ε : Type u}

instance : Monad (Noted.{u, v} ε) where
  pure a := ⟨a, []⟩
  bind x f := ⟨(f x.val).val, x.notes ++ (f x.val).notes⟩

/-- One note. -/
def note (e : ε) : Noted ε Unit := ⟨(), [e]⟩

namespace Noted

/-- `x && y`. -/
def and (x y : Noted ε Bool) : Noted ε Bool := do
  if ← x then y else pure false

/-- `x || y`. -/
def or (x y : Noted ε Bool) : Noted ε Bool := do
  if ← x then pure true else y

/-- Everything noted on the way is fine. -/
def Allowed {α : Type v} (ok : ε → Prop) (x : Noted ε α) : Prop := ∀ e ∈ x.notes, ok e

variable {α β : Type v}

instance {α : Type v} (ok : ε → Prop) [DecidablePred ok] (x : Noted ε α) :
    Decidable (x.Allowed ok) :=
  inferInstanceAs (Decidable (∀ e ∈ x.notes, ok e))

@[simp] theorem val_pure (a : α) : (pure a : Noted ε α).val = a := rfl

@[simp] theorem val_bind (x : Noted ε α) (f : α → Noted ε β) : (x >>= f).val = (f x.val).val := rfl

@[simp] theorem val_ite (c : Prop) [Decidable c] (x y : Noted ε α) :
    (if c then x else y).val = if c then x.val else y.val := by
  split <;> rfl

@[simp] theorem val_and (x y : Noted ε Bool) : (x.and y).val = (x.val && y.val) := by
  cases hx : x.val <;> simp [Noted.and, hx]

@[simp] theorem val_or (x y : Noted ε Bool) : (x.or y).val = (x.val || y.val) := by
  cases hx : x.val <;> simp [Noted.or, hx]

@[simp] theorem allowed_pure (ok : ε → Prop) (a : α) : (pure a : Noted ε α).Allowed ok :=
  fun _ he => nomatch he

@[simp] theorem allowed_note (ok : ε → Prop) (e : ε) : (note e).Allowed ok ↔ ok e := by
  simp [Allowed, note]

@[simp] theorem allowed_bind (ok : ε → Prop) (x : Noted ε α) (f : α → Noted ε β) :
    (x >>= f).Allowed ok ↔ x.Allowed ok ∧ (f x.val).Allowed ok := by
  have hnotes : (x >>= f).notes = x.notes ++ (f x.val).notes := rfl
  simp only [Allowed, hnotes, List.mem_append, or_imp, forall_and]

@[simp] theorem allowed_and (ok : ε → Prop) (x y : Noted ε Bool) :
    (x.and y).Allowed ok ↔ x.Allowed ok ∧ (x.val = true → y.Allowed ok) := by
  cases hx : x.val <;> simp [Noted.and, hx]

@[simp] theorem allowed_or (ok : ε → Prop) (x y : Noted ε Bool) :
    (x.or y).Allowed ok ↔ x.Allowed ok ∧ (x.val = false → y.Allowed ok) := by
  cases hx : x.val <;> simp [Noted.or, hx]

/-! ### Two computations -/

/-- They come to the same value if everything the first notes is fine. -/
def Agree (ok : ε → Prop) (x y : Noted ε α) : Prop := x.Allowed ok → y.val = x.val

variable {ok : ε → Prop}

theorem Agree.refl (x : Noted ε α) : x.Agree ok x := fun _ => rfl

theorem Agree.bind {x y : Noted ε α} {f g : α → Noted ε β} (hxy : x.Agree ok y)
    (hfg : (f x.val).Agree ok (g x.val)) : (x >>= f).Agree ok (y >>= g) := by
  intro h
  obtain ⟨hx, hf⟩ := (allowed_bind ok x f).mp h
  rw [val_bind, val_bind, hxy hx]
  exact hfg hf

theorem Agree.ite {x y x' y' : Noted ε α} (c : Prop) [Decidable c] (hxy : x.Agree ok y)
    (hxy' : x'.Agree ok y') : (if c then x else x').Agree ok (if c then y else y') := by
  split
  · exact hxy
  · exact hxy'

theorem Agree.and {x y x' y' : Noted ε Bool} (hxy : x.Agree ok y) (hxy' : x'.Agree ok y') :
    (x.and x').Agree ok (y.and y') := hxy.bind (.ite _ hxy' (.refl _))

theorem Agree.or {x y x' y' : Noted ε Bool} (hxy : x.Agree ok y) (hxy' : x'.Agree ok y') :
    (x.or x').Agree ok (y.or y') := hxy.bind (.ite _ (.refl _) hxy')

end Noted

/-! ## Elements of lists -/

/-- An element that was asked of a list. -/
structure Element where
  index : Nat
  size : Nat

/-- There is such an element. -/
def Element.Inside (e : Element) : Prop := e.index < e.size

instance : DecidablePred Element.Inside := fun e => inferInstanceAs (Decidable (e.index < e.size))

section
variable {α : Type}

/-- An element of a list; the read is noted, and behind the end it gives the default. -/
def element [Inhabited α] (l : List α) (i : Nat) : Noted Element α := do
  note (Element.mk i l.length)
  pure (l.getD i default)

/-- A write of an element; it is noted, and behind the end it does nothing. -/
def setElement (l : List α) (i : Nat) (a : α) : Noted Element (List α) := do
  note (Element.mk i l.length)
  pure (l.set i a)

/-- `n` elements from `i` on. -/
def slice (l : List α) (i n : Nat) : Noted Element (List α) where
  val := (l.drop i).take n
  notes := (List.range n).map fun k => Element.mk (i + k) l.length

@[simp] theorem val_slice (l : List α) (i n : Nat) : (slice l i n).val = (l.drop i).take n := rfl

theorem allowed_slice {l : List α} {i n : Nat} (h : i + n ≤ l.length) :
    (slice l i n).Allowed Element.Inside := by
  intro e he
  obtain ⟨k, hk, rfl⟩ := List.mem_map.mp he
  have hlt := List.mem_range.mp hk
  exact show i + k < l.length by omega

@[simp] theorem val_element [Inhabited α] (l : List α) (i : Nat) :
    (element l i).val = l.getD i default := rfl

@[simp] theorem val_setElement (l : List α) (i : Nat) (a : α) :
    (setElement l i a).val = l.set i a := rfl

@[simp] theorem allowed_element [Inhabited α] (l : List α) (i : Nat) :
    (element l i).Allowed Element.Inside ↔ i < l.length := by
  simp [element, Element.Inside]

@[simp] theorem allowed_setElement (l : List α) (i : Nat) (a : α) :
    (setElement l i a).Allowed Element.Inside ↔ i < l.length := by
  simp [setElement, Element.Inside]

end

/-! ## Runs with a bound -/

/-- With a bound that is enough the run ends, and with none does it ask for an element that is not
    there. -/
def Total {α : Type} (run : Nat → Noted Element (Option α)) : Prop :=
  (∃ fuel, (run fuel).val.isSome) ∧ ∀ fuel, (run fuel).Allowed Element.Inside

end Audit
