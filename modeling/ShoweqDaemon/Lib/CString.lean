/-
  Texts that end with a NUL.

  `upToNul` goes through an array together with the bytes of a text, as `strcpy` does with its
  target and a scan for the NUL with its source: one element for each byte in front of the NUL, and
  one more for the NUL. Where the text has none it asks for the element behind its last byte.

  `within` is the same for bytes whose length bounds the search for the NUL. Both are noted
  element by element, so that a field that is too small shows in the accesses and not in the text.

  Proved:
  * `text_length_lt_iff`: a text has a NUL behind it just when it is shorter than its bytes.
  * `allowed_upToNul`: the elements exist just when the text and its NUL fit; `allowed_within`:
    they do where the bytes do.
  * `val_upToNul`, `val_within`: what is read, whether the elements exist or not.
-/
import ShoweqDaemon.Lib.Audit
import Mathlib.Data.List.TakeDrop

namespace CString

open Audit

/-- The bytes in front of the first NUL. -/
def text (bytes : List UInt8) : List UInt8 := bytes.takeWhile (· ≠ 0)

/-- From element `i` on, of an array with `size` elements. -/
def upToNul (size : ℕ) : ℕ → List UInt8 → Noted Element (List UInt8)
  | i, [] => do
      note (Element.mk i size)
      pure []
  | i, b :: rest => do
      note (Element.mk i size)
      if b = 0 then pure []
      else do
        let front ← upToNul size (i + 1) rest
        pure (b :: front)

/-- The same, but no element behind the bytes is asked for, as by `strnlen`. -/
def within (size : ℕ) : ℕ → List UInt8 → Noted Element (List UInt8)
  | _, [] => pure []
  | i, b :: rest => do
      note (Element.mk i size)
      if b = 0 then pure []
      else do
        let front ← within size (i + 1) rest
        pure (b :: front)

@[simp] theorem text_nil : text [] = [] := rfl

theorem text_nul (rest : List UInt8) : text (0 :: rest) = [] := rfl

theorem text_cons {b : UInt8} (h : b ≠ 0) (rest : List UInt8) : text (b :: rest) = b :: text rest :=
  List.takeWhile_cons_of_pos (decide_eq_true h)

/-- There is a NUL just when the text ends in front of the last byte. -/
theorem text_length_lt_iff (bytes : List UInt8) :
    (text bytes).length < bytes.length ↔ 0 ∈ bytes := by
  induction bytes with
  | nil => simp
  | cons b rest ih =>
      by_cases hb : b = 0
      · rw [hb, text_nul]
        simp
      · rw [text_cons hb, List.length_cons, List.length_cons, Nat.succ_lt_succ_iff, ih,
          List.mem_cons]
        constructor
        · exact Or.inr
        · rintro (h | h)
          · exact absurd h.symm hb
          · exact h

@[simp] theorem val_upToNul (size i : ℕ) (bytes : List UInt8) :
    (upToNul size i bytes).val = text bytes := by
  induction bytes generalizing i with
  | nil => rfl
  | cons b rest ih =>
      by_cases hb : b = 0
      · rw [hb, text_nul]
        rfl
      · rw [text_cons hb]
        simp [upToNul, hb, ih]

/-- All elements exist just when the text and its NUL fit. -/
@[simp] theorem allowed_upToNul (size i : ℕ) (bytes : List UInt8) :
    (upToNul size i bytes).Allowed Element.Inside ↔ i + (text bytes).length < size := by
  induction bytes generalizing i with
  | nil => simp [upToNul, Element.Inside]
  | cons b rest ih =>
      by_cases hb : b = 0
      · rw [hb, text_nul]
        simp [upToNul, Element.Inside]
      · rw [text_cons hb]
        simp only [upToNul, if_neg hb, Noted.allowed_bind, Noted.allowed_note, Noted.allowed_pure,
          ih, Element.Inside, List.length_cons, and_true]
        omega

@[simp] theorem val_within (size i : ℕ) (bytes : List UInt8) :
    (within size i bytes).val = text bytes := by
  induction bytes generalizing i with
  | nil => rfl
  | cons b rest ih =>
      by_cases hb : b = 0
      · rw [hb, text_nul]
        rfl
      · rw [text_cons hb]
        simp [within, hb, ih]

/-- Elements exist where the bytes do. -/
theorem allowed_within {size i : ℕ} {bytes : List UInt8} (h : i + bytes.length ≤ size) :
    (within size i bytes).Allowed Element.Inside := by
  induction bytes generalizing i with
  | nil => exact Noted.allowed_pure _ _
  | cons b rest ih =>
      rw [List.length_cons] at h
      have hfirst : i < size := by omega
      by_cases hb : b = 0
      · simp [within, hb, Element.Inside, hfirst]
      · simp only [within, if_neg hb, Noted.allowed_bind, Noted.allowed_note, Noted.allowed_pure,
          and_true]
        exact ⟨hfirst, ih (by omega)⟩

/-- A text without a NUL is all of it, and so are NULs behind it. -/
theorem text_append_replicate {s : List UInt8} (h : 0 ∉ s) (n : ℕ) :
    text (s ++ List.replicate n 0) = s := by
  induction s with
  | nil =>
      cases n with
      | zero => rfl
      | succ n => rfl
  | cons b s ih =>
      have hb : b ≠ 0 := fun hb => h (hb ▸ List.mem_cons_self)
      rw [List.cons_append, text_cons hb, ih fun hmem => h (List.mem_cons_of_mem b hmem)]

end CString
