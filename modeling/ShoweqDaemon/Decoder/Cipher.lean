/-
  The ciphers that `decryptZoneSpawn` and `decryptProfile` undo.

  The forward direction swaps words 0 and `n / 2`, then masks each word with a running key to
  which the plain word is added. The decryptors rebuild the same key from the words they
  have decrypted; `unchain_chain` and `chain_unchain` carry the equality of the two keys
  through the buffer. `obfuscation_inverts`: on buffers of every length each decryptor is a
  bijection with the forward cipher as its inverse on both sides, and the bytes behind the
  last whole word stay.
-/
import Mathlib.Data.Nat.Digits.Defs
import Mathlib.Data.Set.Function
import ShoweqDaemon.Lib.Bits
import ShoweqDaemon.Decoder.Emit

namespace ShoweqDaemon.Decoder

/-! ## The forward ciphers -/

/-- Each word is mixed and masked with `crypt`, and the plain word goes into the next `crypt`. -/
def chain (mix : UInt64 → UInt64) (step : UInt64) : UInt64 → List UInt64 → List UInt64
  | _, [] => []
  | crypt, d :: ds => (mix d - crypt) :: chain mix step (crypt + d - step) ds

/-- Both ciphers, on the whole words of the buffer. The swap comes first. -/
def encryptWords (mix : UInt64 → UInt64) (step crypt : UInt64) (buf : List UInt8) : List UInt8 :=
  let n := buf.length >>> 3
  (chain mix step crypt (unswap (words n buf))).flatMap toLE64 ++ buf.drop (8 * n)

/-- What the server does to the spawns of a zone, as the inverse of `decryptZoneSpawn`. -/
def encryptZoneSpawn (buf : List UInt8) : List UInt8 :=
  encryptWords (fun d => rol64 (rol64 d 29 + 0x659365E7) 14) 0x659365E7 0 buf

/-- What the server does to a profile, as the inverse of `decryptProfile`. -/
def encryptProfile (buf : List UInt8) : List UInt8 :=
  encryptWords (fun d => rol64 (ror64 d 25 + 0x422437A9) 7) 0x422437A9 0x659365E7 buf

/-! ## Rotations -/

theorem toNat_sub_of_lt {n : UInt64} (h : n.toNat < 64) : (64 - n).toNat = 64 - n.toNat := by
  rw [UInt64.toNat_sub]
  have h64 : (64 : UInt64).toNat = 64 := rfl
  omega

theorem rol64_toBitVec (x : UInt64) {n : UInt64} (h0 : 0 < n.toNat) (h : n.toNat < 64) :
    (rol64 x n).toBitVec = x.toBitVec.rotateLeft n.toNat := by
  have h64 : BitVec.toNat (64 : BitVec 64) = 64 := rfl
  rw [BitVec.rotateLeft_def, Nat.mod_eq_of_lt h]
  simp only [rol64, UInt64.toBitVec_or, UInt64.toBitVec_shiftLeft, UInt64.toBitVec_shiftRight,
    BitVec.shiftLeft_eq', BitVec.ushiftRight_eq', BitVec.toNat_umod, UInt64.toNat_toBitVec,
    toNat_sub_of_lt h]
  rw [h64, Nat.mod_eq_of_lt h, Nat.mod_eq_of_lt (by omega)]

theorem ror64_toBitVec (x : UInt64) {n : UInt64} (h0 : 0 < n.toNat) (h : n.toNat < 64) :
    (ror64 x n).toBitVec = x.toBitVec.rotateRight n.toNat := by
  have h64 : BitVec.toNat (64 : BitVec 64) = 64 := rfl
  rw [BitVec.rotateRight_def, Nat.mod_eq_of_lt h]
  simp only [ror64, UInt64.toBitVec_or, UInt64.toBitVec_shiftLeft, UInt64.toBitVec_shiftRight,
    BitVec.shiftLeft_eq', BitVec.ushiftRight_eq', BitVec.toNat_umod, UInt64.toNat_toBitVec,
    toNat_sub_of_lt h]
  rw [h64, Nat.mod_eq_of_lt h, Nat.mod_eq_of_lt (by omega)]

theorem ror64_rol64 (x : UInt64) {n : UInt64} (h0 : 0 < n.toNat) (h : n.toNat < 64) :
    ror64 (rol64 x n) n = x := by
  apply UInt64.toBitVec_inj.mp
  rw [ror64_toBitVec _ h0 h, rol64_toBitVec x h0 h]
  exact Bits.rotateRight_rotateLeft x.toBitVec n.toNat

theorem rol64_ror64 (x : UInt64) {n : UInt64} (h0 : 0 < n.toNat) (h : n.toNat < 64) :
    rol64 (ror64 x n) n = x := by
  apply UInt64.toBitVec_inj.mp
  rw [rol64_toBitVec _ h0 h, ror64_toBitVec x h0 h]
  exact Bits.rotateLeft_rotateRight x.toBitVec n.toNat

/-! ## Words and bytes -/

/-- The little-endian value of a few bytes, as a number. -/
theorem le64_toNat (bs : List UInt8) (h : bs.length ≤ 8) :
    (le64 bs).toNat = Nat.ofDigits 256 (bs.map UInt8.toNat) := by
  induction bs with
  | nil => rfl
  | cons b bs ih =>
      have hlen : bs.length ≤ 7 := Nat.le_of_succ_le_succ h
      have hacc := ih (by omega)
      have hlt : (le64 bs).toNat < 256 ^ 7 := by
        rw [hacc]
        have hdigits : ∀ x ∈ bs.map UInt8.toNat, x < 256 := by
          intro x hx
          obtain ⟨c, -, rfl⟩ := List.mem_map.mp hx
          exact c.toNat_lt
        refine lt_of_lt_of_le (Nat.ofDigits_lt_base_pow_length (by decide) hdigits) ?_
        rw [List.length_map]
        exact Nat.pow_le_pow_right (by decide) hlen
      have hshift : (le64 bs).toNat <<< 8 % 18446744073709551616 = (le64 bs).toNat <<< 8 := by
        rw [Nat.shiftLeft_eq]
        omega
      have hor := Nat.shiftLeft_add_eq_or_of_lt b.toNat_lt (le64 bs).toNat
      show (le64 bs <<< 8 ||| b.toUInt64).toNat = _
      rw [List.map_cons, Nat.ofDigits_cons, ← hacc]
      simp only [UInt64.toNat_or, UInt64.toNat_shiftLeft, UInt8.toNat_toUInt64, UInt64.toNat_ofNat,
        Nat.reducePow, Nat.reduceMod]
      rw [hshift, ← hor, Nat.shiftLeft_eq]
      omega

/-- Byte `k` of a word. -/
theorem toUInt8_shiftRight (w k : UInt64) (hk : k.toNat < 64) :
    (w >>> k).toUInt8.toNat = w.toNat / 2 ^ k.toNat % 256 := by
  rw [UInt64.toNat_toUInt8, UInt64.toNat_shiftRight, Nat.mod_eq_of_lt hk,
    Nat.shiftRight_eq_div_pow]

theorem map_toNat_toLE64 (w : UInt64) :
    (toLE64 w).map UInt8.toNat = [w.toNat % 256, w.toNat / 2 ^ 8 % 256, w.toNat / 2 ^ 16 % 256,
      w.toNat / 2 ^ 24 % 256, w.toNat / 2 ^ 32 % 256, w.toNat / 2 ^ 40 % 256,
      w.toNat / 2 ^ 48 % 256, w.toNat / 2 ^ 56 % 256] := by
  simp only [toLE64, List.map_cons, List.map_nil, UInt64.toNat_toUInt8 w,
    toUInt8_shiftRight w 8 (by decide), toUInt8_shiftRight w 16 (by decide),
    toUInt8_shiftRight w 24 (by decide), toUInt8_shiftRight w 32 (by decide),
    toUInt8_shiftRight w 40 (by decide), toUInt8_shiftRight w 48 (by decide),
    toUInt8_shiftRight w 56 (by decide)]
  rfl

theorem le64_toLE64 (w : UInt64) : le64 (toLE64 w) = w := by
  apply UInt64.toNat_inj.mp
  have hw := w.toNat_lt
  rw [le64_toNat (toLE64 w) (by simp), map_toNat_toLE64]
  simp only [Nat.ofDigits_cons, Nat.ofDigits_nil]
  omega

theorem toLE64_le64 : ∀ bs : List UInt8, bs.length = 8 → toLE64 (le64 bs) = bs
  | [b₀, b₁, b₂, b₃, b₄, b₅, b₆, b₇], _ => by
    have hinj : Function.Injective UInt8.toNat := fun _ _ => UInt8.toNat_inj.mp
    apply List.map_injective_iff.mpr hinj
    rw [map_toNat_toLE64, le64_toNat [b₀, b₁, b₂, b₃, b₄, b₅, b₆, b₇] (Nat.le_refl 8)]
    have h₀ := b₀.toNat_lt
    have h₁ := b₁.toNat_lt
    have h₂ := b₂.toNat_lt
    have h₃ := b₃.toNat_lt
    have h₄ := b₄.toNat_lt
    have h₅ := b₅.toNat_lt
    have h₆ := b₆.toNat_lt
    have h₇ := b₇.toNat_lt
    simp only [List.map_cons, List.map_nil, Nat.ofDigits_cons, Nat.ofDigits_nil, List.cons.injEq,
      and_true]
    omega

/-- Words that were laid out are read back. -/
theorem words_flatMap (ws : List UInt64) (rest : List UInt8) :
    words ws.length (ws.flatMap toLE64 ++ rest) = ws := by
  induction ws with
  | nil => rfl
  | cons w ws ih =>
      have hsplit : (w :: ws).flatMap toLE64 ++ rest = toLE64 w ++ (ws.flatMap toLE64 ++ rest) := by
        rw [List.flatMap_cons, List.append_assoc]
      have htake : (toLE64 w ++ (ws.flatMap toLE64 ++ rest)).take 8 = toLE64 w :=
        List.take_left' (toLE64_length w)
      have hdrop : (toLE64 w ++ (ws.flatMap toLE64 ++ rest)).drop 8 = ws.flatMap toLE64 ++ rest :=
        List.drop_left' (toLE64_length w)
      rw [hsplit, List.length_cons, words, htake, hdrop, le64_toLE64, ih]

/-- Words that were read are laid out as they were. -/
theorem flatMap_words (n : Nat) (buf : List UInt8) (h : 8 * n ≤ buf.length) :
    (words n buf).flatMap toLE64 = buf.take (8 * n) := by
  induction n generalizing buf with
  | zero => rfl
  | succ n ih =>
      have hword : toLE64 (le64 (buf.take 8)) = buf.take 8 :=
        toLE64_le64 (buf.take 8) (by rw [List.length_take]; omega)
      have hrest := ih (buf.drop 8) (by rw [List.length_drop]; omega)
      rw [words, List.flatMap_cons, hword, hrest, Nat.mul_succ, Nat.add_comm, List.take_add]

/-! ## The chained key -/

section
variable {mix undo : UInt64 → UInt64}

@[simp] theorem chain_length (mix : UInt64 → UInt64) (step crypt : UInt64) (ds : List UInt64) :
    (chain mix step crypt ds).length = ds.length := by
  induction ds generalizing crypt with
  | nil => rfl
  | cons d ds ih => simp [chain, ih]

/-- Decrypting rebuilds the key that encrypting had. -/
theorem unchain_chain (h : ∀ d, undo (mix d) = d) (step crypt : UInt64) (ds : List UInt64) :
    unchain undo step crypt (chain mix step crypt ds) = ds := by
  induction ds generalizing crypt with
  | nil => rfl
  | cons d ds ih =>
      have hplain : undo (mix d - crypt + crypt) = d := by
        rw [UInt64.sub_add_cancel, h]
      rw [chain, unchain, hplain, ih]

/-- Encrypting rebuilds the key that decrypting had. -/
theorem chain_unchain (h : ∀ e, mix (undo e) = e) (step crypt : UInt64) (es : List UInt64) :
    chain mix step crypt (unchain undo step crypt es) = es := by
  induction es generalizing crypt with
  | nil => rfl
  | cons e es ih =>
      have hmasked : mix (undo (e + crypt)) - crypt = e := by
        rw [h, UInt64.add_sub_cancel]
      rw [unchain, chain, hmasked, ih]

/-- The words of a swap and where they lie afterwards. -/
theorem unswap_getD {data : List UInt64} (h : 2 ≤ data.length) :
    unswap data = (data.set 0 (data.getD (data.length / 2) 0)).set (data.length / 2)
        (data.getD 0 0) ∧
      (unswap data).getD 0 0 = data.getD (data.length / 2) 0 ∧
      (unswap data).getD (data.length / 2) 0 = data.getD 0 0 := by
  have heq : unswap data = (data.set 0 (data.getD (data.length / 2) 0)).set (data.length / 2)
      (data.getD 0 0) := if_pos h
  have hm : data.length / 2 < data.length := by omega
  have hpos : data.length / 2 ≠ 0 := by omega
  refine ⟨heq, ?_, ?_⟩
  · rw [heq, List.getD_eq_getElem?_getD, List.getElem?_set_ne hpos,
      List.getElem?_set_self (by omega)]
    rfl
  · rw [heq, List.getD_eq_getElem?_getD, List.getElem?_set_self (by rwa [List.length_set])]
    rfl

theorem unswap_unswap (data : List UInt64) : unswap (unswap data) = data := by
  by_cases h : 2 ≤ data.length
  · obtain ⟨heq, hfirst, hmiddle⟩ := unswap_getD h
    have hlen := unswap_length data
    have hpos : 0 ≠ data.length / 2 := by omega
    have hm : data.length / 2 < data.length := by omega
    rw [(unswap_getD (hlen.symm ▸ h)).1, hlen, hfirst, hmiddle, heq, List.set_comm _ _ hpos.symm,
      List.set_set, List.set_set]
    simp only [List.getD_eq_getElem?_getD, List.getElem?_eq_getElem hm,
      List.getElem?_eq_getElem (show 0 < data.length by omega), Option.getD_some,
      List.set_getElem_self]
  · unfold unswap
    simp [h]

/-! ## Buffers -/

theorem whole_words_le (buf : List UInt8) : 8 * (buf.length >>> 3) ≤ buf.length := by
  rw [Nat.shiftRight_eq_div_pow]
  omega

/-- A buffer whose whole words are replaced: it keeps its length and its last bytes, and the new
    words are read back. -/
theorem replaced_words {buf : List UInt8} {ws : List UInt64} (h : ws.length = buf.length >>> 3) :
    (ws.flatMap toLE64 ++ buf.drop (8 * (buf.length >>> 3))).length = buf.length ∧
      words (buf.length >>> 3) (ws.flatMap toLE64 ++ buf.drop (8 * (buf.length >>> 3))) = ws ∧
      (ws.flatMap toLE64 ++ buf.drop (8 * (buf.length >>> 3))).drop (8 * (buf.length >>> 3)) =
        buf.drop (8 * (buf.length >>> 3)) := by
  have hle := whole_words_le buf
  have hlen : (ws.flatMap toLE64).length = 8 * (buf.length >>> 3) := by
    rw [flatMap_toLE64_length, h]
  refine ⟨?_, ?_, List.drop_left' hlen⟩
  · rw [List.length_append, hlen, List.length_drop]
    omega
  · rw [← h]
    exact words_flatMap ws _

theorem decryptWords_encryptWords (h : ∀ d, undo (mix d) = d) (step crypt : UInt64)
    (buf : List UInt8) :
    decryptWords undo step crypt (encryptWords mix step crypt buf) = buf := by
  have hcount : (chain mix step crypt (unswap (words (buf.length >>> 3) buf))).length =
      buf.length >>> 3 := by simp
  obtain ⟨hlen, hwords, hdrop⟩ := replaced_words hcount
  unfold decryptWords encryptWords
  dsimp only
  rw [hlen, hwords, hdrop, unchain_chain h, unswap_unswap, flatMap_words _ _ (whole_words_le buf),
    List.take_append_drop]

theorem encryptWords_decryptWords (h : ∀ e, mix (undo e) = e) (step crypt : UInt64)
    (buf : List UInt8) :
    encryptWords mix step crypt (decryptWords undo step crypt buf) = buf := by
  have hcount : (unswap (unchain undo step crypt (words (buf.length >>> 3) buf))).length =
      buf.length >>> 3 := by simp
  obtain ⟨hlen, hwords, hdrop⟩ := replaced_words hcount
  unfold decryptWords encryptWords
  dsimp only
  rw [hlen, hwords, hdrop, unswap_unswap, chain_unchain h, flatMap_words _ _ (whole_words_le buf),
    List.take_append_drop]

theorem decryptWords_drop (undo : UInt64 → UInt64) (step crypt : UInt64) (buf : List UInt8) :
    (decryptWords undo step crypt buf).drop (8 * (buf.length / 8)) =
      buf.drop (8 * (buf.length / 8)) := by
  have hwords : (unswap (unchain undo step crypt (words (buf.length >>> 3) buf))).length =
      buf.length >>> 3 := by simp
  have hn : buf.length / 8 = buf.length >>> 3 := (Nat.shiftRight_eq_div_pow buf.length 3).symm
  rw [hn]
  exact (replaced_words hwords).2.2

end

/-- `dec` and `enc` undo each other on the buffers of every length, and the bytes behind the last
    whole word stay. -/
structure Inverts (dec enc : List UInt8 → List UInt8) : Prop where
  dec_enc : ∀ buf, dec (enc buf) = buf
  enc_dec : ∀ buf, enc (dec buf) = buf
  bijOn : ∀ n, Set.BijOn dec {buf | buf.length = n} {buf | buf.length = n}
  tail : ∀ buf, (dec buf).drop (8 * (buf.length / 8)) = buf.drop (8 * (buf.length / 8))

theorem decryptWords_inverts {mix undo : UInt64 → UInt64} (hundo : ∀ d, undo (mix d) = d)
    (hmix : ∀ e, mix (undo e) = e) (step crypt : UInt64) :
    Inverts (decryptWords undo step crypt) (encryptWords mix step crypt) where
  dec_enc := decryptWords_encryptWords hundo step crypt
  enc_dec := encryptWords_decryptWords hmix step crypt
  bijOn n := by
    refine ⟨fun buf hbuf => ?_, fun buf _ buf' _ heq => ?_, fun buf hbuf => ?_⟩
    · exact (decryptWords_length undo step crypt buf).trans hbuf
    · rw [← encryptWords_decryptWords hmix step crypt buf, heq,
        encryptWords_decryptWords hmix step crypt buf']
    · refine ⟨encryptWords mix step crypt buf, ?_, decryptWords_encryptWords hundo step crypt buf⟩
      have hlen := decryptWords_length undo step crypt (encryptWords mix step crypt buf)
      rw [decryptWords_encryptWords hundo] at hlen
      exact hlen.symm.trans hbuf
  tail := decryptWords_drop undo step crypt

/-- Each of the two ciphers of the decoder is undone by its counterpart, and undoes it, for payloads
    of every length: the whole words are put back, and the bytes behind the last one are never
    touched. -/
theorem obfuscation_inverts :
    Inverts decryptZoneSpawn encryptZoneSpawn ∧ Inverts decryptProfile encryptProfile := by
  constructor
  · refine decryptWords_inverts (fun d => ?_) (fun e => ?_) 0x659365E7 0
    · rw [ror64_rol64 _ (by decide) (by decide), UInt64.add_sub_cancel,
        ror64_rol64 _ (by decide) (by decide)]
    · rw [rol64_ror64 _ (by decide) (by decide), UInt64.sub_add_cancel,
        rol64_ror64 _ (by decide) (by decide)]
  · refine decryptWords_inverts (fun d => ?_) (fun e => ?_) 0x422437A9 0x659365E7
    · rw [ror64_rol64 _ (by decide) (by decide), UInt64.add_sub_cancel,
        rol64_ror64 _ (by decide) (by decide)]
    · rw [ror64_rol64 _ (by decide) (by decide), UInt64.sub_add_cancel,
        rol64_ror64 _ (by decide) (by decide)]

end ShoweqDaemon.Decoder
