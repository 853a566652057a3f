/-
  Texts with delimiters, and the replacement of what stands between two of them.

  `pieces` cuts a text at its delimiters, `join` puts it together again. `replaceAll` replaces the
  matches of a pattern from left to right, each search going on behind the last match;
  `matchLink` is a pattern that begins and ends with a delimiter and has none inside.
  `replaceAll_matchLink` says what this does piece by piece. Where each match has one mark, as a
  `Marked` pattern says, the marks that are left show whether all matches were replaced.
-/
import Mathlib.Data.List.Basic

namespace Delimited

universe u v

variable {α : Type u} {β : Type v}

/-! ## Pieces -/

/-- What is in front of the first delimiter, and each delimiter with what is behind it. -/
def pieces (del : α → Bool) : List α → List α × List (α × List α)
  | [] => ([], [])
  | c :: l =>
      let p := pieces del l
      if del c then ([], (c, p.1) :: p.2) else (c :: p.1, p.2)

/-- A text in front of its first delimiter, then each delimiter with the text behind it. -/
def join (s : List α) (ps : List (α × List α)) : List α := s ++ ps.flatMap fun p => p.1 :: p.2

/-- No delimiter in there. -/
def Free (del : α → Bool) (s : List α) : Prop := ∀ x ∈ s, del x = false

/-- A delimiter in front, none behind it. -/
def Clean (del : α → Bool) (ps : List (α × List α)) : Prop :=
  ∀ p ∈ ps, del p.1 = true ∧ Free del p.2

theorem join_cons (s : List α) (p : α × List α) (ps : List (α × List α)) :
    join s (p :: ps) = s ++ p.1 :: join p.2 ps := by
  simp [join]

theorem join_append (s s' : List α) (ps : List (α × List α)) :
    join (s ++ s') ps = s ++ join s' ps := List.append_assoc _ _ _

section
variable {del : α → Bool}

theorem free_nil : Free del [] := fun _ h => nomatch h

theorem free_cons {x : α} {s : List α} : Free del (x :: s) ↔ del x = false ∧ Free del s :=
  List.forall_mem_cons

theorem free_append {s t : List α} : Free del (s ++ t) ↔ Free del s ∧ Free del t :=
  List.forall_mem_append

theorem clean_nil : Clean del [] := fun _ h => nomatch h

theorem clean_cons {p : α × List α} {ps : List (α × List α)} :
    Clean del (p :: ps) ↔ (del p.1 = true ∧ Free del p.2) ∧ Clean del ps :=
  List.forall_mem_cons

theorem join_pieces (l : List α) : join (pieces del l).1 (pieces del l).2 = l := by
  induction l with
  | nil => rfl
  | cons c l ih =>
      unfold pieces
      dsimp only
      split
      · rw [join_cons, ih]
        rfl
      · exact congrArg (c :: ·) ih

variable (del) in
theorem pieces_clean (l : List α) : Free del (pieces del l).1 ∧ Clean del (pieces del l).2 := by
  induction l with
  | nil => exact ⟨free_nil, clean_nil⟩
  | cons c l ih =>
      unfold pieces
      dsimp only
      split
      · rename_i hc
        exact ⟨free_nil, clean_cons.mpr ⟨⟨hc, ih.1⟩, ih.2⟩⟩
      · rename_i hc
        exact ⟨free_cons.mpr ⟨by simpa using hc, ih.1⟩, ih.2⟩

/-- A text is cut in one way only. -/
theorem pieces_join {s : List α} {ps : List (α × List α)} (hs : Free del s) (hps : Clean del ps) :
    pieces del (join s ps) = (s, ps) := by
  induction ps generalizing s with
  | nil =>
      induction s with
      | nil => rfl
      | cons c s ih =>
          obtain ⟨hc, hs⟩ := free_cons.mp hs
          have hrest := ih hs
          show pieces del (c :: join s []) = _
          unfold pieces
          rw [hrest, hc]
          rfl
  | cons p ps ih =>
      obtain ⟨⟨hdel, hfree⟩, hps⟩ := clean_cons.mp hps
      induction s with
      | nil =>
          rw [join_cons, List.nil_append]
          unfold pieces
          rw [ih hfree hps, hdel]
          rfl
      | cons c s ihs =>
          obtain ⟨hc, hs⟩ := free_cons.mp hs
          have hrest := ihs hs
          show pieces del (c :: join s (p :: ps)) = _
          unfold pieces
          rw [hrest, hc]
          rfl

end

/-! ## Replacing -/

/-- Replaces each match of `m` in a text of which `k` characters are still part of the last one.
    `m` gives what comes for a match, and how many characters it has behind its first. -/
def replaceAll (m : List α → Option (List α × ℕ)) : ℕ → List α → List α
  | _, [] => []
  | k + 1, _ :: rest => replaceAll m k rest
  | 0, c :: rest =>
      match m (c :: rest) with
      | some (r, n) => r ++ replaceAll m n rest
      | none => c :: replaceAll m 0 rest

/-- A delimiter, a content for which `f` has a replacement, and a delimiter. -/
def matchLink (del : α → Bool) (f : List α → Option (List α)) : List α → Option (List α × ℕ)
  | [] => none
  | c :: rest =>
      let content := rest.takeWhile fun x => !del x
      if del c && content.length < rest.length then
        (f content).map fun r => (r, content.length + 1)
      else none

/-- The same piece by piece: a delimiter that opens no match stays. -/
def replaceLinks (f : List α → Option (List α)) : List (α × List α) → List α
  | [] => []
  | [(d, s)] => d :: s
  | (d, s) :: (d', t) :: rest =>
      match f s with
      | some r => r ++ (t ++ replaceLinks f rest)
      | none => d :: (s ++ replaceLinks f ((d', t) :: rest))

theorem replaceAll_drop (m : List α → Option (List α × ℕ)) (k : ℕ) (l : List α) :
    replaceAll m k l = replaceAll m 0 (l.drop k) := by
  induction l generalizing k with
  | nil => cases k <;> rfl
  | cons c l ih =>
      cases k with
      | zero => rfl
      | succ k => exact ih k

section
variable {del : α → Bool} {f : List α → Option (List α)}

theorem takeWhile_free {s : List α} (hs : Free del s) :
    (s.takeWhile fun x => !del x) = s := by
  have hall : ∀ x ∈ s, (!del x) = true := fun x hx => by simp [hs x hx]
  have h := @List.takeWhile_append_of_pos α _ s [] hall
  simpa using h

theorem takeWhile_delimiter {s : List α} (hs : Free del s) {d : α} (hd : del d = true)
    (l : List α) : ((s ++ d :: l).takeWhile fun x => !del x) = s := by
  rw [List.takeWhile_append_of_pos fun x hx => by simp [hs x hx],
    List.takeWhile_cons_of_neg (by simp [hd]), List.append_nil]

theorem replaceAll_free {s : List α} (hs : Free del s) (l : List α) :
    replaceAll (matchLink del f) 0 (s ++ l) = s ++ replaceAll (matchLink del f) 0 l := by
  induction s with
  | nil => rfl
  | cons c s ih =>
      obtain ⟨hc, hs⟩ := free_cons.mp hs
      have hno : matchLink del f (c :: (s ++ l)) = none := by simp [matchLink, hc]
      rw [List.cons_append, replaceAll, hno, ih hs]
      rfl

theorem replaceAll_unclosed {d : α} {s : List α} (hs : Free del s) :
    replaceAll (matchLink del f) 0 (d :: s) = d :: s := by
  have hno : matchLink del f (d :: s) = none := by simp [matchLink, takeWhile_free hs]
  have hrest := replaceAll_free (f := f) hs []
  rw [List.append_nil] at hrest
  rw [replaceAll, hno, hrest]
  simp [replaceAll]

theorem matchLink_closed {d d' : α} (hd : del d = true) (hd' : del d' = true) {s : List α}
    (hs : Free del s) (l : List α) :
    matchLink del f (d :: (s ++ d' :: l)) = (f s).map fun r => (r, s.length + 1) := by
  simp [matchLink, takeWhile_delimiter hs hd', hd]

theorem replaceAll_join_nil {ps : List (α × List α)} (hps : Clean del ps) :
    replaceAll (matchLink del f) 0 (join [] ps) = replaceLinks f ps := by
  fun_induction replaceLinks f ps with
  | case1 => rfl
  | case2 d s =>
      have hs := (clean_cons.mp hps).1.2
      rw [join_cons, join, List.flatMap_nil, List.append_nil]
      exact replaceAll_unclosed hs
  | case3 d s d' t rest r hr ih =>
      obtain ⟨⟨hd, hs⟩, hps⟩ := clean_cons.mp hps
      obtain ⟨⟨hd', ht⟩, hrest⟩ := clean_cons.mp hps
      have hdrop : (s ++ d' :: join t rest).drop (s.length + 1) = t ++ join [] rest := by
        rw [← List.drop_drop, List.drop_left, List.drop_one, List.tail_cons, ← join_append,
          List.append_nil]
      rw [join_cons, join_cons, List.nil_append, replaceAll, matchLink_closed hd hd' hs, hr]
      dsimp only [Option.map_some]
      rw [replaceAll_drop, hdrop, replaceAll_free ht, ih hrest]
  | case4 d s d' t rest hr ih =>
      obtain ⟨⟨hd, hs⟩, hps⟩ := clean_cons.mp hps
      have hd' := (clean_cons.mp hps).1.1
      rw [join_cons, join_cons, List.nil_append, replaceAll, matchLink_closed hd hd' hs, hr]
      dsimp only [Option.map_none]
      rw [replaceAll_free hs, ← ih hps, join_cons, List.nil_append]

/-- Replacing piece by piece. -/
theorem replaceAll_matchLink (l : List α) :
    replaceAll (matchLink del f) 0 l = (pieces del l).1 ++ replaceLinks f (pieces del l).2 := by
  obtain ⟨hs, hps⟩ := pieces_clean del l
  have hjoin : join (pieces del l).1 (pieces del l).2 = l := join_pieces l
  conv => lhs; rw [← hjoin]
  rw [← List.append_nil (pieces del l).1, join_append, replaceAll_free hs, replaceAll_join_nil hps,
    List.append_nil]

/-- What is left is left in order, if a replacement is a part of its content. -/
theorem replaceLinks_sublist (hf : ∀ s r, f s = some r → r.Sublist s) (ps : List (α × List α)) :
    (replaceLinks f ps).Sublist (join [] ps) := by
  fun_induction replaceLinks f ps with
  | case1 => exact List.Sublist.refl _
  | case2 d s => simp [join]
  | case3 d s d' t rest r hr ih =>
      rw [join_cons, join_cons, List.nil_append, ← List.append_nil t, join_append, List.append_nil]
      have hrest : (t ++ replaceLinks f rest).Sublist (d' :: (t ++ join [] rest)) :=
        ((List.Sublist.refl t).append ih).cons d'
      exact ((hf s r hr).append hrest).cons d
  | case4 d s d' t rest hr ih =>
      rw [join_cons, List.nil_append, ← List.append_nil s, join_append, List.append_nil]
      exact ((List.Sublist.refl s).append ih).cons_cons d

/-- With every link replaced by nothing at most one delimiter is left. -/
theorem count_replaceLinks_nil {ps : List (α × List α)} (hps : Clean del ps) :
    (replaceLinks (fun _ => some []) ps).countP del ≤ 1 := by
  have hfree {s : List α} (hs : Free del s) : s.countP del = 0 :=
    List.countP_eq_zero.mpr fun x hx => by simp [hs x hx]
  fun_induction replaceLinks (fun _ => some []) ps with
  | case1 => simp
  | case2 d s =>
      obtain ⟨hd, hs⟩ := (clean_cons.mp hps).1
      rw [List.countP_cons, hfree hs, hd]
      simp
  | case3 d s d' t rest r hr ih =>
      cases hr
      obtain ⟨-, hps⟩ := clean_cons.mp hps
      obtain ⟨⟨-, ht⟩, hrest⟩ := clean_cons.mp hps
      rw [List.nil_append, List.countP_append, hfree ht, Nat.zero_add]
      exact ih hrest
  | case4 d s d' t rest hr ih => nomatch hr

theorem replaceAll_sublist (hf : ∀ s r, f s = some r → r.Sublist s) (l : List α) :
    (replaceAll (matchLink del f) 0 l).Sublist l := by
  have hjoin : (pieces del l).1 ++ join [] (pieces del l).2 = l := by
    rw [← join_append, List.append_nil, join_pieces]
  rw [replaceAll_matchLink]
  conv => rhs; rw [← hjoin]
  exact (List.Sublist.refl _).append (replaceLinks_sublist hf _)

theorem count_replaceAll_nil (l : List α) :
    (replaceAll (matchLink del fun _ => some []) 0 l).countP del ≤ 1 := by
  obtain ⟨hs, hps⟩ := pieces_clean del l
  have hfront : (pieces del l).1.countP del = 0 :=
    List.countP_eq_zero.mpr fun x hx => by simp [hs x hx]
  rw [replaceAll_matchLink, List.countP_append, hfront, Nat.zero_add]
  exact count_replaceLinks_nil hps

/-- A text with one delimiter has no link. -/
theorem replaceAll_of_count {l : List α} (h : l.countP del ≤ 1) :
    replaceAll (matchLink del f) 0 l = l := by
  obtain ⟨-, hps⟩ := pieces_clean del l
  have hjoin : join (pieces del l).1 (pieces del l).2 = l := join_pieces l
  rw [replaceAll_matchLink]
  cases hpieces : (pieces del l).2 with
  | nil => rw [hpieces] at hjoin; exact hjoin
  | cons p ps =>
      cases ps with
      | nil =>
          rw [hpieces, join_cons, join, List.flatMap_nil, List.append_nil] at hjoin
          exact hjoin
      | cons q rest =>
          rw [hpieces] at hjoin hps
          rw [← hjoin, join_cons, join_cons] at h
          have hp := (hps p List.mem_cons_self).1
          have hq := (hps q (List.mem_cons_of_mem _ List.mem_cons_self)).1
          simp only [List.countP_append, List.countP_cons, hp, hq, if_true] at h
          omega

end

/-! ## Matches with a mark -/

/-- A match begins with the mark, and there is no other one in it or in what replaces it. -/
def Marked (x : α) (m : List α → Option (List α × ℕ)) : Prop :=
  ∀ c s r n, m (c :: s) = some (r, n) → c = x ∧ x ∉ r ∧ x ∉ s.take n

section
variable {m : List α → Option (List α × ℕ)}

theorem replaceAll_none {c : α} {s : List α} (h : m (c :: s) = none) :
    replaceAll m 0 (c :: s) = c :: replaceAll m 0 s := by
  rw [replaceAll, h]

theorem replaceAll_some {c : α} {s r : List α} {n : ℕ} (h : m (c :: s) = some (r, n)) :
    replaceAll m 0 (c :: s) = r ++ replaceAll m 0 (s.drop n) := by
  rw [replaceAll, h]
  dsimp only
  rw [replaceAll_drop]

/-- Where nothing matches the text stays. -/
theorem replaceAll_skip {k : ℕ} {s : List α} (h : ∀ q < k, m (s.drop q) = none) :
    replaceAll m 0 s = s.take k ++ replaceAll m 0 (s.drop k) := by
  induction k generalizing s with
  | zero => rfl
  | succ k ih =>
      cases s with
      | nil => rfl
      | cons c s =>
          have hrest : ∀ q < k, m (s.drop q) = none := fun q hq => h (q + 1) (by omega)
          rw [replaceAll_none (h 0 (Nat.succ_pos k)), ih hrest]
          rfl

variable {x : α} (hm : Marked x m)
include hm

theorem Marked.none_of_ne {c : α} (hc : c ≠ x) (s : List α) : m (c :: s) = none := by
  cases hmatch : m (c :: s) with
  | none => rfl
  | some r => exact absurd (hm c s r.1 r.2 hmatch).1 hc

theorem Marked.replaceAll_append {u : List α} (hu : x ∉ u) (v : List α) :
    replaceAll m 0 (u ++ v) = u ++ replaceAll m 0 v := by
  induction u with
  | nil => rfl
  | cons c u ih =>
      obtain ⟨hc, hu⟩ := List.ne_and_not_mem_of_not_mem_cons hu
      rw [List.cons_append, replaceAll_none (hm.none_of_ne (Ne.symm hc) _), ih hu]
      rfl

variable [DecidableEq α]

/-- A replacement takes a mark away. -/
theorem Marked.count_cons (c : α) (s : List α) :
    (replaceAll m 0 (c :: s)).count x + (if m (c :: s) = none then 0 else 1) =
      (c :: replaceAll m 0 s).count x := by
  cases hmatch : m (c :: s) with
  | none => rw [replaceAll_none hmatch, if_pos rfl, Nat.add_zero]
  | some found =>
      obtain ⟨r, n⟩ := found
      obtain ⟨rfl, hr, hn⟩ := hm c s r n hmatch
      have hrest : replaceAll m 0 s = s.take n ++ replaceAll m 0 (s.drop n) := by
        conv => lhs; rw [← List.take_append_drop n s]
        exact hm.replaceAll_append hn _
      rw [replaceAll_some hmatch, if_neg (Option.some_ne_none _), hrest, List.count_cons_self,
        List.count_append, List.count_append, List.count_eq_zero.mpr hr, List.count_eq_zero.mpr hn]

theorem Marked.count_skip_le (k : ℕ) (s : List α) :
    (replaceAll m 0 s).count x ≤ (s.take k ++ replaceAll m 0 (s.drop k)).count x := by
  induction k generalizing s with
  | zero => exact Nat.le_refl _
  | succ k ih =>
      cases s with
      | nil => exact Nat.le_refl _
      | cons c s =>
          have hhead := hm.count_cons c s
          have hrest := ih s
          rw [List.take_succ_cons, List.drop_succ_cons, List.cons_append]
          rw [List.count_cons] at hhead ⊢
          omega

/-- A match that is passed over keeps its mark. -/
theorem Marked.count_skip_lt {k q : ℕ} (hq : q < k) {s : List α} (hmatch : m (s.drop q) ≠ none)
    (hlen : q < s.length) :
    (replaceAll m 0 s).count x < (s.take k ++ replaceAll m 0 (s.drop k)).count x := by
  induction k generalizing q s with
  | zero => exact absurd hq (Nat.not_lt_zero q)
  | succ k ih =>
      cases s with
      | nil => exact absurd hlen (Nat.not_lt_zero q)
      | cons c s =>
          have hhead := hm.count_cons c s
          rw [List.take_succ_cons, List.drop_succ_cons, List.cons_append]
          rw [List.count_cons] at hhead ⊢
          cases q with
          | zero =>
              have hrest := hm.count_skip_le k s
              have hmatch : m (c :: s) ≠ none := hmatch
              rw [if_neg hmatch] at hhead
              omega
          | succ q =>
              rw [List.length_cons] at hlen
              have hrest := ih (Nat.lt_of_succ_lt_succ hq) hmatch (by omega)
              omega

end

/-! ## Renaming -/

theorem pieces_map (g : α → β) {del : α → Bool} {del' : β → Bool}
    (hdel : ∀ x, del' (g x) = del x) (l : List α) :
    pieces del' (l.map g) =
      ((pieces del l).1.map g, (pieces del l).2.map fun p => (g p.1, p.2.map g)) := by
  induction l with
  | nil => rfl
  | cons c l ih =>
      rw [List.map_cons, pieces, pieces, ih, hdel]
      split <;> rfl

theorem replaceAll_map (g : α → β) {m : List α → Option (List α × ℕ)}
    {m' : List β → Option (List β × ℕ)}
    (hm : ∀ l, m' (l.map g) = (m l).map fun r => (r.1.map g, r.2)) (k : ℕ) (l : List α) :
    replaceAll m' k (l.map g) = (replaceAll m k l).map g := by
  induction l generalizing k with
  | nil => rfl
  | cons c l ih =>
      cases k with
      | succ k => exact ih k
      | zero =>
          have hhead := hm (c :: l)
          rw [List.map_cons] at hhead ⊢
          rw [replaceAll, replaceAll, hhead]
          cases m (c :: l) with
          | none => exact congrArg (g c :: ·) (ih 0)
          | some r =>
              simp only [Option.map_some, List.map_append]
              rw [ih]

theorem matchLink_map (g : α → β) {del : α → Bool} {del' : β → Bool}
    (hdel : ∀ x, del' (g x) = del x) {f : List α → Option (List α)}
    {f' : List β → Option (List β)} (hf : ∀ s, f' (s.map g) = (f s).map (List.map g))
    (l : List α) :
    matchLink del' f' (l.map g) = (matchLink del f l).map fun r => (r.1.map g, r.2) := by
  cases l with
  | nil => rfl
  | cons c l =>
      have htake : ((l.map g).takeWhile fun x => !del' x) =
          (l.takeWhile fun x => !del x).map g := by
        rw [List.takeWhile_map]
        simp [Function.comp_def, hdel]
      simp only [List.map_cons, matchLink, htake, hdel, List.length_map, hf]
      split
      · cases f _ <;> rfl
      · rfl

end Delimited
