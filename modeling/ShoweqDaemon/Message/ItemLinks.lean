/-
  `stripEqItemLinks`: item links in chat texts.

  A link stands between two bytes 0x12. The first pass looks for links with a readable name and
  leaves the name, the second one drops what is left between two bytes. Neither pairs the bytes:
  when a link without a name is skipped, its closing byte may open a match of the first pass, and
  then text between two links is lost. `stripEqItemLinks_iff` says when that does not happen.

  The characters are of any type with a code. With their positions in the text as tags, they show
  which of them are kept.
-/
import Mathlib.Data.List.Sigma
import ShoweqDaemon.Lib.Delimited

namespace ShoweqDaemon.Messages

open Delimited

section
variable {α : Type} (code : α → Char)

/-! ## The two passes -/

/-- `\x12` -/
def isDelimiter (x : α) : Bool := code x == Char.ofNat 0x12

/-- `[0-9A-F]` -/
def isHeader (x : α) : Bool :=
  ('0' ≤ code x && code x ≤ '9') || ('A' ≤ code x && code x ≤ 'F')

/-- `[A-Z][a-z]` -/
def startsName : List α → Bool
  | x :: y :: _ => ('A' ≤ code x && code x ≤ 'Z') && ('a' ≤ code y && code y ≤ 'z')
  | _ => false

/-- The group of `[0-9A-F]+([A-Z][a-z][^\x12]*)` on all of a content: the header is as long as it
    can be, and gives back characters as long as no name follows. -/
def linkName (content : List α) : Option (List α) :=
  let header := (content.takeWhile (isHeader code)).length
  ((List.range header).reverse.find? fun n => startsName code (content.drop (n + 1))).map
    fun n => content.drop (n + 1)

/-- `\x12[0-9A-F]+([A-Z][a-z][^\x12]*)\x12` -/
def rx : List α → Option (List α × ℕ) := matchLink (isDelimiter code) (linkName code)

/-- `\x12[^\x12]*\x12` -/
def fallback : List α → Option (List α × ℕ) := matchLink (isDelimiter code) fun _ => some []

/-- `stripEqItemLinks`: links by the expression first, then what is left of delimiters. -/
def stripEqItemLinks (text : List α) : List α :=
  if text.any (isDelimiter code) then replaceAll (fallback code) 0 (replaceAll (rx code) 0 text)
  else text

/-! ## What it should do -/

/-- The delimiters are paired from left to right. Text outside of the links stays, a link leaves an
    end of its content, and a delimiter without a partner stays, too. -/
inductive Stripped : List α → List α → Prop
  | plain {s : List α} (hs : Free (isDelimiter code) s) : Stripped s s
  | unpaired {s t : List α} {d : α} (hs : Free (isDelimiter code) s)
      (hd : isDelimiter code d = true) (ht : Free (isDelimiter code) t) : Stripped (s ++ d :: t) (s ++ d :: t)
  | link {s content rest r out : List α} {d d' : α} (hs : Free (isDelimiter code) s)
      (hd : isDelimiter code d = true) (hcontent : Free (isDelimiter code) content)
      (hd' : isDelimiter code d' = true) (hr : r <:+ content) (hrest : Stripped rest out) :
      Stripped (s ++ d :: (content ++ d' :: rest)) (s ++ (r ++ out))

/-- Of the pieces behind the delimiters: where a link without a name is followed by another
    delimiter, the text up to that one does not look like a link with a name. -/
def Clear : List (α × List α) → Prop
  | (_, content) :: (_, between) :: p :: rest =>
      ((linkName code content).isSome = true ∨ linkName code between = none) ∧ Clear (p :: rest)
  | _ => True

/-- The text outside of the links, but for what is in front of the first one. -/
def outside : List (α × List α) → List α
  | [] => []
  | [_] => []
  | _ :: (_, t) :: rest => t ++ outside rest

end

section
variable {α : Type} {code : α → Char}

/-! ## Names -/

theorem linkName_some {content r : List α} (h : linkName code content = some r) :
    ∃ x tail, content = x :: tail ∧ r <:+ tail := by
  obtain ⟨n, hn, rfl⟩ := Option.map_eq_some_iff.mp h
  have hlt : n < (content.takeWhile (isHeader code)).length := by
    simpa using List.mem_of_find?_eq_some hn
  cases content with
  | nil => simp at hlt
  | cons x tail => exact ⟨x, tail, rfl, List.drop_suffix n tail⟩

theorem linkName_suffix {content r : List α} (h : linkName code content = some r) :
    r <:+ content := by
  obtain ⟨x, tail, rfl, hr⟩ := linkName_some h
  exact hr.trans (List.suffix_cons x tail)

theorem free_suffix {del : α → Bool} {s r : List α} (hs : Free del s) (h : r <:+ s) : Free del r :=
  fun x hx => hs x (h.subset hx)

theorem linkName_map {β : Type} {code' : β → Char} {g : α → β} (hg : ∀ x, code' (g x) = code x)
    (content : List α) :
    linkName code' (content.map g) = (linkName code content).map (List.map g) := by
  have hheader : isHeader code' ∘ g = isHeader code := by
    funext x
    simp [isHeader, hg]
  have hstarts (s : List α) : startsName code' (s.map g) = startsName code s := by
    rcases s with _ | ⟨x, _ | ⟨y, s⟩⟩
    · rfl
    · rfl
    · simp [startsName, hg]
  unfold linkName
  rw [List.takeWhile_map, hheader]
  simp only [List.length_map, ← List.map_drop, hstarts, Option.map_map]
  rfl

/-! ## Text that is kept -/

theorem Stripped.append {s l out : List α} (hs : Free (isDelimiter code) s)
    (h : Stripped code l out) : Stripped code (s ++ l) (s ++ out) := by
  cases h with
  | plain hl => exact .plain (free_append.mpr ⟨hs, hl⟩)
  | unpaired hs' hd ht =>
      have hall := Stripped.unpaired (free_append.mpr ⟨hs, hs'⟩) hd ht
      simpa using hall
  | link hs' hd hcontent hd' hr hrest =>
      have hall := Stripped.link (free_append.mpr ⟨hs, hs'⟩) hd hcontent hd' hr hrest
      simpa using hall

/-- The second pass on a link that the first one has left. -/
theorem fallback_link {d d' : α} (hd : isDelimiter code d = true)
    (hd' : isDelimiter code d' = true) {s : List α} (hs : Free (isDelimiter code) s)
    (l : List α) :
    replaceAll (fallback code) 0 (d :: (s ++ d' :: l)) = replaceAll (fallback code) 0 l := by
  have hdrop : (s ++ d' :: l).drop (s.length + 1) = l := by
    rw [← List.drop_drop, List.drop_left, List.drop_one, List.tail_cons]
  unfold fallback
  rw [replaceAll, matchLink_closed hd hd' hs]
  dsimp only [Option.map_some]
  rw [List.nil_append, replaceAll_drop, hdrop]

/-- A link without a name is left to the second pass, if the next delimiters are paired, too. -/
theorem replaceLinks_kept {c t : List α} {rest : List (α × List α)} {d d' : α}
    (hname : linkName code c = none) (hbetween : rest = [] ∨ linkName code t = none) :
    replaceLinks (linkName code) ((d, c) :: (d', t) :: rest) =
      d :: (c ++ d' :: (t ++ replaceLinks (linkName code) rest)) := by
  have hnext : replaceLinks (linkName code) ((d', t) :: rest) =
      d' :: (t ++ replaceLinks (linkName code) rest) := by
    cases rest with
    | nil => simp [replaceLinks]
    | cons p rest =>
        obtain ⟨e, u⟩ := p
        rw [replaceLinks, hbetween.resolve_left (List.cons_ne_nil _ _)]
  rw [replaceLinks, hname]
  dsimp only
  rw [hnext]

/-- Where no text looks like a link the delimiters stay paired. -/
theorem stripped_of_clear {ps : List (α × List α)} (hps : Clean (isDelimiter code) ps)
    (h : Clear code ps) :
    Stripped code (join [] ps)
      (replaceAll (fallback code) 0 (replaceLinks (linkName code) ps)) := by
  fun_induction outside ps with
  | case1 => exact .plain free_nil
  | case2 p =>
      obtain ⟨d, s⟩ := p
      obtain ⟨hd, hs⟩ := (clean_cons.mp hps).1
      have hsingle : join [] [(d, s)] = d :: s := by simp [join]
      rw [hsingle, replaceLinks, fallback, replaceAll_unclosed hs]
      exact .unpaired free_nil hd hs
  | case3 p d' t rest ih =>
      obtain ⟨d, c⟩ := p
      obtain ⟨⟨hd, hc⟩, hps'⟩ := clean_cons.mp hps
      obtain ⟨⟨hd', ht⟩, hrest⟩ := clean_cons.mp hps'
      have hrestClear : Clear code rest := by
        cases rest with
        | nil => trivial
        | cons p rest => exact h.2
      have htail : Stripped code (join t rest)
          (t ++ replaceAll (fallback code) 0 (replaceLinks (linkName code) rest)) := by
        have hrest' := (ih hrest hrestClear).append ht
        rwa [← join_append, List.append_nil] at hrest'
      rw [join_cons, join_cons, List.nil_append]
      cases hname : linkName code c with
      | some r =>
          have hr := linkName_suffix hname
          have hlink := Stripped.link free_nil hd hc hd' hr htail
          rw [replaceLinks, hname]
          dsimp only
          unfold fallback at hlink ⊢
          rw [replaceAll_free (free_suffix hc hr), replaceAll_free ht]
          exact hlink
      | none =>
          have hbetween : rest = [] ∨ linkName code t = none := by
            cases rest with
            | nil => exact .inl rfl
            | cons p rest => exact .inr (h.1.resolve_left (by rw [hname]; exact Bool.false_ne_true))
          have hlink := Stripped.link free_nil hd hc hd' List.nil_suffix htail
          rw [replaceLinks_kept hname hbetween, fallback_link hd hd' hc]
          unfold fallback at hlink ⊢
          rw [replaceAll_free ht]
          exact hlink

/-! ## Text that is lost -/

theorem outside_subset_join (ps : List (α × List α)) : ∀ x ∈ outside ps, x ∈ join [] ps := by
  fun_induction outside ps with
  | case1 => exact fun x hx => nomatch hx
  | case2 p => exact fun x hx => nomatch hx
  | case3 p d' t rest ih =>
      intro x hx
      rw [join_cons, join_cons, ← List.append_nil t, join_append]
      rcases List.mem_append.mp hx with hx | hx
      · simp [hx]
      · simp [ih x hx]

/-- What is outside of the links is kept where links are stripped. -/
theorem Stripped.outside_subset {l out : List α} (h : Stripped code l out) :
    ∀ x ∈ (pieces (isDelimiter code) l).1 ++ outside (pieces (isDelimiter code) l).2, x ∈ out := by
  induction h with
  | @plain s hs =>
      have hpieces := pieces_join hs clean_nil
      rw [join, List.flatMap_nil, List.append_nil] at hpieces
      simp [hpieces, outside]
  | @unpaired s t d hs hd ht =>
      have hpieces := pieces_join hs ((clean_cons (p := (d, t))).mpr ⟨⟨hd, ht⟩, clean_nil⟩)
      rw [join_cons, join, List.flatMap_nil, List.append_nil] at hpieces
      rw [hpieces]
      intro x hx
      simp only [outside, List.append_nil] at hx
      simp [hx]
  | @link s content rest r out d d' hs hd hcontent hd' hr hrest ih =>
      obtain ⟨hfirst, hbehind⟩ := pieces_clean (isDelimiter code) rest
      have hclosed : Clean (isDelimiter code) ((d', (pieces (isDelimiter code) rest).1) ::
          (pieces (isDelimiter code) rest).2) := clean_cons.mpr ⟨⟨hd', hfirst⟩, hbehind⟩
      have hpieces := pieces_join hs
        ((clean_cons (p := (d, content))).mpr ⟨⟨hd, hcontent⟩, hclosed⟩)
      rw [join_cons, join_cons, join_pieces] at hpieces
      rw [hpieces]
      intro x hx
      rcases List.mem_append.mp hx with hx | hx
      · exact List.mem_append_left _ hx
      · exact List.mem_append_right _ (List.mem_append_right _ (ih x hx))

theorem replaceLinks_subset (ps : List (α × List α)) :
    ∀ x ∈ replaceLinks (linkName code) ps, x ∈ join [] ps := fun _ hx =>
  (replaceLinks_sublist (fun _ _ hname => (linkName_suffix hname).sublist) ps).subset hx

section
variable {d d' : α} {c t : List α} {p : α × List α} {rest : List (α × List α)}
  (hnodup : (join [] ((d, c) :: (d', t) :: p :: rest)).Nodup)
include hnodup

/-- The three parts have no character in common. -/
theorem nodup_parts : (∀ x ∈ d :: c, x ∉ d' :: t ∧ x ∉ join [] (p :: rest)) ∧ (d' :: t).Nodup ∧
    (∀ x ∈ d' :: t, x ∉ join [] (p :: rest)) ∧ (join [] (p :: rest)).Nodup := by
  have hjoin : join [] ((d, c) :: (d', t) :: p :: rest) =
      (d :: c) ++ ((d' :: t) ++ join [] (p :: rest)) := by
    simp [join]
  rw [hjoin] at hnodup
  obtain ⟨-, hbehind, hapart⟩ := List.nodup_append.mp hnodup
  obtain ⟨ht, hrest, hapart'⟩ := List.nodup_append.mp hbehind
  refine ⟨fun x hx => ⟨fun hin => ?_, fun hin => ?_⟩, ht, fun x hx hin => hapart' x hx x hin rfl,
    hrest⟩
  · exact hapart x hx x (List.mem_append_left _ hin) rfl
  · exact hapart x hx x (List.mem_append_right _ hin) rfl

/-- The closing delimiter of a link is taken for the opening one of a link with a name: the first
    character of the text between the links is lost. -/
theorem lost_between {r : List α} (hname : linkName code c = none) (hr : linkName code t = some r) :
    ∃ x ∈ t, x ∉ replaceLinks (linkName code) ((d, c) :: (d', t) :: p :: rest) := by
  obtain ⟨hc, ht, hbehind, -⟩ := nodup_parts hnodup
  obtain ⟨x, tail, rfl, hsuffix⟩ := linkName_some hr
  obtain ⟨e, u⟩ := p
  have hx : x ∈ d' :: x :: tail := List.mem_cons_of_mem d' List.mem_cons_self
  refine ⟨x, List.mem_cons_self, fun hin => ?_⟩
  rw [replaceLinks, hname] at hin
  dsimp only at hin
  rw [replaceLinks, hr] at hin
  rcases List.mem_append.mp (show x ∈ (d :: c) ++ _ from hin) with hin | hin
  · exact (hc x hin).1 hx
  · rcases List.mem_append.mp hin with hin | hin
    · exact (List.nodup_cons.mp (List.nodup_cons.mp ht).2).1 (hsuffix.subset hin)
    · refine hbehind x hx ?_
      rw [join_cons, ← List.append_nil u, join_append]
      rcases List.mem_append.mp hin with hin | hin
      · simp [hin]
      · simp [replaceLinks_subset rest x hin]

/-- What is lost behind a link is lost. -/
theorem lost_behind (hhead : (linkName code c).isSome = true ∨ linkName code t = none) {x : α}
    (hx : x ∈ join [] (p :: rest)) (hlost : x ∉ replaceLinks (linkName code) (p :: rest)) :
    x ∉ replaceLinks (linkName code) ((d, c) :: (d', t) :: p :: rest) := by
  obtain ⟨hc, -, hbehind, -⟩ := nodup_parts hnodup
  have hback : x ∉ d' :: (t ++ replaceLinks (linkName code) (p :: rest)) := by
    intro hin
    rcases List.mem_append.mp (show x ∈ (d' :: t) ++ _ from hin) with hin | hin
    · exact hbehind x hin hx
    · exact hlost hin
  intro hin
  cases hname : linkName code c with
  | some r =>
      rw [replaceLinks, hname] at hin
      rcases List.mem_append.mp hin with hin | hin
      · exact (hc x (List.mem_cons_of_mem d ((linkName_suffix hname).subset hin))).2 hx
      · exact hback (List.mem_cons_of_mem d' hin)
  | none =>
      have hnone : linkName code t = none :=
        hhead.resolve_left (by rw [hname]; exact Bool.false_ne_true)
      rw [replaceLinks_kept hname (.inr hnone)] at hin
      rcases List.mem_append.mp (show x ∈ (d :: c) ++ _ from hin) with hin | hin
      · exact (hc x hin).2 hx
      · exact hback hin

end

/-- Otherwise a character between two links is lost. -/
theorem lost_of_not_clear {ps : List (α × List α)} (hnodup : (join [] ps).Nodup)
    (h : ¬ Clear code ps) : ∃ x ∈ outside ps, x ∉ replaceLinks (linkName code) ps := by
  fun_induction outside ps with
  | case1 => exact (h trivial).elim
  | case2 p => exact (h trivial).elim
  | case3 p d' t rest ih =>
      obtain ⟨d, c⟩ := p
      cases rest with
      | nil => exact (h trivial).elim
      | cons p rest =>
          by_cases hhead : (linkName code c).isSome = true ∨ linkName code t = none
          · have hrest := (nodup_parts hnodup).2.2.2
            obtain ⟨x, hx, hlost⟩ := ih hrest fun hclear => h ⟨hhead, hclear⟩
            have hmem := outside_subset_join _ x hx
            exact ⟨x, List.mem_append_right t hx, lost_behind hnodup hhead hmem hlost⟩
          · obtain ⟨hname, hbetween⟩ := not_or.mp hhead
            obtain ⟨r, hr⟩ := Option.ne_none_iff_exists'.mp hbetween
            have hnone : linkName code c = none := Option.not_isSome_iff_eq_none.mp hname
            obtain ⟨x, hx, hlost⟩ := lost_between hnodup hnone hr
            exact ⟨x, List.mem_append_left _ hx, hlost⟩

/-! ## All of a text -/

theorem stripEqItemLinks_of_count {text : List α} (h : text.countP (isDelimiter code) ≤ 1) :
    stripEqItemLinks code text = text := by
  rw [stripEqItemLinks, rx, replaceAll_of_count h, fallback, replaceAll_of_count h, ite_self]

/-- Without a delimiter the two passes change nothing. -/
theorem stripEqItemLinks_eq (text : List α) :
    stripEqItemLinks code text =
      (pieces (isDelimiter code) text).1 ++
        replaceAll (fallback code) 0
          (replaceLinks (linkName code) (pieces (isDelimiter code) text).2) := by
  obtain ⟨hs, -⟩ := pieces_clean (isDelimiter code) text
  have htwo : replaceAll (fallback code) 0 (replaceAll (rx code) 0 text) =
      (pieces (isDelimiter code) text).1 ++ replaceAll (fallback code) 0
        (replaceLinks (linkName code) (pieces (isDelimiter code) text).2) := by
    rw [rx, replaceAll_matchLink, fallback, replaceAll_free hs]
  rw [← htwo]
  unfold stripEqItemLinks
  split
  · rfl
  · rename_i hno
    have hcount : text.countP (isDelimiter code) ≤ 1 := by
      have hzero : text.countP (isDelimiter code) = 0 :=
        List.countP_eq_zero.mpr fun x hx hdel => hno (List.any_eq_true.mpr ⟨x, hx, hdel⟩)
      omega
    rw [rx, replaceAll_of_count hcount, fallback, replaceAll_of_count hcount]

theorem count_stripEqItemLinks (text : List α) :
    (stripEqItemLinks code text).countP (isDelimiter code) ≤ 1 := by
  obtain ⟨hs, -⟩ := pieces_clean (isDelimiter code) text
  rw [stripEqItemLinks_eq, fallback, ← replaceAll_free hs]
  exact count_replaceAll_nil _

theorem stripEqItemLinks_idem (text : List α) :
    stripEqItemLinks code (stripEqItemLinks code text) = stripEqItemLinks code text :=
  stripEqItemLinks_of_count (count_stripEqItemLinks text)

theorem stripEqItemLinks_stripped {text : List α}
    (h : Clear code (pieces (isDelimiter code) text).2) :
    Stripped code text (stripEqItemLinks code text) := by
  obtain ⟨hs, hps⟩ := pieces_clean (isDelimiter code) text
  have hstripped := (stripped_of_clear hps h).append hs
  rwa [← join_append, List.append_nil, join_pieces, ← stripEqItemLinks_eq] at hstripped

/-- A text of which no character is there twice shows what is lost. -/
theorem clear_of_stripped {text : List α} (hnodup : text.Nodup)
    (h : Stripped code text (stripEqItemLinks code text)) :
    Clear code (pieces (isDelimiter code) text).2 := by
  by_contra hclear
  have hjoin : (pieces (isDelimiter code) text).1 ++ join [] (pieces (isDelimiter code) text).2 =
      text := by
    rw [← join_append, List.append_nil, join_pieces]
  obtain ⟨-, hbehind, hapart⟩ := List.nodup_append.mp (hjoin ▸ hnodup)
  obtain ⟨x, hx, hlost⟩ := lost_of_not_clear hbehind hclear
  have hkept := h.outside_subset x (List.mem_append_right _ hx)
  rw [stripEqItemLinks_eq] at hkept
  rcases List.mem_append.mp hkept with hkept | hkept
  · exact hapart x hkept x (outside_subset_join _ x hx) rfl
  · refine hlost ((replaceAll_sublist ?_ _).subset hkept)
    rintro s r ⟨⟩
    exact List.nil_sublist s

/-! ## Positions -/

theorem clear_map {β : Type} {code' : β → Char} {g : α → β} (hg : ∀ x, code' (g x) = code x)
    (ps : List (α × List α)) :
    Clear code' (ps.map fun p => (g p.1, p.2.map g)) ↔ Clear code ps := by
  fun_induction outside ps with
  | case1 => exact Iff.rfl
  | case2 p => exact Iff.rfl
  | case3 p d' t rest ih =>
      obtain ⟨d, c⟩ := p
      cases rest with
      | nil => exact Iff.rfl
      | cons p rest =>
          have hcontent := linkName_map hg c
          have hbetween := linkName_map hg t
          simp only [List.map_cons, Clear, hcontent, hbetween] at ih ⊢
          rw [ih, Option.isSome_map, Option.map_eq_none_iff]

theorem stripEqItemLinks_map {β : Type} {code' : β → Char} {g : α → β}
    (hg : ∀ x, code' (g x) = code x) (text : List α) :
    stripEqItemLinks code' (text.map g) = (stripEqItemLinks code text).map g := by
  have hdel (x : α) : isDelimiter code' (g x) = isDelimiter code x := by simp [isDelimiter, hg]
  have hfirst := replaceAll_map g (matchLink_map g hdel (linkName_map hg)) 0 text
  have hsecond (l : List α) : replaceAll (fallback code') 0 (l.map g) =
      (replaceAll (fallback code) 0 l).map g :=
    replaceAll_map g (matchLink_map g hdel fun _ => rfl) 0 l
  unfold stripEqItemLinks
  rw [List.any_map, show isDelimiter code' ∘ g = isDelimiter code from funext hdel]
  split
  · rw [rx, rx, hfirst, hsecond]
  · rfl

end

/-- With its positions in a text as tags each character can be told from the others. The links are
    stripped as they should be if and only if no link without a name is followed by text that
    looks like a link with one; at most one delimiter is left, and the next time nothing happens,
    in any case. -/
theorem stripEqItemLinks_iff (text : List Char) :
    (Stripped Prod.fst text.zipIdx (stripEqItemLinks Prod.fst text.zipIdx) ↔
      Clear id (pieces (isDelimiter id) text).2) ∧
    (stripEqItemLinks Prod.fst text.zipIdx).map Prod.fst = stripEqItemLinks id text ∧
    (stripEqItemLinks id text).countP (isDelimiter id) ≤ 1 ∧
    stripEqItemLinks id (stripEqItemLinks id text) = stripEqItemLinks id text := by
  have htext : text.zipIdx.map Prod.fst = text := List.zipIdx_map_fst 0 text
  have hnodup : text.zipIdx.Nodup := by
    have hpositions : (text.zipIdx.map Prod.snd).Nodup := List.nodup_zipIdx_map_snd text
    exact hpositions.of_map
  have hclear : Clear id (pieces (isDelimiter id) text).2 ↔
      Clear Prod.fst (pieces (isDelimiter Prod.fst) text.zipIdx).2 := by
    have hdel : ∀ x : Char × ℕ, isDelimiter id x.1 = isDelimiter Prod.fst x := fun _ => rfl
    have hmap := pieces_map Prod.fst hdel text.zipIdx
    rw [htext] at hmap
    rw [hmap]
    exact clear_map (fun _ => rfl) _
  refine ⟨?_, ?_, count_stripEqItemLinks text, stripEqItemLinks_idem text⟩
  · rw [hclear]
    exact ⟨clear_of_stripped hnodup, stripEqItemLinks_stripped⟩
  · have hcode : ∀ x : Char × ℕ, id x.1 = x.1 := fun _ => rfl
    rw [← stripEqItemLinks_map hcode, htext]

/-- Two links without a name, and text with a capital between them. -/
def swords : List Char :=
  Char.ofNat 0x12 :: ("001".toList ++ Char.ofNat 0x12 :: ("2Swords and ".toList ++
    Char.ofNat 0x12 :: ("002".toList ++ [Char.ofNat 0x12])))

theorem stripEqItemLinks_swords : ¬ Stripped id swords (stripEqItemLinks id swords) := by
  intro h
  have hkept := h.outside_subset 'S'
  revert hkept
  decide

end ShoweqDaemon.Messages
