/-
  When rules come back from their file.

  Rules with plain patterns do. Conversely, a pattern that comes back and is not plain was read from
  a piece of the file that is longer than it: a piece with a reference in it, or a character data
  section. Only patterns have the marks of these, '&', '[' and ']', so the piece lies within a
  pattern, that is not plain either and longer; or the section goes on beyond the pattern that it
  begins in, and has the "</regex>" behind that.

  Proved:
  * `Filters.longer_of_roundTrip`: the longer pattern.
  * `Filters.roundTrip_allPlain`: unless a pattern has "</regex>" in it, the rules come back
    exactly when all patterns are plain.
-/
import ShoweqDaemon.Filter.Persist

namespace ShoweqDaemon.Rules

open Spawns (QString)
open XmlReader LoadXmlContentHandler

/-! ## The patterns that are loaded -/

section
variable {valid : QRegularExpression → Bool} {types : FilterTypes}

theorem orig_of_mem_addFilter {fs : Filters types} {type type' : UInt8} {p : QString} {lo hi : UInt8}
    {re : FilterItem} (hmem : re ∈ (fs.addFilter valid type p lo hi).1.items type') :
    re ∈ fs.items type' ∨ re.origFilterPattern = p := by
  by_cases hmask : types.validMask (FilterTypes.mask type) = true
  · rw [Filters.addFilter_eq valid fs hmask, Filters.items_put] at hmem
    split_ifs at hmem with heq
    · rw [Filter.addFilter_items] at hmem
      have hitems : fs.items type' = (fs.filterOf type).m_filterItems := by
        rw [← Filters.items_eq]
        unfold Filters.items
        rw [heq]
      rw [hitems]
      split_ifs at hmem
      · exact Or.inl hmem
      · cases List.mem_append.mp hmem with
        | inl hold => exact Or.inl hold
        | inr hnew =>
            rw [List.mem_singleton.mp hnew]
            exact Or.inr rfl
    · exact Or.inl hmem
  · unfold Filters.addFilter at hmem
    rw [dif_neg hmask] at hmem
    exact Or.inl hmem

namespace LoadXmlContentHandler

/-- All that the handler holds of patterns satisfies `P`. -/
def Holds (P : QString → Prop) (h : LoadXmlContentHandler types) : Prop :=
  P h.m_currentFilterPattern ∧
    ∀ type, ∀ re ∈ h.m_filters.items type, P re.origFilterPattern

theorem holds_startElement {P : QString → Prop} (hnil : P []) {h : LoadXmlContentHandler types}
    (hh : h.Holds P) (name : QString) (attr : List (QString × QString)) :
    (h.startElement name attr).1.Holds P := by
  have hfilters : (h.startElement name attr).1.m_filters = h.m_filters := by
    unfold startElement
    split_ifs <;> rfl
  have hpattern : (h.startElement name attr).1.m_currentFilterPattern =
      if name = "oldfilter".toList then [] else h.m_currentFilterPattern := by
    unfold startElement
    split_ifs <;> rfl
  unfold Holds
  rw [hfilters, hpattern]
  refine ⟨?_, hh.2⟩
  split_ifs
  · exact hnil
  · exact hh.1

theorem holds_endElement {P : QString → Prop} {h : LoadXmlContentHandler types}
    (hh : h.Holds P) (name : QString) : (h.endElement valid name).Holds P := by
  unfold endElement
  by_cases hregex : name = "regex".toList
  · rw [hregex]
    exact hh
  · rw [if_neg hregex]
    dsimp only
    split_ifs
    · refine ⟨hh.1, fun type re hmem => ?_⟩
      cases orig_of_mem_addFilter hmem with
      | inl hold => exact hh.2 type re hold
      | inr hnew => exact hnew ▸ hh.1
    · exact hh
    · exact hh
    · exact hh

variable (valid) in
theorem holds_readNext {P : QString → Prop} (hnil : P []) {h : LoadXmlContentHandler types}
    (hh : h.Holds P) {tok : Token} (htok : ∀ text, tok = .characters text → P text) :
    (h.readNext valid tok).1.Holds P := by
  cases tok with
  | startDocument => exact ⟨hnil, hh.2⟩
  | startElement name attr => exact holds_startElement hnil hh name attr
  | endElement name => exact holds_endElement hh name
  | characters text =>
      show (h.characters text).Holds P
      unfold characters
      split_ifs
      · exact ⟨htok text rfl, hh.2⟩
      · exact hh
  | endDocument => exact hh
  | dtd => exact hh
  | comment => exact hh
  | processingInstruction => exact hh
  | entityReference name => exact hh
  | invalid => exact hh

variable (valid) in
theorem holds_readAll {P : QString → Prop} (hnil : P []) (toks : List Token)
    {h : LoadXmlContentHandler types} (hh : h.Holds P)
    (htoks : ∀ text, .characters text ∈ toks → P text) : (h.readAll valid toks).1.Holds P := by
  induction toks generalizing h with
  | nil => exact hh
  | cons tok toks ih =>
      have hnext := holds_readNext valid hnil hh fun text heq =>
        htoks text (heq ▸ List.mem_cons_self)
      rw [readAll]
      split
      · rename_i heq
        rw [heq] at hnext
        exact ih hnext fun text hmem => htoks text (List.mem_cons_of_mem tok hmem)
      · rename_i heq
        rw [heq] at hnext
        exact hnext

end LoadXmlContentHandler

/-- A pattern that is loaded is empty or the text of a token. -/
theorem Filters.orig_of_mem_load {fs : Filters types} {file : QString} {type : UInt8}
    {re : FilterItem} (hmem : re ∈ (fs.load valid file).1.items type) :
    re.origFilterPattern = [] ∨ .characters re.origFilterPattern ∈ tokens file := by
  have hstart : ({ m_filters := fs.clear } : LoadXmlContentHandler types).Holds fun p =>
      p = [] ∨ .characters p ∈ tokens file := ⟨Or.inl rfl, fun _ _ h => nomatch h⟩
  have hall := LoadXmlContentHandler.holds_readAll valid (Or.inl rfl) (tokens file) hstart
    fun text htext => Or.inr htext
  exact hall.2 type re hmem

end

/-! ## Where a mark stands in the file -/

/-- A mark of two texts in a row stands in the first or in the second. -/
theorem mark_append {α : Type} {s t pre post : List α} {c : α} (h : s ++ t = pre ++ c :: post) :
    (∃ rest, s = pre ++ c :: rest ∧ post = rest ++ t) ∨
      ∃ pre', pre = s ++ pre' ∧ t = pre' ++ c :: post := by
  cases List.append_eq_append_iff.mp h with
  | inl hlong => exact Or.inr hlong
  | inr hshort =>
      obtain ⟨rest, hs, ht⟩ := hshort
      cases List.append_eq_cons_iff.mp ht.symm with
      | inl hnil =>
          refine Or.inr ⟨[], ?_, hnil.2⟩
          rw [hs, hnil.1, List.append_nil, List.append_nil]
      | inr hcons =>
          obtain ⟨rest', rfl, hpost⟩ := hcons
          exact Or.inl ⟨rest', hs, hpost⟩

/-- Every `c` of the text stands in a pattern, between its tags, that satisfies `P`. -/
def Within (c : Char) (P : QString → Prop) (s : QString) : Prop :=
  ∀ pre post, s = pre ++ c :: post → ∃ x p₁ p₂ y,
    pre = x ++ "<regex>".toList ++ p₁ ∧ post = p₂ ++ ("</regex>".toList ++ y) ∧ P (p₁ ++ c :: p₂)

namespace Within

variable {c : Char} {P : QString → Prop}

theorem of_notMem {s : QString} (h : c ∉ s) : Within c P s := by
  rintro pre post rfl
  exact absurd (List.mem_append_right pre List.mem_cons_self) h

theorem append {s t : QString} (hs : Within c P s) (ht : Within c P t) : Within c P (s ++ t) := by
  intro pre post heq
  cases mark_append heq with
  | inl hleft =>
      obtain ⟨rest, hhead, hpost⟩ := hleft
      obtain ⟨x, p₁, p₂, y, hx, hy, hP⟩ := hs pre rest hhead
      refine ⟨x, p₁, p₂, y ++ t, hx, ?_, hP⟩
      rw [hpost, hy]
      simp only [List.append_assoc]
  | inr hright =>
      obtain ⟨pre', hpre, htail⟩ := hright
      obtain ⟨x, p₁, p₂, y, hx, hy, hP⟩ := ht pre' post htail
      refine ⟨s ++ x, p₁, p₂, y, ?_, hy, hP⟩
      rw [hpre, hx]
      simp only [List.append_assoc]

theorem flatMap {α : Type} {l : List α} {f : α → QString} (h : ∀ a ∈ l, Within c P (f a)) :
    Within c P (l.flatMap f) := by
  induction l with
  | nil => exact of_notMem nofun
  | cons a l ih =>
      rw [List.flatMap_cons]
      exact (h a List.mem_cons_self).append (ih fun b hb => h b (List.mem_cons_of_mem a hb))

/-- A pattern between its tags. -/
theorem between {p : QString} (hopen : c ∉ "<regex>".toList) (hclose : c ∉ "</regex>".toList)
    (hp : P p) : Within c P ("<regex>".toList ++ p ++ "</regex>".toList) := by
  intro pre post heq
  cases mark_append heq with
  | inl hleft =>
      obtain ⟨rest, hhead, hpost⟩ := hleft
      cases mark_append hhead with
      | inl htag =>
          obtain ⟨_, htag, _⟩ := htag
          rw [htag] at hopen
          exact absurd (List.mem_append_right pre List.mem_cons_self) hopen
      | inr hpattern =>
          obtain ⟨p₁, hpre, hpattern⟩ := hpattern
          refine ⟨[], p₁, rest, [], hpre, ?_, hpattern ▸ hp⟩
          rw [hpost, List.append_nil]
  | inr hright =>
      obtain ⟨pre', _, htag⟩ := hright
      rw [htag] at hclose
      exact absurd (List.mem_append_right pre' List.mem_cons_self) hclose

end Within

/-- The marks of references and sections. -/
def marks : List Char := ['&', '[', ']']

/-- In the file only patterns have marks. -/
theorem within_fileText {c : Char} (hc : c ∈ marks) (present : UInt8 → Bool)
    (rows : UInt8 → List (QString × UInt8 × UInt8)) {P : QString → Prop}
    (hP : ∀ type ∈ typeValues, ∀ row ∈ rows type, P row.1) : Within c P (fileText present rows) := by
  have hnot {s : QString} (h : (marks.all fun c => c ∉ s) = true) : Within c P s :=
    Within.of_notMem (List.all_iff_forall_prop.mp h c hc)
  have hspace : Within c P "    ".toList := hnot (by decide)
  have hnewline : Within c P ['\n'] := hnot (by decide)
  have hregex (pattern : QString) (hpattern : P pattern) : Within c P (regexText pattern) := by
    unfold regexText
    split_ifs
    · have htags : ∀ c ∈ marks, c ∉ "<regex>".toList ∧ c ∉ "</regex>".toList :=
        List.all_iff_forall_prop.mp (by decide)
      exact Within.between (htags c hc).1 (htags c hc).2 hpattern
    · exact Within.of_notMem nofun
  have hlevel (lo hi : UInt8) : Within c P (levelText lo hi) := by
    have hfixed : ∀ c ∈ marks, c.isDigit = false ∧ c ∉ "<level min=\"max/>".toList :=
      List.all_iff_forall_prop.mp (by decide)
    exact Within.of_notMem (notMem_levelText (hfixed c hc).1 (hfixed c hc).2 lo hi)
  have hrow (row : QString × UInt8 × UInt8) (hpattern : P row.1) :
      Within c P (rowText ("    ".toList ++ "    ".toList) row) :=
    (((((hspace.append hspace).append (hnot (s := "<oldfilter>".toList) (by decide))).append
      (hregex row.1 hpattern)).append (hlevel row.2.1 row.2.2)).append
        (hnot (s := "</oldfilter>".toList) (by decide))).append hnewline
  have hbody : ∀ type ∈ typeValues, (marks.all fun c => c ∉ '<' :: sectionBody type ++ ['>']) = true :=
    List.all_iff_forall_prop.mp (by decide)
  have hsections : Within c P (typeValues.flatMap fun type =>
      if present type = true then
        "    ".toList ++ ('<' :: sectionBody type ++ ['>']) ++ ['\n'] ++
          ((rows type).flatMap fun row => rowText ("    ".toList ++ "    ".toList) row) ++
          "    ".toList ++ ('<' :: "/section".toList ++ ['>']) ++ ['\n']
      else []) := by
    refine Within.flatMap fun type ht => ?_
    split_ifs
    · have hrows := Within.flatMap fun row hmem => hrow row (hP type ht row hmem)
      exact (((((hspace.append (hnot (hbody type ht))).append hnewline).append hrows).append
        hspace).append (hnot (s := '<' :: "/section".toList ++ ['>']) (by decide))).append hnewline
    · exact Within.of_notMem nofun
  have hhead : Within c P fileHead := hnot (by decide)
  have htail : Within c P fileTail := hnot (by decide)
  exact (hhead.append hsections).append htail

/-! ## The pieces that patterns are read from -/

/-- The tag before a pattern has its '>' at its end only. -/
theorem eq_nil_of_regexTag {q w : QString} (h : "<regex>".toList = q ++ '>' :: w) : w = [] := by
  have hlen : q.length + (w.length + 1) = 7 := by
    have hlen := congrArg List.length h
    rw [List.length_append, List.length_cons] at hlen
    exact hlen.symm
  have hlast : ∀ i < 7, "<regex>".toList[i]? = some '>' → i = 6 := by decide
  have hget : "<regex>".toList[q.length]? = some '>' := by
    rw [h, List.getElem?_append_right le_rfl, Nat.sub_self]
    rfl
  have hq := hlast q.length (by omega) hget
  exact List.length_eq_zero_iff.mp (by omega)

/-- What is behind a '>' and has no '<' begins within the pattern, not in the tag before it. -/
theorem length_le_left {pre r x p : QString} (h : pre ++ r = x ++ "<regex>".toList ++ p)
    (hpre : ∀ q c, pre = q ++ [c] → c = '>') (hr : '<' ∉ r) : r.length ≤ p.length := by
  cases List.append_eq_append_iff.mp h with
  | inr hshort =>
      obtain ⟨rest, _, rfl⟩ := hshort
      rw [List.length_append]
      exact Nat.le_add_left _ _
  | inl hlong =>
      obtain ⟨w, htag, rfl⟩ := hlong
      have hw : '<' ∉ w := fun hmem => hr (List.mem_append_left p hmem)
      -- `w` is an end of "<regex>" without its '<' and is behind a '>'
      have hempty : w = [] := by
        cases List.append_eq_append_iff.mp htag with
        | inr hall =>
            obtain ⟨d, _, rfl⟩ := hall
            exact absurd (List.mem_append_right d (List.mem_cons_self)) hw
        | inl hpart =>
            obtain ⟨d, hd, hsplit⟩ := hpart
            cases List.eq_nil_or_concat d with
            | inl hnil =>
                rw [hnil, List.nil_append] at hsplit
                exact absurd (hsplit ▸ List.mem_cons_self) hw
            | inr hconcat =>
                obtain ⟨q, c, rfl⟩ := hconcat
                rw [List.concat_eq_append] at hd hsplit
                have hc : c = '>' := hpre (x ++ q) c (by rw [hd, List.append_assoc])
                rw [hc, List.append_assoc] at hsplit
                exact eq_nil_of_regexTag hsplit
      rw [hempty, List.nil_append]

/-- What has no '<' ends within the pattern. -/
theorem length_le_right {r post p y : QString} (h : r ++ '<' :: post = p ++ ("</regex>".toList ++ y))
    (hr : '<' ∉ r) : r.length ≤ p.length := by
  have hmark : p ++ ("</regex>".toList ++ y) = r ++ '<' :: post := h.symm
  cases mark_append hmark with
  | inl hleft =>
      obtain ⟨rest, rfl, _⟩ := hleft
      rw [List.length_append]
      exact Nat.le_add_right _ _
  | inr hright =>
      obtain ⟨pre', rfl, hrest⟩ := hright
      cases pre' with
      | nil => rw [List.append_nil]
      | cons c cs =>
          have hc : '<' = c := (List.cons.inj hrest).1
          exact absurd (List.mem_append_right p (hc ▸ List.mem_cons_self)) hr

/-- A piece with a reference lies within a pattern. -/
theorem pattern_of_run {P : QString → Prop} {pre run post : QString}
    (hwithin : Within '&' P (pre ++ run ++ '<' :: post)) (hpre : ∀ q c, pre = q ++ [c] → c = '>')
    (hlt : '<' ∉ run) (hamp : '&' ∈ run) : ∃ p, P p ∧ '&' ∈ p ∧ run.length ≤ p.length := by
  obtain ⟨r₁, r₂, rfl⟩ := List.append_of_mem hamp
  have hsplit : pre ++ (r₁ ++ '&' :: r₂) ++ '<' :: post =
      (pre ++ r₁) ++ '&' :: (r₂ ++ '<' :: post) := by
    simp only [List.append_assoc, List.cons_append]
  obtain ⟨x, p₁, p₂, y, hleft, hright, hP⟩ := hwithin _ _ hsplit
  have hlen₁ := length_le_left hleft hpre fun hmem => hlt (List.mem_append_left _ hmem)
  have hlen₂ := length_le_right hright fun hmem =>
    hlt (List.mem_append_right _ (List.mem_cons_of_mem _ hmem))
  refine ⟨p₁ ++ '&' :: p₂, hP, List.mem_append_right _ List.mem_cons_self, ?_⟩
  rw [List.length_append, List.length_append, List.length_cons, List.length_cons]
  omega

/-- A section ends within the pattern that it begins in, or has the tag behind that in it. -/
theorem section_end {t post p y : QString}
    (h : t ++ ("]]>".toList ++ post) = p ++ ("</regex>".toList ++ y)) :
    (∃ rest, p = t ++ "]]>".toList ++ rest) ∨ "</regex>".toList <:+: t := by
  cases List.append_eq_append_iff.mp h with
  | inl hlong =>
      obtain ⟨w, rfl, hrest⟩ := hlong
      have hmark : "]]>".toList ++ post = w ++ '<' :: ("/regex>".toList ++ y) := hrest
      cases mark_append hmark with
      | inl hleft =>
          obtain ⟨_, hmark, _⟩ := hleft
          have hmem : '<' ∈ "]]>".toList := hmark ▸ List.mem_append_right w List.mem_cons_self
          exact absurd hmem (by decide)
      | inr hright =>
          obtain ⟨rest, rfl, _⟩ := hright
          exact Or.inl ⟨rest, (List.append_assoc _ _ _).symm⟩
  | inr hshort =>
      obtain ⟨w, rfl, hrest⟩ := hshort
      have hmark : "</regex>".toList ++ y = w ++ ']' :: ("]>".toList ++ post) := hrest
      cases mark_append hmark with
      | inl hleft =>
          obtain ⟨_, hmark, _⟩ := hleft
          have hmem : ']' ∈ "</regex>".toList := hmark ▸ List.mem_append_right w List.mem_cons_self
          exact absurd hmem (by decide)
      | inr hright =>
          obtain ⟨rest, rfl, _⟩ := hright
          exact Or.inr ⟨p, rest, List.append_assoc _ _ _⟩

/-- A section lies within a longer pattern that is not plain, or has the tag behind that in it. -/
theorem pattern_of_section {P : QString → Prop} {pre t post : QString}
    (hwithin : Within '[' P (pre ++ "<![CDATA[".toList ++ t ++ "]]>".toList ++ post)) :
    (∃ p, P p ∧ "]]>".toList <:+: p ∧ t.length < p.length) ∨ "</regex>".toList <:+: t := by
  have hsplit : pre ++ "<![CDATA[".toList ++ t ++ "]]>".toList ++ post =
      (pre ++ "<![CDATA".toList) ++ '[' :: (t ++ ("]]>".toList ++ post)) := by
    simp
  obtain ⟨x, p₁, p₂, y, _, hright, hP⟩ := hwithin _ _ hsplit
  cases section_end hright with
  | inr hbeyond => exact Or.inr hbeyond
  | inl hin =>
      obtain ⟨rest, rfl⟩ := hin
      refine Or.inl ⟨_, hP, ⟨p₁ ++ '[' :: t, rest, ?_⟩, ?_⟩
      · simp
      · simp only [List.length_append, List.length_cons]
        omega

/-! ## The round trip -/

/-- The pattern of some rule. -/
def Filters.HasPattern (fs : Filters fileTypes) (p : QString) : Prop :=
  ∃ type < SIZEOF_FILTERS, ∃ re ∈ fs.items type, re.origFilterPattern = p

section
variable (valid : QRegularExpression → Bool)

/-- Saved and loaded, the rules of every type are as before: the same patterns with the same level
    ranges, in their order. -/
def Filters.RoundTrip (fs : Filters fileTypes) : Prop :=
  ∀ type < SIZEOF_FILTERS, (fs.load valid fs.save).1.rows type = fs.rows type

end

section
variable {valid : QRegularExpression → Bool} {fs : Filters fileTypes}

/-- A pattern that comes back is empty or the text of a token. -/
theorem Filters.characters_of_roundTrip (h : fs.RoundTrip valid) {p : QString}
    (hp : fs.HasPattern p) : p = [] ∨ .characters p ∈ tokens fs.save := by
  obtain ⟨type, ht, re, hmem, rfl⟩ := hp
  have hrow : re.row ∈ (fs.load valid fs.save).1.rows type := by
    rw [h type ht]
    exact List.mem_map_of_mem hmem
  obtain ⟨re', hmem', hsame⟩ := List.mem_map.mp hrow
  have horig : re'.origFilterPattern = re.origFilterPattern := congrArg Prod.fst hsame
  rw [← horig]
  exact Filters.orig_of_mem_load hmem'

/-- A mark of the file stands in a pattern with its line ends normalized. -/
theorem Filters.within_save {c : Char} (hc : c ∈ marks) (fs : Filters fileTypes) :
    Within c (fun p => ∃ p', fs.HasPattern p' ∧ p = normalizeEol false p')
      (normalizeEol false fs.save) := by
  rw [save_eq_fileText, normalizeEol_fileText]
  refine within_fileText hc _ _ fun type ht row hrow => ?_
  obtain ⟨row', hrow', rfl⟩ := List.mem_map.mp hrow
  obtain ⟨re, hmem, rfl⟩ := List.mem_map.mp hrow'
  exact ⟨re.origFilterPattern, ⟨type, lt_of_mem_typeValues ht, re, hmem, rfl⟩, rfl⟩

/-- A pattern that comes back and is not plain is shorter than another that is not plain. -/
theorem Filters.longer_of_roundTrip
    (hclose : ∀ p, fs.HasPattern p → ¬ "</regex>".toList <:+: p) (h : fs.RoundTrip valid)
    {p : QString} (hp : fs.HasPattern p) (hplain : ¬ isPlain p = true) :
    ∃ p', fs.HasPattern p' ∧ ¬ isPlain p' = true ∧ p.length < p'.length := by
  -- what is in a pattern with its line ends normalized is in a longer one
  have hlonger {q : QString} (hq : ∃ p', fs.HasPattern p' ∧ q = normalizeEol false p')
      (hnot : ¬ isPlain q = true) (hlen : p.length < q.length) :
      ∃ p', fs.HasPattern p' ∧ ¬ isPlain p' = true ∧ p.length < p'.length := by
    obtain ⟨p', hp', rfl⟩ := hq
    refine ⟨p', hp', fun hplain' => hnot ?_, hlen.trans_le (normalizeEol_length false p')⟩
    rw [normalizeEol_of_plain hplain']
    exact hplain'
  cases Filters.characters_of_roundTrip h hp with
  | inl hnil => exact absurd (hnil ▸ isPlain_nil) hplain
  | inr htoken =>
      cases characters_origin htoken with
      | inl hown => exact absurd hown hplain
      | inr horigin =>
          cases horigin with
          | inl htext =>
              obtain ⟨pre, run, post, hdoc, hpre, hlt, hamp, hlen⟩ := htext
              have hwithin := Filters.within_save (c := '&') (by decide) fs
              rw [hdoc] at hwithin
              obtain ⟨q, hq, hmem, hrun⟩ := pattern_of_run hwithin hpre hlt hamp
              refine hlonger hq (fun hplain' => ?_) (hlen.trans_le hrun)
              exact ((isPlain_iff.mp hplain').1 '&' hmem).2.2.1 rfl
          | inr hcdata =>
              obtain ⟨pre, post, hdoc⟩ := hcdata
              have hwithin := Filters.within_save (c := '[') (by decide) fs
              rw [hdoc] at hwithin
              cases pattern_of_section hwithin with
              | inr hbeyond => exact absurd hbeyond (hclose p hp)
              | inl hin =>
                  obtain ⟨q, hq, hpart, hlen⟩ := hin
                  exact hlonger hq (fun hplain' => (isPlain_iff.mp hplain').2 hpart) hlen

/-- There is no longest pattern among those that come back and are not plain. -/
theorem Filters.allPlain_of_roundTrip
    (hclose : ∀ p, fs.HasPattern p → ¬ "</regex>".toList <:+: p) (h : fs.RoundTrip valid) :
    fs.AllPlain := by
  by_contra hnot
  have hsome : ∃ p, fs.HasPattern p ∧ ¬ isPlain p = true := by
    unfold Filters.AllPlain at hnot
    simp only [not_forall] at hnot
    obtain ⟨type, ht, re, hmem, hplain⟩ := hnot
    exact ⟨_, ⟨type, ht, re, hmem, rfl⟩, hplain⟩
  have hlong : ∀ n, ∃ p, fs.HasPattern p ∧ ¬ isPlain p = true ∧ n ≤ p.length := by
    intro n
    induction n with
    | zero =>
        obtain ⟨p, hp, hplain⟩ := hsome
        exact ⟨p, hp, hplain, Nat.zero_le _⟩
    | succ n ih =>
        obtain ⟨p, hp, hplain, hlen⟩ := ih
        obtain ⟨p', hp', hplain', hlonger⟩ := Filters.longer_of_roundTrip hclose h hp hplain
        exact ⟨p', hp', hplain', by omega⟩
  -- all patterns together are as long as any of them
  let all := typeValues.flatMap fun type => (fs.items type).map FilterItem.origFilterPattern
  obtain ⟨p, ⟨type, ht, re, hmem, rfl⟩, _, hlen⟩ := hlong (all.flatten.length + 1)
  have hall : re.origFilterPattern ∈ all :=
    List.mem_flatMap.mpr ⟨type, mem_typeValues ht, List.mem_map_of_mem hmem⟩
  have hbound := (List.sublist_flatten_of_mem hall).length_le
  omega

end

/-- Rules with plain patterns come back from their file. Unless a pattern has "</regex>" in it, all
    patterns of rules that come back are plain. -/
theorem Filters.roundTrip_allPlain (valid : QRegularExpression → Bool)
    (fs : Filters fileTypes) :
    (fs.AllPlain → fs.RoundTrip valid) ∧
      ((∀ p, fs.HasPattern p → ¬ "</regex>".toList <:+: p) → fs.RoundTrip valid → fs.AllPlain) :=
  ⟨fun hplain => (Filters.load_save_of_plain valid hplain).2,
    fun hclose h => Filters.allPlain_of_roundTrip hclose h⟩

/-! ## A pattern with an ampersand -/

/-- One rule to hunt for a pattern. -/
def huntOnly (pattern : String) : Filters fileTypes :=
  (({} : Filters fileTypes).addFilter (fun _ => true) 0 pattern.toList 10 20).1

/-- "a b" comes back and "a&b" does not. -/
theorem roundTrip_allPlain_huntOnly :
    (huntOnly "a b").RoundTrip (fun _ => true) ∧ ¬ (huntOnly "a&b").RoundTrip (fun _ => true) := by
  have hplain : ∀ type ∈ typeValues, ((huntOnly "a b").items type).all (fun re =>
      isPlain re.origFilterPattern) = true := List.all_iff_forall_prop.mp (by decide +kernel)
  have hclose : ∀ type ∈ typeValues, ((huntOnly "a&b").items type).all (fun re =>
      ¬ "</regex>".toList <:+: re.origFilterPattern) = true :=
    List.all_iff_forall_prop.mp (by decide +kernel)
  have hfirst : (huntOnly "a&b").items 0 = [FilterItem.init "a&b".toList false 10 20] := by
    decide +kernel
  refine ⟨(Filters.roundTrip_allPlain _ _).1 fun type ht =>
    List.all_eq_true.mp (hplain type (mem_typeValues ht)), fun h => ?_⟩
  have hall := (Filters.roundTrip_allPlain _ _).2
    (fun p ⟨type, ht, re, hmem, hp⟩ =>
      hp ▸ List.all_iff_forall_prop.mp (hclose type (mem_typeValues ht)) re hmem) h
  have hamp := hall 0 (by decide) (FilterItem.init "a&b".toList false 10 20)
    (hfirst ▸ List.mem_cons_self)
  exact absurd hamp (by decide)

/-- The rule "a&b" is added, and the file that is written is no XML: the rule is lost. -/
theorem ampersand_lost :
    (huntOnly "a&b").rows 0 = [("a&b".toList, 10, 20)] ∧
      ((huntOnly "a&b").load (fun _ => true) (huntOnly "a&b").save).1.rows 0 = [] ∧
      ((huntOnly "a&b").load (fun _ => true) (huntOnly "a&b").save).2 = false := by
  decide +kernel

end ShoweqDaemon.Rules
