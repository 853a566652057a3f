/-
  Elements as a program writes them, and what the reader makes of them.

  Attribute values and content are written as they are, without references. `attrPlain` and
  `isPlain` say which texts come back. A '>' may stand in a value: no tag ends within quotes.

  * `reads_open`, `reads_empty`, `reads_close`: the tokens of the tags.
  * `Feeds`: what a consumer of the tokens has made of a piece of text, and `Feeds.trans`.
-/
import ShoweqDaemon.Lib.XmlReader
import Mathlib.Data.List.TakeWhile

namespace XmlReader

/-! ## Values of attributes -/

/-- Text that stands for itself in an attribute. -/
def attrPlain (s : Text) : Bool :=
  s.all fun c => isXmlChar c && c ≠ '<' && c ≠ '&' && c ≠ '"' && (!isSpace c || c = ' ')

theorem attrPlain_iff {s : Text} : attrPlain s = true ↔
    ∀ c ∈ s, isXmlChar c = true ∧ c ≠ '<' ∧ c ≠ '&' ∧ c ≠ '"' ∧ (isSpace c = false ∨ c = ' ') := by
  unfold attrPlain
  rw [List.all_eq_true]
  refine forall₂_congr fun c _ => ?_
  rw [Bool.and_eq_true, Bool.and_eq_true, Bool.and_eq_true, Bool.and_eq_true, Bool.or_eq_true,
    decide_eq_true_iff, decide_eq_true_iff, decide_eq_true_iff, decide_eq_true_iff,
    Bool.not_eq_true', and_assoc, and_assoc, and_assoc]

theorem charData_attr {s : Text} (buf : Text) (h : attrPlain s = true) :
    charData false none buf s = some (flush (buf ++ s)) := by
  induction s generalizing buf with
  | nil =>
      rw [charData, if_pos rfl, List.append_nil]
  | cons c cs ih =>
      have hall := attrPlain_iff.mp h
      obtain ⟨hxml, -, hamp, -⟩ := hall c List.mem_cons_self
      have hopen : ¬ (false = true ∧ "]]>".toList <+: c :: cs) := fun h => Bool.false_ne_true h.1
      have hrest := ih (buf ++ [c]) (attrPlain_iff.mpr fun d hd =>
        hall d (List.mem_cons_of_mem c hd))
      rw [List.append_assoc] at hrest
      rw [charData, if_neg hamp, if_pos ⟨hxml, hopen⟩]
      exact hrest

theorem attributeValue_of_plain {s : Text} (h : attrPlain s = true) :
    attributeValue s = some s := by
  have hall := attrPlain_iff.mp h
  have hlt : '<' ∉ s := fun hmem => (hall '<' hmem).2.1 rfl
  have hspaces : s.map (fun c => if isSpace c = true then ' ' else c) = s := by
    rw [List.map_congr_left (g := id), List.map_id]
    intro c hc
    obtain hspace | rfl := (hall c hc).2.2.2.2
    · rw [hspace, if_neg Bool.false_ne_true]
      rfl
    · rfl
  unfold attributeValue
  rw [if_neg hlt, hspaces, charData_attr [] h, List.nil_append]
  unfold flush
  split_ifs with hnil
  · rw [hnil]
  · rfl

/-! ## Attributes -/

/-- The attributes of a tag, each behind a blank. -/
def attrsText (attrs : List (Text × Text)) : Text := attrs.flatMap fun attr => attrText attr.1 attr.2

@[simp] theorem attrsText_nil : attrsText [] = [] := rfl

@[simp] theorem attrsText_cons (attr : Text × Text) (attrs : List (Text × Text)) :
    attrsText (attr :: attrs) = attrText attr.1 attr.2 ++ attrsText attrs := rfl

/-- Attributes that can be written: no name comes twice. -/
structure AttrsPlain (attrs : List (Text × Text)) : Prop where
  names : ∀ attr ∈ attrs, isName attr.1 = true
  values : ∀ attr ∈ attrs, attrPlain attr.2 = true
  nodup : (attrs.map Prod.fst).Nodup

theorem AttrsPlain.tail {attr : Text × Text} {attrs : List (Text × Text)}
    (h : AttrsPlain (attr :: attrs)) : AttrsPlain attrs where
  names := fun a ha => h.names a (List.mem_cons_of_mem attr ha)
  values := fun a ha => h.values a (List.mem_cons_of_mem attr ha)
  nodup := (List.nodup_cons.mp h.nodup).2

theorem foldlM_attrsText {before attrs : List (Text × Text)} (space : Bool)
    (h : AttrsPlain attrs) (hfresh : ∀ attr ∈ attrs, attr.1 ∉ before.map Prod.fst) :
    ∃ space', (attrsText attrs).foldlM attrStep (.gap space, before) =
      some (.gap space', before ++ attrs) := by
  induction attrs generalizing before space with
  | nil => exact ⟨space, by rw [List.append_nil]; rfl⟩
  | cons attr attrs ih =>
      have hnew := hfresh attr List.mem_cons_self
      have hany : (before.any fun a => a.1 = attr.1) = false := by
        rw [List.any_eq_false]
        intro a ha heq
        exact hnew (of_decide_eq_true heq ▸ List.mem_map_of_mem ha)
      have hquote : '"' ∉ attr.2 := fun hmem =>
        (attrPlain_iff.mp (h.values attr List.mem_cons_self) '"' hmem).2.2.2.1 rfl
      have hfirst := foldlM_attrStep_attrText space (h.names attr List.mem_cons_self) hany hquote
        (attributeValue_of_plain (h.values attr List.mem_cons_self))
      have hrest : ∀ a ∈ attrs, a.1 ∉ (before ++ [attr]).map Prod.fst := by
        intro a ha hmem
        rw [List.map_append, List.mem_append] at hmem
        rcases hmem with hmem | hmem
        · exact hfresh a (List.mem_cons_of_mem attr ha) hmem
        · have heq : a.1 = attr.1 := List.mem_singleton.mp hmem
          exact (List.nodup_cons.mp h.nodup).1 (heq ▸ List.mem_map_of_mem ha)
      obtain ⟨space', hspace⟩ := ih false h.tail hrest
      refine ⟨space', ?_⟩
      rw [attrsText_cons, List.foldlM_append, hfirst, Option.bind_eq_bind, Option.bind_some, hspace,
        List.append_assoc]
      rfl

theorem attributes_attrsText {attrs : List (Text × Text)} (h : AttrsPlain attrs) :
    attributes (attrsText attrs) = some attrs := by
  obtain ⟨space, hfold⟩ := @foldlM_attrsText [] attrs false h fun _ _ => List.not_mem_nil
  unfold attributes
  rw [hfold]
  rfl

/-! ## Where a tag ends -/

/-- Every '>' stands within quotes, if `quote` is open in front. -/
def Guarded : Option Char → Text → Prop
  | _, [] => True
  | quote, c :: cs => (c = '>' → quote ≠ none) ∧ Guarded (quoteStep quote c) cs

theorem guarded_append {quote : Option Char} {s t : Text} :
    Guarded quote (s ++ t) ↔ Guarded quote s ∧ Guarded (s.foldl quoteStep quote) t := by
  induction s generalizing quote with
  | nil => simp [Guarded]
  | cons c cs ih =>
      rw [List.cons_append, Guarded, Guarded, ih, List.foldl_cons, and_assoc]

theorem guarded_of_notMem {quote : Option Char} {s : Text} (h : '>' ∉ s) : Guarded quote s := by
  induction s generalizing quote with
  | nil => trivial
  | cons c cs ih =>
      exact ⟨fun hc => absurd (hc ▸ List.mem_cons_self) h,
        ih fun hmem => h (List.mem_cons_of_mem c hmem)⟩

/-- A value within its quotes. -/
theorem guarded_inside {s : Text} {q : Char} (h : q ∉ s) : Guarded (some q) s := by
  induction s with
  | nil => trivial
  | cons c cs ih =>
      have hc : c ≠ q := fun heq => h (heq ▸ List.mem_cons_self)
      have hstep : quoteStep (some q) c = some q := if_neg hc
      refine ⟨fun _ => Option.some_ne_none q, ?_⟩
      rw [hstep]
      exact ih fun hmem => h (List.mem_cons_of_mem c hmem)

theorem isNameChar_of_isName {n : Text} (h : isName n = true) : ∀ c ∈ n, isNameChar c = true := by
  cases n with
  | nil => exact fun c hc => absurd hc List.not_mem_nil
  | cons d ds =>
      obtain ⟨hd, hds⟩ := (Bool.and_eq_true _ _).mp h
      intro c hc
      rcases List.mem_cons.mp hc with rfl | hc
      · exact (Bool.or_eq_true _ _).mpr (.inl hd)
      · exact List.all_eq_true.mp hds c hc

/-- A name has no '>' and no quote. -/
theorem notMem_of_isName {n : Text} (h : isName n = true) :
    '>' ∉ n ∧ ∀ c ∈ n, c ∉ quotes := by
  have hchars := isNameChar_of_isName h
  constructor
  · exact fun hmem => absurd (hchars '>' hmem) (by decide)
  · intro c hc hquote
    rcases List.mem_cons.mp hquote with rfl | hquote
    · exact absurd (hchars '"' hc) (by decide)
    · obtain rfl := List.mem_singleton.mp hquote
      exact absurd (hchars _ hc) (by decide)

theorem guarded_attrsText {attrs : List (Text × Text)} (h : AttrsPlain attrs) :
    Guarded none (attrsText attrs) ∧ (attrsText attrs).foldl quoteStep none = none := by
  induction attrs with
  | nil => exact ⟨trivial, rfl⟩
  | cons attr attrs ih =>
      obtain ⟨hgt, hquotes⟩ := notMem_of_isName (h.names attr List.mem_cons_self)
      have hquote : '"' ∉ attr.2 := fun hmem =>
        (attrPlain_iff.mp (h.values attr List.mem_cons_self) '"' hmem).2.2.2.1 rfl
      have hfold : (attrText attr.1 attr.2).foldl quoteStep none = none :=
        foldl_quoteStep_attrText hquotes hquote
      have hfirst : Guarded none (attrText attr.1 attr.2) := by
        have hfront : Guarded none (' ' :: attr.1) := guarded_of_notMem
          (List.not_mem_cons_of_ne_of_not_mem (by decide) hgt)
        have hopen : (' ' :: attr.1).foldl quoteStep none = none :=
          foldl_quoteStep_outside (List.forall_mem_cons.mpr ⟨by decide, hquotes⟩)
        have hvalue : Guarded none ('=' :: '"' :: attr.2 ++ ['"']) := by
          refine ⟨fun heq => absurd heq (by decide), fun heq => absurd heq (by decide), ?_⟩
          refine guarded_append.mpr ⟨guarded_inside hquote, guarded_of_notMem (by decide)⟩
        have hsplit : attrText attr.1 attr.2 = (' ' :: attr.1) ++ ('=' :: '"' :: attr.2 ++ ['"']) :=
          rfl
        rw [hsplit, guarded_append, hopen]
        exact ⟨hfront, hvalue⟩
      rw [attrsText_cons, guarded_append, List.foldl_append, hfold]
      exact ⟨⟨hfirst, (ih h.tail).1⟩, (ih h.tail).2⟩

/-! ## Tags -/

/-- The name and the attributes of a tag. -/
def tagText (name : Text) (attrs : List (Text × Text)) : Text := name ++ attrsText attrs

/-- A start tag. -/
def openTag (name : Text) (attrs : List (Text × Text)) : Text := '<' :: tagText name attrs ++ ['>']

/-- The tag of an element without content. -/
def emptyTag (name : Text) (attrs : List (Text × Text)) : Text :=
  '<' :: (tagText name attrs ++ ['/']) ++ ['>']

/-- An end tag. -/
def closeTag (name : Text) : Text := '<' :: ('/' :: name) ++ ['>']

section
variable {name : Text} {attrs : List (Text × Text)}

theorem takeWhile_tagText (hname : isName name = true) :
    (tagText name attrs).takeWhile isNameChar = name := by
  have hrest : (attrsText attrs).takeWhile isNameChar = [] := by
    cases attrs with
    | nil => rfl
    | cons attr attrs => exact List.takeWhile_cons_of_neg (by decide)
  rw [tagText, List.takeWhile_append_of_pos (isNameChar_of_isName hname), hrest, List.append_nil]

/-- It does not look like an empty element. -/
theorem getLast_tagText (hname : isName name = true) : (tagText name attrs).getLast? ≠ some '/' := by
  rcases List.eq_nil_or_concat attrs with rfl | ⟨front, attr, rfl⟩
  · intro hlast
    rw [tagText, attrsText_nil, List.append_nil] at hlast
    exact absurd (isNameChar_of_isName hname '/' (List.mem_of_getLast? hlast)) (by decide)
  · have hend : tagText name (front ++ [attr]) =
        name ++ (attrsText front ++ (' ' :: (attr.1 ++ '=' :: '"' :: attr.2))) ++ ['"'] := by
      simp [tagText, attrsText, attrText]
    rw [List.concat_eq_append, hend, List.getLast?_concat]
    exact fun hquote => absurd (Option.some.inj hquote) (by decide)

theorem tag_tagText (hname : isName name = true) (hattrs : AttrsPlain attrs) :
    tag (tagText name attrs) = some (.start name attrs false) := by
  have hdrop : (tagText name attrs).dropWhile isNameChar = attrsText attrs := by
    have hsplit := List.takeWhile_append_dropWhile (p := isNameChar) (l := tagText name attrs)
    rw [takeWhile_tagText hname] at hsplit
    exact List.append_cancel_left hsplit
  unfold tag
  dsimp only
  rw [decide_eq_false (getLast_tagText hname), if_neg Bool.false_ne_true, takeWhile_tagText hname,
    if_pos hname, hdrop, attributes_attrsText hattrs]
  rfl

/-- The markup of a tag, up to its quotes. -/
theorem markup_tagText (hname : isName name = true) (hattrs : AttrsPlain attrs) :
    markup (tagText name attrs) = some (.start name attrs false) ∧
    markup (tagText name attrs ++ ['/']) = some (.start name attrs true) := by
  cases name with
  | nil => cases hname
  | cons c cs =>
      have hc := (Bool.and_eq_true _ _).mp hname |>.1
      have hbang : c ≠ '!' := fun heq => absurd (heq ▸ hc) (by decide)
      have hask : c ≠ '?' := fun heq => absurd (heq ▸ hc) (by decide)
      have hslash : c ≠ '/' := fun heq => absurd (heq ▸ hc) (by decide)
      constructor
      · exact (markup_of_name hbang hask hslash _).1.trans (tag_tagText hname hattrs)
      · exact (markup_of_name hbang hask hslash _).1.trans
          (tag_empty hname (takeWhile_tagText hname) (attributes_attrsText hattrs))

theorem markup_close (hname : isName name = true) : markup ('/' :: name) = some (.stop name) := by
  have hslash (pat : Text) : ¬ '!' :: pat <+: '/' :: name := by
    rw [List.cons_prefix_cons]
    exact fun h => absurd h.1 (by decide)
  have hcomment : ¬ "!--".toList <+: '/' :: name := hslash ['-', '-']
  have hcdata : ¬ "![CDATA[".toList <+: '/' :: name := hslash "[CDATA[".toList
  have hdoctype : ¬ "!DOCTYPE".toList <+: '/' :: name := hslash "DOCTYPE".toList
  have hall := isNameChar_of_isName hname
  have htake : name.takeWhile isNameChar = name := List.takeWhile_eq_self_iff.mpr hall
  have hdrop : name.dropWhile isNameChar = [] := List.dropWhile_eq_nil_iff.mpr hall
  have hstop : isName (name.takeWhile isNameChar) = true ∧
      (name.dropWhile isNameChar).all isSpace = true := by
    rw [htake, hdrop]
    exact ⟨hname, rfl⟩
  unfold markup
  rw [if_neg hcomment, if_neg hcdata, if_neg hdoctype]
  exact (if_pos hstop).trans (congrArg (fun n => some (Markup.stop n)) htake)

end

/-! ## Line ends -/

theorem cr_notMem_of_attrPlain {s : Text} (h : attrPlain s = true) : '\r' ∉ s := by
  intro hmem
  obtain hspace | hspace := (attrPlain_iff.mp h '\r' hmem).2.2.2.2
  · exact absurd hspace (by decide)
  · exact absurd hspace (by decide)

theorem cr_notMem_of_plain {s : Text} (h : isPlain s = true) : '\r' ∉ s :=
  fun hmem => ((isPlain_iff.mp h).1 '\r' hmem).2.2.2 rfl

/-- A tag has no carriage return. -/
theorem cr_notMem_tagText {name : Text} {attrs : List (Text × Text)} (hname : isName name = true)
    (hattrs : AttrsPlain attrs) : '\r' ∉ tagText name attrs := by
  have hnames : ∀ {n : Text}, isName n = true → '\r' ∉ n := fun hn hmem =>
    absurd (isNameChar_of_isName hn '\r' hmem) (by decide)
  have hattr : ∀ attr ∈ attrs, '\r' ∉ attrText attr.1 attr.2 := by
    intro attr hmem
    have hvalue := cr_notMem_of_attrPlain (hattrs.values attr hmem)
    simp [attrText, hnames (hattrs.names attr hmem), hvalue]
  rw [tagText, List.mem_append, attrsText, List.mem_flatMap]
  rintro (hmem | ⟨attr, hmem, hcr⟩)
  · exact hnames hname hmem
  · exact hattr attr hmem hcr

/-! ## Reading elements -/

/-- Within the root, with the elements opened last first and the text collected. -/
def State.content (opened : List Text) (run : Text) : State :=
  { phase := .root, opened, mode := .text run }

open State (content)

/-- Markup is collected up to a '>' that is not quoted. -/
theorem Reads.guarded (st : State) {c : Char} (hc : isNameStart c = true) {cs s : Text}
    (h : Guarded ((c :: cs).foldl quoteStep none) s) :
    Reads { st with mode := .markup (c :: cs) } s [] { st with mode := .markup (c :: cs ++ s) } := by
  induction s generalizing cs with
  | nil =>
      rw [List.append_nil]
      exact .nil _
  | cons d ds ih =>
      have hbang : c ≠ '!' := fun heq => absurd (heq ▸ hc) (by decide)
      have hask : c ≠ '?' := fun heq => absurd (heq ▸ hc) (by decide)
      have hslash : c ≠ '/' := fun heq => absurd (heq ▸ hc) (by decide)
      have hopen : ¬ (d = '>' ∧ closes (c :: cs) = true) := by
        rintro ⟨hd, hcloses⟩
        rw [(markup_of_name hbang hask hslash cs).2, Bool.not_eq_true'] at hcloses
        exact h.1 hd (Option.not_isSome_iff_eq_none.mp (Bool.not_eq_true _ ▸ hcloses))
      have hstep : State.step { st with mode := .markup (c :: cs) } d =
          some ([], { st with mode := .markup (c :: cs ++ [d]) }) := if_neg hopen
      have hrest : Guarded ((c :: (cs ++ [d])).foldl quoteStep none) ds := by
        have hfold : (c :: (cs ++ [d])).foldl quoteStep none =
            quoteStep ((c :: cs).foldl quoteStep none) d := by
          rw [← List.cons_append, List.foldl_append]
          rfl
        rw [hfold]
        exact h.2
      have hih := ih hrest
      rw [← List.cons_append, List.append_assoc] at hih
      exact (Reads.char hstep).trans hih

section
variable {opened : List Text} {run name : Text} {attrs : List (Text × Text)}

theorem reads_text (opened : List Text) (run : Text) {s : Text} (hs : '<' ∉ s) :
    Reads (content opened run) s [] (content opened (run ++ s)) :=
  Reads.text (content opened run) run hs

/-- The '<' behind plain text. -/
theorem step_open (hopened : opened ≠ []) (hrun : isPlain run = true) :
    (content opened run).step '<' =
      some (flush run, { content opened run with mode := .markup [] }) := by
  have hend : (content opened run).endText run = some (flush run) := by
    have hchars := charData_of_plain [] hrun
    exact (if_neg hopened).trans hchars
  have hphase : (if run = [] then (content opened run).phase else (content opened run).begun) =
      (content opened run).phase := ite_self _
  unfold State.step
  exact (if_pos rfl).trans (by rw [hend, hphase]; rfl)

/-- A tag, from its '<' to its '>'. -/
theorem reads_guarded {body : Text} {m : Markup} {toks : List Token} {st : State}
    (hopened : opened ≠ []) (hrun : isPlain run = true) {c : Char} (hc : isNameStart c = true)
    (hguarded : Guarded none (c :: body)) (hclosed : (c :: body).foldl quoteStep none = none)
    (hmarkup : markup (c :: body) = some m)
    (happly : State.apply { content opened run with mode := .markup (c :: body) } m =
      some (toks, st)) :
    Reads (content opened run) ('<' :: (c :: body) ++ ['>']) (flush run ++ toks) st := by
  have hbang : c ≠ '!' := fun heq => absurd (heq ▸ hc) (by decide)
  have hask : c ≠ '?' := fun heq => absurd (heq ▸ hc) (by decide)
  have hslash : c ≠ '/' := fun heq => absurd (heq ▸ hc) (by decide)
  have hgt : c ≠ '>' := fun heq => absurd (heq ▸ hc) (by decide)
  have hfirst : State.step { content opened run with mode := .markup [] } c =
      some ([], { content opened run with mode := .markup [c] }) := if_neg fun h => hgt h.1
  have hcloses : closes (c :: body) = true := by
    rw [(markup_of_name hbang hask hslash body).2, inQuotes, hclosed]
    rfl
  have hlast : State.step { content opened run with mode := .markup (c :: body) } '>' =
      some (toks, st) := by
    unfold State.step
    exact (if_pos ⟨rfl, hcloses⟩).trans (by rw [hmarkup]; exact happly)
  have hmiddle : Reads { content opened run with mode := .markup [c] } body []
      { content opened run with mode := .markup (c :: body) } :=
    Reads.guarded (content opened run) hc hguarded.2
  exact (Reads.char (step_open hopened hrun)).trans
    ((Reads.char hfirst).trans (hmiddle.trans (Reads.char hlast)))

theorem guarded_tagText (hname : isName name = true) (hattrs : AttrsPlain attrs) :
    Guarded none (tagText name attrs) ∧ (tagText name attrs).foldl quoteStep none = none := by
  obtain ⟨hgt, hquotes⟩ := notMem_of_isName hname
  have hfold : name.foldl quoteStep none = none := foldl_quoteStep_outside hquotes
  rw [tagText, guarded_append, List.foldl_append, hfold]
  exact ⟨⟨guarded_of_notMem hgt, (guarded_attrsText hattrs).1⟩, (guarded_attrsText hattrs).2⟩

theorem reads_open (hopened : opened ≠ []) (hrun : isPlain run = true)
    (hname : isName name = true) (hattrs : AttrsPlain attrs) :
    Reads (content opened run) (openTag name attrs) (flush run ++ [.startElement name attrs])
      (content (name :: opened) []) := by
  have hmarkup := (markup_tagText hname hattrs).1
  obtain ⟨hguarded, hclosed⟩ := guarded_tagText hname hattrs
  cases name with
  | nil => cases hname
  | cons c cs =>
      have hc := ((Bool.and_eq_true _ _).mp hname).1
      exact reads_guarded hopened hrun hc hguarded hclosed hmarkup
        (if_neg fun hroot => hopened hroot.2)

theorem reads_empty (hopened : opened ≠ []) (hrun : isPlain run = true)
    (hname : isName name = true) (hattrs : AttrsPlain attrs) :
    Reads (content opened run) (emptyTag name attrs)
      (flush run ++ [.startElement name attrs, .endElement name]) (content opened []) := by
  have hmarkup := (markup_tagText hname hattrs).2
  obtain ⟨hguarded, hclosed⟩ := guarded_tagText hname hattrs
  have hguarded' : Guarded none (tagText name attrs ++ ['/']) :=
    guarded_append.mpr ⟨hguarded, guarded_of_notMem (by decide)⟩
  have hclosed' : (tagText name attrs ++ ['/']).foldl quoteStep none = none := by
    rw [List.foldl_append, hclosed]
    rfl
  cases name with
  | nil => cases hname
  | cons c cs =>
      have hc := ((Bool.and_eq_true _ _).mp hname).1
      exact reads_guarded hopened hrun hc hguarded' hclosed' hmarkup
        (if_neg fun hroot => hopened hroot.2)

theorem reads_close (hrun : isPlain run = true) (hname : isName name = true) :
    Reads (content (name :: opened) run) (closeTag name) (flush run ++ [.endElement name])
      (content opened []) := by
  have hgt : '>' ∉ '/' :: name :=
    List.not_mem_cons_of_ne_of_not_mem (by decide) (notMem_of_isName hname).1
  have hcloses : closes ('/' :: name) = true := by
    have hslash (pat : Text) : ¬ '!' :: pat <+: '/' :: name := by
      rw [List.cons_prefix_cons]
      exact fun h => absurd h.1 (by decide)
    have hcomment : ¬ "!--".toList <+: '/' :: name := hslash ['-', '-']
    have hcdata : ¬ "![CDATA[".toList <+: '/' :: name := hslash "[CDATA[".toList
    have hquotes : ('/' :: name).foldl quoteStep none = none :=
      foldl_quoteStep_outside (List.forall_mem_cons.mpr ⟨by decide, (notMem_of_isName hname).2⟩)
    unfold closes
    rw [if_neg hcomment, if_neg hcdata]
    show (!inQuotes ('/' :: name)) = true
    rw [inQuotes, hquotes]
    rfl
  exact Reads.tag (content (name :: opened) run) (List.cons_ne_nil _ _) Phase.noConfusion hrun hgt
    hcloses (markup_close hname) (if_pos rfl)

end

/-! ## A consumer of the tokens -/

section
variable {σ : Type} (next : σ → Token → σ × Bool)

/-- The consumer takes one token after the other until it stops. -/
def consume (a : σ) : List Token → σ × Bool
  | [] => (a, true)
  | tok :: toks => if (next a tok).2 = true then consume (next a tok).1 toks else next a tok

variable {next}

theorem consume_append {a b : σ} {toks : List Token} (h : consume next a toks = (b, true))
    (toks' : List Token) : consume next a (toks ++ toks') = consume next b toks' := by
  induction toks generalizing a with
  | nil =>
      cases h
      rfl
  | cons tok toks ih =>
      rw [List.cons_append]
      rw [consume] at h ⊢
      split_ifs at h ⊢ with hgoes
      · exact ih h
      · exact absurd (congrArg Prod.snd h) hgoes

variable (next)

/-- After the piece `s` the consumer and the reader are as in `p'`. -/
def Feeds (p : σ × State) (s : Text) (p' : σ × State) : Prop :=
  ∀ rest, consume next p.1 (scan p.2 (s ++ rest)) = consume next p'.1 (scan p'.2 rest)

variable {next}

theorem Feeds.nil (p : σ × State) : Feeds next p [] p := fun _ => rfl

theorem Feeds.trans {p p' p'' : σ × State} {s s' : Text} (h : Feeds next p s p')
    (h' : Feeds next p' s' p'') : Feeds next p (s ++ s') p'' := by
  intro rest
  rw [List.append_assoc, h, h']

theorem Reads.feeds {a b : σ} {st st' : State} {s : Text} {toks : List Token}
    (h : Reads st s toks st') (hall : consume next a toks = (b, true)) :
    Feeds next (a, st) s (b, st') := by
  intro rest
  dsimp only
  rw [h, consume_append hall]

end

end XmlReader
