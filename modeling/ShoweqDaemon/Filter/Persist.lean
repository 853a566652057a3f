/-
  Filter rules in a file: `Filters::save` and `Filters::load`.

  The file is written as text, pattern by pattern without escapes, and read as XML. Writing and
  reading are put together piece by piece: `Loads` says what the loading handler has done after a
  piece of the file, whatever follows.

  Proved:
  * `Filters.load_save_of_plain`: rules with plain patterns come back, with their level ranges.

  A row is what a file has of a rule: the pattern and the bounds of its level range. `fileText`
  builds the text that `save` writes from the rows, section by section, and the `loads_` lemmas
  take the handler through it in the same order. A pattern is plain when it has no markup in it
  and no line break that the reader would change.

  Also proved:
  * `loads_rule`, `loads_section`, `loads_sections`: what is loaded is the rows, each added behind
    the ones before it.
  * `save_eq_fileText`: `save` writes this text.
  * `rows_sections`: the sections bring back every type's rows and nothing else.
-/
import Mathlib.Data.Bool.AllAny
import ShoweqDaemon.Filter.Editing
import ShoweqDaemon.Lib.XmlReader
import ShoweqDaemon.Message.EQStr

namespace ShoweqDaemon.Rules

open Spawns (QString)
open XmlReader
open Numeral (printInt)

/-! ## Writing -/

/-- An attribute of `level`, for a level that there is. -/
def levelAttr (name : QString) (level : UInt8) : QString :=
  if level ≠ 0 then
    " ".toList ++ name ++ "=\"".toList ++ printInt level.toNat ++ "\"".toList
  else []

/-- `FilterItem::save`: an element of its own for the pattern, where there is one, and for the
    levels, where there are some. -/
def FilterItem.save (indent : QString) (re : FilterItem) : QString :=
  indent ++ "<oldfilter>".toList ++
  (if re.m_regexp.pattern ≠ [] then
    "<regex>".toList ++ re.m_regexpOriginalPattern ++ "</regex>".toList
  else []) ++
  (if re.m_minLevel ≠ 0 ∨ re.m_maxLevel ≠ 0 then
    "<level".toList ++ levelAttr "min".toList re.m_minLevel ++
      levelAttr "max".toList re.m_maxLevel ++ "/>".toList
  else []) ++
  "</oldfilter>\n".toList

/-- `Filter::save`: the items in their order. -/
def Filter.save (indent : QString) (f : Filter) : QString :=
  f.m_filterItems.flatMap fun re => re.save (indent ++ "    ".toList)

namespace Filters

variable {types : FilterTypes}

/-- The section of a type that has a filter. -/
def saveSection (fs : Filters types) (indent : QString) (type : UInt8) : QString :=
  match fs.m_filters (FilterTypes.mask type) with
  | none => []
  | some filter =>
      indent ++ "<section name=\"".toList ++ types.name type ++ "\">\n".toList ++
      filter.save indent ++
      indent ++ "</section>\n".toList

/-- The sections come in the order of the masks. -/
def save (fs : Filters types) : QString :=
  "<?xml version=\"1.0\" encoding=\"UTF-8\"?>\n".toList ++
  "<!DOCTYPE seqfilters SYSTEM \"seqfilters.dtd\">\n".toList ++
  "<seqfilters>\n".toList ++
  (List.range 32).flatMap (fun i => fs.saveSection "    ".toList i.toUInt8) ++
  "</seqfilters>\n".toList

/-- `Filters::clear`: all rules of all types go. -/
def clear (fs : Filters types) : Filters types := { m_caseSensitive := fs.m_caseSensitive }

end Filters

/-! ## Reading -/

/-- `QString::toUShort`, cut to the eight bits of a level; 0 for what is no number of 16 bits. -/
def levelOfAttr (s : QString) : UInt8 := ((Numeral.ushort Messages.isSpace 10 s).getD 0).toUInt8

/-- `QXmlStreamAttributes::value`, empty for an attribute that is none. -/
def attrValue (attr : List (QString × QString)) (name : QString) : QString :=
  (attr.lookup name).getD []

/-- `LoadXmlContentHandler`: the filters so far, and what is known of the rule whose element is
    open. -/
structure LoadXmlContentHandler (types : FilterTypes) where
  m_filters : Filters types
  m_currentType : UInt8 := 255
  m_currentFilterPattern : QString := []
  m_currentMinLevel : UInt8 := 0
  m_currentMaxLevel : UInt8 := 0
  m_inRegex : Bool := false

namespace LoadXmlContentHandler

variable {types : FilterTypes}

/-- `startDocument`: no rule is open. -/
def startDocument (h : LoadXmlContentHandler types) : LoadXmlContentHandler types :=
  { m_filters := h.m_filters }

/-- `startElement`: a section names its type, a rule starts without pattern and levels; false stops
    the reading. -/
def startElement (h : LoadXmlContentHandler types) (name : QString)
    (attr : List (QString × QString)) : LoadXmlContentHandler types × Bool :=
  if name = "oldfilter".toList then
    ({ h with m_currentFilterPattern := [], m_currentMinLevel := 0, m_currentMaxLevel := 0 }, true)
  else if name = "regex".toList then ({ h with m_inRegex := true }, true)
  else if name = "level".toList then
    ({ h with
      m_currentMinLevel :=
        if attrValue attr "min".toList ≠ [] then levelOfAttr (attrValue attr "min".toList)
        else h.m_currentMinLevel
      m_currentMaxLevel :=
        if attrValue attr "max".toList ≠ [] then levelOfAttr (attrValue attr "max".toList)
        else h.m_currentMaxLevel }, true)
  else if name = "section".toList then
    if attrValue attr "name".toList = [] then (h, false)
    else ({ h with m_currentType := types.type (attrValue attr "name".toList) }, true)
  else (h, true)

/-- `characters`: the text in a pattern's element is the pattern. -/
def characters (h : LoadXmlContentHandler types) (ch : QString) : LoadXmlContentHandler types :=
  if h.m_inRegex = true then { h with m_currentFilterPattern := ch } else h

section
variable (valid : QRegularExpression → Bool)

/-- `endElement`: a rule is added when its element ends and the type of the section is one that
    there is. -/
def endElement (h : LoadXmlContentHandler types) (name : QString) : LoadXmlContentHandler types :=
  let h := if name = "regex".toList then { h with m_inRegex := false } else h
  if name = "oldfilter".toList then
    if h.m_currentType ≤ types.m_maxType then
      { h with
        m_filters := (h.m_filters.addFilter valid h.m_currentType h.m_currentFilterPattern
          h.m_currentMinLevel h.m_currentMaxLevel).1 }
    else h
  else if name = "section".toList then { h with m_currentType := 255 }
  else h

/-- One token of the loop of `load`, and whether it goes on. -/
def readNext (h : LoadXmlContentHandler types) : Token → LoadXmlContentHandler types × Bool
  | .startDocument => (h.startDocument, true)
  | .startElement name attr => h.startElement name attr
  | .endElement name => (h.endElement valid name, true)
  | .characters text => (h.characters text, true)
  | .invalid => (h, false)
  | .endDocument | .dtd | .comment | .processingInstruction | .entityReference _ => (h, true)

/-- The tokens of a file up to the first error. -/
def readAll (h : LoadXmlContentHandler types) : List Token → LoadXmlContentHandler types × Bool
  | [] => (h, true)
  | tok :: toks =>
      match h.readNext valid tok with
      | (h, true) => h.readAll toks
      | (h, false) => (h, false)

end

end LoadXmlContentHandler

section
variable (valid : QRegularExpression → Bool) {types : FilterTypes}

/-- The file is read into an empty set of rules. -/
def Filters.load (fs : Filters types) (file : QString) : Filters types × Bool :=
  let handler : LoadXmlContentHandler types := { m_filters := fs.clear }
  let (handler, status) := handler.readAll valid (tokens file)
  (handler.m_filters, status)

end

/-- The pattern and the level range of a rule. -/
def FilterItem.row (re : FilterItem) : QString × UInt8 × UInt8 :=
  (re.origFilterPattern, re.m_minLevel, re.m_maxLevel)

/-- The rules of a type by what the file keeps of them. -/
def Filters.rows {types : FilterTypes} (fs : Filters types) (type : UInt8) :
    List (QString × UInt8 × UInt8) :=
  (fs.items type).map FilterItem.row

/-! ## Reading a piece of the file -/

namespace LoadXmlContentHandler

variable (valid : QRegularExpression → Bool) {types : FilterTypes}

/-- Within the root, with the elements opened last first and the text collected. -/
def inside (opened : List QString) (run : QString) : State :=
  { phase := .root, opened, mode := .text run }

theorem readAll_append {h h' : LoadXmlContentHandler types} {toks : List Token}
    (hall : h.readAll valid toks = (h', true)) (toks' : List Token) :
    h.readAll valid (toks ++ toks') = h'.readAll valid toks' := by
  induction toks generalizing h with
  | nil =>
      cases hall
      rfl
  | cons tok toks ih =>
      rw [List.cons_append]
      rw [readAll] at hall ⊢
      split at hall
      · exact ih hall
      · cases hall

/-- After the piece `s` of the file the handler and the reader are as in `p'`. -/
def Loads (p : LoadXmlContentHandler types × State) (s : QString)
    (p' : LoadXmlContentHandler types × State) : Prop :=
  ∀ rest, p.1.readAll valid (scan p.2 (s ++ rest)) = p'.1.readAll valid (scan p'.2 rest)

variable {valid}

theorem Loads.trans {p p' p'' : LoadXmlContentHandler types × State} {s s' : QString}
    (h : Loads valid p s p') (h' : Loads valid p' s' p'') : Loads valid p (s ++ s') p'' := by
  intro rest
  rw [List.append_assoc, h, h']

theorem Loads.nil (p : LoadXmlContentHandler types × State) : Loads valid p [] p := fun _ => rfl

theorem loads_of_reads {h h' : LoadXmlContentHandler types} {st st' : State} {s : QString}
    {toks : List Token} (hreads : XmlReader.Reads st s toks st')
    (hall : h.readAll valid toks = (h', true)) :
    Loads valid (h, st) s (h', st') := by
  intro rest
  dsimp only
  rw [hreads, readAll_append valid hall]

/-- The handler has heard the text. -/
def heard (h : LoadXmlContentHandler types) (run : QString) : LoadXmlContentHandler types :=
  if run = [] then h else h.characters run

theorem heard_of_outside {h : LoadXmlContentHandler types} (hregex : h.m_inRegex = false)
    (run : QString) : h.heard run = h := by
  unfold heard characters
  rw [hregex, if_neg Bool.false_ne_true, ite_self]

theorem readAll_flush (h : LoadXmlContentHandler types) (run : QString) (toks : List Token) :
    h.readAll valid (flush run ++ toks) = (h.heard run).readAll valid toks := by
  unfold flush heard
  split_ifs
  · rfl
  · rw [List.singleton_append, readAll]
    rfl

variable (valid)

theorem loads_text (h : LoadXmlContentHandler types) (opened : List QString) (run : QString)
    {s : QString} (hs : '<' ∉ s) :
    Loads valid (h, inside opened run) s (h, inside opened (run ++ s)) :=
  loads_of_reads (XmlReader.Reads.text (inside opened run) run hs) rfl

/-- Within the root an element begins whatever its name. -/
theorem apply_start_inside {opened : List QString} (hopened : opened ≠ []) (name : QString)
    (attrs : List (QString × QString)) (empty : Bool) {body : QString} :
    State.apply { phase := .root, opened, mode := .markup body } (.start name attrs empty) =
      if empty = true then
        some ([.startElement name attrs, .endElement name], inside opened [])
      else some ([.startElement name attrs], inside (name :: opened) []) :=
  if_neg fun hroot => hopened hroot.2

/-- A tag that opens an element. -/
theorem loads_start {h h' : LoadXmlContentHandler types} {opened : List QString} {run name : QString}
    (body : QString) (attr : List (QString × QString)) (hopened : opened ≠ [])
    (hrun : isPlain run = true) (hgt : '>' ∉ body) (hcloses : closes body = true)
    (hmarkup : markup body = some (.start name attr false))
    (hstart : (h.heard run).startElement name attr = (h', true)) :
    Loads valid (h, inside opened run) ('<' :: body ++ ['>']) (h', inside (name :: opened) []) := by
  refine loads_of_reads (XmlReader.Reads.tag (inside opened run) hopened Phase.noConfusion hrun hgt
    hcloses hmarkup (apply_start_inside hopened name attr false)) ?_
  rw [readAll_flush, readAll, readNext, hstart]
  rfl

/-- A tag of an empty element. -/
theorem loads_empty {h h' : LoadXmlContentHandler types} {opened : List QString} {run body : QString}
    {name : QString} {attr : List (QString × QString)} (hopened : opened ≠ [])
    (hrun : isPlain run = true) (hgt : '>' ∉ body) (hcloses : closes body = true)
    (hmarkup : markup body = some (.start name attr true))
    (hstart : (h.heard run).startElement name attr = (h', true)) :
    Loads valid (h, inside opened run) ('<' :: body ++ ['>'])
      (h'.endElement valid name, inside opened []) := by
  refine loads_of_reads (XmlReader.Reads.tag (inside opened run) hopened Phase.noConfusion hrun hgt
    hcloses hmarkup (apply_start_inside hopened name attr true)) ?_
  rw [readAll_flush, readAll, readNext, hstart]
  rfl

/-- A tag that closes the element opened last. -/
theorem loads_stop (h : LoadXmlContentHandler types) (opened : List QString) {run : QString}
    (body name : QString) (hrun : isPlain run = true) (hgt : '>' ∉ body) (hcloses : closes body = true)
    (hmarkup : markup body = some (.stop name)) :
    Loads valid (h, inside (name :: opened) run) ('<' :: body ++ ['>'])
      ((h.heard run).endElement valid name, inside opened []) := by
  refine loads_of_reads (XmlReader.Reads.tag (inside (name :: opened) run) (List.cons_ne_nil _ _)
    Phase.noConfusion hrun hgt hcloses hmarkup (if_pos rfl)) ?_
  rw [readAll_flush]
  rfl

/-! ## A rule -/

/-- The element of a pattern that is not empty. -/
def regexText (pattern : QString) : QString :=
  if pattern ≠ [] then "<regex>".toList ++ pattern ++ "</regex>".toList else []

/-- The element of a level range that there is. -/
def levelText (lo hi : UInt8) : QString :=
  if lo ≠ 0 ∨ hi ≠ 0 then
    "<level".toList ++ levelAttr "min".toList lo ++ levelAttr "max".toList hi ++ "/>".toList
  else []

variable (fs : Filters types) (type : UInt8)

theorem loads_regex {opened : List QString} {pattern : QString} (hopened : opened ≠ [])
    (hplain : isPlain pattern = true) (lo hi : UInt8) :
    Loads valid (⟨fs, type, [], lo, hi, false⟩, inside opened []) (regexText pattern)
      (⟨fs, type, pattern, lo, hi, false⟩, inside opened []) := by
  unfold regexText
  split_ifs with hpattern
  · have hstart : Loads valid (⟨fs, type, [], lo, hi, false⟩, inside opened []) "<regex>".toList
        (⟨fs, type, [], lo, hi, true⟩, inside ("regex".toList :: opened) []) :=
      loads_start valid "regex".toList [] hopened isPlain_nil (by decide) (by decide) (by decide) rfl
    have htext := loads_text valid ⟨fs, type, [], lo, hi, true⟩
      ("regex".toList :: opened) [] fun hmem => ((isPlain_iff.mp hplain).1 '<' hmem).2.1 rfl
    have hstop := loads_stop valid ⟨fs, type, [], lo, hi, true⟩ opened "/regex".toList
      "regex".toList hplain (by decide) (by decide) (by decide)
    have hheard : (⟨fs, type, [], lo, hi, true⟩ : LoadXmlContentHandler types).heard pattern =
        ⟨fs, type, pattern, lo, hi, true⟩ := if_neg hpattern
    rw [hheard] at hstop
    exact (hstart.trans htext).trans hstop
  · rw [not_not.mp hpattern]
    exact Loads.nil _

theorem levelAttr_of_ne {name : QString} {level : UInt8} (h : level ≠ 0) :
    levelAttr name level = attrText name (printInt level.toNat) := by
  unfold levelAttr attrText
  rw [if_pos h]
  simp

/-- A number is read back as it was written. -/
theorem printInt_spec (n : UInt8) :
    attributeValue (printInt n.toNat) = some (printInt n.toNat) ∧ '"' ∉ printInt n.toNat ∧
      '>' ∉ printInt n.toNat ∧ printInt n.toNat ≠ [] ∧ levelOfAttr (printInt n.toNat) = n := by
  have hall : ∀ n : ℕ, n < 256 → attributeValue (printInt n) = some (printInt n) ∧
      '"' ∉ printInt n ∧ '>' ∉ printInt n ∧ printInt n ≠ [] ∧ levelOfAttr (printInt n) = UInt8.ofNat n := by
    decide +kernel
  have hn := hall n.toNat n.toNat_lt
  rwa [UInt8.ofNat_toNat] at hn

/-- The attribute of a level that there is. -/
def levelAttrs (name : QString) (level : UInt8) : List (QString × QString) :=
  if level ≠ 0 then [(name, printInt level.toNat)] else []

theorem foldlM_levelAttr (name : QString) (level : UInt8) (attrs : List (QString × QString))
    (hname : isName name = true) (hfresh : (attrs.any fun attr => attr.1 = name) = false) :
    (levelAttr name level).foldlM attrStep (.gap false, attrs) =
      some (.gap false, attrs ++ levelAttrs name level) := by
  obtain ⟨hvalue, hquote, _⟩ := printInt_spec level
  by_cases hlevel : level = 0
  · unfold levelAttr levelAttrs
    rw [if_neg (not_not.mpr hlevel), if_neg (not_not.mpr hlevel), List.append_nil]
    rfl
  · rw [levelAttr_of_ne hlevel, foldlM_attrStep_attrText false hname hfresh hquote hvalue]
    unfold levelAttrs
    rw [if_pos hlevel]

theorem attributes_level (lo hi : UInt8) :
    attributes (levelAttr "min".toList lo ++ levelAttr "max".toList hi) =
      some (levelAttrs "min".toList lo ++ levelAttrs "max".toList hi) := by
  have hfresh : ((levelAttrs "min".toList lo).any fun attr => attr.1 = "max".toList) = false := by
    unfold levelAttrs
    split_ifs <;> rfl
  have hmin := foldlM_levelAttr "min".toList lo [] (by decide) rfl
  have hmax := foldlM_levelAttr "max".toList hi _ (by decide) hfresh
  rw [List.nil_append] at hmin
  unfold attributes
  rw [List.foldlM_append, hmin, Option.bind_eq_bind, Option.bind_some, hmax]

theorem quoteStep_levelAttr {name : QString} (level : UInt8) (hname : ∀ c ∈ name, c ∉ quotes) :
    (levelAttr name level).foldl quoteStep none = none := by
  by_cases hlevel : level = 0
  · unfold levelAttr
    rw [if_neg (not_not.mpr hlevel)]
    rfl
  · rw [levelAttr_of_ne hlevel]
    exact foldl_quoteStep_attrText hname (printInt_spec level).2.1

theorem gt_notMem_levelAttr {name : QString} (level : UInt8) (hname : '>' ∉ name) :
    '>' ∉ levelAttr name level := by
  unfold levelAttr
  split_ifs
  · have hdecimal := (printInt_spec level).2.2.1
    simp only [List.mem_append, not_or]
    exact ⟨⟨⟨⟨by decide, hname⟩, by decide⟩, hdecimal⟩, by decide⟩
  · exact nofun

/-- What the attributes say is what was written, 0 for what was not. -/
theorem attrValue_level (lo hi : UInt8) :
    let attr := levelAttrs "min".toList lo ++ levelAttrs "max".toList hi
    (if attrValue attr "min".toList ≠ [] then levelOfAttr (attrValue attr "min".toList)
      else 0) = lo ∧
    (if attrValue attr "max".toList ≠ [] then levelOfAttr (attrValue attr "max".toList)
      else 0) = hi := by
  obtain ⟨_, _, _, hneLo, hlo⟩ := printInt_spec lo
  obtain ⟨_, _, _, hneHi, hhi⟩ := printInt_spec hi
  have hmin : attrValue (levelAttrs "min".toList lo ++ levelAttrs "max".toList hi) "min".toList =
      if lo ≠ 0 then printInt lo.toNat else [] := by
    unfold levelAttrs
    split_ifs <;> rfl
  have hmax : attrValue (levelAttrs "min".toList lo ++ levelAttrs "max".toList hi) "max".toList =
      if hi ≠ 0 then printInt hi.toNat else [] := by
    unfold levelAttrs
    split_ifs <;> rfl
  dsimp only
  rw [hmin, hmax]
  constructor
  · by_cases hzero : lo = 0
    · rw [if_neg (not_not.mpr hzero), if_neg (not_not.mpr rfl), hzero]
    · rw [if_pos hzero, if_pos hneLo, hlo]
  · by_cases hzero : hi = 0
    · rw [if_neg (not_not.mpr hzero), if_neg (not_not.mpr rfl), hzero]
    · rw [if_pos hzero, if_pos hneHi, hhi]

theorem takeWhile_level (lo hi : UInt8) :
    ("level".toList ++ (levelAttr "min".toList lo ++ levelAttr "max".toList hi)).takeWhile
      isNameChar = "level".toList := by
  have hname : ("level".toList.all isNameChar) = true := by decide
  have hattrs : (levelAttr "min".toList lo ++ levelAttr "max".toList hi).takeWhile isNameChar =
      [] := by
    unfold levelAttr
    split_ifs <;> rfl
  rw [List.takeWhile_append_of_pos (List.all_eq_true.mp hname), hattrs, List.append_nil]

/-- The tag of a level range, up to its '>'. -/
def levelBody (lo hi : UInt8) : QString :=
  "level".toList ++ (levelAttr "min".toList lo ++ levelAttr "max".toList hi) ++ ['/']

theorem markup_levelBody (lo hi : UInt8) :
    markup (levelBody lo hi) = some (.start "level".toList
      (levelAttrs "min".toList lo ++ levelAttrs "max".toList hi) true) ∧
    closes (levelBody lo hi) = true ∧ '>' ∉ levelBody lo hi := by
  have htag := tag_empty (by decide) (takeWhile_level lo hi) (attributes_level lo hi)
  obtain ⟨hmarkup, hcloses⟩ := markup_of_name (c := 'l') (by decide) (by decide) (by decide)
    ("evel".toList ++ (levelAttr "min".toList lo ++ levelAttr "max".toList hi) ++ ['/'])
  have hnames (name : QString) (hname : (name.all fun c => c ∉ quotes) = true) :
      ∀ c ∈ name, c ∉ quotes := List.all_iff_forall_prop.mp hname
  have hquotes : inQuotes (levelBody lo hi) = false := by
    unfold inQuotes levelBody
    rw [List.foldl_append, List.foldl_append, List.foldl_append,
      foldl_quoteStep_outside (hnames "level".toList (by decide)),
      quoteStep_levelAttr lo (hnames "min".toList (by decide)),
      quoteStep_levelAttr hi (hnames "max".toList (by decide))]
    rfl
  refine ⟨hmarkup.trans htag, hcloses.trans ?_, ?_⟩
  · exact congrArg not hquotes
  · unfold levelBody
    simp only [List.mem_append, not_or]
    exact ⟨⟨by decide, gt_notMem_levelAttr lo (by decide), gt_notMem_levelAttr hi (by decide)⟩,
      by decide⟩

theorem loads_level {opened : List QString} (hopened : opened ≠ []) (pattern : QString)
    (lo hi : UInt8) :
    Loads valid (⟨fs, type, pattern, 0, 0, false⟩, inside opened []) (levelText lo hi)
      (⟨fs, type, pattern, lo, hi, false⟩, inside opened []) := by
  unfold levelText
  split_ifs with hlevel
  · obtain ⟨hmarkup, hcloses, hgt⟩ := markup_levelBody lo hi
    obtain ⟨hlo, hhi⟩ := attrValue_level lo hi
    have hstart : (⟨fs, type, pattern, 0, 0, false⟩ : LoadXmlContentHandler types).startElement
        "level".toList (levelAttrs "min".toList lo ++ levelAttrs "max".toList hi) =
        (⟨fs, type, pattern, lo, hi, false⟩, true) := by
      unfold startElement
      rw [if_neg (by decide), if_neg (by decide), if_pos rfl, hlo, hhi]
    have hempty := loads_empty valid hopened isPlain_nil hgt hcloses hmarkup hstart
    have htext : "<level".toList ++ levelAttr "min".toList lo ++ levelAttr "max".toList hi ++
        "/>".toList = '<' :: levelBody lo hi ++ ['>'] := by
      unfold levelBody
      simp
    rw [htext]
    exact hempty
  · obtain ⟨hlo, hhi⟩ := not_or.mp hlevel
    rw [not_not.mp hlo, not_not.mp hhi]
    exact Loads.nil _

/-! ## A rule and a section -/

/-- The line of a pattern and a level range. -/
def rowText (indent : QString) (row : QString × UInt8 × UInt8) : QString :=
  indent ++ "<oldfilter>".toList ++ regexText row.1 ++ levelText row.2.1 row.2.2 ++
    "</oldfilter>".toList ++ ['\n']

theorem save_eq (indent : QString) (re : FilterItem) : re.save indent = rowText indent re.row := by
  have hempty : re.m_regexp.pattern = [] ↔ re.m_regexpOriginalPattern = [] := by
    rw [re.fixed]
    exact fixedFilterPattern_eq_iff rfl
  unfold FilterItem.save rowText regexText levelText FilterItem.row FilterItem.origFilterPattern
  rw [if_congr (not_congr hempty) rfl rfl, List.append_assoc _ "</oldfilter>".toList]
  rfl

theorem endElement_oldfilter (pattern : QString) (lo hi : UInt8) (htype : type ≤ types.m_maxType) :
    (⟨fs, type, pattern, lo, hi, false⟩ : LoadXmlContentHandler types).endElement valid
        "oldfilter".toList =
      ⟨(fs.addFilter valid type pattern lo hi).1, type, pattern, lo, hi, false⟩ := by
  have hregex : ¬ "oldfilter".toList = "regex".toList := by decide
  unfold endElement
  rw [if_neg hregex]
  exact if_pos htype

/-- A line of the file adds its rule. -/
theorem loads_rule {opened : List QString} {h : LoadXmlContentHandler types} {indent : QString}
    {re : FilterItem} (hopened : opened ≠ []) (hindent : isPlain ('\n' :: indent) = true)
    (hregex : h.m_inRegex = false) (hplain : isPlain re.origFilterPattern = true)
    (htype : h.m_currentType ≤ types.m_maxType) :
    Loads valid (h, inside opened ['\n']) (re.save indent)
      (⟨(h.m_filters.addFilter valid h.m_currentType re.origFilterPattern
        re.m_minLevel re.m_maxLevel).1, h.m_currentType, re.origFilterPattern, re.m_minLevel,
        re.m_maxLevel, false⟩, inside opened ['\n']) := by
  have hlt : '<' ∉ indent := fun hmem =>
    ((isPlain_iff.mp hindent).1 '<' (List.mem_cons_of_mem _ hmem)).2.1 rfl
  have hheard : (h.heard ('\n' :: indent)).startElement "oldfilter".toList [] =
      (⟨h.m_filters, h.m_currentType, [], 0, 0, false⟩, true) := by
    rw [heard_of_outside hregex, ← hregex]
    rfl
  have hspace := loads_text valid h opened ['\n'] hlt
  have hstart : Loads valid (h, inside opened (['\n'] ++ indent)) "<oldfilter>".toList
      (⟨h.m_filters, h.m_currentType, [], 0, 0, false⟩, inside ("oldfilter".toList :: opened) []) :=
    loads_start valid "oldfilter".toList [] hopened hindent (by decide) (by decide) (by decide) hheard
  have hpattern := loads_regex valid h.m_filters h.m_currentType
    (List.cons_ne_nil "oldfilter".toList opened) hplain 0 0
  have hlevel := loads_level valid h.m_filters h.m_currentType
    (List.cons_ne_nil "oldfilter".toList opened) re.origFilterPattern re.m_minLevel re.m_maxLevel
  have hstop := loads_stop valid ⟨h.m_filters, h.m_currentType, re.origFilterPattern,
      re.m_minLevel, re.m_maxLevel, false⟩ opened "/oldfilter".toList "oldfilter".toList isPlain_nil
    (by decide) (by decide) (by decide)
  have hadd := endElement_oldfilter valid h.m_filters h.m_currentType
    re.origFilterPattern re.m_minLevel re.m_maxLevel htype
  rw [heard_of_outside rfl, hadd] at hstop
  rw [save_eq]
  exact ((((hspace.trans hstart).trans hpattern).trans hlevel).trans hstop).trans
    (loads_text valid _ opened [] (by decide))

/-- The rules of a section added one by one. -/
def addAll (valid : QRegularExpression → Bool) (fs : Filters types) (type : UInt8)
    (res : List FilterItem) : Filters types :=
  res.foldl (fun fs re =>
    (fs.addFilter valid type re.origFilterPattern re.m_minLevel re.m_maxLevel).1) fs

theorem loads_rules {opened : List QString} {indent : QString} (hopened : opened ≠ [])
    (hindent : isPlain ('\n' :: indent) = true) {res : List FilterItem}
    (hplain : ∀ re ∈ res, isPlain re.origFilterPattern = true) {h : LoadXmlContentHandler types}
    (hregex : h.m_inRegex = false) (htype : h.m_currentType ≤ types.m_maxType) :
    ∃ h' : LoadXmlContentHandler types,
      Loads valid (h, inside opened ['\n']) (res.flatMap fun re => re.save indent)
        (h', inside opened ['\n']) ∧
      h'.m_filters = addAll valid h.m_filters h.m_currentType res ∧ h'.m_inRegex = false := by
  induction res generalizing h with
  | nil => exact ⟨h, Loads.nil _, rfl, hregex⟩
  | cons re res ih =>
      have hrule := loads_rule valid hopened hindent hregex
        (hplain re List.mem_cons_self) htype
      obtain ⟨h', hrules, hfilters, hregex'⟩ := ih
        (fun re' hmem => hplain re' (List.mem_cons_of_mem re hmem)) (h := ⟨_, _, _, _, _, _⟩)
        rfl htype
      refine ⟨h', ?_, hfilters, hregex'⟩
      rw [List.flatMap_cons]
      exact hrule.trans hrules

/-- The tag of a section, up to its '>'. -/
def sectionBody (type : UInt8) : QString :=
  "section name=\"".toList ++ fileTypes.name type ++ "\"".toList

/-- A section's tag names its type, and the name says the type. -/
theorem sectionBody_spec {type : UInt8} (ht : type < SIZEOF_FILTERS) :
    markup (sectionBody type) =
        some (.start "section".toList [("name".toList, fileTypes.name type)] false) ∧
      closes (sectionBody type) = true ∧ '>' ∉ sectionBody type ∧
      fileTypes.name type ≠ [] ∧ fileTypes.type (fileTypes.name type) = type ∧
      type ≤ fileTypes.m_maxType := by
  have hall : ∀ type ∈ typeValues, markup (sectionBody type) =
        some (.start "section".toList [("name".toList, fileTypes.name type)] false) ∧
      closes (sectionBody type) = true ∧ '>' ∉ sectionBody type ∧
      fileTypes.name type ≠ [] ∧ fileTypes.type (fileTypes.name type) = type ∧
      type ≤ fileTypes.m_maxType := List.all_iff_forall_prop.mp (by decide +kernel)
  exact hall type (mem_typeValues ht)

/-- The root of the file. -/
def root : List QString := ["seqfilters".toList]

theorem saveSection_eq (fs : Filters fileTypes) (indent : QString) (type : UInt8) {filter : Filter}
    (hfilter : fs.m_filters (FilterTypes.mask type) = some filter) :
    fs.saveSection indent type = indent ++ ('<' :: sectionBody type ++ ['>']) ++ ['\n'] ++
      ((fs.items type).flatMap fun re => re.save (indent ++ "    ".toList)) ++ indent ++
        ('<' :: "/section".toList ++ ['>']) ++ ['\n'] := by
  unfold Filters.saveSection Filters.items sectionBody
  rw [hfilter]
  unfold Filter.save
  simp

theorem startElement_section (h : LoadXmlContentHandler fileTypes) {type : UInt8}
    (ht : type < SIZEOF_FILTERS) :
    h.startElement "section".toList [("name".toList, fileTypes.name type)] =
      ({ h with m_currentType := type }, true) := by
  obtain ⟨_, _, _, hname, htype, _⟩ := sectionBody_spec ht
  have hvalue : attrValue [("name".toList, fileTypes.name type)] "name".toList =
      fileTypes.name type := rfl
  have helement : ¬ "section".toList = "oldfilter".toList ∧ ¬ "section".toList = "regex".toList ∧
      ¬ "section".toList = "level".toList := by decide
  unfold startElement
  rw [if_neg helement.1, if_neg helement.2.1, if_neg helement.2.2, if_pos rfl, hvalue,
    if_neg hname, htype]

theorem endElement_section (h : LoadXmlContentHandler types) :
    h.endElement valid "section".toList = { h with m_currentType := 255 } := by
  have helement : ¬ "section".toList = "regex".toList ∧
      ¬ "section".toList = "oldfilter".toList := by decide
  unfold endElement
  dsimp only
  rw [if_neg helement.1, if_neg helement.2, if_pos rfl]

/-- The section of a type adds its rules. -/
theorem loads_section (fs : Filters fileTypes) {type : UInt8} (ht : type < SIZEOF_FILTERS)
    (hplain : ∀ re ∈ fs.items type, isPlain re.origFilterPattern = true)
    {h : LoadXmlContentHandler fileTypes} (hregex : h.m_inRegex = false) :
    ∃ h' : LoadXmlContentHandler fileTypes,
      Loads valid (h, inside root ['\n']) (fs.saveSection "    ".toList type)
        (h', inside root ['\n']) ∧
      h'.m_filters = addAll valid h.m_filters type (fs.items type) ∧ h'.m_inRegex = false := by
  cases hfilter : fs.m_filters (FilterTypes.mask type) with
  | none =>
      have hitems : fs.items type = [] := by
        unfold Filters.items
        rw [hfilter]
      have hsection : fs.saveSection "    ".toList type = [] := by
        unfold Filters.saveSection
        rw [hfilter]
      rw [hitems, hsection]
      exact ⟨h, Loads.nil _, rfl, hregex⟩
  | some filter =>
      obtain ⟨hmarkup, hcloses, hgt, hname, htype, hmax⟩ := sectionBody_spec ht
      have hroot : root ≠ [] := List.cons_ne_nil _ _
      have hindent : isPlain ('\n' :: "    ".toList) = true := by decide
      have hstart : (h.heard (['\n'] ++ "    ".toList)).startElement "section".toList
          [("name".toList, fileTypes.name type)] = ({ h with m_currentType := type }, true) := by
        rw [heard_of_outside hregex, startElement_section h ht]
      have hopen := loads_start valid (sectionBody type) _ hroot hindent hgt hcloses hmarkup hstart
      have hindent' : isPlain ('\n' :: ("    ".toList ++ "    ".toList)) = true := by decide
      obtain ⟨h', hrules, hfilters, hregex'⟩ := loads_rules valid
        (List.cons_ne_nil "section".toList root) hindent' hplain
        (h := { h with m_currentType := type }) hregex hmax
      have hstop := loads_stop valid h' root "/section".toList "section".toList hindent
        (by decide) (by decide) (by decide)
      have hspace := loads_text valid h root ['\n'] (s := "    ".toList) (by decide)
      have hnewline := loads_text valid { h with m_currentType := type }
        ("section".toList :: root) [] (s := ['\n']) (by decide)
      have hspace' := loads_text valid h' ("section".toList :: root) ['\n']
        (s := "    ".toList) (by decide)
      have hend := loads_text valid { h' with m_currentType := 255 } root []
        (s := ['\n']) (by decide)
      rw [heard_of_outside hregex', endElement_section] at hstop
      refine ⟨{ h' with m_currentType := 255 }, ?_, hfilters, hregex'⟩
      rw [saveSection_eq fs _ type hfilter]
      exact ((((((hspace.trans hopen).trans hnewline).trans hrules).trans hspace').trans
        hstop).trans hend)

theorem loads_sections (fs : Filters fileTypes) (ts : List UInt8)
    (ht : ∀ type ∈ ts, type < SIZEOF_FILTERS)
    (hplain : ∀ type ∈ ts, ∀ re ∈ fs.items type, isPlain re.origFilterPattern = true)
    {h : LoadXmlContentHandler fileTypes} (hregex : h.m_inRegex = false) :
    ∃ h' : LoadXmlContentHandler fileTypes,
      Loads valid (h, inside root ['\n']) (ts.flatMap fun type => fs.saveSection "    ".toList type)
        (h', inside root ['\n']) ∧
      h'.m_filters = ts.foldl (fun fs' type => addAll valid fs' type (fs.items type)) h.m_filters ∧
      h'.m_inRegex = false := by
  induction ts generalizing h with
  | nil => exact ⟨h, Loads.nil _, rfl, hregex⟩
  | cons type ts ih =>
      obtain ⟨h₁, hsection, hfilters₁, hregex₁⟩ := loads_section valid fs
        (ht type List.mem_cons_self) (hplain type List.mem_cons_self) hregex
      obtain ⟨h₂, hsections, hfilters₂, hregex₂⟩ := ih
        (fun type' hmem => ht type' (List.mem_cons_of_mem type hmem))
        (fun type' hmem => hplain type' (List.mem_cons_of_mem type hmem)) hregex₁
      refine ⟨h₂, ?_, ?_, hregex₂⟩
      · rw [List.flatMap_cons]
        exact hsection.trans hsections
      · rw [hfilters₂, hfilters₁]
        rfl

end LoadXmlContentHandler

/-! ## The file -/

/-- What stands before the sections. -/
def fileHead : QString :=
  "<?xml version=\"1.0\" encoding=\"UTF-8\"?>\n".toList ++
  "<!DOCTYPE seqfilters SYSTEM \"seqfilters.dtd\">\n".toList ++
  "<seqfilters>\n".toList

/-- What stands behind them. -/
def fileTail : QString := "</seqfilters>\n".toList

open LoadXmlContentHandler

theorem run_fileHead : State.run {} fileHead =
    some ([.dtd, .startElement "seqfilters".toList []], inside root ['\n']) := by
  decide +kernel

theorem scan_fileTail : scan (inside root ['\n']) fileTail =
    [.characters ['\n'], .endElement "seqfilters".toList, .endDocument] := by
  decide +kernel

/-- Only types that there are have sections. -/
theorem save_eq_typeValues (fs : Filters fileTypes) :
    fs.save = fileHead ++ (typeValues.flatMap fun type => fs.saveSection "    ".toList type) ++
      fileTail := by
  have hrange : (List.range 32).map Nat.toUInt8 =
      typeValues ++ ((List.range 32).drop 7).map Nat.toUInt8 := by decide
  have hothers : ∀ type ∈ ((List.range 32).drop 7).map Nat.toUInt8,
      fileTypes.validMask (FilterTypes.mask type) = false :=
    List.all_iff_forall_prop.mp (by decide)
  have hnone : ((((List.range 32).drop 7).map Nat.toUInt8).flatMap fun type =>
      fs.saveSection "    ".toList type) = [] := by
    rw [List.flatMap_eq_nil_iff]
    intro type hmem
    unfold Filters.saveSection
    cases hfilter : fs.m_filters (FilterTypes.mask type) with
    | none => rfl
    | some filter =>
        have hvalid := fs.typed (FilterTypes.mask type) (by rw [hfilter]; exact nofun)
        exact absurd ((hothers type hmem).symm.trans hvalid) Bool.false_ne_true
  have hsections : ((List.range 32).flatMap fun i => fs.saveSection "    ".toList i.toUInt8) =
      typeValues.flatMap fun type => fs.saveSection "    ".toList type := by
    rw [← List.flatMap_map, hrange, List.flatMap_append, hnone, List.append_nil]
  unfold Filters.save
  rw [hsections]
  rfl

/-! ## The rules that are loaded -/

section
variable {valid : QRegularExpression → Bool} {types : FilterTypes}

/-- Rules of which none has the name that a later one was made from are all added. -/
theorem rows_addAll {fs : Filters types} {type : UInt8}
    (hmask : types.validMask (FilterTypes.mask type) = true) (done : List FilterItem)
    {res : List FilterItem}
    (hdone : fs.rows type = done.map FilterItem.row)
    (hnodup : (done ++ res).Pairwise fun re re' => re.name ≠ re'.origFilterPattern) :
    (addAll valid fs type res).rows type = (done ++ res).map FilterItem.row := by
  induction res generalizing fs done with
  | nil =>
      rw [List.append_nil]
      exact hdone
  | cons re res ih =>
      have habsent : ¬ ∃ re' ∈ (fs.filterOf type).m_filterItems, re'.name = re.origFilterPattern := by
        rintro ⟨re', hmem, hname⟩
        have hrow : re'.row ∈ done.map FilterItem.row := by
          rw [← hdone]
          unfold Filters.rows
          rw [Filters.items_eq]
          exact List.mem_map_of_mem hmem
        obtain ⟨old, hold, hsame⟩ := List.mem_map.mp hrow
        have horig : old.origFilterPattern = re'.origFilterPattern := congrArg Prod.fst hsame
        have hnameOld : old.name = re.origFilterPattern := by
          rw [← hname, FilterItem.name_eq, FilterItem.name_eq, horig]
        exact (List.pairwise_append.mp hnodup).2.2 old hold re List.mem_cons_self hnameOld
      have hadded : (fs.addFilter valid type re.origFilterPattern re.m_minLevel re.m_maxLevel).1.rows
          type = (done ++ [re]).map FilterItem.row := by
        unfold Filters.rows at hdone ⊢
        rw [Filters.addFilter_eq valid fs hmask, Filters.items_put, if_pos rfl,
          Filter.addFilter_items, if_neg habsent, List.map_append, List.map_append,
          ← Filters.items_eq, hdone]
        rfl
      have hrest := ih _ hadded (by rw [List.append_assoc]; exact hnodup)
      rw [List.append_assoc] at hrest
      exact hrest

/-- The rules of other types stay. -/
theorem items_addAll_of_ne {fs : Filters types} {type type' : UInt8}
    (hmask : types.validMask (FilterTypes.mask type) = true)
    (hne : FilterTypes.mask type' ≠ FilterTypes.mask type) (res : List FilterItem) :
    (addAll valid fs type res).items type' = fs.items type' := by
  induction res generalizing fs with
  | nil => rfl
  | cons re res ih =>
      have hadd : (fs.addFilter valid type re.origFilterPattern re.m_minLevel re.m_maxLevel).1.items
          type' = fs.items type' := by
        rw [Filters.addFilter_eq valid fs hmask, Filters.items_put, if_neg hne]
      exact ih.trans hadd

end

section
variable {valid : QRegularExpression → Bool}

/-- Every section's rules come back, and nothing else. -/
theorem rows_sections (fs : Filters fileTypes) {ts : List UInt8}
    (ht : ∀ type ∈ ts, type < SIZEOF_FILTERS) (hnodup : ts.Nodup) (fs' : Filters fileTypes)
    {type : UInt8} (htype : type < SIZEOF_FILTERS) (hempty : type ∈ ts → fs'.items type = []) :
    (ts.foldl (fun fs' type => addAll valid fs' type (fs.items type)) fs').rows type =
      if type ∈ ts then fs.rows type else fs'.rows type := by
  induction ts generalizing fs' with
  | nil => rfl
  | cons t ts ih =>
      have hmask := validMask_of_lt (ht t List.mem_cons_self)
      obtain ⟨hhead, htail⟩ := List.nodup_cons.mp hnodup
      rw [List.foldl_cons]
      by_cases heq : type = t
      · have hrows : (addAll valid fs' type (fs.items type)).rows type = fs.rows type := by
          refine (rows_addAll (heq ▸ hmask) [] ?_ ?_).trans rfl
          · unfold Filters.rows
            rw [hempty (heq ▸ List.mem_cons_self)]
          · rw [List.nil_append, Filters.items_eq]
            exact (fs.filterOf type).nodup
        have hrest := ih (fun t' hmem => ht t' (List.mem_cons_of_mem t hmem)) htail
          (addAll valid fs' t (fs.items t)) fun hmem => absurd (heq ▸ hmem) hhead
        rw [hrest, if_neg (heq ▸ hhead), if_pos (heq ▸ List.mem_cons_self), ← heq, hrows]
      · have hother : (addAll valid fs' t (fs.items t)).items type = fs'.items type :=
          items_addAll_of_ne hmask (fun h => heq (mask_inj htype (ht t List.mem_cons_self) h)) _
        have hrest := ih (fun t' hmem => ht t' (List.mem_cons_of_mem t hmem)) htail
          (addAll valid fs' t (fs.items t)) fun hmem => by
            rw [hother]
            exact hempty (List.mem_cons_of_mem t hmem)
        have hmem : type ∈ t :: ts ↔ type ∈ ts := by
          rw [List.mem_cons]
          exact or_iff_right heq
        rw [hrest, if_congr hmem rfl rfl]
        unfold Filters.rows
        rw [hother]

end

/-! ## Line ends in the file -/

/-- The file with these rules, for each type if it has a section. -/
def fileText (present : UInt8 → Bool) (rows : UInt8 → List (QString × UInt8 × UInt8)) : QString :=
  fileHead ++ (typeValues.flatMap fun type =>
    if present type = true then
      "    ".toList ++ ('<' :: sectionBody type ++ ['>']) ++ ['\n'] ++
        ((rows type).flatMap fun row => rowText ("    ".toList ++ "    ".toList) row) ++
        "    ".toList ++ ('<' :: "/section".toList ++ ['>']) ++ ['\n']
    else []) ++ fileTail

theorem save_eq_fileText (fs : Filters fileTypes) :
    fs.save = fileText (fun type => (fs.m_filters (FilterTypes.mask type)).isSome) fs.rows := by
  rw [save_eq_typeValues]
  unfold fileText
  refine congrArg (fileHead ++ · ++ fileTail) (List.flatMap_congr fun type _ => ?_)
  obtain hnone | ⟨filter, hfilter⟩ := (fs.m_filters (FilterTypes.mask type)).eq_none_or_eq_some
  · have habsent : ¬ (fs.m_filters (FilterTypes.mask type)).isSome = true := by
      rw [hnone]
      exact Bool.false_ne_true
    unfold Filters.saveSection
    rw [hnone, if_neg habsent]
  · have hpresent : (fs.m_filters (FilterTypes.mask type)).isSome = true := by
      rw [hfilter]
      rfl
    rw [saveSection_eq fs _ type hfilter, if_pos hpresent]
    unfold Filters.rows
    rw [List.flatMap_map]
    simp only [save_eq]

/-- Line ends are normalized pattern by pattern. -/
def normalizeRow (row : QString × UInt8 × UInt8) : QString × UInt8 × UInt8 :=
  (normalizeEol false row.1, row.2)

theorem isDigit_of_mem_printInt {n : UInt8} {c : Char} (h : c ∈ printInt n.toNat) :
    c.isDigit = true := by
  rw [Numeral.printInt_natCast] at h
  exact Nat.isDigit_of_mem_toDigits (by decide) (by decide) h

/-- The characters of a level range are those of its tag and digits. -/
theorem notMem_levelText {c : Char} (hdigit : c.isDigit = false)
    (hfixed : c ∉ "<level min=\"max/>".toList) (lo hi : UInt8) : c ∉ levelText lo hi := by
  have hdecimal (n : UInt8) : c ∉ printInt n.toNat := fun hmem =>
    Bool.false_ne_true (hdigit.symm.trans (isDigit_of_mem_printInt hmem))
  have hsub {s : QString} (hs : (s.all fun d => d ∈ "<level min=\"max/>".toList) = true) : c ∉ s :=
    fun hmem => hfixed (List.all_iff_forall_prop.mp hs c hmem)
  have hattr {name : QString} (hname : (name.all fun d => d ∈ "<level min=\"max/>".toList) = true)
      (n : UInt8) : c ∉ levelAttr name n := by
    unfold levelAttr
    split_ifs
    · simp only [List.mem_append, not_or]
      exact ⟨⟨⟨⟨hsub (by decide), hsub hname⟩, hsub (by decide)⟩, hdecimal n⟩, hsub (by decide)⟩
    · exact nofun
  unfold levelText
  split_ifs
  · simp only [List.mem_append, not_or]
    exact ⟨⟨⟨hsub (by decide), hattr (by decide) lo⟩, hattr (by decide) hi⟩, hsub (by decide)⟩
  · exact nofun

theorem normalizes_regexText (pattern : QString) :
    Normalizes (regexText pattern) (regexText (normalizeEol false pattern)) := by
  unfold regexText
  rw [if_congr (not_congr normalizeEol_eq_nil_iff) rfl rfl]
  split_ifs
  · exact normalizes_between (by decide) (by decide)
  · exact fun rest => rfl

theorem normalizes_rowText (indent : QString) (hindent : '\r' ∉ indent)
    (row : QString × UInt8 × UInt8) :
    Normalizes (rowText indent row) (rowText indent (normalizeRow row)) := by
  have hhead := normalizes_of_notMem hindent
  have hopen := normalizes_of_notMem (s := "<oldfilter>".toList) (by decide)
  have hlevel := normalizes_of_notMem (notMem_levelText (c := '\r') (by decide) (by decide)
    row.2.1 row.2.2)
  have hclose := normalizes_of_notMem (s := "</oldfilter>".toList) (by decide)
  have hend := normalizes_of_notMem (s := ['\n']) (by decide)
  exact ((((hhead.append hopen).append (normalizes_regexText row.1)).append hlevel).append
    hclose).append hend

theorem cr_notMem_sectionBody {type : UInt8} (ht : type ∈ typeValues) :
    '\r' ∉ '<' :: sectionBody type ++ ['>'] := by
  have hall : ∀ type ∈ typeValues, '\r' ∉ '<' :: sectionBody type ++ ['>'] :=
    List.all_iff_forall_prop.mp (by decide)
  exact hall type ht

theorem normalizeEol_fileText (present : UInt8 → Bool)
    (rows : UInt8 → List (QString × UInt8 × UInt8)) :
    normalizeEol false (fileText present rows) =
      fileText present fun type => (rows type).map normalizeRow := by
  have hhead := normalizes_of_notMem (s := fileHead) (by decide)
  have htail := normalizes_of_notMem (s := fileTail) (by decide)
  have hspace := normalizes_of_notMem (s := "    ".toList) (by decide)
  have hnewline := normalizes_of_notMem (s := ['\n']) (by decide)
  have hstop := normalizes_of_notMem (s := '<' :: "/section".toList ++ ['>']) (by decide)
  have hsections := Normalizes.flatMap (l := typeValues) fun type ht => by
    show Normalizes (if present type = true then
        "    ".toList ++ ('<' :: sectionBody type ++ ['>']) ++ ['\n'] ++
          ((rows type).flatMap fun row => rowText ("    ".toList ++ "    ".toList) row) ++
          "    ".toList ++ ('<' :: "/section".toList ++ ['>']) ++ ['\n']
      else []) (if present type = true then
        "    ".toList ++ ('<' :: sectionBody type ++ ['>']) ++ ['\n'] ++
          (((rows type).map normalizeRow).flatMap fun row =>
            rowText ("    ".toList ++ "    ".toList) row) ++
          "    ".toList ++ ('<' :: "/section".toList ++ ['>']) ++ ['\n']
      else [])
    split_ifs
    · rw [List.flatMap_map]
      have hrows := Normalizes.flatMap (l := rows type) fun row _ =>
        normalizes_rowText ("    ".toList ++ "    ".toList) (by decide) row
      exact (((((hspace.append (normalizes_of_notMem (cr_notMem_sectionBody ht))).append
        hnewline).append hrows).append hspace).append hstop).append hnewline
    · exact fun rest => rfl
  have hfile := ((hhead.append hsections).append htail) []
  rw [List.append_nil, normalizeEol, List.append_nil] at hfile
  exact hfile

/-! ## Rules with plain patterns come back -/

/-- The patterns of all rules are plain. -/
def Filters.AllPlain (fs : Filters fileTypes) : Prop :=
  ∀ type < SIZEOF_FILTERS, ∀ re ∈ fs.items type, isPlain re.origFilterPattern = true

theorem lt_of_mem_typeValues {type : UInt8} (h : type ∈ typeValues) : type < SIZEOF_FILTERS := by
  have hall : ∀ type ∈ typeValues, type < SIZEOF_FILTERS :=
    List.all_iff_forall_prop.mp (by decide)
  exact hall type h

theorem normalizeEol_save_of_plain {fs : Filters fileTypes} (hplain : fs.AllPlain) :
    normalizeEol false fs.save = fs.save := by
  have hrows : ∀ type ∈ typeValues, (fs.rows type).map normalizeRow = fs.rows type := by
    intro type ht
    unfold Filters.rows
    rw [List.map_map]
    refine List.map_congr_left fun re hmem => ?_
    have hline := normalizeEol_of_plain (hplain type (lt_of_mem_typeValues ht) re hmem)
    exact Prod.ext hline rfl
  rw [save_eq_fileText, normalizeEol_fileText]
  unfold fileText
  refine congrArg (fileHead ++ · ++ fileTail) (List.flatMap_congr fun type ht => ?_)
  dsimp only
  rw [hrows type ht]

section
variable (valid : QRegularExpression → Bool)

/-- Rules with plain patterns are read back as they were, from a file that is read to its end. -/
theorem Filters.load_save_of_plain {fs : Filters fileTypes} (hplain : fs.AllPlain) :
    (fs.load valid fs.save).2 = true ∧
      ∀ type < SIZEOF_FILTERS, (fs.load valid fs.save).1.rows type = fs.rows type := by
  have hhead : Loads valid ({ m_filters := fs.clear }, {}) fileHead
      ({ m_filters := fs.clear }, inside root ['\n']) :=
    loads_of_reads (XmlReader.Reads.of_run run_fileHead) rfl
  obtain ⟨h', hsections, hfilters, hregex⟩ := loads_sections valid fs
    typeValues (fun type ht => lt_of_mem_typeValues ht)
    (fun type ht => hplain type (lt_of_mem_typeValues ht))
    (h := { m_filters := fs.clear }) rfl
  have htail : h'.readAll valid (scan (inside root ['\n']) fileTail) = (h', true) := by
    have hcharacters : h'.characters ['\n'] = h' := by
      unfold LoadXmlContentHandler.characters
      rw [hregex, if_neg Bool.false_ne_true]
    rw [scan_fileTail]
    show (((h'.characters ['\n']).endElement valid "seqfilters".toList).readAll valid
      [.endDocument]) = (h', true)
    rw [hcharacters]
    rfl
  have hall : ({ m_filters := fs.clear } : LoadXmlContentHandler fileTypes).readAll valid
      (tokens fs.save) = (h', true) := by
    have hstart (toks : List Token) : ({ m_filters := fs.clear } :
        LoadXmlContentHandler fileTypes).readAll valid (.startDocument :: toks) =
        ({ m_filters := fs.clear } : LoadXmlContentHandler fileTypes).readAll valid toks := rfl
    have hread := (hhead.trans hsections) fileTail
    dsimp only at hread
    unfold tokens
    rw [hstart, normalizeEol_save_of_plain hplain, save_eq_typeValues, hread, htail]
  have hload : fs.load valid fs.save = (h'.m_filters, true) := by
    unfold Filters.load
    dsimp only
    rw [hall]
  rw [hload]
  refine ⟨rfl, fun type ht => ?_⟩
  dsimp only
  rw [hfilters, rows_sections fs (fun type ht => lt_of_mem_typeValues ht) (by decide) _ ht
    fun _ => rfl, if_pos (mem_typeValues ht)]

end

end ShoweqDaemon.Rules
