/-
  An XML document read as a stream of tokens.

  The reader is an automaton over the characters of the document: it collects character data up to
  the next '<' and markup up to the '>' that closes it, and makes tokens of what it collected. A
  document type declaration has no internal subset here, so an entity that is not predefined may be
  declared elsewhere and is reported by its name. Namespaces are left out.

  * `Reads`: what the reader makes of a piece of text, and `Reads.trans`.
  * `charData_of_plain`: plain text is its own character data.
  * `characters_origin`: where the text of a characters token stands in the document.
-/
import Mathlib.Data.Nat.Notation
import Mathlib.Data.List.Infix
import ShoweqDaemon.Lib.Numeral

namespace XmlReader

/-- A document or a part of it, as its characters. -/
abbrev Text := List Char

/-! ## Characters -/

/-- The code of the character lies in one of the ranges, whose ends belong to them. -/
def inRanges (ranges : List (ℕ × ℕ)) (c : Char) : Bool :=
  ranges.any fun range => range.1 ≤ c.toNat && c.toNat ≤ range.2

/-- What may stand in a document at all, after the production `Char`. -/
def isXmlChar : Char → Bool :=
  inRanges [(0x9, 0xA), (0xD, 0xD), (0x20, 0xD7FF), (0xE000, 0xFFFD), (0x10000, 0x10FFFF)]

/-- White space of the markup, after the production `S`. -/
def isSpace (c : Char) : Bool := c = ' ' || c = '\t' || c = '\n' || c = '\r'

/-- What a name begins with. -/
def isNameStart : Char → Bool :=
  inRanges [(0x3A, 0x3A), (0x41, 0x5A), (0x5F, 0x5F), (0x61, 0x7A), (0xC0, 0xD6), (0xD8, 0xF6),
    (0xF8, 0x2FF), (0x370, 0x37D), (0x37F, 0x1FFF), (0x200C, 0x200D), (0x2070, 0x218F),
    (0x2C00, 0x2FEF), (0x3001, 0xD7FF), (0xF900, 0xFDCF), (0xFDF0, 0xFFFD), (0x10000, 0xEFFFF)]

/-- What a name goes on with. -/
def isNameChar (c : Char) : Bool :=
  isNameStart c ||
    inRanges [(0x2D, 0x2E), (0x30, 0x39), (0xB7, 0xB7), (0x300, 0x36F), (0x203F, 0x2040)] c

/-- A name: not empty, and of the characters of names. -/
def isName : Text → Bool
  | [] => false
  | c :: cs => isNameStart c && cs.all isNameChar

/-- A carriage return, with the line feed behind it or alone, is read as a line feed. `cr` says that
    the character before was a carriage return. -/
def normalizeEol (cr : Bool) : Text → Text
  | [] => []
  | c :: cs =>
      if c = '\r' then '\n' :: normalizeEol true cs
      else if c = '\n' ∧ cr = true then normalizeEol false cs
      else c :: normalizeEol false cs

/-! ## Character data -/

/-- What a reader of the document is told, one after the other. -/
inductive Token where
  | startDocument
  | endDocument
  | dtd
  | comment
  | processingInstruction
  | startElement (name : Text) (attributes : List (Text × Text))
  | endElement (name : Text)
  | characters (text : Text)
  | entityReference (name : Text)
  | invalid
  deriving DecidableEq, Repr

/-- The character of a reference by number, if there is one that may stand in a document. -/
def charRef (n : ℕ) : Option Char :=
  if n.isValidChar ∧ isXmlChar (Char.ofNat n) = true then some (Char.ofNat n) else none

/-- What a reference stands for: a character, or an entity that the reader knows by name only. -/
inductive Reference where
  | char (c : Char)
  | entity (name : Text)

/-- The five entities that every document has. -/
def predefined : List (Text × Char) :=
  [("lt".toList, '<'), ("gt".toList, '>'), ("amp".toList, '&'), ("apos".toList, Char.ofNat 39),
    ("quot".toList, Char.ofNat 34)]

/-- What stands between '&' and ';': a character by its number in one of two bases, one of the five
    that have a name, or the name of an entity. -/
def reference (body : Text) : Option Reference :=
  match body with
  | '#' :: 'x' :: digits => ((Numeral.digits 16 digits).bind charRef).map Reference.char
  | '#' :: digits => ((Numeral.digits 10 digits).bind charRef).map Reference.char
  | name =>
      match predefined.lookup name with
      | some c => some (.char c)
      | none => if isName name = true then some (.entity name) else none

/-- The characters read so far are a token, unless there are none. -/
def flush (buf : Text) : List Token := if buf = [] then [] else [.characters buf]

/-- Text with its references resolved. `ref` is the beginning of a reference and `buf` the text
    before; in content "]]>" is refused. -/
def charData (content : Bool) (ref : Option Text) (buf : Text) : Text → Option (List Token)
  | [] => if ref = none then some (flush buf) else none
  | c :: cs =>
      match ref with
      | some body =>
          if c = ';' then
            match reference body with
            | some (.char r) => charData content none (buf ++ [r]) cs
            | some (.entity name) =>
                (charData content none [] cs).map fun toks =>
                  flush buf ++ .entityReference name :: toks
            | none => none
          else charData content (some (body ++ [c])) buf cs
      | none =>
          if c = '&' then charData content (some []) buf cs
          else if isXmlChar c = true ∧ ¬ (content = true ∧ "]]>".toList <+: c :: cs) then
            charData content none (buf ++ [c]) cs
          else none

/-! ## Tags -/

/-- The characters that the value of an attribute may stand between. -/
def quotes : Text := "\"'".toList

/-- The value between the quotes: white space becomes blanks and references are replaced; there is
    none with `<` in it or with an entity that is not predefined. -/
def attributeValue (raw : Text) : Option Text :=
  if '<' ∈ raw then none
  else
    match charData false none [] (raw.map fun c => if isSpace c = true then ' ' else c) with
    | some [] => some []
    | some [.characters text] => some text
    | _ => none

/-- Where the reading of a tag stands: between attributes, in a name, behind it, behind the equals
    sign, or in a value. -/
inductive AttrMode where
  | gap (space : Bool)
  | name (n : Text)
  | named (n : Text)
  | eq (n : Text)
  | value (n : Text) (quote : Char) (raw : Text)

/-- One character of the attributes of a tag. No attribute comes twice. -/
def attrStep : AttrMode × List (Text × Text) → Char → Option (AttrMode × List (Text × Text))
  | (.gap space, attrs), c =>
      if isSpace c = true then some (.gap true, attrs)
      else if space = true ∧ isNameStart c = true then some (.name [c], attrs)
      else none
  | (.name n, attrs), c =>
      if isNameChar c = true then some (.name (n ++ [c]), attrs)
      else if isSpace c = true then some (.named n, attrs)
      else if c = '=' then some (.eq n, attrs)
      else none
  | (.named n, attrs), c =>
      if isSpace c = true then some (.named n, attrs)
      else if c = '=' then some (.eq n, attrs)
      else none
  | (.eq n, attrs), c =>
      if isSpace c = true then some (.eq n, attrs)
      else if c ∈ quotes then some (.value n c [], attrs)
      else none
  | (.value n quote raw, attrs), c =>
      if c = quote then
        if attrs.any fun attr => attr.1 = n then none
        else (attributeValue raw).map fun v => (.gap false, attrs ++ [(n, v)])
      else some (.value n quote (raw ++ [c]), attrs)

/-- The attributes of a tag, in order; a name that comes twice makes the tag malformed. -/
def attributes (s : Text) : Option (List (Text × Text)) :=
  match s.foldlM attrStep (.gap false, []) with
  | some (.gap _, attrs) => some attrs
  | _ => none

/-- What can stand between `<` and `>`. Of declarations, comments and instructions only the place is
    kept. -/
inductive Markup where
  | xmlDecl
  | comment
  | instruction
  | doctype
  | cdata (text : Text)
  | start (name : Text) (attrs : List (Text × Text)) (empty : Bool)
  | stop (name : Text)
  deriving DecidableEq

/-- A processing instruction, or the declaration that only the beginning of a document may have. -/
def instruction (inner : Text) : Option Markup :=
  let target := inner.takeWhile isNameChar
  let data := inner.dropWhile isNameChar
  if isName target = true ∧ inner.all isXmlChar = true ∧ (data.take 1).all isSpace = true then
    if target = "xml".toList then some .xmlDecl
    else if target.map Char.toLower = "xml".toList then none
    else some .instruction
  else none

/-- A start tag with its attributes; `empty` when it ends with a slash. -/
def tag (body : Text) : Option Markup :=
  let empty : Bool := body.getLast? = some '/'
  let inner := if empty = true then body.dropLast else body
  let name := inner.takeWhile isNameChar
  if isName name = true then
    (attributes (inner.dropWhile isNameChar)).map fun attrs => .start name attrs empty
  else none

/-- What stands between '<' and the '>' that closes it. -/
def markup (body : Text) : Option Markup :=
  if "!--".toList <+: body then
    let inner := (body.drop 3).dropLast.dropLast
    if inner.all isXmlChar = true ∧ ¬ "--".toList <:+: inner ++ ['-'] then some .comment else none
  else if "![CDATA[".toList <+: body then
    let inner := (body.drop 8).dropLast.dropLast
    if inner.all isXmlChar = true then some (.cdata inner) else none
  else if "!DOCTYPE".toList <+: body then
    if '[' ∈ body then none else some .doctype
  else
    match body with
    | '?' :: rest => instruction rest.dropLast
    | '/' :: rest =>
        let name := rest.takeWhile isNameChar
        if isName name = true ∧ (rest.dropWhile isNameChar).all isSpace = true then
          some (.stop name)
        else none
    | _ => tag body

/-- The quote that is open behind a character of a tag. -/
def quoteStep : Option Char → Char → Option Char
  | none, c => if c ∈ quotes then some c else none
  | some q, c => if c = q then none else some q

/-- The tag is open in the middle of a quoted value, where `>` does not end it. -/
def inQuotes (body : Text) : Bool := (body.foldl quoteStep none).isSome

/-- The '>' behind this closes the markup: comments, CDATA sections and instructions have an end of
    their own, and in a tag a quoted one does not count. -/
def closes (body : Text) : Bool :=
  if "!--".toList <+: body then "--".toList <:+ body.drop 3
  else if "![CDATA[".toList <+: body then "]]".toList <:+ body.drop 8
  else
    match body with
    | '?' :: rest => rest.getLast? = some '?'
    | _ => !inQuotes body

/-! ## The reader -/

/-- How far the document is: before anything, before the root, behind the document type, in the root
    or behind it. -/
inductive Phase where
  | start
  | prolog
  | typed
  | root
  deriving DecidableEq, Repr

/-- The reading is in text or in markup, with what it has of it. -/
inductive Mode where
  | text (run : Text)
  | markup (body : Text)
  deriving DecidableEq

/-- The state of the reader between two characters. -/
structure State where
  phase : Phase := .start
  opened : List Text := []
  mode : Mode := .text []
  deriving DecidableEq

namespace State

/-- Something stands before, so that no XML declaration can follow. -/
def begun (st : State) : Phase := if st.phase = .start then .prolog else st.phase

/-- Outside of the root there is only space. -/
def endText (st : State) (run : Text) : Option (List Token) :=
  if st.opened = [] then
    if run.all isSpace = true then some [] else none
  else charData true none [] run

/-- A complete markup in its place: its tokens, or none where it may not stand. -/
def apply (st : State) (m : Markup) : Option (List Token × State) :=
  let next : State := { st with phase := st.begun, mode := .text [] }
  match m with
  | .xmlDecl => if st.phase = .start then some ([], next) else none
  | .comment => some ([.comment], next)
  | .instruction => some ([.processingInstruction], next)
  | .doctype =>
      if st.begun = .prolog then some ([.dtd], { next with phase := .typed }) else none
  | .cdata text => if st.opened = [] then none else some ([.characters text], next)
  | .start name attrs empty =>
      if st.phase = .root ∧ st.opened = [] then none
      else if empty = true then
        some ([.startElement name attrs, .endElement name], { next with phase := .root })
      else
        some ([.startElement name attrs], { next with phase := .root, opened := name :: st.opened })
  | .stop name =>
      match st.opened with
      | n :: rest => if n = name then some ([.endElement name], { next with opened := rest }) else none
      | [] => none

/-- One character: the tokens that it completes, or none where the document is malformed. -/
def step (st : State) (c : Char) : Option (List Token × State) :=
  match st.mode with
  | .text run =>
      if c = '<' then
        (st.endText run).map fun toks =>
          (toks, { st with phase := if run = [] then st.phase else st.begun, mode := .markup [] })
      else some ([], { st with mode := .text (run ++ [c]) })
  | .markup body =>
      if c = '>' ∧ closes body = true then (markup body).bind st.apply
      else some ([], { st with mode := .markup (body ++ [c]) })

/-- What is left at the end of the text: the root must be closed and no markup open. -/
def finish (st : State) : List Token :=
  match st.mode with
  | .text run =>
      if st.phase = .root ∧ st.opened = [] ∧ run.all isSpace = true then [.endDocument]
      else [.invalid]
  | .markup _ => [.invalid]

end State

/-- The tokens of a text; reading stops at the first error. -/
def scan (st : State) : Text → List Token
  | [] => st.finish
  | c :: cs =>
      match st.step c with
      | some (toks, st') => toks ++ scan st' cs
      | none => [.invalid]

/-- The tokens of a document, whose line ends are normalised first. -/
def tokens (document : Text) : List Token :=
  .startDocument :: scan {} (normalizeEol false document)

/-- The reader over a piece of text, character by character, with the tokens on the way; none if it
    meets an error. -/
def State.run (st : State) : Text → Option (List Token × State)
  | [] => some ([], st)
  | c :: cs => do
      let (toks, st') ← st.step c
      let (toks', st'') ← st'.run cs
      some (toks ++ toks', st'')

/-! ## Line ends -/

/-- The piece `s` is normalized to `s'`, whatever follows. -/
def Normalizes (s s' : Text) : Prop :=
  ∀ rest, normalizeEol false (s ++ rest) = s' ++ normalizeEol false rest

namespace Normalizes

theorem append {s s' t t' : Text} (h : Normalizes s s') (h' : Normalizes t t') :
    Normalizes (s ++ t) (s' ++ t') := by
  intro rest
  rw [List.append_assoc, h, h', List.append_assoc]

theorem flatMap {α : Type} {l : List α} {f g : α → Text} (h : ∀ x ∈ l, Normalizes (f x) (g x)) :
    Normalizes (l.flatMap f) (l.flatMap g) := by
  induction l with
  | nil => exact fun rest => rfl
  | cons x xs ih =>
      rw [List.flatMap_cons, List.flatMap_cons]
      exact (h x List.mem_cons_self).append (ih fun y hy => h y (List.mem_cons_of_mem x hy))

end Normalizes

/-- Text up to a character that is no line feed is normalized by itself. -/
theorem normalizeEol_append (cr : Bool) (s : Text) {c : Char} (hlf : c ≠ '\n') (hcr : c ≠ '\r')
    (rest : Text) :
    normalizeEol cr (s ++ c :: rest) = normalizeEol cr s ++ c :: normalizeEol false rest := by
  induction s generalizing cr with
  | nil =>
      rw [List.nil_append, normalizeEol, normalizeEol, if_neg hcr, if_neg fun h => hlf h.1]
      rfl
  | cons d ds ih =>
      rw [List.cons_append, normalizeEol, normalizeEol, ih, ih]
      split_ifs <;> rfl

/-- Text without carriage returns stays. -/
theorem normalizes_of_notMem {s : Text} (hcr : '\r' ∉ s) : Normalizes s s := by
  intro rest
  induction s with
  | nil => rfl
  | cons c cs ih =>
      have hc : c ≠ '\r' := fun h => hcr (h ▸ List.mem_cons_self)
      have hcs : '\r' ∉ cs := fun h => hcr (List.mem_cons_of_mem c h)
      rw [List.cons_append, normalizeEol, if_neg hc, if_neg (fun h => Bool.noConfusion h.2), ih hcs]
      rfl

/-- Text within tags is normalized by itself. -/
theorem normalizes_between {before s after : Text} (hbefore : '\r' ∉ before)
    (hafter : '\r' ∉ '<' :: after) :
    Normalizes (before ++ s ++ '<' :: after) (before ++ normalizeEol false s ++ '<' :: after) := by
  intro rest
  have htail := normalizes_of_notMem (fun hmem => hafter (List.mem_cons_of_mem _ hmem)) rest
  rw [List.append_assoc, List.append_assoc, normalizes_of_notMem hbefore, List.cons_append,
    normalizeEol_append false s (by decide) (by decide), htail]
  simp only [List.append_assoc, List.cons_append]

theorem normalizeEol_eq_nil_iff {s : Text} : normalizeEol false s = [] ↔ s = [] := by
  cases s with
  | nil => exact iff_of_true rfl rfl
  | cons c cs =>
      refine iff_of_false ?_ (List.cons_ne_nil c cs)
      have hfalse : ¬ (c = '\n' ∧ false = true) := fun h => Bool.false_ne_true h.2
      rw [normalizeEol, if_neg hfalse]
      by_cases hcr : c = '\r'
      · rw [if_pos hcr]
        exact List.cons_ne_nil _ _
      · rw [if_neg hcr]
        exact List.cons_ne_nil _ _

theorem normalizeEol_of_notMem {s : Text} (hcr : '\r' ∉ s) : normalizeEol false s = s := by
  have happend := normalizes_of_notMem hcr []
  rwa [List.append_nil, normalizeEol, List.append_nil] at happend

theorem normalizeEol_length (cr : Bool) (s : Text) : (normalizeEol cr s).length ≤ s.length := by
  induction s generalizing cr with
  | nil => exact le_rfl
  | cons c cs ih =>
      rw [normalizeEol, List.length_cons]
      have htrue := ih true
      have hfalse := ih false
      split_ifs
      · rw [List.length_cons]
        omega
      · omega
      · rw [List.length_cons]
        omega

/-! ## Plain text -/

/-- Text that stands for itself in content. -/
def isPlain (s : Text) : Bool :=
  s.all (fun c => isXmlChar c && c ≠ '<' && c ≠ '&' && c ≠ '\r') && !decide ("]]>".toList <:+: s)

theorem isPlain_iff {s : Text} :
    isPlain s = true ↔
      (∀ c ∈ s, isXmlChar c = true ∧ c ≠ '<' ∧ c ≠ '&' ∧ c ≠ '\r') ∧ ¬ "]]>".toList <:+: s := by
  unfold isPlain
  rw [Bool.and_eq_true, List.all_eq_true, Bool.not_eq_true', decide_eq_false_iff_not]
  refine and_congr_left fun _ => forall₂_congr fun c _ => ?_
  rw [Bool.and_eq_true, Bool.and_eq_true, Bool.and_eq_true, decide_eq_true_iff, decide_eq_true_iff,
    decide_eq_true_iff, and_assoc, and_assoc]

theorem isPlain_nil : isPlain [] = true := by decide

theorem isPlain_tail {c : Char} {cs : Text} (h : isPlain (c :: cs) = true) :
    isPlain cs = true := by
  rw [isPlain_iff] at h ⊢
  exact ⟨fun d hd => h.1 d (List.mem_cons_of_mem c hd),
    fun hpart => h.2 (hpart.trans (List.suffix_cons c cs).isInfix)⟩

theorem normalizeEol_of_plain {s : Text} (h : isPlain s = true) : normalizeEol false s = s :=
  normalizeEol_of_notMem fun hmem => ((isPlain_iff.mp h).1 '\r' hmem).2.2.2 rfl

/-- Plain text is its own character data. -/
theorem charData_of_plain {s : Text} (buf : Text) (h : isPlain s = true) :
    charData true none buf s = some (flush (buf ++ s)) := by
  induction s generalizing buf with
  | nil =>
      rw [charData, if_pos rfl, List.append_nil]
  | cons c cs ih =>
      obtain ⟨hchars, hclose⟩ := isPlain_iff.mp h
      obtain ⟨hxml, _, hamp, _⟩ := hchars c List.mem_cons_self
      have hopen : ¬ (true = true ∧ "]]>".toList <+: c :: cs) := fun h => hclose h.2.isInfix
      have hrest := ih (buf ++ [c]) (isPlain_tail h)
      rw [List.append_assoc] at hrest
      rw [charData, if_neg hamp, if_pos ⟨hxml, hopen⟩]
      exact hrest

/-! ## Attributes -/

/-- An attribute as it is written. -/
def attrText (name value : Text) : Text := ' ' :: (name ++ ('=' :: '"' :: value ++ ['"']))

theorem foldlM_attrStep_name {n : Text} (m : Text) (attrs : List (Text × Text))
    (hn : ∀ c ∈ n, isNameChar c = true) :
    n.foldlM attrStep (.name m, attrs) = some (.name (m ++ n), attrs) := by
  induction n generalizing m with
  | nil =>
      rw [List.append_nil]
      rfl
  | cons c cs ih =>
      have hstep : attrStep (.name m, attrs) c = some (.name (m ++ [c]), attrs) :=
        if_pos (hn c List.mem_cons_self)
      have hrest := ih (m ++ [c]) fun d hd => hn d (List.mem_cons_of_mem c hd)
      rw [List.append_assoc] at hrest
      rw [List.foldlM_cons, hstep]
      exact hrest

theorem foldlM_attrStep_value {v : Text} (n : Text) {q : Char} (raw : Text)
    (attrs : List (Text × Text)) (hv : q ∉ v) :
    v.foldlM attrStep (.value n q raw, attrs) = some (.value n q (raw ++ v), attrs) := by
  induction v generalizing raw with
  | nil =>
      rw [List.append_nil]
      rfl
  | cons c cs ih =>
      have hc : c ≠ q := fun h => hv (h ▸ List.mem_cons_self)
      have hcs : q ∉ cs := fun h => hv (List.mem_cons_of_mem c h)
      have hstep : attrStep (.value n q raw, attrs) c = some (.value n q (raw ++ [c]), attrs) :=
        if_neg hc
      have hrest := ih (raw ++ [c]) hcs
      rw [List.append_assoc] at hrest
      rw [List.foldlM_cons, hstep]
      exact hrest

theorem isSpace_of_nameStart {c : Char} (h : isNameStart c = true) : isSpace c = false := by
  by_contra hspace
  unfold isSpace at hspace
  simp only [Bool.not_eq_false, Bool.or_eq_true, decide_eq_true_eq] at hspace
  obtain ((rfl | rfl) | rfl) | rfl := hspace <;> exact absurd h (by decide)

/-- An attribute is read with its value. -/
theorem foldlM_attrStep_attrText {n v value : Text} (space : Bool) {attrs : List (Text × Text)}
    (hn : isName n = true) (hfresh : (attrs.any fun attr => attr.1 = n) = false) (hv : '"' ∉ v)
    (hvalue : attributeValue v = some value) :
    (attrText n v).foldlM attrStep (.gap space, attrs) =
      some (.gap false, attrs ++ [(n, value)]) := by
  cases n with
  | nil => cases hn
  | cons c cs =>
      obtain ⟨hc, hcs⟩ := (Bool.and_eq_true _ _).mp hn
      have hname := foldlM_attrStep_name [c] attrs (List.all_eq_true.mp hcs)
      have hval := foldlM_attrStep_value (c :: cs) [] attrs hv
      have hspace : attrStep (.gap space, attrs) ' ' = some (.gap true, attrs) := rfl
      have hfirst : attrStep (.gap true, attrs) c = some (.name [c], attrs) := by
        unfold attrStep
        dsimp only
        rw [isSpace_of_nameStart hc, if_neg Bool.false_ne_true, if_pos ⟨rfl, hc⟩]
      have heq : attrStep (.name (c :: cs), attrs) '=' = some (.eq (c :: cs), attrs) := rfl
      have hquote : attrStep (.eq (c :: cs), attrs) '"' =
          some (.value (c :: cs) '"' [], attrs) := rfl
      have hend : attrStep (.value (c :: cs) '"' v, attrs) '"' =
          some (.gap false, attrs ++ [(c :: cs, value)]) := by
        unfold attrStep
        dsimp only
        rw [if_pos rfl, hfresh, if_neg Bool.false_ne_true, hvalue]
        rfl
      unfold attrText
      simp only [List.cons_append, List.foldlM_cons, List.foldlM_append, Option.bind_eq_bind,
        Option.bind_some, hspace, hfirst, hname, List.nil_append, heq, hquote, hval, hend]
      rfl

theorem foldl_quoteStep_outside {s : Text} (h : ∀ c ∈ s, c ∉ quotes) :
    s.foldl quoteStep none = none := by
  induction s with
  | nil => rfl
  | cons c cs ih =>
      have hstep : quoteStep none c = none := if_neg (h c List.mem_cons_self)
      rw [List.foldl_cons, hstep]
      exact ih fun d hd => h d (List.mem_cons_of_mem c hd)

theorem foldl_quoteStep_inside {s : Text} {q : Char} (h : q ∉ s) :
    s.foldl quoteStep (some q) = some q := by
  induction s with
  | nil => rfl
  | cons c cs ih =>
      have hc : c ≠ q := fun heq => h (heq ▸ List.mem_cons_self)
      have hstep : quoteStep (some q) c = some q := if_neg hc
      rw [List.foldl_cons, hstep]
      exact ih fun hmem => h (List.mem_cons_of_mem c hmem)

/-- The quotes of an attribute are closed behind it. -/
theorem foldl_quoteStep_attrText {n v : Text} (hn : ∀ c ∈ n, c ∉ quotes) (hv : '"' ∉ v) :
    (attrText n v).foldl quoteStep none = none := by
  have hspace : quoteStep none ' ' = none := rfl
  have heq : quoteStep none '=' = none := rfl
  have hopen : quoteStep none '"' = some '"' := rfl
  have hclose : quoteStep (some '"') '"' = none := rfl
  unfold attrText
  rw [List.foldl_cons, hspace, List.foldl_append, foldl_quoteStep_outside hn, List.cons_append,
    List.cons_append, List.foldl_cons, heq, List.foldl_cons, hopen, List.foldl_append,
    foldl_quoteStep_inside hv, List.foldl_cons, hclose, List.foldl_nil]

/-- What begins with none of the marks is a tag that opens an element. -/
theorem markup_of_name {c : Char} (hbang : c ≠ '!') (hask : c ≠ '?') (hslash : c ≠ '/') (cs : Text) :
    markup (c :: cs) = tag (c :: cs) ∧ closes (c :: cs) = !inQuotes (c :: cs) := by
  have hbang (pat : Text) : ¬ '!' :: pat <+: c :: cs := by
    rw [List.cons_prefix_cons]
    exact fun h => hbang h.1.symm
  have hcomment : ¬ "!--".toList <+: c :: cs := hbang ['-', '-']
  have hcdata : ¬ "![CDATA[".toList <+: c :: cs := hbang "[CDATA[".toList
  have hdoctype : ¬ "!DOCTYPE".toList <+: c :: cs := hbang "DOCTYPE".toList
  constructor
  · unfold markup
    rw [if_neg hcomment, if_neg hcdata, if_neg hdoctype]
    split
    · rename_i heq
      exact absurd (List.cons.inj heq).1 hask
    · rename_i heq
      exact absurd (List.cons.inj heq).1 hslash
    · rfl
  · unfold closes
    rw [if_neg hcomment, if_neg hcdata]
    split
    · rename_i heq
      exact absurd (List.cons.inj heq).1 hask
    · rfl

/-- An empty element with its attributes. -/
theorem tag_empty {name rest : Text} {attrs : List (Text × Text)} (hname : isName name = true)
    (hrest : (name ++ rest).takeWhile isNameChar = name)
    (hattrs : attributes rest = some attrs) :
    tag (name ++ rest ++ ['/']) = some (.start name attrs true) := by
  have hdrop : (name ++ rest).dropWhile isNameChar = rest := by
    have hsplit := List.takeWhile_append_dropWhile (p := isNameChar) (l := name ++ rest)
    rw [hrest] at hsplit
    exact List.append_cancel_left hsplit
  unfold tag
  dsimp only
  rw [List.getLast?_append_of_ne_nil _ (List.cons_ne_nil _ _)]
  have hlast : decide (['/'].getLast? = some '/') = true := rfl
  rw [hlast, if_pos rfl, List.dropLast_concat, hrest, if_pos hname, hdrop, hattrs]
  rfl

/-! ## Reading a piece -/

/-- From `st` the reader makes `toks` of `s` and is then in `st'`. -/
def Reads (st : State) (s : Text) (toks : List Token) (st' : State) : Prop :=
  ∀ rest, scan st (s ++ rest) = toks ++ scan st' rest

namespace Reads

theorem nil (st : State) : Reads st [] [] st := fun _ => rfl

theorem trans {st st' st'' : State} {s s' : Text} {toks toks' : List Token}
    (h : Reads st s toks st') (h' : Reads st' s' toks' st'') :
    Reads st (s ++ s') (toks ++ toks') st'' := by
  intro rest
  rw [List.append_assoc, h, h', List.append_assoc]

theorem char {st st' : State} {c : Char} {toks : List Token} (h : st.step c = some (toks, st')) :
    Reads st [c] toks st' := by
  intro rest
  rw [List.singleton_append, scan, h]

theorem of_run {st st' : State} {s : Text} {toks : List Token} (h : st.run s = some (toks, st')) :
    Reads st s toks st' := by
  induction s generalizing st toks with
  | nil =>
      cases h
      exact nil _
  | cons c cs ih =>
      obtain ⟨⟨toks₁, st₁⟩, hstep, hrest⟩ := Option.bind_eq_some_iff.mp h
      obtain ⟨⟨toks₂, st₂⟩, hrun, heq⟩ := Option.bind_eq_some_iff.mp hrest
      cases heq
      exact (char hstep).trans (ih hrun)

/-- Character data is collected. -/
theorem text (st : State) (run : Text) {s : Text} (hs : '<' ∉ s) :
    Reads { st with mode := .text run } s [] { st with mode := .text (run ++ s) } := by
  induction s generalizing run with
  | nil =>
      rw [List.append_nil]
      exact nil _
  | cons c cs ih =>
      have hc : c ≠ '<' := fun h => hs (h ▸ List.mem_cons_self)
      have hcs : '<' ∉ cs := fun h => hs (List.mem_cons_of_mem c h)
      have hstep : State.step { st with mode := .text run } c =
          some ([], { st with mode := .text (run ++ [c]) }) := if_neg hc
      have hrest := ih (run ++ [c]) hcs
      rw [List.append_assoc] at hrest
      exact (char hstep).trans hrest

/-- Markup is collected up to a '>'. -/
theorem markup (st : State) (body : Text) {s : Text} (hs : '>' ∉ s) :
    Reads { st with mode := .markup body } s [] { st with mode := .markup (body ++ s) } := by
  induction s generalizing body with
  | nil =>
      rw [List.append_nil]
      exact nil _
  | cons c cs ih =>
      have hc : c ≠ '>' := fun h => hs (h ▸ List.mem_cons_self)
      have hcs : '>' ∉ cs := fun h => hs (List.mem_cons_of_mem c h)
      have hstep : State.step { st with mode := .markup body } c =
          some ([], { st with mode := .markup (body ++ [c]) }) := if_neg fun h => hc h.1
      have hrest := ih (body ++ [c]) hcs
      rw [List.append_assoc] at hrest
      exact (char hstep).trans hrest

/-- Markup without a '>' in it, behind plain text inside of the root. -/
theorem tag (st : State) {st' : State} {run body : Text} {m : Markup} {toks : List Token}
    (hopened : st.opened ≠ []) (hphase : st.phase ≠ .start) (hrun : isPlain run = true)
    (hbody : '>' ∉ body) (hcloses : closes body = true) (hmarkup : XmlReader.markup body = some m)
    (happly : State.apply { st with mode := .markup body } m = some (toks, st')) :
    Reads { st with mode := .text run } ('<' :: body ++ ['>']) (flush run ++ toks) st' := by
  have hend : State.endText { st with mode := .text run } run = some (flush run) := by
    unfold State.endText
    rw [if_neg hopened, charData_of_plain [] hrun, List.nil_append]
  have hbegun : State.begun { st with mode := .text run } = st.phase := if_neg hphase
  have hopen : State.step { st with mode := .text run } '<' =
      some (flush run, { st with mode := .markup [] }) := by
    unfold State.step
    dsimp only
    rw [if_pos rfl, hend, hbegun, ite_self]
    rfl
  have hclose : State.step { st with mode := .markup body } '>' = some (toks, st') := by
    unfold State.step
    dsimp only
    rw [if_pos ⟨rfl, hcloses⟩, hmarkup]
    exact happly
  exact (char hopen).trans ((markup st [] hbody).trans (char hclose))

end Reads

/-! ## The origin of characters -/

theorem mem_flush {buf t : Text} (h : .characters t ∈ flush buf) : t = buf := by
  unfold flush at h
  split_ifs at h
  · cases h
  · exact Token.characters.inj (List.mem_singleton.mp h)

/-- What character data makes is no longer than it, and shorter if there is a reference. -/
theorem charData_length {content : Bool} {ref : Option Text} {buf s t : Text} {toks : List Token}
    (h : charData content ref buf s = some toks) (ht : .characters t ∈ toks) :
    t.length ≤ buf.length + s.length ∧
      (ref = none → '&' ∈ s → t.length < buf.length + s.length) := by
  induction s generalizing ref buf toks with
  | nil =>
      rw [charData] at h
      split_ifs at h
      cases h
      rw [mem_flush ht]
      exact ⟨Nat.le_add_right _ _, fun _ hamp => by cases hamp⟩
  | cons c cs ih =>
      rw [List.length_cons]
      cases ref with
      | some body =>
          rw [charData] at h
          split_ifs at h
          · cases href : reference body with
            | none =>
                rw [href] at h
                cases h
            | some r =>
                rw [href] at h
                cases r with
                | char r =>
                    have hrest := (ih h ht).1
                    rw [List.length_append, List.length_singleton] at hrest
                    exact ⟨by omega, nofun⟩
                | entity name =>
                    obtain ⟨rest, hrest, rfl⟩ := Option.map_eq_some_iff.mp h
                    refine ⟨?_, nofun⟩
                    cases List.mem_append.mp ht with
                    | inl hbuf =>
                        rw [mem_flush hbuf]
                        omega
                    | inr htail =>
                        have hmem := List.mem_of_ne_of_mem Token.noConfusion htail
                        have hlen := (ih hrest hmem).1
                        rw [List.length_nil] at hlen
                        omega
          · have hrest := (ih h ht).1
            exact ⟨by omega, nofun⟩
      | none =>
          rw [charData] at h
          split_ifs at h with hamp
          · have hrest := (ih h ht).1
            exact ⟨by omega, fun _ _ => by omega⟩
          · obtain ⟨hle, hlt⟩ := ih h ht
            rw [List.length_append, List.length_singleton] at hle hlt
            refine ⟨by omega, fun _ hmem => ?_⟩
            have hstrict := hlt rfl (List.mem_of_ne_of_mem (Ne.symm hamp) hmem)
            omega

/-- Without references character data stands for itself. -/
theorem charData_of_notMem {buf s : Text} {toks : List Token}
    (h : charData true none buf s = some toks) (hamp : '&' ∉ s) :
    toks = flush (buf ++ s) ∧ (∀ c ∈ s, isXmlChar c = true) ∧ ¬ "]]>".toList <:+: s := by
  induction s generalizing buf with
  | nil =>
      rw [charData, if_pos rfl] at h
      rw [List.append_nil]
      exact ⟨(Option.some.inj h).symm, nofun, by decide⟩
  | cons c cs ih =>
      have hc : c ≠ '&' := fun h => hamp (h ▸ List.mem_cons_self)
      rw [charData, if_neg hc] at h
      split_ifs at h with hchar
      obtain ⟨htoks, hxml, hpart⟩ := ih h fun hmem => hamp (List.mem_cons_of_mem c hmem)
      refine ⟨?_, ?_, ?_⟩
      · rw [htoks, List.append_assoc]
        rfl
      · intro d hd
        cases List.mem_cons.mp hd with
        | inl heq => exact heq ▸ hchar.1
        | inr hmem => exact hxml d hmem
      · intro hclose
        cases List.infix_cons_iff.mp hclose with
        | inl hbang => exact hchar.2 ⟨rfl, hbang⟩
        | inr htail => exact hpart htail

/-- The text was made from a longer piece of the document with a reference in it, behind a '>'. -/
def FromText (s t : Text) : Prop :=
  ∃ pre run post, s = pre ++ run ++ '<' :: post ∧ (∀ p c, pre = p ++ [c] → c = '>') ∧
    '<' ∉ run ∧ '&' ∈ run ∧ t.length < run.length

/-- The text is a character data section of the document. -/
def FromCdata (s t : Text) : Prop :=
  ∃ pre post, s = pre ++ "<![CDATA[".toList ++ t ++ "]]>".toList ++ post

/-- Where the text of a token stands in the document: as plain text, with references, or as
    character data. -/
def Origin (s t : Text) : Prop := isPlain t = true ∨ FromText s t ∨ FromCdata s t

theorem Origin.append {s t : Text} (h : Origin s t) (rest : Text) : Origin (s ++ rest) t := by
  cases h with
  | inl hplain => exact Or.inl hplain
  | inr h =>
      cases h with
      | inl htext =>
          obtain ⟨pre, run, post, rfl, hpre, hrun⟩ := htext
          refine Or.inr (Or.inl ⟨pre, run, post ++ rest, ?_, hpre, hrun⟩)
          rw [List.append_assoc, List.cons_append]
      | inr hcdata =>
          obtain ⟨pre, post, rfl⟩ := hcdata
          refine Or.inr (Or.inr ⟨pre, post ++ rest, ?_⟩)
          rw [List.append_assoc _ post]

/-- What the reader has collected ends what it has read. -/
def Collected (st : State) (pre : Text) : Prop :=
  match st.mode with
  | .text run => ∃ p, pre = p ++ run ∧ (∀ q c, p = q ++ [c] → c = '>') ∧ '<' ∉ run
  | .markup body => ∃ p, pre = p ++ '<' :: body

theorem endText_origin {st : State} {p run t : Text} {toks : List Token}
    (h : st.endText run = some toks) (ht : .characters t ∈ toks)
    (hp : ∀ q c, p = q ++ [c] → c = '>') (hlt : '<' ∉ run) (hcr : '\r' ∉ run) :
    Origin (p ++ run ++ ['<']) t := by
  unfold State.endText at h
  split_ifs at h
  · cases h
    cases ht
  · by_cases hamp : '&' ∈ run
    · have hlen := (charData_length h ht).2 rfl hamp
      rw [List.length_nil, Nat.zero_add] at hlen
      exact Or.inr (Or.inl ⟨p, run, [], rfl, hp, hlt, hamp, hlen⟩)
    · obtain ⟨rfl, hxml, hpart⟩ := charData_of_notMem h hamp
      refine Or.inl ?_
      rw [mem_flush ht, List.nil_append]
      refine isPlain_iff.mpr ⟨fun c hc => ⟨hxml c hc, ?_, ?_, ?_⟩, hpart⟩
      · exact fun h => hlt (h ▸ hc)
      · exact fun h => hamp (h ▸ hc)
      · exact fun h => hcr (h ▸ hc)

/-- Markup leaves nothing collected, and its characters are those of a section. -/
theorem apply_spec {st st' : State} {m : Markup} {toks : List Token}
    (h : st.apply m = some (toks, st')) :
    st'.mode = .text [] ∧ ∀ t, .characters t ∈ toks → m = .cdata t := by
  cases m with
  | cdata text =>
      simp only [State.apply] at h
      split_ifs at h
      cases h
      exact ⟨rfl, fun t ht => congrArg Markup.cdata
        (Token.characters.inj (List.mem_singleton.mp ht)).symm⟩
  | start name attrs empty =>
      simp only [State.apply] at h
      split_ifs at h <;> cases h
      · exact ⟨rfl, fun t ht => by simp at ht⟩
      · exact ⟨rfl, fun t ht => by simp at ht⟩
  | stop name =>
      simp only [State.apply] at h
      split at h
      · split_ifs at h
        cases h
        exact ⟨rfl, fun t ht => by simp at ht⟩
      · cases h
  | xmlDecl =>
      simp only [State.apply] at h
      split_ifs at h
      cases h
      exact ⟨rfl, nofun⟩
  | comment =>
      cases h
      exact ⟨rfl, fun t ht => by simp at ht⟩
  | instruction =>
      cases h
      exact ⟨rfl, fun t ht => by simp at ht⟩
  | doctype =>
      simp only [State.apply] at h
      split_ifs at h
      cases h
      exact ⟨rfl, fun t ht => by simp at ht⟩

theorem instruction_ne_cdata (inner t : Text) : instruction inner ≠ some (.cdata t) := by
  unfold instruction
  dsimp only
  split_ifs <;> exact nofun

theorem tag_ne_cdata (body t : Text) : tag body ≠ some (.cdata t) := by
  unfold tag
  dsimp only
  split_ifs
  · rw [Ne, Option.map_eq_some_iff]
    exact nofun
  · exact nofun
  · rw [Ne, Option.map_eq_some_iff]
    exact nofun
  · exact nofun

/-- Only a section is read as one. -/
theorem cdata_of_markup {body t : Text} (h : markup body = some (.cdata t)) :
    ¬ "!--".toList <+: body ∧ "![CDATA[".toList <+: body ∧
      (body.drop 8).dropLast.dropLast = t := by
  unfold markup at h
  by_cases hcomment : "!--".toList <+: body
  · rw [if_pos hcomment] at h
    dsimp only at h
    split_ifs at h
    cases h
  · rw [if_neg hcomment] at h
    by_cases hopen : "![CDATA[".toList <+: body
    · rw [if_pos hopen] at h
      dsimp only at h
      split_ifs at h
      exact ⟨hcomment, hopen, Markup.cdata.inj (Option.some.inj h)⟩
    · rw [if_neg hopen] at h
      split_ifs at h
      · cases h
      · split at h
        · exact absurd h (instruction_ne_cdata _ t)
        · dsimp only at h
          split_ifs at h
          cases h
        · exact absurd h (tag_ne_cdata _ t)

theorem markup_cdata {body t : Text} (h : markup body = some (.cdata t))
    (hcloses : closes body = true) :
    body = "![CDATA[".toList ++ t ++ "]]".toList := by
  obtain ⟨hcomment, hopen, ht⟩ := cdata_of_markup h
  unfold closes at hcloses
  rw [if_neg hcomment, if_pos hopen] at hcloses
  obtain ⟨inner, rfl⟩ := hopen
  obtain ⟨text, htext⟩ := of_decide_eq_true hcloses
  have hdrop : ("![CDATA[".toList ++ inner).drop 8 = inner := rfl
  rw [hdrop] at ht htext
  have hinner : inner.dropLast.dropLast = text := by
    rw [← htext]
    simp
  rw [← ht, hinner, List.append_assoc, htext]

/-- What one character keeps collected, and the origin of the characters that it completes. -/
theorem step_collected {st st' : State} {pre : Text} {c : Char} {toks : List Token}
    (h : st.step c = some (toks, st')) (hst : Collected st pre) (hcr : '\r' ∉ pre) :
    Collected st' (pre ++ [c]) ∧ ∀ t, .characters t ∈ toks → Origin (pre ++ [c]) t := by
  unfold State.step at h
  unfold Collected at hst
  cases hmode : st.mode with
  | text run =>
      rw [hmode] at h hst
      obtain ⟨p, rfl, hp, hlt⟩ := hst
      dsimp only at h
      by_cases hc : c = '<'
      · rw [if_pos hc] at h
        obtain ⟨toks', hend, heq⟩ := Option.map_eq_some_iff.mp h
        cases heq
        refine ⟨⟨p ++ run, by rw [hc]⟩, fun t ht => ?_⟩
        rw [hc]
        exact endText_origin hend ht hp hlt fun hmem => hcr (List.mem_append_right p hmem)
      · rw [if_neg hc] at h
        cases h
        refine ⟨⟨p, List.append_assoc p run [c], hp, fun hmem => ?_⟩, nofun⟩
        cases List.mem_append.mp hmem with
        | inl hrun => exact hlt hrun
        | inr hlast => exact hc (List.mem_singleton.mp hlast).symm
  | markup body =>
      rw [hmode] at h hst
      obtain ⟨p, rfl⟩ := hst
      dsimp only at h
      split_ifs at h with hc
      · obtain ⟨m, hm, happly⟩ := Option.bind_eq_some_iff.mp h
        obtain ⟨hnext, hcdata⟩ := apply_spec happly
        constructor
        · unfold Collected
          rw [hnext]
          refine ⟨_, (List.append_nil _).symm, fun q d hq => ?_, nofun⟩
          have hlast := List.append_inj_right' hq rfl
          rw [← List.singleton_inj.mp hlast, hc.1]
        · intro t ht
          have hbody := markup_cdata (hcdata t ht ▸ hm) hc.2
          refine Or.inr (Or.inr ⟨p, [], ?_⟩)
          rw [hbody, hc.1]
          simp
      · cases h
        refine ⟨⟨p, ?_⟩, nofun⟩
        rw [List.append_assoc, List.cons_append]

theorem scan_origin {st : State} {pre s t : Text} (hst : Collected st pre) (hcr : '\r' ∉ pre ++ s)
    (ht : .characters t ∈ scan st s) : Origin (pre ++ s) t := by
  induction s generalizing st pre with
  | nil =>
      have hfinish : Token.characters t ∉ st.finish := by
        unfold State.finish
        split
        · split_ifs <;> simp
        · simp
      exact absurd ht hfinish
  | cons c cs ih =>
      have hsplit : pre ++ c :: cs = pre ++ [c] ++ cs := by rw [List.append_assoc]; rfl
      rw [scan] at ht
      cases hstep : st.step c with
      | none =>
          rw [hstep] at ht
          cases List.mem_singleton.mp ht
      | some next =>
          obtain ⟨toks, st'⟩ := next
          rw [hstep] at ht
          obtain ⟨hcollected, horigin⟩ := step_collected hstep hst
            fun hmem => hcr (List.mem_append_left _ hmem)
          rw [hsplit] at hcr ⊢
          cases List.mem_append.mp ht with
          | inl hnow => exact (horigin t hnow).append cs
          | inr hlater => exact ih hcollected hcr hlater

theorem carriageReturn_notMem_normalizeEol (cr : Bool) (s : Text) : '\r' ∉ normalizeEol cr s := by
  induction s generalizing cr with
  | nil => exact nofun
  | cons c cs ih =>
      rw [normalizeEol]
      split_ifs with hcr
      · exact List.not_mem_cons_of_ne_of_not_mem (by decide) (ih true)
      · exact ih false
      · exact List.not_mem_cons_of_ne_of_not_mem (Ne.symm hcr) (ih false)

/-- Where the text of a characters token comes from: it is plain, or a longer piece with a reference
    in it stands for it, or a section has it. -/
theorem characters_origin {document t : Text} (ht : .characters t ∈ tokens document) :
    Origin (normalizeEol false document) t := by
  have hscan := List.mem_of_ne_of_mem Token.noConfusion ht
  have hstart : Collected {} [] := ⟨[], rfl, fun q c h => by simp at h, nofun⟩
  exact scan_origin hstart (carriageReturn_notMem_normalizeEol false document) hscan

end XmlReader
