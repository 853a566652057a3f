/-
  The file of the spawn points, read back.

  A line is five numbers and the name, which is all that is left of the line. `loadSpawnPoints`
  reads what `saveSpawnPoints` wrote: numbers stop at the blank behind them, so the line gives the
  same point back unless its name is not one line of its own (`file_roundTrip_iff`). A name with a
  line break is two lines, and the second is read as a point too.

  Proved:
  * `getNumber_printInt`: a number is read back where something follows that is no digit.
  * `readPoint_line`, `readPoints_lines`: a line gives the point back and leaves what is behind
    it.
  * `saved_lookup_load`: what is found under a key after loading.
  * `file_roundTrip_iff`: for all promoted points, orders and clocks.
-/
import ShoweqDaemon.Lib.TextStream
import ShoweqDaemon.Message.EQStr
import ShoweqDaemon.Spawn.SpawnMonitor

namespace ShoweqDaemon.SpawnPoints

open Spawns TextStream
open Numeral (printInt)

/-! ## Characters -/

/-- The zeros of the decimal digits, with the nine others behind each. -/
def decimalZeros : List ℕ :=
  [0x30, 0x660, 0x6f0, 0x7c0, 0x966, 0x9e6, 0xa66, 0xae6, 0xb66, 0xbe6, 0xc66, 0xce6, 0xd66,
    0xde6, 0xe50, 0xed0, 0xf20, 0x1040, 0x1090, 0x17e0, 0x1810, 0x1946, 0x19d0, 0x1a80, 0x1a90,
    0x1b50, 0x1bb0, 0x1c40, 0x1c50, 0xa620, 0xa8d0, 0xa900, 0xa9d0, 0xa9f0, 0xaa50, 0xabf0,
    0xff10]

/-- `QChar::digitValue` -/
def digitValue (c : Char) : Option ℕ :=
  (decimalZeros.find? fun first => first ≤ c.toNat && c.toNat < first + 10).map (c.toNat - ·)

theorem digitValue_digitChar : ∀ d < 10, digitValue (Nat.digitChar d) = some d := by
  decide

/-- The spaces of `QChar`. -/
def spaces : List ℕ :=
  [9, 10, 11, 12, 13, 32, 0x85, 0xa0, 0x1680, 0x2000, 0x2001, 0x2002, 0x2003, 0x2004, 0x2005,
    0x2006, 0x2007, 0x2008, 0x2009, 0x200a, 0x2028, 0x2029, 0x202f, 0x205f, 0x3000]

theorem mem_spaces (c : Char) (h : Messages.isSpace c = true) : c.toNat ∈ spaces := by
  unfold Messages.isSpace at h
  simp only [Bool.or_eq_true, Bool.and_eq_true, decide_eq_true_eq, List.mem_cons,
    List.not_mem_nil, or_false] at h
  simp only [spaces, List.mem_cons, List.not_mem_nil, or_false]
  rcases h with ((rfl | h) | h) | h
  · decide
  · omega
  · omega
  · omega

theorem digitValue_space (c : Char) (h : Messages.isSpace c = true) : digitValue c = none := by
  have hnone : ∀ n ∈ spaces,
      (decimalZeros.find? fun first => first ≤ n && n < first + 10) = none := by
    decide
  unfold digitValue
  rw [hnone _ (mem_spaces c h)]
  rfl

/-- `QChar`, as `QTextStream` asks it: what is space, and what a digit is worth. -/
def qchar : CharClass where
  isSpace := Messages.isSpace
  digitValue := digitValue
  digitValue_digitChar := by exact digitValue_digitChar
  digitValue_space := by exact digitValue_space
  isSpace_blank := by decide
  isSpace_lineFeed := by decide
  isSpace_return := by decide
  isSpace_minus := by decide

/-! ## The file -/

/-- What the file says of a point, as the constructor gets it. -/
structure SavedPoint where
  x : Int16
  y : Int16
  z : Int16
  diffTime : Int
  count : UInt32
  name : QString
  deriving DecidableEq, Repr

/-- A point of the file, made at `now`. -/
def SavedPoint.point (now : Int) (p : SavedPoint) : SpawnPoint :=
  { x := p.x, y := p.y, z := p.z, m_spawnTime := now, m_deathTime := 0
    m_diffTime := p.diffTime, m_count := p.count, m_name := p.name, m_last := [], m_lastID := 0 }

/-- The key of the place in a line. -/
def SavedPoint.key (p : SavedPoint) : QString := SpawnPoint.keyOf p.x p.y p.z

/-- The key of a point. -/
def SpawnPoint.key (sp : SpawnPoint) : QString := SpawnPoint.keyOf sp.x sp.y sp.z

/-- One turn of the loop: five numbers and the rest of the line. A number that is missing is
    zero. -/
def readPoint (input : QString) : SavedPoint × QString :=
  let x := getNumber qchar input
  let y := getNumber qchar x.2
  let z := getNumber qchar y.2
  let diffTime := getNumber qchar z.2
  let count := getNumber qchar diffTime.2
  let line := readLine count.2
  ({ x := Int16.ofNat (x.1.getD 0).toNat
     y := Int16.ofNat (y.1.getD 0).toNat
     z := Int16.ofNat (z.1.getD 0).toNat
     diffTime := (diffTime.1.getD 0).toInt64.toInt
     count := (count.1.getD 0).toUInt32
     name := Numeral.trim Messages.isSpace line.1 }, line.2)

/-- Every turn gets on in the file. -/
theorem readPoint_length (c : Char) (cs : QString) :
    (readPoint (c :: cs)).2.length < (c :: cs).length := by
  unfold readPoint
  dsimp only
  generalize hx : getNumber qchar (c :: cs) = x
  generalize hy : getNumber qchar x.2 = y
  generalize hz : getNumber qchar y.2 = z
  generalize hdiff : getNumber qchar z.2 = diffTime
  generalize hcount : getNumber qchar diffTime.2 = count
  have h₁ := getNumber_length qchar (c :: cs)
  have h₂ := getNumber_length qchar x.2
  have h₃ := getNumber_length qchar y.2
  have h₄ := getNumber_length qchar z.2
  have h₅ := getNumber_length qchar diffTime.2
  rw [hx] at h₁
  rw [hy] at h₂
  rw [hz] at h₃
  rw [hdiff] at h₄
  rw [hcount] at h₅
  by_cases hnil : count.2 = []
  · rw [hnil]
    exact Nat.succ_pos _
  · have h₆ := readLine_length hnil
    omega

/-- The points of the file, up to its end. -/
def readPoints : QString → List SavedPoint
  | [] => []
  | c :: cs => (readPoint (c :: cs)).1 :: readPoints (readPoint (c :: cs)).2
termination_by input => input.length
decreasing_by exact readPoint_length c cs

/-- A point is taken from the file unless one with its key is there. -/
def loadPoint (now : Int) (p : SavedPoint) (points : Table QString SpawnPoint) :
    Table QString SpawnPoint :=
  if p.key ∈ points then points else points.insert p.key (p.point now)

/-- The points of the file, with the time that each is made at. -/
def loadPoints : (clock : ℕ → Int) → List SavedPoint → Table QString SpawnPoint →
    Table QString SpawnPoint
  | _, [], points => points
  | clock, p :: ps, points =>
      loadPoints (fun n => clock (n + 1)) ps (loadPoint (clock 0) p points)

/-- Without a file there is nothing to load. -/
def loadSpawnPoints (clock : ℕ → Int) (file : Option QString) (s : SpawnMonitor) :
    SpawnMonitor :=
  match file with
  | none => s
  | some input =>
      { s with m_points := loadPoints clock (readPoints input) s.m_points, m_modified := false }

/-! ## One line -/

/-- What of a point the file keeps. -/
def SpawnPoint.saved (sp : SpawnPoint) : SavedPoint :=
  { x := sp.x, y := sp.y, z := sp.z, diffTime := sp.m_diffTime, count := sp.m_count
    name := sp.m_name }

/-- A time that a `time_t` holds. -/
def IsTime (t : Int) : Prop := -2 ^ 63 ≤ t ∧ t < 2 ^ 63

theorem stops_blank (rest : QString) : Stops (' ' :: rest) := ⟨' ', rest, rfl, .inl rfl⟩

theorem getNumber_blank (rest : QString) : getNumber qchar (' ' :: rest) = getNumber qchar rest :=
  getNumber_space qchar.isSpace_blank rest

theorem toNat_word (i : Int) : ((UInt64.ofInt i).toNat : Int) = i % 2 ^ 64 := by
  unfold UInt64.ofInt
  rw [UInt64.toNat_ofNat']
  omega

/-- A printed number is read back, modulo the width it is read with. -/
theorem getNumber_printInt {i : Int} (hi : -2 ^ 63 < i) {rest : QString} (hrest : Stops rest) :
    getNumber qchar (printInt i ++ rest) = (some (UInt64.ofInt i), rest) := by
  unfold printInt
  by_cases hneg : i < 0
  · rw [if_pos hneg, getNumber_negative (by omega) (by omega) hrest]
    have hsize : UInt64.size = 2 ^ 64 := rfl
    have hword : -(UInt64.ofNat i.natAbs) = UInt64.ofInt i := by
      apply UInt64.toNat_inj.mp
      have htoNat := toNat_word i
      rw [UInt64.toNat_neg, UInt64.toNat_ofNat', hsize]
      omega
    rw [hword]
  · rw [if_neg hneg, getNumber_toDigits i.natAbs hrest]
    have hword : UInt64.ofNat i.natAbs = UInt64.ofInt i := by
      apply UInt64.toNat_inj.mp
      have htoNat := toNat_word i
      rw [UInt64.toNat_ofNat']
      omega
    rw [hword]

theorem int16_of_word (x : Int16) : Int16.ofNat (UInt64.ofInt x.toInt).toNat = x := by
  have hlo := x.le_toInt
  have hhi := x.toInt_lt
  have hsize : Int16.size = 2 ^ 16 := rfl
  apply Int16.toInt_inj.mp
  rw [Int16.toInt_ofNat', toNat_word, hsize, Int.bmod]
  omega

theorem uint32_of_word (n : UInt32) : (UInt64.ofInt n.toInt32.toInt).toUInt32 = n := by
  have hlt := n.toNat_lt
  have hint : n.toInt32.toInt = (n.toNat : Int).bmod (2 ^ 32) := by
    show n.toBitVec.toInt = _
    rw [BitVec.toInt_eq_toNat_bmod]
    rfl
  have hword := toNat_word n.toInt32.toInt
  apply UInt32.toNat_inj.mp
  rw [UInt64.toNat_toUInt32]
  rw [hint, Int.bmod] at hword
  rw [hint, Int.bmod]
  omega

theorem time_of_word {t : Int} (ht : IsTime t) :
    (UInt64.ofInt (t % 2 ^ 64)).toInt64.toInt = t := by
  have hint : ∀ v : UInt64, v.toInt64.toInt = (v.toNat : Int).bmod (2 ^ 64) := by
    intro v
    show v.toBitVec.toInt = _
    rw [BitVec.toInt_eq_toNat_bmod]
    rfl
  obtain ⟨hlo, hhi⟩ := ht
  rw [hint, toNat_word, Int.bmod]
  omega

/-- The line of a point gives the point back, and leaves the lines behind it. -/
theorem readPoint_line {sp : SpawnPoint} (htime : IsTime sp.m_diffTime)
    (hname : OneLine Messages.isSpace sp.m_name) (rest : QString) :
    readPoint (sp.line ++ rest) = (sp.saved, rest) := by
  have hx := sp.x.le_toInt
  have hy := sp.y.le_toInt
  have hz := sp.z.le_toInt
  have hcount := sp.m_count.toInt32.le_toInt
  have hline := readLine_oneLine (c := ' ') (by decide) (by decide) qchar.isSpace_return hname rest
  have htrim : Numeral.trim Messages.isSpace (' ' :: sp.m_name) = sp.m_name :=
    (trim_space (by decide) _).trans hname.1
  have hstops : Stops (' ' :: sp.m_name ++ '\n' :: rest) := stops_blank _
  have htext : sp.line ++ rest =
      printInt sp.x.toInt ++ ' ' :: (printInt sp.y.toInt ++ ' ' :: (printInt sp.z.toInt ++
        ' ' :: (printInt (sp.m_diffTime % 2 ^ 64) ++
          ' ' :: (printInt sp.m_count.toInt32.toInt ++
            (' ' :: sp.m_name ++ '\n' :: rest))))) := by
    simp [SpawnPoint.line, List.append_assoc]
  unfold readPoint
  rw [htext, getNumber_printInt (by omega) (stops_blank _)]
  dsimp only
  rw [getNumber_blank, getNumber_printInt (by omega) (stops_blank _)]
  dsimp only
  rw [getNumber_blank, getNumber_printInt (by omega) (stops_blank _)]
  dsimp only
  rw [getNumber_blank, getNumber_printInt (by omega) (stops_blank _)]
  dsimp only
  rw [getNumber_blank, getNumber_printInt (by omega) hstops]
  dsimp only
  rw [hline, htrim]
  simp only [Option.getD_some, int16_of_word, uint32_of_word, time_of_word htime]
  rfl

/-! ## The whole file -/

theorem readPoints_lines {sps : List SpawnPoint}
    (h : ∀ sp ∈ sps, IsTime sp.m_diffTime ∧ OneLine Messages.isSpace sp.m_name) :
    readPoints (sps.flatMap SpawnPoint.line) = sps.map SpawnPoint.saved := by
  induction sps with
  | nil => rw [List.flatMap_nil, readPoints, List.map_nil]
  | cons sp sps ih =>
      obtain ⟨htime, hname⟩ := h sp List.mem_cons_self
      have hrest := ih fun sp' hsp' => h sp' (List.mem_cons_of_mem _ hsp')
      have hread := readPoint_line htime hname (sps.flatMap SpawnPoint.line)
      rw [List.flatMap_cons, List.map_cons]
      cases htext : sp.line ++ sps.flatMap SpawnPoint.line with
      | nil =>
          have hlen := congrArg List.length htext
          simp [SpawnPoint.line] at hlen
      | cons c cs =>
          rw [htext] at hread
          rw [readPoints, hread, hrest]

theorem readPoint_name (input : QString) :
    ∃ line, (readPoint input).1.name = Numeral.trim Messages.isSpace (readLine line).1 := by
  unfold readPoint
  exact ⟨_, rfl⟩

/-- Every name that is read is one line. -/
theorem oneLine_of_readPoints (input : QString) :
    ∀ p ∈ readPoints input, OneLine Messages.isSpace p.name := by
  induction input using readPoints.induct with
  | case1 =>
      rw [readPoints]
      exact fun p hp => absurd hp List.not_mem_nil
  | case2 c cs ih =>
      rw [readPoints]
      intro p hp
      rcases List.mem_cons.mp hp with rfl | hp
      · obtain ⟨line, hname⟩ := readPoint_name (c :: cs)
        rw [hname]
        refine ⟨trim_trim _, fun h => ?_⟩
        exact lineFeed_not_mem_readLine _ ((trim_sublist _).subset h)
      · exact ih p hp

/-- A point of the file is found under its key, unless one was there before it. -/
theorem saved_lookup_loadPoints (ps : List SavedPoint) (k : QString) :
    ∀ (clock : ℕ → Int) (points : Table QString SpawnPoint),
      ((loadPoints clock ps points).lookup k).map SpawnPoint.saved =
        ((points.lookup k).map SpawnPoint.saved).or (ps.find? fun p => p.key = k) := by
  induction ps with
  | nil =>
      intro clock points
      rw [loadPoints, List.find?_nil, Option.or_none]
  | cons p ps ih =>
      intro clock points
      rw [loadPoints, ih]
      unfold loadPoint
      by_cases hmem : p.key ∈ points
      · rw [if_pos hmem]
        by_cases hk : p.key = k
        · obtain ⟨sp, hsp⟩ := Option.isSome_iff_exists.mp (AList.lookup_isSome.mpr hmem)
          rw [← hk, hsp, Option.map_some, Option.some_or, Option.some_or]
        · rw [List.find?_cons_of_neg (by simpa using hk)]
      · rw [if_neg hmem, Table.lookup_insert]
        by_cases hk : p.key = k
        · rw [if_pos hk.symm, List.find?_cons_of_pos (by simpa using hk), ← hk,
            AList.lookup_eq_none.mpr hmem]
          rfl
        · rw [if_neg (Ne.symm hk), List.find?_cons_of_neg (by simpa using hk)]

/-! ## The round trip -/

/-- Promoted points: each is under the key of its place, and its times fit. -/
structure PromotedPoints where
  points : Table QString SpawnPoint
  keyed : ∀ k sp, points.lookup k = some sp → k = sp.key
  timed : ∀ k sp, points.lookup k = some sp → IsTime sp.m_diffTime

/-- The file gives the same points back, with all that it keeps of them, and no other. -/
def RoundTrip (o : Table.Order) (clock : ℕ → Int) (zone : QString) (p : PromotedPoints) : Prop :=
  let loaded := loadSpawnPoints clock (some (render o p.points)) (.inZone zone)
  ∀ k, (loaded.m_points.lookup k).map SpawnPoint.saved =
    (p.points.lookup k).map SpawnPoint.saved

/-- Every name is one line. -/
def NamesFit (p : PromotedPoints) : Prop :=
  ∀ k sp, p.points.lookup k = some sp → OneLine Messages.isSpace sp.m_name

/-- What is loaded into an empty monitor, by its key. -/
theorem saved_lookup_load (clock : ℕ → Int) (zone input : QString) (k : QString) :
    ((loadSpawnPoints clock (some input) (.inZone zone)).m_points.lookup k).map SpawnPoint.saved =
      (readPoints input).find? fun p => p.key = k := by
  have h := saved_lookup_loadPoints (readPoints input) k clock (∅ : Table QString SpawnPoint)
  rwa [AList.lookup_empty, Option.map_none, Option.none_or] at h

/-- The point of a key is the only one of the iterated points that has it. -/
theorem find_visit (o : Table.Order) (p : PromotedPoints) (k : QString) :
    ((o.visit p.points.values).map SpawnPoint.saved).find? (fun q => q.key = k) =
      (p.points.lookup k).map SpawnPoint.saved := by
  have honly : ∀ q ∈ (o.visit p.points.values).map SpawnPoint.saved, q.key = k →
      (p.points.lookup k).map SpawnPoint.saved = some q := by
    intro q hq heq
    obtain ⟨sp, hsp, rfl⟩ := List.mem_map.mp hq
    obtain ⟨k', hk'⟩ := Table.mem_values.mp (o.mem_visit.mp hsp)
    have hkey : k' = k := (p.keyed k' sp hk').trans heq
    rw [← hkey, hk', Option.map_some]
  cases hfind : ((o.visit p.points.values).map SpawnPoint.saved).find? (fun q => q.key = k) with
  | some q =>
      have hkey : q.key = k := by simpa using List.find?_some hfind
      exact (honly q (List.mem_of_find?_eq_some hfind) hkey).symm
  | none =>
      cases hk : p.points.lookup k with
      | none => rfl
      | some sp =>
          have hmem : sp.saved ∈ (o.visit p.points.values).map SpawnPoint.saved :=
            List.mem_map_of_mem (o.mem_visit.mpr (Table.mem_values.mpr ⟨k, hk⟩))
          have hnot := List.find?_eq_none.mp hfind sp.saved hmem
          have hkey : sp.saved.key = k := (p.keyed k sp hk).symm
          exact absurd hkey (by simpa using hnot)

/-- For every order of the table, every clock and every zone: the promoted points come back from
    their file, each under its key, exactly when each name is one line without blanks around it. -/
theorem file_roundTrip_iff (o : Table.Order) (clock : ℕ → Int) (zone : QString)
    (p : PromotedPoints) : RoundTrip o clock zone p ↔ NamesFit p := by
  constructor
  · intro h k sp hk
    have hloaded := h k
    rw [saved_lookup_load, hk, Option.map_some] at hloaded
    exact oneLine_of_readPoints _ sp.saved (List.mem_of_find?_eq_some hloaded)
  · intro h k
    have hall : ∀ sp ∈ o.visit p.points.values,
        IsTime sp.m_diffTime ∧ OneLine Messages.isSpace sp.m_name := by
      intro sp hsp
      obtain ⟨k', hk'⟩ := Table.mem_values.mp (o.mem_visit.mp hsp)
      exact ⟨p.timed k' sp hk', h k' sp hk'⟩
    rw [saved_lookup_load, render, readPoints_lines hall, find_visit]

/-- A point with a line break in its name. -/
def brokenName : SpawnPoint :=
  { x := 1, y := 2, z := 3, m_spawnTime := 0, m_deathTime := 0, m_diffTime := 640, m_count := 2
    m_name := ['a', '\n', 'b'], m_last := [], m_lastID := 0 }

/-- A table with one point, whose name has a line feed. -/
def brokenPoints : PromotedPoints where
  points := (∅ : Table QString SpawnPoint).insert brokenName.key brokenName
  keyed := by
    intro k sp h
    rw [Table.lookup_insert] at h
    split at h
    · rename_i hk
      rw [← Option.some.inj h, hk]
    · rw [AList.lookup_empty] at h
      cases h
  timed := by
    intro k sp h
    rw [Table.lookup_insert] at h
    split at h
    · rw [← Option.some.inj h]
      exact ⟨by decide, by decide⟩
    · rw [AList.lookup_empty] at h
      cases h

/-- The rest of the name is read as a point of its own. -/
example : readPoints brokenName.line =
    [{ brokenName.saved with name := ['a'] },
      { x := 0, y := 0, z := 0, diffTime := 0, count := 0, name := ['b'] }] := by
  have hline : brokenName.line = '1' :: " 2 3 640 2 a\nb\n".toList := by decide
  have hfirst : readPoint ('1' :: " 2 3 640 2 a\nb\n".toList) =
      ({ brokenName.saved with name := ['a'] }, ['b', '\n']) := by decide
  have hsecond : readPoint ['b', '\n'] =
      ({ x := 0, y := 0, z := 0, diffTime := 0, count := 0, name := ['b'] }, []) := by decide
  rw [hline, readPoints, hfirst, readPoints, hsecond, readPoints]

theorem broken_name_lost :
    ¬ RoundTrip Table.Order.entries (fun _ => 0) ['z'] brokenPoints := by
  intro h
  have hloaded := h brokenName.key
  have hlookup : brokenPoints.points.lookup brokenName.key = some brokenName := by
    unfold brokenPoints
    rw [Table.lookup_insert, if_pos rfl]
  rw [saved_lookup_load, hlookup, Option.map_some] at hloaded
  have hline := oneLine_of_readPoints _ brokenName.saved (List.mem_of_find?_eq_some hloaded)
  exact absurd hline (by decide)

end ShoweqDaemon.SpawnPoints
