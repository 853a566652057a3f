/-
  Runs of the spawn monitor, seen with the places it is about.

  `Observed` follows the objects and the places together. Every run leaves the tables disjoint,
  every point under the key of its place, a candidate for every place that was seen once, and no
  object lost or given back twice (`monitor_runs`). The counter of a promoted point shows how often
  its place was seen modulo 2^32, so that a point seen 2^32 times has the count 0
  (`count_wraps`).
-/
import ShoweqDaemon.Spawn.PointObjects

namespace ShoweqDaemon.SpawnPoints

open Spawns TextStream
open Numeral (printInt)

/-! ## Keys -/

theorem bar_not_mem_printInt (i : Int) : '|' ∉ printInt i := by
  have hdigit : ∀ d < 10, '|' ≠ Nat.digitChar d := by decide
  have hdigits : ∀ n, '|' ∉ Nat.toDigits 10 n := by
    intro n h
    obtain ⟨d, hd, heq⟩ := Numeral.digit_of_toDigits (by omega) n '|' h
    exact hdigit d hd heq
  unfold printInt
  split
  · rw [List.mem_cons, not_or]
    exact ⟨by decide, hdigits _⟩
  · exact hdigits _

theorem printInt_inj {x y : Int16} (h : printInt x.toInt = printInt y.toInt) : x = y := by
  have hx := x.le_toInt
  have hy := y.le_toInt
  have hread := getNumber_printInt (i := x.toInt) (by omega) (stops_blank [])
  rw [h, getNumber_printInt (by omega) (stops_blank [])] at hread
  have hword : UInt64.ofInt y.toInt = UInt64.ofInt x.toInt :=
    Option.some.inj (congrArg Prod.fst hread)
  rw [← int16_of_word x, ← int16_of_word y, hword]

/-- What comes before a separator is told apart by it. -/
theorem append_cons_inj {α : Type} {c : α} {a a' r r' : List α} (ha : c ∉ a) (ha' : c ∉ a')
    (h : a ++ c :: r = a' ++ c :: r') : a = a' ∧ r = r' := by
  induction a generalizing a' with
  | nil =>
      cases a' with
      | nil => exact ⟨rfl, (List.cons.inj h).2⟩
      | cons d a' => exact absurd ((List.cons.inj h).1 ▸ List.mem_cons_self) ha'
  | cons d a ih =>
      cases a' with
      | nil => exact absurd ((List.cons.inj h).1 ▸ List.mem_cons_self) ha
      | cons d' a' =>
          obtain ⟨hd, hrest⟩ := List.cons.inj h
          obtain ⟨heq, hr⟩ := ih (fun hc => ha (List.mem_cons_of_mem _ hc))
            (fun hc => ha' (List.mem_cons_of_mem _ hc)) hrest
          exact ⟨by rw [hd, heq], hr⟩

theorem keyOf_inj {x y z x' y' z' : Int16}
    (h : SpawnPoint.keyOf x y z = SpawnPoint.keyOf x' y' z') : x = x' ∧ y = y' ∧ z = z' := by
  unfold SpawnPoint.keyOf at h
  rw [List.append_assoc, List.append_assoc, List.cons_append, List.cons_append] at h
  obtain ⟨hx, h⟩ := append_cons_inj (bar_not_mem_printInt _) (bar_not_mem_printInt _) h
  obtain ⟨hy, hz⟩ := append_cons_inj (bar_not_mem_printInt _) (bar_not_mem_printInt _) h
  exact ⟨printInt_inj hx, printInt_inj hy, printInt_inj hz⟩

namespace Owned

/-! ## Runs -/

/-- The monitor, and what is known of the places. -/
structure Observed where
  monitor : SpawnMonitor
  places : Places

/-- The monitor at its start, and nothing known of any place. -/
def Observed.init : Observed where
  monitor := .init
  places := fun _ => { loaded := none, seen := 0 }

section
variable (toLower : QString → QString)

/-- The monitor and the places after an event. -/
def observe (t : Observed) (e : Event) : Observed where
  monitor := step toLower t.monitor e
  places := t.places.after (t.monitor.happening toLower e)

/-- The invariant of the runs. -/
def Observed.Inv (t : Observed) : Prop := t.monitor.Sound ∧ Tells t.places t.monitor.view

theorem inv_init : Observed.init.Inv := ⟨SpawnMonitor.init_sound, tells_inZone []⟩

theorem inv_observe (t : Observed) (e : Event) (h : t.Inv) : (observe toLower t e).Inv := by
  refine ⟨SpawnMonitor.sound_perform toLower h.1 e, ?_⟩
  show Tells (t.places.after (t.monitor.happening toLower e)) (t.monitor.perform toLower e).1.view
  rcases SpawnMonitor.view_perform toLower h.1 e with ⟨hview, hnone⟩ | ⟨e', hview, hsame⟩
  · rw [hview, hnone]
    exact h.2
  · rw [hview, hsame]
    exact tells_perform toLower h.2 e'

theorem inv_run (es : List Event) :
    ∀ t ∈ Machine.trace (observe toLower) Observed.init es, t.Inv :=
  Machine.trace_invariant (observe toLower) (inv_observe toLower) inv_init es

end

/-! ## What holds in every state -/

/-- The state of the monitor is what it is meant to be. -/
structure Observed.Right (t : Observed) : Prop where
  disjoint : ∀ k, k ∈ t.monitor.m_spawns → k ∉ t.monitor.m_points
  /-- Every point is under the key of its own coordinates. -/
  keyed : ∀ k a, t.monitor.Held k a → k = (t.monitor.object a).key
  /-- No two points share coordinates. -/
  coordinates : ∀ a b, t.monitor.Live a → t.monitor.Live b →
    (t.monitor.object a).x = (t.monitor.object b).x →
    (t.monitor.object a).y = (t.monitor.object b).y →
    (t.monitor.object a).z = (t.monitor.object b).z → a = b
  /-- A promoted point that is not from the file was seen twice or more often; the count is of
      32 bits. -/
  promoted : ∀ k a, t.monitor.m_points.lookup k = some a → (t.places k).loaded = none →
    2 ≤ (t.places k).seen ∧ (t.monitor.object a).m_count.toNat = (t.places k).seen % 2 ^ 32
  candidate : ∀ k a, t.monitor.m_spawns.lookup k = some a →
    (t.places k).loaded = none ∧ (t.places k).seen = 1
  selected : ∀ a, t.monitor.m_selected = some a → t.monitor.Live a
  /-- No object is in both tables, or twice in one of them. -/
  owned_once : t.monitor.live.Nodup
  /-- No object is deleted twice, and none that is deleted is used. -/
  deleted_once : t.monitor.deleted.Nodup ∧ ∀ a, t.monitor.Live a → a ∉ t.monitor.deleted

theorem Observed.Inv.right {t : Observed} (h : t.Inv) : t.Right := by
  obtain ⟨hs, ht⟩ := h
  have hpoint : ∀ k, t.monitor.view.m_points.lookup k =
      (t.monitor.m_points.lookup k).map t.monitor.object := fun k => Table.lookup_mapValues ..
  have hspawn : ∀ k, t.monitor.view.m_spawns.lookup k =
      (t.monitor.m_spawns.lookup k).map t.monitor.object := fun k => Table.lookup_mapValues ..
  refine ⟨hs.disjoint, hs.keyed, ?_, ?_, ?_, hs.selected, hs.live_nodup, hs.deleted_nodup,
    fun a ha => (hs.alive a ha).1⟩
  · rintro a b ⟨k, ha⟩ ⟨k', hb⟩ hx hy hz
    have hkey : k = k' := by
      rw [hs.keyed k a ha, hs.keyed k' b hb, SpawnPoint.key, SpawnPoint.key, hx, hy, hz]
    exact hs.eq_of_held ha (hkey ▸ hb)
  · intro k a ha hloaded
    have hcount := ht.points k
    rw [hpoint, ha] at hcount
    by_cases hp : (t.places k).Promoted
    · rw [if_pos hp] at hcount
      have hseen : 2 ≤ (t.places k).seen := hp.resolve_left fun hne => hne hloaded
      have heq : (t.monitor.object a).m_count = (t.places k).count := Option.some.inj hcount
      refine ⟨hseen, ?_⟩
      rw [heq, Place.count, hloaded, Option.getD_none, UInt32.zero_add, UInt32.toNat_ofNat']
    · rw [if_neg hp] at hcount
      cases hcount
  · intro k a ha
    have hcount := ht.spawns k
    rw [hspawn, ha] at hcount
    by_cases hc : (t.places k).Candidate
    · exact hc
    · rw [if_neg hc] at hcount
      cases hcount

/-- Distinct places have distinct keys, and in every run every state is right. -/
theorem monitor_runs (toLower : QString → QString) (es : List Event) :
    (∀ x y z x' y' z', SpawnPoint.keyOf x y z = SpawnPoint.keyOf x' y' z' →
      x = x' ∧ y = y' ∧ z = z') ∧
    ∀ t ∈ Machine.trace (observe toLower) Observed.init es, t.Right :=
  ⟨fun _ _ _ _ _ _ h => keyOf_inj h, fun t ht => (inv_run toLower es t ht).right⟩

/-! ## The counter -/

/-- A mob of the zone. -/
def rat : SpawnInfo :=
  { id := 7, name := "a_rat".toList, NPC := SPAWN_NPC, petOwnerID := 0, isMount := false
    isAura := false, isMercenary := false, x := 1, y := 2, z := 3 }

/-- The rat pops again and again. -/
theorem places_of_pops (toLower : QString → QString) (n : ℕ) :
    ((List.replicate n (Event.newSpawn 0 (some rat))).foldl (observe toLower) .init).places
      (SpawnPoint.keyOf 1 2 3) = { loaded := none, seen := n } := by
  induction n with
  | zero => rfl
  | succ n ih =>
      rw [List.replicate_succ', List.foldl_append]
      generalize (List.replicate n (Event.newSpawn 0 (some rat))).foldl (observe toLower) .init = t
        at ih
      have hmob : rat.IsMob := by decide
      have hsighted : t.monitor.happening toLower (.newSpawn 0 (some rat)) =
          .sighted (SpawnPoint.keyOf 1 2 3) := by
        rw [SpawnMonitor.happening, if_pos hmob]
        rfl
      have hafter : (t.places.after (.sighted (SpawnPoint.keyOf 1 2 3))) (SpawnPoint.keyOf 1 2 3) =
          (t.places (SpawnPoint.keyOf 1 2 3)).again := by
        rw [Places.after, Function.update_self]
      rw [List.foldl_cons, List.foldl_nil, observe, hsighted]
      exact hafter.trans (by rw [ih]; rfl)

/-- Seen 2^32 times, a promoted point that is not from a file has the count 0. -/
theorem count_wraps : ¬ ∀ (es : List Event),
    ∀ t ∈ Machine.trace (observe id) Observed.init es, ∀ k a,
      t.monitor.m_points.lookup k = some a → (t.places k).loaded = none →
        2 ≤ (t.monitor.object a).m_count.toNat := by
  intro h
  generalize hn : 2 ^ 32 = n
  have hplace := places_of_pops id n
  generalize ht : (List.replicate n (Event.newSpawn 0 (some rat))).foldl (observe id) .init = t
    at hplace
  have hmem : t ∈ Machine.trace (observe id) Observed.init
      (List.replicate n (Event.newSpawn 0 (some rat))) :=
    (Machine.mem_trace_iff _ _ _ _).mpr ⟨_, [], (List.append_nil _).symm, ht.symm⟩
  have hinv := inv_run id _ t hmem
  have hpoint := hinv.2.points (SpawnPoint.keyOf 1 2 3)
  rw [hplace, if_pos (.inr (show 2 ≤ n by omega))] at hpoint
  obtain ⟨sp, hsp, hcount⟩ := Option.map_eq_some_iff.mp hpoint
  obtain ⟨a, ha, hobject⟩ := Option.map_eq_some_iff.mp
    ((Table.lookup_mapValues t.monitor.object t.monitor.m_points _).symm.trans hsp)
  have htwo := h _ t hmem _ a ha (by rw [hplace])
  rw [hobject, hcount, Place.count, Option.getD_none, UInt32.zero_add, UInt32.toNat_ofNat', ← hn]
    at htwo
  exact absurd htwo (by decide)

end Owned

end ShoweqDaemon.SpawnPoints
