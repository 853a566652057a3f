/-
  Polylines: lines of points, each drawn with one pen.

  The strokes of a drawing are the segments of its lines with their pens. They come out in the
  order in which they were added, whether a line is begun or the last one is carried on.

  The pens may be anything that a line carries, for instance a colour and a name.

  Proved:
  * `strokes_begin`: a line that is begun with two points adds the stroke between them.
  * `strokes_carry_on`: one more point on the last line adds one stroke, behind all others.
  * `map_fst_strokes`: without the pens the strokes are the segments of the lines.
-/
import Mathlib.Data.List.Basic

namespace Polyline

universe u v
variable {α : Type u} {κ : Type v}

/-- From each point to the next. -/
def segments (points : List α) : List (α × α) := points.zip points.tail

/-- The segments of every line, each with the pen of its line. -/
def strokes (lines : List (List α × κ)) : List ((α × α) × κ) :=
  lines.flatMap fun line => (segments line.1).map fun segment => (segment, line.2)

theorem segments_concat {points : List α} {a : α} (hlast : points.getLast? = some a) (b : α) :
    segments (points ++ [b]) = segments points ++ [(a, b)] := by
  induction points with
  | nil => simp at hlast
  | cons p rest ih =>
      cases rest with
      | nil =>
          have hp : p = a := by simpa using hlast
          simp [segments, hp]
      | cons q rest =>
          have htail := ih (by simpa using hlast)
          simpa [segments] using htail

/-- A line of two points. -/
theorem strokes_begin (lines : List (List α × κ)) (a b : α) (pen : κ) :
    strokes (lines ++ [([a, b], pen)]) = strokes lines ++ [((a, b), pen)] := by
  simp [strokes, segments]

/-- One more point on the last line. -/
theorem strokes_carry_on (lines : List (List α × κ)) {points : List α} {a : α}
    (hlast : points.getLast? = some a) (b : α) (pen : κ) :
    strokes (lines ++ [(points ++ [b], pen)]) =
      strokes (lines ++ [(points, pen)]) ++ [((a, b), pen)] := by
  simp [strokes, segments_concat hlast]

/-- Without the pens. -/
theorem map_fst_strokes (lines : List (List α × κ)) :
    (strokes lines).map Prod.fst = lines.flatMap fun line => segments line.1 := by
  simp [strokes, List.map_flatMap, Function.comp_def]

end Polyline
