import Mathlib.Algebra.Order.Field.Basic
import Mathlib.Algebra.Order.Field.Rat
import Mathlib.Tactic.Linarith
import Mathlib.Tactic.Ring

/-!
The extraction compass.

A shot is drawn as a dot: its brew ratio on the x-axis, its time on the y-axis,
both clamped to the ends of the axes. The plot area is cut into nine zones, each
with the taste to be expected there.

The numbers are exact rationals.
-/

namespace EspressoLogs

/-- `ZoneBoundaries`. -/
structure ZoneBoundaries where
  timeMin : ℚ
  timeMax : ℚ
  ratioInnerThird : ℚ
  ratioOuterThird : ℚ
  deriving DecidableEq, Repr

/-- The properties of the component that concern the dot. -/
structure CompassChartProps where
  doseG : Option ℚ
  yieldG : Option ℚ
  timeSec : Option ℚ
  zoneBoundaries : Option ZoneBoundaries
  deriving DecidableEq, Repr

namespace CompassChart

/-- `DEFAULT_BOUNDARIES`. -/
def defaultBoundaries : ZoneBoundaries :=
  { timeMin := 15, timeMax := 60, ratioInnerThird := 167 / 100, ratioOuterThird := 233 / 100 }

/-! ### The plot area -/

def width : ℚ := 300
def height : ℚ := 220
def paddingTop : ℚ := 20
def paddingRight : ℚ := 20
def paddingBottom : ℚ := 52
def paddingLeft : ℚ := 45

/-- The width between the paddings. -/
def chartW : ℚ := width - paddingLeft - paddingRight
def chartH : ℚ := height - paddingTop - paddingBottom

def ratioMin : ℚ := 1
def ratioMax : ℚ := 3

/-- `xScale`: the ratio from left to right. -/
def xScale (r : ℚ) : ℚ := paddingLeft + (r - ratioMin) / (ratioMax - ratioMin) * chartW

/-- `timeMax` is at the top, `timeMin` at the bottom. -/
def yScale (b : ZoneBoundaries) (s : ℚ) : ℚ :=
  paddingTop + (b.timeMax - s) / (b.timeMax - b.timeMin) * chartH

/-- `Math.min(hi, Math.max(lo, v))`. -/
def clamp (lo hi v : ℚ) : ℚ := min hi (max lo v)

/-! ### Zones -/

/-- The first third of the width. -/
def x1 : ℚ := paddingLeft + chartW / 3
def x2 : ℚ := paddingLeft + 2 * (chartW / 3)

/-- The first third of the height. -/
def y1 : ℚ := paddingTop + chartH / 3
def y2 : ℚ := paddingTop + 2 * (chartH / 3)

/-- A rectangle of the chart, with what a shot in it tastes of. -/
structure Zone where
  id : String
  taste : String
  x : ℚ
  y : ℚ
  w : ℚ
  h : ℚ
  deriving DecidableEq, Repr

/-- The boundary check of the live dot. -/
def Zone.contains (dotX dotY : ℚ) (z : Zone) : Bool :=
  decide (z.x ≤ dotX) && decide (dotX < z.x + z.w) &&
    decide (z.y ≤ dotY) && decide (dotY < z.y + z.h)

/-- The nine zones: slow shots on top, fast ones at the bottom. -/
def zones : List Zone :=
  [⟨"weak-bitter-slow", "Weak & bitter", paddingLeft, paddingTop, x1 - paddingLeft, y1 - paddingTop⟩,
   ⟨"bitter-slow", "Bitter", x1, paddingTop, x2 - x1, y1 - paddingTop⟩,
   ⟨"harsh-bitter", "Harsh & bitter", x2, paddingTop, width - paddingRight - x2, y1 - paddingTop⟩,
   ⟨"weak-sweet", "Weak & sweet", paddingLeft, y1, x1 - paddingLeft, y2 - y1⟩,
   ⟨"sweet-balanced", "Sweet & balanced", x1, y1, x2 - x1, y2 - y1⟩,
   ⟨"bitter-astringent", "Bitter & astringent", x2, y1, width - paddingRight - x2, y2 - y1⟩,
   ⟨"weak-sour", "Weak & sour", paddingLeft, y2, x1 - paddingLeft, height - paddingBottom - y2⟩,
   ⟨"sour", "Sour", x1, y2, x2 - x1, height - paddingBottom - y2⟩,
   ⟨"astringent-sour", "Astringent & sour", x2, y2, width - paddingRight - x2,
     height - paddingBottom - y2⟩]

/-! ### The dot -/

/-- The zone boundaries given, or else the default ones. -/
def boundaries (props : CompassChartProps) : ZoneBoundaries :=
  props.zoneBoundaries.getD defaultBoundaries

/-- The brew ratio, none without a positive dose. -/
def ratio (props : CompassChartProps) : Option ℚ :=
  match props.yieldG, props.doseG with
  | some yieldG, some doseG => if 0 < doseG then some (yieldG / doseG) else none
  | _, _ => none

/-- Where the dot stands from the left, clamped to the axis. -/
def dotX (props : CompassChartProps) : Option ℚ :=
  (ratio props).map fun r => xScale (clamp ratioMin ratioMax r)

/-- Where the dot stands from the top, clamped to the axis. -/
def dotY (props : CompassChartProps) : Option ℚ :=
  props.timeSec.map fun s =>
    yScale (boundaries props) (clamp (boundaries props).timeMin (boundaries props).timeMax s)

/-- The taste of the first zone that the dot is in. -/
def activeZoneTaste (props : CompassChartProps) : Option String :=
  match dotX props, dotY props with
  | some x, some y => (zones.find? (Zone.contains x y)).map Zone.taste
  | _, _ => none

/-! ### Columns and rows -/

/-- A half-open interval. -/
def within (lo hi v : ℚ) : Bool := decide (lo ≤ v) && decide (v < hi)

theorem within_eq_true {lo hi v : ℚ} : within lo hi v = true ↔ lo ≤ v ∧ v < hi := by
  simp [within]

/-- One of three tests succeeds. -/
def OneOf (a b c : Bool) : Prop :=
  a = true ∧ b = false ∧ c = false ∨ a = false ∧ b = true ∧ c = false ∨
    a = false ∧ b = false ∧ c = true

/-- Three half-open intervals side by side hold every value between their ends in
just one of them. -/
theorem oneOf_within {p q r s v : ℚ} (pq : p ≤ q) (qr : q ≤ r) (rs : r ≤ s) :
    OneOf (within p q v) (within q r v) (within r s v) ↔ p ≤ v ∧ v < s := by
  constructor
  · rintro (⟨first, _, _⟩ | ⟨_, second, _⟩ | ⟨_, _, third⟩)
    · obtain ⟨lo, hi⟩ := within_eq_true.mp first
      exact ⟨lo, by linarith⟩
    · obtain ⟨lo, hi⟩ := within_eq_true.mp second
      exact ⟨by linarith, by linarith⟩
    · obtain ⟨lo, hi⟩ := within_eq_true.mp third
      exact ⟨by linarith, hi⟩
  · rintro ⟨lo, hi⟩
    rcases lt_or_ge v q with left | right
    · refine .inl ⟨within_eq_true.mpr ⟨lo, left⟩, ?_, ?_⟩
      · simp [within, not_le.mpr left]
      · simp [within, not_le.mpr (left.trans_le qr)]
    · rcases lt_or_ge v r with left' | right'
      · refine .inr (.inl ⟨?_, within_eq_true.mpr ⟨right, left'⟩, ?_⟩)
        · simp [within, not_lt.mpr right]
        · simp [within, not_le.mpr left']
      · refine .inr (.inr ⟨?_, ?_, within_eq_true.mpr ⟨right', hi⟩⟩)
        · simp [within, not_lt.mpr right]
        · simp [within, not_lt.mpr right']

/-- The three columns, each without its right end. -/
def left (x : ℚ) : Bool := within paddingLeft x1 x
def middle (x : ℚ) : Bool := within x1 x2 x
def right (x : ℚ) : Bool := within x2 (width - paddingRight) x

/-- The three rows, each without its lower end. -/
def top (y : ℚ) : Bool := within paddingTop y1 y
def center (y : ℚ) : Bool := within y1 y2 y
def bottom (y : ℚ) : Bool := within y2 (height - paddingBottom) y

/-- A zone is a column and a row. -/
theorem zones_contains (x y : ℚ) : zones.map (Zone.contains x y) =
    [left x && top y, middle x && top y, right x && top y,
     left x && center y, middle x && center y, right x && center y,
     left x && bottom y, middle x && bottom y, right x && bottom y] := by
  simp [zones, Zone.contains, left, middle, right, top, center, bottom, within, Bool.and_assoc]

/-- A point is in one column unless it stands on the right end of the axis. -/
theorem columns_iff {x : ℚ} : OneOf (left x) (middle x) (right x) ↔ 45 ≤ x ∧ x < 280 := by
  have ends : OneOf (left x) (middle x) (right x) ↔
      paddingLeft ≤ x ∧ x < width - paddingRight := by
    refine oneOf_within ?_ ?_ ?_ <;> norm_num [x1, x2, paddingLeft, paddingRight, chartW, width]
  rw [ends]
  norm_num [paddingLeft, paddingRight, width]

/-- A point is in one row unless it stands on the lower end of the axis. -/
theorem rows_iff {y : ℚ} : OneOf (top y) (center y) (bottom y) ↔ 20 ≤ y ∧ y < 168 := by
  have ends : OneOf (top y) (center y) (bottom y) ↔
      paddingTop ≤ y ∧ y < height - paddingBottom := by
    refine oneOf_within ?_ ?_ ?_ <;> norm_num [y1, y2, paddingTop, paddingBottom, chartH, height]
  rw [ends]
  norm_num [paddingTop, paddingBottom, height]

/-- The dot at these coordinates is in one of the nine zones. -/
theorem one_zone_iff {x y : ℚ} : (∃ z, zones.filter (Zone.contains x y) = [z]) ↔
    (45 ≤ x ∧ x < 280) ∧ 20 ≤ y ∧ y < 168 := by
  have counted : zones.countP (Zone.contains x y) = (zones.map (Zone.contains x y)).count true := by
    rw [List.count, List.countP_map]
    refine List.countP_congr fun z _ => ?_
    simp
  rw [← List.length_eq_one_iff, ← List.countP_eq_length_filter, counted, zones_contains,
    ← columns_iff, ← rows_iff]
  generalize left x = a, middle x = b, right x = c, top y = d, center y = e, bottom y = f
  unfold OneOf
  revert a b c d e f
  decide

/-! ### Where the dot can be -/

theorem clamp_mem {lo hi : ℚ} (v : ℚ) (ordered : lo ≤ hi) : lo ≤ clamp lo hi v ∧ clamp lo hi v ≤ hi :=
  ⟨le_min ordered (le_max_left _ _), min_le_left _ _⟩

/-- Clamping does not move a value below the end to it. -/
theorem clamp_lt_iff {lo hi v : ℚ} (ordered : lo < hi) : clamp lo hi v < hi ↔ v < hi := by
  simp [clamp, ordered]

theorem lt_clamp_iff {lo hi v : ℚ} (ordered : lo < hi) : lo < clamp lo hi v ↔ lo < v := by
  simp [clamp, ordered]

/-- Within the axis, only its last value is drawn on the right end. -/
theorem xScale_bounds {r : ℚ} (above : 1 ≤ r) : (45 ≤ xScale r ∧ xScale r < 280) ↔ r < 3 := by
  have scaled : xScale r = 45 + (r - 1) * (235 / 2) := by
    norm_num [xScale, paddingLeft, paddingRight, ratioMin, ratioMax, chartW, width]
    ring
  rw [scaled]
  constructor
  · rintro ⟨_, inside⟩
    linarith
  · intro below
    exact ⟨by linarith, by linarith⟩

/-- The shortest time is drawn on the lower end, since the axis points up. -/
theorem yScale_bounds {b : ZoneBoundaries} {s : ℚ} (ordered : b.timeMin < b.timeMax)
    (below : s ≤ b.timeMax) : (20 ≤ yScale b s ∧ yScale b s < 168) ↔ b.timeMin < s := by
  have span : 0 < b.timeMax - b.timeMin := by linarith
  have scaled : yScale b s = 20 + (b.timeMax - s) / (b.timeMax - b.timeMin) * 148 := by
    norm_num [yScale, paddingTop, paddingBottom, chartH, height]
  have fromTop : 0 ≤ (b.timeMax - s) / (b.timeMax - b.timeMin) :=
    div_nonneg (by linarith) span.le
  have toBottom : (b.timeMax - s) / (b.timeMax - b.timeMin) < 1 ↔ b.timeMin < s := by
    rw [div_lt_one span]
    constructor
    · intro above
      linarith
    · intro above
      linarith
  rw [scaled, ← toBottom]
  constructor
  · rintro ⟨_, inside⟩
    linarith
  · intro inside
    exact ⟨by linarith, by linarith⟩

/-- The dot is drawn, in exactly one of the nine zones, and its taste is known. -/
def InOneZone (props : CompassChartProps) : Prop :=
  ∃ x y, dotX props = some x ∧ dotY props = some y ∧
    (∃ z, zones.filter (Zone.contains x y) = [z]) ∧ activeZoneTaste props ≠ none

/-- A shot lies in one zone as long as it is not at the right end of the ratio axis nor
at the bottom end of the time axis. The zones are half open, so that their common
borders belong to one of them, and at these two ends no zone is left. The numbers are
rationals, as they are before the chart's floats round them. -/
theorem inOneZone_iff {doseG yieldG timeSec : ℚ} {zoneBoundaries : Option ZoneBoundaries}
    (dosed : 0 < doseG)
    (ordered : (zoneBoundaries.getD defaultBoundaries).timeMin <
      (zoneBoundaries.getD defaultBoundaries).timeMax) :
    InOneZone ⟨some doseG, some yieldG, some timeSec, zoneBoundaries⟩ ↔
      yieldG / doseG < 3 ∧ (zoneBoundaries.getD defaultBoundaries).timeMin < timeSec := by
  set b := zoneBoundaries.getD defaultBoundaries with hb
  -- both axes clamp the value before they scale it
  have drawnX : dotX ⟨some doseG, some yieldG, some timeSec, zoneBoundaries⟩ =
      some (xScale (clamp ratioMin ratioMax (yieldG / doseG))) := by
    simp [dotX, ratio, dosed]
  have drawnY : dotY ⟨some doseG, some yieldG, some timeSec, zoneBoundaries⟩ =
      some (yScale b (clamp b.timeMin b.timeMax timeSec)) := rfl
  have columns := xScale_bounds (clamp_mem (yieldG / doseG) (show (1 : ℚ) ≤ 3 by norm_num)).1
  have rows := yScale_bounds ordered (clamp_mem timeSec ordered.le).2
  rw [clamp_lt_iff (by norm_num)] at columns
  rw [lt_clamp_iff ordered] at rows
  rw [← columns, ← rows]
  constructor
  · rintro ⟨x, y, hx, hy, one, _⟩
    rw [drawnX] at hx
    rw [drawnY] at hy
    cases hx
    cases hy
    exact one_zone_iff.mp one
  · intro inside
    obtain ⟨z, one⟩ := one_zone_iff.mpr inside
    refine ⟨_, _, drawnX, drawnY, ⟨z, one⟩, ?_⟩
    have here : z ∈ zones ∧ Zone.contains _ _ z = true :=
      List.mem_filter.mp (one ▸ List.mem_singleton_self z)
    -- the zone that is found first is the only one
    simp only [activeZoneTaste, drawnX, drawnY, ne_eq, Option.map_eq_none_iff]
    intro none
    exact List.find?_eq_none.mp none z here.1 here.2

namespace Sample

/-- 36 g out of 18 g in 30 s. -/
theorem classic_inOneZone : (36 : ℚ) / 18 < 3 ∧
    InOneZone ⟨some 18, some 36, some 30, none⟩ := by
  have short : (36 : ℚ) / 18 < 3 := by norm_num
  exact ⟨short, (inOneZone_iff (by norm_num) (by norm_num [defaultBoundaries])).mpr
    ⟨short, by norm_num [defaultBoundaries]⟩⟩

/-- 65 g out of 18 g: the dot is drawn at the right edge, in no zone. -/
theorem long_shot_in_no_zone : ¬ ∀ (doseG yieldG timeSec : ℚ) (zoneBoundaries : Option ZoneBoundaries),
    0 < doseG → 0 ≤ yieldG →
      (zoneBoundaries.getD defaultBoundaries).timeMin <
        (zoneBoundaries.getD defaultBoundaries).timeMax →
      InOneZone ⟨some doseG, some yieldG, some timeSec, zoneBoundaries⟩ := by
  intro always
  obtain ⟨x, y, hx, hy, _, found⟩ :=
    always 18 65 30 none (by norm_num) (by norm_num) (by norm_num [defaultBoundaries])
  have taste : activeZoneTaste ⟨some 18, some 65, some 30, none⟩ = none := by decide +kernel
  exact found taste

end Sample

end CompassChart

end EspressoLogs
