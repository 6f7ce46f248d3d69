import TemplateLexer.Numeral.Binary64

/-! The shortest decimal that reads back as a given binary64 number. Candidates lie on grids: those
of grid `j` are the multiples of `10 ^ (j - leastExponent)`. The first grid, from the coarsest on,
with a candidate beside the number that reads back wins; grid 0 holds every finite number itself. -/
namespace TemplateLexer

/-- Of the two points around a number the accepted one; where both are, the nearer one. -/
def chooseAccepted (accepted : Decimal → Bool) (below above : Decimal) (belowIsNearer : Bool) :
    Option Decimal :=
  match accepted below, accepted above with
  | true, true => some (if belowIsNearer then below else above)
  | true, false => some below
  | false, true => some above
  | false, false => none

theorem accepted_of_chooseAccepted {accepted : Decimal → Bool} {below above d : Decimal}
    {belowIsNearer : Bool} (h : chooseAccepted accepted below above belowIsNearer = some d) :
    accepted d = true := by
  unfold chooseAccepted at h
  split at h
  · next hb ha => cases h; split <;> assumption
  · next hb _ => cases h; exact hb
  · next _ ha => cases h; exact ha
  · cases h

/-- The first answer on the grids from `j` down to 1, or else `last`. -/
def firstOnGrids (pick? : Nat → Option Decimal) (last : Decimal) : Nat → Decimal
  | 0 => last
  | j + 1 => (pick? (j + 1)).getD (firstOnGrids pick? last j)

theorem firstOnGrids_induction {p : Decimal → Prop} {pick? : Nat → Option Decimal}
    {last : Decimal} (hpick : ∀ j d, pick? j = some d → p d) (hlast : p last) (j : Nat) :
    p (firstOnGrids pick? last j) := by
  induction j with
  | zero => exact hlast
  | succ j ih =>
    unfold firstOnGrids
    cases h : pick? (j + 1) with
    | none => exact ih
    | some d => exact hpick _ d h

namespace Binary64

def fineUnits (magnitude : Nat) : Nat := units magnitude * Nat.pow 5 leastExponent

def gridPoint (j index : Nat) : Decimal :=
  ⟨index * Decimal.tenTo (j - leastExponent), leastExponent - j⟩

def readsBack (magnitude : Nat) (d : Decimal) : Bool := magnitudeOfDecimal d == magnitude

/-- Halfway between the two points of grid `j` the upper one is taken. -/
def pickOn? (magnitude j : Nat) : Option Decimal :=
  let value := fineUnits magnitude
  let step := Decimal.tenTo j
  let index := value / step
  chooseAccepted (readsBack magnitude) (gridPoint j index) (gridPoint j (index + 1))
    (decide (2 * (value % step) < step))

/-- A grid so coarse that the number lies before its first point: `30103 / 100000` is more than the
decimal logarithm of 2. -/
def coarsest (magnitude : Nat) : Nat := ((fineUnits magnitude).log2 + 1) * 30103 / 100000 + 1

def shortest (magnitude : Nat) : Decimal :=
  if magnitude = 0 then ⟨0, 0⟩
  else firstOnGrids (pickOn? magnitude) (gridPoint 0 (fineUnits magnitude)) (coarsest magnitude)

/-- A zero keeps its sign. What is no number has no sign. -/
def text (x : Binary64) : List Char :=
  if x.isNaN then "NaN".toList
  else
    let unsigned := if x.isInfinite then "inf".toList else (shortest x.magnitude).text
    if x.negative then '-' :: unsigned else unsigned

end Binary64

end TemplateLexer
