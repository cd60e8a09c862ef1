import TreeLint.Source.Span
import TreeLint.Value.Numeral

/-!
# Extents

Where a finding lies. The span of a node is one kind of extent, but a rule may put other values in
the place of coordinates: any value that can be looked up for a line or a column, and any number for
an offset. Extents are the same when their numbers stand for the same amounts.
-/

set_option autoImplicit false

namespace TreeLint

/-- A line or a column, given what numbers there are. -/
inductive Coordinate (ν : Type) where
  | null
  | number (value : ν)
  /-- A NaN equals itself only; the tag tells which one it is. -/
  | nan (tag : Nat)
  | text (value : String)
  deriving DecidableEq

structure Spot (ν : Type) where
  line : Coordinate ν
  column : Coordinate ν
  offset : ν
  deriving DecidableEq

structure Extent (ν : Type) where
  start : Spot ν
  stop : Spot ν
  deriving DecidableEq

namespace Coordinate

def map {ν μ : Type} (measure : ν → μ) : Coordinate ν → Coordinate μ
  | null => null
  | number value => number (measure value)
  | nan tag => nan tag
  | text value => text value

def toValue : Coordinate Numeral → Value
  | null => .null
  | number value => value.toValue
  | nan _ => .real .nan
  | text value => .text value

end Coordinate

namespace Spot

def map {ν μ : Type} (measure : ν → μ) (spot : Spot ν) : Spot μ :=
  ⟨spot.line.map measure, spot.column.map measure, measure spot.offset⟩

def ofPosition (position : Position) : Spot Numeral :=
  ⟨.number (.integer position.line), .number (.integer position.column), .integer position.offset⟩

def toValue (spot : Spot Numeral) : Value :=
  .object [("line", spot.line.toValue), ("column", spot.column.toValue),
    ("offset", spot.offset.toValue)]

end Spot

namespace Extent

def map {ν μ : Type} (measure : ν → μ) (extent : Extent ν) : Extent μ :=
  ⟨extent.start.map measure, extent.stop.map measure⟩

def ofSpan (span : Span) : Extent Numeral :=
  ⟨.ofPosition span.start, .ofPosition span.stop⟩

def label (extent : Extent Numeral) : String :=
  extent.start.line.toValue.display ++ ":" ++ extent.start.column.toValue.display

def toValue (extent : Extent Numeral) : Value :=
  .object [("start", extent.start.toValue), ("end", extent.stop.toValue)]

end Extent

/-- Whether an extent lies within a span. Lines and columns play no part. -/
def Span.encloses (span : Span) (extent : Extent Numeral) : Bool :=
  .ofInt span.start.offset ≤ extent.start.offset.amount &&
    extent.stop.offset.amount ≤ .ofInt span.stop.offset

theorem Span.encloses_iff {span : Span} {extent : Extent Numeral} :
    span.encloses extent = true ↔
      .ofInt span.start.offset ≤ extent.start.offset.amount ∧
        extent.stop.offset.amount ≤ .ofInt span.stop.offset := by
  simp [encloses]

end TreeLint
