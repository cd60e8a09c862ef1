import TreeLint.Source.Position

/-!
# Spans

A stretch of a source text, from its start up to but not including its end, measured in offsets.
-/

set_option autoImplicit false

namespace TreeLint

/-- A stretch of a source text. Spans are ordered by start, then end. -/
structure Span where
  start : Position
  stop : Position
  ordered : start.offset ≤ stop.offset
  deriving DecidableEq

namespace Span

instance : Ord Span where
  compare left right := (compare left.start right.start).then (compare left.stop right.stop)

def between (start stop : Position) : Except LocationError Span :=
  if ordered : start.offset ≤ stop.offset then .ok ⟨start, stop, ordered⟩
  else .error (.reversed start.offset stop.offset)

def positionAt (members : Members) (key : String) : Except LocationError Position :=
  match members.get? key with
  | some value => Position.ofValue value
  | none => .error (.missing key)

/-- Reads a span from the members `start` and `end`. -/
def ofValue : Value → Except LocationError Span
  | .object members => do
      let start ← positionAt members "start"
      let stop ← positionAt members "end"
      between start stop
  | other => .error (.notSpan other)

/-- Whether `inner` lies within `outer`. Lines and columns play no part. -/
def contains (outer inner : Span) : Bool :=
  outer.start.offset ≤ inner.start.offset && inner.stop.offset ≤ outer.stop.offset

theorem contains_iff {outer inner : Span} :
    outer.contains inner = true ↔
      outer.start.offset ≤ inner.start.offset ∧ inner.stop.offset ≤ outer.stop.offset := by
  simp [contains]

theorem contains_trans {outer middle inner : Span} (around : outer.contains middle = true)
    (within : middle.contains inner = true) : outer.contains inner = true := by
  rw [contains_iff] at around within ⊢
  exact ⟨Int.le_trans around.1 within.1, Int.le_trans within.2 around.2⟩

def label (span : Span) : String :=
  toString span.start.line ++ ":" ++ toString span.start.column

def isWritable (span : Span) : Bool :=
  Number.isWritable span.start.line && Number.isWritable span.start.column

def toValue (span : Span) : Value :=
  .object [("start", span.start.toValue), ("end", span.stop.toValue)]

end Span

end TreeLint
