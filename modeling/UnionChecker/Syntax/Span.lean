/-!
# Source positions

A span is a range of bytes of a file together with the line and column it starts at. A tree that
was not read from a file has spans of zeros.
-/

namespace UnionChecker.Syntax

/-- Where a node stands in its file. -/
structure Span where
  /-- Offset of the first byte. -/
  start : Nat
  /-- Offset one past the last byte. -/
  stop : Nat
  /-- Line, counted from one. -/
  line : Nat
  /-- Column, counted from one. -/
  column : Nat
deriving DecidableEq, Repr

namespace Span

/-- The span of a node without a place in a file. -/
def zero : Span := ⟨0, 0, 0, 0⟩

/-- Number of bytes, zero when the span ends before it starts. -/
def length (s : Span) : Nat := s.stop - s.start

def isEmpty (s : Span) : Bool := s.start == s.stop

/-- Whether the line and column of `s` come no later than those of `t`. -/
def noLater (s t : Span) : Bool := s.line < t.line || (s.line == t.line && s.column ≤ t.column)

/-- The smallest range around both, at the earlier of the two positions. -/
def merge (s t : Span) : Span :=
  let first := if s.noLater t then s else t
  ⟨min s.start t.start, max s.stop t.stop, first.line, first.column⟩

end Span

end UnionChecker.Syntax
