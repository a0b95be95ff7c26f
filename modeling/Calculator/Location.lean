/-!
# Locations

Where a token or an expression stands in its request.  Columns count the bytes
of the UTF-8 text from one, and the end of a span belongs to it.
-/

namespace Calculator

/-- A line and a column, both counted from one. -/
structure Location where
  line : Nat
  column : Nat
  deriving DecidableEq

namespace Location

/-- The wording of a location. -/
def text (location : Location) : String :=
  s!"line {location.line}, column {location.column}"

end Location

/-- The range that a token or an expression covers.  A token that was put in
front of a request has no place in it. -/
inductive Span
  | unknown
  | between (start stop : Location)
  deriving DecidableEq

namespace Span

/-- The span of some columns of one line. -/
def columns (line first last : Nat) : Span :=
  .between ⟨line, first⟩ ⟨line, last⟩

/-- The span from the start of the first to the end of the second; an unknown
end leaves the other one alone. -/
def till : Span → Span → Span
  | .unknown, second => second
  | first, .unknown => first
  | .between start _, .between _ stop => .between start stop

@[simp] theorem till_unknown (span : Span) : span.till .unknown = span := by
  cases span <;> rfl

@[simp] theorem unknown_till (span : Span) : Span.unknown.till span = span :=
  rfl

/-- The wording of a span. -/
def text : Span → String
  | .unknown => "unknown location"
  | .between start stop =>
    if start = stop then start.text
    else s!"{start.text} till column {stop.column}"

end Span
end Calculator
