import ContainerArgs.Flag.Value

/-!
# Rendering values

A value in a plain position is left out when it is zero.  The content of a
present optional value is rendered even when it is zero, but a list in such a
position still leaves out its own zero elements.  An optional value directly
inside another one is not rendered at all.
-/

namespace ContainerArgs.Flag

/-- The position of a value: in a field or a list, on its own, or inside a
present optional value. -/
inductive Position where
  | plain
  | explicit
  | pointee
deriving DecidableEq, Repr

namespace Value

/-- Whether the value is the zero of its type.  A present value never is. -/
def isZero : Value → Bool
  | .leaf l => l.isZero
  | .list elements => elements.isEmpty
  | .absent => true
  | .present _ => false
  | .wrapped _ v => v.isZero

mutual

/-- The value rendered in a position under a tag. -/
def render (tag : Tag) : Position → Value → Rendering
  | position, .leaf l =>
    if position = .plain ∧ l.isZero then .empty else l.render tag
  | _, .list elements => renderElements tag elements
  | .pointee, .absent => .note (.nestedOptional tag.name)
  | .pointee, .present _ => .note (.nestedOptional tag.name)
  | _, .absent => .empty
  | _, .present v => render tag .pointee v
  | position, .wrapped _ v => render tag position v

/-- The elements of a list rendered in plain positions, one after another. -/
def renderElements (tag : Tag) : List Value → Rendering
  | [] => .empty
  | v :: vs => render tag .plain v ++ renderElements tag vs

end

theorem render_wrapped
    (tag : Tag) (position : Position) (w : Wrapper) (v : Value) :
    (Value.wrapped w v).render tag position = v.render tag position := by
  cases position <;> simp [render]

/-- On its own, a value is left out when it is zero and otherwise rendered as if
it were asked for. -/
theorem render_plain (tag : Tag) : (v : Value) →
    v.render tag .plain = if v.isZero then .empty else v.render tag .explicit
  | .leaf l => by
    by_cases h : l.isZero <;> simp [render, isZero, h]
  | .list [] => by
    simp [render, renderElements, isZero]
  | .list (v :: vs) => by
    simp [render, isZero]
  | .absent => by
    simp [render, isZero]
  | .present v => by
    simp [render, isZero]
  | .wrapped w v => by
    rw [render_wrapped, render_wrapped, render_plain tag v, isZero]

end Value

end ContainerArgs.Flag
