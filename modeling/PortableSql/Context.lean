import PortableSql.Error
import PortableSql.Parameters

/-!
# Contexts

A statement is rendered step by step, and all steps share one context: the parameters, where values
are bound, or nothing, where they are written as literals. Only a value looks at the context, so the
two ways of compiling a statement part at its values and nowhere else.
-/

namespace PortableSql

/-- A step of rendering gives a result or stops. What was bound before it stopped stays bound. -/
abbrev Render := EStateM Error (Option Parameters)

namespace Render

/-- A value: the marker of a new parameter, or a literal where nothing is bound. -/
def value (d : Dialect) (label : String) (v : Value) : Render String := do
  match ← get with
  | some ps =>
    let qs := ps.bind label v
    set (some qs)
    return d.marker (ps.nextName label) qs.size
  | none => return d.literal v

/-- Self-contained SQL. -/
def inline (x : Render String) : Except Error String :=
  match x.run none with
  | .ok s _ => .ok s
  | .error e _ => .error e

/-- SQL with markers, and the parameters afterwards. A dialect without markers binds nothing. -/
def bound (d : Dialect) (x : Render String) (ps : Parameters) : Except Error String × Parameters :=
  match x.run (if d.binds then some ps else none) with
  | .ok s c => (.ok s, c.getD ps)
  | .error e c => (.error e, c.getD ps)

end Render

end PortableSql
