import PortableSql.Text.Blank
import PortableSql.Tree

/-!
# Joins and columns

Both may have an alias, and a nested select must have one. A blank alias is none.
-/

namespace PortableSql

/-- The alias a text gives. -/
def alias? (s : String) : Option String := if Text.isBlankText s then none else some s

/-- The kind of a spelling, in any case, with an optional `OUTER` where it is usual. -/
def JoinKind.ofText (s : String) : Except Error JoinKind :=
  match (Text.words s.toList).map fun w => String.ofList (Text.upper w) with
  | ["INNER"] => .ok .inner
  | ["LEFT"] | ["LEFT", "OUTER"] => .ok .left
  | ["RIGHT"] | ["RIGHT", "OUTER"] => .ok .right
  | ["FULL"] | ["FULL", "OUTER"] => .ok .full
  | ["CROSS"] => .ok .cross
  | _ => .error (.unknownJoinKind s)

namespace Join

def table (kind : JoinKind) (name : String) : Join := ⟨kind, .table name, none, []⟩

def query (kind : JoinKind) (select : Select) (asName : String) : Except Error Join :=
  match alias? asName with
  | none => .error (.missingAlias .join)
  | some a => .ok ⟨kind, .query select, some a, []⟩

/-- Sets the alias; a blank one removes it. -/
def named (j : Join) (asName : String) : Join := { j with asName := alias? asName }

def onCondition (j : Join) (e : Expr) : Join := { j with conditions := j.conditions ++ [e] }

end Join

namespace Column

def names (s : String) : Column := ⟨.names s, none⟩

def fragment (f : Fragment) : Column := ⟨.fragment f, none⟩

def query (select : Select) (asName : String) : Except Error Column :=
  match alias? asName with
  | none => .error (.missingAlias .column)
  | some a => .ok ⟨.query select, some a⟩

/-- Sets the alias; a blank one removes it. -/
def named (c : Column) (asName : String) : Column := { c with asName := alias? asName }

end Column

end PortableSql
