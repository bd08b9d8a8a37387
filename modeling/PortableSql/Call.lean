import PortableSql.Text.Blank
import PortableSql.Tree

/-!
# Function calls
-/

namespace PortableSql.Call

/-- A call without arguments; the name is trimmed and raised. -/
def named (name : String) : Call := ⟨String.ofList (Text.upper (Text.trim name.toList)), []⟩

def push (c : Call) (a : Argument) : Call := { c with arguments := c.arguments ++ [a] }

/-- An argument whose names are quoted. -/
def withNames (c : Call) (s : String) : Call := c.push (.names s)

def withValue (c : Call) (v : Value) : Call := c.push (.value v)

def withFragment (c : Call) (f : Fragment) : Call := c.push (.fragment f)

/-- A text that is asked to be a name becomes one; anything else is a value. -/
def withArgument (c : Call) (v : Value) (isName : Bool) : Call :=
  match v, isName with
  | .text s, true => c.withNames s
  | v, _ => c.withValue v

def count (s : String) : Call := (named "COUNT").withNames s

def sum (s : String) : Call := (named "SUM").withNames s

def avg (s : String) : Call := (named "AVG").withNames s

def min (s : String) : Call := (named "MIN").withNames s

def max (s : String) : Call := (named "MAX").withNames s

end PortableSql.Call
