import PortableSql.Call
import PortableSql.Delete
import PortableSql.Insert
import PortableSql.Select
import PortableSql.Update

/-!
# Statements

A statement is compiled with the dialect bound to it, to SQL that holds its values or to SQL with
markers and the values beside it.
-/

namespace PortableSql

inductive Statement where
  | select (s : Select)
  | insert (i : Insert)
  | update (u : Update)
  | delete (x : Delete)

namespace Statement

def kind : Statement → String
  | select _ => "select"
  | insert _ => "insert"
  | update _ => "update"
  | delete _ => "delete"

def dialect : Statement → Option Dialect
  | select s => s.dialect
  | insert i => i.dialect
  | update u => u.dialect
  | delete x => x.dialect

def render (d : Dialect) : Statement → Render String
  | select s => s.render d
  | insert i => i.render d
  | update u => u.render d
  | delete x => x.render d

/-- Self-contained SQL. -/
def compile (s : Statement) : Except Error String :=
  match s.dialect with
  | none => .error .unbound
  | some d => (s.render d).inline

/-- SQL with markers. The values are added to the parameters, which are emptied first on request;
a statement without a dialect leaves them alone. -/
def compileWith (s : Statement) (ps : Parameters) (reset : Bool) :
    Except Error String × Parameters :=
  match s.dialect with
  | none => (.error .unbound, ps)
  | some d => (s.render d).bound d (ps.start reset)

end Statement

/-! ## Starting points -/

namespace Dialect

def select (d : Dialect) : Select := Select.empty.bind d

def insert (d : Dialect) : Insert := Insert.empty.bind d

def update (d : Dialect) : Update := Update.empty.bind d

def delete (d : Dialect) : Delete := Delete.empty.bind d

end Dialect

def Select.ofTable (name : String) : Select := Select.empty.fromTable name

def Insert.ofTable (name : String) : Insert := Insert.empty.intoTable name

def Update.ofTable (name : String) : Update := Update.empty.setTable name

def Delete.ofTable (name : String) : Delete := Delete.empty.fromTable name

end PortableSql
