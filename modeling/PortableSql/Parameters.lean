import PortableSql.Dialect.Literal

/-!
# Parameters

The values bound by the statements compiled so far, in the order of their markers. Names come from
one counter, so statements built apart and compiled into the same parameters do not share names.
-/

namespace PortableSql

/-- The clauses that bind values. -/
inductive Clause where
  | filter
  | having
  | insert
  | update
  | function
  deriving DecidableEq, Repr

/-- The word that the names of a clause's parameters start with. -/
def Clause.label : Clause → String
  | filter => "where"
  | having => "having"
  | insert => "insert"
  | update => "update"
  | function => "function"

structure Parameters where
  entries : List (String × Value)
  /-- The number of names given out. -/
  counter : Nat

namespace Parameters

def empty : Parameters := ⟨[], 0⟩

/-- What a compilation starts from. -/
def start (ps : Parameters) (reset : Bool) : Parameters := if reset then empty else ps

def size (ps : Parameters) : Nat := ps.entries.length

def names (ps : Parameters) : List String := ps.entries.map Prod.fst

def get? (ps : Parameters) (name : String) : Option Value :=
  (ps.entries.find? fun e => e.1 == name).map Prod.snd

/-- Stores a value under a name, in its old place when the name is taken. -/
def put (name : String) (v : Value) : List (String × Value) → List (String × Value)
  | [] => [(name, v)]
  | (k, w) :: es => if k = name then (k, v) :: es else (k, w) :: put name v es

/-- A new name comes last. -/
theorem put_of_notMem {name : String} {es : List (String × Value)} (v : Value)
    (h : name ∉ es.map Prod.fst) : put name v es = es ++ [(name, v)] := by
  induction es with
  | nil => rfl
  | cons e es ih =>
    obtain ⟨k, w⟩ := e
    simp only [List.map_cons, List.mem_cons, not_or] at h
    simp [put, Ne.symm h.1, ih h.2]

/-- A name that is taken keeps its place. -/
theorem map_fst_put_of_mem {name : String} {es : List (String × Value)} (v : Value)
    (h : name ∈ es.map Prod.fst) : (put name v es).map Prod.fst = es.map Prod.fst := by
  induction es with
  | nil => simp at h
  | cons e es ih =>
    obtain ⟨k, w⟩ := e
    by_cases hk : k = name
    · simp [put, hk]
    · simp only [List.map_cons, List.mem_cons] at h
      simp [put, hk, ih (h.resolve_left (Ne.symm hk))]

/-- The name that a label gets next. -/
def nextName (ps : Parameters) (label : String) : String := label ++ toString (ps.counter + 1)

/-- Gives the value the next name of `label`; its position is counted from one. -/
def bind (ps : Parameters) (label : String) (v : Value) : Parameters :=
  ⟨put (ps.nextName label) v ps.entries, ps.counter + 1⟩

/-- The value just bound is found under its name. -/
theorem get?_bind (ps : Parameters) (label : String) (v : Value) :
    (ps.bind label v).get? (ps.nextName label) = some v := by
  unfold get? bind
  induction ps.entries with
  | nil => simp [put]
  | cons e es ih =>
    obtain ⟨k, w⟩ := e
    by_cases hk : k = ps.nextName label
    · simp [put, hk]
    · simpa [put, hk, List.find?_cons] using ih

/-- Equal counters and the same value under each name, in any order. -/
def same (ps qs : Parameters) : Bool :=
  ps.counter == qs.counter && ps.size == qs.size &&
    ps.entries.all fun (k, v) =>
      match qs.get? k with
      | some w => v.same w
      | none => false

/-- An object with a member for each parameter, in order. -/
def toJson (ps : Parameters) : Json := .object (ps.entries.map fun (k, v) => (k, v.toJson))

end Parameters

end PortableSql
