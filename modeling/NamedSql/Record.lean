import NamedSql.Value
import Std.Data.TreeMap

/-!
Values by name: what a row holds by column, or the keyword arguments of a query.
A name that is absent is unset, which differs from being set to null. Only the
last value of a name is kept, and the names are listed in code-point order.
-/
namespace NamedSql

structure Record where
  values : Std.TreeMap String Value := ∅

namespace Record

variable {record : Record} {name other : String} {value : Value}

instance : EmptyCollection Record := ⟨⟨∅⟩⟩

instance : Inhabited Record := ⟨∅⟩

def get? (record : Record) (name : String) : Option Value := record.values[name]?

def set (record : Record) (name : String) (value : Value) : Record :=
  ⟨record.values.insert name value⟩

def unset (record : Record) (name : String) : Record := ⟨record.values.erase name⟩

def isSet (record : Record) (name : String) : Bool := (record.get? name).isSome

/-- The value of a name unless it is unset or null. -/
def present? (record : Record) (name : String) : Option Value :=
  (record.get? name).filter fun value => !value.isNull

/-- Later pairs replace earlier ones of the same name. -/
def ofPairs (pairs : List (String × Value)) : Record :=
  pairs.foldl (fun record pair => record.set pair.1 pair.2) ∅

def toList (record : Record) : List (String × Value) := record.values.toList

/-- The same names with equal values. -/
instance : BEq Record := ⟨fun left right => left.toList == right.toList⟩

@[simp, grind =] theorem get?_empty : (∅ : Record).get? name = none :=
  Std.TreeMap.getElem?_emptyc

@[simp] theorem get?_set_self : (record.set name value).get? name = some value := by
  simp [get?, set]

@[grind =] theorem get?_set :
    (record.set name value).get? other =
      if name = other then some value else record.get? other := by
  simp [get?, set, Std.TreeMap.getElem?_insert]

@[grind =] theorem get?_unset :
    (record.unset name).get? other = if name = other then none else record.get? other := by
  simp [get?, unset, Std.TreeMap.getElem?_erase]

end Record

end NamedSql
