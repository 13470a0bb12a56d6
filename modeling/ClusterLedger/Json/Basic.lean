import ClusterLedger.Decimal.Shortest
import ClusterLedger.Dict

/-!
# JSON values

A `Json` lists the members of its objects in the order they were written. `canonical` is the value
in which every object has its members in increasing order of their keys, each key once.
-/
namespace ClusterLedger

open Decimal (Binary64)

/-- A JSON number: an integer of 64 bits, with or without a sign, or a floating-point number. -/
inductive Json.Number where
  | int (value : Int)
  | float (value : Binary64)
  deriving DecidableEq, Repr

/-- A JSON text without its spelling. -/
inductive Json where
  | null
  | bool (value : Bool)
  | number (value : Json.Number)
  | string (value : String)
  | array (items : List Json)
  | object (members : List (String × Json))
  deriving Repr, Inhabited

/-- What brackets stand around: the items of an array, or the members of an object. -/
inductive Json.Bracket where
  | array
  | object
  deriving DecidableEq, Repr

namespace Json

/-! ## Equality -/

mutual
def decEq : (a b : Json) → Decidable (a = b)
  | null, null => isTrue rfl
  | bool a, bool b => decidable_of_iff (a = b) (by simp)
  | number a, number b => decidable_of_iff (a = b) (by simp)
  | string a, string b => decidable_of_iff (a = b) (by simp)
  | array a, array b => match decEqItems a b with
    | isTrue h => isTrue (h ▸ rfl)
    | isFalse h => isFalse fun e => h (by injection e)
  | object a, object b => match decEqMembers a b with
    | isTrue h => isTrue (h ▸ rfl)
    | isFalse h => isFalse fun e => h (by injection e)
  | null, bool _ | null, number _ | null, string _ | null, array _ | null, object _
  | bool _, null | bool _, number _ | bool _, string _ | bool _, array _ | bool _, object _
  | number _, null | number _, bool _ | number _, string _ | number _, array _ | number _, object _
  | string _, null | string _, bool _ | string _, number _ | string _, array _ | string _, object _
  | array _, null | array _, bool _ | array _, number _ | array _, string _ | array _, object _
  | object _, null | object _, bool _ | object _, number _ | object _, string _ | object _, array _ =>
    isFalse Json.noConfusion

def decEqItems : (a b : List Json) → Decidable (a = b)
  | [], [] => isTrue rfl
  | [], _ :: _ | _ :: _, [] => isFalse nofun
  | x :: xs, y :: ys => match decEq x y, decEqItems xs ys with
    | isTrue h, isTrue hs => isTrue (h ▸ hs ▸ rfl)
    | isFalse h, _ => isFalse fun e => h (by injection e)
    | _, isFalse h => isFalse fun e => h (by injection e)

def decEqMembers : (a b : List (String × Json)) → Decidable (a = b)
  | [], [] => isTrue rfl
  | [], _ :: _ | _ :: _, [] => isFalse nofun
  | (j, x) :: xs, (k, y) :: ys => match decEq x y, decEqMembers xs ys with
    | isTrue h, isTrue hs => decidable_of_iff (j = k) (by subst h hs; simp)
    | isFalse h, _ => isFalse fun e => h (by simp at e; exact e.1.2)
    | _, isFalse h => isFalse fun e => h (by simp at e; exact e.2)
end

instance : DecidableEq Json := decEq

/-! ## The canonical value -/

mutual
/-- Every object sorted by key; of a repeated key the last value stays. -/
def canonical : Json → Json
  | array items => array (canonicalItems items)
  | object members => object (Dict.ofList (canonicalMembers members)).toList
  | null => null
  | bool b => bool b
  | number n => number n
  | string s => string s

def canonicalItems : List Json → List Json
  | [] => []
  | v :: rest => v.canonical :: canonicalItems rest

def canonicalMembers : List (String × Json) → List (String × Json)
  | [] => []
  | (k, v) :: rest => (k, v.canonical) :: canonicalMembers rest
end

mutual
/-- Every object, at any depth, has its keys in strictly increasing order. -/
def Ordered : Json → Prop
  | array items => OrderedItems items
  | object members => Entries.Sorted members ∧ OrderedMembers members
  | null | bool _ | number _ | string _ => True

def OrderedItems : List Json → Prop
  | [] => True
  | v :: rest => v.Ordered ∧ OrderedItems rest

def OrderedMembers : List (String × Json) → Prop
  | [] => True
  | (_, v) :: rest => v.Ordered ∧ OrderedMembers rest
end

mutual
/-- How many arrays and objects stand inside each other. -/
def depth : Json → Nat
  | array items => depthItems items + 1
  | object members => depthMembers members + 1
  | null | bool _ | number _ | string _ => 0

def depthItems : List Json → Nat
  | [] => 0
  | v :: rest => max v.depth (depthItems rest)

def depthMembers : List (String × Json) → Nat
  | [] => 0
  | (_, v) :: rest => max v.depth (depthMembers rest)
end

/-! ## Views -/

/-- The text of a string. -/
def text? : Json → Option String
  | string s => some s
  | _ => none

/-- The members of an object as a map. -/
def fields? : Json → Option (Dict Json)
  | object members => some (Dict.ofList members)
  | _ => none

/-- The object with the entries of a map as members. -/
def ofFields (fields : Dict Json) : Json :=
  object fields.toList

/-- A natural number. -/
def ofNat (n : Nat) : Json :=
  number (.int n)

end Json

end ClusterLedger
