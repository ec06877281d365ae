import HellohqRuntime.Foundation.Strings
import Mathlib.Data.List.Induction

/-!
# JSON values

A document as a tree.  The members of an object stand in the order of their names,
each name once, which is how a map that is sorted by its keys keeps them.  The
accessors are `none` on a value of another kind.
-/

namespace HellohqRuntime.Foundation.Json

open HellohqRuntime.Foundation.Strings

/-- A number: an integer of 64 bits, or the bits of a double. -/
inductive Number where
  | posInt (n : UInt64)
  | negInt (n : Int64)
  | float (bits : UInt64)
  deriving DecidableEq, Repr

inductive Value where
  | null
  | bool (b : Bool)
  | number (n : Number)
  | string (text : Text)
  | array (items : List Value)
  | object (members : List (Text × Value))

/-- Put a member in its place, over an older one of the same name. -/
def insertMember (name : Text) (value : Value) : List (Text × Value) → List (Text × Value)
  | [] => [(name, value)]
  | (other, old) :: rest =>
      if name = other then (name, value) :: rest
      else if name.lex other fun left right => decide (left.toNat < right.toNat) then
        (name, value) :: (other, old) :: rest
      else (other, old) :: insertMember name value rest

/-- The object with these members, the later ones over the earlier ones. -/
def jsonObject (members : List (Text × Value)) : Value :=
  .object (members.foldl (fun sorted member => insertMember member.1 member.2 sorted) [])

namespace Value

def asBool : Value → Option Bool
  | bool b => some b
  | _ => none

def asStr : Value → Option Text
  | string text => some text
  | _ => none

def asArray : Value → Option (List Value)
  | array items => some items
  | _ => none

/-- An integer that is not negative. -/
def asU64 : Value → Option UInt64
  | number (.posInt n) => some n
  | _ => none

/-- A number as a double, rounded where it is an integer of more than 53 bits. -/
def asF64 : Value → Option Float
  | number (.posInt n) => some n.toFloat
  | number (.negInt n) => some (.ofModel (.ofInt64 n))
  | number (.float bits) => some (Float.ofBits bits)
  | _ => none

/-- A double as a value: there is no number for one that is not finite. -/
def ofF64 (x : Float) : Value :=
  if x.isFinite then number (.float x.toBits) else null

/-- The member of an object. -/
def get (value : Value) (name : Text) : Option Value :=
  match value with
  | object members => members.lookup name
  | _ => none

end Value

/-! ## Members -/

theorem lookup_cons_eq_ite (asked name : Text) (value : Value) (members : List (Text × Value)) :
    ((name, value) :: members).lookup asked =
      if asked = name then some value else members.lookup asked := by
  by_cases hasked : asked = name
  · rw [if_pos hasked, hasked, List.lookup_cons_self]
  · rw [if_neg hasked, List.lookup_cons, beq_false_of_ne hasked]

theorem lookup_insertMember (name asked : Text) (value : Value) (members : List (Text × Value)) :
    (insertMember name value members).lookup asked =
      if asked = name then some value else members.lookup asked := by
  induction members with
  | nil => exact lookup_cons_eq_ite asked name value []
  | cons member rest ih =>
      obtain ⟨other, old⟩ := member
      rw [insertMember, lookup_cons_eq_ite]
      by_cases hname : name = other
      · rw [if_pos hname, lookup_cons_eq_ite, ← hname]
        by_cases hasked : asked = name
        · rw [if_pos hasked, if_pos hasked]
        · rw [if_neg hasked, if_neg hasked, if_neg hasked]
      · rw [if_neg hname]
        by_cases hbefore : (name.lex other fun left right => decide (left.toNat < right.toNat)) = true
        · rw [if_pos hbefore, lookup_cons_eq_ite, lookup_cons_eq_ite]
        · rw [if_neg hbefore, lookup_cons_eq_ite, ih]
          by_cases hasked : asked = other
          · rw [if_pos hasked, if_neg fun heq => hname (heq.symm.trans hasked), if_pos hasked]
          · rw [if_neg hasked, if_neg hasked]

/-- A member of a literal object is the last one of its name. -/
theorem get_jsonObject (members : List (Text × Value)) (name : Text) :
    (jsonObject members).get name = members.reverse.lookup name := by
  change (members.foldl (fun sorted member => insertMember member.1 member.2 sorted) []).lookup
    name = _
  induction members using List.reverseRecOn with
  | nil => rfl
  | append_singleton members member ih =>
      rw [List.foldl_append, List.foldl_cons, List.foldl_nil, lookup_insertMember, ih,
        List.reverse_append, List.reverse_singleton, List.singleton_append, lookup_cons_eq_ite]

end HellohqRuntime.Foundation.Json
