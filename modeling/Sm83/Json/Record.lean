import Sm83.Json.Value

/-!
Readers for the parts of JSON values: numbers within a limit, texts, tuples and records.
-/
namespace Sm83.Json.Value

def below? (limit : Nat) : Value → Option Nat
  | .number (.natural n) => if n < limit then some n else none
  | _ => none

def byte? (v : Value) : Option UInt8 := (v.below? 0x100).map UInt8.ofNat

def word? (v : Value) : Option UInt16 := (v.below? 0x10000).map UInt16.ofNat

def string? : Value → Option String
  | .string s => (text? s).map String.ofList
  | _ => none

def array? : Value → Option (List Value)
  | .array items => some items
  | _ => none

def list? {α : Type} (read : Value → Option α) (v : Value) : Option (List α) :=
  v.array?.bind (List.mapM read)

def optional? {α : Type} (read : Value → Option α) : Value → Option (Option α)
  | .null => some none
  | v => (read v).map some

/-- The fields of a record. It is written as an object, in which none of the names may stand twice
and others do not matter, or as the list of its fields in their order. -/
def record? (names : List String) : Value → Option (List (String × Value))
  | .array items => if items.length = names.length then some (names.zip items) else none
  | .object fields => do
    let named ← fields.mapM fun (key,v) => (text? key).map fun key => (String.ofList key,v)
    let known := named.filter fun (key,_) => names.contains key
    if (known.map Prod.fst).Nodup then some known else none
  | _ => none

def record (fields : List (String × Value)) : Value := .object (fields.map fun (name,v) => (pieces name,v))

def byte (b : UInt8) : Value := natural b.toNat

def word (w : UInt16) : Value := natural w.toNat

end Sm83.Json.Value
