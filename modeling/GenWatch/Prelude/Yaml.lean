import Mathlib.Data.Rat.Cast.Defs
import Mathlib.Data.Option.Basic

/-! # Documents without a schema

A document is a tree of scalars, sequences and mappings from text. A program that reads
one without a schema looks up keys, iterates and converts, and each of these can raise.
How the interpreter turns text into numbers and values into text is a parameter: nothing
that is proved about a loader depends on it.

A scalar can be the key of a dictionary. Keys are compared by value, so that a number and
a truth value may be one key.
-/

namespace GenWatch

inductive Yaml where
  | null
  | bool (b : Bool)
  | int (n : ℤ)
  | float (q : ℚ)
  | str (s : String)
  /-- a date or a time, in a spelling of its own -/
  | stamp (s : String)
  | seq (items : List Yaml)
  | map (entries : List (String × Yaml))

/-- What reading a document can raise. -/
inductive PyError where
  | keyError (key : String)
  | valueError
  | typeError
  | attributeError
  deriving DecidableEq, Repr

/-- The interpreter's conversions from and to text. -/
structure PyText where
  /-- what a value that is not text prints as -/
  str : Yaml → String
  int : String → Option ℤ
  /-- an integer in base 16, with its mark -/
  hex : String → Option ℤ
  float : String → Option ℚ
  lower : String → String
  strip : String → String

namespace Yaml

def truthy : Yaml → Bool
  | .null => false
  | .bool b => b
  | .int n => n ≠ 0
  | .float q => q ≠ 0
  | .str s => s ≠ ""
  | .stamp _ => true
  | .seq items => !items.isEmpty
  | .map entries => !entries.isEmpty

def orElse (v default : Yaml) : Yaml := if v.truthy then v else default

/-- The value under a key that may be missing; only a mapping can be asked. -/
def get? : Yaml → String → Except PyError (Option Yaml)
  | .map entries, key => .ok (entries.lookup key)
  | _, _ => .error .attributeError

def getD (v : Yaml) (key : String) (default : Yaml) : Except PyError Yaml :=
  (v.get? key).map (·.getD default)

def index : Yaml → String → Except PyError Yaml
  | .map entries, key =>
    match entries.lookup key with
    | some v => .ok v
    | none => .error (.keyError key)
  | _, _ => .error .typeError

/-- What an iteration goes through: items, characters or keys. -/
def iter : Yaml → Except PyError (List Yaml)
  | .seq items => .ok items
  | .str s => .ok (s.toList.map fun c => .str c.toString)
  | .map entries => .ok (entries.map fun e => .str e.1)
  | _ => .error .typeError

end Yaml

/-- A conversion from text that may fail. -/
def PyError.parsed {α : Type} : Option α → Except PyError α
  | some a => .ok a
  | none => .error .valueError

theorem ok_bind {ε α β : Type} (a : α) (f : α → Except ε β) : (Except.ok a >>= f) = f a := rfl

theorem bind_eq_ok {ε α β : Type} {x : Except ε α} {f : α → Except ε β} {b : β} :
    (x >>= f) = .ok b ↔ ∃ a, x = .ok a ∧ f a = .ok b := by
  cases x with
  | error e => exact ⟨by rintro ⟨⟩, by rintro ⟨_, ⟨⟩, _⟩⟩
  | ok a => exact ⟨fun h => ⟨a, rfl, h⟩, by rintro ⟨_, ⟨⟩, h⟩; exact h⟩

/-- A value that can be the key of a dictionary. -/
inductive Key where
  | null
  | num (q : ℚ)
  | text (s : String)
  | stamp (s : String)
  deriving DecidableEq, Repr

namespace Key

def truthy : Key → Bool
  | .null => false
  | .num q => q ≠ 0
  | .text s => s ≠ ""
  | .stamp _ => true

end Key

namespace Yaml

/-- The key that a value is; lists and dictionaries are none. -/
def key : Yaml → Except PyError Key
  | .null => .ok .null
  | .bool b => .ok (.num b.toInt)
  | .int n => .ok (.num n)
  | .float q => .ok (.num q)
  | .str s => .ok (.text s)
  | .stamp s => .ok (.stamp s)
  | .seq _ | .map _ => .error .typeError

/-- The values are equal to the program: scalars as keys, lists item by item, and dictionaries
under every key. -/
inductive Same : Yaml → Yaml → Prop
  | key {v w : Yaml} {k : Key} : v.key = .ok k → w.key = .ok k → Same v w
  | seq {xs ys : List Yaml} : List.Forall₂ Same xs ys → Same (.seq xs) (.seq ys)
  | map {d e : List (String × Yaml)} :
      (∀ k, Option.Rel Same (d.lookup k) (e.lookup k)) → Same (.map d) (.map e)

variable {v w : Yaml} {k k' : Key}

theorem key_error {e : PyError} (h : v.key = .error e) : e = .typeError := by
  cases v <;> cases h <;> rfl

theorem same_iff_of_key (hv : v.key = .ok k) (hw : w.key = .ok k') : v.Same w ↔ k = k' := by
  constructor
  · intro h
    cases h with
    | key hv' hw' =>
      obtain rfl := Except.ok.inj (hv.symm.trans hv')
      exact Except.ok.inj (hw'.symm.trans hw)
    | seq h => cases hv
    | map h => cases hv
  · rintro rfl
    exact .key hv hw

end Yaml

end GenWatch
