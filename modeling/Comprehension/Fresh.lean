import Comprehension.Error

/-!
Fresh names. One supply serves a whole compilation, so aliases and table keys never repeat.
-/
namespace Comprehension

/-- How many aliases of each stem, and how many table keys, have been handed out. -/
structure Fresh where
  counts : List (String × Nat) := []
  nextKey : Nat := 0
deriving DecidableEq, Repr

namespace Fresh

def count (f : Fresh) (stem : String) : Nat := (f.counts.lookup stem).getD 0

/-- Counts one more alias of a stem. -/
def bump (stem : String) : List (String × Nat) → List (String × Nat)
  | [] => [(stem, 1)]
  | (s, n) :: rest => if s = stem then (s, n + 1) :: rest else (s, n) :: bump stem rest

/-- The next alias of a stem: the stem and a number from zero on. -/
def named (stem : String) (f : Fresh) : String × Fresh :=
  (stem ++ toString (f.count stem), { f with counts := bump stem f.counts })

def key (f : Fresh) : Nat × Fresh := (f.nextKey, { f with nextKey := f.nextKey + 1 })

end Fresh

/-- Computations that may fail and that draw fresh names. -/
abbrev Supply := StateT Fresh (Except Error)

namespace Supply

def freshAlias (stem : String) : Supply String := modifyGet (Fresh.named stem)

def freshKey : Supply Nat := modifyGet Fresh.key

end Supply

end Comprehension
