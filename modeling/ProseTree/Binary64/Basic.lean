namespace ProseTree

/-! Floating-point numbers of 64 bits as exact data.

A finite magnitude is known by its *rank*, its place in the ascending list of all
finite magnitudes, zero first.  Neighbouring magnitudes have neighbouring ranks, so
rounding is a computation on ranks.  Every magnitude is a whole number of *units* of
2 ^ -1074, the smallest one above zero, which keeps the arithmetic in the natural
numbers: every operation is done exactly in units and rounded once, to the nearest number
and to the even rank when two are equally near. -/

attribute [local instance (high)] instPowNat

inductive Binary64 where
  | finite (negative : Bool) (rank : Nat) (bounded : rank < 2047 * 2 ^ (52 : Nat))
  | infinite (negative : Bool)
  | nan
deriving DecidableEq

namespace Binary64

/-- The number of finite magnitudes: 2 ^ 52 of them for each of 2047 exponents. -/
def rankLimit : Nat := 2047 * 2 ^ (52 : Nat)

/-- How many units make one. -/
def one : Nat := 2 ^ (1074 : Nat)

/-- The magnitude of a rank, in units.  The first 2 ^ 52 ranks count single units;
from there each block of 2 ^ 52 ranks covers the numbers up to the next power of two. -/
def unitsOf (rank : Nat) : Nat :=
  if rank < 2 ^ (52 : Nat) then rank
  else (2 ^ (52 : Nat) + rank % 2 ^ (52 : Nat)) * 2 ^ (rank / 2 ^ (52 : Nat) - 1)

/-- The number of the given sign and rank; a rank past the last one is infinite. -/
def ofRank (negative : Bool) (rank : Nat) : Binary64 :=
  if bounded : rank < 2047 * 2 ^ (52 : Nat) then .finite negative rank bounded
  else .infinite negative

/-- Reads the interchange encoding: a sign bit above 63 bits that hold the rank of a
finite magnitude, the limit for infinity, and more than that for no number at all. -/
def ofBits (bits : Nat) : Binary64 :=
  let negative := 2 ^ (63 : Nat) ≤ bits
  let payload := bits % 2 ^ (63 : Nat)
  if rankLimit < payload then .nan else ofRank negative payload

def isFinite : Binary64 → Bool
  | .finite .. => true
  | _ => false

def isZero : Binary64 → Bool
  | .finite _ rank _ => rank == 0
  | _ => false

def neg : Binary64 → Binary64
  | .finite negative rank bounded => .finite (!negative) rank bounded
  | .infinite negative => .infinite (!negative)
  | .nan => .nan

/-- The whole number nearest to `num / den`, a tie going to the even one. -/
def roundHalfEven (num den : Nat) : Nat :=
  let quotient := num / den
  let remainder := num % den
  if 2 * remainder < den then quotient
  else if 2 * remainder = den ∧ quotient % 2 = 0 then quotient
  else quotient + 1

/-- The rank whose magnitude is nearest to `num / den` units.  A quotient of more
than 53 bits loses its low bits; each lost bit moves the result by one block of ranks. -/
def nearestRank (num den : Nat) : Nat :=
  let lost := Nat.log2 (num / den) - 52
  lost * 2 ^ (52 : Nat) + roundHalfEven num (den * 2 ^ lost)

/-- The number nearest to `num / den` units with the given sign. -/
def nearest (negative : Bool) (num den : Nat) : Binary64 :=
  ofRank negative (nearestRank num den)

def add : Binary64 → Binary64 → Binary64
  | .nan, _ => .nan
  | _, .nan => .nan
  | .infinite left, .infinite right =>
      if left = right then .infinite left else .nan
  | .infinite left, .finite .. => .infinite left
  | .finite .., .infinite right => .infinite right
  | .finite left leftRank _, .finite right rightRank _ =>
      let leftUnits := unitsOf leftRank
      let rightUnits := unitsOf rightRank
      if left = right then nearest left (leftUnits + rightUnits) 1
      else if rightUnits < leftUnits then nearest left (leftUnits - rightUnits) 1
      else if leftUnits < rightUnits then nearest right (rightUnits - leftUnits) 1
      else nearest false 0 1

def sub (left right : Binary64) : Binary64 := left.add right.neg

def mul : Binary64 → Binary64 → Binary64
  | .nan, _ => .nan
  | _, .nan => .nan
  | .infinite left, .infinite right => .infinite (left != right)
  | .infinite left, .finite right rank _ =>
      if rank = 0 then .nan else .infinite (left != right)
  | .finite left rank _, .infinite right =>
      if rank = 0 then .nan else .infinite (left != right)
  | .finite left leftRank _, .finite right rightRank _ =>
      nearest (left != right) (unitsOf leftRank * unitsOf rightRank) one

def div : Binary64 → Binary64 → Binary64
  | .nan, _ => .nan
  | _, .nan => .nan
  | .infinite _, .infinite _ => .nan
  | .infinite left, .finite right .. => .infinite (left != right)
  | .finite left _ _, .infinite right => nearest (left != right) 0 1
  | .finite left leftRank _, .finite right rightRank _ =>
      if rightRank = 0 then
        if leftRank = 0 then .nan else .infinite (left != right)
      else nearest (left != right) (unitsOf leftRank * one) (unitsOf rightRank)

def ofCounts (num den : Nat) : Binary64 := nearest false (num * one) den

end Binary64

end ProseTree
