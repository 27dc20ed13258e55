/-!
# Terms: the values that fields hold

A field holds integers of 64 bits or strings. Strings compare by code point, which is the order of
their UTF-8 bytes.
-/

namespace Cohort

inductive Term where
  | int (value : Int)
  | str (value : String)
  deriving DecidableEq, Repr

namespace Term

def isInt : Term → Bool
  | int _ => true
  | str _ => false

def int? : Term → Option Int
  | int v => some v
  | str _ => none

def str? : Term → Option String
  | str s => some s
  | int _ => none

end Term

end Cohort
