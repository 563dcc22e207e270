import Mathlib.Tactic.Common

/-!
# Text and phone numbers

`app/core/phone.py`, and Python's `str.strip` that it and the services use.
-/

namespace OrderRun

/-- The code points for which `str.isspace` holds. -/
def whitespace : List ℕ :=
  [9, 10, 11, 12, 13, 28, 29, 30, 31, 32, 133, 160, 5760, 8192, 8193, 8194, 8195, 8196, 8197,
    8198, 8199, 8200, 8201, 8202, 8232, 8233, 8239, 8287, 12288]

def isSpace (c : Char) : Bool := c.toNat ∈ whitespace

/-- `str.strip()`. -/
def strip (s : String) : String :=
  String.ofList ((s.toList.dropWhile isSpace).reverse.dropWhile isSpace).reverse

/-- Normalize phone numbers for storage and lookup. -/
def normalizePhone (phone : String) : String :=
  let value := (strip phone).toList.filter fun c => c ≠ ' ' ∧ c ≠ '-'
  match value with
  | '+' :: '8' :: '2' :: rest => String.ofList ('0' :: rest)
  | _ => String.ofList value

example : normalizePhone " +82 10-1234-5678" = "01012345678" := by decide +kernel

end OrderRun
