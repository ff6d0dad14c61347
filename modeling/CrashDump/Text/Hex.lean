/-!
# Hexadecimal text

Numbers and bytes in base 16, with a fixed count of digits or as few as will do.
-/
namespace CrashDump.Hex

/-- Exactly `width` lowercase digits, highest first; higher digits are dropped. -/
def digits : Nat → Nat → List Char
  | 0, _ => []
  | width + 1, n => digits width (n / 16) ++ [Nat.digitChar (n % 16)]

def fixed (width n : Nat) : String := String.ofList (digits width n)

/-- As few lowercase digits as will do. -/
def short (n : Nat) : String := String.ofList (Nat.toDigits 16 n)

/-- Two lowercase digits a byte, in the order of the bytes. -/
def byteDigits (bytes : List UInt8) : List Char := bytes.flatMap fun b => digits 2 b.toNat

def ofBytes (bytes : List UInt8) : String := String.ofList (byteDigits bytes)

@[simp] theorem length_digits (width n : Nat) : (digits width n).length = width := by
  induction width generalizing n with
  | zero => rfl
  | succ width ih => simp [digits, ih]

@[simp] theorem length_byteDigits (bytes : List UInt8) :
    (byteDigits bytes).length = 2 * bytes.length := by
  induction bytes with
  | nil => rfl
  | cons b bs ih => simp only [byteDigits] at *; simp [ih]; omega

end CrashDump.Hex
