import CrashDump.Bytes.Buffer
import CrashDump.Proofs.Outcome

/-!
# A machine with 64-bit sizes

Sums and products of sizes that nobody checks have to fit 64 bits, and slices and items that nobody
checks have to lie inside what they are taken of; otherwise the machine stops at a trap. What meets
no trap is the same computation on numbers of any size.
-/
namespace CrashDump.Machine

inductive Trap where
  /-- A number does not fit 64 bits or is negative. -/
  | overflow
  /-- A slice or an item lies outside, or a slice of a text ends inside a character. -/
  | outside
  deriving DecidableEq, Repr

/-- A computation that can fail in its own way, or else stop at a trap. -/
abbrev Guarded (ε : Type) := ExceptT ε (Except Trap)

/-- A computation that meets no trap. -/
def pass {ε α : Type} (x : Except ε α) : Guarded ε α := ExceptT.mk (.ok x)

/-- A computation that stops at a trap. -/
def trap {ε α : Type} (t : Trap) : Guarded ε α := ExceptT.mk (.error t)

def add (m n : Nat) : Except Trap Nat :=
  if m + n < UInt64.size then .ok (m + n) else .error .overflow

def mul (m n : Nat) : Except Trap Nat :=
  if m * n < UInt64.size then .ok (m * n) else .error .overflow

def sub (m n : Nat) : Except Trap Nat := if n ≤ m then .ok (m - n) else .error .overflow

/-- A sum that is checked, so it is not there if it does not fit. -/
def checkedAdd? (m n : Nat) : Option Nat := if m + n < UInt64.size then some (m + n) else none

def checkedMul? (m n : Nat) : Option Nat := if m * n < UInt64.size then some (m * n) else none

/-- The bytes from one offset to another, which nobody checks. -/
def cut (data : Buffer) (start stop : Nat) : Except Trap Buffer :=
  if start ≤ stop ∧ stop ≤ data.size then .ok (data.extract start stop) else .error .outside

/-- The bytes from one offset to another, if they are there. -/
def get? (data : Buffer) (start stop : Nat) : Option Buffer :=
  if start ≤ stop ∧ stop ≤ data.size then some (data.extract start stop) else none

section Items

variable {α : Type}

def item (items : List α) (index : Nat) : Except Trap α :=
  match items[index]? with
  | some a => .ok a
  | none => .error .outside

def front (items : List α) (count : Nat) : Except Trap (List α) :=
  if count ≤ items.length then .ok (items.take count) else .error .outside

def back (items : List α) (first : Nat) : Except Trap (List α) :=
  if first ≤ items.length then .ok (items.drop first) else .error .outside

theorem item_eq {items : List α} {index : Nat} {a : α} (h : items[index]? = some a) :
    item items index = .ok a := by
  rw [item, h]

theorem front_eq {items : List α} {count : Nat} (h : count ≤ items.length) :
    front items count = .ok (items.take count) := if_pos h

theorem back_eq {items : List α} {first : Nat} (h : first ≤ items.length) :
    back items first = .ok (items.drop first) := if_pos h

end Items

example : add (UInt64.size - 1) 1 = .error .overflow := by decide

theorem add_eq {m n : Nat} (h : m + n < UInt64.size) : add m n = .ok (m + n) := if_pos h

theorem mul_eq {m n : Nat} (h : m * n < UInt64.size) : mul m n = .ok (m * n) := if_pos h

theorem sub_eq {m n : Nat} (h : n ≤ m) : sub m n = .ok (m - n) := if_pos h

theorem checkedAdd?_eq {m n : Nat} (h : m + n < UInt64.size) : checkedAdd? m n = some (m + n) :=
  if_pos h

theorem checkedMul?_eq {m n : Nat} (h : m * n < UInt64.size) : checkedMul? m n = some (m * n) :=
  if_pos h

theorem cut_eq {data : Buffer} {start stop : Nat} (h : start ≤ stop) (h' : stop ≤ data.size) :
    cut data start stop = .ok (data.extract start stop) := if_pos ⟨h, h'⟩

/-- Slices are the same whether they are given by their length or by their end. -/
theorem get?_eq (data : Buffer) (offset length : Nat) :
    get? data offset (offset + length) = data.slice? offset length := by
  simp [get?, Buffer.slice?]

section Results

variable {ε α β : Type}

@[simp] theorem lift_bind (a : α) (f : α → Guarded ε β) :
    ((liftM (Except.ok a : Except Trap α) : Guarded ε α) >>= f) = f a := rfl

theorem pass_bind {x : Except ε α} {f : α → Guarded ε β} {g : α → Except ε β}
    (h : ∀ a, x = .ok a → f a = pass (g a)) : (pass x >>= f) = pass (x >>= g) := by
  cases x with
  | error e => rfl
  | ok a => exact h a rfl

/-- A row of computations meets no trap if none of them does. -/
theorem mapM_eq_pass {as : List α} {f : α → Guarded ε β} {g : α → Except ε β}
    (h : ∀ a ∈ as, f a = pass (g a)) : as.mapM f = pass (as.mapM g) := by
  induction as with
  | nil => rfl
  | cons a as ih =>
    rw [List.mapM_cons, List.mapM_cons, h a List.mem_cons_self]
    refine pass_bind fun b _ => ?_
    rw [ih fun a' ha' => h a' (List.mem_cons_of_mem a ha')]
    exact pass_bind fun _ _ => rfl

theorem foldlM_eq_pass {as : List α} {f : β → α → Guarded ε β} {g : β → α → Except ε β} (b : β)
    (h : ∀ b, ∀ a ∈ as, f b a = pass (g b a)) : as.foldlM f b = pass (as.foldlM g b) := by
  induction as generalizing b with
  | nil => rfl
  | cons a as ih =>
    rw [List.foldlM_cons, List.foldlM_cons, h b a List.mem_cons_self]
    exact pass_bind fun next _ => ih next fun b' a' ha' => h b' a' (List.mem_cons_of_mem a ha')

end Results

/-- A fault of the bytes is a fault of the load. -/
def lift {α : Type} (x : Guarded Malformed α) : Guarded SnapshotFault α :=
  ExceptT.adapt SnapshotFault.malformed x

theorem lift_pass {α : Type} (x : Except Malformed α) : lift (pass x) = pass (Malformed.lift x) :=
  rfl

end CrashDump.Machine
