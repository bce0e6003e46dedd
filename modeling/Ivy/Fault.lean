/-!
# Faults

Offsets into a source and line numbers are 32-bit quantities, and the operations on a source check
their arguments.  An operation that is used outside its domain ends in a `Fault`, one constructor
per cause; `Fault.message` words it.  `addOffset` is the addition that both quantities use.
-/

namespace Ivy

/-- The ways to use an operation on a source outside its domain. -/
inductive Fault
  /-- A token was to start after it stops. -/
  | reversedSpan
  /-- The length of a token that starts after it stops was asked for. -/
  | negativeLength
  /-- An offset or a line number left its 32 bits. -/
  | overflow
  /-- There was no character left to move over. -/
  | noCharacter
  /-- A range of the text was to stop beyond its end. -/
  | stopBeyondText (stop length : Nat)
  /-- A range of the text was to start after it stops. -/
  | startBeyondStop (start stop : Nat)
  /-- A byte beyond the buffer was read. -/
  | byteBeyondBuffer (size index : Nat)
  /-- A search was to start beyond the bytes it may look at. -/
  | searchBeyondBuffer (start size : Nat)
  /-- A search was to start in the padding, behind the text. -/
  | searchBeyondText (start length : Nat)
deriving DecidableEq

/-- The steps of a computation that succeeds have succeeded. -/
theorem bind_eq_ok_iff {α β : Type} {x : Except Fault α} {f : α → Except Fault β} {b : β} :
    (x >>= f) = .ok b ↔ ∃ a, x = .ok a ∧ f a = .ok b := by
  cases x with
  | error e => simp [bind, Except.bind]
  | ok a => simp [bind, Except.bind]

theorem pure_eq_ok_iff {α : Type} {a b : α} : (pure a : Except Fault α) = .ok b ↔ a = b := by
  simp [pure, Except.pure]

/-- The wording of a fault. -/
def Fault.message : Fault → String
  | reversedSpan => "assertion failed: start <= end"
  | negativeLength => "attempt to subtract with overflow"
  | overflow => "attempt to add with overflow"
  | noCharacter => "advance_char at EOF"
  | stopBeyondText stop length => s!"slice end {stop} exceeds source length {length}"
  | startBeyondStop start stop => s!"slice start {start} exceeds end {stop}"
  | byteBeyondBuffer size index =>
    s!"index out of bounds: the len is {size} but the index is {index}"
  | searchBeyondBuffer start size =>
    s!"range start index {start} out of range for slice of length {size}"
  | searchBeyondText start length => s!"slice index starts at {start} but ends at {length}"

/-- The largest offset and the largest line number. -/
def maxOffset : Nat := 0xFFFFFFFF

/-- The sum of two offsets or line numbers. -/
def addOffset (a b : Nat) : Except Fault Nat :=
  if a + b ≤ maxOffset then .ok (a + b) else .error .overflow

theorem addOffset_eq_ok_iff {a b c : Nat} :
    addOffset a b = .ok c ↔ a + b = c ∧ c ≤ maxOffset := by
  unfold addOffset
  split <;> simp only [Except.ok.injEq, reduceCtorEq, false_iff] <;> omega

theorem addOffset_eq_error_iff {a b : Nat} {f : Fault} :
    addOffset a b = .error f ↔ f = .overflow ∧ maxOffset < a + b := by
  unfold addOffset
  split
  next h => simp only [reduceCtorEq, false_iff]; omega
  next h => simp [eq_comm (a := f), Nat.lt_of_not_le h]

end Ivy
