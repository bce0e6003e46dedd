import Ivy.Proofs.Readers
import Ivy.Text.Quoted
import Mathlib.Tactic.SplitIfs

/-!
# Quoted text, read back

Numbers are read back from their digits (`numberOf_toDigits`), and quoted texts from what quotes
them (`takeQuoted?_encode`), whatever stands behind them and whichever characters are written by
their code points.  No line feed is left in a quoted text (`Quoted.lineFeed_notMem_encode`).
-/

namespace Ivy

/-! ## Digits -/

section Digits

variable {base : Nat} {c : Char}

/-- What is no digit does not occur in a number. -/
theorem not_mem_toDigits (hbase : 1 < base) (hc : ∀ k : Nat, k.digitChar ≠ c) (n : Nat) :
    c ∉ Nat.toDigits base n := by
  induction n using Nat.strongRecOn with
  | ind n ih =>
    rw [Nat.toDigits_eq_if hbase]
    split
    · simpa using (hc n).symm
    · have hlt : n / base < n := Nat.div_lt_self (by omega) hbase
      simpa using ⟨ih _ hlt, (hc (n % base)).symm⟩

theorem not_mem_toString (hc : ∀ k : Nat, k.digitChar ≠ c) (n : Nat) :
    c ∉ (toString n).toList := by
  rw [Nat.toString_eq_repr, Nat.toList_repr]
  exact not_mem_toDigits (by decide) hc n

/-- The number that a digit stands for. -/
def digitValue (d : Char) : Nat :=
  if d.isDigit then d.toNat - '0'.toNat else d.toNat - 'a'.toNat + 10

theorem digitValue_digitChar : ∀ k < 16, digitValue k.digitChar = k := by decide

/-- The number that digits stand for. -/
def numberOf (base : Nat) (digits : List Char) : Nat :=
  digits.foldl (fun n d => base * n + digitValue d) 0

theorem numberOf_toDigits (hbase : 1 < base) (hle : base ≤ 16) (n : Nat) :
    numberOf base (Nat.toDigits base n) = n := by
  induction n using Nat.strongRecOn with
  | ind n ih =>
    rw [Nat.toDigits_eq_if hbase]
    split
    · next hlt => simp [numberOf, digitValue_digitChar n (by omega)]
    · have hlt : n % base < 16 := Nat.lt_of_lt_of_le (Nat.mod_lt n (by omega)) hle
      have hdiv := ih (n / base) (Nat.div_lt_self (by omega) hbase)
      rw [numberOf] at hdiv
      rw [numberOf, List.foldl_append, hdiv, List.foldl_cons, digitValue_digitChar _ hlt]
      exact Nat.div_add_mod n base

theorem numberOf_toString (n : Nat) : numberOf 10 (toString n).toList = n := by
  rw [Nat.toString_eq_repr, Nat.toList_repr]
  exact numberOf_toDigits (by decide) (by decide) n

end Digits

namespace Quoted

variable {marks : List Char} {hidden : Char → Bool}

/-! ## Line feeds -/

theorem lineFeed_notMem_escape (c : Char) : '\n' ∉ escape marks hidden c := by
  have hdigits : '\n' ∉ Nat.toDigits 16 c.toNat :=
    not_mem_toDigits (by decide) (fun k => Nat.digitChar_ne '\n' (by decide)) _
  unfold escape
  split_ifs with hzero htab hreturn hfeed
  · decide
  · decide
  · decide
  · decide
  · simp [Ne.symm hfeed]
  · simp [hdigits]
  · simp [Ne.symm hfeed]

theorem lineFeed_notMem_encode (s : String) : '\n' ∉ (encode hidden s).toList := by
  have hnone : ∀ c ∈ s.toList, '\n' ∉ escape textMarks hidden c :=
    fun c _ => lineFeed_notMem_escape c
  simpa [encode] using hnone

/-! ## Reading back -/

/-- What a character behind a backslash stands for. -/
def meaning? : Char → Option Char
  | '0' => some '\x00'
  | 't' => some '\t'
  | 'r' => some '\r'
  | 'n' => some '\n'
  | '"' => some '"'
  | '\\' => some '\\'
  | _ => none

/-- Reads a code point between braces. -/
def takeCode? : List Char → Option (Char × List Char)
  | '\x7b' :: l => (cutAt? '\x7d' l).map fun (digits, r) => (Char.ofNat (numberOf 16 digits), r)
  | _ => none

/-- Reads what stands behind a backslash. -/
def takeEscape? : List Char → Option (Char × List Char)
  | [] => none
  | c :: l => if c = 'u' then takeCode? l else (meaning? c).map (·, l)

/-- Reads a character as it is written between quotation marks. -/
def takeChar? : List Char → Option (Char × List Char)
  | [] => none
  | c :: l => if c = '\\' then takeEscape? l else if c = '"' then none else some (c, l)

/-- Reads a text in quotation marks. -/
def takeQuoted? : List Char → Option (String × List Char)
  | '"' :: l =>
    match readAll takeChar? l with
    | (cs, '"' :: r) => some (String.ofList cs, r)
    | _ => none
  | _ => none

theorem takeCode?_toDigits (c : Char) (r : List Char) :
    takeCode? ('\x7b' :: Nat.toDigits 16 c.toNat ++ '\x7d' :: r) = some (c, r) := by
  have hdigits : '\x7d' ∉ Nat.toDigits 16 c.toNat :=
    not_mem_toDigits (by decide) (fun k => Nat.digitChar_ne '\x7d' (by decide)) _
  have hcode : numberOf 16 (Nat.toDigits 16 c.toNat) = c.toNat :=
    numberOf_toDigits (by decide) (by decide) _
  simp only [List.cons_append, takeCode?, cutAt?_append hdigits, Option.map_some, hcode,
    Char.ofNat_toNat]

theorem takeChar?_escape (c : Char) (r : List Char) :
    takeChar? (escape textMarks hidden c ++ r) = some (c, r) := by
  unfold escape
  split_ifs with hzero htab hreturn hfeed hmark hhidden
  · rw [hzero]; rfl
  · rw [htab]; rfl
  · rw [hreturn]; rfl
  · rw [hfeed]; rfl
  · have hcases : c = '"' ∨ c = '\\' := by simpa [textMarks] using hmark
    rcases hcases with rfl | rfl
    · rfl
    · rfl
  · rw [List.append_assoc, List.append_assoc]
    exact takeCode?_toDigits c r
  · have hne : c ≠ '"' ∧ c ≠ '\\' := by simpa [textMarks] using hmark
    show takeChar? (c :: r) = _
    rw [takeChar?, if_neg hne.2, if_neg hne.1]

theorem escape_ne_nil (c : Char) : escape marks hidden c ≠ [] := by
  unfold escape
  split_ifs <;> exact List.cons_ne_nil _ _

/-- A quoted text is read back. -/
theorem takeQuoted?_encode (s : String) (r : List Char) :
    takeQuoted? ((encode hidden s).toList ++ r) = some (s, r) := by
  have hall : readAll takeChar? (s.toList.flatMap (escape textMarks hidden) ++ '"' :: r) =
      (s.toList, '"' :: r) :=
    readAll_flatMap takeChar?_escape escape_ne_nil rfl s.toList
  have hsplit : (encode hidden s).toList ++ r =
      '"' :: (s.toList.flatMap (escape textMarks hidden) ++ '"' :: r) := by
    simp [encode]
  rw [hsplit, takeQuoted?, hall]
  exact congrArg (fun s => some (s, r)) String.ofList_toList

end Quoted

end Ivy
