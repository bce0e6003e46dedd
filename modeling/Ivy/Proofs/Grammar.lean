import Ivy.Proofs.Leads
import Ivy.Proofs.Rests
import Mathlib.Computability.Language

/-!
# The words of a kind

`Kind.language k` are the words that are tokens of the kind `k`, as lists of bytes.  It is put
together from words of one byte by union, concatenation and repetition, and says nothing of how
words are found in a text.  The lemmas turn membership into a form that names the bytes of a word.
-/

open scoped Computability

namespace Ivy

/-- The words of one byte of the class `q`. -/
def oneOf (q : UInt8 → Bool) : Language UInt8 := {w | ∃ b, q b ∧ w = [b]}

namespace Kind

/-- What a kind is always spelled as; no word if there is no such spelling. -/
def spellings (k : Kind) : Language UInt8 := {w | k.spelling?.map Utf8.bytesOf = some w}

instance (w : List UInt8) (k : Kind) : Decidable (w ∈ k.spellings) :=
  inferInstanceAs (Decidable (k.spelling?.map Utf8.bytesOf = some w))

/-- The reserved words. -/
def keywords : Language UInt8 := {w | ∃ k : Kind, k.isKeyword ∧ w ∈ k.spellings}

/-- A letter, and letters and digits behind it. -/
def words : Language UInt8 := oneOf isLetter * (oneOf isWordByte)∗

/-- A digit, and digits behind it. -/
def digits : Language UInt8 := oneOf isDigit * (oneOf isDigit)∗

/-- Digits, which may have a full stop and digits behind them. -/
def numbers : Language UInt8 := digits * (1 + {[fullStop]} * digits)

/-- The characters but the quotation mark and the backslash. -/
def plain : Language UInt8 := {w | ∃ c : Char, c ≠ '"' ∧ c ≠ '\\' ∧ w = String.utf8EncodeChar c}

/-- A backslash and any character behind it. -/
def escaped : Language UInt8 := {w | ∃ c : Char, w = backslash :: String.utf8EncodeChar c}

/-- A string between quotation marks. -/
def strings : Language UInt8 := {[quotationMark]} * (plain + escaped)∗ * {[quotationMark]}

/-- Two slashes and no line feed behind them. -/
def comments : Language UInt8 := {[slash, slash]} * (oneOf (· != lineFeed))∗

/-- The words that are tokens of a kind. -/
def language : Kind → Language UInt8
  | .identifier => words - keywords
  | .literalNumber => numbers
  | .literalString => strings
  | .commentLine => comments
  | k => k.spellings

end Kind

/-! ## Runs of bytes of a class -/

section Runs

variable {q r : UInt8 → Bool} {w : List UInt8}

theorem mem_kstar_oneOf_iff : w ∈ (oneOf q)∗ ↔ ∀ b ∈ w, q b := by
  rw [Language.mem_kstar]
  constructor
  · rintro ⟨ws, rfl, hws⟩ b hb
    obtain ⟨v, hv, hbv⟩ := List.mem_flatten.1 hb
    obtain ⟨c, hc, rfl⟩ := hws v hv
    exact List.mem_singleton.1 hbv ▸ hc
  · intro hw
    refine ⟨w.map ([·]), ?_, ?_⟩
    · rw [← List.flatMap_def, List.flatMap_singleton']
    · intro v hv
      obtain ⟨b, hb, rfl⟩ := List.mem_map.1 hv
      exact ⟨b, hw b hb, rfl⟩

theorem mem_oneOf_mul_iff : w ∈ oneOf q * (oneOf r)∗ ↔
    ∃ b v, w = b :: v ∧ q b ∧ ∀ c ∈ v, r c := by
  rw [Language.mem_mul]
  constructor
  · rintro ⟨_, ⟨b, hb, rfl⟩, v, hv, rfl⟩
    exact ⟨b, v, rfl, hb, mem_kstar_oneOf_iff.1 hv⟩
  · rintro ⟨b, v, rfl, hb, hv⟩
    exact ⟨[b], ⟨b, hb, rfl⟩, v, mem_kstar_oneOf_iff.2 hv, rfl⟩

end Runs

/-! ## Words of each sort -/

namespace Kind

variable {w : List UInt8} {k : Kind}

theorem mem_words_iff : w ∈ words ↔ ∃ b v, w = b :: v ∧ isLetter b ∧ ∀ c ∈ v, isWordByte c :=
  mem_oneOf_mul_iff

theorem mem_digits_iff : w ∈ digits ↔ ∃ b v, w = b :: v ∧ isDigit b ∧ ∀ c ∈ v, isDigit c :=
  mem_oneOf_mul_iff

theorem mem_numbers_iff : w ∈ numbers ↔
    w ∈ digits ∨ ∃ u ∈ digits, ∃ v ∈ digits, w = u ++ fullStop :: v := by
  rw [numbers, mul_add, mul_one, Language.mem_add]
  apply or_congr_right
  constructor
  · rintro ⟨u, hu, _, ⟨_, rfl, v, hv, rfl⟩, rfl⟩
    exact ⟨u, hu, v, hv, rfl⟩
  · rintro ⟨u, hu, v, hv, rfl⟩
    have hfull : [fullStop] ∈ ({[fullStop]} : Language UInt8) := rfl
    exact Language.append_mem_mul hu (Language.append_mem_mul hfull hv)

theorem mem_strings_iff : w ∈ strings ↔
    ∃ v ∈ (plain + escaped)∗, w = quotationMark :: (v ++ [quotationMark]) := by
  constructor
  · rintro ⟨_, ⟨_, rfl, v, hv, rfl⟩, _, rfl, rfl⟩
    exact ⟨v, hv, rfl⟩
  · rintro ⟨v, hv, rfl⟩
    have hquote : [quotationMark] ∈ ({[quotationMark]} : Language UInt8) := rfl
    exact Language.append_mem_mul (Language.append_mem_mul hquote hv) hquote

theorem mem_comments_iff : w ∈ comments ↔ ∃ v, w = slash :: slash :: v ∧ lineFeed ∉ v := by
  have hrun (v : List UInt8) : v ∈ (oneOf (· != lineFeed))∗ ↔ lineFeed ∉ v := by
    rw [mem_kstar_oneOf_iff]
    simp only [bne_iff_ne]
    exact ⟨fun h hmem => h _ hmem rfl, fun h b hb heq => h (heq ▸ hb)⟩
  constructor
  · rintro ⟨_, rfl, v, hv, rfl⟩
    exact ⟨v, rfl, (hrun v).1 hv⟩
  · rintro ⟨v, rfl, hv⟩
    have hslashes : [slash, slash] ∈ ({[slash, slash]} : Language UInt8) := rfl
    exact Language.append_mem_mul hslashes ((hrun v).2 hv)

/-! ## The rest of a string -/

section Strings

variable {v l : List UInt8}

theorem append_mem_items {u : List UInt8} (hu : u ∈ plain + escaped)
    (hv : v ∈ (plain + escaped)∗) : u ++ v ∈ (plain + escaped)∗ := by
  obtain ⟨vs, rfl, hvs⟩ := hv
  exact ⟨u :: vs, rfl, List.forall_mem_cons.2 ⟨hu, hvs⟩⟩

theorem ne_of_plain {c : Char} (hq : c ≠ '"') (hb : c ≠ '\\') :
    ∀ b ∈ String.utf8EncodeChar c, b ≠ quotationMark ∧ b ≠ backslash := by
  intro b hmem
  constructor
  · rintro rfl
    exact Utf8.not_mem_encodeChar (by decide) (by decide) hq hmem
  · rintro rfl
    exact Utf8.not_mem_encodeChar (by decide) (by decide) hb hmem

theorem restOfString?_item {u : List UInt8} (hu : u ∈ plain + escaped) (l : List UInt8) :
    restOfString? (u ++ l) = (restOfString? l).map (u ++ ·) := by
  rcases hu with ⟨c, hq, hb, rfl⟩ | ⟨c, rfl⟩
  · exact restOfString?_append (ne_of_plain hq hb) l
  · exact restOfString?_escape c l

/-- Items of a string do not close it. -/
theorem restOfString?_items (hv : v ∈ (plain + escaped)∗) (l : List UInt8) :
    restOfString? (v ++ l) = (restOfString? l).map (v ++ ·) := by
  obtain ⟨vs, rfl, hvs⟩ := hv
  induction vs with
  | nil => exact Option.map_id'.symm
  | cons u vs ih =>
    obtain ⟨hu, hvs⟩ := List.forall_mem_cons.1 hvs
    rw [List.flatten_cons, List.append_assoc, restOfString?_item hu, ih hvs, Option.map_map]
    simp only [Function.comp_def, List.append_assoc]

/-- A string is closed behind its items. -/
theorem exists_items (cs : List Char) {w : List UInt8}
    (hw : restOfString? (Utf8.encode cs) = some w) :
    ∃ v ∈ (plain + escaped)∗, w = v ++ [quotationMark] := by
  -- Behind an item what is left is shorter by one character or two.
  have behind {u : List UInt8} {ds : List Char} (hu : u ∈ plain + escaped)
      (hcs : Utf8.encode cs = u ++ Utf8.encode ds) (hds : ds.length < cs.length) :
      ∃ v ∈ (plain + escaped)∗, w = v ++ [quotationMark] := by
    rw [hcs, restOfString?_item hu] at hw
    obtain ⟨w', hw', rfl⟩ := Option.map_eq_some_iff.1 hw
    obtain ⟨v, hv, rfl⟩ := exists_items ds hw'
    exact ⟨u ++ v, append_mem_items hu hv, (List.append_assoc ..).symm⟩
  cases cs with
  | nil => cases hw
  | cons c cs =>
    by_cases hq : c = '"'
    · rw [hq, Utf8.encode_cons, show String.utf8EncodeChar '"' = [quotationMark] by decide,
        List.singleton_append, restOfString?_quotationMark] at hw
      exact ⟨[], Language.nil_mem_kstar _, (Option.some.inj hw).symm⟩
    · by_cases hb : c = '\\'
      · subst hb
        cases cs with
        | nil =>
          have hnone : restOfString? (Utf8.encode ['\\']) = none := by decide
          rw [hnone] at hw
          cases hw
        | cons d ds =>
          exact behind (.inr ⟨d, rfl⟩) rfl (Nat.lt_succ_of_lt (Nat.lt_succ_self _))
      · exact behind (.inl ⟨c, hq, hb, rfl⟩) rfl (Nat.lt_succ_self _)
termination_by cs.length

end Strings

end Kind

end Ivy
