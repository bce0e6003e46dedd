import Ivy.Proofs.Readers
import Ivy.Proofs.Utf8
import Ivy.Text.Ascii

/-!
# Lines of an output

Outputs are read line by line.  `HoldsLines bytes lines` says that the bytes are these lines, each
with a line feed behind it and none in it.  Bytes hold one list of lines at most
(`HoldsLines.unique`) and as many lines as they have line feeds (`HoldsLines.count_eq`), so it is
known what their last line is (`HoldsLines.endsWith_iff`).
-/

namespace Ivy

/-! ## Line feeds of a text -/

theorem lineFeed_mem_encode_iff {cs : List Char} : lineFeed ∈ Utf8.encode cs ↔ '\n' ∈ cs := by
  rw [Utf8.encode, List.mem_flatMap]
  constructor
  · rintro ⟨c, hc, hmem⟩
    by_cases hne : c = '\n'
    · exact hne ▸ hc
    · exact absurd hmem (Utf8.not_mem_encodeChar (by decide) (by decide) hne)
  · intro hmem
    exact ⟨'\n', hmem, by decide⟩

theorem lineFeed_mem_bytesOf_iff {s : String} : lineFeed ∈ Utf8.bytesOf s ↔ '\n' ∈ s.toList := by
  rw [Utf8.bytesOf_eq_encode]
  exact lineFeed_mem_encode_iff

theorem Utf8.lineFeed_notMem_textOf {w : List UInt8} (h : lineFeed ∉ w) :
    '\n' ∉ (textOf w.toByteArray).toList := by
  by_cases hvalid : w.toByteArray.IsValidUTF8
  · rw [← lineFeed_mem_bytesOf_iff, bytesOf, toByteArray_textOf hvalid]
    simpa using h
  · have hempty : textOf w.toByteArray = "" := by simp [textOf, String.fromUTF8?, hvalid]
    simp [hempty]

/-- A line with one line feed at its end counts once. -/
theorem count_lineFeed_line {body ending : String} (hbody : '\n' ∉ body.toList)
    (hending : (Utf8.bytesOf ending).count lineFeed = 1) (rest : String) :
    (Utf8.bytesOf (body ++ ending ++ rest)).count lineFeed =
      1 + (Utf8.bytesOf rest).count lineFeed := by
  have hnone : (Utf8.bytesOf body).count lineFeed = 0 :=
    List.count_eq_zero.2 (mt lineFeed_mem_bytesOf_iff.1 hbody)
  rw [Utf8.bytesOf_append, Utf8.bytesOf_append, List.count_append, List.count_append, hnone,
    hending, Nat.zero_add]

/-! ## Lines -/

/-- The text of lines, each with a line feed behind it. -/
def unlines (lines : List String) : String := String.join (lines.map (· ++ "\n"))

/-- Whether bytes are lines, each with a line feed behind it and none in it. -/
structure HoldsLines (bytes : ByteArray) (lines : List String) : Prop where
  bytes_eq : bytes = (unlines lines).toByteArray
  not_mem : ∀ line ∈ lines, '\n' ∉ line.toList

/-- Whether `line` is the last of the lines that bytes hold. -/
def EndsWithLine (bytes : ByteArray) (line : String) : Prop :=
  ∃ lines, HoldsLines bytes lines ∧ lines.getLast? = some line

theorem toList_unlines_cons (line : String) (lines : List String) :
    (unlines (line :: lines)).toList = line.toList ++ '\n' :: (unlines lines).toList := by
  simp [unlines]

theorem unlines_append (lines lines' : List String) :
    unlines (lines ++ lines') = unlines lines ++ unlines lines' := by
  simp [unlines]

theorem unlines_inj {lines lines' : List String} (h : ∀ line ∈ lines, '\n' ∉ line.toList)
    (h' : ∀ line ∈ lines', '\n' ∉ line.toList) (heq : unlines lines = unlines lines') :
    lines = lines' := by
  replace heq := congrArg String.toList heq
  induction lines generalizing lines' with
  | nil =>
    cases lines' with
    | nil => rfl
    | cons line lines' => simp [unlines] at heq
  | cons line lines ih =>
    cases lines' with
    | nil => simp [unlines] at heq
    | cons line' lines' =>
      obtain ⟨hline, hlines⟩ := List.forall_mem_cons.1 h
      obtain ⟨hline', hlines'⟩ := List.forall_mem_cons.1 h'
      rw [toList_unlines_cons, toList_unlines_cons] at heq
      obtain ⟨hfirst, hrest⟩ := append_cons_inj_of_not_mem hline hline' heq
      rw [String.toList_inj.1 hfirst, ih hlines hlines' hrest]

theorem count_lineFeed_unlines {lines : List String} (h : ∀ line ∈ lines, '\n' ∉ line.toList) :
    (Utf8.bytesOf (unlines lines)).count lineFeed = lines.length := by
  induction lines with
  | nil => rfl
  | cons line lines ih =>
    obtain ⟨hline, hlines⟩ := List.forall_mem_cons.1 h
    have hsplit : unlines (line :: lines) = line ++ "\n" ++ unlines lines := by simp [unlines]
    rw [hsplit, count_lineFeed_line hline (by decide), ih hlines, List.length_cons, Nat.add_comm]

namespace HoldsLines

variable {bytes bytes' : ByteArray} {lines lines' : List String}

theorem nil : HoldsLines .empty [] := ⟨rfl, nofun⟩

theorem append (h : HoldsLines bytes lines) (h' : HoldsLines bytes' lines') :
    HoldsLines (bytes ++ bytes') (lines ++ lines') where
  bytes_eq := by rw [h.bytes_eq, h'.bytes_eq, unlines_append, String.toByteArray_append]
  not_mem line hline := by
    rcases List.mem_append.1 hline with hline | hline
    · exact h.not_mem line hline
    · exact h'.not_mem line hline

theorem unique (h : HoldsLines bytes lines) (h' : HoldsLines bytes lines') : lines = lines' := by
  apply unlines_inj h.not_mem h'.not_mem
  rw [← String.toByteArray_inj, ← h.bytes_eq, ← h'.bytes_eq]

theorem count_eq (h : HoldsLines bytes lines) :
    bytes.data.toList.count lineFeed = lines.length := by
  rw [h.bytes_eq]
  exact count_lineFeed_unlines h.not_mem

theorem eq_empty_iff (h : HoldsLines bytes lines) : bytes = .empty ↔ lines = [] := by
  constructor
  · rintro rfl
    exact h.unique nil
  · rintro rfl
    exact h.bytes_eq

theorem endsWith_iff (h : HoldsLines bytes lines) {line : String} :
    EndsWithLine bytes line ↔ lines.getLast? = some line := by
  constructor
  · rintro ⟨lines', h', hlast⟩
    exact h.unique h' ▸ hlast
  · intro hlast
    exact ⟨lines, h, hlast⟩

end HoldsLines

/-- A text that is long enough for the last line ends with its characters and a line feed. -/
theorem EndsWithLine.isSuffix {s last line : String} (h : EndsWithLine (s ++ last).toByteArray line)
    (hle : (line ++ "\n").length ≤ last.length) : (line ++ "\n").toList <:+ last.toList := by
  obtain ⟨lines, hlines, hlast⟩ := h
  obtain ⟨lines, rfl⟩ := List.getLast?_eq_some_iff.1 hlast
  have hone : unlines [line] = line ++ "\n" := by simp [unlines]
  have heq := congrArg String.toList (String.toByteArray_inj.1 hlines.bytes_eq)
  rw [unlines_append, hone, String.toList_append, String.toList_append (s := unlines lines)] at heq
  have hsuffix : (line ++ "\n").toList <:+ s.toList ++ last.toList := heq ▸ List.suffix_append _ _
  apply List.suffix_of_suffix_length_le hsuffix (List.suffix_append _ _)
  rwa [String.length_toList, String.length_toList]

end Ivy
