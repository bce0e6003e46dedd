import Ivy.Proofs.OutputLines
import Ivy.Proofs.SourceLines
import Mathlib.Data.List.Basic

/-!
# Line terminators

A text is made of lines, each but the last with a line end of one or two bytes behind it
(`HasLines`).  A line is shown as it is, without its line end, except that the last line, which has
none, loses a carriage return that is the last byte of the text.  So lines and line ends make up the
text again unless it ends with a carriage return (`ofString_showsLines`).
-/

namespace Ivy

/-! ## Texts that end with a carriage return -/

/-- A text without a carriage return that comes last. -/
def withoutCarriageReturn (s : String) : String :=
  if s.toList.getLast? = some '\r' then String.ofList s.toList.dropLast else s

section CarriageReturn

variable {s t : String}

theorem getLast?_bytesOf_iff :
    (Utf8.bytesOf s).getLast? = some carriageReturn ↔ s.toList.getLast? = some '\r' := by
  rw [Utf8.bytesOf_eq_encode]
  rcases List.eq_nil_or_concat s.toList with hs | ⟨cs, c, hs⟩
  · rw [hs]
    simp
  · have hne : String.utf8EncodeChar c ≠ [] := String.utf8EncodeChar_ne_nil
    rw [hs, List.concat_eq_append, Utf8.encode_append, Utf8.encode_cons, Utf8.encode_nil,
      List.append_nil, List.getLast?_append_of_ne_nil _ hne, List.getLast?_concat,
      Option.some.injEq]
    constructor
    · intro hlast
      by_cases hc : c = '\r'
      · exact hc
      · exact absurd (List.mem_of_getLast? hlast)
          (Utf8.not_mem_encodeChar (by decide) (by decide) hc)
    · rintro rfl
      decide

theorem withoutCarriageReturn_of_ne (h : s.toList.getLast? ≠ some '\r') :
    withoutCarriageReturn s = s := if_neg h

theorem withoutCarriageReturn_eq_self_iff :
    withoutCarriageReturn s = s ↔ s.toList.getLast? ≠ some '\r' := by
  refine ⟨fun heq hlast => ?_, withoutCarriageReturn_of_ne⟩
  have hpos := List.length_pos_iff.2 (List.ne_nil_of_mem (List.mem_of_getLast? hlast))
  have hlen := congrArg (fun s => s.toList.length) heq
  simp only [withoutCarriageReturn, if_pos hlast, String.toList_ofList, List.length_dropLast]
    at hlen
  omega

/-- What comes last in a text comes last in what is behind other text. -/
theorem getLast?_append_iff (hs : s.toList.getLast? ≠ some '\r') :
    (s ++ t).toList.getLast? = some '\r' ↔ t.toList.getLast? = some '\r' := by
  rw [String.toList_append]
  by_cases ht : t.toList = []
  · rw [ht, List.append_nil]
    exact iff_of_false hs (by simp)
  · rw [List.getLast?_append_of_ne_nil _ ht]

theorem withoutCarriageReturn_append (hs : s.toList.getLast? ≠ some '\r') :
    withoutCarriageReturn (s ++ t) = s ++ withoutCarriageReturn t := by
  unfold withoutCarriageReturn
  simp only [getLast?_append_iff hs]
  split
  · next ht =>
    have hne : t.toList ≠ [] := List.ne_nil_of_mem (List.mem_of_getLast? ht)
    rw [String.toList_append, List.dropLast_append_of_ne_nil hne, String.ofList_append,
      String.ofList_toList]
  · rfl

/-- The text of a line that no line end cuts short. -/
theorem textOf_shownLine (h : '\n' ∉ s.toList) :
    Utf8.textOf (shownLine (Utf8.bytesOf s)).toByteArray = withoutCarriageReturn s := by
  rw [shownLine, firstLine_of_not_mem (mt lineFeed_mem_bytesOf_iff.1 h), withoutCarriageReturn]
  simp only [getLast?_bytesOf_iff]
  split
  · next hlast =>
    obtain ⟨cs, hcs⟩ := List.getLast?_eq_some_iff.1 hlast
    have hbytes : Utf8.bytesOf s = Utf8.encode cs ++ [carriageReturn] := by
      rw [Utf8.bytesOf_eq_encode, hcs, Utf8.encode_append]
      rfl
    rw [hbytes, List.dropLast_concat, Utf8.textOf_encode, hcs, List.dropLast_concat]
  · exact Utf8.textOf_bytesOf s

end CarriageReturn

/-! ## Lines of a text -/

/-- A line of a text, and the line end behind it. -/
structure SourceLine where
  body : String
  ending : String
deriving DecidableEq

/-- Whether a text is made of lines.  A carriage return belongs to a line end only if it is in front
of a line feed, and the last line has no line end. -/
inductive HasLines : String → List SourceLine → Prop
  | last (body : String) (hbody : '\n' ∉ body.toList) : HasLines body [⟨body, ""⟩]
  | shortLineEnd (body rest : String) (lines : List SourceLine) (hbody : '\n' ∉ body.toList)
    (hlast : body.toList.getLast? ≠ some '\r') (hrest : HasLines rest lines) :
    HasLines (body ++ "\n" ++ rest) (⟨body, "\n"⟩ :: lines)
  | longLineEnd (body rest : String) (lines : List SourceLine) (hbody : '\n' ∉ body.toList)
    (hrest : HasLines rest lines) : HasLines (body ++ "\r\n" ++ rest) (⟨body, "\r\n"⟩ :: lines)

/-- A line as it is shown. -/
def SourceLine.shown (line : SourceLine) : String :=
  if line.ending = "" then withoutCarriageReturn line.body else line.body

/-- Every text is made of lines. -/
theorem exists_hasLines (text : String) : ∃ lines, HasLines text lines := by
  -- What is behind the first line feed has fewer characters.
  generalize hn : text.toList.length = n
  induction n using Nat.strongRecOn generalizing text with
  | ind n ih =>
    by_cases hmem : '\n' ∈ text.toList
    · obtain ⟨w, r, htext, hw⟩ := List.eq_append_cons_of_mem hmem
      have hlt : r.length < n := by
        rw [← hn, htext, List.length_append, List.length_cons]
        omega
      obtain ⟨lines, hlines⟩ := ih r.length hlt (String.ofList r) (by rw [String.toList_ofList])
      by_cases hcr : w.getLast? = some '\r'
      · obtain ⟨v, rfl⟩ := List.getLast?_eq_some_iff.1 hcr
        have heq : text = String.ofList v ++ "\r\n" ++ String.ofList r := by
          rw [← String.toList_inj, htext]
          simp
        rw [heq]
        refine ⟨_, .longLineEnd _ _ lines ?_ hlines⟩
        rw [String.toList_ofList]
        exact fun h => hw (List.mem_append_left _ h)
      · have heq : text = String.ofList w ++ "\n" ++ String.ofList r := by
          rw [← String.toList_inj, htext]
          simp
        rw [heq]
        exact ⟨_, .shortLineEnd _ _ lines (by rwa [String.toList_ofList])
          (by rwa [String.toList_ofList]) hlines⟩
    · exact ⟨_, .last text hmem⟩

section FirstLine

variable {text rest : String} {w : List UInt8}

/-- The line in front of the first line feed is shown without a carriage return that ends it. -/
theorem shownLine?_one {l : List UInt8} (h : Utf8.bytesOf text = w ++ lineFeed :: l)
    (hw : lineFeed ∉ w) : shownLine? text 1 = some (Utf8.textOf
      (if w.getLast? = some carriageReturn then w.dropLast else w).toByteArray) := by
  rw [shownLine?, h, behindLines?, Option.map_some, shownLine, firstLine_append hw]

/-- Behind the first line feed a text has the lines of what is left of it. -/
theorem shownLine?_behind (h : Utf8.bytesOf text = w ++ lineFeed :: Utf8.bytesOf rest)
    (hw : lineFeed ∉ w) (n : Nat) : shownLine? text (n + 2) = shownLine? rest (n + 1) := by
  rw [shownLine?, h, behindLines?_append hw, shownLine?]

end FirstLine

namespace HasLines

variable {text : String} {lines : List SourceLine}

theorem length_eq (h : HasLines text lines) :
    lines.length = 1 + (Utf8.bytesOf text).count lineFeed := by
  induction h with
  | last body hbody =>
    rw [List.count_eq_zero.2 (mt lineFeed_mem_bytesOf_iff.1 hbody), List.length_singleton]
  | shortLineEnd body rest lines hbody _ _ ih | longLineEnd body rest lines hbody _ ih =>
    rw [count_lineFeed_line hbody (by decide), List.length_cons, ih, Nat.add_comm]

/-- The lines of a text are those that are shown. -/
theorem shownLine?_eq (h : HasLines text lines) (n : Nat) :
    shownLine? text (n + 1) = lines[n]?.map SourceLine.shown := by
  induction h generalizing n with
  | last body hbody =>
    cases n with
    | zero => exact congrArg some (textOf_shownLine hbody)
    | succ n =>
      rw [shownLine?, behindLines?_of_not_mem (mt lineFeed_mem_bytesOf_iff.1 hbody)]
      rfl
  | shortLineEnd body rest lines hbody hlast _ ih =>
    have hnone := mt lineFeed_mem_bytesOf_iff.1 hbody
    have hbytes : Utf8.bytesOf (body ++ "\n" ++ rest) =
        Utf8.bytesOf body ++ lineFeed :: Utf8.bytesOf rest := by
      rw [Utf8.bytesOf_append, Utf8.bytesOf_append, List.append_assoc]
      rfl
    cases n with
    | zero =>
      rw [shownLine?_one hbytes hnone, if_neg (mt getLast?_bytesOf_iff.1 hlast),
        Utf8.textOf_bytesOf]
      rfl
    | succ n => exact (shownLine?_behind hbytes hnone n).trans (ih n)
  | longLineEnd body rest lines hbody _ ih =>
    -- The carriage return is the last byte in front of the line feed.
    have hnone : lineFeed ∉ Utf8.bytesOf body ++ [carriageReturn] := by
      rw [List.mem_append, lineFeed_mem_bytesOf_iff]
      exact fun h => h.elim hbody (by decide)
    have hbytes : Utf8.bytesOf (body ++ "\r\n" ++ rest) =
        Utf8.bytesOf body ++ [carriageReturn] ++ lineFeed :: Utf8.bytesOf rest := by
      rw [Utf8.bytesOf_append, Utf8.bytesOf_append, List.append_assoc, List.append_assoc]
      rfl
    cases n with
    | zero =>
      rw [shownLine?_one hbytes hnone, if_pos List.getLast?_concat, List.dropLast_concat,
        Utf8.textOf_bytesOf]
      rfl
    | succ n => exact (shownLine?_behind hbytes hnone n).trans (ih n)

theorem join_eq (h : HasLines text lines) :
    String.join (lines.map fun line => line.body ++ line.ending) = text := by
  induction h with
  | last body => simp
  | shortLineEnd body rest lines _ _ _ ih | longLineEnd body rest lines _ _ ih =>
    rw [List.map_cons, String.join_cons, ih]

theorem join_shown_eq (h : HasLines text lines) :
    String.join (lines.map fun line => line.shown ++ line.ending) =
      withoutCarriageReturn text := by
  induction h with
  | last body => simp [SourceLine.shown]
  | shortLineEnd body rest lines _ _ _ ih | longLineEnd body rest lines _ _ ih =>
    rw [List.map_cons, String.join_cons, ih, withoutCarriageReturn_append (by simp)]
    rfl

theorem shown_eq_body (h : HasLines text lines) (hlast : text.toList.getLast? ≠ some '\r') :
    ∀ line ∈ lines, line.shown = line.body := by
  induction h with
  | last body hbody =>
    intro line hline
    rw [List.mem_singleton.1 hline]
    exact withoutCarriageReturn_of_ne hlast
  | shortLineEnd body rest lines _ _ _ ih | longLineEnd body rest lines _ _ ih =>
    rw [Ne, getLast?_append_iff (by simp)] at hlast
    exact List.forall_mem_cons.2 ⟨rfl, ih hlast⟩

end HasLines

/-! ## Looking up lines -/

/-- Whether what is looked up are the lines of a text without their line ends. -/
structure ShowsLines (text : String) (lines : List SourceLine) : Prop where
  length_eq : lines.length = 1 + (Utf8.bytesOf text).count lineFeed
  line?_eq : ∀ n line, lines[n]? = some line →
    (Source.ofString text).line? (n + 1) = .ok (some line.shown)
  join_eq : String.join (lines.map fun line => line.body ++ line.ending) = text
  join_shown_eq : String.join (lines.map fun line => line.shown ++ line.ending) =
    withoutCarriageReturn text
  /-- Only a carriage return that comes last in the text is lost. -/
  shown_eq_body_iff : (∀ line ∈ lines, line.shown = line.body) ↔
    text.toList.getLast? ≠ some '\r'

/-- A text is made of lines, and these are looked up. -/
theorem ofString_showsLines {text : String} (h : text.utf8ByteSize < maxOffset) :
    (∃ lines, HasLines text lines) ∧ ∀ lines, HasLines text lines → ShowsLines text lines := by
  refine ⟨exists_hasLines text, fun lines hlines => ?_⟩
  exact
    { length_eq := hlines.length_eq
      line?_eq := by
        intro n line hline
        rw [Ivy.line?_eq (Nat.le_of_lt h), hlines.shownLine?_eq, hline]
        rfl
      join_eq := hlines.join_eq
      join_shown_eq := hlines.join_shown_eq
      shown_eq_body_iff := by
        refine ⟨fun hall => ?_, hlines.shown_eq_body⟩
        have hjoin := hlines.join_shown_eq
        rw [List.map_congr_left fun line hline => by rw [hall line hline], hlines.join_eq] at hjoin
        exact withoutCarriageReturn_eq_self_iff.1 hjoin.symm }

theorem ofString_showsLines_mixed : "a\r\r\n\nb\r".utf8ByteSize < maxOffset ∧
    (∃ lines, HasLines "a\r\r\n\nb\r" lines) ∧
      ∀ lines, HasLines "a\r\r\n\nb\r" lines → ShowsLines "a\r\r\n\nb\r" lines :=
  ⟨by decide, ofString_showsLines (by decide)⟩

/-- A carriage return that comes last is lost, although it is no line end. -/
theorem ofString_loses_carriageReturn : HasLines "a\r" [⟨"a\r", ""⟩] ∧
    (Source.ofString "a\r").line? 1 = .ok (some "a") ∧
    (Source.ofString "a\r").line? 1 ≠ .ok (some "a\r") := by
  have hline : (Source.ofString "a\r").line? 1 = .ok (some "a") := by decide +kernel
  refine ⟨.last "a\r" (by decide), hline, ?_⟩
  rw [hline]
  decide

end Ivy
