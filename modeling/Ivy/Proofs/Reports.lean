import Ivy.Proofs.PieceStream
import Ivy.Proofs.SourceLines
import Ivy.Report.Basic

/-!
# Reports on a text

A report on a text does not fail before its lines are written, and `Report.linesOf` are these lines
(`exists_report`).  A report that comes to its end has written all errors, and tells whether there
are any (`Report.Lines.write_eq_ok`); one whose `out` takes everything always does as much as `err`
lets it (`Report.Lines.write_of_unbounded`).
-/

namespace Ivy

/-! ## Sinks without a bound -/

namespace Sink

variable {s : Sink}

theorem write_of_unbounded (h : s.capacity = none) (text : String) :
    s.write text = (s.append text.toByteArray, none) := by
  rw [write, h]

theorem writeAll_of_unbounded (h : s.capacity = none) (texts : List String) :
    ∃ s', s.writeAll texts = (s', none) ∧ s'.capacity = none := by
  induction texts generalizing s with
  | nil => exact ⟨s, rfl, h⟩
  | cons text texts ih =>
    obtain ⟨s', hs', hcapacity⟩ := ih (s := s.append text.toByteArray) h
    refine ⟨s', ?_, hcapacity⟩
    rw [writeAll, write_of_unbounded h]
    exact hs'

end Sink

namespace Report

/-! ## The lines of a report -/

/-- The lines that tell the error `e` of `text`. -/
def errorLinesOf (text : String) (e : LexicalError) : List String :=
  ("error: " ++ e.message ++ "\n") ::
    ((shownLine? text e.line).map (lineNumber e.line ++ " | " ++ · ++ "\n")).toList

/-- The lines of the report on `text`, whose tokens are `tokens`. -/
def linesOf (text : String) (tokens : List Token) (printTokens : Bool) : Lines :=
  let src := Source.ofString text
  { listing := if printTokens then tokens.map (listingLine Quoted.isHidden src) else []
    errors := (src.errors tokens).flatMap (errorLinesOf text)
    clean := (src.errors tokens).isEmpty }

section LinesOf

variable {text : String}

theorem errorLines_eq (h : text.utf8ByteSize ≤ maxOffset) (e : LexicalError) :
    errorLines (Source.ofString text) e = .ok (errorLinesOf text e) := by
  rw [errorLines, line?_eq h, errorLinesOf]
  cases shownLine? text e.line with
  | none => rfl
  | some line => rfl

theorem lines_eq (h : text.utf8ByteSize ≤ maxOffset) (tokens : List Token) (printTokens : Bool) :
    lines (Source.ofString text) tokens printTokens = .ok (linesOf text tokens printTokens) := by
  have hlines : errorLines (Source.ofString text) = fun e => pure (errorLinesOf text e) :=
    funext (errorLines_eq h)
  rw [lines, hlines, List.mapM_pure]
  rw [linesOf, List.flatMap_def]
  rfl

end LinesOf

/-! ## Writing -/

namespace Lines

variable {l : Lines} {out err : Sink}

/-- Where `out` takes everything, only `err` can end a report early. -/
theorem write_of_unbounded (h : out.capacity = none) (l : Lines) (err : Sink) :
    (l.write out err).err = (err.writeAll l.errors).1 ∧ (l.write out err).result =
      (err.writeAll l.errors).2.elim (.ok l.clean) .error := by
  obtain ⟨out', hout, hcapacity⟩ := Sink.writeAll_of_unbounded h l.listing
  rw [write, hout]
  rcases err.writeAll l.errors with ⟨err', _ | e⟩
  · cases hclean : l.clean with
    | true => simp [Sink.write_of_unbounded hcapacity]
    | false => simp
  · simp

/-- A report that comes to its end has written all errors. -/
theorem write_eq_ok {b : Bool} (h : (l.write out err).result = .ok b) :
    b = l.clean ∧ (l.write out err).err = (err.writeAll l.errors).1 := by
  revert h
  rw [write]
  rcases out.writeAll l.listing with ⟨out', _ | e⟩
  · rcases err.writeAll l.errors with ⟨err', _ | e⟩
    · cases l.clean with
      | true =>
        dsimp only
        rcases out'.write doneLine with ⟨out'', _ | e⟩
        · rintro ⟨⟩
          exact ⟨rfl, rfl⟩
        · rintro ⟨⟩
      | false =>
        rintro ⟨⟩
        exact ⟨rfl, rfl⟩
    · rintro ⟨⟩
  · rintro ⟨⟩

variable {l' : Lines}

/-- The result and what goes to `err` do not depend on the listing, if `out` takes everything. -/
theorem write_congr_of_unbounded (herrors : l'.errors = l.errors) (hclean : l'.clean = l.clean)
    (h : out.capacity = none) : (l'.write out err).result = (l.write out err).result ∧
      (l'.write out err).err = (l.write out err).err := by
  obtain ⟨herr, hresult⟩ := write_of_unbounded h l err
  obtain ⟨herr', hresult'⟩ := write_of_unbounded h l' err
  rw [hresult, hresult', herr, herr', herrors, hclean]
  exact ⟨rfl, rfl⟩

/-- Nor do they between two reports that come to their ends. -/
theorem write_congr_of_eq_ok (herrors : l'.errors = l.errors) (hclean : l'.clean = l.clean)
    {b b' : Bool} (h : (l.write out err).result = .ok b) (h' : (l'.write out err).result = .ok b') :
    b' = b ∧ (l'.write out err).err = (l.write out err).err := by
  obtain ⟨rfl, herr⟩ := write_eq_ok h
  obtain ⟨rfl, herr'⟩ := write_eq_ok h'
  rw [herr, herr', herrors]
  exact ⟨hclean, rfl⟩

end Lines

end Report

/-- A report on a text is a scan, and the writing of lines. -/
theorem exists_report {text : String} (comments : CommentMode)
    (h : text.utf8ByteSize ≤ maxOffset) (hl : (Utf8.bytesOf text).count lineFeed < maxOffset) :
    ∃ tokens, tokenize text comments = .ok tokens ∧ ∀ printTokens out err,
      ∃ r, report text comments printTokens out err = .ok r ∧
        r.toWritten = (Report.linesOf text tokens printTokens).write out err := by
  have hsound : ((Source.ofString text).tokens comments).Sound := sound_tokens h hl
  obtain ⟨sc, hsc, -⟩ := TokenStream.exists_scan hsound
  refine ⟨sc.tokens, ?_, fun printTokens out err => ?_⟩
  · rw [tokenize, hsc]
    rfl
  · simp only [report, bind_eq_ok_iff, pure_eq_ok_iff]
    exact ⟨_, ⟨sc, hsc, _, Report.lines_eq h sc.tokens printTokens, rfl⟩, rfl⟩

end Ivy
