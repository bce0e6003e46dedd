import Ivy.Proofs.Causes
import Ivy.Proofs.LimitedReports
import Ivy.Proofs.OutputLines
import Ivy.Proofs.Quoting
import Ivy.Proofs.TokenLines

/-!
# Lines of a report

A report is read line by line.  Nothing that it says of a text is broken by a line feed of the
text: a quoted lexeme and the wording of an error have none, and a source line has none either.  So
`err` holds two lines for each invalid token, of which the second shows the line that the token is
on, and `out` holds a line for each token that is listed and one more if there are no errors
(`report_holdsLines`).
-/

namespace Ivy

/-! ## Texts without line feeds -/

theorem lineFeed_notMem_toString (n : Nat) : '\n' ∉ (toString n).toList :=
  not_mem_toString (fun _ => Nat.digitChar_ne '\n' (by decide)) n

theorem Kind.lineFeed_notMem_name (k : Kind) : '\n' ∉ k.name.toList := by
  cases k <;> decide

theorem Cause.lineFeed_notMem_message (cause : Cause) : '\n' ∉ cause.message.toList := by
  cases cause with
  | unexpectedCharacter c =>
    have hnone : '\n' ∉ (Quoted.encodeChar Quoted.isHidden c).toList := by
      rw [Quoted.encodeChar, String.toList_ofList]
      exact Quoted.lineFeed_notMem_escape c
    -- To unfold the message by `simp` would also unfold the tables of hidden characters.
    show '\n' ∉ ("unexpected character '" ++ Quoted.encodeChar Quoted.isHidden c ++ "'").toList
    simp only [String.toList_append, List.mem_append, not_or]
    exact ⟨⟨by decide, hnone⟩, by decide⟩
  | unterminatedString | bareCarriageReturn | interiorNull => decide

/-! ## Lines of a report -/

/-- The number `n` at the end of a column of `width` characters. -/
def rightAligned (width n : Nat) : String :=
  String.ofList (List.leftpad width ' ' (toString n).toList)

theorem toList_pushn (s : String) (c : Char) (n : Nat) :
    (s.pushn c n).toList = s.toList ++ List.replicate n c := by
  rw [String.pushn_eq_repeat_push]
  induction n with
  | zero => simp [Nat.repeat]
  | succ n ih => rw [Nat.repeat, String.toList_push, ih, List.replicate_succ', List.append_assoc]

theorem Token.toList_toString (t : Token) : t.toString.toList =
    '[' :: (t.kind.name.toList ++ ']' :: ' ' :: ((toString t.line).toList ++
      ':' :: ((toString t.start).toList ++ '-' :: (toString t.stop).toList))) := by
  show ("[" ++ t.kind.name ++ "] " ++ toString t.line ++ ":" ++ toString t.start ++ "-" ++
    toString t.stop).toList = _
  simp

namespace Report

theorem lineNumber_eq (n : Nat) : lineNumber n = rightAligned 5 n := by
  rw [lineNumber, rightAligned, List.leftpad, ← String.toList_inj, String.toList_append,
    toList_pushn, String.toList_ofList, String.length_toList, List.nil_append,
    String.toList_ofList]

example : lineNumber 42 = "   42" := by decide

/-- The line that lists a token, without its line feed. -/
def listed (src : Source) (t : Token) : String :=
  t.toString ++ " " ++ Quoted.encode Quoted.isHidden (src.lexeme t)

/-- The two lines that tell the error of an invalid token, whose line is shown as `shown t`. -/
def told (src : Source) (shown : Token → String) (t : Token) : List String :=
  ["error: line " ++ toString t.line ++ ": " ++ (Cause.ofLexeme (src.lexeme t)).message,
    rightAligned 5 t.line ++ " | " ++ shown t]

section Told

variable {text : String} {src : Source} {shown : Token → String} {t : Token} {tokens : List Token}

theorem lineFeed_notMem_listed (src : Source) (t : Token) : '\n' ∉ (listed src t).toList := by
  have hname := t.kind.lineFeed_notMem_name
  have hnumber := lineFeed_notMem_toString
  have hquoted : '\n' ∉ (Quoted.encode Quoted.isHidden (src.lexeme t)).toList :=
    Quoted.lineFeed_notMem_encode _
  simp [listed, Token.toList_toString, -Nat.toString_eq_repr, hname, hnumber, hquoted]

theorem lineFeed_notMem_told (h : '\n' ∉ (shown t).toList) :
    ∀ line ∈ told src shown t, '\n' ∉ line.toList := by
  have hnumber := lineFeed_notMem_toString t.line
  have hmessage := (Cause.ofLexeme (src.lexeme t)).lineFeed_notMem_message
  have haligned : '\n' ∉ (rightAligned 5 t.line).toList := by
    simp [rightAligned, List.leftpad, -Nat.toString_eq_repr, hnumber]
  simp [told, -Nat.toString_eq_repr, hnumber, hmessage, haligned, h]

/-- No token is listed as the word that all is well. -/
theorem listed_ne (src : Source) (t : Token) : listed src t ≠ "Done!" := by
  intro heq
  have hhead : (listed src t).toList.head? = some '[' := by
    rw [listed, String.toList_append, String.toList_append, Token.toList_toString]
    rfl
  rw [heq] at hhead
  exact absurd hhead (by decide)

theorem getLast?_listing_ne (src : Source) (tokens : List Token) (printTokens : Bool) :
    (if printTokens then tokens.map (listed src) else []).getLast? ≠ some "Done!" := by
  intro hlast
  cases printTokens with
  | false => cases hlast
  | true =>
    obtain ⟨t, -, ht⟩ := List.mem_map.1 (List.mem_of_getLast? hlast)
    exact listed_ne src t ht

theorem length_flatMap_told (src : Source) (shown : Token → String) (tokens : List Token) :
    (tokens.flatMap (told src shown)).length = 2 * tokens.length := by
  induction tokens with
  | nil => rfl
  | cons t tokens ih =>
    have htwo : (told src shown t).length = 2 := rfl
    rw [List.flatMap_cons, List.length_append, ih, htwo, List.length_cons]
    omega

theorem holdsLines_listing (src : Source) (tokens : List Token) :
    HoldsLines (String.join (tokens.map (listingLine Quoted.isHidden src))).toByteArray
      (tokens.map (listed src)) where
  bytes_eq := by
    rw [unlines, List.map_map]
    rfl
  not_mem line hline := by
    obtain ⟨t, -, rfl⟩ := List.mem_map.1 hline
    exact lineFeed_notMem_listed src t

theorem errorLinesOf_errorAt (h : shownLine? text t.line = some (shown t)) :
    errorLinesOf text (src.errorAt t) = (told src shown t).map (· ++ "\n") := by
  have hline : (src.errorAt t).line = t.line := rfl
  have hmessage : (src.errorAt t).message =
    "line " ++ toString t.line ++ ": " ++ (Cause.ofLexeme (src.lexeme t)).message := rfl
  have hwords : "error: line " = "error: " ++ "line " := by decide
  rw [errorLinesOf, hline, h, hmessage, lineNumber_eq, told, hwords]
  simp only [String.append_assoc, Option.map_some, Option.toList_some, List.map_cons, List.map_nil]

theorem holdsLines_err (h : ∀ t ∈ tokens, shownLine? text t.line = some (shown t))
    (printTokens : Bool) :
    HoldsLines (linesOf text tokens printTokens).parts.errors.toByteArray
      ((tokens.filter (·.kind = .invalid)).flatMap (told (Source.ofString text) shown)) where
  bytes_eq := by
    have htold : ∀ t ∈ tokens.filter (·.kind = .invalid),
        errorLinesOf text ((Source.ofString text).errorAt t) =
          (told (Source.ofString text) shown t).map (· ++ "\n") :=
      fun t ht => errorLinesOf_errorAt (h t (List.mem_filter.1 ht).1)
    show (String.join (((Source.ofString text).errors tokens).flatMap _)).toByteArray = _
    rw [Source.errors_eq_map, List.flatMap_map, List.flatMap_congr htold, unlines,
      List.map_flatMap]
  not_mem line hline := by
    obtain ⟨t, ht, hmem⟩ := List.mem_flatMap.1 hline
    have hshown := lineFeed_notMem_shownLine? (h t (List.mem_filter.1 ht).1)
    exact lineFeed_notMem_told hshown line hmem

theorem holdsLines_out (text : String) (tokens : List Token) (printTokens : Bool) :
    HoldsLines ((linesOf text tokens printTokens).parts.listing ++
        (linesOf text tokens printTokens).parts.done).toByteArray
      ((if printTokens then tokens.map (listed (Source.ofString text)) else []) ++
        if (linesOf text tokens printTokens).clean then ["Done!"] else []) := by
  rw [String.toByteArray_append]
  apply HoldsLines.append
  · cases printTokens with
    | true => exact holdsLines_listing _ tokens
    | false => exact .nil
  · show HoldsLines (if (linesOf text tokens printTokens).clean then _ else "").toByteArray _
    cases (linesOf text tokens printTokens).clean with
    | true => exact ⟨rfl, by decide⟩
    | false => exact .nil

end Told

/-- Whether a report on a text, whose tokens are `tokens`, is made of lines, one or two for each
thing that it tells, and fits the tokens. -/
structure Written.ReadsAs (r : Written) (text : String) (printTokens clean : Bool)
    (tokens : List Token) : Prop where
  result_eq : r.result = .ok clean
  clean_iff_valid : clean = true ↔ ∀ t ∈ tokens, t.kind ≠ .invalid
  clean_iff_empty : clean = true ↔ r.err.written = .empty
  clean_iff_done : clean = true ↔ EndsWithLine r.out.written "Done!"
  /-- There are two lines for each invalid token, and its own line is looked up for them. -/
  holdsLines_err : ∃ shown : Token → String,
    (∀ t ∈ tokens, t.kind = .invalid →
      (Source.ofString text).line? t.line = .ok (some (shown t))) ∧
    HoldsLines r.err.written
      ((tokens.filter (·.kind = .invalid)).flatMap (told (Source.ofString text) shown))
  holdsLines_out : HoldsLines r.out.written
    ((if printTokens then tokens.map (listed (Source.ofString text)) else []) ++
      if clean then ["Done!"] else [])
  count_err : r.err.written.data.toList.count lineFeed = 2 * tokens.countP (·.kind = .invalid)
  count_out : r.out.written.data.toList.count lineFeed =
    (if printTokens then tokens.length else 0) + if clean then 1 else 0

end Report

section Text

variable {text : String}

/-- The lines of a report are told apart by their line feeds. -/
theorem Report.readsAs_linesOf (h : text.utf8ByteSize ≤ maxOffset) {tokens : List Token}
    (hshown : ∀ t ∈ tokens, ∃ line, shownLine? text t.line = some line) (printTokens : Bool) :
    ((linesOf text tokens printTokens).write .unbounded .unbounded).ReadsAs text printTokens
      (linesOf text tokens printTokens).clean tokens := by
  choose! shown hlook using hshown
  obtain ⟨hout, herr, hresult⟩ := (linesOf text tokens printTokens).write_unbounded
  have hlinesOut := holdsLines_out text tokens printTokens
  have hlinesErr := holdsLines_err hlook printTokens
  rw [← hout] at hlinesOut
  rw [← herr] at hlinesErr
  have hvalid : (linesOf text tokens printTokens).clean = true ↔
    ∀ t ∈ tokens, t.kind ≠ .invalid := isEmpty_errors_iff
  exact
    { result_eq := hresult
      clean_iff_valid := hvalid
      clean_iff_empty := by
        rw [hvalid, hlinesErr.eq_empty_iff]
        simp [told]
      clean_iff_done := by
        rw [hlinesOut.endsWith_iff]
        cases (linesOf text tokens printTokens).clean with
        | true => simp
        | false =>
          have hlast := getLast?_listing_ne (Source.ofString text) tokens printTokens
          simpa using hlast
      holdsLines_err := ⟨shown, fun t ht _ => by rw [line?_eq h, hlook t ht], hlinesErr⟩
      holdsLines_out := hlinesOut
      count_err := by
        rw [hlinesErr.count_eq, length_flatMap_told, List.countP_eq_length_filter]
      count_out := by
        rw [hlinesOut.count_eq, List.length_append, apply_ite List.length, apply_ite List.length,
          List.length_map]
        rfl }

/-- A report on a text reads as lines, whether or not it lists the tokens. -/
theorem exists_readsAs (comments : CommentMode) (h : text.utf8ByteSize ≤ maxOffset)
    (hl : (Utf8.bytesOf text).count lineFeed < maxOffset) :
    ∃ tokens, tokenize text comments = .ok tokens ∧ ∀ printTokens, ∃ clean r,
      report text comments printTokens .unbounded .unbounded = .ok r ∧
        r.toWritten.ReadsAs text printTokens clean tokens := by
  obtain ⟨tokens, htokens, hreport⟩ := exists_report comments h hl
  have heq : tokens = tokensOf comments 0 1 (pieces (Utf8.bytesOf text)) :=
    Except.ok.inj (htokens.symm.trans (tokenize_eq h hl))
  have hshown : ∀ t ∈ tokens, ∃ line, shownLine? text t.line = some line :=
    fun t ht => exists_shownLine? (heq ▸ ht)
  refine ⟨tokens, htokens, fun printTokens => ?_⟩
  obtain ⟨r, hr, hwritten⟩ := hreport printTokens .unbounded .unbounded
  exact ⟨_, r, hr, hwritten ▸ Report.readsAs_linesOf h hshown printTokens⟩

/-- A report is made of lines that tell what the tokens are, and whether they are right. -/
theorem report_holdsLines (o : Options) (h : text.utf8ByteSize ≤ maxOffset)
    (hl : (Utf8.bytesOf text).count lineFeed < maxOffset) :
    ∃ tokens clean r, tokenize text o.comments = .ok tokens ∧
      report text o.comments o.printTokens .unbounded .unbounded = .ok r ∧
      r.toWritten.ReadsAs text o.printTokens clean tokens := by
  obtain ⟨tokens, htokens, hreads⟩ := exists_readsAs o.comments h hl
  obtain ⟨clean, r, hr, h⟩ := hreads o.printTokens
  exact ⟨tokens, clean, r, htokens, hr, h⟩

theorem report_holdsLines_unterminated : "a\r\n \x00\"b\nc".utf8ByteSize ≤ maxOffset ∧
    (Utf8.bytesOf "a\r\n \x00\"b\nc").count lineFeed < maxOffset ∧
    ∃ tokens clean r, tokenize "a\r\n \x00\"b\nc" .retain = .ok tokens ∧
      report "a\r\n \x00\"b\nc" .retain true .unbounded .unbounded = .ok r ∧
      r.toWritten.ReadsAs "a\r\n \x00\"b\nc" true clean tokens :=
  ⟨by decide, by decide, report_holdsLines { printTokens := true } (by decide) (by decide)⟩

end Text

end Ivy
