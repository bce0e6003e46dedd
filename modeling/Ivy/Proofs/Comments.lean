import Ivy.Command.Options
import Ivy.Proofs.Reports
import Ivy.Proofs.TokenLists

/-!
# Comments

To discard the comments of a text is to drop their tokens and to change nothing else.  No error is
lost by that, so a report tells the same errors and comes to the same result (`tokenize_discard`).
-/

namespace Ivy

/-- The tokens without the comments. -/
def withoutComments (tokens : List Token) : List Token :=
  tokens.filter (·.kind ≠ .commentLine)

/-- No comment stands for an error. -/
theorem errors_withoutComments (src : Source) (tokens : List Token) :
    src.errors (withoutComments tokens) = src.errors tokens := by
  rw [Source.errors, Source.errors, withoutComments, List.filterMap_filter]
  congr 1
  funext t
  by_cases hk : t.kind = .commentLine
  · simp [hk, Token.error?, Kind.isError]
  · simp [hk]

theorem linesOf_withoutComments (text : String) (tokens : List Token) (printTokens : Bool) :
    (Report.linesOf text (withoutComments tokens) printTokens).errors =
        (Report.linesOf text tokens printTokens).errors ∧
      (Report.linesOf text (withoutComments tokens) printTokens).clean =
        (Report.linesOf text tokens printTokens).clean := by
  simp only [Report.linesOf, errors_withoutComments, and_self]

theorem linesOf_withoutComments_false (text : String) (tokens : List Token) :
    Report.linesOf text (withoutComments tokens) false = Report.linesOf text tokens false := by
  simp only [Report.linesOf, errors_withoutComments, Bool.false_eq_true, if_false]

section Text

variable {text : String}

/-- Discarding the comments of a text drops their tokens.  Whatever else is asked for, a report
tells the same errors, and whether there are any. -/
theorem tokenize_discard (h : text.utf8ByteSize ≤ maxOffset)
    (hl : (Utf8.bytesOf text).count lineFeed < maxOffset) :
    ∃ tokens, tokenize text .retain = .ok tokens ∧
      tokenize text .discard = .ok (withoutComments tokens) ∧
      (Source.ofString text).errors (withoutComments tokens) =
        (Source.ofString text).errors tokens ∧
      ∀ (o : Options) (out err : Sink), ∃ o' r r',
        o.add "--discard-comments" = .ok o' ∧
        report text o.comments o.printTokens out err = .ok r ∧
        report text o'.comments o'.printTokens out err = .ok r' ∧
        (out.capacity = none → r'.result = r.result ∧ r'.err = r.err) ∧
        (o.printTokens = false → r'.toWritten = r.toWritten) ∧
        ∀ b b', r.result = .ok b → r'.result = .ok b' → b' = b ∧ r'.err = r.err := by
  obtain ⟨tokens, htokens, hretain⟩ := exists_report .retain h hl
  obtain ⟨tokens', htokens', hdiscard⟩ := exists_report .discard h hl
  have hwithout : tokens' = withoutComments tokens := by
    rw [tokenize_eq h hl] at htokens htokens'
    cases htokens
    cases htokens'
    exact tokensOf_discard _
  rw [hwithout] at htokens' hdiscard
  refine ⟨tokens, htokens, htokens', errors_withoutComments _ tokens, fun o out err => ?_⟩
  have hadd : o.add "--discard-comments" = .ok { o with comments := .discard } := by
    simp [Options.add]
  obtain ⟨r', hr', hwritten'⟩ := hdiscard o.printTokens out err
  cases ho : o.comments with
  | retain =>
    obtain ⟨r, hr, hwritten⟩ := hretain o.printTokens out err
    obtain ⟨herrors, hclean⟩ := linesOf_withoutComments text tokens o.printTokens
    refine ⟨_, r, r', hadd, hr, hr', ?_⟩
    rw [hwritten, hwritten']
    refine ⟨Report.Lines.write_congr_of_unbounded herrors hclean, fun hlisting => ?_,
      fun b b' => Report.Lines.write_congr_of_eq_ok herrors hclean⟩
    rw [hlisting, linesOf_withoutComments_false]
  | discard =>
    refine ⟨_, r', r', hadd, hr', hr', fun _ => ⟨rfl, rfl⟩, fun _ => rfl, fun b b' hb hb' => ?_⟩
    rw [hb] at hb'
    cases hb'
    exact ⟨rfl, rfl⟩

theorem tokenize_discard_division :
    "a / b // c\n#".utf8ByteSize ≤ maxOffset ∧
      (Utf8.bytesOf "a / b // c\n#").count lineFeed < maxOffset ∧
      ∃ tokens, tokenize "a / b // c\n#" .retain = .ok tokens ∧
        tokenize "a / b // c\n#" .discard = .ok (withoutComments tokens) ∧
        (Source.ofString "a / b // c\n#").errors (withoutComments tokens) =
          (Source.ofString "a / b // c\n#").errors tokens ∧
        ∀ (o : Options) (out err : Sink), ∃ o' r r',
          o.add "--discard-comments" = .ok o' ∧
          report "a / b // c\n#" o.comments o.printTokens out err = .ok r ∧
          report "a / b // c\n#" o'.comments o'.printTokens out err = .ok r' ∧
          (out.capacity = none → r'.result = r.result ∧ r'.err = r.err) ∧
          (o.printTokens = false → r'.toWritten = r.toWritten) ∧
          ∀ b b', r.result = .ok b → r'.result = .ok b' → b' = b ∧ r'.err = r.err :=
  ⟨by decide, by decide, tokenize_discard (by decide) (by decide)⟩

end Text

end Ivy
