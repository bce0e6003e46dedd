import Ivy.Command.Options
import Ivy.Proofs.Reports

/-!
# Reports on sinks of limited room

To write texts one after the other is to write them at once (`Sink.writeAll_eq_write`), so a report
is written in three parts: the listing of the tokens, the errors, and the word that all is well
(`Report.Lines.write_eq`).  With unlimited room all of them are written.  With limited room the
first part that does not fit is cut off, and nothing is written behind it (`Report.Parts.within`,
`report_within`).
-/

namespace Ivy

/-! ## Writing at once -/

/-- The first bytes of two runs of bytes, if they reach into the second. -/
theorem extract_append_of_le {a b : ByteArray} {n : Nat} (h : a.size ≤ n) :
    (a ++ b).extract 0 n = a ++ b.extract 0 (n - a.size) := by
  have ha : a.extract 0 n = a := by
    apply ByteArray.ext
    simpa using Or.inr h
  rw [ByteArray.extract_append, ha, Nat.zero_sub]

theorem extract_append_of_ge {a b : ByteArray} {n : Nat} (h : n ≤ a.size) :
    (a ++ b).extract 0 n = a.extract 0 n := by
  have hb : b.extract 0 (n - a.size) = .empty := by
    rw [ByteArray.extract_eq_empty_iff]
    omega
  rw [ByteArray.extract_append, Nat.zero_sub, hb, ByteArray.append_empty]

namespace Sink

/-- Whether a sink has room for `size` more bytes. -/
def Fits (s : Sink) (size : Nat) : Prop := ∀ n ∈ s.capacity, size ≤ n - s.written.size

variable {s : Sink} {text text' : String}

theorem append_empty (s : Sink) : s.append .empty = s := by
  simp [append]

theorem append_append (s : Sink) (a b : ByteArray) :
    (s.append a).append b = s.append (a ++ b) := by
  simp [append, ByteArray.append_assoc]

theorem write_of_fits (h : s.Fits text.utf8ByteSize) :
    s.write text = (s.append text.toByteArray, none) := by
  unfold write
  cases hcap : s.capacity with
  | none => rfl
  | some n => exact if_pos (h n hcap)

theorem write_of_lt {n : Nat} (hcap : s.capacity = some n)
    (h : n - s.written.size < text.utf8ByteSize) :
    s.write text =
      (s.append (text.toByteArray.extract 0 (n - s.written.size)), some s.refusal) := by
  unfold write
  rw [hcap]
  exact if_neg (Nat.not_le.2 h)

theorem exists_lt_of_not_fits {size : Nat} (h : ¬ s.Fits size) :
    ∃ n, s.capacity = some n ∧ n - s.written.size < size := by
  simpa [Fits] using h

/-- Two texts are written as if they were one. -/
theorem write_append (s : Sink) (text text' : String) : s.write (text ++ text') =
    match s.write text with
    | (s, some e) => (s, some e)
    | (s, none) => s.write text' := by
  have hsize : (text ++ text').utf8ByteSize = text.utf8ByteSize + text'.utf8ByteSize := by simp
  by_cases hfirst : s.Fits text.utf8ByteSize
  · rw [write_of_fits hfirst]
    show _ = (s.append text.toByteArray).write text'
    by_cases hboth : s.Fits (text ++ text').utf8ByteSize
    · have hsecond : (s.append text.toByteArray).Fits text'.utf8ByteSize := by
        intro n hn
        have hle := hboth n hn
        simp only [append, ByteArray.size_append, String.size_toByteArray]
        omega
      rw [write_of_fits hboth, write_of_fits hsecond, append_append, String.toByteArray_append]
    · obtain ⟨n, hcap, hlt⟩ := exists_lt_of_not_fits hboth
      have hle := hfirst n hcap
      have hsize' : (s.append text.toByteArray).written.size =
          s.written.size + text.utf8ByteSize := by
        simp [append]
      have hlt' : n - (s.append text.toByteArray).written.size < text'.utf8ByteSize := by
        omega
      rw [write_of_lt hcap hlt, write_of_lt (s := s.append text.toByteArray) hcap hlt',
        append_append, String.toByteArray_append, extract_append_of_le (by simpa using hle), hsize',
        String.size_toByteArray, Nat.sub_sub]
      rfl
  · obtain ⟨n, hcap, hlt⟩ := exists_lt_of_not_fits hfirst
    have hlt' : n - s.written.size < (text ++ text').utf8ByteSize := by omega
    rw [write_of_lt hcap hlt, write_of_lt hcap hlt', String.toByteArray_append,
      extract_append_of_ge]
    rw [String.size_toByteArray]
    omega

theorem written_append_bounded (n : Nat) (bytes : ByteArray) :
    ((bounded n).append bytes).written = bytes := by
  simp [append, bounded]

theorem written_append_unbounded (bytes : ByteArray) :
    (unbounded.append bytes).written = bytes := by
  simp [append, unbounded]

theorem write_empty (s : Sink) : s.write "" = (s, none) := by
  rw [write_of_fits (fun n _ => Nat.zero_le _), String.toByteArray_empty, append_empty]

/-- A text that fits into the room that is left is written behind what there is. -/
theorem write_bounded_of_le {bytes : ByteArray} {n : Nat}
    (h : bytes.size + text.utf8ByteSize ≤ n) :
    ((bounded n).append bytes).write text =
      ((bounded n).append (bytes ++ text.toByteArray), none) := by
  rw [write_of_fits, append_append]
  rintro _ ⟨⟩
  rw [written_append_bounded]
  omega

/-- Of a text that does not fit only what fits is written. -/
theorem write_bounded_of_lt {bytes : ByteArray} {n : Nat} (hle : bytes.size ≤ n)
    (h : n < bytes.size + text.utf8ByteSize) :
    ((bounded n).append bytes).write text =
      ((bounded n).append ((bytes ++ text.toByteArray).extract 0 n), some .exhausted) := by
  have hlt : n - ((bounded n).append bytes).written.size < text.utf8ByteSize := by
    rw [written_append_bounded]
    omega
  rw [write_of_lt (s := (bounded n).append bytes) rfl hlt, append_append, written_append_bounded,
    extract_append_of_le hle]
  rfl

/-- Texts are written one after the other as if they were one. -/
theorem writeAll_eq_write (s : Sink) (texts : List String) :
    s.writeAll texts = s.write (String.join texts) := by
  induction texts generalizing s with
  | nil => exact (write_empty s).symm
  | cons text texts ih =>
    rw [writeAll, String.join_cons, write_append]
    rcases s.write text with ⟨s', _ | e⟩
    · exact ih s'
    · rfl

end Sink

/-! ## The parts of a report -/

namespace Report

/-- What a report writes, in three parts, and whether there are no errors. -/
structure Parts where
  listing : String
  errors : String
  done : String
  clean : Bool

/-- The parts of the lines of a report. -/
def Lines.parts (l : Lines) : Parts where
  listing := String.join l.listing
  errors := String.join l.errors
  done := if l.clean then doneLine else ""
  clean := l.clean

/-- A report is written part by part. -/
theorem Lines.write_eq (l : Lines) (out err : Sink) : l.write out err =
    match out.write l.parts.listing with
    | (out, some e) => ⟨out, err, .error e⟩
    | (out, none) =>
      match err.write l.parts.errors with
      | (err, some e) => ⟨out, err, .error e⟩
      | (err, none) =>
        match out.write l.parts.done with
        | (out, some e) => ⟨out, err, .error e⟩
        | (out, none) => ⟨out, err, .ok l.parts.clean⟩ := by
  rw [write, Sink.writeAll_eq_write, parts]
  rcases out.write (String.join l.listing) with ⟨out', _ | e⟩
  · dsimp only
    rw [Sink.writeAll_eq_write]
    rcases err.write (String.join l.errors) with ⟨err', _ | e⟩
    · dsimp only
      cases l.clean with
      | true =>
        rcases hdone : out'.write doneLine with ⟨out'', _ | e⟩
        · simp [hdone]
        · simp [hdone]
      | false =>
        rw [if_neg Bool.false_ne_true, if_neg Bool.false_ne_true, Sink.write_empty]
    · rfl
  · rfl

namespace Parts

/-- What is written of the parts, and the result, if `out` takes `n` bytes and `err` takes `m`. -/
def within (p : Parts) (n m : Nat) : ByteArray × ByteArray × Except WriteError Bool :=
  let listing := p.listing.toByteArray
  let errors := p.errors.toByteArray
  let done := p.done.toByteArray
  if n < listing.size then (listing.extract 0 n, .empty, .error .exhausted)
  else if m < errors.size then (listing, errors.extract 0 m, .error .exhausted)
  else if n < listing.size + done.size then
    ((listing ++ done).extract 0 n, errors, .error .exhausted)
  else (listing ++ done, errors, .ok p.clean)

variable {p : Parts} {n m : Nat}

theorem within_eq_ok {out err : ByteArray} {b : Bool} (h : p.within n m = (out, err, .ok b)) :
    out = (p.listing ++ p.done).toByteArray ∧ err = p.errors.toByteArray ∧ b = p.clean := by
  unfold within at h
  dsimp only at h
  split at h
  · cases h
  split at h
  · cases h
  split at h
  · cases h
  cases h
  exact ⟨String.toByteArray_append.symm, rfl, rfl⟩

theorem exists_extract_of_within (p : Parts) (n m : Nat) :
    (∃ k, (p.within n m).1 = (p.listing ++ p.done).toByteArray.extract 0 k) ∧
      ∃ k, (p.within n m).2.1 = p.errors.toByteArray.extract 0 k := by
  have hall (bytes : ByteArray) : bytes = bytes.extract 0 bytes.size :=
    ByteArray.extract_zero_size.symm
  have hnone (bytes : ByteArray) : .empty = bytes.extract 0 0 := by simp
  rw [String.toByteArray_append]
  unfold within
  dsimp only
  split
  · next h => exact ⟨⟨n, (extract_append_of_ge (Nat.le_of_lt h)).symm⟩, 0, hnone _⟩
  split
  · exact ⟨⟨_, (ByteArray.extract_append_eq_left rfl).symm⟩, m, rfl⟩
  split
  · exact ⟨⟨n, rfl⟩, _, hall _⟩
  · exact ⟨⟨_, hall _⟩, _, hall _⟩

end Parts

/-- With unlimited room all parts are written. -/
theorem Lines.write_unbounded (l : Lines) :
    (l.write .unbounded .unbounded).out.written = (l.parts.listing ++ l.parts.done).toByteArray ∧
      (l.write .unbounded .unbounded).err.written = l.parts.errors.toByteArray ∧
      (l.write .unbounded .unbounded).result = .ok l.parts.clean := by
  have hwrite {bytes : ByteArray} (text : String) : (Sink.unbounded.append bytes).write text =
      (Sink.unbounded.append (bytes ++ text.toByteArray), none) := by
    rw [Sink.write_of_unbounded rfl, Sink.append_append]
  have hstart : Sink.unbounded = Sink.unbounded.append .empty := (Sink.append_empty _).symm
  rw [write_eq, hstart]
  simp only [hwrite, Sink.written_append_unbounded, ByteArray.empty_append,
    String.toByteArray_append, and_self]

/-- With limited room the parts are cut off where they leave it. -/
theorem Lines.write_bounded (l : Lines) (n m : Nat) :
    ((l.write (.bounded n) (.bounded m)).out.written,
      (l.write (.bounded n) (.bounded m)).err.written,
      (l.write (.bounded n) (.bounded m)).result) = l.parts.within n m := by
  rw [write_eq]
  generalize l.parts = p
  have hstart (n : Nat) : Sink.bounded n = (Sink.bounded n).append .empty :=
    (Sink.append_empty _).symm
  have hlisting := p.listing.size_toByteArray
  have herrors := p.errors.size_toByteArray
  have hdone := p.done.size_toByteArray
  rw [hstart n, hstart m]
  by_cases h₁ : n < p.listing.utf8ByteSize
  · rw [Sink.write_bounded_of_lt (Nat.zero_le n) (by simpa using h₁)]
    simp [Parts.within, h₁, Sink.written_append_bounded]
  · rw [Sink.write_bounded_of_le (by simpa using h₁), ByteArray.empty_append]
    by_cases h₂ : m < p.errors.utf8ByteSize
    · have hlt : m < ByteArray.empty.size + p.errors.utf8ByteSize := by simpa using h₂
      simp only [Sink.write_bounded_of_lt (Nat.zero_le m) hlt]
      simp [Parts.within, h₁, h₂, Sink.written_append_bounded]
    · have hle : ByteArray.empty.size + p.errors.utf8ByteSize ≤ m := by simpa using h₂
      simp only [Sink.write_bounded_of_le hle]
      by_cases h₃ : n < p.listing.utf8ByteSize + p.done.utf8ByteSize
      · rw [Sink.write_bounded_of_lt (by omega) (by omega)]
        simp [Parts.within, h₁, h₂, h₃, Sink.written_append_bounded]
      · rw [Sink.write_bounded_of_le (by omega)]
        simp [Parts.within, h₁, h₂, h₃, Sink.written_append_bounded]

end Report

/-! ## Reports on a text -/

theorem isEmpty_errors_iff {src : Source} {tokens : List Token} :
    (src.errors tokens).isEmpty = true ↔ ∀ t ∈ tokens, t.kind ≠ .invalid := by
  rw [List.isEmpty_iff, Source.errors, List.filterMap_eq_nil_iff]
  apply forall₂_congr
  intro t _
  rw [← Option.not_isSome_iff_eq_none, Token.error?_isSome_iff]

/-- Whether a report `r` with unlimited room on a text, whose tokens are `tokens`, writes the
parts. -/
structure Report.Parts.AreOf (p : Report.Parts) (text : String) (o : Options)
    (tokens : List Token) (r : Report.Written) : Prop where
  listing_eq : p.listing = if o.printTokens then
    String.join (tokens.map (Report.listingLine Quoted.isHidden (Source.ofString text))) else ""
  clean_iff : p.clean = true ↔ ∀ t ∈ tokens, t.kind ≠ .invalid
  done_eq : p.done = if p.clean then "Done!\n" else ""
  errors_eq : p.clean = true → p.errors = ""
  out_eq : r.out.written = (p.listing ++ p.done).toByteArray
  err_eq : r.err.written = p.errors.toByteArray
  result_eq : r.result = .ok p.clean

/-- Whether a report `w`, where `out` takes `n` bytes and `err` takes `m`, writes as much of the
parts as there is room for. -/
structure Report.Parts.CutOff (p : Report.Parts) (n m : Nat) (w : Report.Written) : Prop where
  within_eq : (w.out.written, w.err.written, w.result) = p.within n m
  of_ok : ∀ b, w.result = .ok b → w.out.written = (p.listing ++ p.done).toByteArray ∧
    w.err.written = p.errors.toByteArray ∧ b = p.clean
  /-- No report on a text with errors says that all is well. -/
  of_not_clean : p.clean = false → ∃ k, w.out.written = p.listing.toByteArray.extract 0 k
  out_isPrefix : ∃ k, w.out.written = (p.listing ++ p.done).toByteArray.extract 0 k
  err_isPrefix : ∃ k, w.err.written = p.errors.toByteArray.extract 0 k

section Text

variable {text : String}

theorem parts_linesOf (text : String) (o : Options) (tokens : List Token) :
    (Report.linesOf text tokens o.printTokens).parts.AreOf text o tokens
      ((Report.linesOf text tokens o.printTokens).write .unbounded .unbounded) := by
  obtain ⟨hout, herr, hresult⟩ :=
    (Report.linesOf text tokens o.printTokens).write_unbounded
  exact
    { listing_eq := by
        show String.join (if o.printTokens then _ else []) = _
        split
        · rfl
        · exact String.join_nil
      clean_iff := isEmpty_errors_iff
      done_eq := rfl
      errors_eq := by
        intro hclean
        have hnil : (Source.ofString text).errors tokens = [] := List.isEmpty_iff.1 hclean
        simp [Report.Lines.parts, Report.linesOf, hnil]
      out_eq := hout
      err_eq := herr
      result_eq := hresult }

theorem Report.Parts.AreOf.cutOff {l : Report.Lines} {o : Options} {tokens : List Token}
    {r : Report.Written} (h : l.parts.AreOf text o tokens r) (n m : Nat) :
    l.parts.CutOff n m (l.write (.bounded n) (.bounded m)) := by
  have hwithin := l.write_bounded n m
  obtain ⟨hout, herr⟩ := l.parts.exists_extract_of_within n m
  rw [← hwithin] at hout herr
  exact
    { within_eq := hwithin
      of_ok := by
        intro b hb
        rw [hb] at hwithin
        exact Report.Parts.within_eq_ok hwithin.symm
      of_not_clean := by
        intro hclean
        have hdone := h.done_eq
        rw [hclean, if_neg Bool.false_ne_true] at hdone
        rwa [hdone, String.append_empty] at hout
      out_isPrefix := hout
      err_isPrefix := herr }

/-- A report with limited room writes the parts of one with unlimited room as far as they fit, one
after the other up to the first that does not. -/
theorem report_within (o : Options) (h : text.utf8ByteSize < maxOffset) :
    ∃ tokens p r, tokenize text o.comments = .ok tokens ∧
      report text o.comments o.printTokens .unbounded .unbounded = .ok r ∧
      Report.Parts.AreOf p text o tokens r.toWritten ∧
      ∀ n m, ∃ w, report text o.comments o.printTokens (.bounded n) (.bounded m) = .ok w ∧
        p.CutOff n m w.toWritten := by
  obtain ⟨tokens, htokens, hreport⟩ :=
    exists_report o.comments (Nat.le_of_lt h) (count_lineFeed_lt h)
  obtain ⟨r, hr, hwritten⟩ := hreport o.printTokens .unbounded .unbounded
  have hparts := parts_linesOf text o tokens
  refine ⟨tokens, _, r, htokens, hr, hwritten ▸ hparts, fun n m => ?_⟩
  obtain ⟨w, hw, hlimited⟩ := hreport o.printTokens (.bounded n) (.bounded m)
  exact ⟨w, hw, hlimited ▸ hparts.cutOff n m⟩

theorem report_within_listing : "a // b\n\x00".utf8ByteSize < maxOffset ∧
    ∃ tokens p r, tokenize "a // b\n\x00" .discard = .ok tokens ∧
      report "a // b\n\x00" .discard true .unbounded .unbounded = .ok r ∧
      Report.Parts.AreOf p "a // b\n\x00" { printTokens := true, comments := .discard } tokens
        r.toWritten ∧
      ∀ n m, ∃ w, report "a // b\n\x00" .discard true (.bounded n) (.bounded m) = .ok w ∧
        p.CutOff n m w.toWritten :=
  ⟨by decide, report_within { printTokens := true, comments := .discard } (by decide)⟩

end Text

end Ivy
