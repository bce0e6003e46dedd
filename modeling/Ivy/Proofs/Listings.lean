import Ivy.Proofs.Partition
import Ivy.Proofs.ReportLines

/-!
# Listings, read back

A listing of tokens can be read back, though lexemes may hold anything, what looks like the end of
a lexeme and the start of another line included (`Listing.decode_outText`).  So two texts with the
same listing have the same tokens with the same lexemes, and may only differ in the gaps between
them (`report_decodes`).
-/

namespace Ivy

theorem Kind.bracketRight_notMem_name (k : Kind) : ']' ∉ k.name.toList := by
  cases k <;> decide

namespace Listing

/-! ## Lines of a listing -/

/-- The line that lists a token with its lexeme, where the characters of `hidden` are written by
their code points. -/
def line (hidden : Char → Bool) (e : Token × String) : String :=
  e.1.toString ++ " " ++ Quoted.encode hidden e.2 ++ "\n"

/-- Reads the character `c`. -/
def skip? (c : Char) : List Char → Option (List Char)
  | [] => none
  | d :: l => if d = c then some l else none

/-- Reads a number up to the character `c` behind it. -/
def takeNumber? (c : Char) (l : List Char) : Option (Nat × List Char) :=
  (cutAt? c l).map fun (digits, r) => (numberOf 10 digits, r)

/-- Reads the line that lists a token with its lexeme. -/
def takeEntry? (l : List Char) : Option ((Token × String) × List Char) := do
  let l ← skip? '[' l
  let (name, l) ← cutAt? ']' l
  let kind ← Kind.ofName? (String.ofList name)
  let l ← skip? ' ' l
  let (line, l) ← takeNumber? ':' l
  let (start, l) ← takeNumber? '-' l
  let (stop, l) ← takeNumber? ' ' l
  let (lexeme, l) ← Quoted.takeQuoted? l
  let l ← skip? '\n' l
  return ((⟨kind, start, stop, line⟩, lexeme), l)

section Line

variable {hidden : Char → Bool}

theorem skip?_cons (c : Char) (l : List Char) : skip? c (c :: l) = some l := if_pos rfl

theorem takeNumber?_toString {c : Char} (hc : ∀ k : Nat, k.digitChar ≠ c) (n : Nat)
    (l : List Char) : takeNumber? c ((toString n).toList ++ c :: l) = some (n, l) := by
  rw [takeNumber?, cutAt?_append (not_mem_toString hc n), Option.map_some]
  exact congrArg (fun m => some (m, l)) (numberOf_toString n)

theorem toList_line (e : Token × String) (r : List Char) : (line hidden e).toList ++ r =
    '[' :: (e.1.kind.name.toList ++ ']' :: ' ' :: ((toString e.1.line).toList ++
      ':' :: ((toString e.1.start).toList ++ '-' :: ((toString e.1.stop).toList ++
        ' ' :: ((Quoted.encode hidden e.2).toList ++ '\n' :: r))))) := by
  simp [line, Token.toList_toString]

/-- A line of a listing is read back. -/
theorem takeEntry?_line (e : Token × String) (r : List Char) :
    takeEntry? ((line hidden e).toList ++ r) = some (e, r) := by
  have hline := takeNumber?_toString (fun k => Nat.digitChar_ne ':' (by decide)) e.1.line
  have hstart := takeNumber?_toString (fun k => Nat.digitChar_ne '-' (by decide)) e.1.start
  have hstop := takeNumber?_toString (fun k => Nat.digitChar_ne ' ' (by decide)) e.1.stop
  rw [toList_line, takeEntry?]
  simp only [skip?_cons, cutAt?_append e.1.kind.bracketRight_notMem_name, hline, hstart, hstop,
    String.ofList_toList, Kind.ofName?_name, Quoted.takeQuoted?_encode, Option.bind_eq_bind,
    Option.bind_some, Option.pure_def]

end Line

/-! ## Whole listings -/

/-- The tokens of a text with their lexemes. -/
def entries (text : String) (tokens : List Token) : List (Token × String) :=
  tokens.map fun t => (t, (Source.ofString text).lexeme t)

/-- What a report that lists the tokens of a text writes to `out`, where the characters of `hidden`
are written by their code points. -/
def outText (hidden : Char → Bool) (text : String) (tokens : List Token) : String :=
  String.join ((entries text tokens).map (line hidden)) ++
    if tokens.all (·.kind ≠ .invalid) then "Done!\n" else ""

/-- Reads tokens with their lexemes, and whether there are no errors, from what a report has written
to `out`. -/
def decode (out : String) : Option (List (Token × String) × Bool) :=
  let (entries, rest) := readAll takeEntry? out.toList
  if rest = [] then some (entries, false)
  else if rest = "Done!\n".toList then some (entries, true)
  else none

section Whole

variable {hidden : Char → Bool} {text : String} {tokens : List Token}

theorem readAll_outText {rest : List Char} (hrest : takeEntry? rest = none)
    (es : List (Token × String)) :
    readAll takeEntry? ((String.join (es.map (line hidden))).toList ++ rest) = (es, rest) := by
  have hne (e : Token × String) : (line hidden e).toList ≠ [] := by
    have hline : (line hidden e).toList ++ [] = '[' :: _ := toList_line e []
    rw [List.append_nil] at hline
    rw [hline]
    exact List.cons_ne_nil _ _
  have hjoin : (String.join (es.map (line hidden))).toList =
      es.flatMap fun e => (line hidden e).toList := by
    rw [String.toList_join, List.flatMap_map]
  rw [hjoin]
  exact readAll_flatMap takeEntry?_line hne hrest es

/-- A listing is read back. -/
theorem decode_outText (hidden : Char → Bool) (text : String) (tokens : List Token) :
    decode (outText hidden text tokens) =
      some (entries text tokens, tokens.all (·.kind ≠ .invalid)) := by
  rw [decode, outText]
  cases tokens.all (·.kind ≠ .invalid) with
  | true =>
    rw [if_pos rfl, String.toList_append, readAll_outText (by decide)]
    rfl
  | false =>
    rw [if_neg Bool.false_ne_true, String.toList_append, readAll_outText (by decide)]
    rfl

theorem out_written (text : String) (tokens : List Token) :
    ((Report.linesOf text tokens true).write .unbounded .unbounded).out.written =
      (outText Quoted.isHidden text tokens).toByteArray := by
  have hclean : (Report.linesOf text tokens true).clean = tokens.all (·.kind ≠ .invalid) := by
    have hvalid : (Report.linesOf text tokens true).clean = true ↔
      ∀ t ∈ tokens, t.kind ≠ .invalid := isEmpty_errors_iff
    rw [Bool.eq_iff_iff, hvalid]
    simp
  rw [(Report.linesOf text tokens true).write_unbounded.1, outText, entries, List.map_map, ← hclean]
  rfl

end Whole

end Listing

/-! ## Texts with one listing -/

section Gaps

variable {text text' : String} {tokens : List Token}

/-- Every byte is part of a gap or of a token. -/
theorem Tiles.gap_or_token {comments : CommentMode} {offset : Nat} {ts : List Token}
    (h : Tiles comments text offset ts) {i : Nat} (hle : offset ≤ i)
    (hlt : i < text.utf8ByteSize) :
    (∃ g ∈ gaps text.utf8ByteSize offset ts, g.1 ≤ i ∧ i < g.2) ∨
      ∃ t ∈ ts, t.start ≤ i ∧ i < t.stop := by
  induction h with
  | nil start => exact .inl ⟨_, List.mem_singleton_self _, hle, hlt⟩
  | cons start t ts _ _ _ ih =>
    by_cases hstart : i < t.start
    · exact .inl ⟨_, List.mem_cons_self, hle, hstart⟩
    by_cases hstop : i < t.stop
    · exact .inr ⟨t, List.mem_cons_self, by omega, hstop⟩
    rcases ih (by omega) with ⟨g, hg, hi⟩ | ⟨t', ht', hi⟩
    · exact .inl ⟨g, List.mem_cons_of_mem _ hg, hi⟩
    · exact .inr ⟨t', List.mem_cons_of_mem _ ht', hi⟩

theorem getElem?_bytesBetween {start stop i : Nat} (hstart : start ≤ i) (hstop : i < stop) :
    (bytesBetween text start stop)[i - start]? = (Utf8.bytesOf text)[i]? := by
  rw [bytesBetween, List.getElem?_take_of_lt (by omega), List.getElem?_drop,
    Nat.add_sub_cancel' hstart]

/-- Texts in which the tokens have the same bytes differ in gaps only. -/
theorem Tiles.mem_gap {comments : CommentMode} {ts : List Token}
    (h : Tiles comments text 0 ts) (hsize : text'.utf8ByteSize = text.utf8ByteSize)
    (hbytes : ∀ t ∈ ts, bytesBetween text' t.start t.stop = bytesBetween text t.start t.stop)
    (i : Nat) (hne : (Utf8.bytesOf text')[i]? ≠ (Utf8.bytesOf text)[i]?) :
    ∃ g ∈ gaps text.utf8ByteSize 0 ts, g.1 ≤ i ∧ i < g.2 := by
  by_cases hlt : i < text.utf8ByteSize
  · rcases h.gap_or_token (Nat.zero_le i) hlt with hgap | ⟨t, ht, hstart, hstop⟩
    · exact hgap
    · rw [← getElem?_bytesBetween hstart hstop, hbytes t ht,
        getElem?_bytesBetween hstart hstop] at hne
      exact absurd rfl hne
  · have hnone {s : String} (hs : s.utf8ByteSize = text.utf8ByteSize) :
        (Utf8.bytesOf s)[i]? = none := by
      rw [List.getElem?_eq_none_iff, Utf8.length_bytesOf]
      omega
    rw [hnone hsize, hnone rfl] at hne
    exact absurd rfl hne

theorem Token.IsPart.bytesOf_lexeme {t : Token} (h : t.IsPart text)
    (hsize : text.utf8ByteSize ≤ maxOffset) :
    Utf8.bytesOf ((Source.ofString text).lexeme t) = bytesBetween text t.start t.stop := by
  rw [Source.lexeme, text_ofString hsize (Nat.le_of_lt h.start_lt) h.stop_le,
    h.isText.bytesOf_textOf]

theorem exists_tiles (comments : CommentMode) (h : text.utf8ByteSize < maxOffset) :
    ∃ ts line, tokenize text comments =
        .ok (ts ++ [⟨.eof, text.utf8ByteSize, text.utf8ByteSize, line⟩]) ∧
      Tiles comments text 0 ts := by
  obtain ⟨ts, hts, htiles⟩ := @tiles_tokensOf comments text 0 1 _ List.drop_zero (Nat.zero_le _)
    (Utf8.isText_bytesOf text)
  exact ⟨ts, _, (tokenize_of_lt h).trans (congrArg Except.ok hts), htiles⟩

/-- Whether two texts differ only in gaps, made of blanks and line ends, between tokens, of which
the last is the end mark. -/
structure AgreeOutsideGaps (text text' : String) (tokens : List Token) : Prop where
  size_eq : text'.utf8ByteSize = text.utf8ByteSize
  isGap : ∀ g ∈ gaps text.utf8ByteSize 0 tokens.dropLast,
    IsGap .retain text g.1 g.2 ∧ IsGap .retain text' g.1 g.2
  mem_gap : ∀ i, (Utf8.bytesOf text')[i]? ≠ (Utf8.bytesOf text)[i]? →
    ∃ g ∈ gaps text.utf8ByteSize 0 tokens.dropLast, g.1 ≤ i ∧ i < g.2

theorem agreeOutsideGaps {tokens' : List Token} (h : text.utf8ByteSize < maxOffset)
    (h' : text'.utf8ByteSize < maxOffset) (htokens : tokenize text .retain = .ok tokens)
    (htokens' : tokenize text' .retain = .ok tokens')
    (heq : Listing.entries text' tokens' = Listing.entries text tokens) :
    AgreeOutsideGaps text text' tokens := by
  have hsame : tokens' = tokens := by
    have hfst := congrArg (List.map Prod.fst) heq
    simpa [Listing.entries, Function.comp_def] using hfst
  subst hsame
  have hlexeme : ∀ t ∈ tokens',
      (Source.ofString text').lexeme t = (Source.ofString text).lexeme t :=
    fun t ht => congrArg Prod.snd (List.map_inj_left.1 heq t ht)
  obtain ⟨ts, line, hts, htiles⟩ := exists_tiles .retain h
  obtain ⟨ts', line', hts', htiles'⟩ := exists_tiles .retain h'
  rw [htokens, Except.ok.injEq] at hts
  rw [htokens', Except.ok.injEq, hts] at hts'
  obtain ⟨rfl, heof⟩ := List.append_inj' hts' rfl
  have hsize : text'.utf8ByteSize = text.utf8ByteSize :=
    (congrArg Token.stop (List.cons.inj heof).1).symm
  have hdrop : tokens'.dropLast = ts := by rw [hts, List.dropLast_concat]
  rw [← hdrop] at htiles htiles'
  have hbytes : ∀ t ∈ tokens'.dropLast,
      bytesBetween text' t.start t.stop = bytesBetween text t.start t.stop := by
    intro t ht
    rw [← (htiles'.isPart t ht).bytesOf_lexeme (Nat.le_of_lt h'),
      ← (htiles.isPart t ht).bytesOf_lexeme (Nat.le_of_lt h),
      hlexeme t (List.dropLast_subset _ ht)]
  exact
    { size_eq := hsize
      isGap := fun g hg => ⟨htiles.isGap g hg, htiles'.isGap g (hsize.symm ▸ hg)⟩
      mem_gap := htiles.mem_gap hsize hbytes }

end Gaps

/-- Whether what reports on a text write to `out`, if they list the tokens, tells the tokens and
their lexemes. -/
structure Listing.Determines (text : String) : Prop where
  /-- Reports are read back, whichever characters are hidden. -/
  decode_eq : ∀ comments, ∃ tokens r, tokenize text comments = .ok tokens ∧
    report text comments true .unbounded .unbounded = .ok r ∧
    r.out.written = (outText Quoted.isHidden text tokens).toByteArray ∧
    ∀ hidden, decode (outText hidden text tokens) =
      some (entries text tokens, tokens.all (·.kind ≠ .invalid))
  /-- Another text with the same report differs in gaps only. -/
  agree : ∀ text' : String, text'.utf8ByteSize < maxOffset → ∀ hidden tokens tokens',
    tokenize text .retain = .ok tokens → tokenize text' .retain = .ok tokens' →
    outText hidden text' tokens' = outText hidden text tokens → AgreeOutsideGaps text text' tokens

/-- A listing of the tokens can be read back. -/
theorem report_decodes {text : String} (h : text.utf8ByteSize < maxOffset) :
    Listing.Determines text where
  decode_eq comments := by
    obtain ⟨tokens, htokens, hreport⟩ :=
      exists_report comments (Nat.le_of_lt h) (count_lineFeed_lt h)
    obtain ⟨r, hr, hwritten⟩ := hreport true .unbounded .unbounded
    refine ⟨tokens, r, htokens, hr, ?_, fun hidden => Listing.decode_outText hidden text tokens⟩
    rw [hwritten]
    exact Listing.out_written text tokens
  agree text' h' hidden tokens tokens' htokens htokens' heq := by
    apply agreeOutsideGaps h h' htokens htokens'
    have hdecode := congrArg Listing.decode heq
    rw [Listing.decode_outText, Listing.decode_outText, Option.some.injEq] at hdecode
    exact congrArg Prod.fst hdecode

theorem report_decodes_string : "\"[dot] 1:0-1 \\\".\\\"\n\" .\t\r\n".utf8ByteSize < maxOffset ∧
    Listing.Determines "\"[dot] 1:0-1 \\\".\\\"\n\" .\t\r\n" :=
  ⟨by decide, report_decodes (by decide)⟩

end Ivy
