import Ivy.Command.Run
import Ivy.Proofs.FileTrees
import Ivy.Proofs.ReportLines

/-!
# Exit codes

A run of the command ends in one of four ways: its arguments make no sense, it shows how it is
used, it cannot read the source, or it reports on it (`Environment.Ends`, `Environment.run_ends`).
The exit code and standard output tell which (`run_follows`).  A run reads no file but the script,
and standard input only if there is no script.  A log changes nothing but what stands in front of
the rest of standard error, whichever events it lets through and however it writes them.
-/

namespace Ivy

theorem mapError_eq_ok_iff {ε ε' α : Type} {x : Except ε α} {g : ε → ε'} {a : α} :
    x.mapError g = .ok a ↔ x = .ok a := by
  cases x <;> simp [Except.mapError]

theorem mapError_eq_error_iff {ε ε' α : Type} {x : Except ε α} {g : ε → ε'} {e' : ε'} :
    x.mapError g = .error e' ↔ ∃ e, x = .error e ∧ g e = e' := by
  cases x <;> simp [Except.mapError]

/-- The bytes of the script, or of standard input if none is named. -/
def Environment.sourceBytes (env : Environment) : Option String → Except ReadError ByteArray
  | some path => env.read path
  | none => env.standardInput

/-- How a run ends, by what its arguments ask for. -/
inductive Environment.Ends (env : Environment) : Except UsageError Options → Outcome → Prop
  | misused (e : UsageError) : Ends env (.error e) e.toFailure.outcome
  | helped (o : Options) (hhelp : o.help = true) :
    Ends env (.ok o) ⟨0, usage.toByteArray, .empty⟩
  | unread (o : Options) (f : Failure) (hhelp : o.help = false)
    (hload : env.load o.script = .error f) : Ends env (.ok o) f.outcome
  | reported (o : Options) (text : String) (tokens : List Token) (clean : Bool) (r : Report.Written)
    (errorOutput : ByteArray) (hhelp : o.help = false) (hload : env.load o.script = .ok text)
    (htokens : tokenize text o.comments = .ok tokens)
    (hreads : r.ReadsAs text o.printTokens clean tokens) :
    Ends env (.ok o) ⟨if clean then 0 else 1, r.out.written, errorOutput⟩

namespace Environment

variable {env env' : Environment} {arguments : List String} {o : Options} {outcome : Outcome}

/-! ## Loading -/

theorem decodeText_eq_ok_iff {bytes : ByteArray} {text : String} :
    decodeText bytes = .ok text ↔ bytes = text.toByteArray := by
  constructor
  · intro h
    unfold decodeText String.fromUTF8? at h
    split at h
    · cases h
    · next hsome =>
      cases h
      split at hsome
      · cases hsome
        rfl
      · cases hsome
  · rintro rfl
    simp [decodeText, String.fromUTF8?, text.isValidUTF8, String.fromUTF8]

theorem load_eq (env : Environment) (script : Option String) : env.load script =
    (env.sourceBytes script >>= decodeText).mapError
      (script.elim .standardInput fun path => .script path) := by
  cases script with
  | none => rfl
  | some path => rfl

theorem load_eq_ok_iff {script : Option String} {text : String} :
    env.load script = .ok text ↔ env.sourceBytes script = .ok text.toByteArray := by
  rw [load_eq, mapError_eq_ok_iff]
  cases env.sourceBytes script with
  | error e => exact iff_of_false nofun nofun
  | ok bytes =>
    rw [Except.ok.injEq]
    exact decodeText_eq_ok_iff

theorem exitCode_of_load {script : Option String} {f : Failure} (h : env.load script = .error f) :
    f.exitCode = 1 := by
  rw [load_eq, mapError_eq_error_iff] at h
  obtain ⟨e, -, rfl⟩ := h
  cases script with
  | none => rfl
  | some path => rfl

/-! ## Running -/

theorem logComplaints_eq (h : ∀ f ∈ env.logFilter, f.complaints = "") :
    env.logComplaints = "" := by
  unfold logComplaints
  cases hf : env.logFilter with
  | none => rfl
  | some f => exact h f hf

theorem run_eq_obey (h : ∀ f ∈ env.logFilter, f.complaints = "") (arguments : List String) :
    env.run arguments = env.obey arguments := by
  rw [run, logComplaints_eq h]
  cases env.obey arguments with
  | error e => rfl
  | ok o => simp [bind, Except.bind, pure, Except.pure]

theorem obey_of_error {e : UsageError} (he : Options.ofArguments arguments = .error e) :
    env.obey arguments = .ok e.toFailure.outcome := by
  rw [obey, he]

theorem obey_of_help (hout : env.standardOutput = .unbounded)
    (ho : Options.ofArguments arguments = .ok o) (hhelp : o.help = true) :
    env.obey arguments = .ok ⟨0, usage.toByteArray, .empty⟩ := by
  have hwrite := Sink.write_of_unbounded (s := .unbounded) rfl usage
  rw [obey, ho]
  dsimp only
  rw [if_pos hhelp, showHelp, hout, hwrite]
  dsimp only
  rw [Sink.written_append_unbounded]

theorem obey_of_source (ho : Options.ofArguments arguments = .ok o) (hhelp : o.help = false) :
    env.obey arguments = (match env.load o.script with
      | .error f => .ok f.outcome
      | .ok text => env.reportOn o text) := by
  rw [obey, ho]
  dsimp only
  exact if_neg (by simp [hhelp])

/-- Reporting comes to an end. -/
theorem exists_reportOn (hout : env.standardOutput = .unbounded) (o : Options) {text : String}
    (h : text.utf8ByteSize < maxOffset) : ∃ tokens clean r errorOutput,
      tokenize text o.comments = .ok tokens ∧
        Report.Written.ReadsAs r text o.printTokens clean tokens ∧
        env.reportOn o text = .ok ⟨if clean then 0 else 1, r.out.written, errorOutput⟩ := by
  obtain ⟨tokens, htokens, hreads⟩ :=
    exists_readsAs o.comments (Nat.le_of_lt h) (count_lineFeed_lt h)
  obtain ⟨clean, r, hr, hreads⟩ := hreads o.printTokens
  have hreport : ∃ errorOutput, env.reportOn o text =
      .ok ⟨if clean then 0 else 1, r.out.written, errorOutput⟩ := by
    rw [reportOn, hout, hr]
    simp only [bind, Except.bind]
    rw [hreads.result_eq]
    cases clean with
    | true => exact ⟨_, rfl⟩
    | false => exact ⟨_, rfl⟩
  obtain ⟨errorOutput, hreport⟩ := hreport
  exact ⟨tokens, clean, r.toWritten, errorOutput, htokens, hreads, hreport⟩

/-- A run ends in one of the four ways. -/
theorem run_ends (hout : env.standardOutput = .unbounded)
    (hfilter : ∀ f ∈ env.logFilter, f.complaints = "")
    (hsize : ∀ o bytes, Options.ofArguments arguments = .ok o → o.help = false →
      env.sourceBytes o.script = .ok bytes → bytes.size < maxOffset) :
    ∃ outcome, env.run arguments = .ok outcome ∧
      env.Ends (Options.ofArguments arguments) outcome := by
  rw [run_eq_obey hfilter]
  cases ho : Options.ofArguments arguments with
  | error e => exact ⟨_, obey_of_error ho, .misused e⟩
  | ok o =>
    cases hhelp : o.help with
    | true => exact ⟨_, obey_of_help hout ho hhelp, .helped o hhelp⟩
    | false =>
      rw [obey_of_source ho hhelp]
      cases hload : env.load o.script with
      | error f => exact ⟨_, rfl, .unread o f hhelp hload⟩
      | ok text =>
        have hlt := hsize o _ ho hhelp (load_eq_ok_iff.1 hload)
        obtain ⟨tokens, clean, r, errorOutput, htokens, hreads, hreport⟩ :=
          exists_reportOn hout o (by simpa using hlt)
        exact ⟨_, hreport, .reported o text tokens clean r errorOutput hhelp hload htokens hreads⟩

/-! ## Runs that find something else -/

theorem logLines_congr (hlog : env'.logFilter = env.logFilter) :
    env'.logLines = env.logLines := by
  funext events
  rw [logLines, logLines, hlog]

/-- A run depends on what it loads, on the filter of the log and on the room for its output. -/
theorem run_congr (hload : ∀ o, Options.ofArguments arguments = .ok o →
      env'.load o.script = env.load o.script)
    (hlog : env'.logFilter = env.logFilter) (hout : env'.standardOutput = env.standardOutput) :
    env'.run arguments = env.run arguments := by
  have hobey : env'.obey arguments = env.obey arguments := by
    unfold obey
    cases ho : Options.ofArguments arguments with
    | error e => rfl
    | ok o =>
      have hreport : env'.reportOn = env.reportOn := by
        funext o text
        unfold reportOn
        rw [hout, logLines_congr hlog]
      dsimp only
      rw [hload o ho, hreport, showHelp, showHelp, hout]
  rw [run, run, hobey, logComplaints, logComplaints, hlog]

end Environment

/-! ## Runs with a log -/

/-- Whether an outcome differs from one without a log by lines for events that the filter lets
through, in front of the rest of standard error. -/
structure Outcome.AddsLog (outcome : Outcome) (logFilter : Option LogFilter) (plain : Outcome) :
    Prop where
  exitCode_eq : outcome.exitCode = plain.exitCode
  output_eq : outcome.output = plain.output
  errorOutput_eq : ∃ lines : List String,
    (∀ l ∈ lines, ∃ f ∈ logFilter, ∃ e : Event, f.allows e = true ∧ l = f.line e) ∧
    outcome.errorOutput = (String.join lines).toByteArray ++ plain.errorOutput

theorem Outcome.AddsLog.refl (outcome : Outcome) (logFilter : Option LogFilter) :
    outcome.AddsLog logFilter outcome :=
  ⟨rfl, rfl, [], nofun, by simp⟩

namespace Environment

variable {env : Environment} {arguments : List String} {o : Options} {outcome : Outcome}

/-- The same environment without a log. -/
def unlogged (env : Environment) : Environment := { env with logFilter := none }

theorem exists_logLines_eq (env : Environment) (events : List Event) :
    ∃ lines : List String,
      (∀ l ∈ lines, ∃ f ∈ env.logFilter, ∃ e : Event, f.allows e = true ∧ l = f.line e) ∧
      env.logLines events = String.join lines := by
  unfold logLines
  cases env.logFilter with
  | none => exact ⟨[], nofun, by simp⟩
  | some f =>
    refine ⟨(events.filter f.allows).map f.line, ?_, rfl⟩
    intro l hl
    obtain ⟨e, he, rfl⟩ := List.mem_map.1 hl
    exact ⟨f, rfl, e, (List.mem_filter.1 he).2, rfl⟩

theorem reportOn_unlogged {text : String} (h : env.reportOn o text = .ok outcome) :
    ∃ plain, env.unlogged.reportOn o text = .ok plain ∧ outcome.AddsLog env.logFilter plain := by
  unfold reportOn at h ⊢
  obtain ⟨r, hr, h⟩ := bind_eq_ok_iff.1 h
  have hr' : report text o.comments o.printTokens env.unlogged.standardOutput .unbounded =
    .ok r := hr
  obtain ⟨lines, hallowed, hlines⟩ :=
    env.exists_logLines_eq (.sourceLoaded o.script text.utf8ByteSize :: r.log)
  have hnone (events : List Event) : env.unlogged.logLines events = "" := rfl
  rw [hr']
  simp only [bind, Except.bind, hnone]
  dsimp only at h
  rw [hlines] at h
  -- The three ends of a report put the same lines in front of what it writes itself.
  cases hresult : r.result with
  | error e =>
    rw [hresult] at h
    cases h
    exact ⟨_, rfl, rfl, rfl, lines, hallowed, by simp [ByteArray.append_assoc]⟩
  | ok clean =>
    rw [hresult] at h
    cases clean with
    | true =>
      cases h
      exact ⟨_, rfl, rfl, rfl, lines, hallowed, by simp⟩
    | false =>
      cases h
      exact ⟨_, rfl, rfl, rfl, lines, hallowed, by simp⟩

/-- A log only adds lines. -/
theorem obey_unlogged (h : env.obey arguments = .ok outcome) :
    ∃ plain, env.unlogged.obey arguments = .ok plain ∧ outcome.AddsLog env.logFilter plain := by
  cases ho : Options.ofArguments arguments with
  | error e =>
    rw [obey_of_error ho] at h
    cases h
    exact ⟨_, obey_of_error ho, .refl _ _⟩
  | ok o =>
    cases hhelp : o.help with
    | true =>
      rw [obey, ho] at h ⊢
      dsimp only at h ⊢
      rw [if_pos hhelp] at h ⊢
      cases h
      exact ⟨_, rfl, .refl _ _⟩
    | false =>
      rw [obey_of_source ho hhelp] at h ⊢
      have hload : env.unlogged.load o.script = env.load o.script := by
        cases o.script <;> rfl
      rw [hload]
      cases hl : env.load o.script with
      | error f =>
        rw [hl] at h
        cases h
        exact ⟨_, rfl, .refl _ _⟩
      | ok text =>
        rw [hl] at h
        exact reportOn_unlogged h

end Environment

/-! ## What an outcome tells -/

theorem not_endsWithLine_empty (line : String) : ¬ EndsWithLine .empty line := by
  rw [HoldsLines.nil.endsWith_iff]
  simp

theorem not_endsWithLine_usage : ¬ EndsWithLine usage.toByteArray "Done!" := by
  intro h
  exact absurd (h.isSuffix (by decide)) (by decide)

namespace Environment.Ends

variable {env : Environment} {parsed : Except UsageError Options} {o : Options}
  {outcome : Outcome}

theorem exitCode_eq_64_iff (h : env.Ends parsed outcome) :
    outcome.exitCode = 64 ↔ ∃ e, parsed = .error e := by
  cases h with
  | misused e => exact iff_of_true rfl ⟨e, rfl⟩
  | helped o => exact iff_of_false (by decide) nofun
  | unread o f _ hload =>
    have hcode : f.outcome.exitCode = 1 := exitCode_of_load hload
    exact iff_of_false (by simp [hcode]) nofun
  | reported o text tokens clean => exact iff_of_false (by cases clean <;> simp) nofun

theorem eq_of_error {e : UsageError} (h : env.Ends (.error e) outcome) :
    outcome = e.toFailure.outcome := by
  cases h with
  | misused => rfl

theorem of_help (h : env.Ends (.ok o) outcome) (hhelp : o.help = true) :
    outcome.exitCode = 0 ∧ outcome.output = usage.toByteArray := by
  cases h with
  | helped => exact ⟨rfl, rfl⟩
  | unread _ f hnone | reported _ text tokens clean r errorOutput hnone =>
    rw [hhelp] at hnone
    cases hnone

/-- Without a call for help the exit code tells whether there is a source without errors. -/
theorem of_source (h : env.Ends (.ok o) outcome) (hhelp : o.help = false) :
    (outcome.exitCode = 0 ↔ ∃ text tokens, env.sourceBytes o.script = .ok text.toByteArray ∧
      tokenize text o.comments = .ok tokens ∧ ∀ t ∈ tokens, t.kind ≠ .invalid) ∧
    (outcome.exitCode = 0 ∨ outcome.exitCode = 1) := by
  cases h with
  | helped _ hsome =>
    rw [hhelp] at hsome
    cases hsome
  | unread _ f _ hload =>
    have hcode : f.outcome.exitCode = 1 := exitCode_of_load hload
    refine ⟨iff_of_false (by simp [hcode]) ?_, .inr hcode⟩
    rintro ⟨text, tokens, hbytes, -⟩
    rw [← load_eq_ok_iff, hload] at hbytes
    cases hbytes
  | reported _ text tokens clean r errorOutput _ hload htokens hreads =>
    have hcode : (if clean then 0 else 1) = 0 ↔ clean = true := by simp
    refine ⟨?_, by cases clean <;> simp⟩
    rw [hcode, hreads.clean_iff_valid]
    constructor
    · intro hvalid
      exact ⟨text, tokens, load_eq_ok_iff.1 hload, htokens, hvalid⟩
    · rintro ⟨text', tokens', hbytes, htokens', hvalid⟩
      rw [← load_eq_ok_iff, hload] at hbytes
      cases hbytes
      rw [htokens] at htokens'
      cases htokens'
      exact hvalid

theorem endsWith_iff (h : env.Ends parsed outcome) : EndsWithLine outcome.output "Done!" ↔
    outcome.exitCode = 0 ∧ ∀ o, parsed = .ok o → o.help = false := by
  cases h with
  | misused e =>
    have hcode : e.toFailure.outcome.exitCode = 64 := rfl
    exact iff_of_false (not_endsWithLine_empty _) (by simp [hcode])
  | helped o hhelp => exact iff_of_false not_endsWithLine_usage (by simp [hhelp])
  | unread o f _ hload =>
    have hcode : f.outcome.exitCode = 1 := exitCode_of_load hload
    exact iff_of_false (not_endsWithLine_empty _) (by simp [hcode])
  | reported o text tokens clean r errorOutput hhelp _ _ hreads =>
    rw [← hreads.clean_iff_done]
    simp [hhelp]

end Environment.Ends

/-! ## Runs among files -/

/-- Whether an outcome is what becomes of arguments. -/
structure Outcome.Follows (outcome : Outcome) (env : Environment) (arguments : List String) :
    Prop where
  exitCode_eq_64_iff : outcome.exitCode = 64 ↔ ∃ e, Options.ofArguments arguments = .error e
  /-- Where the arguments make no sense nothing else matters. -/
  of_error : ∀ e, Options.ofArguments arguments = .error e → outcome.output = .empty ∧
    ∀ env' : Environment, (∀ f ∈ env'.logFilter, f.complaints = "") →
      env'.run arguments = .ok outcome
  of_help : ∀ o, Options.ofArguments arguments = .ok o → o.help = true →
    outcome.exitCode = 0 ∧ outcome.output = usage.toByteArray
  of_source : ∀ o, Options.ofArguments arguments = .ok o → o.help = false →
    (outcome.exitCode = 0 ↔ ∃ text tokens, env.sourceBytes o.script = .ok text.toByteArray ∧
      tokenize text o.comments = .ok tokens ∧ ∀ t ∈ tokens, t.kind ≠ .invalid) ∧
    (outcome.exitCode = 0 ∨ outcome.exitCode = 1)
  endsWith_iff : EndsWithLine outcome.output "Done!" ↔
    outcome.exitCode = 0 ∧ ∀ o, Options.ofArguments arguments = .ok o → o.help = false
  /-- Only the script is read if there is one. -/
  of_script : ∀ o path, Options.ofArguments arguments = .ok o → o.script = some path →
    ∀ env' : Environment, env'.read path = env.read path → env'.logFilter = env.logFilter →
      env'.standardOutput = env.standardOutput → env'.run arguments = .ok outcome
  of_log : ∃ plain, env.unlogged.run arguments = .ok plain ∧ outcome.AddsLog env.logFilter plain

/-- Whether an outcome is what becomes of arguments that name a script among the files of a
tree. -/
structure Outcome.FollowsFiles (outcome : Outcome) (tree : FileTree) (env : Environment)
    (arguments : List String) : Prop where
  of_source : ∀ o path, Options.ofArguments arguments = .ok o → o.help = false →
    o.script = some path → (outcome.exitCode = 0 ↔ ∃ text tokens,
      tree.LeadsTo path text.toByteArray ∧ tokenize text o.comments = .ok tokens ∧
        ∀ t ∈ tokens, t.kind ≠ .invalid)
  /-- No other file matters. -/
  of_script : ∀ o path, Options.ofArguments arguments = .ok o → o.script = some path →
    ∀ (tree' : FileTree) (env' : Environment), env'.read = tree'.read →
      env'.logFilter = env.logFilter → env'.standardOutput = env.standardOutput →
      tree'.withoutContents = tree.withoutContents →
      (∀ place, tree.resolve path = .ok place → tree'.entryAt? place = tree.entryAt? place) →
      env'.run arguments = .ok outcome

section Follows

variable {env : Environment} {arguments : List String} {outcome : Outcome}

theorem Environment.Ends.follows (h : env.Ends (Options.ofArguments arguments) outcome)
    (hrun : env.run arguments = .ok outcome) (hfilter : ∀ f ∈ env.logFilter, f.complaints = "") :
    outcome.Follows env arguments where
  exitCode_eq_64_iff := h.exitCode_eq_64_iff
  of_error := by
    intro e he
    have heq : outcome = e.toFailure.outcome := (he ▸ h).eq_of_error
    refine ⟨by rw [heq]; rfl, fun env' hfilter' => ?_⟩
    rw [heq, env'.run_eq_obey hfilter', Environment.obey_of_error he]
  of_help o ho hhelp := (ho ▸ h).of_help hhelp
  of_source o ho hhelp := (ho ▸ h).of_source hhelp
  endsWith_iff := h.endsWith_iff
  of_script := by
    intro o path ho hpath env' hread hlog hout
    rw [← hrun]
    apply Environment.run_congr
    · intro o' ho'
      rw [ho] at ho'
      cases ho'
      rw [Environment.load_eq, Environment.load_eq, hpath]
      exact congrArg (fun read => (read >>= decodeText).mapError _) hread
    · exact hlog
    · exact hout
  of_log := by
    rw [Environment.run_eq_obey hfilter] at hrun
    obtain ⟨plain, hplain, hadds⟩ := Environment.obey_unlogged hrun
    have hnone : ∀ f ∈ env.unlogged.logFilter, f.complaints = "" := nofun
    exact ⟨plain, (Environment.run_eq_obey hnone arguments).trans hplain, hadds⟩

/-- What follows from the bytes that are read, said of the files. -/
theorem Outcome.Follows.followsFiles (h : outcome.Follows env arguments) {tree : FileTree}
    (hread : env.read = tree.read) : outcome.FollowsFiles tree env arguments where
  of_source := by
    intro o path ho hhelp hpath
    have hbytes (text : String) : env.sourceBytes o.script = .ok text.toByteArray ↔
        tree.LeadsTo path text.toByteArray := by
      rw [hpath, Environment.sourceBytes, hread, FileTree.read_eq_ok_iff]
    rw [(h.of_source o ho hhelp).1]
    simp only [hbytes]
  of_script := by
    intro o path ho hpath tree' env' hread' hlog hout hcontents hplace
    have hsame : env'.read path = env.read path := by
      rw [hread', hread]
      exact FileTree.read_congr hcontents hplace
    exact h.of_script o path ho hpath env' hsame hlog hout

end Follows

/-- The exit code of a run is that of the first thing that goes wrong, and so is its output. -/
theorem run_follows (env : Environment) (arguments : List String)
    (hout : env.standardOutput = .unbounded) (hfilter : ∀ f ∈ env.logFilter, f.complaints = "")
    (hsize : ∀ o bytes, Options.ofArguments arguments = .ok o → o.help = false →
      env.sourceBytes o.script = .ok bytes → bytes.size < maxOffset) :
    ∃ outcome, env.run arguments = .ok outcome ∧ outcome.Follows env arguments ∧
      ∀ tree : FileTree, env.read = tree.read → outcome.FollowsFiles tree env arguments := by
  obtain ⟨outcome, hrun, hends⟩ := env.run_ends hout hfilter hsize
  have hfollows := hends.follows hrun hfilter
  exact ⟨outcome, hrun, hfollows, fun tree hread => hfollows.followsFiles hread⟩

/-- What the command finds in a working directory, where standard output takes everything. -/
def FileTree.environment (tree : FileTree) (standardInput : Except ReadError ByteArray)
    (logFilter : Option LogFilter) : Environment where
  read := tree.read
  standardInput
  logFilter

/-- A script with a comment, beside a file that no token starts. -/
theorem run_follows_script :
    (∀ f ∈ some (Directives.mk [⟨"ivy_lexer", .debug⟩] []).toFilter, f.complaints = "") ∧
    ∃ outcome, (FileTree.environment
        ⟨[(["a"], .file "b // c\n".toByteArray), (["d"], .file "\x00".toByteArray)]⟩
        (.ok .empty) (some (Directives.mk [⟨"ivy_lexer", .debug⟩] []).toFilter)).run
          ["-t", "./a"] = .ok outcome ∧
      outcome.Follows (FileTree.environment
        ⟨[(["a"], .file "b // c\n".toByteArray), (["d"], .file "\x00".toByteArray)]⟩
        (.ok .empty) (some (Directives.mk [⟨"ivy_lexer", .debug⟩] []).toFilter)) ["-t", "./a"] ∧
      outcome.FollowsFiles
        ⟨[(["a"], .file "b // c\n".toByteArray), (["d"], .file "\x00".toByteArray)]⟩
        (FileTree.environment
          ⟨[(["a"], .file "b // c\n".toByteArray), (["d"], .file "\x00".toByteArray)]⟩
          (.ok .empty) (some (Directives.mk [⟨"ivy_lexer", .debug⟩] []).toFilter))
        ["-t", "./a"] := by
  have hfilter : ∀ f ∈ some (Directives.mk [⟨"ivy_lexer", .debug⟩] []).toFilter,
      f.complaints = "" := by
    rintro f ⟨⟩
    rfl
  refine ⟨hfilter, ?_⟩
  obtain ⟨outcome, hrun, hfollows, hfiles⟩ := run_follows (FileTree.environment
    ⟨[(["a"], .file "b // c\n".toByteArray), (["d"], .file "\x00".toByteArray)]⟩
    (.ok .empty) (some (Directives.mk [⟨"ivy_lexer", .debug⟩] []).toFilter)) ["-t", "./a"] rfl
    hfilter (by
      intro o bytes _ _ hbytes
      cases hscript : o.script with
      | none =>
        rw [hscript] at hbytes
        cases hbytes
        decide
      | some path =>
        rw [hscript] at hbytes
        obtain ⟨e, he, hfile⟩ := FileTree.mem_entries_of_read hbytes
        rcases List.mem_pair.1 he with rfl | rfl
        · cases hfile
          decide
        · cases hfile
          decide)
  exact ⟨outcome, hrun, hfollows, hfiles _ rfl⟩

end Ivy
