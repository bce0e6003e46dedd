import Ivy.Command.Options
import Mathlib.Data.List.Induction
import Mathlib.Data.List.Perm.Basic

/-!
# Arguments in any order

Arguments are accepted exactly if every option among them is known and at most one of them is no
option (`Options.Acceptable`).  What they ask for depends neither on their order nor on how often an
option is repeated, and what is complained of is the first argument that does not fit those in front
of it (`Options.ofArguments_accepts`).
-/

namespace Ivy.Options

/-- The spellings of the option that asks for help. -/
def helpSpellings : List String := ["-h", "--help"]

/-- The spellings of the option that asks for a list of the tokens. -/
def listingSpellings : List String := ["-t", "--tokens"]

/-- The spelling of the option that discards comments. -/
def discardSpellings : List String := ["--discard-comments"]

/-- The spellings of all options. -/
def spellings : List String := helpSpellings ++ listingSpellings ++ discardSpellings

/-- The arguments that are no options. -/
def operands (as : List String) : List String := as.filter (!isOption ·)

/-- Whether arguments make sense: all options are known, and there is one operand at most. -/
structure Acceptable (as : List String) : Prop where
  known : ∀ a ∈ as, isOption a = true → a ∈ spellings
  length_le : (operands as).length ≤ 1

/-- Whether the argument `a` fits the arguments `as` in front of it. -/
def Fits (as : List String) (a : String) : Prop :=
  if isOption a = true then a ∈ spellings else operands as = []

/-- What is complained of if the argument `a` does not fit those in front of it. -/
def complaint (a : String) : UsageError :=
  if isOption a = true then .unknownOption a else .unexpectedArgument a

/-- What the arguments `as` ask for. -/
def asked (as : List String) : Options where
  script := (operands as).head?
  printTokens := as.any (listingSpellings.contains ·)
  help := as.any (helpSpellings.contains ·)
  comments := if as.any (discardSpellings.contains ·) then .discard else .retain

section Operands

variable {a : String} {as bs : List String}

theorem isOption_of_mem (h : a ∈ spellings) : isOption a = true :=
  (by decide : ∀ a ∈ spellings, isOption a = true) a h

theorem operands_append (as bs : List String) : operands (as ++ bs) = operands as ++ operands bs :=
  List.filter_append as bs

theorem operands_of_isOption (h : isOption a = true) : operands [a] = [] := by
  rw [operands, List.filter_cons_of_neg (by simp [h]), List.filter_nil]

theorem operands_of_not_isOption (h : ¬ isOption a = true) : operands [a] = [a] := by
  rw [operands, List.filter_cons_of_pos (by simp [h]), List.filter_nil]

theorem acceptable_nil : Acceptable [] := ⟨nofun, Nat.zero_le _⟩

/-- Arguments make sense if each of them fits those in front of it. -/
theorem acceptable_concat_iff : Acceptable (as ++ [a]) ↔ Acceptable as ∧ Fits as a := by
  constructor
  · rintro ⟨hknown, hlen⟩
    rw [operands_append, List.length_append] at hlen
    refine ⟨⟨fun b hb => hknown b (List.mem_append_left _ hb), by omega⟩, ?_⟩
    unfold Fits
    split
    · next ha => exact hknown a (List.mem_append_right _ (List.mem_singleton_self a)) ha
    · next ha =>
      rw [operands_of_not_isOption ha, List.length_singleton] at hlen
      exact List.eq_nil_of_length_eq_zero (by omega)
  · rintro ⟨⟨hknown, hlen⟩, hfits⟩
    refine ⟨fun b hb hoption => ?_, ?_⟩
    · rcases List.mem_append.1 hb with hb | hb
      · exact hknown b hb hoption
      · cases List.mem_singleton.1 hb
        rwa [Fits, if_pos hoption] at hfits
    · rw [operands_append]
      by_cases ha : isOption a = true
      · rwa [operands_of_isOption ha, List.append_nil]
      · rw [Fits, if_neg ha] at hfits
        rw [hfits, operands_of_not_isOption ha]
        exact Nat.le_refl 1

theorem Acceptable.of_sublist (h : Acceptable as) (hsub : bs.Sublist as) : Acceptable bs where
  known b hb := h.known b (hsub.subset hb)
  length_le := Nat.le_trans (hsub.filter _).length_le h.length_le

end Operands

/-! ## One more argument -/

section Add

variable {a : String} {as : List String}

/-- An option that is known is added to what others ask for. -/
theorem add_of_mem (h : a ∈ spellings) (as : List String) :
    (asked as).add a = .ok (asked (as ++ [a])) := by
  have hscript : (operands (as ++ [a])).head? = (operands as).head? := by
    rw [operands_append, operands_of_isOption (isOption_of_mem h), List.append_nil]
  simp only [asked, hscript, List.any_append]
  simp only [spellings, helpSpellings, listingSpellings, discardSpellings, List.cons_append,
    List.nil_append, List.mem_cons, List.not_mem_nil, or_false] at h
  rcases h with rfl | rfl | rfl | rfl | rfl <;>
    simp [add, helpSpellings, listingSpellings, discardSpellings]

theorem add_of_notMem (h : a ∉ spellings) (o : Options) : o.add a =
    if isOption a = true then .error (.unknownOption a)
    else if o.script.isSome = true then .error (.unexpectedArgument a)
    else .ok { o with script := some a } := by
  simp only [spellings, helpSpellings, listingSpellings, discardSpellings, List.cons_append,
    List.nil_append, List.mem_cons, List.not_mem_nil, or_false, not_or] at h
  obtain ⟨h₁, h₂, h₃, h₄, h₅⟩ := h
  rw [add, if_neg (not_or.2 ⟨h₁, h₂⟩), if_neg (not_or.2 ⟨h₃, h₄⟩), if_neg h₅]

/-- The first operand names the script. -/
theorem asked_concat_of_not_isOption (ha : ¬ isOption a = true) (has : operands as = []) :
    asked (as ++ [a]) = { asked as with script := some a } := by
  have hne {l : List String} (hl : l ⊆ spellings) : [a].any (l.contains ·) = false := by
    simpa using fun hmem => ha (isOption_of_mem (hl hmem))
  have hscript : operands (as ++ [a]) = [a] := by
    rw [operands_append, has, operands_of_not_isOption ha, List.nil_append]
  unfold asked
  rw [hscript, List.any_append, List.any_append, List.any_append, hne (by decide),
    hne (by decide), hne (by decide)]
  simp only [Bool.or_false, List.head?_cons]

/-- An argument that fits those in front of it is added to what they ask for. -/
theorem add_of_fits (h : Fits as a) : (asked as).add a = .ok (asked (as ++ [a])) := by
  unfold Fits at h
  split at h
  · exact add_of_mem h as
  · next ha =>
    rw [add_of_notMem (mt isOption_of_mem ha), if_neg ha, asked_concat_of_not_isOption ha h]
    simp [asked, h]

/-- An argument that does not fit those in front of it is complained of. -/
theorem add_of_not_fits (h : ¬ Fits as a) : (asked as).add a = .error (complaint a) := by
  unfold complaint
  by_cases ha : isOption a = true
  · rw [Fits, if_pos ha] at h
    rw [add_of_notMem h, if_pos ha, if_pos ha]
  · rw [Fits, if_neg ha] at h
    have hscript : (asked as).script.isSome = true := by
      simpa [asked, List.isSome_head?] using h
    rw [add_of_notMem (mt isOption_of_mem ha), if_neg ha, if_neg ha, if_pos hscript]

end Add

/-! ## All arguments -/

section Arguments

variable {a : String} {as bs front back : List String}

theorem ofArguments_append (as bs : List String) :
    ofArguments (as ++ bs) = ofArguments as >>= (bs.foldlM add ·) := List.foldlM_append

/-- Arguments that make sense are accepted. -/
theorem ofArguments_of_acceptable (h : Acceptable as) : ofArguments as = .ok (asked as) := by
  -- Each argument fits those in front of it.
  induction as using List.reverseRecOn with
  | nil => rfl
  | append_singleton as a ih =>
    obtain ⟨has, hfits⟩ := acceptable_concat_iff.1 h
    rw [ofArguments_append, ih has]
    show [a].foldlM add (asked as) = _
    rw [List.foldlM_cons, add_of_fits hfits]
    rfl

/-- The first argument that does not fit those in front of it is complained of. -/
theorem ofArguments_of_not_fits (h : Acceptable front) (hfits : ¬ Fits front a) :
    ofArguments (front ++ a :: back) = .error (complaint a) := by
  rw [ofArguments_append, ofArguments_of_acceptable h]
  show (a :: back).foldlM add (asked front) = _
  rw [List.foldlM_cons, add_of_not_fits hfits]
  rfl

/-- Among arguments that do not make sense there is a first one that does not fit. -/
theorem exists_not_fits (h : ¬ Acceptable as) : ∃ front a back,
    as = front ++ a :: back ∧ Acceptable front ∧ ¬ Fits front a := by
  induction as using List.reverseRecOn with
  | nil => exact absurd acceptable_nil h
  | append_singleton as a ih =>
    by_cases has : Acceptable as
    · exact ⟨as, a, [], rfl, has, fun hfits => h (acceptable_concat_iff.2 ⟨has, hfits⟩)⟩
    · obtain ⟨front, b, back, rfl, hfront, hfits⟩ := ih has
      exact ⟨front, b, back ++ [a], List.append_assoc _ _ _, hfront, hfits⟩

theorem exists_ofArguments_iff : (∃ o, ofArguments as = .ok o) ↔ Acceptable as := by
  refine ⟨fun ⟨o, ho⟩ => ?_, fun h => ⟨_, ofArguments_of_acceptable h⟩⟩
  by_cases h : Acceptable as
  · exact h
  · obtain ⟨front, a, back, rfl, hfront, hfits⟩ := exists_not_fits h
    rw [ofArguments_of_not_fits hfront hfits] at ho
    cases ho

/-- The arguments up to one that does not fit are those that make sense. -/
theorem acceptable_take_iff (h : Acceptable front) (hfits : ¬ Fits front a) (m : Nat) :
    Acceptable ((front ++ a :: back).take m) ↔ m ≤ front.length := by
  refine ⟨fun hm => ?_, fun hm => ?_⟩
  · apply Nat.le_of_not_lt
    intro hlt
    have hprefix : front ++ [a] <+: (front ++ a :: back).take m := by
      rw [List.prefix_take_iff, List.length_append, List.length_singleton]
      exact ⟨⟨back, by simp⟩, hlt⟩
    exact hfits (acceptable_concat_iff.1 (hm.of_sublist hprefix.sublist)).2
  · rw [List.take_append_of_le_length hm]
    exact h.of_sublist (List.take_sublist m front)

end Arguments

/-! ## Order and repetition -/

/-- What options that were read say of the arguments `as`. -/
structure AskedBy (o : Options) (as : List String) : Prop where
  help_iff : o.help = true ↔ ∃ a ∈ as, a ∈ helpSpellings
  printTokens_iff : o.printTokens = true ↔ ∃ a ∈ as, a ∈ listingSpellings
  discard_iff : o.comments = .discard ↔ ∃ a ∈ as, a ∈ discardSpellings
  /-- The operand, if there is one, is the script. -/
  script_eq : o.script.toList = operands as

/-- Whether `bs` are the arguments `as` in some order, with options repeated at will. -/
structure Repeats (as bs : List String) : Prop where
  mem_iff : ∀ a, isOption a = true → (a ∈ bs ↔ a ∈ as)
  perm : (operands bs).Perm (operands as)

section Repeats

variable {as bs : List String}

theorem Acceptable.operands_cases (h : Acceptable as) :
    operands as = [] ∨ ∃ a, operands as = [a] := by
  rcases Nat.le_one_iff_eq_zero_or_eq_one.1 h.length_le with hlen | hlen
  · exact .inl (List.eq_nil_of_length_eq_zero hlen)
  · exact .inr (List.length_eq_one_iff.1 hlen)

theorem askedBy_asked (h : Acceptable as) : AskedBy (asked as) as where
  help_iff := by simp [asked]
  printTokens_iff := by simp [asked]
  discard_iff := by simp [asked]
  script_eq := by
    rw [asked]
    rcases h.operands_cases with hoperands | ⟨a, hoperands⟩ <;> rw [hoperands] <;> rfl

theorem repeats_of_perm (h : bs.Perm as) : Repeats as bs := ⟨fun _ _ => h.mem_iff, h.filter _⟩

theorem Repeats.acceptable (h : Repeats as bs) (has : Acceptable as) : Acceptable bs where
  known b hb hoption := has.known b ((h.mem_iff b hoption).1 hb) hoption
  length_le := h.perm.length_eq ▸ has.length_le

/-- Arguments that make sense ask for the same in any order and with options repeated. -/
theorem Repeats.asked_eq (h : Repeats as bs) (has : Acceptable as) : asked bs = asked as := by
  have hany {l : List String} (hl : l ⊆ spellings) :
      bs.any (l.contains ·) = as.any (l.contains ·) := by
    rw [Bool.eq_iff_iff, List.any_eq_true, List.any_eq_true]
    simp only [List.contains_iff_mem]
    exact exists_congr fun a => and_congr_left fun ha => h.mem_iff a (isOption_of_mem (hl ha))
  have hoperands : operands bs = operands as := by
    have hperm := h.perm
    rcases has.operands_cases with hnil | ⟨a, hsingle⟩
    · rw [hnil] at hperm ⊢
      exact hperm.eq_nil
    · rw [hsingle] at hperm ⊢
      exact List.perm_singleton.1 hperm
  unfold asked
  rw [hoperands, hany (by decide), hany (by decide), hany (by decide)]

theorem Repeats.ofArguments_eq (h : Repeats as bs) (has : Acceptable as) :
    ofArguments bs = .ok (asked as) := by
  rw [ofArguments_of_acceptable (h.acceptable has), h.asked_eq has]

end Repeats

theorem message_complaint (a : String) : (complaint a).message =
    (if isOption a = true then "unknown option '" else "unexpected argument '") ++ a ++ "'" := by
  unfold complaint
  split <;> rfl

/-- Arguments are accepted exactly if they make sense, in any order and with options repeated at
will, and else the complaint names the last argument of the shortest part that is refused. -/
theorem ofArguments_accepts (as : List String) :
    ((∃ o, ofArguments as = .ok o) ↔ Acceptable as) ∧
    (∀ o, ofArguments as = .ok o → AskedBy o as ∧
      (∀ bs, bs.Perm as → ofArguments bs = .ok o) ∧
      ∀ bs, Repeats as bs → ofArguments bs = .ok o) ∧
    ∀ e, ofArguments as = .error e →
      (∀ bs, bs.Perm as → ∃ e', ofArguments bs = .error e') ∧
      ∃ n a, as[n]? = some a ∧ (∀ m, (∃ o, ofArguments (as.take m) = .ok o) ↔ m ≤ n) ∧
        e = complaint a ∧ e.message =
          (if isOption a = true then "unknown option '" else "unexpected argument '") ++ a ++
            "'" := by
  refine ⟨exists_ofArguments_iff, fun o ho => ?_, fun e he => ?_⟩
  · have has := exists_ofArguments_iff.1 ⟨o, ho⟩
    have hrepeats {bs : List String} (h : Repeats as bs) : ofArguments bs = .ok o :=
      (h.ofArguments_eq has).trans ((ofArguments_of_acceptable has).symm.trans ho)
    have ho' : asked as = o := Except.ok.inj ((ofArguments_of_acceptable has).symm.trans ho)
    exact ⟨ho' ▸ askedBy_asked has, fun bs h => hrepeats (repeats_of_perm h), fun bs => hrepeats⟩
  · have has : ¬ Acceptable as := by
      intro h
      rw [ofArguments_of_acceptable h] at he
      cases he
    refine ⟨fun bs h => ?_, ?_⟩
    · cases hbs : ofArguments bs with
      | error e' => exact ⟨e', rfl⟩
      | ok o =>
        have hacceptable := exists_ofArguments_iff.1 ⟨o, hbs⟩
        exact absurd ((repeats_of_perm h.symm).acceptable hacceptable) has
    · obtain ⟨front, a, back, rfl, hfront, hfits⟩ := exists_not_fits has
      have hcomplaint : e = complaint a :=
        Except.error.inj (he.symm.trans (ofArguments_of_not_fits hfront hfits))
      refine ⟨front.length, a, by simp, fun m => ?_, hcomplaint, hcomplaint ▸ message_complaint a⟩
      rw [exists_ofArguments_iff, acceptable_take_iff hfront hfits]

example : ofArguments ["a", "-t", "b", "-x"] = .error (.unexpectedArgument "b") := rfl

end Ivy.Options
