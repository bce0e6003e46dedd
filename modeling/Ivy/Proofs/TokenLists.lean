import Ivy.Proofs.PieceStream

/-!
# Lists of tokens

How the tokens that pieces make depend on the place where the first piece starts
(`tokensOf_shift`), on pieces behind the others (`tokensOf_append`) and on what becomes of comments
(`tokensOf_discard`).
-/

namespace Ivy

/-- The token that stands `bytes` bytes and `lines` lines further on. -/
def Token.shift (bytes lines : Nat) (t : Token) : Token :=
  { t with start := t.start + bytes, stop := t.stop + bytes, line := t.line + lines }

section TokensOf

variable {comments : CommentMode} {offset line : Nat}

/-- Pieces further on make the same tokens further on. -/
theorem tokensOf_shift (bytes lines : Nat) (ps : List Piece) :
    tokensOf comments (offset + bytes) (line + lines) ps =
      (tokensOf comments offset line ps).map (Token.shift bytes lines) := by
  induction ps generalizing offset line with
  | nil => rfl
  | cons s ps ih =>
    rw [tokensOf, tokensOf, Nat.add_right_comm offset, Nat.add_right_comm line, ih,
      List.map_append]
    cases s.form.kind? comments with
    | none => rfl
    | some kind => rfl

theorem tokensOf_ne_nil (ps : List Piece) : tokensOf comments offset line ps ≠ [] := by
  induction ps generalizing offset line with
  | nil => exact List.cons_ne_nil _ _
  | cons s ps ih => exact List.append_ne_nil_of_right_ne_nil _ ih

/-- The tokens of pieces behind others take the place of the end mark. -/
theorem tokensOf_append (ps qs : List Piece) :
    tokensOf comments offset line (ps ++ qs) = (tokensOf comments offset line ps).dropLast ++
      tokensOf comments (offset + (ps.flatMap Piece.bytes).length)
        (line + (ps.flatMap Piece.bytes).count lineFeed) qs := by
  induction ps generalizing offset line with
  | nil => rfl
  | cons s ps ih =>
    rw [List.cons_append, tokensOf, tokensOf, ih,
      List.dropLast_append_of_ne_nil (tokensOf_ne_nil ps),
      List.append_assoc, List.flatMap_cons, List.length_append, List.count_append, ← Nat.add_assoc,
      ← Nat.add_assoc]

/-- A piece that makes a token makes it where it stands. -/
theorem mem_tokensOf_append_cons (offset line : Nat) (ps qs : List Piece) {s : Piece} {k : Kind}
    (hk : s.form.kind? comments = some k) :
    ∃ t ∈ tokensOf comments offset line (ps ++ s :: qs), t.kind = k ∧
      t.start = offset + (ps.flatMap Piece.bytes).length := by
  rw [tokensOf_append, tokensOf, hk]
  exact ⟨_, List.mem_append_right _ (List.mem_append_left _ (List.mem_singleton_self _)), rfl, rfl⟩

/-! ## Comments -/

/-- A piece makes the same token in both modes, except for a comment. -/
theorem Form.kind?_discard (form : Form) :
    form.kind? .discard = (form.kind? .retain).filter (· ≠ .commentLine) := by
  cases form with
  | gap | defect | finish => rfl
  | token kind =>
    have hretain : ¬ (kind.isTrivia && CommentMode.retain == .discard) := by simp
    rw [Form.kind?, Form.kind?, if_neg hretain]
    by_cases hk : kind = .commentLine
    · rw [hk]
      rfl
    · have htrivia : ¬ (kind.isTrivia && CommentMode.discard == .discard) := by
        rw [Bool.and_eq_true, Kind.isTrivia_iff]
        exact fun h => hk h.1
      rw [if_neg htrivia, Option.filter_some, if_pos (by simpa using hk)]

/-- To discard comments is to drop them from the tokens. -/
theorem tokensOf_discard (ps : List Piece) : tokensOf .discard offset line ps =
    (tokensOf .retain offset line ps).filter (·.kind ≠ .commentLine) := by
  induction ps generalizing offset line with
  | nil => rfl
  | cons s ps ih =>
    rw [tokensOf, tokensOf, ih, List.filter_append, Form.kind?_discard]
    congr 1
    cases s.form.kind? .retain with
    | none => rfl
    | some kind => by_cases hk : kind = .commentLine <;> simp [hk]

end TokensOf

end Ivy
