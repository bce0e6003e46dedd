import Ivy.Command.FileTree

/-!
# What a path leads to

What is read from a path are the bytes of the file to which it leads (`FileTree.read_eq_ok_iff`).
Where a path leads does not depend on the contents of files (`FileTree.resolve_withoutContents`),
so what is read from it depends on those of one file only (`FileTree.read_congr`).
-/

namespace Ivy

/-- An entry with the content of a file left out. -/
def Entry.withoutContent : Entry → Entry
  | file _ => file .empty
  | directory => directory

namespace FileTree

/-- A tree with the contents of all files left out. -/
def withoutContents (tree : FileTree) : FileTree :=
  ⟨tree.entries.map fun e => (e.1, e.2.withoutContent)⟩

section Contents

variable {tree tree' : FileTree} {path : String}

theorem find?_withoutContents (tree : FileTree) (names : List String) :
    tree.withoutContents.find? names = (tree.find? names).map Entry.withoutContent := by
  have hfind : tree.withoutContents.entries.find? (·.1 == names) =
      (tree.entries.find? (·.1 == names)).map fun e => (e.1, e.2.withoutContent) := List.find?_map
  have hany : tree.withoutContents.entries.any (names.isPrefixOf ·.1) =
      tree.entries.any (names.isPrefixOf ·.1) := List.any_map
  rw [find?, find?, hfind, hany]
  cases tree.entries.find? (·.1 == names) with
  | none =>
    show (if _ then _ else _) = Option.map _ (if _ then _ else _)
    split
    · rfl
    · rfl
  | some e => rfl

theorem entryAt?_withoutContents (tree : FileTree) (place : Place) :
    tree.withoutContents.entryAt? place = (tree.entryAt? place).map Entry.withoutContent := by
  cases place with
  | within names => exact find?_withoutContents tree names
  | outside => rfl

theorem enter_withoutContents (tree : FileTree) : tree.withoutContents.enter = tree.enter := by
  funext place name
  unfold enter
  rw [entryAt?_withoutContents]
  rcases tree.entryAt? place with _ | _ | _
  · rfl
  · rfl
  · simp only [Option.map_some, Entry.withoutContent, find?_withoutContents, Option.isSome_map]

/-- Whether a path leads to a file with these bytes. -/
def LeadsTo (tree : FileTree) (path : String) (bytes : ByteArray) : Prop :=
  ∃ place, tree.resolve path = .ok place ∧ tree.entryAt? place = some (.file bytes)

theorem read_eq_ok_iff {bytes : ByteArray} :
    tree.read path = .ok bytes ↔ tree.LeadsTo path bytes := by
  unfold read LeadsTo
  cases tree.resolve path with
  | error e => simp [bind, Except.bind]
  | ok place =>
    simp only [bind, Except.bind, Except.ok.injEq, exists_eq_left']
    rcases tree.entryAt? place with _ | _ | _
    · simp
    · simp
    · simp

/-- What is found to be a file is one of the entries. -/
theorem mem_entries_of_find? {names : List String} {bytes : ByteArray}
    (h : tree.find? names = some (.file bytes)) : ∃ e ∈ tree.entries, e.2 = .file bytes := by
  unfold find? at h
  split at h
  · next names' entry hfind =>
    cases h
    exact ⟨_, List.mem_of_find?_eq_some hfind, rfl⟩
  · split at h
    · cases h
    · cases h

theorem mem_entries_of_read {bytes : ByteArray} (h : tree.read path = .ok bytes) :
    ∃ e ∈ tree.entries, e.2 = .file bytes := by
  obtain ⟨place, -, hentry⟩ := read_eq_ok_iff.1 h
  cases place with
  | within names => exact mem_entries_of_find? hentry
  | outside => cases hentry

/-- Where a path leads does not depend on what the files hold. -/
theorem resolve_withoutContents (tree : FileTree) :
    tree.withoutContents.resolve = tree.resolve := by
  funext path
  rw [resolve, resolve, enter_withoutContents]

/-- What is read depends on what the file that the path leads to holds, but on no other file. -/
theorem read_congr (h : tree'.withoutContents = tree.withoutContents)
    (hplace : ∀ place, tree.resolve path = .ok place → tree'.entryAt? place = tree.entryAt? place) :
    tree'.read path = tree.read path := by
  have hresolve : tree'.resolve path = tree.resolve path := by
    rw [← resolve_withoutContents, h, resolve_withoutContents]
  rw [read, read, hresolve]
  cases hp : tree.resolve path with
  | error e => rfl
  | ok place =>
    simp only [hplace place hp, bind, Except.bind]

end Contents

end FileTree

end Ivy
