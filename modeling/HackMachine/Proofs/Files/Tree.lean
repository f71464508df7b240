import HackMachine.Files.Tree
import Mathlib.Data.List.Basic

/-!
# What is written can be read

Putting a file into a tree changes the content at one place (`content?_put`), and the directories
that lead to this place exist afterwards (`isDirectory_put`).  Directories never disappear, so a
path that could be followed before leads to the same place (`locate_put`), and a file that has been
written is read with the content it was given (`read_of_write`).
-/

namespace HackMachine
namespace FileTree

variable {tree after : FileTree} {parts : List Text} {path content : Text}

/-! ## Putting a file -/

/-- Replacing the content at one place, in a list of files. -/
theorem lookup_replace (files : List (List Text × Text)) (parts : List Text) (content : Text)
    (other : List Text) :
    (files.map fun file => if file.1 = parts then (parts, content) else file).lookup other =
      if other = parts then (files.lookup other).map fun _ => content else files.lookup other := by
  induction files with
  | nil => split <;> rfl
  | cons file files ih =>
    obtain ⟨place, old⟩ := file
    rw [List.map_cons]
    by_cases here : place = parts
    · subst here
      rw [if_pos rfl, List.lookup_cons, List.lookup_cons, ih]
      by_cases same : other = place
      · simp [same]
      · simp [same, beq_eq_false_iff_ne.2 same]
    · rw [if_neg here, List.lookup_cons, List.lookup_cons, ih]
      by_cases same : other = place
      · simp [same, here]
      · simp [beq_eq_false_iff_ne.2 same]

/-- Putting a file changes the content at its place only. -/
theorem content?_put (tree : FileTree) (parts : List Text) (content : Text) (other : List Text) :
    (tree.put parts content).content? other =
      if other = parts then some content else tree.content? other := by
  by_cases old : (tree.content? parts).isSome
  · obtain ⟨before, hbefore⟩ := Option.isSome_iff_exists.1 old
    rw [put, if_pos old, content?, lookup_replace]
    by_cases same : other = parts
    · rw [if_pos same, if_pos same, same, ← content?, hbefore]
      rfl
    · rw [if_neg same, if_neg same, content?]
  · rw [Option.not_isSome_iff_eq_none] at old
    rw [put, old, content?]
    simp only [Option.isSome_none, Bool.false_eq_true, if_false, List.lookup_append]
    by_cases same : other = parts
    · rw [if_pos same, same, ← content?, old, List.lookup_cons_self, Option.none_or]
    · rw [if_neg same, List.lookup_cons, beq_eq_false_iff_ne.2 same, ← content?]
      exact Option.or_none

/-- Putting a file adds its place to the places that have a file. -/
theorem any_put (tree : FileTree) (parts : List Text) (content : Text) (f : List Text → Bool) :
    ((tree.put parts content).files.any fun file => f file.1) =
      ((tree.files.any fun file => f file.1) || f parts) := by
  by_cases old : (tree.content? parts).isSome
  · have places : ((fun file => f file.1) ∘ fun file : List Text × Text =>
        if file.1 = parts then (parts, content) else file) = fun file => f file.1 := by
      funext file
      by_cases here : file.1 = parts
      · simp [here]
      · simp [here]
    rw [put, if_pos old, List.any_map, places]
    obtain ⟨file, hmem, same⟩ := List.lookup_isSome_iff.1 old
    have known : f parts = true → (tree.files.any fun file => f file.1) = true := by
      intro holds
      exact List.any_eq_true.2 ⟨file, hmem, by rwa [← eq_of_beq same]⟩
    cases h : f parts with
    | false => rw [Bool.or_false]
    | true => rw [known h, Bool.or_true]
  · rw [put, if_neg old, List.any_append, List.any_cons, List.any_nil, Bool.or_false]

/-- The directories after a file has been put: those before, and those on the way to the file. -/
theorem isDirectory_put (tree : FileTree) (parts : List Text) (content : Text)
    (place : List Text) :
    (tree.put parts content).isDirectory (.inside place) =
      (tree.isDirectory (.inside place) || (place.isPrefixOf parts && place != parts)) := by
  rw [isDirectory, isDirectory, any_put tree parts content fun other =>
    place.isPrefixOf other && place != other, Bool.or_assoc]

/-! ## Following a path -/

theorem isDirectory_put_of_isDirectory {place : Place} (h : tree.isDirectory place = true) :
    (tree.put parts content).isDirectory place = true := by
  cases place with
  | above => rfl
  | inside others => rw [isDirectory_put, h, Bool.true_or]

/-- A path that could be followed leads to the same place after a file has been put. -/
theorem follow_put {place goal : Place} {rest : List Text} (h : tree.follow place rest = .ok goal) :
    (tree.put parts content).follow place rest = .ok goal := by
  induction rest generalizing place with
  | nil => exact h
  | cons part rest ih =>
    rw [follow] at h ⊢
    by_cases directory : tree.isDirectory place = true
    · rw [if_pos directory] at h
      rw [if_pos (isDirectory_put_of_isDirectory directory)]
      cases next : enter place part with
      | error cause => simp [next] at h
      | ok place' =>
        rw [next] at h
        exact ih h
    · rw [if_neg directory] at h
      cases h

theorem top_put : (tree.put parts content).top = tree.top := by
  unfold put
  split <;> rfl

theorem locate_put {goal : Place} (h : tree.locate path = .ok goal) :
    (tree.put parts content).locate path = .ok goal := by
  have same : (tree.put parts content).approach path = tree.approach path := by
    rw [approach, approach, top_put]
  unfold locate at h ⊢
  rw [same]
  split_ifs at h ⊢
  exact follow_put h

/-! ## Writing and reading -/

/-- A write that succeeds puts a file at a place that is not a directory. -/
theorem exists_put_of_write (h : tree.write path content = .ok after) :
    ∃ parts, tree.locate path = .ok (.inside parts) ∧ asksDirectory path = false ∧
      tree.isDirectory (.inside parts) = false ∧ after = tree.put parts content := by
  unfold write at h
  split at h
  · cases h
  · next place located =>
    split_ifs at h with directory
    simp only [Bool.or_eq_true, not_or, Bool.not_eq_true] at directory
    cases place with
    | above => cases h
    | inside parts => exact ⟨parts, located, directory.1, directory.2, (Except.ok.inj h).symm⟩

/-- What has been written is what is read. -/
theorem read_of_write (h : tree.write path content = .ok after) :
    after.read path = .ok content := by
  obtain ⟨parts, located, noDirectory, isFile, rfl⟩ := exists_put_of_write h
  have stillFile : (tree.put parts content).isDirectory (.inside parts) = false := by
    rw [isDirectory_put, isFile]
    simp
  have written : (tree.put parts content).content? parts = some content := by
    rw [content?_put, if_pos rfl]
  rw [read, locate_put located]
  simp [stillFile, written, noDirectory]

end FileTree
end HackMachine
