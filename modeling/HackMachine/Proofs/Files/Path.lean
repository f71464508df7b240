import HackMachine.Files.Path
import Mathlib.Data.List.Basic

/-!
# The extension of a path

A path is taken apart from the right: the extension starts at the last dot, but only if no separator
stands behind that dot.  So a dot in the name of a directory is no start of an extension, a name may
be nothing but its extension, and the extension may be a single dot.

`Parts` says this without any scan.  Every path has these parts (`exists_parts`), and there is only
one way to have them, since the last of them is what `extension` finds (`Parts.extension_eq`).
Another extension is put in the place of the last part (`Parts.withExtension_eq`).  This gives a
path whose parts are known again (`Parts.swap`), and everything else follows.
-/

namespace HackMachine
namespace Path

/-- A directory, the stem of a name and an extension that make up a path.  The directory reaches to
the last separator, and is empty if there is none.  The extension reaches back to the last dot of
the name, and is empty if there is none. -/
structure Parts (path dir stem ext : Text) : Prop where
  whole : path = dir ++ (stem ++ ext)
  closed : dir = [] ∨ dir.getLast? = some separator
  name : separator ∉ stem ++ ext
  dotted : (ext = [] ∧ Text.byte '.' ∉ stem) ∨
    ∃ tail, ext = Text.byte '.' :: tail ∧ Text.byte '.' ∉ tail

/-- An extension is a dot, and behind it bytes that are neither dots nor separators. -/
def IsExtension (ext : Text) : Prop :=
  ∃ tail, ext = Text.byte '.' :: tail ∧ Text.byte '.' ∉ tail ∧ separator ∉ tail

/-! ## Every path has parts -/

/-- A text can be cut at the last occurrence of a byte. -/
theorem exists_last {b : UInt8} {t : Text} (h : b ∈ t) :
    ∃ before after, t = before ++ b :: after ∧ b ∉ after := by
  obtain ⟨as, bs, same, first⟩ := List.eq_append_cons_of_mem (List.mem_reverse.2 h)
  refine ⟨bs.reverse, as.reverse, ?_, by simpa using first⟩
  rw [← List.reverse_reverse t, same]
  simp

theorem exists_directory (path : Text) : ∃ dir name, path = dir ++ name ∧
    (dir = [] ∨ dir.getLast? = some separator) ∧ separator ∉ name := by
  by_cases h : separator ∈ path
  · obtain ⟨before, name, rfl, last⟩ := exists_last h
    exact ⟨before ++ [separator], name, by simp, .inr (by simp), last⟩
  · exact ⟨[], path, rfl, .inl rfl, h⟩

theorem exists_parts (path : Text) : ∃ dir stem ext, Parts path dir stem ext := by
  obtain ⟨dir, name, rfl, closed, last⟩ := exists_directory path
  by_cases h : Text.byte '.' ∈ name
  · obtain ⟨stem, tail, rfl, noDot⟩ := exists_last h
    exact ⟨dir, stem, Text.byte '.' :: tail, rfl, closed, last, .inr ⟨tail, rfl, noDot⟩⟩
  · exact ⟨dir, name, [], by simp, closed, by simpa using last, .inl ⟨rfl, h⟩⟩

/-! ## What is found is the last part -/

section Parts

variable {path dir stem ext : Text}

/-- Whether the scan for the extension goes on at a byte. -/
def isPassed (b : UInt8) : Bool := b != Text.byte '.' && b != separator

theorem isPassed_of_not_mem {t : Text} (noDot : Text.byte '.' ∉ t) (noSeparator : separator ∉ t) :
    ∀ b ∈ t.reverse, isPassed b := by
  intro b hb
  rw [List.mem_reverse] at hb
  rw [isPassed, Bool.and_eq_true, bne_iff_ne, bne_iff_ne]
  exact ⟨fun same => noDot (same ▸ hb), fun same => noSeparator (same ▸ hb)⟩

/-- The scan runs from the end of the path. -/
theorem extension_eq_scan (path : Text) :
    extension path =
      match path.reverse.dropWhile isPassed with
      | [] => []
      | b :: _ =>
        if b = separator then [] else b :: (path.reverse.takeWhile isPassed).reverse := rfl

theorem extension_of_dot (front : Text) {tail : Text} (noDot : Text.byte '.' ∉ tail)
    (noSeparator : separator ∉ tail) :
    extension (front ++ Text.byte '.' :: tail) = Text.byte '.' :: tail := by
  have passed := isPassed_of_not_mem noDot noSeparator
  have stops : ¬ isPassed (Text.byte '.') = true := by decide
  have isDot : ¬ Text.byte '.' = separator := by decide
  rw [extension_eq_scan, List.reverse_append, List.reverse_cons, List.append_assoc,
    List.singleton_append, List.dropWhile_append_of_pos passed, List.takeWhile_append_of_pos passed,
    List.dropWhile_cons_of_neg stops, List.takeWhile_cons_of_neg stops]
  simp only [if_neg isDot, List.append_nil, List.reverse_reverse]

theorem extension_of_no_dot (closed : dir = [] ∨ dir.getLast? = some separator)
    (noDot : Text.byte '.' ∉ stem) (noSeparator : separator ∉ stem) :
    extension (dir ++ stem) = [] := by
  have passed := isPassed_of_not_mem noDot noSeparator
  rw [extension_eq_scan, List.reverse_append, List.dropWhile_append_of_pos passed]
  rcases closed with rfl | closed
  · rfl
  · -- the scan stops at the separator that ends the directory
    obtain ⟨front, rfl⟩ := List.getLast?_eq_some_iff.1 closed
    have stops : ¬ isPassed separator = true := by decide
    rw [List.reverse_append, List.reverse_singleton, List.singleton_append,
      List.dropWhile_cons_of_neg stops]
    simp only [if_true]

theorem Parts.extension_eq (h : Parts path dir stem ext) : extension path = ext := by
  obtain ⟨rfl, closed, name, ⟨rfl, noDot⟩ | ⟨tail, rfl, noDot⟩⟩ := h
  · rw [List.append_nil] at name ⊢
    exact extension_of_no_dot closed noDot name
  · rw [List.mem_append, List.mem_cons, not_or, not_or] at name
    rw [← List.append_assoc]
    exact extension_of_dot _ noDot name.2.2

/-- The new extension takes the place of the old one. -/
theorem Parts.withExtension_eq (h : Parts path dir stem ext) (new : Text) :
    withExtension path new = dir ++ (stem ++ new) := by
  rw [withExtension, h.extension_eq, h.whole, ← List.append_assoc, List.length_append,
    Nat.add_sub_cancel, List.take_left, List.append_assoc]

/-- The other parts stay what they are. -/
theorem Parts.swap (h : Parts path dir stem ext) {new : Text} (hnew : IsExtension new) :
    Parts (withExtension path new) dir stem new := by
  obtain ⟨tail, rfl, noDot, noSeparator⟩ := hnew
  refine ⟨h.withExtension_eq _, h.closed, ?_, .inr ⟨tail, rfl, noDot⟩⟩
  have name := h.name
  rw [List.mem_append, not_or] at name
  rw [List.mem_append, List.mem_cons, not_or, not_or]
  exact ⟨name.1, by decide, noSeparator⟩

end Parts

/-- Another extension changes nothing but the extension.

* The path and the new path have the same directory, up to and including the last separator, and the
  same stem; they differ in the extension at most.
* The extension of the new path is the one that was given.
* A second change has the same effect as if there had been no first. -/
theorem withExtension_swaps_extension (path : Text) {ext : Text} (h : IsExtension ext) :
    (∃ dir stem, Parts path dir stem (extension path) ∧
      Parts (withExtension path ext) dir stem ext) ∧
    extension (withExtension path ext) = ext ∧
    ∀ other, withExtension (withExtension path ext) other = withExtension path other := by
  obtain ⟨dir, stem, old, parts⟩ := exists_parts path
  have swapped := parts.swap h
  refine ⟨⟨dir, stem, parts.extension_eq.symm ▸ parts, swapped⟩, swapped.extension_eq, ?_⟩
  intro other
  rw [swapped.withExtension_eq, parts.withExtension_eq]

/-- A dot in the name of a directory, and none in the name itself. -/
theorem withExtension_swaps_extension_dottedDirectory :
    IsExtension (Text.ascii ".hack") ∧
      (∃ dir stem, Parts (Text.ascii "lib.d/../prog") dir stem [] ∧
        Parts (Text.ascii "lib.d/../prog.hack") dir stem (Text.ascii ".hack")) ∧
      extension (Text.ascii "lib.d/../prog.hack") = Text.ascii ".hack" ∧
      ∀ other, withExtension (Text.ascii "lib.d/../prog.hack") other =
        withExtension (Text.ascii "lib.d/../prog") other := by
  have hack : IsExtension (Text.ascii ".hack") :=
    ⟨Text.ascii "hack", rfl, by decide, by decide⟩
  exact ⟨hack, withExtension_swaps_extension (Text.ascii "lib.d/../prog") hack⟩

/-- No name, no directory, nothing but an extension, a single dot, and several dots. -/
example : ["", "a.b/", ".asm", "a.", "a.b.c"].map
    (fun path => withExtension (Text.ascii path) (Text.ascii ".hack")) =
      [".hack", "a.b/.hack", ".hack", "a.hack", "a.b.hack"].map Text.ascii := by
  decide

end Path
end HackMachine
