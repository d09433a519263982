import Mathlib.Data.String.Basic
import SchemaDiagram.CommandLine.Workspace

/-!
# What a write changes

A write that succeeds puts the bytes at one place, and no other place is affected
(`Workspace.write_eq_ok`). The directories stay, so a path that led to a place still leads there,
and reading the path that was written to gives the bytes (`Workspace.read_of_write`).
-/

namespace SchemaDiagram
namespace CommandLine
namespace Workspace

/-! ## The contents of files -/

theorem lookup_put_self (l : Location) (bytes : ByteArray) (fs : List (Location × ByteArray)) :
    (put l bytes fs).lookup l = some bytes := by
  induction fs with
  | nil => rw [put, List.lookup_cons_self]
  | cons f fs ih =>
    rw [put]
    split
    · rw [List.lookup_cons_self]
    · next hne => rw [List.lookup_cons, beq_false_of_ne (Ne.symm hne), ih]

theorem lookup_put_of_ne {l l' : Location} (h : l' ≠ l) (bytes : ByteArray)
    (fs : List (Location × ByteArray)) : (put l bytes fs).lookup l' = fs.lookup l' := by
  induction fs with
  | nil => rw [put, List.lookup_cons, beq_false_of_ne h]
  | cons f fs ih =>
    rw [put]
    split
    · next heq => rw [List.lookup_cons, List.lookup_cons, beq_false_of_ne h, heq,
        beq_false_of_ne h]
    · rw [List.lookup_cons, List.lookup_cons, ih]

/-- The second workspace is the first with the bytes at one place. -/
structure Writes (w : Workspace) (l : Location) (bytes : ByteArray) (w' : Workspace) : Prop where
  directories : w'.directories = w.directories
  file : w'.file? l = some bytes
  others : ∀ l' ≠ l, w'.file? l' = w.file? l'

theorem writes_put (w : Workspace) (l : Location) (bytes : ByteArray) :
    Writes w l bytes { w with files := put l bytes w.files } where
  directories := rfl
  file := lookup_put_self l bytes w.files
  others _ h := lookup_put_of_ne h bytes w.files

/-! ## Following a path -/

variable {w w' : Workspace}

theorem isDirectory_congr (h : w'.directories = w.directories) (l : Location) :
    w'.isDirectory l = w.isDirectory l := by
  rw [isDirectory, isDirectory, h]

/-- A name that leads to a directory does so whatever files there are. -/
theorem enter_congr (h : w'.directories = w.directories) {l l' : Location} {name : String}
    (henter : w.enter l name = .ok l') : w'.enter l name = .ok l' := by
  unfold enter at henter ⊢
  rw [isDirectory_congr h]
  split at henter
  · next hstay => rw [if_pos hstay, henter]
  · next hstay =>
    rw [if_neg hstay]
    split at henter
    · next hup => rw [if_pos hup, henter]
    · next hup =>
      rw [if_neg hup]
      split at henter
      · next hdown => rw [if_pos hdown, henter]
      · -- without a directory there is an error, and which one depends on the files
        split at henter <;> simp at henter

theorem walk_congr (h : w'.directories = w.directories) {names : List String} {l l' : Location}
    (hwalk : w.walk l names = .ok l') : w'.walk l names = .ok l' := by
  induction names generalizing l with
  | nil => exact hwalk
  | cons name names ih =>
    rw [walk] at hwalk ⊢
    split at hwalk
    · simp at hwalk
    · next henter =>
      rw [enter_congr h henter]
      exact ih hwalk

theorem locate_congr (h : w'.directories = w.directories) {path : String} {l : Location}
    (hlocate : w.locate path = .ok l) : w'.locate path = .ok l := by
  unfold locate at hlocate ⊢
  obtain ⟨⟨start, names⟩, hsplit⟩ : ∃ s, split path = s := ⟨_, rfl⟩
  simp only [hsplit] at hlocate ⊢
  split at hlocate
  · simp at hlocate
  · next last _ =>
    split at hlocate
    · simp at hlocate
    · next hwalk =>
      simp only [walk_congr h hwalk]
      split at hlocate
      · next hdots => rw [if_pos hdots, enter_congr h hlocate]
      · next hdots => rw [if_neg hdots, hlocate]

/-! ## Writing and reading -/

theorem withoutEndSlashes_eq_self {path : String} (h : path.endsWith "/" = false) :
    withoutEndSlashes path = path := by
  have hlast : path.toList.getLast? ≠ some '/' := by
    rw [String.endsWith_eq_endsWith_toSlice, String.Slice.endsWith_string_eq_false_iff] at h
    intro hlast
    obtain ⟨front, hfront⟩ := List.getLast?_eq_some_iff.mp hlast
    exact h ⟨front, by simp [hfront]⟩
  have hdrop : path.toList.reverse.dropWhile (· == '/') = path.toList.reverse := by
    cases hreverse : path.toList.reverse with
    | nil => rfl
    | cons c cs =>
      have hc : c ≠ '/' := by
        rintro rfl
        rw [← List.head?_reverse, hreverse] at hlast
        exact hlast rfl
      rw [List.dropWhile_cons_of_neg (by simpa using hc)]
  rw [withoutEndSlashes, hdrop, List.reverse_reverse, String.ofList_toList]

/-- **A write that succeeds** puts the bytes at the place where the path leads, which is no
directory, and changes nothing else. -/
theorem write_eq_ok {path : String} {bytes : ByteArray} (h : w.write path bytes = .ok w') :
    ∃ l, pathFault? path = none ∧ w.locate path = .ok l ∧ w.isDirectory l = false ∧
      Writes w l bytes w' := by
  unfold write at h
  split at h
  · simp at h
  · next hpath =>
    split at h
    · simp at h
    · next l hlocate =>
      split at h
      · simp at h
      · next hslash =>
        rw [not_or, Bool.not_eq_true, Bool.not_eq_true] at hslash
        split at h
        · simp at h
        · rw [withoutEndSlashes_eq_self hslash.1] at hlocate
          rw [← Except.ok.inj h]
          exact ⟨l, hpath, hlocate, hslash.2, writes_put w l bytes⟩

/-- **What was written is read** on the same path. -/
theorem read_of_write {path : String} {bytes : ByteArray} (h : w.write path bytes = .ok w') :
    w'.read path = .ok bytes := by
  obtain ⟨l, hpath, hlocate, hdirectory, hwrites⟩ := write_eq_ok h
  have hlocate' := locate_congr hwrites.directories hlocate
  have hdirectory' : w'.isDirectory l = false := by
    rw [isDirectory_congr hwrites.directories, hdirectory]
  rw [read, hpath]
  simp only [hlocate', hdirectory', hwrites.file]
  rfl

/-! ## Files in the top directory -/

open String in
theorem splitOnAux_of_not_mem (l r : List Char) (h : '/' ∉ r) :
    splitOnAux (ofList (l ++ r)) "/" 0 ⟨utf8Len l⟩ 0 [] = [ofList (l ++ r)] := by
  induction r generalizing l with
  | nil =>
    have hend : Pos.Raw.atEnd (ofList l) ⟨utf8Len l⟩ = true := by simp
    have hall := extract_of_valid [] l []
    simp only [List.nil_append, List.append_nil, utf8Len_nil, Nat.zero_add] at hall
    rw [splitOnAux]
    simp only [List.append_nil, hend, if_true, List.reverse_singleton]
    exact congrArg (· :: []) hall
  | cons c r ih =>
    rw [List.mem_cons, not_or] at h
    have hend : ¬ Pos.Raw.atEnd (ofList (l ++ c :: r)) ⟨utf8Len l⟩ = true := by
      rw [atEnd_of_valid]
      simp
    have hc : Pos.Raw.get (ofList (l ++ c :: r)) ⟨utf8Len l⟩ = c := get_of_valid l (c :: r)
    have hslash : ¬ (c == Pos.Raw.get "/" 0) = true := fun hc' => h.1 (beq_iff_eq.mp hc').symm
    have hnext : Pos.Raw.next (ofList (l ++ c :: r)) (Pos.Raw.unoffsetBy ⟨utf8Len l⟩ 0) =
        ⟨utf8Len (l ++ [c])⟩ := by
      rw [utf8Len_append, utf8Len_cons, utf8Len_nil, Nat.zero_add]
      exact next_of_valid l c r
    have hrest := ih (l ++ [c]) h.2
    rw [List.append_assoc, List.singleton_append] at hrest
    rw [splitOnAux, if_neg hend, hc, if_neg hslash, hnext]
    exact hrest

/-- A path without slashes is a name. -/
theorem splitOn_of_not_mem {name : String} (h : '/' ∉ name.toList) :
    name.splitOn "/" = [name] := by
  have haux := splitOnAux_of_not_mem [] name.toList h
  rw [List.nil_append, String.ofList_toList] at haux
  rw [String.splitOn, if_neg (by decide)]
  exact haux

/-- A name by which a file in the top directory can be found. -/
structure IsPlainName (name : String) : Prop where
  slash : '/' ∉ name.toList
  dots : name ≠ "" ∧ name ≠ "." ∧ name ≠ upwards
  length : name.utf8ByteSize ≤ maxNameBytes

namespace IsPlainName

variable {name : String}

theorem pathFault? (h : IsPlainName name) : pathFault? name = none := by
  have hlength := h.length
  rw [Workspace.pathFault?, if_neg h.dots.1, if_neg]
  simp only [maxPathBytes, maxNameBytes] at *
  omega

theorem locate (h : IsPlainName name) : w.locate name = .ok [name] := by
  have hstart : name.startsWith "/" = false := by
    rw [String.startsWith_string_eq_false_iff]
    rintro ⟨rest, hrest⟩
    exact h.slash (by rw [← hrest]; simp)
  have hsplit : split name = ([], [name]) := by
    rw [split, splitOn_of_not_mem h.slash, hstart]
    rfl
  rw [Workspace.locate, hsplit]
  simp [walk, h.dots]

/-- A file in the top directory is read by its name. -/
theorem read {bytes : ByteArray} (h : IsPlainName name) (hdirectory : w.isDirectory [name] = false)
    (hfile : w.file? [name] = some bytes) : w.read name = .ok bytes := by
  rw [Workspace.read, h.pathFault?]
  simp only [h.locate, hdirectory, hfile]
  rfl

/-- A file in the top directory is written by its name. -/
theorem write (bytes : ByteArray) (h : IsPlainName name)
    (hdirectory : w.isDirectory [name] = false) :
    w.write name bytes = .ok { w with files := put [name] bytes w.files } := by
  have hend : name.endsWith "/" = false := by
    rw [String.endsWith_eq_endsWith_toSlice, String.Slice.endsWith_string_eq_false_iff]
    rintro ⟨front, hfront⟩
    exact h.slash (by simp at hfront; rw [← hfront]; simp)
  have hlong : hasLongName [name] = false := by
    simp [hasLongName, h.length]
  rw [Workspace.write, h.pathFault?]
  simp only [withoutEndSlashes_eq_self hend, h.locate, hend, hdirectory, hlong]
  rfl

end IsPlainName

end Workspace
end CommandLine
end SchemaDiagram
