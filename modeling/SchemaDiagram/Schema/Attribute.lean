import SchemaDiagram.Schema.Argument

/-!
# Attributes

An attribute is an `@`, a name or two names joined by a dot, and, right behind it, an optional
list of arguments in parentheses. Attributes may follow each other with or without blanks between
them, and nothing else may stand among them.
-/

namespace SchemaDiagram
namespace Attribute

/-- The name of an attribute at the front of the text: a name, or two names joined by a dot. A dot
that is not followed by a name is left in the rest. -/
def readName (text : List Char) : Option (List Char × List Char) :=
  match Text.readName text with
  | some (first, '.' :: rest) => match Text.readName rest with
    | some (second, rest') => some (first ++ '.' :: second, rest')
    | none => some (first, '.' :: rest)
  | r => r

/-- Reads one attribute at the front of the text, which starts with no blank. -/
def read (text : List Char) : Except Cause (Attribute × List Char) :=
  match text with
  | '@' :: afterAt => match readName afterAt with
    | some (name, '(' :: inner) => match takeGroup .round inner with
      | .error e => .error e
      | .ok (inside, rest) =>
        (Argument.parseList inside).map fun args =>
          ({ name := String.ofList name, arguments := args }, rest)
    | some (name, rest) => .ok ({ name := String.ofList name }, rest)
    | none => .error (.unexpectedText (String.ofList (Text.stripEnd text)))
  | _ => .error (.unexpectedText (String.ofList (Text.stripEnd text)))

/-- Reading the name of an attribute consumes at least one character. -/
theorem length_lt_of_readName {text name rest : List Char}
    (h : readName text = some (name, rest)) : rest.length < text.length := by
  unfold readName at h
  split at h
  · next first r hfirst =>
    have hlt := Text.length_lt_of_readName hfirst
    split at h
    · next second r' hsecond =>
      obtain ⟨-, rfl⟩ := Prod.mk.inj (Option.some.inj h)
      have := Text.length_lt_of_readName hsecond
      simp only [List.length_cons] at hlt
      omega
    · obtain ⟨-, rfl⟩ := Prod.mk.inj (Option.some.inj h)
      exact hlt
  · exact Text.length_lt_of_readName h

/-- Reading an attribute consumes at least one character. -/
theorem length_lt_of_read {text rest : List Char} {a : Attribute}
    (h : read text = .ok (a, rest)) : rest.length < text.length := by
  unfold read at h
  split at h
  · next afterAt =>
    split at h
    · next name inner hname =>
      have hlt := length_lt_of_readName hname
      split at h
      · simp at h
      · next inside after hgroup =>
        have hgrp := length_of_takeGroupFrom hgroup
        cases hargs : Argument.parseList inside with
        | error e => simp [hargs, Except.map] at h
        | ok args =>
          rw [hargs] at h
          obtain ⟨-, rfl⟩ := Prod.mk.inj (Except.ok.inj h)
          simp only [List.length_cons] at hlt ⊢
          omega
    · next hname =>
      obtain ⟨-, rfl⟩ := Prod.mk.inj (Except.ok.inj h)
      have := length_lt_of_readName hname
      simp only [List.length_cons]
      omega
    · simp at h
  · simp at h

/-- Reads a run of attributes that fills the whole text. -/
def parseRun (text : List Char) : Except Cause (List Attribute) :=
  match _hstart : Text.stripStart text with
  | [] => .ok []
  | c :: r => match _hread : read (c :: r) with
    | .error e => .error e
    | .ok (a, rest) => (parseRun rest).map (a :: ·)
termination_by text.length
decreasing_by
  have hlt := length_lt_of_read _hread
  have hle := Text.length_stripStart_le text
  rw [_hstart] at hle
  omega

/-- Reading a run: nothing is left but blanks, or there is an attribute and a run after it. -/
theorem parseRun_eq (text : List Char) :
    parseRun text = match Text.stripStart text with
      | [] => .ok []
      | c :: r => match read (c :: r) with
        | .error e => .error e
        | .ok (a, rest) => (parseRun rest).map (a :: ·) := by
  rw [parseRun]
  split <;> rename_i heq <;> simp only [heq]
  split <;> rename_i hread <;> simp only [hread]

end Attribute
end SchemaDiagram
