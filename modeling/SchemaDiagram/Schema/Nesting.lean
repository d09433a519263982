import SchemaDiagram.Schema.Error
import SchemaDiagram.Schema.Literal
import SchemaDiagram.Text.Line

/-!
# Nested groups

The arguments of an attribute may contain groups in round, square or curly brackets and string
literals. `Nesting` is how deep a scan stands in them: the open brackets, innermost first, and the
state of the literal. `Nesting.step` advances it over one character and is the only place that knows
which bracket closes which.

Two scans run on it. `takeGroup` starts just after an opening bracket and takes the text up to the
bracket that closes it. `splitAtCommas` reads a whole text and cuts it at the commas that stand
outside all groups and literals. Since they share the step, what is inside a group that `takeGroup`
accepts is always accepted by `splitAtCommas`.
-/

namespace SchemaDiagram

/-- How deep a scan stands in groups and literals. -/
structure Nesting where
  /-- The open brackets, innermost first. -/
  brackets : List Bracket := []
  /-- The state of the string literal. -/
  literal : LiteralState := .outside
  deriving DecidableEq, Repr, Inhabited

namespace Nesting

/-- The nesting at the start of a text. -/
def top : Nesting := {}

/-- The nesting just after the first bracket of a text. -/
def inGroup (b : Bracket) : Nesting := { brackets := [b] }

/-- Whether the scan stands outside every group and every literal. -/
def isTop (n : Nesting) : Bool :=
  n.brackets.isEmpty && n.literal == .outside

/-- Closes the innermost group, if it is of the given kind. -/
def close (b : Bracket) : List Bracket → Except Cause Nesting
  | [] => .error (.unexpectedCloser b)
  | innermost :: others =>
    if innermost = b then .ok { brackets := others } else .error (.mismatchedCloser b)

/-- The nesting after one more character. Inside a literal brackets mean nothing. -/
def step (n : Nesting) (c : Char) : Except Cause Nesting :=
  match n.literal with
  | .outside =>
    match Bracket.ofOpener? c, Bracket.ofCloser? c with
    | some b, _ => .ok { n with brackets := b :: n.brackets }
    | none, some b => close b n.brackets
    | none, none => .ok { n with literal := n.literal.next c }
  | _ => .ok { n with literal := n.literal.next c }

/-- Checks that a text may end here. An open group is reported rather than an open literal, and of
the open groups the outermost. -/
def finish (n : Nesting) : Except Cause Unit :=
  match n.brackets.getLast?, n.literal with
  | some b, _ => .error (.unclosedGroup b)
  | none, .outside => .ok ()
  | none, _ => .error .unterminatedLiteral

end Nesting

/-! ## Taking a group -/

/-- Takes the text up to the character that leaves no bracket open. The results are the text before
that character and the text after it; `outermost` is the bracket to blame if there is no such
character. -/
def takeGroupFrom (outermost : Bracket) (n : Nesting) :
    List Char → Except Cause (List Char × List Char)
  | [] => .error (.unclosedGroup outermost)
  | c :: rest => match n.step c with
    | .error e => .error e
    | .ok m =>
      if m.brackets.isEmpty then .ok ([], rest)
      else (takeGroupFrom outermost m rest).map fun r => (c :: r.1, r.2)

/-- Takes the rest of a group whose opening bracket has just been read: the text inside the group
and the text after its closing bracket. -/
def takeGroup (b : Bracket) (text : List Char) : Except Cause (List Char × List Char) :=
  takeGroupFrom b (.inGroup b) text

/-- Why no closing bracket can be given for a position of a text. -/
inductive ClosingFault where
  /-- The position lies past the end of the text. -/
  | pastEnd
  /-- The character at the position opens no bracket. -/
  | notAnOpener
  /-- The group that starts at the position does not end. -/
  | noGroup (cause : Cause)
  deriving DecidableEq, Repr

/-- The error of the text that the fault is, on the given line. For the other faults only the
position is to blame. -/
def ClosingFault.error? (line : Option Int) : ClosingFault → Option SchemaError
  | .noGroup cause => some { cause, line }
  | .pastEnd | .notAnOpener => none

/-- The position of the bracket that closes the one at position `start`. -/
def closingPosition (text : List Char) (start : Nat) : Except ClosingFault Nat :=
  match text.drop start with
  | [] => .error .pastEnd
  | c :: rest => match Bracket.ofOpener? c with
    | none => .error .notAnOpener
    | some b => match takeGroup b rest with
      | .error e => .error (.noGroup e)
      | .ok (inside, _) => .ok (start + 1 + inside.length)

/-- A group that was taken and what follows it are shorter than the text. -/
theorem length_of_takeGroupFrom {outermost : Bracket} {n : Nesting} {text inside after : List Char}
    (h : takeGroupFrom outermost n text = .ok (inside, after)) :
    inside.length + after.length < text.length := by
  induction text generalizing n inside with
  | nil => simp [takeGroupFrom] at h
  | cons c rest ih =>
    rw [takeGroupFrom] at h
    split at h
    · simp at h
    · next m _ =>
      split at h
      · obtain ⟨rfl, rfl⟩ := Prod.mk.inj (Except.ok.inj h)
        simp
      · cases hr : takeGroupFrom outermost m rest with
        | error e => simp [hr, Except.map] at h
        | ok r =>
          rw [hr] at h
          obtain ⟨rfl, rfl⟩ := Prod.mk.inj (Except.ok.inj h)
          have := ih hr
          simp only [List.length_cons]
          omega

/-! ## Cutting at commas -/

/-- The pieces of a text between its commas, where only the commas outside all groups and literals
count. -/
def splitAtCommasFrom (n : Nesting) : List Char → Except Cause (List (List Char))
  | [] => n.finish.map fun _ => [[]]
  | c :: rest =>
    if n.isTop && c == ',' then (splitAtCommasFrom n rest).map ([] :: ·)
    else match n.step c with
      | .error e => .error e
      | .ok m => (splitAtCommasFrom m rest).map (Text.consToFirst c)

/-- The pieces of a whole text between its top-level commas; there is at least one. -/
def splitAtCommas (text : List Char) : Except Cause (List (List Char)) :=
  splitAtCommasFrom .top text

end SchemaDiagram
