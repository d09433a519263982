import Mathlib.Data.List.TakeWhile
import SchemaDiagram.CommandLine.Arguments
import SchemaDiagram.Proofs.Outcome

/-!
# What the arguments ask for

The words of a command line are gone through from left to right, and what they say about the place
to write to is overwritten again and again. So the request has the last of the places that are given
(`Request.output_of_ofArguments`), or standard output if none is.
-/

namespace SchemaDiagram
namespace CommandLine

/-! ## What a switch does -/

/-- What a switch can do. One that answers at once is asked for help or for the version, and only
the switch that says where to write goes on. -/
def Switch.MayDo (s : Switch) (attached : Option (List Char)) : SwitchEffect → Prop
  | .answer request => request = .help ∨ request = .version
  | .write destination => s = .output ∧ ∃ value, attached = some value ∧
      destination = .ofAttached value
  | .writeNext => s = .output ∧ attached = none

theorem mayDo_of_switchEffect {s : Switch} {isLong : Bool} {attached : Option (List Char)}
    {hasNext : Bool} {effect : SwitchEffect}
    (h : switchEffect s isLong attached hasNext = .ok effect) : s.MayDo attached effect := by
  unfold switchEffect at h
  split at h
  · obtain rfl := Except.ok.inj h
    exact ⟨rfl, _, rfl, rfl⟩
  · split at h
    · obtain rfl := Except.ok.inj h
      exact ⟨rfl, rfl⟩
    · simp at h
  · obtain rfl := Except.ok.inj h
    exact .inl rfl
  · obtain rfl := Except.ok.inj h
    exact .inr rfl
  · split at h
    · simp at h
    · obtain ⟨-, -, rfl⟩ := map_eq_ok_iff.mp h
      split
      · exact .inl rfl
      · exact .inr rfl

/-! ## The last place to write to -/

/-- The places to write to that the words give, in order. -/
def Word.destinations : List Word → List Destination
  | [] => []
  | .switch .output _ (some value) :: words => .ofAttached value :: destinations words
  | .switch .output _ none :: .operand path :: words => .file path :: destinations words
  | _ :: words => destinations words

namespace Request

/-- The places to write to that are given in front of the separator. Arguments that cannot be read
give none. -/
def destinations (arguments : List String) : List Destination :=
  match Word.ofArguments (arguments.takeWhile (· ≠ separator)) with
  | .error _ => []
  | .ok words => Word.destinations words

theorem output_of_close {r : Reading} {i : Option String} {o : Destination}
    (h : r.close = .ok (.draw i o)) : o = r.output := by
  unfold Reading.close at h
  split at h
  · exact (Request.draw.inj (Except.ok.inj h)).2.symm
  · simp at h

theorem output_of_closeWith {r : Reading} {trailing : Option (List String)} {i : Option String}
    {o : Destination} (h : r.closeWith trailing = .ok (.draw i o)) : o = r.output := by
  unfold Reading.closeWith at h
  split at h
  · exact output_of_close h
  · split at h
    · exact (output_of_close h :)
    · exact output_of_close h
    · exact (output_of_close h :)

/-- **The last place counts.** The words after what is known write to the last place they give, or
to the one that was known if they give none. -/
theorem output_of_ofWords {trailing : Option (List String)} {r : Reading} {words : List Word}
    {i : Option String} {o : Destination} (h : ofWords trailing r words = .ok (.draw i o)) :
    o = (Word.destinations words).getLast?.getD r.output := by
  fun_induction ofWords trailing r words with
  | case1 r => exact output_of_closeWith h
  | case2 r text words ih => exact ih h
  | case3 r text operands => exact (output_of_close h :)
  | case4 r text words hinput hlast ih => exact ih h
  | case5 r text first words hinput ih => exact ih h
  | case6 r s isLong attached words e he => simp [he] at h
  | case7 r s isLong attached words request hrequest =>
    simp only [hrequest, Except.ok.injEq] at h
    subst h
    rcases mayDo_of_switchEffect hrequest with heffect | heffect <;> simp at heffect
  | case8 r s isLong attached destination words hwrite ih =>
    simp only [hwrite] at h
    obtain ⟨rfl, value, rfl, rfl⟩ := mayDo_of_switchEffect hwrite
    rw [Word.destinations, List.getLast?_cons]
    exact ih h
  | case9 r s isLong attached path words hnext ih =>
    simp only [hnext] at h
    obtain ⟨rfl, rfl⟩ := mayDo_of_switchEffect hnext
    rw [Word.destinations, List.getLast?_cons]
    exact ih h
  | case10 r s isLong attached words hnext hoperand =>
    simp only [hnext, reduceCtorEq] at h

/-- **The place to write to** is the last one that is given in front of the separator. -/
theorem output_of_ofArguments {arguments : List String} {i : Option String} {o : Destination}
    (h : ofArguments arguments = .ok (.draw i o)) :
    o = (destinations arguments).getLast?.getD .standardOutput := by
  cases hwords : Word.ofArguments (arguments.takeWhile (· ≠ separator)) with
  | error e => simp only [ofArguments, hwords, reduceCtorEq] at h
  | ok words =>
    simp only [ofArguments, hwords] at h
    simp only [destinations, hwords]
    exact output_of_ofWords h

/-- A request to write to a file has the file from the arguments. -/
theorem getLast?_destinations {arguments : List String} {i : Option String} {path : String}
    (h : ofArguments arguments = .ok (.draw i (.file path))) :
    (destinations arguments).getLast? = some (.file path) := by
  have houtput := output_of_ofArguments h
  cases hlast : (destinations arguments).getLast? with
  | none => rw [hlast] at houtput; simp at houtput
  | some o => rw [hlast] at houtput; rw [houtput, Option.getD_some]

/-! ## Plain arguments -/

/-- The argument cannot be taken for a switch or for the separator: it is not a dash with something
behind it. -/
def IsPlain (argument : String) : Prop :=
  ∀ second rest, argument.toList ≠ '-' :: second :: rest

theorem IsPlain.ne_separator {argument : String} (h : IsPlain argument) : argument ≠ separator := by
  rintro rfl
  exact h '-' [] rfl

theorem IsPlain.ofArgument {argument : String} (h : IsPlain argument) :
    Word.ofArgument argument = .ok (.operand argument) := by
  unfold Word.ofArgument
  split
  · next second rest hdash => exact absurd hdash (h second rest)
  · rfl

/-- The arguments that name a file to write to and a file to read, as far as there are such. -/
def plainArguments (input output : Option String) : List String :=
  (output.elim [] fun path => ["-o", path]) ++ input.toList

/-- Plain arguments ask for what they name. -/
theorem ofArguments_plainArguments {input output : Option String}
    (hinput : ∀ path ∈ input, IsPlain path) (houtput : ∀ path ∈ output, IsPlain path) :
    ofArguments (plainArguments input output) =
      .ok (.draw input (output.elim .standardOutput .file)) := by
  have hswitch : Word.ofArgument "-o" = .ok (.switch .output false none) := by rfl
  have hwords : Word.ofArguments (plainArguments input output) =
      .ok ((output.elim [] fun path => [.switch .output false none, .operand path]) ++
        input.toList.map .operand) := by
    cases input <;> cases output <;>
      simp_all [plainArguments, Word.ofArguments, IsPlain.ofArgument, Except.map]
  have hkeep : ∀ a ∈ plainArguments input output, a ≠ separator := by
    intro a ha
    rcases List.mem_append.mp ha with ha | ha
    · cases output with
      | none => simp at ha
      | some path =>
        simp only [Option.elim_some, List.mem_cons, List.not_mem_nil, or_false] at ha
        rcases ha with rfl | rfl
        · decide
        · exact (houtput a rfl).ne_separator
    · exact (hinput a (Option.mem_toList.mp ha)).ne_separator
  rw [ofArguments, List.takeWhile_eq_self_iff.mpr (by simpa using hkeep), hwords,
    trailingOperands, List.dropWhile_eq_nil_iff.mpr (by simpa using hkeep)]
  cases input <;> cases output <;> rfl

end Request
end CommandLine
end SchemaDiagram
